import AttrCheck.Loc
import AttrCheck.Text.Blank
import AttrCheck.Text.Word

/-!
Parsers on a cursor: what is left of the text and the place where it begins. A choice takes its
first alternative that succeeds and never comes back to it. Repetition is given the number of
rounds it may take; a text has fewer rounds in it than characters.
-/

namespace AttrCheck

structure Cursor where
  loc : Loc
  rest : List Char
deriving DecidableEq

namespace Cursor

def ofText (file : String) (text : String) : Cursor := ⟨Loc.start file, text.toList⟩

def behind (c : Cursor) (lexeme rest : List Char) : Cursor := ⟨c.loc.after lexeme, rest⟩

end Cursor

abbrev Parser := StateT Cursor Option

namespace Parser

variable {α β : Type}

def here : Parser Loc := fun c => some (c.loc, c)

def lexeme (split : List Char → Option (α × List Char × List Char)) : Parser α := fun c =>
  (split c.rest).map fun (a, lexeme, rest) => (a, c.behind lexeme rest)

def symbol (s : String) : Parser Unit :=
  lexeme fun cs => (s.toList.isPrefixOf? cs).map fun rest => ((), s.toList, rest)

def run (p : Char → Bool) : Parser (List Char) :=
  lexeme fun cs => some (cs.takeWhile p, cs.takeWhile p, cs.dropWhile p)

def notBefore (p : Char → Bool) : Parser Unit := fun c =>
  match c.rest with
  | [] => some ((), c)
  | d :: _ => if p d then none else some ((), c)

def symbolNotBefore (s : String) (bad : List Char) : Parser Unit := do
  symbol s
  notBefore bad.contains

def keyword (s : String) : Parser Unit := do
  symbol s
  notBefore Text.isWord

def run₁ (p : Char → Bool) : Parser (List Char) := do
  let cs ← run p
  if cs.isEmpty then failure else return cs

def firstOf : List (Parser α) → Parser α
  | [] => failure
  | p :: ps => p <|> firstOf ps

def maybe (p : Parser α) : Parser (Option α) := some <$> p <|> pure none

def orElse (p : Parser α) (a : α) : Parser α := p <|> pure a

/-- As many rounds as succeed, at most `n`. -/
def many (p : Parser α) : Nat → Parser (List α)
  | 0 => pure []
  | n + 1 => (do
      let a ← p
      let as ← many p n
      return a :: as) <|> pure []

end Parser

end AttrCheck
