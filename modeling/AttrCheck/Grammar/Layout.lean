import AttrCheck.Grammar.Parser

/-!
Layout, which may stand between any two tokens: white space, comments, and preprocessor lines other
than loop directives. A comment that is not closed is no layout.
-/

namespace AttrCheck

/-- Where a scan through layout is. A mode with a cursor goes back to it if what was begun there
turns out to be no comment. -/
inductive LayoutMode where
  | code
  /-- In a comment or a preprocessor line, which a line feed ends. -/
  | line
  /-- Behind a slash in code. -/
  | slash (opened : Cursor)
  | comment (opened : Cursor)
  /-- Behind a star in a comment. -/
  | star (opened : Cursor)

namespace Parser

def loopDirective : Parser Unit := do
  symbol "#"
  let _ ← run Text.isInlineBlank
  symbol "pragma"
  let _ ← run₁ Text.isInlineBlank
  symbol "clang"
  let _ ← run₁ Text.isInlineBlank
  keyword "loop"

def atLoopDirective (c : Cursor) : Bool := (loopDirective c).isSome

end Parser

def skipLayout (mode : LayoutMode) (loc : Loc) : List Char → Cursor
  | [] =>
    match mode with
    | .code | .line => ⟨loc, []⟩
    | .slash opened | .comment opened | .star opened => opened
  | c :: cs =>
    match mode with
    | .code =>
      if Text.isBlank c then skipLayout .code (loc.next c) cs
      else if c = '/' then skipLayout (.slash ⟨loc, c :: cs⟩) (loc.next c) cs
      else if c = '#' && !Parser.atLoopDirective ⟨loc, c :: cs⟩ then
        skipLayout .line (loc.next c) cs
      else ⟨loc, c :: cs⟩
    | .line => skipLayout (if c = '\n' then .code else .line) (loc.next c) cs
    | .slash opened =>
      if c = '/' then skipLayout .line (loc.next c) cs
      else if c = '*' then skipLayout (.comment opened) (loc.next c) cs
      else opened
    | .comment opened =>
      skipLayout (if c = '*' then .star opened else .comment opened) (loc.next c) cs
    | .star opened =>
      skipLayout (if c = '/' then .code else if c = '*' then .star opened else .comment opened)
        (loc.next c) cs

namespace Parser

def layout : Parser Unit := fun c => some ((), skipLayout .code c.loc c.rest)

def spaced {α : Type} (p : Parser α) : Parser α := do
  layout
  p

def parens {α : Type} (p : Parser α) : Parser α := do
  symbol "("
  let a ← spaced p
  spaced (symbol ")")
  return a

def commaList {α : Type} (item : Parser α) (n : Nat) : Parser (List α) := do
  let a ← item
  let as ← many (spaced (symbol ",") *> spaced item) n
  return a :: as

end Parser

end AttrCheck
