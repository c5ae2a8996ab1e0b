import AttrCheck.Grammar.Stmt

/-!
The grammar of whole texts: functions and variables with layout between them. Reading stops where
the last of them ends, and text that is left there is an error at that place.
-/

namespace AttrCheck

structure SourceError where
  loc : Loc
  /-- What stands there, to the end of the line at most. -/
  near : String
deriving DecidableEq

namespace SourceError

def nearLength : Nat := 20

def atCursor (c : Cursor) : SourceError :=
  ⟨c.loc, String.ofList ((c.rest.take nearLength).takeWhile (· ≠ '\n'))⟩

def message (e : SourceError) : String :=
  if e.near = "" then "unexpected end of input" else s!"syntax error near '{e.near}'"

def text (e : SourceError) : String := s!"{e.loc.text}: {e.message}"

end SourceError

inductive TopLevel where
  | function (f : Function)
  | global (d : VarDecl)

namespace TopLevel

def function? : TopLevel → Option Function
  | function f => some f
  | global _ => none

def global? : TopLevel → Option VarDecl
  | function _ => none
  | global d => some d

end TopLevel

def SourceUnit.ofItems (file : String) (items : List TopLevel) : SourceUnit :=
  ⟨items.filterMap TopLevel.function?, items.filterMap TopLevel.global?, file⟩

namespace Parser

def templateParamWords : List String :=
  ["typename", "class", "int", "unsigned", "long", "short", "bool", "char"]

def templateParam : Parser String := do
  let _ ← oneWordOf templateParamWords
  spaced name

variable (n : Nat)

def templateHeader : Parser (List String) := do
  keyword "template"
  spaced (symbol "<")
  let params ← spaced (commaList templateParam n)
  spaced (symbol ">")
  layout
  return params

def param : Parser (Option String) := do
  let _ ← typeName n
  maybe (spaced name)

def function : Parser Function := do
  let loc ← here
  let templateParams ← orElse (templateHeader n) []
  let type ← typeName n
  let name ← spaced name
  let params ← spaced (parens (orElse (commaList (param n) n) []))
  let body ← spaced (compoundStmt n (stmt n))
  return { name, body, params := params.filterMap id, templateParams, returnType := type.text, loc }

def topLevel : Parser TopLevel :=
  TopLevel.function <$> function n <|> TopLevel.global <$> variableDecl n

def items : Parser (List TopLevel) := do
  layout
  many (topLevel n <* layout) n

end Parser

def parse (file text : String) : Except SourceError SourceUnit :=
  let start := Cursor.ofText file text
  match Parser.items (start.rest.length + 1) start with
  | none => .error (.atCursor start)
  | some (items, c) =>
    if c.rest.isEmpty then .ok (.ofItems file items) else .error (.atCursor c)

end AttrCheck
