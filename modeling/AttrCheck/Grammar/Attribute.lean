import AttrCheck.Grammar.Expr
import AttrCheck.Attribute

/-!
The grammar of attribute specifiers. Each specifier gives a list of attributes and the range it
takes up; that of a loop directive ends with its last option and not with its line.
-/

namespace AttrCheck

structure Specifier where
  attrs : List RawAttr
  range : Range

/-- The attribute for one option of a loop directive. Its places are the option, the word of its
value and the value; a value that is no name leaves the place of its word only. -/
def RawAttr.ofLoopOption (range : Range) (option : String) (value : Option Expr) (close : Loc) :
    RawAttr :=
  let word : Ident :=
    match value with
    | none => ⟨close, none⟩
    | some (.name n _ loc) => ⟨loc, some n⟩
    | some e => ⟨e.loc, none⟩
  { name := "loop"
    spelling := .pragma
    scope := none
    args := [some (.ident ⟨range.start, some option⟩), some (.ident word), value.map .expr]
    range }

namespace Parser

variable (n : Nat) (inner : Parser Expr)

def scopedName : Parser (Option String × String) := do
  let first ← name
  (do
    spaced (symbol "::")
    let second ← spaced name
    return (some first, second)) <|> return (none, first)

def attributeWith (spelling : Spelling) (named : Parser (Option String × String)) :
    Parser RawAttr := do
  let start ← here
  let (scope, name) ← named
  let args ← orElse (spaced (arguments n inner)) []
  let stop ← here
  return { name, spelling, scope, args := args.map fun e => some (.expr e), range := ⟨start, stop⟩ }

def attributeList (spelling : Spelling) : Parser (List RawAttr) :=
  orElse (commaList (attributeWith n inner spelling scopedName) n) []

def declspecEntry : Parser RawAttr :=
  attributeWith n inner .declspec do return (none, ← name)

def declspecList : Parser (List RawAttr) :=
  orElse (do
    let first ← declspecEntry n inner
    let more ← many (spaced (declspecEntry n inner)) n
    return first :: more) []

def specifier (p : Parser (List RawAttr)) : Parser Specifier := do
  let start ← here
  let attrs ← p
  let stop ← here
  return ⟨attrs, ⟨start, stop⟩⟩

def bracketSpecifier : Parser Specifier := specifier do
  symbol "[["
  let attrs ← spaced (attributeList n inner .cxx11)
  spaced (symbol "]]")
  return attrs

def gnuSpecifier : Parser Specifier := specifier do
  keyword "__attribute__"
  spaced (parens (parens (attributeList n inner .gnu)))

def declspecSpecifier : Parser Specifier := specifier do
  keyword "__declspec"
  spaced (parens (declspecList n inner))

def loopOption : Parser RawAttr := do
  let _ ← run Text.isInlineBlank
  let start ← here
  let option ← name
  let _ ← run Text.isInlineBlank
  symbol "("
  let value ← spaced (maybe inner)
  layout
  let close ← here
  symbol ")"
  let stop ← here
  return .ofLoopOption ⟨start, stop⟩ option value close

def lineEnd : Parser Unit := do
  let _ ← maybe (symbol "//" *> run (· ≠ '\n'))
  symbol "\n" <|> notBefore fun _ => true

def loopSpecifier : Parser Specifier := do
  let start ← here
  loopDirective
  let first ← loopOption inner
  let more ← many (loopOption inner) n
  let _ ← run Text.isInlineBlank
  lineEnd
  return ⟨first :: more, ⟨start, (more.getLastD first).range.stop⟩⟩

def anySpecifier : Parser Specifier :=
  firstOf [bracketSpecifier n inner, gnuSpecifier n inner, declspecSpecifier n inner,
    loopSpecifier n inner]

def specifiers : Parser Specifier := do
  let first ← anySpecifier n inner
  let more ← many (spaced (anySpecifier n inner)) n
  return ⟨first.attrs ++ more.flatMap Specifier.attrs,
    ⟨first.range.start, (more.getLastD first).range.stop⟩⟩

end Parser

end AttrCheck
