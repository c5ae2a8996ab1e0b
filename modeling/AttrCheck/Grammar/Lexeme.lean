import AttrCheck.Grammar.Layout

/-!
Names, literals and type names. A literal number is a whole word; a name takes the front of a word
that is not reserved, as far as it consists of plain letters, digits and underscores.
-/

namespace AttrCheck

def reservedWords : List String :=
  ["if", "else", "switch", "case", "default", "for", "while", "do", "break", "continue", "return",
    "const", "static", "int", "long", "short", "char", "unsigned", "signed", "auto", "bool",
    "float", "double", "void", "template", "typename", "class", "true", "false", "__attribute__",
    "__declspec"]

def isNameStart (c : Char) : Bool := c.isAlpha || c = '_'

def isNamePart (c : Char) : Bool := c.isAlphanum || c = '_'

def frontWord (cs : List Char) : List Char := cs.takeWhile Text.isWord

def isReserved (word : List Char) : Bool := reservedWords.contains (String.ofList word)

def splitName (cs : List Char) : Option (String × List Char × List Char) :=
  match cs with
  | [] => none
  | c :: _ =>
    if isNameStart c && !isReserved (frontWord cs) then
      let name := cs.takeWhile isNamePart
      some (String.ofList name, name, cs.dropWhile isNamePart)
    else none

def hexValue (c : Char) : Nat :=
  if c.isDigit then c.toNat - 48 else if c.isLower then c.toNat - 87 else c.toNat - 55

def isHexDigit (c : Char) : Bool :=
  c.isDigit || ('a' ≤ c && c ≤ 'f') || ('A' ≤ c && c ≤ 'F')

def isOctalDigit (c : Char) : Bool := '0' ≤ c && c ≤ '7'

def isBinaryDigit (c : Char) : Bool := c = '0' || c = '1'

def ofDigits (base : Nat) (digits : List Char) : Nat :=
  digits.foldl (fun acc c => base * acc + hexValue c) 0

theorem ofDigits_append_singleton (base : Nat) (digits : List Char) (c : Char) :
    ofDigits base (digits ++ [c]) = base * ofDigits base digits + hexValue c := by
  simp [ofDigits]

def numberSuffixes : List String :=
  ["", "u", "U", "l", "L", "ll", "LL", "ul", "uL", "ull", "uLL", "Ul", "UL", "Ull", "ULL",
    "lu", "lU", "Lu", "LU", "llu", "llU", "LLu", "LLU"]

def isSuffixChar (c : Char) : Bool := c = 'u' || c = 'U' || c = 'l' || c = 'L'

/-- The number that a word without an ending writes: hexadecimal behind `0x`, binary behind `0b`,
octal behind any other `0`, and else decimal. A word of any length writes one; whether the host
takes it shows where the tree is built. -/
def bareNumber? : List Char → Option Nat
  | '0' :: ds =>
    match ds with
    | 'x' :: hs | 'X' :: hs =>
      if !hs.isEmpty && hs.all isHexDigit then some (ofDigits 16 hs) else none
    | 'b' :: bs | 'B' :: bs =>
      if !bs.isEmpty && bs.all isBinaryDigit then some (ofDigits 2 bs) else none
    | _ => if ds.all isOctalDigit then some (ofDigits 8 ds) else none
  | ds => if !ds.isEmpty && ds.all Char.isDigit then some (ofDigits 10 ds) else none

def wordNumber? (word : List Char) : Option Nat :=
  let ending := (word.reverse.takeWhile isSuffixChar).reverse
  let bare := (word.reverse.dropWhile isSuffixChar).reverse
  if numberSuffixes.contains (String.ofList ending) then bareNumber? bare else none

def splitNumber (cs : List Char) : Option ((Nat × String) × List Char × List Char) :=
  let word := frontWord cs
  (wordNumber? word).map fun n =>
    ((n, String.ofList word), word, cs.dropWhile Text.isWord)

/-- Splits off the inside of a string and its closing quote. A backslash takes the next character
along, and neither form spans lines. -/
def splitStringBody : List Char → Option (List Char × List Char)
  | [] => none
  | '"' :: cs => some ([], cs)
  | '\\' :: c :: cs =>
    if c = '\n' then none
    else (splitStringBody cs).map fun (body, rest) => ('\\' :: c :: body, rest)
  | c :: cs =>
    if c = '\\' || c = '\n' then none
    else (splitStringBody cs).map fun (body, rest) => (c :: body, rest)

def splitString : List Char → Option (String × List Char × List Char)
  | '"' :: cs =>
    (splitStringBody cs).map fun (body, rest) =>
      (String.ofList body, '"' :: body ++ ['"'], rest)
  | _ => none

def baseTypes : List String :=
  ["int", "long", "short", "char", "auto", "bool", "float", "double", "unsigned", "void"]

structure TypeName where
  isConst : Bool
  text : String
deriving DecidableEq

namespace Parser

def name : Parser String := lexeme splitName

def number : Parser (Nat × String) := lexeme splitNumber

def stringLiteral : Parser String := lexeme splitString

def theWord (s : String) : Parser String := do
  keyword s
  return s

def oneWordOf (words : List String) : Parser String := firstOf (words.map theWord)

def wordAndBlank (s : String) : Parser String := do
  symbol s
  let _ ← run₁ Text.isBlank
  return s ++ " "

def declarator : Parser String := do
  let blanks ← run Text.isBlank
  let mark ← firstOf [symbol "*" *> pure "*", symbol "&" *> pure "&"]
  return if blanks.isEmpty then mark else " " ++ mark

def typeName (n : Nat) : Parser TypeName := do
  let const ← maybe (wordAndBlank "const")
  let base ← firstOf
    [do return (← firstOf [wordAndBlank "unsigned", wordAndBlank "signed"]) ++
          (← oneWordOf baseTypes),
      oneWordOf baseTypes]
  let marks ← many declarator n
  return ⟨const.isSome, const.getD "" ++ base ++ String.join marks⟩

end Parser

end AttrCheck
