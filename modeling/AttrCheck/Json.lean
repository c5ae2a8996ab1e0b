import AttrCheck.Text.Quoted

/-!
JSON values, and their text with two blanks for every level.
-/

namespace AttrCheck

inductive Json where
  | int (n : Int)
  | string (s : String)
  | array (items : List Json)
  /-- The fields in the order in which they are written. -/
  | object (fields : List (String × Json))

namespace Json

def newline (depth : Nat) : String := String.ofList ('\n' :: List.replicate (2 * depth) ' ')

def enclose (opening closing : String) (depth : Nat) (items : List String) : String :=
  if items.isEmpty then opening ++ closing
  else opening ++ newline (depth + 1) ++
    String.intercalate ("," ++ newline (depth + 1)) items ++ newline depth ++ closing

mutual

def textAt (depth : Nat) : Json → String
  | int n => toString n
  | string s => Text.jsonQuote s
  | array items => enclose "[" "]" depth (itemTexts (depth + 1) items)
  | object fields => enclose "\x7b" "\x7d" depth (fieldTexts (depth + 1) fields)

def itemTexts (depth : Nat) : List Json → List String
  | [] => []
  | item :: rest => item.textAt depth :: itemTexts depth rest

def fieldTexts (depth : Nat) : List (String × Json) → List String
  | [] => []
  | (key, value) :: rest =>
    (Text.jsonQuote key ++ ": " ++ value.textAt depth) :: fieldTexts depth rest

end

def text (j : Json) : String := j.textAt 0

end Json

end AttrCheck
