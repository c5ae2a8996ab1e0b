import AttrCheck.Text.Blank
import AttrCheck.Text.Digit

/-!
Whole numbers read from text: decimal digits, of which two may have one underscore between them,
with a sign in front if any and blanks around.
-/

namespace AttrCheck.Text

def readDigits (acc : Nat) : List Char → Option Nat
  | [] => some acc
  | '_' :: c :: cs => (digit? c).bind fun d => readDigits (10 * acc + d) cs
  | c :: cs => (digit? c).bind fun d => readDigits (10 * acc + d) cs

def readNat? : List Char → Option Nat
  | [] => none
  | c :: cs => (digit? c).bind fun d => readDigits d cs

def trim (cs : List Char) : List Char :=
  ((cs.dropWhile isBlank).reverse.dropWhile isBlank).reverse

def readInt? (s : String) : Option Int :=
  match trim s.toList with
  | '-' :: ds => (readNat? ds).map fun n => -(n : Int)
  | '+' :: ds => (readNat? ds).map Int.ofNat
  | ds => (readNat? ds).map Int.ofNat

end AttrCheck.Text
