import AttrCheck.Text.Visible

/-!
Strings between quotes. Records quote a string so that every character of it can be told; JSON
has its own escapes and keeps to ASCII; S-expressions escape only what would end or hide a string.
-/

namespace AttrCheck.Text

def hexDigit (n : Nat) : Char :=
  if n < 10 then Char.ofNat (48 + n) else Char.ofNat (87 + n)

def hex : Nat → Nat → List Char
  | 0, _ => []
  | width + 1, n => hex width (n / 16) ++ [hexDigit (n % 16)]

theorem length_hex (width n : Nat) : (hex width n).length = width := by
  induction width generalizing n with
  | zero => rfl
  | succ width ih => simp [hex, ih]

def recordChar (mark c : Char) : List Char :=
  if c = mark || c = '\\' then ['\\', c]
  else if c = '\n' then ['\\', 'n']
  else if c = '\r' then ['\\', 'r']
  else if c = '\t' then ['\\', 't']
  else if isVisible c then [c]
  else if c.toNat < 0x100 then '\\' :: 'x' :: hex 2 c.toNat
  else if c.toNat < 0x10000 then '\\' :: 'u' :: hex 4 c.toNat
  else '\\' :: 'U' :: hex 8 c.toNat

/-- A string as a record shows it: between single quotes, or between double quotes when it holds
single ones and no double ones. -/
def recordQuote (s : String) : String :=
  let cs := s.toList
  let mark := if cs.contains '\'' && !cs.contains '"' then '"' else '\''
  String.ofList (mark :: cs.flatMap (recordChar mark) ++ [mark])

def jsonUnit (n : Nat) : List Char := '\\' :: 'u' :: hex 4 n

def jsonChar (c : Char) : List Char :=
  let n := c.toNat
  if c = '"' || c = '\\' then ['\\', c]
  else if n = 8 then ['\\', 'b']
  else if n = 9 then ['\\', 't']
  else if n = 10 then ['\\', 'n']
  else if n = 12 then ['\\', 'f']
  else if n = 13 then ['\\', 'r']
  else if 32 ≤ n && n < 127 then [c]
  else if n < 0x10000 then jsonUnit n
  else jsonUnit (0xd800 + (n - 0x10000) / 0x400) ++ jsonUnit (0xdc00 + (n - 0x10000) % 0x400)

def jsonQuote (s : String) : String :=
  String.ofList ('"' :: s.toList.flatMap jsonChar ++ ['"'])

def sexpChar (c : Char) : List Char :=
  let n := c.toNat
  if c = '"' || c = '\\' then ['\\', c]
  else if n = 8 then ['\\', 'b']
  else if n = 9 then ['\\', 't']
  else if n = 10 then ['\\', 'n']
  else if n = 12 then ['\\', 'f']
  else if n = 13 then ['\\', 'r']
  else [c]

def sexpQuote (s : String) : String :=
  String.ofList ('"' :: s.toList.flatMap sexpChar ++ ['"'])

def symbolMarks : List Char := "\\'`\"()[] ,?;#".toList

def sexpSymbol (s : String) : String :=
  String.ofList (s.toList.flatMap fun c => if c ∈ symbolMarks then ['\\', c] else [c])

end AttrCheck.Text
