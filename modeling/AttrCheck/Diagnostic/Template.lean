import AttrCheck.Text.Number

/-!
Message templates. A template mixes text with places for arguments; a place prints its argument
or picks one of several words by it. Filling stops at the first place that cannot be filled.
-/

namespace AttrCheck

inductive DiagArg where
  | text (s : String)
  | int (n : Int)
  | flag (b : Bool)
deriving DecidableEq

namespace DiagArg

def shown : DiagArg → String
  | text s => s
  | int n => toString n
  | flag true => "True"
  | flag false => "False"

def number? : DiagArg → Option Int
  | text s => Text.readInt? s
  | int n => some n
  | flag b => some (if b then 1 else 0)

end DiagArg

inductive FormatError where
  | missingArgument (index : Nat)
  | notANumber (index : Nat)
  | noSuchChoice (index : Nat) (choice : Int)
  /-- There is no template, as the message is not in the catalog. -/
  | noEntry
deriving DecidableEq

inductive Piece where
  | text (s : String)
  | arg (index : Nat)
  | select (index : Nat) (choices : List String)
deriving DecidableEq

abbrev Template := List Piece

namespace Piece

def source : Piece → String
  | text s => s
  | arg i => s!"\x7b{i}\x7d"
  | select i choices => s!"\x7b{i}:select:" ++ String.intercalate "|" choices ++ "\x7d"

def choose? (choices : List String) (n : Int) : Option String :=
  if 0 ≤ n then choices[n.toNat]?
  else if 0 ≤ n + choices.length then choices[(n + choices.length).toNat]?
  else none

def fill (args : List DiagArg) : Piece → Except FormatError String
  | text s => .ok s
  | arg i =>
    match args[i]? with
    | none => .error (.missingArgument i)
    | some a => .ok a.shown
  | select i choices =>
    match args[i]? with
    | none => .error (.missingArgument i)
    | some a =>
      match a.number? with
      | none => .error (.notANumber i)
      | some n =>
        match choose? choices n with
        | none => .error (.noSuchChoice i n)
        | some s => .ok s

end Piece

namespace Template

def source (t : Template) : String := String.join (t.map Piece.source)

def fill (args : List DiagArg) : Template → Except FormatError String
  | [] => .ok ""
  | p :: ps => do
    let head ← p.fill args
    let rest ← fill args ps
    return head ++ rest

end Template

end AttrCheck
