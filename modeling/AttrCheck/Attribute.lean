import AttrCheck.Expr
import AttrCheck.Attribute.Registry
import AttrCheck.Attribute.LoopHint

/-!
Attributes before and after they are checked. As written, an attribute is a name with a list of
argument places; once checked it is either a mark of an intended fallthrough or a loop hint.
-/

namespace AttrCheck

structure Ident where
  loc : Loc
  name : Option String
deriving DecidableEq

inductive Arg where
  | ident (i : Ident)
  | expr (e : Expr)

/-- An attribute as written. An argument place may be empty. -/
structure RawAttr where
  name : String
  spelling : Spelling
  scope : Option String
  args : List (Option Arg)
  range : Range

namespace RawAttr

def kind (a : RawAttr) : AttrKind := AttrKind.find a.spelling a.scope a.name

def loc (a : RawAttr) : Loc := a.range.start

def qualifiedName (a : RawAttr) : String := qualify a.scope a.name

def isDeclspec (a : RawAttr) : Bool := a.spelling = .declspec

def ident? (a : RawAttr) (i : Nat) : Option Ident :=
  match a.args[i]? with
  | some (some (.ident x)) => some x
  | _ => none

def expr? (a : RawAttr) (i : Nat) : Option Expr :=
  match a.args[i]? with
  | some (some (.expr e)) => some e
  | _ => none

end RawAttr

inductive Attr where
  | fallthrough (range : Range)
  | hint (h : LoopHint)
deriving DecidableEq

namespace Attr

def range : Attr → Range
  | fallthrough r => r
  | hint h => h.range

def kind : Attr → AttrKind
  | fallthrough _ => .fallthrough
  | hint _ => .loopHint

def hint? : Attr → Option LoopHint
  | fallthrough _ => none
  | hint h => some h

def text : Attr → String
  | fallthrough _ => "[[fallthrough]]"
  | hint h => "#pragma clang loop " ++ h.optionText

def hints (attrs : List Attr) : List LoopHint := attrs.filterMap hint?

end Attr

end AttrCheck
