import AttrCheck.Attribute
import AttrCheck.Diagnostic

/-!
Conflicts between the loop hints of one statement. Within a category neither form may be given
twice, and a category that is disabled takes no count. The hints are gone through once, in order;
a form given again replaces the value seen before.
-/

namespace AttrCheck

structure CategoryState where
  enabled : Option Bool
  count : Option Int
deriving DecidableEq

namespace CategoryState

def initial : CategoryState := ⟨none, none⟩

def isDisabled (s : CategoryState) : Bool := s.enabled = some false

def add (s : CategoryState) (h : LoopHint) : CategoryState :=
  match h.option.optionClass with
  | .boolean => { s with enabled := some (h.value ≠ 0) }
  | .numeric => { s with count := some h.value }

end CategoryState

abbrev HintStates := HintCategory → CategoryState

namespace HintStates

def initial : HintStates := fun _ => .initial

def add (s : HintStates) (h : LoopHint) : HintStates :=
  fun c => if c = h.option.category then (s c).add h else s c

end HintStates

def conflictReport (loc : Loc) (isDuplicate : Bool) (option₁ : HintOption) (value₁ : DiagArg)
    (option₂ : HintOption) (value₂ : DiagArg) : Report :=
  ⟨.hintConflict, loc,
    [.flag isDuplicate, .text option₁.text, value₁, .text option₂.text, value₂], [], []⟩

def duplicateReport? (s : CategoryState) (h : LoopHint) : Option Report :=
  match h.option.optionClass with
  | .boolean => s.enabled.map fun on =>
    conflictReport h.range.stop true h.option (.text (switchText on))
      h.option (.text (switchText (h.value ≠ 0)))
  | .numeric => s.count.map fun n =>
    conflictReport h.range.stop true h.option (.int n) h.option (.int h.value)

def incompatibleReport? (s : CategoryState) (h : LoopHint) : Option Report :=
  match s.enabled, s.count with
  | some false, some n =>
    some (conflictReport h.range.stop false
      (h.option.category.option .boolean) (.text (switchText false))
      (h.option.category.option .numeric) (.int n))
  | _, _ => none

def hintReports (s : CategoryState) (h : LoopHint) : List Report :=
  (duplicateReport? s h).toList ++ (incompatibleReport? (s.add h) h).toList

def scanHints (s : HintStates) : List LoopHint → List Report × HintStates
  | [] => ([], s)
  | h :: hs =>
    let rest := scanHints (s.add h) hs
    (hintReports (s h.option.category) h ++ rest.1, rest.2)

def conflicts (attrs : List Attr) : List Report := (scanHints .initial (Attr.hints attrs)).1

def hintStates (attrs : List Attr) : HintStates := (scanHints .initial (Attr.hints attrs)).2

end AttrCheck
