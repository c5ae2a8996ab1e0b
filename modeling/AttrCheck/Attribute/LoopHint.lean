import AttrCheck.Loc

/-!
Loop hints. Six options fall into three categories, and each category has one option that is
switched on or off and one that takes a count.
-/

namespace AttrCheck

inductive HintCategory where
  | vectorize | interleave | unroll
deriving DecidableEq

inductive OptionClass where
  /-- Takes `enable` or `disable`. -/
  | boolean
  /-- Takes a positive constant. -/
  | numeric
deriving DecidableEq

inductive HintMode where
  | enable | disable | numeric
deriving DecidableEq

inductive HintOption where
  | vectorize | vectorizeWidth | interleave | interleaveCount | unroll | unrollCount
deriving DecidableEq

namespace HintCategory

def all : List HintCategory := [vectorize, interleave, unroll]

def label : HintCategory → String
  | vectorize => "VECTORIZE"
  | interleave => "INTERLEAVE"
  | unroll => "UNROLL"

def option : HintCategory → OptionClass → HintOption
  | vectorize, .boolean => .vectorize
  | vectorize, .numeric => .vectorizeWidth
  | interleave, .boolean => .interleave
  | interleave, .numeric => .interleaveCount
  | unroll, .boolean => .unroll
  | unroll, .numeric => .unrollCount

end HintCategory

def OptionClass.label : OptionClass → String
  | .boolean => "BOOLEAN"
  | .numeric => "NUMERIC"

def HintMode.label : HintMode → String
  | .enable => "ENABLE"
  | .disable => "DISABLE"
  | .numeric => "NUMERIC"

namespace HintOption

def all : List HintOption :=
  [vectorize, vectorizeWidth, interleave, interleaveCount, unroll, unrollCount]

def text : HintOption → String
  | vectorize => "vectorize"
  | vectorizeWidth => "vectorize_width"
  | interleave => "interleave"
  | interleaveCount => "interleave_count"
  | unroll => "unroll"
  | unrollCount => "unroll_count"

def label : HintOption → String
  | vectorize => "VECTORIZE"
  | vectorizeWidth => "VECTORIZE_WIDTH"
  | interleave => "INTERLEAVE"
  | interleaveCount => "INTERLEAVE_COUNT"
  | unroll => "UNROLL"
  | unrollCount => "UNROLL_COUNT"

def ofText? (s : String) : Option HintOption := all.find? (·.text = s)

def fallback : HintOption := vectorize

def category : HintOption → HintCategory
  | vectorize | vectorizeWidth => .vectorize
  | interleave | interleaveCount => .interleave
  | unroll | unrollCount => .unroll

def optionClass : HintOption → OptionClass
  | vectorize | interleave | unroll => .boolean
  | vectorizeWidth | interleaveCount | unrollCount => .numeric

theorem option_category (o : HintOption) : o.category.option o.optionClass = o := by
  cases o <;> rfl

theorem ofText?_text (o : HintOption) : ofText? o.text = some o := by
  cases o <;> decide

end HintOption

def switchText (on : Bool) : String := if on then "enable" else "disable"

/-- A checked hint. A boolean option holds 1 when it enables and 0 when it disables. -/
structure LoopHint where
  option : HintOption
  value : Int
  range : Range
deriving DecidableEq

namespace LoopHint

def isNumeric (h : LoopHint) : Bool := h.option.optionClass = .numeric

def mode (h : LoopHint) : HintMode :=
  match h.option.optionClass with
  | .numeric => .numeric
  | .boolean => if h.value = 0 then .disable else .enable

def valueText (h : LoopHint) : String :=
  match h.option.optionClass with
  | .numeric => toString h.value
  | .boolean => switchText (h.value ≠ 0)

def optionText (h : LoopHint) : String := h.option.text ++ "(" ++ h.valueText ++ ")"

end LoopHint

end AttrCheck
