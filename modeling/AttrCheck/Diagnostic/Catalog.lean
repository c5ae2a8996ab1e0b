import AttrCheck.Diagnostic.Template
import AttrCheck.Text.Quoted

/-!
The diagnostics that exist. Each has a name, a number that tells its category, a severity of its
own and a message template.
-/

namespace AttrCheck

inductive Severity where
  | note | warning | error
deriving DecidableEq

def Severity.text : Severity → String
  | .note => "note"
  | .warning => "warning"
  | .error => "error"

inductive DiagCategory where
  | unrecognizedKind | wrongPosition | targetMismatch | malformedArgument | conflict | note
deriving DecidableEq

def DiagCategory.label : DiagCategory → String
  | .unrecognizedKind => "UNRECOGNIZED_KIND"
  | .wrongPosition => "WRONG_POSITION"
  | .targetMismatch => "TARGET_MISMATCH"
  | .malformedArgument => "MALFORMED_ARGUMENT"
  | .conflict => "CONFLICT"
  | .note => "NOTE"

inductive DiagId where
  | unknownAttribute
  | unsupportedDeclspec
  | invalidOnStmt
  | fallthroughTarget
  | fallthroughOutsideSwitch
  | loopHintTarget
  | hintKeyword
  | hintValue
  | hintOption
  | hintConflict
  | insertSemicolon
deriving DecidableEq

namespace DiagId

def all : List DiagId :=
  [unknownAttribute, unsupportedDeclspec, invalidOnStmt, fallthroughTarget,
    fallthroughOutsideSwitch, loopHintTarget, hintKeyword, hintValue, hintOption, hintConflict,
    insertSemicolon]

def name : DiagId → String
  | unknownAttribute => "warn_unknown_attribute_ignored"
  | unsupportedDeclspec => "warn_unhandled_ms_attribute_ignored"
  | invalidOnStmt => "err_attribute_invalid_on_stmt"
  | fallthroughTarget => "err_fallthrough_attr_wrong_target"
  | fallthroughOutsideSwitch => "err_fallthrough_attr_outside_switch"
  | loopHintTarget => "err_pragma_loop_precedes_nonloop"
  | hintKeyword => "err_pragma_loop_invalid_keyword"
  | hintValue => "err_pragma_loop_invalid_value"
  | hintOption => "err_pragma_loop_invalid_option"
  | hintConflict => "err_pragma_loop_compatibility"
  | insertSemicolon => "note_fallthrough_insert_semi_fixit"

def number : DiagId → Nat
  | unknownAttribute => 1000
  | unsupportedDeclspec => 1001
  | invalidOnStmt => 1002
  | fallthroughTarget => 2000
  | fallthroughOutsideSwitch => 2001
  | loopHintTarget => 2002
  | hintKeyword => 3000
  | hintValue => 3001
  | hintOption => 3002
  | hintConflict => 4000
  | insertSemicolon => 9000

def code (id : DiagId) : String := s!"ATTR-{id.number}"

def category : DiagId → DiagCategory
  | unknownAttribute | unsupportedDeclspec => .unrecognizedKind
  | invalidOnStmt => .wrongPosition
  | fallthroughTarget | fallthroughOutsideSwitch | loopHintTarget => .targetMismatch
  | hintKeyword | hintValue | hintOption => .malformedArgument
  | hintConflict => .conflict
  | insertSemicolon => .note

def severity : DiagId → Severity
  | unknownAttribute | unsupportedDeclspec => .warning
  | insertSemicolon => .note
  | _ => .error

def template : DiagId → Template
  | unknownAttribute => [.text "unknown attribute '", .arg 0, .text "' ignored"]
  | unsupportedDeclspec => [.text "__declspec attribute '", .arg 0, .text "' is not supported"]
  | invalidOnStmt => [.text "'", .arg 0, .text "' attribute cannot be applied to a statement"]
  | fallthroughTarget => [.text "fallthrough attribute is only allowed on empty statements"]
  | fallthroughOutsideSwitch => [.text "fallthrough annotation is outside switch statement"]
  | loopHintTarget =>
    [.text "expected a for, while, or do-while loop to follow the '#pragma clang loop' directive"]
  | hintKeyword => [.text "invalid argument; expected 'enable' or 'disable'"]
  | hintValue => [.text "invalid argument; expected a positive integer value"]
  | hintOption =>
    [.text "invalid loop hint option '", .arg 0, .text ("'; expected vectorize, " ++
      "vectorize_width, interleave, interleave_count, unroll, or unroll_count")]
  | hintConflict =>
    [.select 0 ["incompatible", "duplicate"], .text " directives '", .arg 1, .text "(", .arg 2,
      .text ")' and '", .arg 3, .text "(", .arg 4, .text ")'"]
  | insertSemicolon => [.text "did you forget ';'?"]

def message (id : DiagId) (args : List DiagArg) : Except FormatError String :=
  id.template.fill args

def answersTo (id : DiagId) (s : String) : Bool := id.name = s || id.code = s

def find? (s : String) : Option DiagId := all.find? (·.answersTo s)

def record (id : DiagId) : String := s!"DiagID({Text.recordQuote id.name}, {id.code})"

end DiagId

end AttrCheck
