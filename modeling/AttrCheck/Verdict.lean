import AttrCheck.Event
import AttrCheck.Expr.Constant
import AttrCheck.Stmt
import AttrCheck.Diagnostic

/-!
The verdict on one attribute of one statement. It depends on the attribute, on what the statement
is and on whether a `switch` encloses it. A rejection says why, and its report follows from that.
-/

namespace AttrCheck

structure Target where
  kind : StmtKind
  loc : Loc

def Stmt.target (s : Stmt) : Target := ⟨s.kind, s.loc⟩

inductive Rejection where
  | unknownKind
  | declarationOnly
  | notEmpty
  | outsideSwitch
  | notALoop
  | badOption (name : String) (loc : Loc)
  | badKeyword (loc : Loc)
  | badValue (loc : Loc)
deriving DecidableEq

inductive Verdict where
  | keep (attr : Attr)
  | reject (why : Rejection)
  /-- A loop hint that names no option at all; no source text gives one. -/
  | malformed
deriving DecidableEq

def semicolonNote (loc : Loc) : Note :=
  ⟨some .insertSemicolon, loc, [], [⟨loc, ";"⟩]⟩

def RawAttr.unknownReport (a : RawAttr) : Report :=
  ⟨if a.isDeclspec then .unsupportedDeclspec else .unknownAttribute, a.loc,
    [.text a.qualifiedName], [], []⟩

def RawAttr.declarationReport (a : RawAttr) (loc : Loc) : Report :=
  ⟨.invalidOnStmt, a.loc, [.text a.qualifiedName], [Range.point loc], []⟩

def RawAttr.notEmptyReport (a : RawAttr) (loc : Loc) (notes : List Note) : Report :=
  ⟨.fallthroughTarget, a.loc, [], [Range.point loc], notes⟩

def Rejection.report (t : Target) (a : RawAttr) (specifiers : Range) : Rejection → Report
  | unknownKind => a.unknownReport
  | declarationOnly => a.declarationReport t.loc
  | notEmpty =>
    a.notEmptyReport t.loc (if t.kind.isSwitchLabel then [semicolonNote specifiers.stop] else [])
  | outsideSwitch => ⟨.fallthroughOutsideSwitch, a.loc, [], [], []⟩
  | notALoop => ⟨.loopHintTarget, t.loc, [], [], []⟩
  | badOption name loc => ⟨.hintOption, loc, [.text name], [], []⟩
  | badKeyword loc => ⟨.hintKeyword, loc, [], [], []⟩
  | badValue loc => ⟨.hintValue, loc, [], [], []⟩

def HintOption.resolve? (strict : Bool) (name : String) : Option HintOption :=
  match ofText? name with
  | some o => some o
  | none => if strict then none else some fallback

def hintValue (option : HintOption) (word : Ident) (value : Option Expr) :
    Except Rejection Int :=
  match option.optionClass with
  | .boolean =>
    if word.name = some "disable" then .ok 0
    else if word.name = some "enable" then .ok 1
    else .error (.badKeyword word.loc)
  | .numeric =>
    match value.bind Expr.constant? with
    | some n => if 1 ≤ n then .ok n else .error (.badValue word.loc)
    | none => .error (.badValue word.loc)

namespace RawAttr

def valueWord (a : RawAttr) (optionLoc : Loc) : Ident := (a.ident? 1).getD ⟨optionLoc, none⟩

def readHint (a : RawAttr) (strict : Bool) : Verdict :=
  match a.ident? 0 with
  | some ⟨loc, some name⟩ =>
    match HintOption.resolve? strict name with
    | none => .reject (.badOption name loc)
    | some option =>
      match hintValue option (a.valueWord loc) (a.expr? 2) with
      | .ok value => .keep (.hint ⟨option, value, a.range⟩)
      | .error why => .reject why
  | _ => .malformed

def hintEvents (a : RawAttr) (strict : Bool) : List Event :=
  match a.ident? 0 with
  | some ⟨loc, some name⟩ =>
    match HintOption.ofText? name with
    | none => if strict then [] else [.unlistedOption name loc]
    | some option =>
      if option.optionClass = .numeric && ((a.expr? 2).map Expr.isDependent).getD false then
        [.dependentValue (a.valueWord loc).loc]
      else []
  | _ => []

def fallthroughVerdict (a : RawAttr) (t : Target) (inSwitch : Bool) : Verdict :=
  if t.kind ≠ .null then .reject .notEmpty
  else if inSwitch then .keep (.fallthrough a.range)
  else .reject .outsideSwitch

def loopHintVerdict (a : RawAttr) (t : Target) (strict : Bool) : Verdict :=
  if t.kind.isLoop then a.readHint strict else .reject .notALoop

def verdict (a : RawAttr) (t : Target) (inSwitch strict : Bool) : Verdict :=
  match a.kind with
  | .unknown => .reject .unknownKind
  | .fallthrough => a.fallthroughVerdict t inSwitch
  | .loopHint => a.loopHintVerdict t strict
  | _ => .reject .declarationOnly

def events (a : RawAttr) (t : Target) (strict : Bool) : List Event :=
  match a.kind with
  | .fallthrough => [.dispatch .fallthrough a.loc]
  | .loopHint => .dispatch .loopHint a.loc :: if t.kind.isLoop then a.hintEvents strict else []
  | _ => []

end RawAttr

end AttrCheck
