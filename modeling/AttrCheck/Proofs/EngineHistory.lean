import Mathlib.Data.List.DropRight
import Mathlib.Data.List.ModifyLast
import AttrCheck.Diagnostic.History
import AttrCheck.Proofs.Suppression

/-! What an engine holds after any calls. It has heard the reports since it was last cleared, each
with the notes right behind it, and it holds those of them that are not suppressed. A note finds the
latest report or, where that one was suppressed or there is none, nothing. -/

namespace AttrCheck

namespace EngineCall

def isClear : EngineCall → Bool
  | clear => true
  | _ => false

def sinceClear (calls : List EngineCall) : List EngineCall := calls.rtakeWhile (! ·.isClear)

def notes : List EngineCall → List Note
  | note n :: calls => n :: notes calls
  | _ => []

def reports : List EngineCall → List Report
  | [] => []
  | report id loc args ranges :: calls => ⟨id, loc, args, ranges, notes calls⟩ :: reports calls
  | _ :: calls => reports calls

end EngineCall

def Report.noted (n : Note) (r : Report) : Report := { r with notes := r.notes ++ [n] }

def Report.calls (r : Report) : List EngineCall :=
  .report r.id r.loc r.args r.ranges :: r.notes.map .note

namespace EngineCall

variable {calls : List EngineCall}

theorem isClear_of_mem_sinceClear {c : EngineCall} (h : c ∈ sinceClear calls) :
    c.isClear = false := by
  simpa using List.mem_rtakeWhile_imp h

theorem sinceClear_append_clear : sinceClear (calls ++ [clear]) = [] :=
  List.rtakeWhile_concat_neg _ _ _ (by decide)

theorem sinceClear_append_of_not_clear {c : EngineCall} (hc : c.isClear = false) :
    sinceClear (calls ++ [c]) = sinceClear calls ++ [c] :=
  List.rtakeWhile_concat_pos _ _ _ (by simp [hc])

theorem notes_append_report (id : DiagId) (loc : Loc) (args : List DiagArg) (ranges : List Range) :
    notes (calls ++ [report id loc args ranges]) = notes calls := by
  fun_induction notes calls with
  | case1 n calls ih => exact congrArg (n :: ·) ih
  | case2 calls h =>
    cases calls with
    | nil => rfl
    | cons c calls =>
      cases c with
      | note n => exact absurd rfl (h n calls)
      | report | clear => rfl

theorem reports_append_report (id : DiagId) (loc : Loc) (args : List DiagArg)
    (ranges : List Range) :
    reports (calls ++ [report id loc args ranges]) =
      reports calls ++ [⟨id, loc, args, ranges, []⟩] := by
  induction calls with
  | nil => rfl
  | cons c calls ih =>
    cases c with
    | report => simp only [List.cons_append, reports, notes_append_report, ih]
    | note | clear => simpa only [List.cons_append, reports] using ih

theorem notes_append_note (h : ∀ c ∈ calls, c.isClear = false) (n : Note) :
    notes (calls ++ [note n]) = notes calls ++ if reports calls = [] then [n] else [] := by
  induction calls with
  | nil => rfl
  | cons c calls ih =>
    cases c with
    | report => simp [notes, reports]
    | note m =>
      exact congrArg (m :: ·) (ih fun c hc => h c (.tail _ hc))
    | clear => exact absurd (h _ (.head _)) (by decide)

theorem reports_append_note (h : ∀ c ∈ calls, c.isClear = false) (n : Note) :
    reports (calls ++ [note n]) = (reports calls).modifyLast (Report.noted n) := by
  induction calls with
  | nil => rfl
  | cons c calls ih =>
    have hcalls : ∀ c ∈ calls, c.isClear = false := fun c hc => h c (.tail _ hc)
    have ih := ih hcalls
    cases c with
    | report id loc args ranges =>
      simp only [List.cons_append, reports, ih, notes_append_note hcalls]
      obtain hnil | ⟨rs, r, hrs⟩ := List.eq_nil_or_concat' (reports calls)
      · rw [hnil]
        rfl
      · rw [hrs, if_neg (by simp), List.append_nil, ← List.cons_append, List.modifyLast_concat,
          List.modifyLast_concat]
        rfl
    | note => simpa only [List.cons_append, reports] using ih
    | clear => exact absurd (h _ (.head _)) (by decide)

end EngineCall

namespace Config

variable (c : Config) (rs : List Report) (r : Report)

def held : List Diagnostic := ((rs.map Report.diagnostic).filter (¬ c.Hides ·)).map c.promoted

theorem held_append_singleton : c.held (rs ++ [r]) =
    c.held rs ++ if c.Hides r.diagnostic then [] else [c.promoted r.diagnostic] := by
  unfold held
  rw [List.map_append, List.filter_append, List.map_append]
  by_cases hides : c.Hides r.diagnostic <;> simp [hides]

theorem promoted_noted (n : Note) : c.promoted (r.noted n).diagnostic =
    { c.promoted r.diagnostic with notes := (c.promoted r.diagnostic).notes ++ [n] } := by
  by_cases hp : c.warningsAsErrors ∧ r.diagnostic.severity = .warning
  · have hnoted : c.warningsAsErrors ∧ (r.noted n).diagnostic.severity = .warning := hp
    rw [promoted, promoted, if_pos hp, if_pos hnoted]
    rfl
  · have hnoted : ¬ (c.warningsAsErrors ∧ (r.noted n).diagnostic.severity = .warning) := hp
    rw [promoted, promoted, if_neg hp, if_neg hnoted]
    rfl

def HoldsLatest : Prop := ∃ r ∈ rs.getLast?, ¬ c.Hides r.diagnostic

theorem holdsLatest_append_singleton : c.HoldsLatest (rs ++ [r]) ↔ ¬ c.Hides r.diagnostic := by
  simp [HoldsLatest]

theorem not_holdsLatest_nil : ¬ c.HoldsLatest [] := by
  simp [HoldsLatest]

end Config

namespace Engine

variable {e : Engine} {config : Config} {rs : List Report}

/-- The engine has the settings of a configuration, and since it was new or cleared it has heard
some reports. -/
structure Heard (config : Config) (e : Engine) (rs : List Report) : Prop where
  diagnose?_eq : e.diagnose? = config.engine.diagnose?
  recorded_eq : e.recorded = config.held rs
  isListening_iff : e.isListening ↔ config.HoldsLatest rs

theorem heard_new (config : Config) : Heard config config.engine [] where
  diagnose?_eq := rfl
  recorded_eq := rfl
  isListening_iff := iff_of_false Bool.false_ne_true config.not_holdsLatest_nil

namespace Heard

theorem diagnose?_report (h : Heard config e rs) (r : Report) : e.diagnose? r =
    if config.Hides r.diagnostic then none else some (config.promoted r.diagnostic) := by
  rw [h.diagnose?_eq, config.diagnose?_eq]

theorem report (h : Heard config e rs) (r : Report) : Heard config (e.report r) (rs ++ [r]) := by
  refine ⟨(Engine.diagnose?_report e r).trans h.diagnose?_eq, ?_, ?_⟩
  · rw [recorded_report, h.diagnose?_report, h.recorded_eq, config.held_append_singleton]
    split_ifs <;> rfl
  · rw [config.holdsLatest_append_singleton, Engine.report, h.diagnose?_report]
    by_cases hides : config.Hides r.diagnostic <;> simp [hides]

theorem note (h : Heard config e rs) (n : Note) :
    Heard config (e.note n) (rs.modifyLast (Report.noted n)) := by
  obtain rfl | ⟨rs, r, rfl⟩ := List.eq_nil_or_concat' rs
  · have hclosed : ¬ e.isListening := h.isListening_iff.not.mpr config.not_holdsLatest_nil
    rw [Engine.note, if_neg hclosed]
    exact h
  have hopen := h.isListening_iff.trans (config.holdsLatest_append_singleton rs r)
  have hrecorded := h.recorded_eq
  rw [List.modifyLast_concat]
  by_cases hides : config.Hides r.diagnostic
  · rw [config.held_append_singleton, if_pos hides] at hrecorded
    rw [Engine.note, if_neg (hopen.not.mpr (not_not.mpr hides))]
    refine ⟨h.diagnose?_eq, ?_, ?_⟩
    · rw [hrecorded, config.held_append_singleton]
      exact (if_pos hides ▸ rfl)
    · rw [hopen, config.holdsLatest_append_singleton]
      rfl
  · rw [config.held_append_singleton, if_neg hides] at hrecorded
    rw [Engine.note, if_pos (hopen.mpr hides)]
    refine ⟨h.diagnose?_eq, ?_, ?_⟩
    · show noteLast n e.recorded = _
      rw [hrecorded, noteLast_append_singleton, ← config.promoted_noted,
        config.held_append_singleton]
      exact congrArg _ (if_neg hides).symm
    · show e.isListening ↔ _
      rw [hopen, config.holdsLatest_append_singleton]
      rfl

theorem clear (h : Heard config e rs) : Heard config e.clear [] where
  diagnose?_eq := h.diagnose?_eq
  recorded_eq := rfl
  isListening_iff := iff_of_false Bool.false_ne_true config.not_holdsLatest_nil

end Heard

/-- After any calls the engine has heard the reports since the last clearing. -/
theorem heard_callAll (config : Config) (calls : List EngineCall) :
    Heard config (config.engine.callAll calls)
      (EngineCall.reports (EngineCall.sinceClear calls)) := by
  induction calls using List.reverseRecOn with
  | nil => exact heard_new config
  | append_singleton calls c ih =>
    rw [callAll_append_singleton]
    cases c with
    | report id loc args ranges =>
      rw [EngineCall.sinceClear_append_of_not_clear (by rfl), EngineCall.reports_append_report]
      exact ih.report _
    | note n =>
      rw [EngineCall.sinceClear_append_of_not_clear (by rfl),
        EngineCall.reports_append_note fun _ => EngineCall.isClear_of_mem_sinceClear]
      exact ih.note n
    | clear =>
      rw [EngineCall.sinceClear_append_clear]
      exact ih.clear

theorem report_noted (e : Engine) (r : Report) (n : Note) :
    e.report (r.noted n) = (e.report r).note n := by
  have hd : e.diagnose? (r.noted n) =
      (e.diagnose? r).map fun d => { d with notes := d.notes ++ [n] } := by
    simp only [diagnose?, Report.noted, Option.map_map]
    rfl
  rw [report, report, hd]
  cases e.diagnose? r with
  | none => rfl
  | some d =>
    rw [note, if_pos rfl, noteLast_append_singleton]
    rfl

theorem report_eq_callAll (e : Engine) (r : Report) : e.report r = e.callAll r.calls := by
  obtain ⟨id, loc, args, ranges, notes⟩ := r
  induction notes using List.reverseRecOn with
  | nil => rfl
  | append_singleton notes n ih =>
    have hcalls : Report.calls ⟨id, loc, args, ranges, notes ++ [n]⟩ =
        Report.calls ⟨id, loc, args, ranges, notes⟩ ++ [.note n] := by
      simp [Report.calls]
    rw [hcalls, callAll_append_singleton, ← ih]
    exact e.report_noted ⟨id, loc, args, ranges, notes⟩ n

theorem reportAll_eq_callAll (e : Engine) (rs : List Report) :
    e.reportAll rs = e.callAll (rs.flatMap Report.calls) := by
  induction rs generalizing e with
  | nil => rfl
  | cons r rs ih =>
    rw [List.flatMap_cons, callAll, List.foldl_append]
    change _ = (e.callAll r.calls).callAll _
    rw [← report_eq_callAll, ← ih]
    rfl

theorem count_recorded (e : Engine) :
    e.errorCount + e.warningCount + e.recorded.countP (·.severity = .note) =
      e.recorded.length := by
  unfold errorCount warningCount errors warnings
  rw [← List.countP_eq_length_filter, ← List.countP_eq_length_filter]
  induction e.recorded with
  | nil => rfl
  | cons d ds ih =>
    rw [List.countP_cons, List.countP_cons, List.countP_cons, List.length_cons, ← ih]
    cases hd : d.severity <;> simp [Diagnostic.isError, Diagnostic.isWarning, hd] <;> omega

theorem hasErrors_iff (e : Engine) : e.hasErrors ↔ 0 < e.errorCount := by
  rw [hasErrors, errorCount, errors, List.any_eq_true, List.length_pos_iff_exists_mem]
  simp only [List.mem_filter]

/-- What an engine holds after any calls, and what it answers to one more. The reports since the
last clearing are recorded in order, less the suppressed warnings, each with just the notes that
came right behind it. A report is recorded unless it is a suppressed warning, and so an error always
is. A note joins the latest report where that is recorded, and is lost where it is not or where
there is none. What is recorded are errors, warnings and mere notes, and there are errors where some
are counted. -/
theorem recorded_callAll (config : Config) (calls : List EngineCall) :
    let e := config.engine.callAll calls
    let reports := EngineCall.reports (EngineCall.sinceClear calls)
    e.recorded = ((reports.map Report.diagnostic).filter (¬ config.Hides ·)).map config.promoted ∧
      (∀ id loc args ranges,
        let d := Report.diagnostic ⟨id, loc, args, ranges, []⟩
        e.answer (.report id loc args ranges) =
            (if config.Hides d then none else some (.diagnostic (config.promoted d))) ∧
          (id.severity = .error →
            e.answer (.report id loc args ranges) = some (.diagnostic d) ∧
              (e.call (.report id loc args ranges)).recorded = e.recorded ++ [d])) ∧
      (∀ n, (∃ r ∈ reports.getLast?, ¬ config.Hides r.diagnostic) →
        e.answer (.note n) = some (.note n)) ∧
      (∀ n, (∀ r ∈ reports.getLast?, config.Hides r.diagnostic) →
        e.answer (.note n) = none ∧ (e.call (.note n)).recorded = e.recorded) ∧
      e.errorCount + e.warningCount + e.recorded.countP (·.severity = .note) =
        e.recorded.length ∧
      (e.hasErrors ↔ 0 < e.errorCount) := by
  intro e reports
  have h : Heard config e reports := heard_callAll config calls
  refine ⟨h.recorded_eq, fun id loc args ranges => ?_, fun n hlatest => ?_, fun n hlatest => ?_,
    e.count_recorded, e.hasErrors_iff⟩
  · intro d
    have hanswer : e.answer (.report id loc args ranges) =
        if config.Hides d then none else some (.diagnostic (config.promoted d)) := by
      rw [answer, h.diagnose?_report]
      split_ifs <;> rfl
    refine ⟨hanswer, fun herror => ?_⟩
    have hsev : d.severity ≠ .warning := by
      show id.severity ≠ .warning
      rw [herror]
      decide
    have hides : ¬ config.Hides d := fun hd => hsev hd.1
    have hpromoted : config.promoted d = d := if_neg fun hd => hsev hd.2
    constructor
    · rw [hanswer, if_neg hides, hpromoted]
    · show (e.report _).recorded = _
      rw [recorded_report, h.diagnose?_report, if_neg hides, hpromoted]
      rfl
  · rw [answer, if_pos (h.isListening_iff.mpr hlatest)]
  · have hclosed : ¬ e.isListening := fun hlistening => by
      obtain ⟨r, hr, hides⟩ := h.isListening_iff.mp hlistening
      exact hides (hlatest r hr)
    refine ⟨if_neg hclosed, ?_⟩
    rw [call, note, if_neg hclosed]

/-- Of two notes behind an error and one behind a suppressed warning, only the first two are kept;
what came in front of the clearing is gone. -/
example :
    let error := EngineCall.report .hintValue .unknown [] []
    let warning := EngineCall.report .unknownAttribute .unknown [.text "x"] []
    let note (s : String) := EngineCall.note ⟨some .insertSemicolon, .unknown, [.text s], []⟩
    ((new ["ATTR-1000"] true).callAll
        [warning, error, .clear, note "a", error, note "b", note "c", warning, note "d"]).recorded =
      [⟨.hintValue, .error, .unknown, [], [],
        [⟨some .insertSemicolon, .unknown, [.text "b"], []⟩,
          ⟨some .insertSemicolon, .unknown, [.text "c"], []⟩]⟩] := by
  decide

end Engine

end AttrCheck
