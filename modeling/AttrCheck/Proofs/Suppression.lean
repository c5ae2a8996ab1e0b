import AttrCheck.Proofs.AcceptedText

/-! Suppression and promotion. Both act on what is recorded, and nothing else of a check depends on
them: what is recorded under them is what is recorded without them, less the warnings that are
suppressed and with the others promoted. -/

namespace AttrCheck

namespace Config

def plain (c : Config) : Config := { c with suppressed := [], warningsAsErrors := false }

def Hides (c : Config) (d : Diagnostic) : Prop :=
  d.severity = .warning ∧ (d.id.name ∈ c.suppressed ∨ d.id.code ∈ c.suppressed)

instance (c : Config) : DecidablePred c.Hides := fun _ => inferInstanceAs (Decidable (_ ∧ _))

def promoted (c : Config) (d : Diagnostic) : Diagnostic :=
  if c.warningsAsErrors ∧ d.severity = .warning then { d with severity := .error } else d

end Config

namespace Report

def diagnostic (r : Report) : Diagnostic := ⟨r.id, r.id.severity, r.loc, r.args, r.ranges, r.notes⟩

end Report

namespace Config

variable (c : Config) (r : Report)

theorem plain_diagnose? : c.plain.engine.diagnose? r = some r.diagnostic := by
  have hsev : c.plain.engine.severity? r.id = some r.id.severity := by
    cases hs : r.id.severity <;> simp [Engine.severity?, hs, engine, plain, Engine.new,
      Engine.suppresses]
  rw [Engine.diagnose?, hsev]
  rfl

theorem diagnose?_eq : c.engine.diagnose? r =
    if c.Hides r.diagnostic then none else some (c.promoted r.diagnostic) := by
  have hsupp : c.engine.suppresses r.id = true ↔
      r.id.name ∈ c.suppressed ∨ r.id.code ∈ c.suppressed := by
    simp [Engine.suppresses, engine, Engine.new]
  cases hs : r.id.severity with
  | warning =>
    by_cases hh : r.id.name ∈ c.suppressed ∨ r.id.code ∈ c.suppressed
    · have hides : c.Hides r.diagnostic := ⟨hs, hh⟩
      rw [if_pos hides, Engine.diagnose?, Engine.severity?, hs]
      simp [hsupp.mpr hh]
    · have hides : ¬ c.Hides r.diagnostic := fun h => hh h.2
      rw [if_neg hides, Engine.diagnose?, Engine.severity?, hs]
      have hpromotes : c.engine.promotes = c.warningsAsErrors := rfl
      simp only [hsupp, if_neg hh, Option.map_some, promoted, Report.diagnostic, hs, and_true,
        hpromotes]
      cases c.warningsAsErrors <;> rfl
  | _ =>
    have hsev : r.diagnostic.severity ≠ .warning := by
      show r.id.severity ≠ .warning
      rw [hs]
      decide
    have hides : ¬ c.Hides r.diagnostic := fun h => hsev h.1
    have hpromoted : c.promoted r.diagnostic = r.diagnostic := if_neg fun h => hsev h.2
    rw [if_neg hides, hpromoted, Engine.diagnose?, Engine.severity?, hs]
    simp [Report.diagnostic, hs]

/-- What is recorded is what is recorded without suppression and promotion, less what is hidden and
with the rest promoted. -/
theorem recorded_eq (rs : List Report) : (c.engine.reportAll rs).recorded =
    ((c.plain.engine.reportAll rs).recorded.filter (¬ c.Hides ·)).map c.promoted := by
  rw [Engine.recorded_reportAll, Engine.recorded_reportAll]
  show rs.filterMap c.engine.diagnose? = ((rs.filterMap c.plain.engine.diagnose?).filter _).map _
  induction rs with
  | nil => rfl
  | cons r rs ih =>
    rw [List.filterMap_cons_some (c.plain_diagnose? r)]
    by_cases hides : c.Hides r.diagnostic
    · have hnone : c.engine.diagnose? r = none := (c.diagnose?_eq r).trans (if_pos hides)
      rw [List.filterMap_cons_none hnone, List.filter_cons_of_neg (by simpa using hides), ih]
    · have hsome : c.engine.diagnose? r = some (c.promoted r.diagnostic) :=
        (c.diagnose?_eq r).trans (if_neg hides)
      rw [List.filterMap_cons_some hsome, List.filter_cons_of_pos (by simpa using hides),
        List.map_cons, ih]

end Config

/-- Suppression and promotion change neither the resolved unit of an accepted text nor the attributes
that stay, and of the diagnostics they delete the suppressed warnings and promote the others. No
error of the catalog is ever hidden. -/
theorem suppressed_check {file text : String} {u : SourceUnit} (h : parse file text = .ok u)
    (config : Config) (suppressed : List String) (promote : Bool) :
    let other := { config with suppressed, warningsAsErrors := promote }
    ∃ result result' base, checkSource config file text = .ok result ∧
      checkSource other file text = .ok result' ∧ checkSource config.plain file text = .ok base ∧
      result'.unit = result.unit ∧ result'.attributes = result.attributes ∧
      result'.diagnostics = (base.diagnostics.filter (¬ other.Hides ·)).map other.promoted ∧
      ∀ d ∈ base.diagnostics, d.id.severity = .error → d ∈ result'.diagnostics := by
  intro other
  have hrecorded : (u.checked other).diagnostics =
      ((u.checked config.plain).diagnostics.filter (¬ other.Hides ·)).map other.promoted :=
    other.recorded_eq ((u.sites config.strictLoopOptions).flatMap Site.reports)
  refine ⟨_, _, _, checkSource_eq h config, checkSource_eq h other, checkSource_eq h config.plain,
    rfl, rfl, hrecorded, ?_⟩
  intro d hd herror
  obtain ⟨r, _, hr⟩ : ∃ r ∈ (u.sites config.strictLoopOptions).flatMap Site.reports,
      config.plain.engine.diagnose? r = some d := by
    change d ∈ (config.plain.engine.reportAll _).recorded at hd
    rw [Engine.recorded_reportAll] at hd
    exact List.mem_filterMap.mp hd
  obtain rfl := Option.some.inj ((config.plain_diagnose? r).symm.trans hr)
  have hsev : r.diagnostic.severity ≠ .warning := by
    show r.id.severity ≠ .warning
    rw [show r.id.severity = .error from herror]
    decide
  have hides : ¬ other.Hides r.diagnostic := fun h => hsev h.1
  have hpromoted : other.promoted r.diagnostic = r.diagnostic := if_neg fun h => hsev h.2
  show r.diagnostic ∈ (u.checked other).diagnostics
  rw [hrecorded]
  exact List.mem_map.mpr ⟨_, List.mem_filter.mpr ⟨hd, by simpa using hides⟩, hpromoted⟩

def warnedText : String := "void f() \x7b [[nosuch, fallthrough]] ; __declspec(nosuch) ; \x7d"

theorem suppressed_check_promoted : ∃ u, parse "a.cc" warnedText = .ok u ∧
      let other : Config := { suppressed := ["ATTR-1000"], warningsAsErrors := true }
      ∃ result' base, checkSource other "a.cc" warnedText = .ok result' ∧
        checkSource {} "a.cc" warnedText = .ok base ∧
        result'.diagnostics = (base.diagnostics.filter (¬ other.Hides ·)).map other.promoted ∧
        base.diagnostics.map Diagnostic.severity = [.warning, .error, .warning] ∧
        result'.diagnostics.map Diagnostic.severity = [.error, .error] := by
  let other : Config := { suppressed := ["ATTR-1000"], warningsAsErrors := true }
  have hread : ∃ u ∈ (parse "a.cc" warnedText).toOption,
      (u.checked {}).diagnostics.map Diagnostic.severity = [.warning, .error, .warning] ∧
        (u.checked other).diagnostics.map Diagnostic.severity = [.error, .error] := by
    decide +kernel
  obtain ⟨u, hu, hbase, hother⟩ := hread
  have hp := ok_of_mem_toOption hu
  obtain ⟨_, result', base, _, hresult', hb, _, _, hdiagnostics, _⟩ :=
    suppressed_check hp {} ["ATTR-1000"] true
  obtain rfl := Except.ok.inj ((checkSource_eq hp other).symm.trans hresult')
  obtain rfl := Except.ok.inj ((checkSource_eq hp (Config.plain {})).symm.trans hb)
  exact ⟨u, hp, _, _, hresult', hb, hdiagnostics, hbase, hother⟩

end AttrCheck
