import Mathlib.Data.List.Dedup
import AttrCheck.Proofs.SemicolonFix
import AttrCheck.Proofs.Suppression

/-! What settings without a complaint suppress. They list no error, so that every diagnostic they
list is deleted; but they may list the one note of the catalog, and that stays where its diagnostic
does. -/

namespace AttrCheck

namespace DiagId

theorem find?_name (id : DiagId) : find? id.name = some id := by
  cases id <;> decide +kernel

theorem find?_code (id : DiagId) : find? id.code = some id := by
  cases id <;> decide +kernel

end DiagId

namespace Config

variable {c : Config}

def Lists (c : Config) (id : DiagId) : Prop := id.name ∈ c.suppressed ∨ id.code ∈ c.suppressed

instance (c : Config) : DecidablePred c.Lists := fun _ => inferInstanceAs (Decidable (_ ∨ _))

theorem mem_suppressedNames {s : String} : s ∈ c.suppressedNames ↔ s ∈ c.suppressed := by
  rw [suppressedNames, List.mem_eraseDups, List.mem_mergeSort]

theorem complaint?_eq_none {s : String} :
    complaint? s = none ↔ ∃ id ∈ DiagId.find? s, id.severity ≠ .error := by
  unfold complaint?
  split
  next h => simp [h]
  next id h => simp [h]

theorem validate_eq_nil_iff : c.validate = [] ↔
    ∀ s ∈ c.suppressed, ∃ id ∈ DiagId.find? s, id.severity ≠ .error := by
  rw [validate, List.filterMap_eq_nil_iff]
  constructor
  · intro h s hs
    exact complaint?_eq_none.mp (h s (mem_suppressedNames.mpr hs))
  · intro h s hs
    exact complaint?_eq_none.mpr (h s (mem_suppressedNames.mp hs))

theorem severity_of_lists (h : c.validate = []) {id : DiagId} (hid : c.Lists id) :
    id.severity ≠ .error := by
  have hentry {s : String} (hs : s ∈ c.suppressed) (hfind : DiagId.find? s = some id) :
      id.severity ≠ .error := by
    obtain ⟨id', hid', hsev⟩ := validate_eq_nil_iff.mp h s hs
    rwa [← Option.some.inj (hfind.symm.trans hid')] at hsev
  rcases hid with hname | hcode
  · exact hentry hname id.find?_name
  · exact hentry hcode id.find?_code

theorem promoted_id (d : Diagnostic) : (c.promoted d).id = d.id := by
  unfold promoted
  split <;> rfl

theorem promoted_notes (d : Diagnostic) : (c.promoted d).notes = d.notes := by
  unfold promoted
  split <;> rfl

end Config

theorem Site.severity_of_mem_reports {s : Site} {r : Report} (hr : r ∈ s.reports) :
    r.id.severity ≠ .note ∧ ∀ note ∈ r.notes, note.id = some .insertSemicolon := by
  refine ⟨?_, ?_⟩
  · rcases List.mem_append.mp hr with hr | hr
    · obtain ⟨b, _, hr⟩ := List.mem_filterMap.mp hr
      obtain ⟨why, _, rfl⟩ := Option.map_eq_some_iff.mp hr
      cases why with
      | unknownKind =>
        simp only [Rejection.report, RawAttr.unknownReport]
        split <;> decide
      | _ =>
        intro h
        cases h
    · rw [id_of_mem_scanHints hr]
      decide
  · intro note hnote
    obtain ⟨a, _, _, _, rfl⟩ := Site.exists_of_notEmpty hr (.inr (List.ne_nil_of_mem hnote))
    simp only [RawAttr.notEmptyReport] at hnote
    split at hnote
    · rw [List.mem_singleton.mp hnote]
      rfl
    · cases hnote

namespace SourceUnit

variable {u : SourceUnit} {c : Config}

theorem severity_of_mem_plain {d : Diagnostic} (hd : d ∈ (u.checked c.plain).diagnostics) :
    d.severity = d.id.severity ∧ d.id.severity ≠ .note ∧
      ∀ note ∈ d.notes, note.id = some .insertSemicolon := by
  change d ∈ (c.plain.engine.reportAll _).recorded at hd
  rw [Engine.recorded_reportAll] at hd
  obtain ⟨r, hr, hdiagnose⟩ := List.mem_filterMap.mp hd
  obtain ⟨s, _, hr⟩ := List.mem_flatMap.mp hr
  obtain rfl := Option.some.inj ((c.plain_diagnose? r).symm.trans hdiagnose)
  exact ⟨rfl, Site.severity_of_mem_reports hr⟩

theorem hides_iff_lists (hvalid : c.validate = []) {d : Diagnostic}
    (hd : d ∈ (u.checked c.plain).diagnostics) : c.Hides d ↔ c.Lists d.id := by
  obtain ⟨hsev, hnote, _⟩ := severity_of_mem_plain hd
  constructor
  · exact And.right
  · intro hlists
    have herror := Config.severity_of_lists hvalid hlists
    refine ⟨?_, hlists⟩
    rw [hsev]
    -- The catalog has no fourth severity.
    cases h : d.id.severity with
    | note => exact absurd h hnote
    | warning => rfl
    | error => exact absurd h herror

end SourceUnit

/-- Settings without a complaint delete every diagnostic that they list, by whatever of its two
names, and the others keep all their notes. A note that they list is the one that offers a
semicolon. -/
theorem suppressible_check {file text : String} {u : SourceUnit} (h : parse file text = .ok u)
    (config : Config) (hvalid : config.validate = []) :
    ∃ result base, checkSource config file text = .ok result ∧
      checkSource config.plain file text = .ok base ∧
      result.diagnostics =
        (base.diagnostics.filter (¬ config.Lists ·.id)).map config.promoted ∧
      ∀ d ∈ result.diagnostics, ¬ config.Lists d.id ∧
        ∀ note ∈ d.notes, ∃ id, note.id = some id ∧ (config.Lists id → id = .insertSemicolon) := by
  have hfilter : (u.checked config.plain).diagnostics.filter (¬ config.Hides ·) =
      (u.checked config.plain).diagnostics.filter (¬ config.Lists ·.id) :=
    List.filter_congr fun d hd => by simp only [SourceUnit.hides_iff_lists hvalid hd]
  have hrecorded : (u.checked config).diagnostics =
      ((u.checked config.plain).diagnostics.filter (¬ config.Lists ·.id)).map config.promoted := by
    rw [← hfilter]
    exact config.recorded_eq ((u.sites config.strictLoopOptions).flatMap Site.reports)
  refine ⟨_, _, checkSource_eq h config, checkSource_eq h config.plain, hrecorded, ?_⟩
  intro d hd
  change d ∈ (u.checked config).diagnostics at hd
  rw [hrecorded] at hd
  obtain ⟨d', hd', rfl⟩ := List.mem_map.mp hd
  obtain ⟨hbase, hlists⟩ := List.mem_filter.mp hd'
  rw [config.promoted_id, config.promoted_notes]
  refine ⟨by simpa using hlists, fun note hnote => ?_⟩
  exact ⟨_, (SourceUnit.severity_of_mem_plain hbase).2.2 note hnote, fun _ => rfl⟩

def danglingText : String :=
  "void f() \x7b switch (1) [[nosuch, fallthrough]] case 1: ; \x7d"

theorem suppressible_check_dangling : ∃ u, parse "a.cc" danglingText = .ok u ∧
    let config : Config := { suppressed := ["ATTR-1000", "warn_unhandled_ms_attribute_ignored"] }
    config.validate = [] ∧ ∃ result base, checkSource config "a.cc" danglingText = .ok result ∧
      checkSource {} "a.cc" danglingText = .ok base ∧
      result.diagnostics = (base.diagnostics.filter (¬ config.Lists ·.id)).map config.promoted ∧
      base.diagnostics.map Diagnostic.id = [.unknownAttribute, .fallthroughTarget] ∧
      ∀ d ∈ result.diagnostics, ¬ config.Lists d.id := by
  let config : Config := { suppressed := ["ATTR-1000", "warn_unhandled_ms_attribute_ignored"] }
  have hvalid : config.validate = [] := Config.validate_eq_nil_iff.mpr (by decide +kernel)
  have hread : ∃ u ∈ (parse "a.cc" danglingText).toOption,
      (u.checked {}).diagnostics.map Diagnostic.id = [.unknownAttribute, .fallthroughTarget] := by
    decide +kernel
  obtain ⟨u, hu, hids⟩ := hread
  have hp := ok_of_mem_toOption hu
  obtain ⟨result, base, hresult, hbase, hdiagnostics, hnone⟩ := suppressible_check hp config hvalid
  obtain rfl := Except.ok.inj ((checkSource_eq hp (Config.plain {})).symm.trans hbase)
  exact ⟨u, hp, hvalid, result, _, hresult, hbase, hdiagnostics, hids, fun d hd => (hnone d hd).1⟩

/-- Settings that list the note are without a complaint, and the note stays all the same. -/
theorem suppressible_check_note :
    let config : Config := { suppressed := ["ATTR-9000"] }
    config.validate = [] ∧ ∃ result, checkSource config "a.cc" danglingText = .ok result ∧
      ∃ d ∈ result.diagnostics, ∃ note ∈ d.notes, ∃ id, note.id = some id ∧ config.Lists id := by
  let config : Config := { suppressed := ["ATTR-9000"] }
  have hread : ∃ u ∈ (parse "a.cc" danglingText).toOption, ∃ d ∈ (u.checked config).diagnostics,
      ∃ note ∈ d.notes, ∃ id ∈ note.id, config.Lists id := by
    decide +kernel
  obtain ⟨u, hu, d, hd, note, hnote, id, hid, hlists⟩ := hread
  exact ⟨Config.validate_eq_nil_iff.mpr (by decide +kernel), _,
    checkSource_eq (ok_of_mem_toOption hu) config, d, hd, note, hnote, id, hid, hlists⟩

end AttrCheck
