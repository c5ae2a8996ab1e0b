import AttrCheck.Proofs.Attachment
import AttrCheck.Proofs.HintAgreement

/-! When a check finds no error. A site is free of errors where each of its attributes is unknown or
stays and its hints agree, and both show in the tree that the check leaves. -/

namespace AttrCheck

namespace RawAttr

variable {a : RawAttr} {t : Target} {inSwitch strict : Bool}

theorem readHint_ne_unknownKind : a.readHint strict ≠ .reject .unknownKind := by
  unfold readHint hintValue
  intro h
  split at h
  · split at h
    · cases h
    · split at h
      · cases h
      next why hv =>
        obtain rfl := Verdict.reject.inj h
        split at hv
        · split_ifs at hv
          cases hv
        · split at hv
          · split_ifs at hv
            cases hv
          · cases hv
  · cases h

theorem verdict_eq_unknownKind_iff :
    a.verdict t inSwitch strict = .reject .unknownKind ↔ a.kind = .unknown := by
  unfold verdict
  split
  next hk => exact iff_of_true rfl hk
  next hk =>
    refine iff_of_false ?_ (by simp [hk])
    unfold fallthroughVerdict
    split_ifs <;> nofun
  next hk =>
    refine iff_of_false ?_ (by simp [hk])
    unfold loopHintVerdict
    split_ifs
    · exact readHint_ne_unknownKind
    · nofun
  next hk _ _ => exact iff_of_false nofun hk

end RawAttr

theorem Verdict.rejection?_eq_some_iff {v : Verdict} {why : Rejection} :
    v.rejection? = some why ↔ v = .reject why := by
  cases v <;> simp [rejection?]

theorem Rejection.report_severity {why : Rejection} {t : Target} {a : RawAttr} {range : Range} :
    (why.report t a range).id.severity = .error ↔ why ≠ .unknownKind := by
  cases why with
  | unknownKind =>
    simp only [report, RawAttr.unknownReport]
    split_ifs <;> simp [DiagId.severity]
  | _ => simp [report, RawAttr.declarationReport, RawAttr.notEmptyReport, DiagId.severity]

theorem id_of_mem_scanHints {s : HintStates} {hs : List LoopHint} {r : Report}
    (h : r ∈ (scanHints s hs).1) : r.id = .hintConflict := by
  obtain ⟨hint, s', h⟩ := exists_of_mem_scanHints h
  obtain ⟨_, _, _, _, _, rfl, _⟩ := exists_of_mem_hintReports h
  rfl

namespace Site

/-- Whether every attribute of a site is unknown or stays, and those that stay agree. -/
structure Clean (s : Site) : Prop where
  kept : ∀ a ∈ s.bound, a.kind = .unknown ∨ ∃ b, s.verdict a = .keep b
  agrees : ∀ c : HintCategory, c.Agrees (Attr.hints s.kept)

theorem clean_iff (s : Site) (h : ∀ a ∈ s.attrs, a.NamesOption) :
    s.Clean ↔ ∀ r ∈ s.reports, r.id.severity ≠ .error := by
  have hrejections : (∀ a ∈ s.bound, a.kind = .unknown ∨ ∃ b, s.verdict a = .keep b) ↔
      ∀ r ∈ s.rejections, r.id.severity ≠ .error := by
    constructor
    · intro hall r hr
      obtain ⟨a, ha, hr⟩ := List.mem_filterMap.mp hr
      obtain ⟨why, hwhy, rfl⟩ := Option.map_eq_some_iff.mp hr
      rw [Verdict.rejection?_eq_some_iff] at hwhy
      rw [Ne, Rejection.report_severity, not_not]
      obtain hk | ⟨b, hb⟩ := hall a ha
      · have hu : s.verdict a = .reject .unknownKind := RawAttr.verdict_eq_unknownKind_iff.mpr hk
        exact Verdict.reject.inj (hwhy.symm.trans hu)
      · exact nomatch hwhy.symm.trans hb
    · intro hall a ha
      cases hv : s.verdict a with
      | keep b => exact .inr ⟨b, rfl⟩
      | reject why =>
        have hr : why.report s.target a s.specifiers ∈ s.rejections :=
          List.mem_filterMap.mpr ⟨a, ha, by rw [hv]; rfl⟩
        have hwhy := hall _ hr
        rw [Ne, Rejection.report_severity, not_not] at hwhy
        exact .inl (RawAttr.verdict_eq_unknownKind_iff.mp (hwhy ▸ hv))
      | malformed =>
        obtain ⟨a', ha', rfl⟩ := List.mem_map.mp ha
        exact absurd hv (RawAttr.verdict_ne_malformed ((h a' ha').bound s.setting.scopes) _ _ _)
  have hconflicts : (∀ c : HintCategory, c.Agrees (Attr.hints s.kept)) ↔
      ∀ r ∈ conflicts s.kept, r.id.severity ≠ .error := by
    rw [← conflicts_eq_nil_iff]
    constructor
    · intro hnil r hr
      exact absurd (hnil ▸ hr) List.not_mem_nil
    · intro hall
      refine List.eq_nil_iff_forall_not_mem.mpr fun r hr => hall r hr ?_
      rw [id_of_mem_scanHints hr]
      rfl
  rw [reports, List.forall_mem_append, ← hrejections, ← hconflicts]
  exact ⟨fun hs => ⟨hs.kept, hs.agrees⟩, fun hs => ⟨hs.1, hs.2⟩⟩

end Site

namespace SourceUnit

variable {u : SourceUnit}

/-- Without promotion of warnings, a check records no error just where every site is clean. -/
theorem AsRead.errorFree_iff (h : u.AsRead) (config : Config)
    (hw : config.warningsAsErrors = false) :
    (∀ d ∈ (u.checked config).diagnostics, d.severity ≠ .error) ↔
      ∀ s ∈ u.sites config.strictLoopOptions, s.Clean := by
  show (∀ d ∈ (config.engine.reportAll _).recorded, _) ↔ _
  rw [Engine.errorFree_reportAll rfl hw, List.forall_mem_flatMap]
  exact forall₂_congr fun s hs => (s.clean_iff (h.namesOption_of_site hs)).symm

end SourceUnit

/-- Without promotion of warnings, a check records no error just where every attribute is of
unknown kind or stays on its statement, and in each category the hints of a statement agree. -/
theorem checkSource_errorFree_iff {file text : String} {u : SourceUnit}
    (h : parse file text = .ok u) (config : Config) (hw : config.warningsAsErrors = false) :
    ∃ result, checkSource config file text = .ok result ∧
      ((∀ d ∈ result.diagnostics, d.severity ≠ .error) ↔
        (∀ attrs sub range l, .annotated attrs sub range l ∈ u.stmts → ∀ a ∈ attrs,
          a.kind = .unknown ∨
            ∃ kept sub' l', .attributed kept sub' range l' ∈ result.unit.stmts ∧
              ∃ b ∈ kept, b.kind = a.kind ∧ b.range = a.range) ∧
        ∀ attrs sub range l, .attributed attrs sub range l ∈ result.unit.stmts →
          ∀ c : HintCategory, c.Agrees (Attr.hints attrs)) := by
  have hu := SourceUnit.asRead_of_parse h
  refine ⟨_, checkSource_eq h config, (hu.errorFree_iff config hw).trans ?_⟩
  constructor
  · intro hclean
    refine ⟨?_, ?_⟩
    · -- An attribute is looked for at its site, and what stays there is in the tree.
      intro attrs sub range l ht a ha
      obtain ⟨s, hs, rfl, rfl⟩ := SourceUnit.exists_site_of_annotated ht
      obtain hk | ⟨b, hb⟩ := (hclean s hs).kept (a.bound s.setting.scopes) (List.mem_map_of_mem ha)
      · exact .inl hk
      · obtain ⟨kept, sub', l', ht', hb'⟩ := hu.attributed_of_keep hs ha hb
        exact .inr ⟨kept, sub', l', ht', b, hb', s.verdict_eq_keep hb⟩
    · intro attrs sub range l ht
      obtain ⟨s, hs, rfl, rfl⟩ := hu.exists_site_of_attributed ht
      exact (hclean s hs).agrees
  · rintro ⟨hkept, hagrees⟩ s hs
    refine ⟨?_, ?_⟩
    · intro a' ha'
      obtain ⟨a, ha, rfl⟩ := List.mem_map.mp ha'
      obtain ⟨sub, l, ht⟩ := SourceUnit.exists_annotated_of_site hs
      obtain hk | ⟨kept, sub', l', ht', b, hb, hkind, hrange⟩ := hkept _ _ _ _ ht a ha
      · exact .inl hk
      · exact .inr ⟨b, hu.keep_of_attributed hs ha ht' hb hrange⟩
    · -- A site where nothing stays is not in the tree, but has no hints either.
      by_cases hk : s.kept = []
      · intro c
        rw [hk]
        exact c.agrees_nil
      · obtain ⟨sub, l, ht⟩ := hu.exists_attributed_of_site hs hk
        exact hagrees _ _ _ _ ht

def unrolledText : String :=
  "void f() \x7b\n#pragma clang loop unroll(enable) unroll_count(4)\nfor (;;) [[nosuch]] ;\n\x7d"

theorem checkSource_errorFree_unrolled : ∃ result,
    checkSource {} "a.cc" unrolledText = .ok result ∧ ({} : Config).warningsAsErrors = false ∧
      ∀ attrs sub range l, .attributed attrs sub range l ∈ result.unit.stmts →
          ∀ c : HintCategory, c.Agrees (Attr.hints attrs) := by
  have hread : ∃ u ∈ (parse "a.cc" unrolledText).toOption,
      ∀ d ∈ (u.checked {}).diagnostics, d.severity ≠ .error := by
    decide +kernel
  obtain ⟨u, hu, hfree⟩ := hread
  have hp := ok_of_mem_toOption hu
  obtain ⟨result, hresult, hiff⟩ := checkSource_errorFree_iff hp {} rfl
  have hchecked := checkSource_eq hp {}
  obtain rfl := Except.ok.inj (hresult.symm.trans hchecked)
  exact ⟨_, hresult, rfl, (hiff.mp hfree).2⟩

end AttrCheck
