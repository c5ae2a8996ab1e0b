import AttrCheck.Proofs.Attachment
import AttrCheck.Proofs.Dependence

/-! Counts of loop hints in which template parameters occur. Such a count is taken where it has the
same positive value in every instance, and is refused otherwise. -/

namespace AttrCheck

structure RawAttr.Counts (a : RawAttr) (o : HintOption) (loc : Loc) (e : Expr) : Prop where
  kind : a.kind = .loopHint
  option : a.ident? 0 = some ⟨loc, some o.text⟩
  numeric : o.optionClass = .numeric
  count : a.expr? 2 = some e

def CheckResult.Reports (c : CheckResult) (id : DiagId) (loc : Loc) : Prop :=
  ∃ d ∈ c.diagnostics, d.id = id ∧ d.loc = loc

def SourceUnit.Lacks (u : SourceUnit) (r : Range) : Prop :=
  ∀ attrs sub range l, .attributed attrs sub range l ∈ u.stmts → ∀ b ∈ attrs, b.range ≠ r

theorem HintOption.resolve?_text (strict : Bool) (o : HintOption) :
    resolve? strict o.text = some o := by
  rw [resolve?, o.ofText?_text]

namespace RawAttr.Counts

variable {a : RawAttr} {o : HintOption} {loc : Loc} {e : Expr} {t : Target}
  {inSwitch strict : Bool}

theorem verdict_eq_keep (h : a.Counts o loc e) (ht : t.kind.isLoop = true) {v : Int}
    (hv : 1 ≤ v) (he : e.IsAlways v) :
    a.verdict t inSwitch strict = .keep (.hint ⟨o, v, a.range⟩) := by
  have hvalue : hintValue o (a.valueWord loc) (some e) = .ok v := by
    have hc := (e.constant?_eq_some_iff v).mpr he
    simp only [hintValue, h.numeric, Option.bind_some, hc, if_pos hv]
  simp only [verdict, h.kind, loopHintVerdict, ht, if_true, readHint, h.option,
    HintOption.resolve?_text, h.count, hvalue]

theorem verdict_eq_badValue (h : a.Counts o loc e) (ht : t.kind.isLoop = true)
    (he : ∀ v, 1 ≤ v → ¬ e.IsAlways v) :
    a.verdict t inSwitch strict = .reject (.badValue (a.valueWord loc).loc) := by
  have hvalue : hintValue o (a.valueWord loc) (some e) =
      .error (.badValue (a.valueWord loc).loc) := by
    simp only [hintValue, h.numeric, Option.bind_some]
    cases hc : e.constant? with
    | none => rfl
    | some v =>
      have hv : ¬ 1 ≤ v := fun hv => he v hv ((e.constant?_eq_some_iff v).mp hc)
      exact if_neg hv
  simp only [verdict, h.kind, loopHintVerdict, ht, if_true, readHint, h.option,
    HintOption.resolve?_text, h.count, hvalue]

theorem verdict_eq_notALoop (h : a.Counts o loc e) (ht : t.kind.isLoop = false) :
    a.verdict t inSwitch strict = .reject .notALoop := by
  simp only [verdict, h.kind, loopHintVerdict, ht, Bool.false_eq_true, if_false]

end RawAttr.Counts

namespace Engine

theorem exists_diagnose? (e : Engine) {r : Report} (h : r.id.severity = .error) :
    ∃ d, e.diagnose? r = some d ∧ d.id = r.id ∧ d.loc = r.loc := by
  simp [diagnose?, severity?, h]

end Engine

namespace SourceUnit

theorem exists_diagnostic (u : SourceUnit) (config : Config) {s : Site}
    (hs : s ∈ u.sites config.strictLoopOptions) {r : Report} (hr : r ∈ s.reports)
    (he : r.id.severity = .error) : (u.checked config).Reports r.id r.loc := by
  obtain ⟨d, hd, hid, hloc⟩ := config.engine.exists_diagnose? he
  refine ⟨d, ?_, hid, hloc⟩
  show d ∈ (config.engine.reportAll _).recorded
  rw [Engine.recorded_reportAll]
  refine List.mem_append_right _ (List.mem_filterMap.mpr ⟨r, ?_, hd⟩)
  exact List.mem_flatMap_of_mem hs hr

theorem AsRead.rejected {u : SourceUnit} (h : u.AsRead) (config : Config) {s : Site}
    (hs : s ∈ u.sites config.strictLoopOptions) {a : RawAttr} (ha : a ∈ s.bound) {why : Rejection}
    (hv : s.verdict a = .reject why)
    (he : (why.report s.target a s.specifiers).id.severity = .error) :
    (u.checked config).Reports (why.report s.target a s.specifiers).id
        (why.report s.target a s.specifiers).loc ∧
      (u.checked config).unit.Lacks a.range := by
  have hr : why.report s.target a s.specifiers ∈ s.rejections :=
    List.mem_filterMap.mpr ⟨a, ha, by rw [hv]; rfl⟩
  refine ⟨u.exists_diagnostic config hs (List.mem_append_left _ hr) he, ?_⟩
  intro attrs sub range l ht b hb hrange
  obtain ⟨a', ha', rfl⟩ := List.mem_map.mp ha
  exact nomatch hv.symm.trans (h.keep_of_attributed hs ha' ht hb hrange)

end SourceUnit

/-- An expression with template parameters has a constant value just where every instance has it.
As a count in front of a loop, it is attached where that value is positive and refused
otherwise. -/
theorem dependent_count {file text : String} {u : SourceUnit} (h : parse file text = .ok u)
    (config : Config) :
    (∀ e : Expr, e.isDependent = true → (e.constant? = none ↔ ∀ v, ¬ e.IsAlways v)) ∧
    ∃ result, checkSource config file text = .ok result ∧
      (∀ attrs sub range l, .annotated attrs sub range l ∈ u.stmts →
        ∃ s ∈ u.sites config.strictLoopOptions, s.attrs = attrs ∧ s.specifiers = range) ∧
      ∀ s ∈ u.sites config.strictLoopOptions, ∀ a ∈ s.bound, ∀ o loc e,
        a.Counts o loc e → e.isDependent = true →
          if s.target.kind.isLoop then
            (∀ v, 1 ≤ v → e.IsAlways v →
              ∃ attrs sub l, .attributed attrs sub s.specifiers l ∈ result.unit.stmts ∧
                .hint ⟨o, v, a.range⟩ ∈ attrs) ∧
            ((∀ v, 1 ≤ v → ¬ e.IsAlways v) →
              result.Reports .hintValue (a.valueWord loc).loc ∧ result.unit.Lacks a.range)
          else result.Reports .loopHintTarget s.target.loc ∧ result.unit.Lacks a.range := by
  have hu := SourceUnit.asRead_of_parse h
  refine ⟨?_, _, checkSource_eq h config, ?_, ?_⟩
  · intro e _
    simp only [← Expr.constant?_eq_some_iff]
    exact Option.eq_none_iff_forall_ne_some
  · intro attrs sub range l ht
    exact SourceUnit.exists_site_of_annotated ht
  · intro s hs a ha o loc e hcount _
    split_ifs with ht
    · refine ⟨?_, ?_⟩
      · intro v hv he
        obtain ⟨a', ha', rfl⟩ := List.mem_map.mp ha
        exact hu.attributed_of_keep hs ha' (hcount.verdict_eq_keep ht hv he)
      · intro he
        exact hu.rejected config hs ha (hcount.verdict_eq_badValue ht he) rfl
    · exact hu.rejected config hs ha (hcount.verdict_eq_notALoop (Bool.not_eq_true _ ▸ ht)) rfl

def skippedParamText : String :=
  "template <int N> void f() \x7b\n#pragma clang loop unroll_count(1 || N)\nfor (;;) ;\n\x7d"

theorem dependent_count_skipped : ∃ result,
    checkSource {} "a.cc" skippedParamText = .ok result ∧
      ∃ attrs sub range l r, .attributed attrs sub range l ∈ result.unit.stmts ∧
        .hint ⟨.unrollCount, 1, r⟩ ∈ attrs := by
  have hfound : ∃ u ∈ (parse "a.cc" skippedParamText).toOption,
      ∃ s ∈ u.sites false, s.target.kind.isLoop = true ∧ ∃ a ∈ s.bound,
        a.kind = .loopHint ∧ (a.ident? 0).bind Ident.name = some "unroll_count" ∧
        (a.expr? 2).any (fun e => e.isDependent && e.constant? = some 1) = true := by
    decide +kernel
  obtain ⟨u, hu, s, hs, ht, a, ha, hkind, hname, hcount⟩ := hfound
  obtain ⟨⟨loc, _⟩, hident, rfl⟩ := Option.bind_eq_some_iff.mp hname
  obtain ⟨e, he, hdep⟩ := (Option.any_eq_true _ _).mp hcount
  rw [Bool.and_eq_true, decide_eq_true_iff] at hdep
  obtain ⟨_, result, hresult, _, hall⟩ := dependent_count (ok_of_mem_toOption hu) {}
  have h := hall s hs a ha .unrollCount loc e ⟨hkind, hident, rfl, he⟩ hdep.1
  rw [if_pos ht] at h
  have halways := (e.constant?_eq_some_iff 1).mp hdep.2
  obtain ⟨attrs, sub, l, hstmt, hattr⟩ := h.1 1 (Int.le_refl 1) halways
  exact ⟨result, hresult, attrs, sub, _, l, _, hstmt, hattr⟩

/-- It is not so that an expression with template parameters never has a value: those that are
skipped leave it one. -/
theorem dependent_count_folded : ¬ ∀ e : Expr, e.isDependent = true → e.constant? = none := by
  intro h
  let skipped : Expr := .name "N" .templateParam .unknown
  have hnone := h (.binary .lor (.int 1 "1" .unknown) skipped .unknown) (by decide)
  exact absurd hnone (by decide)

end AttrCheck
