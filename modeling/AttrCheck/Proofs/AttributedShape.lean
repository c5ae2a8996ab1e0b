import AttrCheck.Proofs.Attachment
import AttrCheck.Proofs.ConstantRange

/-! What a check leaves under attributes. A statement with checked attributes is an empty statement
marked as an intended fallthrough, or a loop with hints whose values are in range. -/

namespace AttrCheck

def LoopHint.InRange (h : LoopHint) : Prop :=
  match h.option.optionClass with
  | .boolean => h.value = 0 ∨ h.value = 1
  | .numeric => 1 ≤ h.value ∧ h.value ≤ 0x7FFFFFFFFFFFFFFF

def Attr.Suits (kind : StmtKind) : Attr → Prop
  | fallthrough _ => kind = .null
  | hint h => kind.isLoop = true ∧ h.InRange

theorem LoopHint.inRange_of_hintValue {option : HintOption} {word : Ident} {value : Option Expr}
    {v : Int} (h : hintValue option word value = .ok v) (range : Range) :
    InRange ⟨option, v, range⟩ := by
  unfold hintValue at h
  unfold InRange
  cases hc : option.optionClass with
  | boolean =>
    simp only [hc] at h ⊢
    split_ifs at h
    · exact .inl (Except.ok.inj h).symm
    · exact .inr (Except.ok.inj h).symm
  | numeric =>
    simp only [hc] at h ⊢
    split at h
    next n hn =>
      split_ifs at h with hpos
      obtain rfl := Except.ok.inj h
      obtain ⟨e, _, he⟩ := Option.bind_eq_some_iff.mp hn
      exact ⟨hpos, Int.le_of_lt_add_one (Expr.fits_constant? he).2⟩
    next => cases h

namespace RawAttr

variable {a : RawAttr} {t : Target} {inSwitch strict : Bool} {b : Attr}

theorem inRange_of_readHint (h : a.readHint strict = .keep b) :
    ∃ hint : LoopHint, b = .hint hint ∧ hint.InRange := by
  unfold readHint at h
  split at h
  · split at h
    · cases h
    · split at h
      next v hv =>
        obtain rfl := Verdict.keep.inj h
        exact ⟨_, rfl, LoopHint.inRange_of_hintValue hv a.range⟩
      · cases h
  · cases h

theorem suits_of_verdict (h : a.verdict t inSwitch strict = .keep b) : b.Suits t.kind := by
  unfold verdict at h
  split at h
  · cases h
  · unfold fallthroughVerdict at h
    split_ifs at h with hk
    obtain rfl := Verdict.keep.inj h
    exact not_not.mp hk
  · unfold loopHintVerdict at h
    split_ifs at h with hk
    obtain ⟨hint, rfl, hr⟩ := inRange_of_readHint h
    exact ⟨hk, hr⟩
  · cases h

end RawAttr

theorem Site.suits_of_mem_kept {s : Site} {b : Attr} (h : b ∈ s.kept) : b.Suits s.target.kind := by
  obtain ⟨a, _, hv⟩ := s.mem_kept_iff.mp h
  exact RawAttr.suits_of_verdict hv

namespace Stmt

theorem mem_postorder_self (s : Stmt) : s ∈ s.postorder := by
  rw [postorder_eq]
  exact List.mem_append_right _ (.head _)

theorem mem_resolvedAll {ss : List Stmt} {st : Setting} {t : Stmt} (h : t ∈ resolvedAll st ss) :
    ∃ s ∈ ss, ∃ st', t = s.resolved st' ∧ s.sites st' ⊆ sitesAll st ss := by
  induction ss generalizing st with
  | nil => cases h
  | cons s ss ih =>
    rw [resolvedAll, List.mem_cons] at h
    obtain rfl | h := h
    · exact ⟨s, .head _, st, rfl, List.subset_append_left _ _⟩
    · obtain ⟨s', hs', st', ht, hsub⟩ := ih h
      exact ⟨s', .tail _ hs', st', ht, fun _ hm => List.mem_append_right _ (hsub hm)⟩

theorem mem_postorder_resolved {s t : Stmt} {st : Setting} (h : t ∈ (s.resolved st).postorder) :
    (∃ s' ∈ s.postorder, ∃ st', s'.annotation? = none ∧ t = s'.resolved st') ∨
      ∃ site ∈ s.sites st, ∃ sub, site.kept ≠ [] ∧ site.target = sub.target ∧
        t = attributed site.kept sub site.specifiers site.specifiers.start := by
  induction s using childInduction generalizing st with
  | h s ih =>
    cases ha : s.annotation? with
    | none =>
      rw [postorder_eq, List.mem_append, List.mem_singleton, children_resolved st ha,
        List.mem_flatMap] at h
      obtain ⟨r, hr, ht⟩ | rfl := h
      · obtain ⟨c, hc, st', rfl, hsites⟩ := mem_resolvedAll hr
        rw [postorder_eq, sites_eq st ha]
        obtain ⟨s', hs', st'', hs⟩ | ⟨site, hsite, hs⟩ := ih c hc ht
        · exact .inl ⟨s', List.mem_append_left _ (List.mem_flatMap_of_mem hc hs'), st'', hs⟩
        · exact .inr ⟨site, hsites hsite, hs⟩
      · exact .inl ⟨s, s.mem_postorder_self, st, ha, rfl⟩
    | some p =>
      obtain ⟨sub, l, rfl⟩ := annotation?_eq_some_iff.mp ha
      rw [resolved, postorder_withAttrs, List.mem_append] at h
      rw [postorder_eq, sites]
      obtain ht | ht := h
      · obtain ⟨s', hs', st'', hs⟩ | ⟨site, hsite, hs⟩ := ih sub (.head _) ht
        · exact .inl ⟨s', by simp [children, hs'], st'', hs⟩
        · exact .inr ⟨site, List.mem_append_left _ hsite, hs⟩
      · split_ifs at ht with hk
        · cases ht
        · rw [List.mem_singleton] at ht
          rw [List.isEmpty_iff] at hk
          exact .inr ⟨_, List.mem_append_right _ (.head _), _, hk, rfl, ht⟩

end Stmt

namespace SourceUnit

theorem AsRead.mem_resolved {u : SourceUnit} (h : u.AsRead) {strict : Bool} {attrs : List Attr}
    {sub : Stmt} {range : Range} {l : Loc}
    (ht : .attributed attrs sub range l ∈ (u.resolved strict).stmts) :
    ∃ s ∈ u.sites strict, s.kept = attrs ∧ attrs ≠ [] ∧ s.target = sub.target := by
  simp only [resolved, stmts, List.flatMap_map, List.mem_flatMap] at ht
  obtain ⟨f, hf, ht⟩ := ht
  obtain ⟨s', hs', st, hs, he⟩ | ⟨site, hsite, sub', hk, htarget, he⟩ :=
    Stmt.mem_postorder_resolved ht
  · -- A text gives no statement that carries checked attributes beforehand.
    have hu := List.filterMap_eq_nil_iff.mp h.unattributed s' (List.mem_flatMap_of_mem hf hs')
    rw [← Stmt.attribution?_resolved st hs, ← he] at hu
    cases hu
  · injection he with hattrs hsub
    subst hattrs hsub
    exact ⟨site, List.mem_flatMap_of_mem hf hsite, rfl, hk, htarget⟩

end SourceUnit

/-- Whatever the check of an accepted text reports, a statement that it leaves with attributes has
some, and they are fallthrough marks on an empty statement or hints on a loop, each holding a value
that its option takes. -/
theorem attributed_shape {file text : String} {u : SourceUnit} (h : parse file text = .ok u)
    (config : Config) : ∃ result, checkSource config file text = .ok result ∧
      ∀ attrs sub range l, .attributed attrs sub range l ∈ result.unit.stmts → attrs ≠ [] ∧
        ((sub.kind = .null ∧ ∀ b ∈ attrs, ∃ r, b = .fallthrough r) ∨
          (sub.isLoop = true ∧ ∀ b ∈ attrs, ∃ hint : LoopHint, b = .hint hint ∧ hint.InRange)) := by
  refine ⟨_, checkSource_eq h config, ?_⟩
  intro attrs sub range l ht
  obtain ⟨s, _, rfl, hne, htarget⟩ := (SourceUnit.asRead_of_parse h).mem_resolved ht
  have hkind : s.target.kind = sub.kind := congrArg Target.kind htarget
  have hsuits : ∀ b ∈ s.kept, b.Suits sub.kind := fun b hb => hkind ▸ Site.suits_of_mem_kept hb
  refine ⟨hne, ?_⟩
  -- No statement is both empty and a loop, so one attribute decides for all.
  by_cases hnull : sub.kind = .null
  · refine .inl ⟨hnull, fun b hb => ?_⟩
    cases b with
    | fallthrough r => exact ⟨r, rfl⟩
    | hint hint => exact absurd (hsuits _ hb).1 (by simp [hnull, StmtKind.isLoop])
  · have hhint : ∀ b ∈ s.kept, ∃ hint : LoopHint, b = .hint hint ∧ sub.isLoop = true ∧
        hint.InRange := by
      intro b hb
      cases b with
      | fallthrough r => exact absurd (hsuits _ hb) hnull
      | hint hint => exact ⟨hint, rfl, hsuits _ hb⟩
    obtain ⟨b, hb⟩ := List.exists_mem_of_ne_nil _ hne
    obtain ⟨_, _, hloop, _⟩ := hhint b hb
    refine .inr ⟨hloop, fun b hb => ?_⟩
    obtain ⟨hint, rfl, _, hr⟩ := hhint b hb
    exact ⟨hint, rfl, hr⟩

def computedCountText : String :=
  "void f() \x7b\n#pragma clang loop unroll(disable) unroll_count(~0 - -9)\nfor (;;) ;\n\x7d"

theorem attributed_shape_clashing : ∃ result,
    checkSource {} "a.cc" computedCountText = .ok result ∧
      ∃ attrs sub range l, .attributed attrs sub range l ∈ result.unit.stmts ∧
        attrs ≠ [] ∧ ((sub.kind = .null ∧ ∀ b ∈ attrs, ∃ r, b = .fallthrough r) ∨
          (sub.isLoop = true ∧ ∀ b ∈ attrs, ∃ hint : LoopHint, b = .hint hint ∧ hint.InRange)) := by
  have hread : ∃ u ∈ (parse "a.cc" computedCountText).toOption,
      ∃ s ∈ (u.resolved false).stmts, s.attribution?.isSome = true := by
    decide +kernel
  obtain ⟨u, hu, s, hs, hattrs⟩ := hread
  have hp := ok_of_mem_toOption hu
  obtain ⟨result, hresult, hshape⟩ := attributed_shape hp {}
  have hchecked := checkSource_eq hp {}
  obtain rfl := Except.ok.inj (hresult.symm.trans hchecked)
  obtain ⟨⟨attrs, range⟩, ha⟩ := Option.isSome_iff_exists.mp hattrs
  obtain ⟨sub, l, rfl⟩ := Stmt.attribution?_eq_some_iff.mp ha
  exact ⟨_, hresult, attrs, sub, range, l, hs, hshape attrs sub range l hs⟩

end AttrCheck
