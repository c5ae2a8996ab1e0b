import AttrCheck.Proofs.AcceptedText

/-! Which attributes end up on which statements. The verdict on an attribute shows in the tree that
a check leaves, and the tree shows the verdict. -/

namespace AttrCheck

namespace RawAttr

variable {a : RawAttr} {t : Target} {inSwitch strict : Bool}

theorem readHint_eq_keep {b : Attr} (h : a.readHint strict = .keep b) :
    b.kind = .loopHint ∧ b.range = a.range := by
  unfold readHint at h
  split at h
  · split at h
    · cases h
    · split at h
      · obtain rfl := Verdict.keep.inj h
        exact ⟨rfl, rfl⟩
      · cases h
  · cases h

theorem verdict_eq_keep {b : Attr} (h : a.verdict t inSwitch strict = .keep b) :
    b.kind = a.kind ∧ b.range = a.range := by
  unfold verdict at h
  split at h
  · cases h
  next hk =>
    unfold fallthroughVerdict at h
    split_ifs at h
    obtain rfl := Verdict.keep.inj h
    exact ⟨hk.symm, rfl⟩
  next hk =>
    unfold loopHintVerdict at h
    split_ifs at h
    rw [hk]
    exact readHint_eq_keep h
  · cases h

end RawAttr

theorem Verdict.kept?_eq_some_iff {v : Verdict} {b : Attr} : v.kept? = some b ↔ v = .keep b := by
  cases v <;> simp [kept?]

namespace Site

theorem verdict_eq_keep (s : Site) {a : RawAttr} {b : Attr}
    (h : s.verdict (a.bound s.setting.scopes) = .keep b) :
    b.kind = a.kind ∧ b.range = a.range := (a.bound s.setting.scopes).verdict_eq_keep h

theorem mem_kept_iff (s : Site) {b : Attr} :
    b ∈ s.kept ↔ ∃ a ∈ s.attrs, s.verdict (a.bound s.setting.scopes) = .keep b := by
  simp only [kept, bound, List.mem_filterMap, List.mem_map, exists_exists_and_eq_and,
    Verdict.kept?_eq_some_iff]

end Site

namespace SourceUnit

variable {u : SourceUnit}

theorem exists_site_of_annotated {strict : Bool} {attrs : List RawAttr} {sub : Stmt}
    {range : Range} {l : Loc} (h : .annotated attrs sub range l ∈ u.stmts) :
    ∃ s ∈ u.sites strict, s.attrs = attrs ∧ s.specifiers = range := by
  have hm : (attrs, range) ∈ (u.sites strict).map Site.annotation := by
    rw [map_sites]
    exact List.mem_filterMap.mpr ⟨_, h, rfl⟩
  obtain ⟨s, hs, he⟩ := List.mem_map.mp hm
  exact ⟨s, hs, (Prod.mk.inj he).1, (Prod.mk.inj he).2⟩

theorem exists_annotated_of_site {strict : Bool} {s : Site} (h : s ∈ u.sites strict) :
    ∃ sub l, .annotated s.attrs sub s.specifiers l ∈ u.stmts := by
  have hm : s.annotation ∈ u.stmts.filterMap Stmt.annotation? := by
    rw [← map_sites]
    exact List.mem_map_of_mem h
  obtain ⟨t, ht, he⟩ := List.mem_filterMap.mp hm
  obtain ⟨sub, l, rfl⟩ := Stmt.annotation?_eq_some_iff.mp he
  exact ⟨sub, l, ht⟩

theorem AsRead.namesOption_of_site (h : u.AsRead) {strict : Bool} {s : Site}
    (hs : s ∈ u.sites strict) : ∀ a ∈ s.attrs, a.NamesOption := by
  obtain ⟨sub, l, ht⟩ := exists_annotated_of_site hs
  obtain ⟨f, hf, ht⟩ := List.mem_flatMap.mp ht
  exact h.namesOptions f hf _ (f.body.postorder_perm_preorder.mem_iff.mp ht)

theorem AsRead.exists_site_of_attributed (h : u.AsRead) {strict : Bool} {attrs : List Attr}
    {sub : Stmt} {range : Range} {l : Loc}
    (ha : .attributed attrs sub range l ∈ (u.resolved strict).stmts) :
    ∃ s ∈ u.sites strict, s.kept = attrs ∧ s.specifiers = range := by
  have hm : (attrs, range) ∈ (u.sites strict).filterMap Site.attribution? := by
    rw [← h.attributions_resolved]
    exact List.mem_filterMap.mpr ⟨_, ha, rfl⟩
  obtain ⟨s, hs, he⟩ := List.mem_filterMap.mp hm
  unfold Site.attribution? at he
  split_ifs at he
  obtain ⟨rfl, rfl⟩ := Prod.mk.inj (Option.some.inj he)
  exact ⟨s, hs, rfl, rfl⟩

theorem AsRead.exists_attributed_of_site (h : u.AsRead) {strict : Bool} {s : Site}
    (hs : s ∈ u.sites strict) (hk : s.kept ≠ []) :
    ∃ sub l, .attributed s.kept sub s.specifiers l ∈ (u.resolved strict).stmts := by
  have hm : (s.kept, s.specifiers) ∈
      (u.resolved strict).stmts.filterMap Stmt.attribution? := by
    rw [h.attributions_resolved]
    refine List.mem_filterMap.mpr ⟨s, hs, ?_⟩
    rw [Site.attribution?, if_neg (by rwa [List.isEmpty_iff])]
  obtain ⟨t, ht, he⟩ := List.mem_filterMap.mp hm
  obtain ⟨sub, l, rfl⟩ := Stmt.attribution?_eq_some_iff.mp he
  exact ⟨sub, l, ht⟩

theorem AsRead.attributed_of_keep (h : u.AsRead) {strict : Bool} {s : Site} {a : RawAttr} {b : Attr}
    (hs : s ∈ u.sites strict) (ha : a ∈ s.attrs)
    (hb : s.verdict (a.bound s.setting.scopes) = .keep b) :
    ∃ attrs sub l, .attributed attrs sub s.specifiers l ∈ (u.resolved strict).stmts ∧
      b ∈ attrs := by
  have hk : b ∈ s.kept := s.mem_kept_iff.mpr ⟨a, ha, hb⟩
  obtain ⟨sub, l, ht⟩ := h.exists_attributed_of_site hs (List.ne_nil_of_mem hk)
  exact ⟨s.kept, sub, l, ht, hk⟩

theorem AsRead.keep_of_attributed (h : u.AsRead) {strict : Bool} {s : Site} {a : RawAttr}
    (hs : s ∈ u.sites strict) (ha : a ∈ s.attrs) {attrs : List Attr} {sub : Stmt} {range : Range}
    {l : Loc} (ht : .attributed attrs sub range l ∈ (u.resolved strict).stmts) {b : Attr}
    (hb : b ∈ attrs) (hr : b.range = a.range) :
    s.verdict (a.bound s.setting.scopes) = .keep b := by
  obtain ⟨s', hs', rfl, _⟩ := h.exists_site_of_attributed ht
  obtain ⟨a', ha', hv⟩ := s'.mem_kept_iff.mp hb
  have hloc : a.loc = a'.loc := by
    rw [RawAttr.loc, ← hr, (s'.verdict_eq_keep hv).2, RawAttr.loc]
  -- The two sites may be far apart in the tree; the place in the text makes them one.
  obtain ⟨rfl, rfl⟩ := h.site_eq strict hs hs' ha ha' hloc
  exact hv

end SourceUnit

end AttrCheck
