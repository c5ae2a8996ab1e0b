import AttrCheck.Proofs.ResultOrder

/-! What the reports on a hint look back on. The scan keeps one state for each category and replaces
it as it goes. What it reports on a hint, and the states in the end, are told by the latest hints of
a form among all those that it has gone through. -/

namespace AttrCheck

section IsLatest

variable {α : Type} {p : α → Prop} {xs : List α} {n : Nat} {x : α}

def IsLatest (p : α → Prop) (xs : List α) (n : Nat) (x : α) : Prop :=
  ∃ j < n, xs[j]? = some x ∧ p x ∧ ∀ k < n, j < k → ∀ y, xs[k]? = some y → ¬ p y

theorem isLatest_succ_iff : IsLatest p xs (n + 1) x ↔
    xs[n]? = some x ∧ p x ∨ (∀ y, xs[n]? = some y → ¬ p y) ∧ IsLatest p xs n x := by
  constructor
  · rintro ⟨j, hj, hx, hp, hlater⟩
    obtain hj | rfl := Nat.lt_succ_iff_lt_or_eq.mp hj
    · refine .inr ⟨hlater n n.lt_succ_self hj, j, hj, hx, hp, fun k hk => ?_⟩
      exact hlater k (hk.trans n.lt_succ_self)
    · exact .inl ⟨hx, hp⟩
  · rintro (⟨hx, hp⟩ | ⟨hn, j, hj, hx, hp, hlater⟩)
    · exact ⟨n, n.lt_succ_self, hx, hp, fun k hk hnk => absurd hk (by omega)⟩
    · refine ⟨j, hj.trans n.lt_succ_self, hx, hp, fun k hk hjk => ?_⟩
      obtain hk | rfl := Nat.lt_succ_iff_lt_or_eq.mp hk
      · exact hlater k hk hjk
      · exact hn

theorem getLast?_filter_take [DecidablePred p] (xs : List α) (n : Nat) (x : α) :
    ((xs.take n).filter p).getLast? = some x ↔ IsLatest p xs n x := by
  induction n with
  | zero =>
    refine iff_of_false (by simp) ?_
    rintro ⟨j, hj, _⟩
    exact absurd hj j.not_lt_zero
  | succ n ih =>
    rw [isLatest_succ_iff, ← ih, List.take_add_one, List.filter_append]
    cases hn : xs[n]? with
    | none => simp
    | some y =>
      by_cases hy : p y
      · have hfilter : [y].filter p = [y] := List.filter_cons_of_pos (by simpa using hy)
        rw [Option.toList_some, hfilter, List.getLast?_concat]
        constructor
        · rintro hyx
          exact .inl ⟨hyx, Option.some.inj hyx ▸ hy⟩
        · rintro (⟨hyx, _⟩ | ⟨hno, _⟩)
          · exact hyx
          · exact absurd hy (hno y rfl)
      · have hfilter : [y].filter p = [] := List.filter_cons_of_neg (by simpa using hy)
        rw [Option.toList_some, hfilter, List.append_nil]
        constructor
        · intro h
          exact .inr ⟨fun z hz => Option.some.inj hz ▸ hy, h⟩
        · rintro (⟨hyx, hx⟩ | ⟨_, h⟩)
          · exact absurd hx (Option.some.inj hyx ▸ hy)
          · exact h

end IsLatest

namespace LoopHint

def IsOf (c : HintCategory) (form : OptionClass) (h : LoopHint) : Prop :=
  h.option.category = c ∧ h.option.optionClass = form

instance (c : HintCategory) (form : OptionClass) : DecidablePred (IsOf c form) :=
  fun _ => inferInstanceAs (Decidable (_ ∧ _))

def cited (h : LoopHint) : DiagArg :=
  match h.option.optionClass with
  | .boolean => .text (switchText (h.value ≠ 0))
  | .numeric => .int h.value

end LoopHint

def IsDuplicateAt (hs : List LoopHint) (i : Nat) (r : Report) : Prop :=
  ∃ h g, hs[i]? = some h ∧ IsLatest (·.option = h.option) hs i g ∧
    r = conflictReport h.range.stop true h.option g.cited h.option h.cited

/-- Whether a report says that, with a hint, its category is disabled and has a count. -/
def IsIncompatibleAt (hs : List LoopHint) (i : Nat) (r : Report) : Prop :=
  ∃ h off count, hs[i]? = some h ∧
    IsLatest (LoopHint.IsOf h.option.category .boolean) hs (i + 1) off ∧ off.value = 0 ∧
    IsLatest (LoopHint.IsOf h.option.category .numeric) hs (i + 1) count ∧
    r = conflictReport h.range.stop false
      (h.option.category.option .boolean) (.text "disable")
      (h.option.category.option .numeric) (.int count.value)

theorem HintOption.eq_iff {o o' : HintOption} :
    o = o' ↔ o.category = o'.category ∧ o.optionClass = o'.optionClass := by
  refine ⟨fun h => by rw [h]; exact ⟨rfl, rfl⟩, fun h => ?_⟩
  rw [← o.option_category, h.1, h.2, o'.option_category]

theorem HintCategory.given_eq_nil {c : HintCategory} {form : OptionClass} {hs : List LoopHint} :
    c.given form hs = [] ↔ ∀ g ∈ hs, ¬ LoopHint.IsOf c form g := by
  rw [given, List.filter_eq_nil_iff]
  exact forall₂_congr fun g _ => decide_eq_true_iff.not

namespace CategoryState

variable {c : HintCategory} {hs : List LoopHint} {n : Nat}

theorem enabled_told_eq_some_iff {on : Bool} : (told c (hs.take n)).enabled = some on ↔
    ∃ g, IsLatest (LoopHint.IsOf c .boolean) hs n g ∧ decide (g.value ≠ 0) = on := by
  simp only [← getLast?_filter_take, told, HintCategory.given, Option.map_eq_some_iff]
  rfl

theorem enabled_told_eq_none_iff : (told c hs).enabled = none ↔ c.given .boolean hs = [] := by
  simp [told]

theorem count_told_eq_some_iff {v : Int} : (told c (hs.take n)).count = some v ↔
    ∃ g, IsLatest (LoopHint.IsOf c .numeric) hs n g ∧ g.value = v := by
  simp only [← getLast?_filter_take, told, HintCategory.given, Option.map_eq_some_iff]
  rfl

end CategoryState

theorem LoopHint.isOf_option {g h : LoopHint} :
    IsOf h.option.category h.option.optionClass g ↔ g.option = h.option := HintOption.eq_iff.symm

theorem duplicateReport?_told (hs : List LoopHint) (h : LoopHint) :
    duplicateReport? (.told h.option.category hs) h =
      (h.option.category.given h.option.optionClass hs).getLast?.map fun g =>
        conflictReport h.range.stop true h.option g.cited h.option h.cited := by
  have hform : ∀ g ∈ (h.option.category.given h.option.optionClass hs).getLast?,
      g.option.optionClass = h.option.optionClass := fun g hg =>
    (of_decide_eq_true (List.mem_filter.mp (List.mem_of_getLast? hg)).2).2
  unfold duplicateReport? CategoryState.told
  split
  next hb =>
    rw [hb] at hform ⊢
    rw [Option.map_map]
    refine Option.map_congr fun g hg => ?_
    rw [LoopHint.cited, LoopHint.cited, hform g hg, hb]
    rfl
  next hn =>
    rw [hn] at hform ⊢
    rw [Option.map_map]
    refine Option.map_congr fun g hg => ?_
    rw [LoopHint.cited, LoopHint.cited, hform g hg, hn]
    rfl

theorem duplicateReport?_eq_some_iff {hs : List LoopHint} {n : Nat} {h : LoopHint} {r : Report} :
    duplicateReport? (.told h.option.category (hs.take n)) h = some r ↔
      ∃ g, IsLatest (·.option = h.option) hs n g ∧
        r = conflictReport h.range.stop true h.option g.cited h.option h.cited := by
  have hfilter : h.option.category.given h.option.optionClass (hs.take n) =
      (hs.take n).filter (·.option = h.option) :=
    List.filter_congr fun g _ => decide_eq_decide.mpr LoopHint.isOf_option
  rw [duplicateReport?_told, hfilter, Option.map_eq_some_iff]
  exact exists_congr fun g => and_congr (getLast?_filter_take hs n g) eq_comm

theorem incompatibleReport?_eq_some_iff {hs : List LoopHint} {n : Nat} {h : LoopHint}
    {r : Report} : incompatibleReport? (.told h.option.category (hs.take n)) h = some r ↔
      ∃ off count, IsLatest (LoopHint.IsOf h.option.category .boolean) hs n off ∧ off.value = 0 ∧
        IsLatest (LoopHint.IsOf h.option.category .numeric) hs n count ∧
        r = conflictReport h.range.stop false
          (h.option.category.option .boolean) (.text "disable")
          (h.option.category.option .numeric) (.int count.value) := by
  unfold incompatibleReport?
  constructor
  · intro hr
    split at hr
    next v he hc =>
      obtain ⟨off, hoff, hzero⟩ := CategoryState.enabled_told_eq_some_iff.mp he
      obtain ⟨count, hcount, rfl⟩ := CategoryState.count_told_eq_some_iff.mp hc
      exact ⟨off, count, hoff, by simpa using hzero, hcount, (Option.some.inj hr).symm⟩
    next => cases hr
  · rintro ⟨off, count, hoff, hzero, hcount, rfl⟩
    have hno : decide (off.value ≠ 0) = false := decide_eq_false (not_not.mpr hzero)
    have he := CategoryState.enabled_told_eq_some_iff.mpr ⟨off, hoff, hno⟩
    have hc := CategoryState.count_told_eq_some_iff.mpr ⟨count, hcount, rfl⟩
    rw [he, hc]
    rfl

theorem scanHints_eq_flatMap (hs : List LoopHint) : (scanHints .initial hs).1 =
    (List.range hs.length).flatMap fun i =>
      (hs[i]?.bind fun h =>
        duplicateReport? (.told h.option.category (hs.take i)) h).toList ++
      (hs[i]?.bind fun h =>
        incompatibleReport? (.told h.option.category (hs.take (i + 1))) h).toList := by
  -- From the end: one more hint changes nothing that was said of those in front of it.
  induction hs using List.reverseRecOn with
  | nil => rfl
  | append_singleton hs h ih =>
    rw [reports_scanHints, ih, List.length_append, List.length_singleton, List.range_succ,
      List.flatMap_append, List.flatMap_singleton]
    congr 1
    · refine List.flatMap_congr fun i hi => ?_
      have hlt : i < hs.length := List.mem_range.mp hi
      rw [List.getElem?_append_left hlt, List.take_append_of_le_length hlt.le,
        List.take_append_of_le_length hlt]
    · have hadd := CategoryState.told_append_singleton h.option.category hs h
      rw [if_pos rfl] at hadd
      have htake : (hs ++ [h]).take (hs.length + 1) = hs ++ [h] :=
        List.take_of_length_le (by simp)
      rw [List.getElem?_concat_length, List.take_left, htake, Option.bind_some, Option.bind_some,
        hadd]
      rfl

def Report.category? (r : Report) : Option HintCategory :=
  match r.args with
  | _ :: .text s :: _ => (HintOption.ofText? s).map HintOption.category
  | _ => none

theorem category?_of_mem_hintReports {s : CategoryState} {h : LoopHint} {r : Report}
    (hr : r ∈ hintReports s h) : r.category? = some h.option.category := by
  obtain ⟨_, option₁, _, _, _, rfl, hcategory⟩ := exists_of_mem_hintReports hr
  show (HintOption.ofText? option₁.text).map HintOption.category = _
  rw [HintOption.ofText?_text, Option.map_some, hcategory]

theorem scanHints_filter (c : HintCategory) {s s' : HintStates} (hs : List LoopHint)
    (h : s c = s' c) :
    (scanHints s hs).1.filter (·.category? = some c) =
        (scanHints s' (hs.filter (·.option.category = c))).1 ∧
      (scanHints s hs).2 c = (scanHints s' (hs.filter (·.option.category = c))).2 c := by
  induction hs generalizing s s' with
  | nil => exact ⟨rfl, h⟩
  | cons hint hs ih =>
    -- A hint of the category moves both scans alike, and one of another moves only the first.
    by_cases hc : hint.option.category = c
    · have hadd : s.add hint c = s'.add hint c := by
        rw [HintStates.add, HintStates.add, if_pos hc.symm, if_pos hc.symm, h]
      obtain ⟨hreports, hstate⟩ := ih hadd
      have hown : (hintReports (s hint.option.category) hint).filter (·.category? = some c) =
          hintReports (s' hint.option.category) hint := by
        rw [hc, ← h, ← hc]
        exact List.filter_eq_self.mpr fun r hr =>
          decide_eq_true (category?_of_mem_hintReports hr)
      rw [List.filter_cons_of_pos (by simpa using hc)]
      refine ⟨?_, hstate⟩
      rw [scanHints, scanHints, List.filter_append, hown, hreports]
    · have hadd : s.add hint c = s' c := by
        rw [HintStates.add, if_neg (Ne.symm hc), h]
      obtain ⟨hreports, hstate⟩ := ih hadd
      have hown : (hintReports (s hint.option.category) hint).filter (·.category? = some c) =
          [] := by
        refine List.filter_eq_nil_iff.mpr fun r hr => ?_
        rw [category?_of_mem_hintReports hr]
        simpa using hc
      rw [List.filter_cons_of_neg (by simpa using hc)]
      refine ⟨?_, hstate⟩
      rw [scanHints, List.filter_append, hown, hreports, List.nil_append]

def Attr.isIn (c : HintCategory) (a : Attr) : Bool := a.hint?.any (·.option.category = c)

theorem hints_filter_isIn (c : HintCategory) (attrs : List Attr) :
    Attr.hints (attrs.filter (Attr.isIn c)) =
      (Attr.hints attrs).filter (·.option.category = c) := by
  rw [Attr.hints, Attr.hints, List.filterMap_filter, List.filter_filterMap]
  refine List.filterMap_congr fun a _ => ?_
  cases a with
  | fallthrough range => rfl
  | hint h => simp [Attr.isIn, Attr.hint?, Option.filter]

theorem hintStates_eq (attrs : List Attr) (c : HintCategory) :
    hintStates attrs c = .told c ((Attr.hints attrs).take (Attr.hints attrs).length) := by
  rw [hintStates, states_scanHints, List.take_length]
  rfl

theorem diagnostic_of_mem_conflicts {attrs : List Attr} {r : Report} (h : r ∈ conflicts attrs) :
    r.diagnostic = ⟨.hintConflict, .error, r.loc, r.args, [], []⟩ := by
  obtain ⟨hint, s, h⟩ := exists_of_mem_scanHints h
  obtain ⟨_, _, _, _, _, rfl, _⟩ := exists_of_mem_hintReports h
  rfl

/-- What the scan of some attributes says, hint by hint, and what states it leaves. A hint is
reported with the latest one in front of it that has its option, and then where its category was
last disabled and has a count. Hints of one category tell nothing of another. -/
theorem conflicts_eq (attrs : List Attr) :
    let hs := Attr.hints attrs
    (∃ duplicate? incompatible? : Nat → Option Report,
      (∀ i r, duplicate? i = some r ↔ IsDuplicateAt hs i r) ∧
      (∀ i r, incompatible? i = some r ↔ IsIncompatibleAt hs i r) ∧
      conflicts attrs = (List.range hs.length).flatMap fun i =>
        (duplicate? i).toList ++ (incompatible? i).toList) ∧
    (∀ e : Engine, (e.reportAll (conflicts attrs)).recorded =
      e.recorded ++ (conflicts attrs).map fun r => ⟨.hintConflict, .error, r.loc, r.args, [], []⟩) ∧
    ∀ c : HintCategory,
      (∀ on, (hintStates attrs c).enabled = some on ↔
        ∃ g, IsLatest (LoopHint.IsOf c .boolean) hs hs.length g ∧ decide (g.value ≠ 0) = on) ∧
      ((hintStates attrs c).enabled = none ↔ ∀ g ∈ hs, ¬ LoopHint.IsOf c .boolean g) ∧
      (∀ v, (hintStates attrs c).count = some v ↔
        ∃ g, IsLatest (LoopHint.IsOf c .numeric) hs hs.length g ∧ g.value = v) ∧
      ((hintStates attrs c).count = none ↔ ∀ g ∈ hs, ¬ LoopHint.IsOf c .numeric g) ∧
      hintStates attrs c = hintStates (attrs.filter (Attr.isIn c)) c ∧
      (conflicts attrs).filter (·.category? = some c) = conflicts (attrs.filter (Attr.isIn c)) := by
  intro hs
  refine ⟨⟨_, _, fun i r => ?_, fun i r => ?_, scanHints_eq_flatMap hs⟩, fun e => ?_, fun c => ?_⟩
  · rw [Option.bind_eq_some_iff]
    simp only [duplicateReport?_eq_some_iff, IsDuplicateAt, ← exists_and_left]
  · rw [Option.bind_eq_some_iff]
    simp only [incompatibleReport?_eq_some_iff, IsIncompatibleAt, ← exists_and_left]
  · rw [e.recorded_reportAll_conflicts]
    exact congrArg (e.recorded ++ ·) (List.map_congr_left fun r => diagnostic_of_mem_conflicts)
  · obtain ⟨hreports, hstate⟩ := scanHints_filter c hs (rfl : HintStates.initial c = _)
    rw [← hints_filter_isIn] at hreports hstate
    refine ⟨fun on => ?_, ?_, fun v => ?_, ?_, hstate, hreports⟩
    · rw [hintStates_eq, CategoryState.enabled_told_eq_some_iff]
    · rw [hintStates_eq, List.take_length, CategoryState.enabled_told_eq_none_iff,
        HintCategory.given_eq_nil]
    · rw [hintStates_eq, CategoryState.count_told_eq_some_iff]
    · rw [hintStates_eq, List.take_length, CategoryState.count_told_eq_none_iff,
        HintCategory.given_eq_nil]

/-- A category that is enabled again is reported as a duplicate only. -/
example : (conflicts [.hint ⟨.unroll, 0, .unknown⟩, .hint ⟨.unrollCount, 4, .unknown⟩,
      .hint ⟨.unroll, 1, .unknown⟩]).map Report.args =
    [[.flag false, .text "unroll", .text "disable", .text "unroll_count", .int 4],
      [.flag true, .text "unroll", .text "disable", .text "unroll", .text "enable"]] := by
  decide

end AttrCheck
