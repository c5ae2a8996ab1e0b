import Mathlib.Data.Finset.Card
import AttrCheck.HintConflict

/-! The scan of loop hints for conflicts. Its state depends on the order of the hints, and so do its
reports; whether there are any, and how many of them say that a hint is given twice, does not. -/

namespace AttrCheck

namespace HintCategory

def given (c : HintCategory) (form : OptionClass) (hs : List LoopHint) : List LoopHint :=
  hs.filter fun h => h.option.category = c ∧ h.option.optionClass = form

structure Agrees (c : HintCategory) (hs : List LoopHint) : Prop where
  boolean_once : (c.given .boolean hs).length ≤ 1
  numeric_once : (c.given .numeric hs).length ≤ 1
  compatible : (∃ h ∈ c.given .boolean hs, h.mode = .disable) → c.given .numeric hs = []

variable {c : HintCategory} {form : OptionClass} {hs hs' : List LoopHint} {h : LoopHint}

theorem given_append_singleton (c : HintCategory) (form : OptionClass) (hs : List LoopHint)
    (h : LoopHint) : c.given form (hs ++ [h]) =
      if h.option.category = c ∧ h.option.optionClass = form then c.given form hs ++ [h]
      else c.given form hs := by
  rw [given, List.filter_append, given]
  split_ifs with hc
  · simp [hc]
  · simp [hc]

theorem Agrees.perm (h : c.Agrees hs) (hp : hs.Perm hs') : c.Agrees hs' := by
  have hg : ∀ form, (c.given form hs).Perm (c.given form hs') := fun form => hp.filter _
  refine ⟨(hg .boolean).length_eq ▸ h.boolean_once, (hg .numeric).length_eq ▸ h.numeric_once, ?_⟩
  rintro ⟨d, hd, hdis⟩
  have hn := h.compatible ⟨d, (hg .boolean).mem_iff.mpr hd, hdis⟩
  exact (hn ▸ hg .numeric).symm.eq_nil

end HintCategory

namespace CategoryState

def told (c : HintCategory) (hs : List LoopHint) : CategoryState :=
  ⟨(c.given .boolean hs).getLast?.map (·.value ≠ 0), (c.given .numeric hs).getLast?.map (·.value)⟩

theorem told_append_singleton (c : HintCategory) (hs : List LoopHint) (h : LoopHint) :
    told c (hs ++ [h]) = if c = h.option.category then (told c hs).add h else told c hs := by
  unfold told add
  rw [c.given_append_singleton, c.given_append_singleton]
  by_cases hc : c = h.option.category
  · subst hc
    cases h.option.optionClass <;> simp
  · rw [if_neg hc, if_neg fun hb => hc hb.1.symm, if_neg fun hb => hc hb.1.symm]

end CategoryState

def HintStates.told (hs : List LoopHint) : HintStates := fun c => .told c hs

theorem scanHints_append (s : HintStates) (hs hs' : List LoopHint) :
    scanHints s (hs ++ hs') = ((scanHints s hs).1 ++ (scanHints (scanHints s hs).2 hs').1,
      (scanHints (scanHints s hs).2 hs').2) := by
  induction hs generalizing s with
  | nil => rfl
  | cons h hs ih =>
    rw [List.cons_append, scanHints, ih]
    simp [scanHints]

theorem states_scanHints (hs : List LoopHint) : (scanHints .initial hs).2 = .told hs := by
  -- A hint is added to what those before it have told, so the induction is at the end of the list.
  induction hs using List.reverseRecOn with
  | nil => rfl
  | append_singleton hs h ih =>
    rw [scanHints_append, ih]
    funext c
    exact (CategoryState.told_append_singleton c hs h).symm

theorem reports_scanHints (hs : List LoopHint) (h : LoopHint) :
    (scanHints .initial (hs ++ [h])).1 =
      (scanHints .initial hs).1 ++ hintReports (.told h.option.category hs) h := by
  rw [scanHints_append, states_scanHints]
  simp [scanHints, HintStates.told]

theorem LoopHint.mode_eq_disable_iff {h : LoopHint} (hb : h.option.optionClass = .boolean) :
    h.mode = .disable ↔ h.value = 0 := by
  simp only [mode, hb]
  split_ifs with hv <;> simp [hv]

theorem incompatibleReport?_eq_none_iff (s : CategoryState) (h : LoopHint) :
    incompatibleReport? s h = none ↔ (s.enabled = some false → s.count = none) := by
  unfold incompatibleReport?
  split
  next n he hn => simp [he, hn]
  next hno =>
    refine iff_of_true rfl fun he => Option.eq_none_iff_forall_ne_some.mpr fun n hn => ?_
    exact hno n he hn

namespace CategoryState

variable {c : HintCategory} {hs : List LoopHint}

theorem duplicateReport?_told_eq_none_iff (hs : List LoopHint) (h : LoopHint) :
    duplicateReport? (.told h.option.category hs) h = none ↔
      h.option.category.given h.option.optionClass hs = [] := by
  cases hform : h.option.optionClass <;> simp [duplicateReport?, hform, told]

theorem count_told_eq_none_iff : (told c hs).count = none ↔ c.given .numeric hs = [] := by
  simp [told]

theorem enabled_told_eq_false_iff (h : (c.given .boolean hs).length ≤ 1) :
    (told c hs).enabled = some false ↔ ∃ d ∈ c.given .boolean hs, d.mode = .disable := by
  have hform : ∀ d ∈ c.given .boolean hs, d.option.optionClass = .boolean :=
    fun d hd => (of_decide_eq_true (List.mem_filter.mp hd).2).2
  unfold told
  rcases hg : c.given .boolean hs with _ | ⟨d, _ | ⟨e, ds⟩⟩
  · simp
  · have hd := LoopHint.mode_eq_disable_iff (hform d (by rw [hg]; exact .head _))
    simp [hd]
  · simp [hg] at h

end CategoryState

namespace HintCategory

variable {c : HintCategory} {hs : List LoopHint} {h : LoopHint}

theorem agrees_nil (c : HintCategory) : c.Agrees [] := ⟨by simp [given], by simp [given], nofun⟩

theorem Agrees.of_append (h : c.Agrees (hs ++ hs')) : c.Agrees hs := by
  have hg : ∀ form, (c.given form hs).Sublist (c.given form (hs ++ hs')) :=
    fun form => (List.sublist_append_left hs hs').filter _
  refine ⟨(hg .boolean).length_le.trans h.boolean_once,
    (hg .numeric).length_le.trans h.numeric_once, ?_⟩
  rintro ⟨d, hd, hdis⟩
  have hn := h.compatible ⟨d, (hg .boolean).subset hd, hdis⟩
  exact List.sublist_nil.mp (hn ▸ hg .numeric)

theorem agrees_append_of_ne (hc : h.option.category ≠ c) :
    c.Agrees (hs ++ [h]) ↔ c.Agrees hs := by
  have hg : ∀ form, c.given form (hs ++ [h]) = c.given form hs := by
    intro form
    rw [given_append_singleton, if_neg fun hb => hc hb.1]
  refine ⟨.of_append, fun ha => ⟨?_, ?_, ?_⟩⟩
  · rw [hg]; exact ha.boolean_once
  · rw [hg]; exact ha.numeric_once
  · rw [hg, hg]; exact ha.compatible

theorem agrees_append_iff (ha : h.option.category.Agrees hs) :
    h.option.category.Agrees (hs ++ [h]) ↔
      hintReports (.told h.option.category hs) h = [] := by
  have hg : ∀ form, (h.option.category.given form hs).length ≤ 1 →
      ((h.option.category.given form (hs ++ [h])).length ≤ 1 ↔
        (h.option.optionClass = form → h.option.category.given form hs = [])) := by
    intro form hle
    rw [given_append_singleton]
    by_cases hf : h.option.optionClass = form <;> simp [hf, hle]
  have hadd := CategoryState.told_append_singleton h.option.category hs h
  rw [if_pos rfl] at hadd
  have hreports : hintReports (.told h.option.category hs) h = [] ↔
      h.option.category.given h.option.optionClass hs = [] ∧
        ((CategoryState.told h.option.category (hs ++ [h])).enabled = some false →
          (CategoryState.told h.option.category (hs ++ [h])).count = none) := by
    rw [hintReports, ← hadd, List.append_eq_nil_iff, Option.toList_eq_nil_iff,
      Option.toList_eq_nil_iff, CategoryState.duplicateReport?_told_eq_none_iff,
      incompatibleReport?_eq_none_iff]
  rw [hreports, CategoryState.count_told_eq_none_iff]
  -- Where a form is given once, its last hint is the only one, and the order makes no difference.
  have hb := hg .boolean ha.boolean_once
  have hn := hg .numeric ha.numeric_once
  constructor
  · rintro ⟨hb', hn', hc⟩
    rw [CategoryState.enabled_told_eq_false_iff hb']
    refine ⟨?_, hc⟩
    cases hform : h.option.optionClass with
    | boolean => exact hb.mp hb' hform
    | numeric => exact hn.mp hn' hform
  · rintro ⟨hfirst, hc⟩
    have hb' := hb.mpr fun hf => hf ▸ hfirst
    refine ⟨hb', hn.mpr fun hf => hf ▸ hfirst, ?_⟩
    rwa [CategoryState.enabled_told_eq_false_iff hb'] at hc

end HintCategory

theorem scanHints_eq_nil_iff (hs : List LoopHint) :
    (scanHints .initial hs).1 = [] ↔ ∀ c : HintCategory, c.Agrees hs := by
  induction hs using List.reverseRecOn with
  | nil => exact iff_of_true rfl HintCategory.agrees_nil
  | append_singleton hs h ih =>
    rw [reports_scanHints, List.append_eq_nil_iff, ih]
    constructor
    · rintro ⟨ha, hr⟩ c
      by_cases hc : h.option.category = c
      · subst hc
        exact (HintCategory.agrees_append_iff (ha _)).mpr hr
      · exact (HintCategory.agrees_append_of_ne hc).mpr (ha c)
    · intro ha
      refine ⟨fun c => (ha c).of_append, ?_⟩
      exact (HintCategory.agrees_append_iff (ha _).of_append).mp (ha _)

theorem conflicts_eq_nil_iff (attrs : List Attr) :
    conflicts attrs = [] ↔ ∀ c : HintCategory, c.Agrees (Attr.hints attrs) :=
  scanHints_eq_nil_iff _

theorem exists_of_mem_hintReports {s : CategoryState} {h : LoopHint} {r : Report}
    (hr : r ∈ hintReports s h) : ∃ isDuplicate option₁ value₁ option₂ value₂,
      r = conflictReport h.range.stop isDuplicate option₁ value₁ option₂ value₂ ∧
        option₁.category = h.option.category := by
  obtain hr | hr := List.mem_append.mp hr
  · rw [Option.mem_toList] at hr
    unfold duplicateReport? at hr
    split at hr <;>
    · obtain ⟨_, _, rfl⟩ := Option.map_eq_some_iff.mp hr
      exact ⟨_, _, _, _, _, rfl, rfl⟩
  · rw [Option.mem_toList] at hr
    unfold incompatibleReport? at hr
    split at hr
    · obtain rfl := Option.some.inj hr
      exact ⟨_, _, _, _, _, rfl, by cases h.option <;> rfl⟩
    · cases hr

theorem exists_of_mem_scanHints {s : HintStates} {hs : List LoopHint} {r : Report}
    (h : r ∈ (scanHints s hs).1) : ∃ hint s', r ∈ hintReports s' hint := by
  induction hs generalizing s with
  | nil => exact absurd h List.not_mem_nil
  | cons hint hs ih =>
    obtain h | h := List.mem_append.mp h
    · exact ⟨hint, _, h⟩
    · exact ih h

def Report.isDuplicate (r : Report) : Bool :=
  r.id = .hintConflict ∧ r.args.head? = some (.flag true)

theorem isDuplicate_of_duplicateReport? {s : CategoryState} {h : LoopHint} {r : Report}
    (hr : duplicateReport? s h = some r) : r.isDuplicate = true := by
  unfold duplicateReport? at hr
  split at hr <;>
  · obtain ⟨_, _, rfl⟩ := Option.map_eq_some_iff.mp hr
    rfl

theorem isDuplicate_of_incompatibleReport? {s : CategoryState} {h : LoopHint} {r : Report}
    (hr : incompatibleReport? s h = some r) : r.isDuplicate = false := by
  unfold incompatibleReport? at hr
  split at hr
  · obtain rfl := Option.some.inj hr
    rfl
  · cases hr

theorem HintCategory.given_eq_nil_iff (o : HintOption) (hs : List LoopHint) :
    o.category.given o.optionClass hs = [] ↔ o ∉ hs.map (·.option) := by
  have hinj : ∀ o' : HintOption, (o'.category = o.category ∧ o'.optionClass = o.optionClass) ↔
      o' = o := by
    intro o'
    refine ⟨fun h => ?_, fun h => by rw [h]; exact ⟨rfl, rfl⟩⟩
    rw [← o'.option_category, h.1, h.2, o.option_category]
  simp [given, hinj]

theorem countP_hintReports (hs : List LoopHint) (h : LoopHint) :
    (hintReports (.told h.option.category hs) h).countP Report.isDuplicate =
      if h.option ∈ hs.map (·.option) then 1 else 0 := by
  have hdup := (CategoryState.duplicateReport?_told_eq_none_iff hs h).trans
    (HintCategory.given_eq_nil_iff h.option hs)
  have hinc : (incompatibleReport? ((CategoryState.told h.option.category hs).add h)
      h).toList.countP Report.isDuplicate = 0 := by
    rw [List.countP_eq_zero]
    intro r hr
    rw [isDuplicate_of_incompatibleReport? (Option.mem_toList.mp hr)]
    exact Bool.false_ne_true
  rw [hintReports, List.countP_append, hinc, Nat.add_zero]
  cases hd : duplicateReport? (.told h.option.category hs) h with
  | none => rw [if_neg (hdup.mp hd)]; rfl
  | some r =>
    have hm : h.option ∈ hs.map (·.option) := by
      by_contra hm
      exact nomatch hd.symm.trans (hdup.mpr hm)
    rw [if_pos hm, Option.toList_some, List.countP_singleton,
      if_pos (isDuplicate_of_duplicateReport? hd)]

theorem countP_scanHints_add_card (hs : List LoopHint) :
    (scanHints .initial hs).1.countP Report.isDuplicate + (hs.map (·.option)).toFinset.card =
      hs.length := by
  induction hs using List.reverseRecOn with
  | nil => rfl
  | append_singleton hs h ih =>
    have hset : ((hs ++ [h]).map (·.option)).toFinset =
        insert h.option (hs.map (·.option)).toFinset := by
      ext o
      simp
    rw [reports_scanHints, List.countP_append, countP_hintReports, hset, List.length_append,
      List.length_singleton]
    split_ifs with hm
    · rw [Finset.insert_eq_of_mem (List.mem_toFinset.mpr hm)]
      omega
    · rw [Finset.card_insert_of_notMem fun hm' => hm (List.mem_toFinset.mp hm')]
      omega

/-- Whether hints are reported, and how many as given twice, does not depend on their order. -/
theorem conflicts_perm (attrs : List Attr) :
    (conflicts attrs = [] ↔ ∀ c : HintCategory, c.Agrees (Attr.hints attrs)) ∧
      ∀ attrs' : List Attr, attrs'.Perm attrs →
        (conflicts attrs' = [] ↔ conflicts attrs = []) ∧
        (conflicts attrs').countP Report.isDuplicate =
          (conflicts attrs).countP Report.isDuplicate := by
  refine ⟨conflicts_eq_nil_iff attrs, fun attrs' hp => ⟨?_, ?_⟩⟩
  · have hh : (Attr.hints attrs').Perm (Attr.hints attrs) := hp.filterMap _
    rw [conflicts_eq_nil_iff, conflicts_eq_nil_iff]
    exact forall_congr' fun c => ⟨fun h => h.perm hh, fun h => h.perm hh.symm⟩
  · have hh : (Attr.hints attrs').Perm (Attr.hints attrs) := hp.filterMap _
    have hset : ((Attr.hints attrs').map (·.option)).toFinset =
        ((Attr.hints attrs).map (·.option)).toFinset :=
      List.toFinset_eq_of_perm _ _ (hh.map _)
    have h' := countP_scanHints_add_card (Attr.hints attrs')
    have h := countP_scanHints_add_card (Attr.hints attrs)
    rw [hset, hh.length_eq] at h'
    exact Nat.add_right_cancel (h'.trans h.symm)

theorem conflicts_perm_reversed :
    let on : Attr := .hint ⟨.vectorize, 1, .unknown⟩
    let off : Attr := .hint ⟨.vectorize, 0, .unknown⟩
    let width : Attr := .hint ⟨.vectorizeWidth, 4, .unknown⟩
    [width, on, off].Perm [off, on, width] ∧
      (conflicts [width, on, off] = [] ↔ conflicts [off, on, width] = []) ∧
      (conflicts [width, on, off]).countP Report.isDuplicate =
        (conflicts [off, on, width]).countP Report.isDuplicate := by
  intro on off width
  have hp : [width, on, off].Perm [off, on, width] := by decide
  exact ⟨hp, (conflicts_perm [off, on, width]).2 _ hp⟩

end AttrCheck
