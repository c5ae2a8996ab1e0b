import AttrCheck.Proofs.Attachment
import AttrCheck.Proofs.Removal

/-! Marks of an intended fallthrough. Whether one stays is decided by its statement and by the open
`switch` statements when its turn has come, and these are the ones around it in the source. -/

namespace AttrCheck

namespace Stmt

def InSwitchOf (s t : Stmt) : Prop := ∃ c body l, switch c body l ∈ t.preorder ∧ s ∈ body.preorder

theorem inSwitch_inside {st : Setting} (s : Stmt) (h : st.inSwitch = true) :
    (st.inside s).inSwitch = true := by
  cases s with
  | switch => rfl
  | _ => exact h

theorem exists_setting_of_mem {ss : List Stmt} {t : Stmt} (ht : t ∈ ss) (st : Setting) :
    ∃ st', st'.inSwitch = st.inSwitch ∧ t.sites st' ⊆ sitesAll st ss ∧
      t.resolved st' ∈ resolvedAll st ss := by
  induction ss generalizing st with
  | nil => cases ht
  | cons s ss ih =>
    rw [sitesAll, resolvedAll]
    obtain rfl | ht := List.mem_cons.mp ht
    · exact ⟨st, rfl, List.subset_append_left _ _, .head _⟩
    · obtain ⟨st', hst, hsites, hresolved⟩ := ih ht (st.after s)
      exact ⟨st', hst, List.Subset.trans hsites (List.subset_append_right _ _),
        .tail _ hresolved⟩

theorem exists_setting {s t : Stmt} (ht : t ∈ s.preorder) (st : Setting) :
    ∃ st', (st.inSwitch = true → st'.inSwitch = true) ∧ t.sites st' ⊆ s.sites st ∧
      (t.resolved st').postorder ⊆ (s.resolved st).postorder := by
  induction s using childInduction generalizing st with
  | h s ih =>
    rw [preorder_eq] at ht
    obtain rfl | ht := List.mem_cons.mp ht
    · exact ⟨st, id, List.Subset.refl _, List.Subset.refl _⟩
    obtain ⟨c, hc, hct⟩ := List.mem_flatMap.mp ht
    cases ha : s.annotation? with
    | none =>
      obtain ⟨st₁, hin, hsites, hresolved⟩ := exists_setting_of_mem hc (st.inside s)
      obtain ⟨st₂, hin', hsites', hpost⟩ := ih c hc hct st₁
      rw [sites_eq st ha, postorder_eq (s.resolved st), children_resolved st ha]
      refine ⟨st₂, fun h => hin' (hin.trans (inSwitch_inside s h)),
        List.Subset.trans hsites' hsites, ?_⟩
      intro r hr
      exact List.mem_append_left _ (List.mem_flatMap_of_mem hresolved (hpost hr))
    | some p =>
      obtain ⟨sub, l, rfl⟩ := annotation?_eq_some_iff.mp ha
      obtain rfl := List.mem_singleton.mp hc
      obtain ⟨st', hin, hsites, hpost⟩ := ih c hc hct st
      rw [sites, resolved, postorder_withAttrs]
      exact ⟨st', hin, List.Subset.trans hsites (List.subset_append_left _ _),
        List.Subset.trans hpost (List.subset_append_left _ _)⟩

theorem exists_annotated_of_site {s : Stmt} {st : Setting} {site : Site}
    (h : site ∈ s.sites st) : ∃ sub l, annotated site.attrs sub site.specifiers l ∈ s.preorder := by
  have hm : site.annotation ∈ s.postorder.filterMap annotation? := by
    rw [← map_sites s st]
    exact List.mem_map_of_mem h
  obtain ⟨t, ht, he⟩ := List.mem_filterMap.mp hm
  obtain ⟨sub, l, rfl⟩ := annotation?_eq_some_iff.mp he
  exact ⟨sub, l, s.postorder_perm_preorder.mem_iff.mp ht⟩

theorem exists_of_mem_sitesAll {ss : List Stmt} {st : Setting} {site : Site}
    (h : site ∈ sitesAll st ss) :
    ∃ t ∈ ss, ∃ st', st'.inSwitch = st.inSwitch ∧ site ∈ t.sites st' := by
  induction ss generalizing st with
  | nil => cases h
  | cons s ss ih =>
    rw [sitesAll, List.mem_append] at h
    obtain h | h := h
    · exact ⟨s, .head _, st, rfl, h⟩
    · obtain ⟨t, ht, st', hst, h⟩ := ih h
      exact ⟨t, .tail _ ht, st', hst, h⟩

theorem exists_switch_of_site {s : Stmt} {st : Setting} {site : Site} (h : site ∈ s.sites st)
    (hin : site.setting.inSwitch = true) : st.inSwitch = true ∨
      ∃ sub l, (annotated site.attrs sub site.specifiers l).InSwitchOf s := by
  induction s using childInduction generalizing st with
  | h s ih =>
    have hinner {c : Stmt} (hc : c ∈ s.children) (hsub : ∃ sub l,
        (annotated site.attrs sub site.specifiers l).InSwitchOf c) :
        ∃ sub l, (annotated site.attrs sub site.specifiers l).InSwitchOf s := by
      obtain ⟨sub, l, e, body, l', hswitch, hbody⟩ := hsub
      exact ⟨sub, l, e, body, l', mem_preorder_of_child hc hswitch, hbody⟩
    cases ha : s.annotation? with
    | none =>
      rw [sites_eq st ha] at h
      obtain ⟨c, hc, st', hst, hsite⟩ := exists_of_mem_sitesAll h
      obtain hopen | hsub := ih c hc hsite
      · rw [hst] at hopen
        cases s with
        | switch e body l =>
          obtain rfl := List.mem_singleton.mp hc
          obtain ⟨sub, l', hmem⟩ := exists_annotated_of_site hsite
          exact .inr ⟨sub, l', e, c, l, mem_preorder_self _, hmem⟩
        | _ => exact .inl hopen
      · exact .inr (hinner hc hsub)
    | some p =>
      obtain ⟨sub, l, rfl⟩ := annotation?_eq_some_iff.mp ha
      rw [sites, List.mem_append, List.mem_singleton] at h
      obtain h | rfl := h
      · obtain hopen | hsub := ih sub (.head _) h
        · exact .inl hopen
        · exact .inr (hinner (.head _) hsub)
      · exact .inl hin

end Stmt

namespace Site

def rejection (s : Site) (a : RawAttr) : Option Report :=
  (s.verdict (a.bound s.setting.scopes)).rejection?.map fun why =>
    why.report s.target (a.bound s.setting.scopes) s.specifiers

theorem rejections_eq (s : Site) : s.rejections = s.attrs.filterMap s.rejection := by
  rw [rejections, bound, List.filterMap_map]
  rfl

def hintOf (s : Site) (a : RawAttr) : Option LoopHint :=
  (s.verdict (a.bound s.setting.scopes)).kept?.bind Attr.hint?

theorem hints_kept (s : Site) : Attr.hints s.kept = s.attrs.filterMap s.hintOf := by
  rw [Attr.hints, kept, bound, List.filterMap_map, List.filterMap_filterMap]
  rfl

theorem hintOf_fallthrough (s : Site) {a : RawAttr} (hk : a.kind = .fallthrough) :
    s.hintOf a = none := by
  unfold hintOf
  cases hv : s.verdict (a.bound s.setting.scopes) with
  | keep b =>
    have hb := (s.verdict_eq_keep hv).1
    cases b with
    | fallthrough r => rfl
    | hint h => cases hb.trans hk
  | reject | malformed => rfl

theorem reports_without (s : Site) {before behind : List RawAttr} {a : RawAttr}
    (hk : a.kind = .fallthrough) (h : s.attrs = before ++ a :: behind) :
    ∃ rs rs', s.reports = rs ++ (s.rejection a).toList ++ rs' ∧
      reports { s with attrs := before ++ behind } = rs ++ rs' := by
  have hhints : Attr.hints s.kept = Attr.hints (kept { s with attrs := before ++ behind }) := by
    have hnone := List.filterMap_cons_none (l := behind) (s.hintOf_fallthrough hk)
    rw [hints_kept, hints_kept, h, List.filterMap_append, List.filterMap_append, hnone]
    rfl
  refine ⟨before.filterMap s.rejection, behind.filterMap s.rejection ++ conflicts s.kept, ?_, ?_⟩
  · rw [reports, rejections_eq, h, List.filterMap_append]
    cases hr : s.rejection a with
    | none => simp [List.filterMap_cons_none hr]
    | some r => simp [List.filterMap_cons_some hr]
  · have hconflicts : conflicts (kept { s with attrs := before ++ behind }) = conflicts s.kept := by
      rw [conflicts, conflicts, hhints]
    rw [reports, rejections_eq, hconflicts, List.filterMap_append, List.append_assoc]
    rfl

end Site

namespace SourceUnit

variable {u : SourceUnit}

theorem mem_stmts {f : AttrCheck.Function} {s : Stmt} (hf : f ∈ u.functions)
    (hs : s ∈ f.body.preorder) : s ∈ u.stmts :=
  List.mem_flatMap_of_mem hf (f.body.postorder_perm_preorder.mem_iff.mpr hs)

section Annotated

variable (h : u.AsRead) {f : AttrCheck.Function} (hf : f ∈ u.functions) (hflat : f.body.Flat)
  {attrs : List RawAttr} {sub : Stmt} {range : Range} {l : Loc}
  (hs : .annotated attrs sub range l ∈ f.body.preorder) {a : RawAttr} (ha : a ∈ attrs)
include h hf hflat hs ha

theorem AsRead.exists_site (strict : Bool) :
    ∃ st, ⟨attrs, range, sub.target, st⟩ ∈ u.sites strict ∧
      (st.inSwitch = true ↔ (Stmt.annotated attrs sub range l).InSwitchOf f.body) ∧
      ∃ st', ((sub.resolved st').withAttrs (Site.kept ⟨attrs, range, sub.target, st⟩)
        range).postorder ⊆ (u.resolved strict).stmts := by
  have hsub : ∀ st, (sub.resolved st).target = sub.target :=
    fun st => Stmt.target_resolved (hflat attrs sub range l hs) st
  have hsites {st : Setting} {t : Stmt} (hsub : t.sites st ⊆ f.sites strict u.scopes) :
      t.sites st ⊆ u.sites strict := fun s hs => List.mem_flatMap_of_mem hf (hsub hs)
  obtain ⟨st, _, hst, hpost⟩ := Stmt.exists_setting hs (f.setting strict u.scopes)
  have hsite : ⟨attrs, range, sub.target, st.after sub⟩ ∈ u.sites strict := by
    refine hsites hst ?_
    rw [Stmt.sites, hsub]
    exact List.mem_append_right _ (.head _)
  refine ⟨st.after sub, hsite, ⟨fun hin => ?_, ?_⟩, st, ?_⟩
  · have hsite' : ⟨attrs, range, sub.target, st.after sub⟩ ∈ f.sites strict u.scopes := by
      refine hst ?_
      rw [Stmt.sites, hsub]
      exact List.mem_append_right _ (.head _)
    obtain hopen | ⟨sub', l', e, body, l'', hswitch, hbody⟩ :=
      Stmt.exists_switch_of_site hsite' hin
    · cases hopen
    · -- What is known to be in the `switch` is a statement with the same attributes.
      have hmem := Stmt.mem_preorder_trans hswitch (Stmt.mem_preorder_of_child (.head _) hbody)
      have heq := h.stmt_eq (mem_stmts hf hs) (mem_stmts hf hmem) ha ha rfl
      exact ⟨e, body, l'', hswitch, heq ▸ hbody⟩
  · rintro ⟨e, body, l', hswitch, hbody⟩
    obtain ⟨st₁, _, hst₁, _⟩ := Stmt.exists_setting hswitch (f.setting strict u.scopes)
    obtain ⟨st₂, hin, hst₂, _⟩ := Stmt.exists_setting hbody st₁.enterSwitch
    have hsite' : ⟨attrs, range, sub.target, st₂.after sub⟩ ∈ u.sites strict := by
      refine hsites hst₁ (hst₂ ?_)
      rw [Stmt.sites, hsub]
      exact List.mem_append_right _ (.head _)
    obtain ⟨heq, _⟩ := h.site_eq strict hsite hsite' ha ha rfl
    injection heq with _ _ _ heq
    rw [heq]
    exact hin rfl
  · intro t ht
    rw [Stmt.resolved, hsub] at hpost
    have hfun := List.mem_map_of_mem (f := Function.resolved strict u.scopes) hf
    exact List.mem_flatMap_of_mem hfun (hpost ht)

end Annotated

def without (u : SourceUnit) (l : Loc) : SourceUnit :=
  u.mapWritten fun attrs => attrs.filter fun a => a.loc ≠ l

theorem AsRead.diagnostics_without (h : u.AsRead) (hflat : ∀ f ∈ u.functions, f.body.Flat)
    (config : Config) {s : Site} (hs : s ∈ u.sites config.strictLoopOptions) {a : RawAttr}
    (ha : a ∈ s.attrs) (hk : a.kind = .fallthrough) :
    ∃ ds ds', (u.checked config).diagnostics =
        ds ++ ((s.rejection a).bind config.engine.diagnose?).toList ++ ds' ∧
      ((u.without a.loc).checked config).diagnostics = ds ++ ds' := by
  obtain ⟨sites, sites', hsites⟩ := List.append_of_mem hs
  obtain ⟨attrs, attrs', hattrs⟩ := List.append_of_mem ha
  -- No other attribute, here or elsewhere, is written in the same place.
  have hplaced := h.placed
  rw [← u.flatMap_attrs config.strictLoopOptions, hsites, List.flatMap_append, List.flatMap_cons,
    hattrs, List.append_assoc, List.cons_append, ← List.append_assoc] at hplaced
  obtain ⟨_, hbehind, hbefore⟩ := List.pairwise_append.mp hplaced
  have hother : ∀ b ∈ sites.flatMap Site.attrs ++ attrs ++ (attrs' ++ sites'.flatMap Site.attrs),
      b.loc ≠ a.loc := by
    intro b hb
    obtain hb | hb := List.mem_append.mp hb
    · exact hbefore b hb a (.head _)
    · exact (List.rel_of_pairwise_cons hbehind hb).symm
  have hkeep {as : List RawAttr} (has : ∀ b ∈ as, b.loc ≠ a.loc) :
      as.filter (fun b => decide (b.loc ≠ a.loc)) = as :=
    List.filter_eq_self.mpr fun b hb => decide_eq_true (has b hb)
  have hsame {ss : List Site} (hss : ∀ b ∈ ss.flatMap Site.attrs, b.loc ≠ a.loc) :
      ss.map (Site.mapWritten fun as => as.filter fun b => b.loc ≠ a.loc) = ss := by
    refine (List.map_congr_left fun s hs => ?_).trans ss.map_id
    rw [Site.mapWritten, hkeep fun b hb => hss b (List.mem_flatMap_of_mem hs hb)]
    rfl
  have hattrs' : s.attrs.filter (fun b => decide (b.loc ≠ a.loc)) = attrs ++ attrs' := by
    rw [hattrs, List.filter_append, List.filter_cons_of_neg (by simp),
      hkeep fun b hb => hother b (by simp [hb]), hkeep fun b hb => hother b (by simp [hb])]
  have hwithout : (u.without a.loc).sites config.strictLoopOptions =
      sites ++ { s with attrs := attrs ++ attrs' } :: sites' := by
    rw [without, sites_mapWritten _ hflat, hsites, List.map_append, List.map_cons,
      hsame fun b hb => hother b (List.mem_append_left _ (List.mem_append_left _ hb)),
      hsame fun b hb => hother b (List.mem_append_right _ (List.mem_append_right _ hb)),
      Site.mapWritten, hattrs']
  obtain ⟨rs, rs', hreports, hreports'⟩ := s.reports_without hk hattrs
  have hrecorded (v : SourceUnit) : (v.checked config).diagnostics =
      ((v.sites config.strictLoopOptions).flatMap Site.reports).filterMap
        config.engine.diagnose? := by
    show (config.engine.reportAll _).recorded = _
    rw [Engine.recorded_reportAll]
    rfl
  refine ⟨(sites.flatMap Site.reports ++ rs).filterMap config.engine.diagnose?,
    (rs' ++ sites'.flatMap Site.reports).filterMap config.engine.diagnose?, ?_, ?_⟩
  · have hown : ((s.rejection a).bind config.engine.diagnose?).toList =
        (s.rejection a).toList.filterMap config.engine.diagnose? := by
      cases s.rejection a with
      | none => rfl
      | some r =>
        rw [Option.bind_some, Option.toList_some, List.filterMap_cons]
        cases config.engine.diagnose? r <;> rfl
    rw [hrecorded, hsites, List.flatMap_append, List.flatMap_cons, hreports, hown]
    simp only [List.filterMap_append, List.append_assoc]
  · rw [hrecorded, hwithout, List.flatMap_append, List.flatMap_cons, hreports']
    simp only [List.filterMap_append, List.append_assoc]

end SourceUnit

/-- A mark of a fallthrough stays just where it stands on an empty statement in the body of a
`switch` of its function. It costs the check one error of its own where it does not stay and nothing
where it does; the error has a note just on a label, and the note adds a semicolon behind the
specifiers. -/
theorem fallthrough_check {file text : String} {u : SourceUnit} (h : parse file text = .ok u)
    (config : Config) {f : Function} (hf : f ∈ u.functions) {attrs : List RawAttr} {sub : Stmt}
    {range : Range} {l : Loc} (hs : .annotated attrs sub range l ∈ f.body.preorder) {a : RawAttr}
    (ha : a ∈ attrs) (hk : a.kind = .fallthrough) :
    ∃ result rest before own behind, checkSource config file text = .ok result ∧
      (u.without a.loc).check config = .ok rest ∧
      result.diagnostics = before ++ own ++ behind ∧ rest.diagnostics = before ++ behind ∧
      ((∃ kept l', .attributed kept sub range l' ∈ result.unit.stmts ∧
          .fallthrough a.range ∈ kept) ↔
        sub.kind = .null ∧ (Stmt.annotated attrs sub range l).InSwitchOf f.body) ∧
      (sub.kind ≠ .null → own = [⟨.fallthroughTarget, .error, a.loc, [], [Range.point sub.loc],
        if sub.isSwitchLabel then [semicolonNote range.stop] else []⟩]) ∧
      (sub.kind = .null → ¬ (Stmt.annotated attrs sub range l).InSwitchOf f.body →
        own = [⟨.fallthroughOutsideSwitch, .error, a.loc, [], [], []⟩]) ∧
      (sub.kind = .null → (Stmt.annotated attrs sub range l).InSwitchOf f.body → own = []) := by
  have hread := SourceUnit.asRead_of_parse h
  have hflat := flat_of_parse h
  obtain ⟨st, hsite, hin, st', hpost⟩ :=
    hread.exists_site hf (hflat f hf) hs ha config.strictLoopOptions
  obtain ⟨before, behind, hdiags, hrest⟩ := hread.diagnostics_without hflat config hsite ha hk
  have hnames := SourceUnit.namesOptions_mapWritten
    (fun as => as.filter fun b => b.loc ≠ a.loc) (fun as => List.filter_sublist.subset)
    hread.namesOptions
  have hkb : (a.bound st.scopes).kind = .fallthrough := hk
  have hverdict : Site.verdict ⟨attrs, range, sub.target, st⟩ (a.bound st.scopes) =
      if sub.kind ≠ .null then .reject .notEmpty
      else if st.inSwitch then .keep (.fallthrough a.range) else .reject .outsideSwitch := by
    rw [Site.verdict, RawAttr.verdict, hkb]
    rfl
  refine ⟨_, _, before, _, behind, checkSource_eq h config,
    SourceUnit.check_eq _ hnames config, hdiags, hrest, ?_, ?_, ?_, ?_⟩
  · rw [← hin]
    constructor
    · rintro ⟨kept, l', ht, hkept⟩
      have hkeep := hread.keep_of_attributed hsite ha ht hkept rfl
      change Site.verdict ⟨attrs, range, sub.target, st⟩ (a.bound st.scopes) = _ at hkeep
      rw [hverdict] at hkeep
      split_ifs at hkeep with hnull hopen
      exact ⟨not_not.mp hnull, hopen⟩
    · rintro ⟨hnull, hopen⟩
      obtain ⟨l', rfl⟩ : ∃ l', sub = .null l' := by
        cases sub <;> first | exact ⟨_, rfl⟩ | cases hnull
      have hkept : .fallthrough a.range ∈
          Site.kept ⟨attrs, range, (Stmt.null l').target, st⟩ := by
        refine (Site.mem_kept_iff _).mpr ⟨a, ha, ?_⟩
        change Site.verdict ⟨attrs, range, (Stmt.null l').target, st⟩ (a.bound st.scopes) = _
        rw [hverdict, if_neg (not_not.mpr hnull), if_pos hopen]
      refine ⟨_, range.start, hpost ?_, hkept⟩
      rw [Stmt.postorder_withAttrs, if_neg (by simpa using List.ne_nil_of_mem hkept)]
      exact List.mem_append_right _ (.head _)
  all_goals rw [Site.rejection, hverdict]
  · intro hnull
    rw [if_pos hnull]
    rfl
  · intro hnull hout
    rw [if_neg (not_not.mpr hnull), if_neg fun hopen => hout (hin.mp hopen)]
    rfl
  · intro hnull hinside
    rw [if_neg (not_not.mpr hnull), if_pos (hin.mpr hinside)]
    rfl

theorem fallthrough_check_label : ∃ u f attrs sub range l a,
    parse "a.cc" "void f(int n) { switch (n) { case 1: [[fallthrough]] case 2: ; } }" = .ok u ∧
      f ∈ u.functions ∧ .annotated attrs sub range l ∈ f.body.preorder ∧ a ∈ attrs ∧
      a.kind = .fallthrough ∧ ∃ result rest before own behind,
        checkSource {} "a.cc"
          "void f(int n) { switch (n) { case 1: [[fallthrough]] case 2: ; } }" = .ok result ∧
        (u.without a.loc).check {} = .ok rest ∧
        result.diagnostics = before ++ own ++ behind ∧ rest.diagnostics = before ++ behind ∧
        own = [⟨.fallthroughTarget, .error, a.loc, [], [Range.point sub.loc],
          [semicolonNote range.stop]⟩] := by
  have hread : ∃ u ∈ (parse "a.cc"
      "void f(int n) { switch (n) { case 1: [[fallthrough]] case 2: ; } }").toOption,
      ∃ f ∈ u.functions, ∃ s ∈ f.body.preorder, ∃ a ∈ s.written, a.kind = .fallthrough ∧
        ∃ t ∈ s.children, t.isSwitchLabel = true := by
    decide +kernel
  obtain ⟨u, hu, f, hf, s, hs, a, ha, hk, t, ht, hlabel⟩ := hread
  have hp := ok_of_mem_toOption hu
  cases s with
  | annotated attrs sub range l =>
    obtain rfl := List.mem_singleton.mp ht
    obtain ⟨result, rest, before, own, behind, hresult, hrest, hds, hds', _, htarget, _⟩ :=
      fallthrough_check hp {} hf hs ha hk
    have hown := htarget fun hnull => by simp [Stmt.isSwitchLabel, hnull, StmtKind.isSwitchLabel]
      at hlabel
    rw [if_pos hlabel] at hown
    exact ⟨u, f, attrs, t, range, l, a, hp, hf, hs, ha, hk, result, rest, before, own, behind,
      hresult, hrest, hds, hds', hown⟩
  | _ => cases ha

end AttrCheck
