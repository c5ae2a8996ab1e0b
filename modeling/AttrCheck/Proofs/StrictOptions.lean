import AttrCheck.Proofs.Attachment
import AttrCheck.Proofs.Removal
import AttrCheck.Proofs.ResultOrder

/-! Checks that refuse loop options outside the table, beside those that read them as the fallback.
The two go through the same sites and differ in the verdicts on the hints with such options. What
that changes in conflicts follows from the hints that stay. -/

namespace AttrCheck

def optionReport (name : String) (loc : Loc) : Report := ⟨.hintOption, loc, [.text name], [], []⟩

namespace RawAttr

def unlisted? (a : RawAttr) : Option (String × Loc) :=
  match a.kind, a.ident? 0 with
  | .loopHint, some ⟨loc, some name⟩ =>
    if (HintOption.ofText? name).isNone then some (name, loc) else none
  | _, _ => none

theorem unlisted?_bound (scopes : Scopes) (a : RawAttr) :
    (a.bound scopes).unlisted? = a.unlisted? := by
  rw [unlisted?, ident?_bound]
  rfl

variable {a : RawAttr} {t : Target} {inSwitch : Bool} {name : String} {loc : Loc}

theorem unlisted?_eq_some (h : a.unlisted? = some (name, loc)) :
    a.kind = .loopHint ∧ a.ident? 0 = some ⟨loc, some name⟩ ∧ HintOption.ofText? name = none := by
  unfold unlisted? at h
  split at h
  next hk hi =>
    split_ifs at h with hnone
    obtain ⟨rfl, rfl⟩ := Prod.mk.inj (Option.some.inj h)
    exact ⟨hk, hi, Option.isNone_iff_eq_none.mp hnone⟩
  · cases h

theorem resolve?_of_listed (h : a.unlisted? = none) (hk : a.kind = .loopHint)
    (hi : a.ident? 0 = some ⟨loc, some name⟩) :
    ∃ option, HintOption.ofText? name = some option ∧
      ∀ strict, HintOption.resolve? strict name = some option := by
  have hsome : HintOption.ofText? name ≠ none := by
    intro hnone
    simp [unlisted?, hk, hi, hnone] at h
  obtain ⟨option, hoption⟩ := Option.ne_none_iff_exists'.mp hsome
  exact ⟨option, hoption, fun strict => by rw [HintOption.resolve?, hoption]⟩

theorem readHint_of_listed (h : a.unlisted? = none) (hk : a.kind = .loopHint) (strict : Bool) :
    a.readHint strict = a.readHint false := by
  unfold readHint
  split
  next loc name hi =>
    obtain ⟨option, _, hresolve⟩ := resolve?_of_listed h hk hi
    rw [hresolve, hresolve]
  · rfl

theorem verdict_of_listed (h : a.unlisted? = none) (strict : Bool) :
    a.verdict t inSwitch strict = a.verdict t inSwitch false := by
  unfold verdict
  split
  · rfl
  · rfl
  next hk => rw [loopHintVerdict, loopHintVerdict, readHint_of_listed h hk]
  · rfl

theorem events_of_listed (h : a.unlisted? = none) (strict : Bool) :
    a.events t strict = a.events t false := by
  unfold events
  split
  · rfl
  next hk =>
    have hevents : a.hintEvents strict = a.hintEvents false := by
      unfold hintEvents
      split
      next loc name hi =>
        obtain ⟨option, hoption, _⟩ := resolve?_of_listed h hk hi
        rw [hoption]
      · rfl
    rw [hevents]
  · rfl

theorem verdict_of_unlisted (h : a.unlisted? = some (name, loc)) (ht : t.kind.isLoop) :
    a.verdict t inSwitch true = .reject (.badOption name loc) := by
  obtain ⟨hk, hi, hnone⟩ := unlisted?_eq_some h
  have hresolve : HintOption.resolve? true name = none := by
    rw [HintOption.resolve?, hnone]
    rfl
  simp only [verdict, hk, loopHintVerdict, ht, if_true, readHint, hi, hresolve]

theorem readHint_ne_badOption (a : RawAttr) : a.readHint false ≠ .reject (.badOption name loc) := by
  have hvalue (option : HintOption) (word : Ident) (value : Option Expr) :
      hintValue option word value ≠ .error (.badOption name loc) := by
    unfold hintValue
    cases option.optionClass with
    | boolean =>
      dsimp only
      split_ifs <;> nofun
    | numeric =>
      dsimp only
      split
      · split_ifs <;> nofun
      · nofun
  unfold readHint
  split
  next loc' name' _ =>
    have hresolve : HintOption.resolve? false name' ≠ none := by
      unfold HintOption.resolve?
      split <;> nofun
    split
    next hnone => exact absurd hnone hresolve
    next option _ =>
      split
      · nofun
      next why hwhy =>
        intro h
        obtain rfl := Verdict.reject.inj h
        exact hvalue _ _ _ hwhy
  · nofun

theorem verdict_ne_badOption (a : RawAttr) :
    a.verdict t inSwitch false ≠ .reject (.badOption name loc) := by
  unfold verdict
  split
  · nofun
  · unfold fallthroughVerdict
    split_ifs <;> nofun
  · unfold loopHintVerdict
    split_ifs
    · exact a.readHint_ne_badOption
    · nofun
  · nofun

theorem verdict_of_not_isLoop (h : a.unlisted? = some (name, loc)) (ht : t.kind.isLoop = false)
    (strict : Bool) : a.verdict t inSwitch strict = .reject .notALoop := by
  have hk := (unlisted?_eq_some h).1
  simp [verdict, hk, loopHintVerdict, ht]

end RawAttr

/-! The sites of both checks. -/

def Setting.withStrict (strict : Bool) (st : Setting) : Setting := { st with strict }

def Site.withStrict (strict : Bool) (s : Site) : Site :=
  { s with setting := s.setting.withStrict strict }

namespace Stmt

theorem sitesAll_withStrict (strict : Bool) {ss : List Stmt} (h : ∀ s ∈ ss, ∀ st : Setting,
    s.sites (st.withStrict strict) = (s.sites st).map (Site.withStrict strict)) (st : Setting) :
    sitesAll (st.withStrict strict) ss = (sitesAll st ss).map (Site.withStrict strict) := by
  induction ss generalizing st with
  | nil => rfl
  | cons s ss ih =>
    have hs := h s (.head _) st
    have hss := ih (fun t ht => h t (.tail _ ht)) (st.after s)
    rw [sitesAll, sitesAll, List.map_append, hs]
    exact congrArg _ hss

theorem sites_withStrict {s : Stmt} (hs : s.Flat) (strict : Bool) (st : Setting) :
    s.sites (st.withStrict strict) = (s.sites st).map (Site.withStrict strict) := by
  induction s using childInduction generalizing st with
  | h s ih =>
    cases ha : s.annotation? with
    | none =>
      have hinside : (st.withStrict strict).inside s = (st.inside s).withStrict strict := by
        cases s <;> rfl
      rw [sites_eq _ ha, sites_eq _ ha, hinside]
      exact sitesAll_withStrict strict (fun t ht => ih t ht (hs.of_mem ht)) _
    | some p =>
      obtain ⟨attrs, range⟩ := p
      obtain ⟨sub, l, rfl⟩ := annotation?_eq_some_iff.mp ha
      have hsub := ih sub (.head _) (hs.of_mem (.head _)) st
      -- What stands behind the specifiers is the statement as written, in either check.
      have htarget : (sub.resolved (st.withStrict strict)).target = (sub.resolved st).target := by
        rw [target_resolved hs.sub, target_resolved hs.sub]
      rw [sites, sites, hsub, htarget, List.map_append]
      rfl

end Stmt

namespace SourceUnit

variable {u : SourceUnit}

theorem sites_withStrict (h : ∀ f ∈ u.functions, f.body.Flat) (strict : Bool) :
    u.sites strict = (u.sites false).map (Site.withStrict strict) := by
  rw [sites, sites, List.map_flatMap]
  exact List.flatMap_congr fun f hf => Stmt.sites_withStrict (h f hf) strict
    (f.setting false u.scopes)

theorem strict_of_mem_sites (h : ∀ f ∈ u.functions, f.body.Flat) {strict : Bool} {s : Site}
    (hs : s ∈ u.sites strict) : s.setting.strict = strict := by
  rw [sites_withStrict h] at hs
  obtain ⟨s', _, rfl⟩ := List.mem_map.mp hs
  rfl

end SourceUnit

namespace Site

def rejection? (s : Site) (a : RawAttr) : Option Report :=
  (s.verdict a).rejection?.map fun why => why.report s.target a s.specifiers

/-- What the strict check reports on an attribute in place of that: where a loop hint with an
unlisted option is on a loop, the option and nothing else. -/
def strictRejection? (s : Site) (a : RawAttr) : Option Report :=
  match a.unlisted? with
  | some (name, loc) =>
    if s.target.kind.isLoop then some (optionReport name loc) else s.rejection? a
  | none => s.rejection? a

variable {s : Site}

theorem verdict_withStrict {a : RawAttr} (h : a.unlisted? = none) (hs : s.setting.strict = false)
    (strict : Bool) : (s.withStrict strict).verdict a = s.verdict a := by
  rw [verdict, verdict, hs]
  exact RawAttr.verdict_of_listed h strict

theorem verdict_of_unlisted {a : RawAttr} {name : String} {loc : Loc}
    (h : a.unlisted? = some (name, loc)) : (s.withStrict true).verdict a =
      .reject (if s.target.kind.isLoop then .badOption name loc else .notALoop) := by
  split_ifs with ht
  · exact RawAttr.verdict_of_unlisted h ht
  · exact RawAttr.verdict_of_not_isLoop h (eq_false_of_ne_true ht) true

theorem rejection?_withStrict (hs : s.setting.strict = false) (a : RawAttr) :
    (s.withStrict true).rejection? a = s.strictRejection? a := by
  unfold strictRejection?
  cases h : a.unlisted? with
  | none => rw [rejection?, verdict_withStrict h hs]; rfl
  | some p =>
    obtain ⟨name, loc⟩ := p
    rw [rejection?, verdict_of_unlisted h]
    split_ifs with ht
    · rfl
    · have hv : s.verdict a = .reject .notALoop :=
        RawAttr.verdict_of_not_isLoop h (eq_false_of_ne_true ht) s.setting.strict
      rw [rejection?, hv]
      rfl

theorem unlisted?_of_mem_bound {a : RawAttr} (h : a ∈ s.bound) :
    ∃ a' ∈ s.attrs, a = a'.bound s.setting.scopes ∧ a.unlisted? = a'.unlisted? := by
  obtain ⟨a', ha', rfl⟩ := List.mem_map.mp h
  exact ⟨a', ha', rfl, a'.unlisted?_bound s.setting.scopes⟩

theorem id_of_rejection? (hs : s.setting.strict = false) {a : RawAttr} {r : Report}
    (h : s.rejection? a = some r) : r.id ≠ .hintOption := by
  obtain ⟨why, hwhy, rfl⟩ := Option.map_eq_some_iff.mp h
  have hv := Verdict.rejection?_eq_some_iff.mp hwhy
  rw [verdict, hs] at hv
  cases why with
  | badOption name loc => exact absurd hv a.verdict_ne_badOption
  | unknownKind =>
    simp only [Rejection.report, RawAttr.unknownReport]
    split_ifs <;> decide
  | _ => simp [Rejection.report, RawAttr.declarationReport, RawAttr.notEmptyReport]

theorem option_of_attribute (hs : s.setting.strict = false) (e : Engine) (a : RawAttr) :
    ((s.strictRejection? a).bind e.diagnose?).filter (·.id = .hintOption) =
      if s.target.kind.isLoop then
        a.unlisted?.map fun p => (optionReport p.1 p.2).diagnostic
      else none := by
  have hlenient : ((s.rejection? a).bind e.diagnose?).filter (·.id = .hintOption) = none := by
    rw [Option.filter_eq_none_iff]
    intro d hd
    obtain ⟨r, hr, hd⟩ := Option.bind_eq_some_iff.mp hd
    simpa [Engine.id_of_diagnose? hd] using id_of_rejection? hs hr
  unfold strictRejection?
  cases a.unlisted? with
  | none => simpa using hlenient
  | some p =>
    obtain ⟨name, loc⟩ := p
    split_ifs with ht
    · rw [Option.bind_some, Engine.diagnose?_of_error rfl]
      rfl
    · simpa [ht] using hlenient

theorem options_reports (hs : s.setting.strict = false) (e : Engine) (attrs : List Attr) :
    ((s.bound.filterMap s.strictRejection? ++ conflicts attrs).filterMap e.diagnose?).filter
        (·.id = .hintOption) =
      (if s.target.kind.isLoop then s.attrs.filterMap RawAttr.unlisted? else []).map
        fun p => (optionReport p.1 p.2).diagnostic := by
  have hconflicts : ((conflicts attrs).filterMap e.diagnose?).filter (·.id = .hintOption) = [] := by
    rw [List.filter_eq_nil_iff]
    intro d hd
    obtain ⟨r, hr, hd⟩ := List.mem_filterMap.mp hd
    have hid : r.id = .hintConflict := id_of_mem_scanHints hr
    simp [Engine.id_of_diagnose? hd, hid]
  rw [List.filterMap_append, List.filter_append, hconflicts, List.append_nil,
    List.filterMap_filterMap, List.filter_filterMap, bound, List.filterMap_map]
  have hone : ∀ a : RawAttr, ((s.strictRejection? (a.bound s.setting.scopes)).bind
      e.diagnose?).filter (·.id = .hintOption) =
        if s.target.kind.isLoop then
          a.unlisted?.map fun p => (optionReport p.1 p.2).diagnostic
        else none := by
    intro a
    rw [option_of_attribute hs, RawAttr.unlisted?_bound]
  refine (List.filterMap_congr fun a _ => hone a).trans ?_
  split_ifs
  · exact List.map_filterMap.symm
  · exact List.filterMap_none s.attrs

section Listed

variable (h : ∀ a ∈ s.attrs, a.unlisted? = none) (hs : s.setting.strict = false) (strict : Bool)
include h

theorem listed_of_mem_bound {a : RawAttr} (ha : a ∈ s.bound) : a.unlisted? = none := by
  obtain ⟨a', ha', _, heq⟩ := unlisted?_of_mem_bound ha
  rw [heq, h a' ha']

include hs

theorem kept_of_listed : (s.withStrict strict).kept = s.kept :=
  List.filterMap_congr fun a ha => by
    rw [verdict_withStrict (listed_of_mem_bound h ha) hs]

theorem reports_of_listed : (s.withStrict strict).reports = s.reports := by
  have hrejections : (s.withStrict strict).rejections = s.rejections :=
    List.filterMap_congr fun a ha => by
      rw [verdict_withStrict (listed_of_mem_bound h ha) hs]
      rfl
  rw [reports, reports, hrejections, kept_of_listed h hs]

theorem events_of_listed : (s.withStrict strict).events = s.events := by
  rw [events, events, hs]
  exact List.flatMap_congr fun a ha =>
    RawAttr.events_of_listed (listed_of_mem_bound h ha) strict

end Listed

end Site

namespace Stmt

def Listed (s : Stmt) : Prop := ∀ t ∈ s.preorder, ∀ a ∈ t.written, a.unlisted? = none

theorem Listed.of_mem {s t : Stmt} (h : s.Listed) (ht : t ∈ s.children) : t.Listed := by
  intro u hu
  refine h u ?_
  rw [preorder_eq]
  exact .tail _ (List.mem_flatMap_of_mem ht hu)

theorem Listed.written {s : Stmt} (h : s.Listed) : ∀ a ∈ s.written, a.unlisted? = none :=
  h s (by rw [preorder_eq]; exact .head _)

theorem resolvedAll_withStrict (strict : Bool) {ss : List Stmt} (h : ∀ s ∈ ss, ∀ st : Setting,
    st.strict = false → s.resolved (st.withStrict strict) = s.resolved st) (st : Setting)
    (hst : st.strict = false) : resolvedAll (st.withStrict strict) ss = resolvedAll st ss := by
  induction ss generalizing st with
  | nil => rfl
  | cons s ss ih =>
    have hss := ih (fun t ht => h t (.tail _ ht)) (st.after s) hst
    rw [resolvedAll, resolvedAll, h s (.head _) st hst]
    exact congrArg _ hss

theorem Listed.resolved_withStrict {s : Stmt} (h : s.Listed) (strict : Bool) (st : Setting)
    (hst : st.strict = false) : s.resolved (st.withStrict strict) = s.resolved st := by
  induction s using childInduction generalizing st with
  | h s ih =>
    have hc : ∀ t ∈ s.children, ∀ st : Setting, st.strict = false →
        t.resolved (st.withStrict strict) = t.resolved st := fun t ht => ih t ht (h.of_mem ht)
    cases s with
    | null | expr | decl | ret | brk | cont => rfl
    | compound body l =>
      have hbody := resolvedAll_withStrict strict hc (st.enter []) hst
      exact congrArg (compound · l) hbody
    | ifElse c yes no l =>
      have hyes := hc yes (.head _) st hst
      cases no with
      | none => exact congrArg (ifElse c · none l) hyes
      | some no =>
        have hno := hc no (by simp [children]) (st.after yes) hst
        exact congrArg₂ (fun yes no => ifElse c yes (some no) l) hyes hno
    | switch c body l => exact congrArg (switch c · l) (hc body (.head _) st.enterSwitch hst)
    | forLoop init c step body l =>
      cases init with
      | none =>
        have hbody := hc body (by simp [children]) (st.enter []) hst
        exact congrArg (forLoop none c step · l) hbody
      | some init =>
        have hinit := hc init (by simp [children]) (st.enter []) hst
        have hbody := hc body (by simp [children]) ((st.enter []).after init) hst
        exact congrArg₂ (fun init body => forLoop (some init) c step body l) hinit hbody
    | rangeFor var range body typeName l =>
      have hbody := hc body (.head _) (st.enter [(var, .runtime)]) hst
      exact congrArg (rangeFor var range · typeName l) hbody
    | annotated attrs sub range l =>
      have hsub := hc sub (.head _) st hst
      have hkept := Site.kept_of_listed
        (s := ⟨attrs, range, (sub.resolved st).target, st.after sub⟩) h.written hst strict
      rw [resolved, resolved, hsub]
      exact congrArg (withAttrs _ · range) hkept
    | caseLabel value sub l =>
      exact congrArg (caseLabel value · l) (hc sub (.head _) st hst)
    | defaultLabel sub l => exact congrArg (defaultLabel · l) (hc sub (.head _) st hst)
    | whileLoop c body l => exact congrArg (whileLoop c · l) (hc body (.head _) st hst)
    | doWhile body c l => exact congrArg (doWhile · c l) (hc body (.head _) st hst)
    | attributed attrs sub range l =>
      exact congrArg (attributed attrs · range l) (hc sub (.head _) st hst)

def unlistedHints : Stmt → List (String × Loc)
  | annotated attrs sub _ _ => if sub.kind.isLoop then attrs.filterMap RawAttr.unlisted? else []
  | _ => []

theorem Flat.flatMap_sites {α : Type} {f : Site → List α} {g : Stmt → List α}
    (hf : ∀ attrs sub range l st,
      f ⟨attrs, range, sub.target, st⟩ = g (annotated attrs sub range l))
    (hg : ∀ s : Stmt, s.annotation? = none → g s = []) {s : Stmt} (hs : s.Flat) (st : Setting) :
    (s.sites st).flatMap f = s.postorder.flatMap g := by
  induction s using childInduction generalizing st with
  | h s ih =>
    rw [postorder_eq, List.flatMap_append, List.flatMap_assoc, List.flatMap_singleton]
    cases ha : s.annotation? with
    | none =>
      have hall : ∀ ss : List Stmt, (∀ t ∈ ss, t ∈ s.children) → ∀ st,
          (sitesAll st ss).flatMap f = ss.flatMap fun t => t.postorder.flatMap g := by
        intro ss hss
        induction ss with
        | nil => exact fun _ => rfl
        | cons t ts iht =>
          intro st
          have ht := hss t (.head _)
          rw [sitesAll, List.flatMap_append, ih t ht (hs.of_mem ht),
            iht (fun t' ht' => hss t' (.tail _ ht')), List.flatMap_cons]
      rw [sites_eq st ha, hall _ (fun _ ht => ht), hg s ha, List.append_nil]
    | some p =>
      obtain ⟨attrs, range⟩ := p
      obtain ⟨sub, l, rfl⟩ := annotation?_eq_some_iff.mp ha
      have hsub := ih sub (.head _) (hs.of_mem (.head _)) st
      rw [sites, List.flatMap_append, hsub, target_resolved hs.sub, List.flatMap_singleton,
        hf attrs sub range l]
      simp [children]

end Stmt

namespace SourceUnit

variable {u : SourceUnit} (hflat : ∀ f ∈ u.functions, f.body.Flat)
include hflat

theorem checked_of_listed (h : ∀ a ∈ u.stmts.flatMap Stmt.written, a.unlisted? = none)
    (config : Config) : u.checked { config with strictLoopOptions := true } =
      u.checked { config with strictLoopOptions := false } := by
  have hsite : ∀ s ∈ u.sites false, ∀ a ∈ s.attrs, a.unlisted? = none := by
    intro s hs a ha
    refine h a ?_
    rw [← u.flatMap_attrs false]
    exact List.mem_flatMap_of_mem hs ha
  have hsites {α : Type} {g : Site → List α} (hg : ∀ s ∈ u.sites false,
      g (s.withStrict true) = g s) : (u.sites true).flatMap g = (u.sites false).flatMap g := by
    rw [sites_withStrict hflat true, List.flatMap_map]
    exact List.flatMap_congr hg
  have hstrict : ∀ s ∈ u.sites false, s.setting.strict = false :=
    fun s hs => strict_of_mem_sites hflat hs
  have hkept := hsites fun s hs => Site.kept_of_listed (hsite s hs) (hstrict s hs) true
  have hreports := hsites fun s hs => Site.reports_of_listed (hsite s hs) (hstrict s hs) true
  have hevents := hsites fun s hs => Site.events_of_listed (hsite s hs) (hstrict s hs) true
  have hresolved : u.resolved true = u.resolved false := by
    have hbody : ∀ f ∈ u.functions, f.body.Listed := by
      intro f hf t ht a ha
      refine h a (List.mem_flatMap_of_mem (List.mem_flatMap_of_mem hf ?_) ha)
      exact f.body.postorder_perm_preorder.mem_iff.mpr ht
    have hfunctions : u.functions.map (Function.resolved true u.scopes) =
        u.functions.map (Function.resolved false u.scopes) := by
      refine List.map_congr_left fun f hf => ?_
      have hf := (hbody f hf).resolved_withStrict true (f.setting false u.scopes) rfl
      exact congrArg (fun body => { f with body }) hf
    rw [resolved, hfunctions, resolved]
  simp only [checked, hkept, hreports, hevents, hresolved]
  rfl

omit hflat in
def unlistedRanges (u : SourceUnit) : List Range :=
  (u.stmts.flatMap Stmt.written).filterMap fun a => a.unlisted?.map fun _ => a.range

omit hflat in
theorem AsRead.mem_unlistedRanges_iff (h : u.AsRead) {s : Site} (hs : s ∈ u.sites false)
    {a : RawAttr} (ha : a ∈ s.attrs) : a.range ∈ u.unlistedRanges ↔ a.unlisted?.isSome := by
  rw [unlistedRanges, ← u.flatMap_attrs false, List.mem_filterMap]
  constructor
  · rintro ⟨a', ha', hrange⟩
    obtain ⟨s', hs', ha'⟩ := List.mem_flatMap.mp ha'
    obtain ⟨p, hp, hrange⟩ := Option.map_eq_some_iff.mp hrange
    have hloc : a'.loc = a.loc := congrArg Range.start hrange
    obtain ⟨rfl, rfl⟩ := h.site_eq false hs' hs ha' ha hloc
    exact Option.isSome_iff_exists.mpr ⟨p, hp⟩
  · intro hsome
    obtain ⟨p, hp⟩ := Option.isSome_iff_exists.mp hsome
    exact ⟨a, List.mem_flatMap_of_mem hs ha, by rw [hp]; rfl⟩

theorem AsRead.kept_withStrict (h : u.AsRead) {s : Site} (hs : s ∈ u.sites false) :
    (s.withStrict true).kept = s.kept.filter (·.range ∉ u.unlistedRanges) := by
  have hstrict := strict_of_mem_sites hflat hs
  have hone : ∀ a ∈ s.bound, ((s.withStrict true).verdict a).kept? =
      (s.verdict a).kept?.filter (·.range ∉ u.unlistedRanges) := by
    intro a ha
    obtain ⟨a', ha', rfl, hunlisted⟩ := Site.unlisted?_of_mem_bound ha
    have hrange : ∀ b, (s.verdict (a'.bound s.setting.scopes)).kept? = some b →
        (b.range ∈ u.unlistedRanges ↔ a'.unlisted?.isSome) := by
      intro b hb
      rw [(s.verdict_eq_keep (Verdict.kept?_eq_some_iff.mp hb)).2]
      exact h.mem_unlistedRanges_iff hs ha'
    cases hp : a'.unlisted? with
    | none =>
      rw [Site.verdict_withStrict (hunlisted.trans hp) hstrict]
      cases hb : (s.verdict (a'.bound s.setting.scopes)).kept? with
      | none => rfl
      | some b => simp [Option.filter, hrange b hb, hp]
    | some p =>
      rw [Site.verdict_of_unlisted (hunlisted.trans hp), Verdict.kept?]
      cases hb : (s.verdict (a'.bound s.setting.scopes)).kept? with
      | none => rfl
      | some b => simp [Option.filter, hrange b hb, hp]
  show s.bound.filterMap _ = (s.bound.filterMap _).filter _
  rw [List.filter_filterMap]
  exact List.filterMap_congr hone

/-- What both checks report, site by site. -/
theorem AsRead.diagnostics_withStrict (h : u.AsRead) (config : Config) :
    (u.checked { config with strictLoopOptions := true }).diagnostics =
      (u.sites false).flatMap fun s => (s.bound.filterMap s.strictRejection? ++
        conflicts (s.kept.filter (·.range ∉ u.unlistedRanges))).filterMap
          config.engine.diagnose? := by
  rw [diagnostics_checked]
  show (u.sites true).flatMap _ = _
  rw [sites_withStrict hflat true, List.flatMap_map]
  refine List.flatMap_congr fun s hs => ?_
  have hrejections : (s.withStrict true).rejections = s.bound.filterMap s.strictRejection? :=
    List.filterMap_congr fun a _ => Site.rejection?_withStrict (strict_of_mem_sites hflat hs) a
  rw [Site.reports, hrejections, h.kept_withStrict hflat hs]
  rfl

theorem AsRead.attributes_withStrict (h : u.AsRead) (config : Config) :
    (u.checked { config with strictLoopOptions := true }).attributes =
      (u.checked { config with strictLoopOptions := false }).attributes.filter
        (·.range ∉ u.unlistedRanges) := by
  show (u.sites true).flatMap Site.kept = ((u.sites false).flatMap Site.kept).filter _
  rw [sites_withStrict hflat true, List.flatMap_map, List.filter_flatMap]
  exact List.flatMap_congr fun s hs => h.kept_withStrict hflat hs

theorem AsRead.options_withStrict (h : u.AsRead) (config : Config) :
    (u.checked { config with strictLoopOptions := true }).diagnostics.filter
        (·.id = .hintOption) =
      (u.stmts.flatMap Stmt.unlistedHints).map fun p => (optionReport p.1 p.2).diagnostic := by
  have hstmts : (u.sites false).flatMap (fun s =>
      if s.target.kind.isLoop then s.attrs.filterMap RawAttr.unlisted? else []) =
        u.stmts.flatMap Stmt.unlistedHints := by
    rw [sites, stmts, List.flatMap_assoc, List.flatMap_assoc]
    refine List.flatMap_congr fun f hf => (hflat f hf).flatMap_sites (fun _ _ _ _ _ => rfl) ?_ _
    intro s hs
    cases s with
    | annotated => cases hs
    | _ => rfl
  rw [h.diagnostics_withStrict hflat, List.filter_flatMap, ← hstmts, List.map_flatMap]
  exact List.flatMap_congr fun s hs =>
    Site.options_reports (strict_of_mem_sites hflat hs) config.engine _

end SourceUnit

/-- Refusing options outside the table, instead of reading them as the fallback, changes nothing
where all options are in the table. In general it takes the attributes that come from other options
away from those that stay. Each other option on a loop is reported once, in place of what was wrong
with its value, and the conflicts are those of the hints that are left. -/
theorem strict_check {file text : String} {u : SourceUnit} (h : parse file text = .ok u)
    (config : Config) :
    let lenient := { config with strictLoopOptions := false }
    let strict := { config with strictLoopOptions := true }
    ∃ result result', checkSource lenient file text = .ok result ∧
      checkSource strict file text = .ok result' ∧
      ((∀ a ∈ u.stmts.flatMap Stmt.written, a.unlisted? = none) → result' = result) ∧
      result'.attributes = result.attributes.filter (·.range ∉ u.unlistedRanges) ∧
      result'.diagnostics.filter (·.id = .hintOption) =
        ((u.stmts.flatMap Stmt.unlistedHints).map fun p => (optionReport p.1 p.2).diagnostic) ∧
      result.diagnostics = ((u.sites false).flatMap fun s =>
        (s.bound.filterMap s.rejection? ++ conflicts s.kept).filterMap config.engine.diagnose?) ∧
      result'.diagnostics = (u.sites false).flatMap fun s =>
        (s.bound.filterMap s.strictRejection? ++
          conflicts (s.kept.filter (·.range ∉ u.unlistedRanges))).filterMap
            config.engine.diagnose? := by
  intro lenient strict
  have hu := SourceUnit.asRead_of_parse h
  have hflat := flat_of_parse h
  refine ⟨_, _, checkSource_eq h lenient, checkSource_eq h strict, fun hlisted => ?_,
    hu.attributes_withStrict hflat config, hu.options_withStrict hflat config,
    u.diagnostics_checked lenient, hu.diagnostics_withStrict hflat config⟩
  rw [SourceUnit.checked_of_listed hflat hlisted config]

def unlistedText : String :=
  "void f() \x7b\n#pragma clang loop vectorize(enable) nosuch(disable) other(1)\nwhile (1) ; \x7d"

theorem strict_check_fallback : ∃ u, parse "a.cc" unlistedText = .ok u ∧ ∃ result result',
    checkSource { strictLoopOptions := false } "a.cc" unlistedText = .ok result ∧
      checkSource { strictLoopOptions := true } "a.cc" unlistedText = .ok result' ∧
      result.diagnostics.map Diagnostic.id = [.hintKeyword, .hintConflict] ∧
      result'.diagnostics.map Diagnostic.id = [.hintOption, .hintOption] ∧
      result.attributes.length = 2 ∧
      result'.attributes = result.attributes.filter (·.range ∉ u.unlistedRanges) := by
  have hread : ∃ u ∈ (parse "a.cc" unlistedText).toOption,
      (u.checked { strictLoopOptions := false }).diagnostics.map Diagnostic.id =
          [.hintKeyword, .hintConflict] ∧
        (u.checked { strictLoopOptions := true }).diagnostics.map Diagnostic.id =
          [.hintOption, .hintOption] ∧
        (u.checked { strictLoopOptions := false }).attributes.length = 2 := by
    decide +kernel
  obtain ⟨u, hu, hlenient, hstrict, hlength⟩ := hread
  have hp := ok_of_mem_toOption hu
  obtain ⟨result, result', hresult, hresult', _, hattributes, _⟩ := strict_check hp {}
  obtain rfl := Except.ok.inj
    ((checkSource_eq hp { strictLoopOptions := false }).symm.trans hresult)
  obtain rfl := Except.ok.inj
    ((checkSource_eq hp { strictLoopOptions := true }).symm.trans hresult')
  exact ⟨u, hp, _, _, hresult, hresult', hlenient, hstrict, hlength, hattributes⟩

end AttrCheck
