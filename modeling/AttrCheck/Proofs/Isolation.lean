import AttrCheck.Proofs.FunctionWise
import AttrCheck.Proofs.Removal

/-! Attributes checked in isolation. A statement with attributes is cut out of its unit, which leaves
the frames around it. What the check makes of the frames, and what it finds in them, does not depend
on the attributes that were cut out with the statement. -/

namespace AttrCheck

/-- A statement around a gap for another one. -/
inductive Frame where
  | compound (before behind : List Stmt) (loc : Loc)
  | thenBranch (cond : Expr) (no : Option Stmt) (loc : Loc)
  | elseBranch (cond : Expr) (yes : Stmt) (loc : Loc)
  | switch (cond : Expr) (loc : Loc)
  | caseLabel (value : Expr) (loc : Loc)
  | defaultLabel (loc : Loc)
  | forInit (cond step : Option Expr) (body : Stmt) (loc : Loc)
  | forBody (init : Option Stmt) (cond step : Option Expr) (loc : Loc)
  | rangeFor (var : String) (range : Expr) (typeName : String) (loc : Loc)
  | whileLoop (cond : Expr) (loc : Loc)
  | doWhile (cond : Expr) (loc : Loc)
  | attributed (attrs : List Attr) (range : Range) (loc : Loc)
  | annotated (attrs : List RawAttr) (range : Range) (loc : Loc)

namespace Frame

def fill : Frame → Stmt → Stmt
  | compound before behind l, s => .compound (before ++ s :: behind) l
  | thenBranch c no l, s => .ifElse c s no l
  | elseBranch c yes l, s => .ifElse c yes (some s) l
  | switch c l, s => .switch c s l
  | caseLabel value l, s => .caseLabel value s l
  | defaultLabel l, s => .defaultLabel s l
  | forInit c step body l, s => .forLoop (some s) c step body l
  | forBody init c step l, s => .forLoop init c step s l
  | rangeFor var range typeName l, s => .rangeFor var range s typeName l
  | whileLoop c l, s => .whileLoop c s l
  | doWhile c l, s => .doWhile s c l
  | attributed attrs range l, s => .attributed attrs s range l
  | annotated attrs range l, s => .annotated attrs s range l

def inside (st : Setting) : Frame → Setting
  | compound before _ _ => Stmt.afterAll (st.enter []) before
  | elseBranch _ yes _ => st.after yes
  | switch _ _ => st.enterSwitch
  | forInit _ _ _ _ | forBody none _ _ _ => st.enter []
  | forBody (some init) _ _ _ => (st.enter []).after init
  | rangeFor var _ _ _ => st.enter [(var, .runtime)]
  | thenBranch _ _ _ | caseLabel _ _ | defaultLabel _ | whileLoop _ _ | doWhile _ _
  | attributed _ _ _ | annotated _ _ _ => st

def fillAll (fs : List Frame) (s : Stmt) : Stmt := fs.foldr fill s

theorem fillAll_cons (f : Frame) (fs : List Frame) (s : Stmt) :
    fillAll (f :: fs) s = f.fill (fillAll fs s) := rfl

theorem mem_children_fill (f : Frame) (s : Stmt) : s ∈ (f.fill s).children := by
  cases f <;> simp [fill, Stmt.children]

theorem exists_fill_of_mem_children {s t : Stmt} (h : t ∈ s.children) :
    ∃ f : Frame, s = f.fill t := by
  cases s with
  | null | expr | decl | ret | brk | cont => cases h
  | compound body l =>
    obtain ⟨before, behind, rfl⟩ := List.append_of_mem h
    exact ⟨.compound before behind l, rfl⟩
  | ifElse c yes no l =>
    obtain rfl | h := List.mem_cons.mp h
    · exact ⟨.thenBranch c no l, rfl⟩
    · obtain rfl := Option.mem_toList.mp h
      exact ⟨.elseBranch c yes l, rfl⟩
  | forLoop init c step body l =>
    obtain h | h := List.mem_append.mp h
    · obtain rfl := Option.mem_toList.mp h
      exact ⟨.forInit c step body l, rfl⟩
    · obtain rfl := List.mem_singleton.mp h
      exact ⟨.forBody init c step l, rfl⟩
  | switch c body l => exact ⟨.switch c l, by rw [List.mem_singleton.mp h, fill]⟩
  | caseLabel value sub l => exact ⟨.caseLabel value l, by rw [List.mem_singleton.mp h, fill]⟩
  | defaultLabel sub l => exact ⟨.defaultLabel l, by rw [List.mem_singleton.mp h, fill]⟩
  | rangeFor var range body typeName l =>
    exact ⟨.rangeFor var range typeName l, by rw [List.mem_singleton.mp h, fill]⟩
  | whileLoop c body l => exact ⟨.whileLoop c l, by rw [List.mem_singleton.mp h, fill]⟩
  | doWhile body c l => exact ⟨.doWhile c l, by rw [List.mem_singleton.mp h, fill]⟩
  | attributed attrs sub range l =>
    exact ⟨.attributed attrs range l, by rw [List.mem_singleton.mp h, fill]⟩
  | annotated attrs sub range l =>
    exact ⟨.annotated attrs range l, by rw [List.mem_singleton.mp h, fill]⟩

theorem exists_fillAll_of_mem_preorder {s t : Stmt} (h : t ∈ s.preorder) :
    ∃ fs : List Frame, s = fillAll fs t := by
  induction s using Stmt.childInduction with
  | h s ih =>
    rw [Stmt.preorder_eq] at h
    obtain rfl | h := List.mem_cons.mp h
    · exact ⟨[], rfl⟩
    · obtain ⟨r, hr, ht⟩ := List.mem_flatMap.mp h
      obtain ⟨f, hf⟩ := exists_fill_of_mem_children hr
      obtain ⟨fs, hfs⟩ := ih r hr ht
      exact ⟨f :: fs, by rw [fillAll_cons, ← hfs, ← hf]⟩

def annotation? : Frame → Option (List RawAttr × Range)
  | annotated attrs range _ => some (attrs, range)
  | _ => none

theorem target_fill (f : Frame) (s t : Stmt) : (f.fill s).target = (f.fill t).target := by
  cases f <;> rfl

theorem annotation?_fill (f : Frame) (s : Stmt) : (f.fill s).annotation? = f.annotation? := by
  cases f <;> rfl

theorem scopesAfter_fill (f : Frame) {s t : Stmt}
    (h : ∀ sc, s.scopesAfter sc = t.scopesAfter sc) (sc : Scopes) :
    (f.fill s).scopesAfter sc = (f.fill t).scopesAfter sc := by
  cases f with
  | thenBranch c no l => cases no <;> simp only [fill, Stmt.scopesAfter, h]
  | _ => simp only [fill, Stmt.scopesAfter, h]

theorem scopesAfter_fillAll (fs : List Frame) {s t : Stmt}
    (h : ∀ sc, s.scopesAfter sc = t.scopesAfter sc) (sc : Scopes) :
    (fillAll fs s).scopesAfter sc = (fillAll fs t).scopesAfter sc := by
  induction fs generalizing sc with
  | nil => exact h sc
  | cons f fs ih => exact f.scopesAfter_fill ih sc

end Frame

namespace Stmt

theorem resolvedAll_append (ss ts : List Stmt) (st : Setting) :
    resolvedAll st (ss ++ ts) = resolvedAll st ss ++ resolvedAll (afterAll st ss) ts := by
  induction ss generalizing st with
  | nil => rfl
  | cons s ss ih => rw [List.cons_append, resolvedAll, resolvedAll, ih]; rfl

theorem sitesAll_append (ss ts : List Stmt) (st : Setting) :
    sitesAll st (ss ++ ts) = sitesAll st ss ++ sitesAll (afterAll st ss) ts := by
  induction ss generalizing st with
  | nil => rfl
  | cons s ss ih => rw [List.cons_append, sitesAll, sitesAll, ih, List.append_assoc]; rfl

end Stmt

namespace Frame

/-- How statements of some family are resolved, which differ in the attributes of one statement:
alike but for what that becomes, and with the same sites but for one. -/
def Isolates {α : Type} (family : α → Stmt) (st : Setting) (wrapped : α → Stmt) (site : α → Site) :
    Prop :=
  ∃ (fs : List Frame) (before behind : List Site), ∀ a,
    (family a).resolved st = fillAll fs (wrapped a) ∧
      (family a).sites st = before ++ site a :: behind

section Step

variable {α : Type} {family wrapped : α → Stmt} {site : α → Site} {st : Setting}

theorem Isolates.frame {f : Frame} (h : Isolates family (f.inside st) wrapped site) (f' : Frame)
    (before behind : List Site)
    (hr : ∀ a, (f.fill (family a)).resolved st = f'.fill ((family a).resolved (f.inside st)))
    (hs : ∀ a, (f.fill (family a)).sites st =
      before ++ (family a).sites (f.inside st) ++ behind) :
    Isolates (fun a => f.fill (family a)) st wrapped site := by
  obtain ⟨fs, before', behind', h⟩ := h
  refine ⟨f' :: fs, before ++ before', behind' ++ behind, fun a => ⟨?_, ?_⟩⟩
  · rw [hr, (h a).1, fillAll_cons]
  · rw [hs, (h a).2]
    simp only [List.append_assoc, List.cons_append]

theorem Isolates.around {f : Frame} (h : Isolates family (f.inside st) wrapped site)
    (hr : ∀ s : Stmt, (f.fill s).resolved st = f.fill (s.resolved (f.inside st)))
    (hs : ∀ s : Stmt, (f.fill s).sites st = s.sites (f.inside st)) :
    Isolates (fun a => f.fill (family a)) st wrapped site :=
  h.frame f [] [] (fun a => hr (family a)) fun a => by rw [hs, List.nil_append, List.append_nil]

variable {a₀ : α} (hafter : ∀ a (st : Setting), st.after (family a) = st.after (family a₀))
include hafter

theorem Isolates.compound {before behind : List Stmt} {l : Loc}
    (h : Isolates family (inside st (.compound before behind l)) wrapped site) :
    Isolates (fun a => fill (.compound before behind l) (family a)) st wrapped site := by
  let st₁ := Stmt.afterAll (st.enter []) before
  refine h.frame (.compound (Stmt.resolvedAll (st.enter []) before)
    (Stmt.resolvedAll (st₁.after (family a₀)) behind) l) (Stmt.sitesAll (st.enter []) before)
    (Stmt.sitesAll (st₁.after (family a₀)) behind) (fun a => ?_) fun a => ?_
  · rw [fill, Stmt.resolved, Stmt.resolvedAll_append, Stmt.resolvedAll, hafter, fill, inside]
  · rw [fill, Stmt.sites, Stmt.sitesAll_append, Stmt.sitesAll, hafter, List.append_assoc, inside]

theorem Isolates.thenBranch {c : Expr} {no : Option Stmt} {l : Loc}
    (h : Isolates family st wrapped site) :
    Isolates (fun a => fill (.thenBranch c no l) (family a)) st wrapped site := by
  cases no with
  | none => exact h.around (f := .thenBranch c none l) (fun _ => rfl) fun _ => rfl
  | some no =>
    refine h.frame (f := .thenBranch c (some no) l)
      (.thenBranch c (some (no.resolved (st.after (family a₀)))) l) []
      (no.sites (st.after (family a₀))) (fun a => ?_) fun a => ?_
    · rw [fill, Stmt.resolved, hafter, fill, inside]
    · rw [fill, Stmt.sites, hafter, List.nil_append, inside]

theorem Isolates.forInit {c step : Option Expr} {body : Stmt} {l : Loc}
    (h : Isolates family (st.enter []) wrapped site) :
    Isolates (fun a => fill (.forInit c step body l) (family a)) st wrapped site := by
  refine h.frame (f := .forInit c step body l)
    (.forInit c step (body.resolved ((st.enter []).after (family a₀))) l) []
    (body.sites ((st.enter []).after (family a₀))) (fun a => ?_) fun a => ?_
  · rw [fill, Stmt.resolved, hafter, fill, inside]
  · rw [fill, Stmt.sites, hafter, List.nil_append, inside]

theorem Isolates.annotated {attrs : List RawAttr} {range : Range} {l : Loc}
    (htarget : ∀ a, ((family a).resolved st).target = ((family a₀).resolved st).target)
    (h : Isolates family st wrapped site) :
    Isolates (fun a => fill (.annotated attrs range l) (family a)) st wrapped site := by
  let own : Site := ⟨attrs, range, ((family a₀).resolved st).target, st.after (family a₀)⟩
  obtain ⟨fs, before, behind, h⟩ := h
  have hs (a : α) : (Stmt.annotated attrs (family a) range l).sites st =
      before ++ site a :: (behind ++ [own]) := by
    rw [Stmt.sites, (h a).2, htarget, hafter, List.append_assoc, List.cons_append]
  have hr (a : α) : (Stmt.annotated attrs (family a) range l).resolved st =
      (fillAll fs (wrapped a)).withAttrs own.kept range := by
    rw [Stmt.resolved, htarget, hafter, (h a).1]
  -- Where nothing stays of the attributes, the frame goes.
  by_cases hk : own.kept.isEmpty
  · refine ⟨fs, before, behind ++ [own], fun a => ⟨(hr a).trans ?_, hs a⟩⟩
    rw [Stmt.withAttrs, if_pos hk]
  · refine ⟨.attributed own.kept range range.start :: fs, before, behind ++ [own],
      fun a => ⟨(hr a).trans ?_, hs a⟩⟩
    rw [Stmt.withAttrs, if_neg hk, fillAll_cons, fill]

theorem Isolates.fill {f : Frame}
    (htarget : f.annotation?.isSome →
      ∀ a, ((family a).resolved st).target = ((family a₀).resolved st).target)
    (h : Isolates family (f.inside st) wrapped site) :
    Isolates (fun a => f.fill (family a)) st wrapped site := by
  cases f with
  | compound before behind l => exact h.compound hafter
  | thenBranch c no l => exact h.thenBranch hafter
  | forInit c step body l => exact h.forInit hafter
  | annotated attrs range l => exact h.annotated hafter (htarget rfl)
  | elseBranch c yes l =>
    exact h.frame (.elseBranch c (yes.resolved st) l) (yes.sites st) [] (fun _ => rfl)
      fun a => (List.append_nil _).symm
  | forBody init c step l =>
    cases init with
    | none => exact h.around (fun _ => rfl) fun _ => rfl
    | some init =>
      exact h.frame (.forBody (some (init.resolved (st.enter []))) c step l)
        (init.sites (st.enter [])) [] (fun _ => rfl) fun a => (List.append_nil _).symm
  | switch | caseLabel | defaultLabel | rangeFor | whileLoop | doWhile | attributed =>
    exact h.around (fun _ => rfl) fun _ => rfl

end Step

section Annotated

variable {attrs₀ : List RawAttr} {sub : Stmt} {range : Range} {l : Loc}

theorem after_fillAll (fs : List Frame) (attrs₀ attrs : List RawAttr) (st : Setting) :
    st.after (fillAll fs (.annotated attrs sub range l)) =
      st.after (fillAll fs (.annotated attrs₀ sub range l)) := by
  have h (sc : Scopes) : (Stmt.annotated attrs sub range l).scopesAfter sc =
      (Stmt.annotated attrs₀ sub range l).scopesAfter sc := rfl
  rw [Setting.after, Setting.after, scopesAfter_fillAll fs h]

theorem target_resolved_fillAll {fs : List Frame}
    (h : (fillAll fs (.annotated attrs₀ sub range l)).annotation? = none)
    (attrs : List RawAttr) (st : Setting) :
    ((fillAll fs (.annotated attrs sub range l)).resolved st).target =
      ((fillAll fs (.annotated attrs₀ sub range l)).resolved st).target := by
  cases fs with
  | nil => cases h
  | cons f fs =>
    rw [fillAll_cons, annotation?_fill] at h
    rw [fillAll_cons, fillAll_cons, Stmt.target_resolved ((f.annotation?_fill _).trans h),
      Stmt.target_resolved ((f.annotation?_fill _).trans h)]
    exact f.target_fill _ _

/-- The attributes of a statement change nothing but what it is replaced by, and its site. -/
theorem isolates_fillAll (fs : List Frame)
    (h : (fillAll fs (.annotated attrs₀ sub range l)).Flat) (st : Setting) :
    ∃ (sub' : Stmt) (st' : Setting),
      Isolates (fun attrs => fillAll fs (.annotated attrs sub range l)) st
        (fun attrs => sub'.withAttrs (Site.kept ⟨attrs, range, sub.target, st'⟩) range)
        fun attrs => ⟨attrs, range, sub.target, st'⟩ := by
  induction fs generalizing st with
  | nil =>
    have htarget := Stmt.target_resolved h.sub st
    refine ⟨sub.resolved st, st.after sub, [], sub.sites st, [], fun attrs => ⟨?_, ?_⟩⟩
    · show (Stmt.annotated attrs sub range l).resolved st = _
      rw [Stmt.resolved, htarget]
      rfl
    · show (Stmt.annotated attrs sub range l).sites st = _
      rw [Stmt.sites, htarget]
  | cons f fs ih =>
    obtain ⟨sub', st', hisolates⟩ := ih (h.of_mem (f.mem_children_fill _)) (f.inside st)
    refine ⟨sub', st', hisolates.fill (after_fillAll fs attrs₀) fun hf attrs => ?_⟩
    cases f with
    | annotated => exact target_resolved_fillAll h.sub attrs st
    | _ => cases hf

end Annotated

end Frame

structure UnitFrame where
  before : List Function
  function : Function
  frames : List Frame
  behind : List Function
  globals : List VarDecl
  file : String

namespace UnitFrame

def fill (g : UnitFrame) (s : Stmt) : SourceUnit :=
  ⟨g.before ++ { g.function with body := Frame.fillAll g.frames s } :: g.behind, g.globals, g.file⟩

/-- A frame can be cut around every statement of a unit. -/
theorem exists_fill_of_mem_stmts {u : SourceUnit} {s : Stmt} (h : s ∈ u.stmts) :
    ∃ g : UnitFrame, u = g.fill s := by
  obtain ⟨f, hf, hs⟩ := List.mem_flatMap.mp h
  obtain ⟨before, behind, hsplit⟩ := List.append_of_mem hf
  obtain ⟨frames, hbody⟩ :=
    Frame.exists_fillAll_of_mem_preorder (f.body.postorder_perm_preorder.mem_iff.mp hs)
  refine ⟨⟨before, f, frames, behind, u.globals, u.file⟩, ?_⟩
  rw [fill, ← hbody, ← hsplit]

end UnitFrame

namespace SourceUnit

theorem namesOptions_iff (u : SourceUnit) : (∀ f ∈ u.functions, f.body.NamesOptions) ↔
    ∀ a ∈ u.stmts.flatMap Stmt.written, a.NamesOption := by
  simp only [stmts, List.mem_flatMap, Stmt.NamesOptions]
  constructor
  · rintro h a ⟨s, ⟨f, hf, hs⟩, ha⟩
    exact h f hf s (f.body.postorder_perm_preorder.mem_iff.mp hs) a ha
  · intro h f hf s hs a ha
    exact h a ⟨s, ⟨f, hf, f.body.postorder_perm_preorder.mem_iff.mpr hs⟩, ha⟩

end SourceUnit

namespace UnitFrame

variable {g : UnitFrame} {attrs₀ : List RawAttr} {sub : Stmt} {range : Range} {l : Loc}

theorem exists_fill_resolved
    (h : ∀ f ∈ (g.fill (.annotated attrs₀ sub range l)).functions, f.body.Flat) (strict : Bool) :
    ∃ (g' : UnitFrame) (sub' : Stmt) (st : Setting) (before behind : List Site),
      ∀ attrs : List RawAttr,
        let site : Site := ⟨attrs, range, sub.target, st⟩
        (g.fill (.annotated attrs sub range l)).resolved strict =
            g'.fill (sub'.withAttrs site.kept range) ∧
          (g.fill (.annotated attrs sub range l)).sites strict = before ++ site :: behind := by
  let scopes : Scopes := g.globals.foldl Scopes.declareVar [[]]
  obtain ⟨sub', st, fs, before, behind, hisolates⟩ := Frame.isolates_fillAll g.frames
    (h _ (List.mem_append_right _ (.head _))) (g.function.setting strict scopes)
  refine ⟨⟨g.before.map (Function.resolved strict scopes), g.function, fs,
    g.behind.map (Function.resolved strict scopes), g.globals, g.file⟩, sub', st,
    g.before.flatMap (Function.sites strict scopes) ++ before,
    behind ++ g.behind.flatMap (Function.sites strict scopes), fun attrs => ⟨?_, ?_⟩⟩
  · obtain ⟨hr, _⟩ := hisolates attrs
    simp only [SourceUnit.resolved, fill, List.map_append, List.map_cons]
    rw [← hr]
    rfl
  · have hs := (hisolates attrs).2
    change (Frame.fillAll g.frames (.annotated attrs sub range l)).sites
      (g.function.setting strict scopes) = _ at hs
    simp only [SourceUnit.sites, fill, List.flatMap_append, List.flatMap_cons, List.append_assoc]
    show _ ++ ((Frame.fillAll g.frames (.annotated attrs sub range l)).sites
      (g.function.setting strict scopes) ++ _) = _
    rw [hs]
    simp only [List.append_assoc, List.cons_append]
    rfl

end UnitFrame

/-- The attributes of a statement in an accepted text have no say in anything but their own check.
Whatever they are, the rest of the resolved unit is the same, and so are the diagnostics and the
attributes in front of their own and behind them. -/
theorem isolated_check {file text : String} {g : UnitFrame} {attrs₀ : List RawAttr} {sub : Stmt}
    {range : Range} {l : Loc} (h : parse file text = .ok (g.fill (.annotated attrs₀ sub range l)))
    (config : Config) :
    ∃ (g' : UnitFrame) (sub' : Stmt) (st : Setting) (before behind : List Diagnostic)
      (first last : List Attr), ∀ attrs : List RawAttr, (∀ a ∈ attrs, a.NamesOption) →
        let site : Site := ⟨attrs, range, sub.target, st⟩
        ∃ result, (g.fill (.annotated attrs sub range l)).check config = .ok result ∧
          result.unit = g'.fill (sub'.withAttrs site.kept range) ∧
          result.diagnostics =
            before ++ site.reports.filterMap config.engine.diagnose? ++ behind ∧
          result.attributes = first ++ site.kept ++ last := by
  obtain ⟨g', sub', st, before, behind, hfill⟩ :=
    UnitFrame.exists_fill_resolved (flat_of_parse h) config.strictLoopOptions
  have hnames := (SourceUnit.namesOptions_iff _).mp (SourceUnit.asRead_of_parse h).namesOptions
  rw [← SourceUnit.flatMap_attrs _ config.strictLoopOptions, (hfill attrs₀).2] at hnames
  let found (sites : List Site) : List Diagnostic :=
    sites.flatMap fun s => s.reports.filterMap config.engine.diagnose?
  refine ⟨g', sub', st, found before, found behind, before.flatMap Site.kept,
    behind.flatMap Site.kept, fun attrs hattrs => ?_⟩
  obtain ⟨hresolved, hsites⟩ := hfill attrs
  have hn : ∀ f ∈ (g.fill (.annotated attrs sub range l)).functions, f.body.NamesOptions := by
    rw [SourceUnit.namesOptions_iff, ← SourceUnit.flatMap_attrs _ config.strictLoopOptions, hsites]
    simp only [List.flatMap_append, List.flatMap_cons, List.mem_append] at hnames ⊢
    rintro a (ha | ha | ha)
    · exact hnames a (.inl ha)
    · exact hattrs a ha
    · exact hnames a (.inr (.inr ha))
  refine ⟨_, SourceUnit.check_eq _ hn config, hresolved, ?_, ?_⟩
  · rw [SourceUnit.diagnostics_checked, hsites, List.flatMap_append, List.flatMap_cons,
      List.append_assoc]
  · show (SourceUnit.sites _ _).flatMap Site.kept = _
    rw [hsites, List.flatMap_append, List.flatMap_cons, List.append_assoc]

def misplacedText : String :=
  "void f(int n) \x7b switch (n) \x7b [[fallthrough]] case 1: [[fallthrough]] ; \x7d \x7d"

theorem isolated_check_nested : ∃ (g : UnitFrame) (attrs₀ : List RawAttr) (sub : Stmt)
    (range : Range) (l : Loc),
      parse "a.cc" misplacedText = .ok (g.fill (.annotated attrs₀ sub range l)) ∧ sub.kind = .null ∧
    ∃ (g' : UnitFrame) (sub' : Stmt) (st : Setting) (before behind : List Diagnostic)
      (first last : List Attr), ∀ attrs : List RawAttr, (∀ a ∈ attrs, a.NamesOption) →
        let site : Site := ⟨attrs, range, sub.target, st⟩
        ∃ result, (g.fill (.annotated attrs sub range l)).check {} = .ok result ∧
          result.unit = g'.fill (sub'.withAttrs site.kept range) ∧
          result.diagnostics =
            before ++ site.reports.filterMap (Config.engine {}).diagnose? ++ behind ∧
          result.attributes = first ++ site.kept ++ last := by
  have hread : ∃ u ∈ (parse "a.cc" misplacedText).toOption, ∃ s ∈ u.stmts,
      s.annotation?.isSome = true ∧ ∀ sub ∈ s.children, sub.kind = .null := by
    decide +kernel
  obtain ⟨u, hu, s, hs, hannotated, hnull⟩ := hread
  have hp := ok_of_mem_toOption hu
  obtain ⟨⟨attrs₀, range⟩, ha⟩ := Option.isSome_iff_exists.mp hannotated
  obtain ⟨sub, l, rfl⟩ := Stmt.annotation?_eq_some_iff.mp ha
  obtain ⟨g, rfl⟩ := UnitFrame.exists_fill_of_mem_stmts hs
  exact ⟨g, attrs₀, sub, range, l, hp, hnull sub (.head _), isolated_check hp {}⟩

end AttrCheck
