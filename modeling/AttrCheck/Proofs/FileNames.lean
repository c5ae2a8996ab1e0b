import AttrCheck.Proofs.FunctionWise
import AttrCheck.Proofs.ScopeAgreement

/-! What a function takes from file scope. A name in an attribute is looked up there unless the
function declares it; and where the function declares it as a constant, the names in the initializer
take its place. What is found in the function depends on the file through these names alone. -/

namespace AttrCheck

/-- For the names that are declared so far, the names at file scope that their values come from. -/
abbrev Sources := List (String × List Mention)

namespace Sources

def ofMention (src : Sources) (x : Mention) : List Mention := (src.lookup x.1).getD [x]

def ofMentions (src : Sources) (xs : List Mention) : List Mention := xs.flatMap src.ofMention

def declare (src : Sources) (d : VarDecl) : Sources :=
  (d.name, if d.isConst then src.ofMentions (d.init.toList.flatMap Expr.mentions) else []) :: src

def enter (src : Sources) (scope : Scope) : Sources := scope.map (fun x => (x.1, [])) ++ src

end Sources

namespace Stmt

def sourcesAfter (src : Sources) : Stmt → Sources
  | decl d => src.declare d
  | ifElse _ yes none _ => yes.sourcesAfter src
  | ifElse _ yes (some no) _ => no.sourcesAfter (yes.sourcesAfter src)
  | switch _ sub _ | caseLabel _ sub _ | defaultLabel sub _ | whileLoop _ sub _ | doWhile sub _ _
  | attributed _ sub _ _ | annotated _ sub _ _ => sub.sourcesAfter src
  | null _ | compound _ _ | expr _ _ | ret _ _ | brk _ | cont _ | forLoop _ _ _ _ _
  | rangeFor _ _ _ _ _ => src

mutual

def fileNames (src : Sources) : Stmt → List Mention
  | compound body _ => fileNamesAll src body
  | ifElse _ yes none _ => yes.fileNames src
  | ifElse _ yes (some no) _ => yes.fileNames src ++ no.fileNames (yes.sourcesAfter src)
  | forLoop none _ _ body _ => body.fileNames src
  | forLoop (some init) _ _ body _ => init.fileNames src ++ body.fileNames (init.sourcesAfter src)
  | rangeFor var _ body _ _ => body.fileNames (src.enter [(var, .runtime)])
  | switch _ sub _ | caseLabel _ sub _ | defaultLabel sub _ | whileLoop _ sub _ | doWhile sub _ _
  | attributed _ sub _ _ => sub.fileNames src
  | annotated attrs sub _ _ =>
    sub.fileNames src ++ (sub.sourcesAfter src).ofMentions (attrs.flatMap RawAttr.mentions)
  | null _ | expr _ _ | decl _ | ret _ _ | brk _ | cont _ => []

def fileNamesAll (src : Sources) : List Stmt → List Mention
  | [] => []
  | s :: ss => s.fileNames src ++ fileNamesAll (s.sourcesAfter src) ss

end

end Stmt

def Function.fileNames (f : Function) : List Mention := f.body.fileNames (Sources.enter [] f.scope)

section Tracking

variable {g g' : Scopes}

/-- Whether two stacks of scopes, on top of `g` and of `g'`, mean the same by every name but for
what its sources mean. -/
structure Sources.Tracks (g g' : Scopes) (src : Sources) (sc sc' : Scopes) : Prop where
  outer : ∀ n, src.lookup n = none → sc.find? n = g.find? n ∧ sc'.find? n = g'.find? n
  inner : ∀ n xs, src.lookup n = some xs → (∀ x ∈ xs, g.meaning x = g'.meaning x) →
    sc.find? n = sc'.find? n

namespace Sources.Tracks

variable {src : Sources} {sc sc' : Scopes}

theorem refl (g g' : Scopes) : Tracks g g' [] g g' := ⟨fun _ _ => ⟨rfl, rfl⟩, nofun⟩

theorem meaning (h : src.Tracks g g' sc sc') {xs : List Mention}
    (hxs : ∀ y ∈ src.ofMentions xs, g.meaning y = g'.meaning y) :
    ∀ x ∈ xs, sc.meaning x = sc'.meaning x := by
  intro x hx
  have hsources : ∀ y ∈ src.ofMention x, g.meaning y = g'.meaning y :=
    fun y hy => hxs y (List.mem_flatMap_of_mem hx hy)
  rw [ofMention] at hsources
  cases hl : src.lookup x.1 with
  | none =>
    obtain ⟨hsc, hsc'⟩ := h.outer x.1 hl
    have hx := hsources x (by simp [hl])
    rw [Scopes.meaning, Scopes.meaning] at hx ⊢
    rw [hsc, hsc', hx]
  | some ys =>
    rw [hl, Option.getD_some] at hsources
    rw [Scopes.meaning, Scopes.meaning, h.inner x.1 ys hl hsources]

theorem enter (h : src.Tracks g g' sc sc') (scope : Scope) :
    (src.enter scope).Tracks g g' (scope :: sc) (scope :: sc') := by
  have hlookup (n : String) :
      (src.enter scope).lookup n = ((scope.lookup n).map fun _ => []).or (src.lookup n) := by
    rw [Sources.enter, List.lookup_append]
    congr 1
    induction scope with
    | nil => rfl
    | cons x scope ih =>
      rw [List.map_cons, List.lookup_cons, List.lookup_cons, ih]
      cases n == x.1 <;> rfl
  constructor
  · intro n hn
    rw [hlookup, Option.or_eq_none_iff, Option.map_eq_none_iff] at hn
    rw [Scopes.find?_cons, Scopes.find?_cons, hn.1]
    exact h.outer n hn.2
  · intro n xs hn hxs
    rw [hlookup] at hn
    rw [Scopes.find?_cons, Scopes.find?_cons]
    cases hs : scope.lookup n with
    | none =>
      rw [hs] at hn
      exact h.inner n xs hn hxs
    | some b => rfl

theorem binding (h : src.Tracks g g' sc sc') (d : VarDecl)
    (hd : d.isConst = true → ∀ y ∈ src.ofMentions (d.init.toList.flatMap Expr.mentions),
      g.meaning y = g'.meaning y) : d.binding sc = d.binding sc' := by
  rw [VarDecl.binding, VarDecl.binding]
  split_ifs with hconst
  · have hmeaning := h.meaning (hd hconst)
    cases hinit : d.init with
    | none => rfl
    | some e =>
      rw [hinit, Option.toList_some, List.flatMap_singleton] at hmeaning
      rw [Option.bind_some, Option.bind_some, e.bound_eq_of_mentions hmeaning]
  · rfl

theorem declareVar (h : src.Tracks g g' sc sc') (d : VarDecl) :
    (src.declare d).Tracks g g' (sc.declareVar d) (sc'.declareVar d) := by
  have hlookup (n : String) (hn : n ≠ d.name) : (src.declare d).lookup n = src.lookup n := by
    rw [declare, List.lookup_cons, beq_false_of_ne hn]
  constructor
  · intro n hl
    have hn : n ≠ d.name := by
      rintro rfl
      rw [declare, List.lookup_cons_self] at hl
      cases hl
    rw [Scopes.declareVar, Scopes.declareVar, Scopes.find?_declare, Scopes.find?_declare,
      if_neg hn, if_neg hn]
    exact h.outer n (hlookup n hn ▸ hl)
  · intro n xs hl hxs
    rw [Scopes.declareVar, Scopes.declareVar, Scopes.find?_declare, Scopes.find?_declare]
    split_ifs with hn
    · subst hn
      rw [declare, List.lookup_cons_self] at hl
      obtain rfl := Option.some.inj hl
      rw [h.binding d fun hconst => by rwa [if_pos hconst] at hxs]
    · exact h.inner n xs (hlookup n hn ▸ hl) hxs

theorem scopesAfter (h : src.Tracks g g' sc sc') (s : Stmt) :
    (s.sourcesAfter src).Tracks g g' (s.scopesAfter sc) (s.scopesAfter sc') := by
  induction s using Stmt.childInduction generalizing src sc sc' with
  | h s ih =>
    cases s with
    | decl d => exact h.declareVar d
    | ifElse c yes no l =>
      have hyes := ih yes (.head _) h
      cases no with
      | none => exact hyes
      | some no => exact ih no (by simp [Stmt.children]) hyes
    | null | compound | expr | ret | brk | cont | forLoop | rangeFor => exact h
    | switch | caseLabel | defaultLabel | whileLoop | doWhile | attributed | annotated =>
      exact ih _ (.head _) h

end Sources.Tracks

structure Setting.Tracks (g g' : Scopes) (src : Sources) (st st' : Setting) : Prop where
  strict : st.strict = st'.strict
  inSwitch : st.inSwitch = st'.inSwitch
  scopes : src.Tracks g g' st.scopes st'.scopes

namespace Setting.Tracks

variable {src : Sources} {st st' : Setting}

theorem enter (h : Setting.Tracks g g' src st st') (scope : Scope) :
    Setting.Tracks g g' (src.enter scope) (st.enter scope) (st'.enter scope) :=
  ⟨h.strict, h.inSwitch, h.scopes.enter scope⟩

theorem block (h : Setting.Tracks g g' src st st') :
    Setting.Tracks g g' src (st.enter []) (st'.enter []) := h.enter []

theorem enterSwitch (h : Setting.Tracks g g' src st st') :
    Setting.Tracks g g' src st.enterSwitch st'.enterSwitch := ⟨h.strict, rfl, h.scopes⟩

theorem after (h : Setting.Tracks g g' src st st') (s : Stmt) :
    Setting.Tracks g g' (s.sourcesAfter src) (st.after s) (st'.after s) :=
  ⟨h.strict, h.inSwitch, h.scopes.scopesAfter s⟩

end Setting.Tracks

namespace Stmt

/-- Whether the same is found in a statement, and the same replaces it, where the names that its
attributes come to mean the same. -/
def ChecksAlike (g g' : Scopes) (s : Stmt) : Prop := ∀ ⦃src : Sources⦄ ⦃st st' : Setting⦄,
  Setting.Tracks g g' src st st' → (∀ x ∈ s.fileNames src, g.meaning x = g'.meaning x) →
    (s.sites st).map Site.findings = (s.sites st').map Site.findings ∧
      s.resolved st = s.resolved st'

theorem checksAlike_all {ss : List Stmt} (h : ∀ s ∈ ss, s.ChecksAlike g g') {src : Sources}
    {st st' : Setting} (hst : Setting.Tracks g g' src st st')
    (hnames : ∀ x ∈ fileNamesAll src ss, g.meaning x = g'.meaning x) :
    (sitesAll st ss).map Site.findings = (sitesAll st' ss).map Site.findings ∧
      resolvedAll st ss = resolvedAll st' ss := by
  induction ss generalizing src st st' with
  | nil => exact ⟨rfl, rfl⟩
  | cons s ss ih =>
    obtain ⟨hs, hss⟩ := List.forall_mem_append.mp hnames
    obtain ⟨hsites, hresolved⟩ := h s (.head _) hst hs
    obtain ⟨hsites', hresolved'⟩ := ih (fun t ht => h t (.tail _ ht)) (hst.after s) hss
    rw [sitesAll, sitesAll, resolvedAll, resolvedAll, List.map_append, List.map_append, hsites,
      hsites', hresolved, hresolved']
    exact ⟨rfl, rfl⟩

theorem checksAlike_annotated {sub : Stmt} (h : sub.ChecksAlike g g') (attrs : List RawAttr)
    (range : Range) (l : Loc) : (annotated attrs sub range l).ChecksAlike g g' := by
  intro src st st' hst hnames
  obtain ⟨hsub, hattrs⟩ := List.forall_mem_append.mp hnames
  obtain ⟨hsites, hresolved⟩ := h hst hsub
  have hmeaning := (hst.after sub).scopes.meaning hattrs
  have hlast : Site.findings ⟨attrs, range, (sub.resolved st).target, st.after sub⟩ =
      Site.findings ⟨attrs, range, (sub.resolved st').target, st'.after sub⟩ := by
    rw [hresolved]
    exact Site.findings_of_bound attrs range _ hst.strict hst.inSwitch fun a ha =>
      a.bound_eq_of_mentions fun x hx => hmeaning x (List.mem_flatMap_of_mem ha hx)
  have hkept : Site.kept ⟨attrs, range, _, _⟩ = Site.kept ⟨attrs, range, _, _⟩ :=
    congrArg Prod.fst hlast
  rw [sites, sites, resolved, resolved, List.map_append, List.map_append, hsites,
    List.map_singleton, List.map_singleton, hlast, hkept, hresolved]
  exact ⟨rfl, rfl⟩

theorem checksAlike (s : Stmt) : s.ChecksAlike g g' := by
  induction s using childInduction with
  | h s ih =>
    cases s with
    | null | expr | decl | ret | brk | cont => exact fun _ _ _ _ _ => ⟨rfl, rfl⟩
    | compound body l =>
      intro src st st' hst hnames
      have hbody : ∀ s ∈ body, s.ChecksAlike g g' := ih
      obtain ⟨hsites, hresolved⟩ := checksAlike_all hbody hst.block hnames
      rw [sites, sites, resolved, resolved, hsites, hresolved]
      exact ⟨rfl, rfl⟩
    | ifElse c yes no l =>
      intro src st st' hst hnames
      have hyes := ih yes (.head _)
      cases no with
      | none =>
        obtain ⟨hsites, hresolved⟩ := hyes hst hnames
        rw [sites, sites, resolved, resolved, hsites, hresolved]
        exact ⟨rfl, rfl⟩
      | some no =>
        obtain ⟨hnames, hnames'⟩ := List.forall_mem_append.mp hnames
        obtain ⟨hsites, hresolved⟩ := hyes hst hnames
        obtain ⟨hsites', hresolved'⟩ := ih no (by simp [children]) (hst.after yes) hnames'
        rw [sites, sites, resolved, resolved, List.map_append, List.map_append, hsites, hsites',
          hresolved, hresolved']
        exact ⟨rfl, rfl⟩
    | forLoop init c step body l =>
      intro src st st' hst hnames
      have hbody := ih body (by simp [children])
      cases init with
      | none =>
        obtain ⟨hsites, hresolved⟩ := hbody hst.block hnames
        rw [sites, sites, resolved, resolved, hsites, hresolved]
        exact ⟨rfl, rfl⟩
      | some init =>
        obtain ⟨hnames, hnames'⟩ := List.forall_mem_append.mp hnames
        obtain ⟨hsites, hresolved⟩ := ih init (by simp [children]) hst.block hnames
        obtain ⟨hsites', hresolved'⟩ := hbody (hst.block.after init) hnames'
        rw [sites, sites, resolved, resolved, List.map_append, List.map_append, hsites, hsites',
          hresolved, hresolved']
        exact ⟨rfl, rfl⟩
    | rangeFor var range body typeName l =>
      intro src st st' hst hnames
      obtain ⟨hsites, hresolved⟩ := ih body (.head _) (hst.enter [(var, .runtime)]) hnames
      rw [sites, sites, resolved, resolved, hsites, hresolved]
      exact ⟨rfl, rfl⟩
    | switch c body l =>
      intro src st st' hst hnames
      obtain ⟨hsites, hresolved⟩ := ih body (.head _) hst.enterSwitch hnames
      rw [sites, sites, resolved, resolved, hsites, hresolved]
      exact ⟨rfl, rfl⟩
    | annotated attrs sub range l => exact checksAlike_annotated (ih sub (.head _)) attrs range l
    | caseLabel | defaultLabel | whileLoop | doWhile | attributed =>
      intro src st st' hst hnames
      obtain ⟨hsites, hresolved⟩ := ih _ (.head _) hst hnames
      rw [sites, sites, resolved, resolved, hsites, hresolved]
      exact ⟨rfl, rfl⟩

end Stmt

theorem Function.checksAlike (f : Function)
    (h : ∀ x ∈ f.fileNames, g.meaning x = g'.meaning x) (strict : Bool) :
    (f.sites strict g).map Site.findings = (f.sites strict g').map Site.findings ∧
      f.resolved strict g = f.resolved strict g' := by
  have hst : Setting.Tracks g g' (Sources.enter [] f.scope) (f.setting strict g)
      (f.setting strict g') := ⟨rfl, rfl, (Sources.Tracks.refl g g').enter f.scope⟩
  obtain ⟨hsites, hresolved⟩ := f.body.checksAlike hst h
  exact ⟨hsites, by rw [resolved, resolved, hresolved]⟩

end Tracking

namespace SourceUnit

variable {u u' : SourceUnit} (config : Config)

/-- Variables that mean the same by the names that the functions take from file scope make no
difference to the check. -/
theorem checked_eq_of_fileNames (hf : u.functions = u'.functions)
    (h : ∀ f ∈ u.functions, ∀ x ∈ f.fileNames, u.scopes.meaning x = u'.scopes.meaning x) :
    (u.checked config).diagnostics = (u'.checked config).diagnostics ∧
      (u.checked config).attributes = (u'.checked config).attributes ∧
      (u.checked config).unit.functions = (u'.checked config).unit.functions := by
  have halike (f : Function) (hf : f ∈ u.functions) :=
    f.checksAlike (h f hf) config.strictLoopOptions
  have hsites : (u.sites config.strictLoopOptions).map Site.findings =
      (u'.sites config.strictLoopOptions).map Site.findings := by
    rw [sites, sites, ← hf, List.map_flatMap, List.map_flatMap]
    exact List.flatMap_congr fun f hf => (halike f hf).1
  obtain ⟨hdiagnostics, hattributes⟩ := checked_of_findings config hsites
  refine ⟨hdiagnostics, hattributes, ?_⟩
  show u.functions.map _ = u'.functions.map _
  rw [← hf]
  exact List.map_congr_left fun f hf => (halike f hf).2

theorem checked_append {fs gs : List Function} (hf : u.functions = fs ++ gs) :
    (u.checked config).diagnostics = ({ u with functions := fs }.checked config).diagnostics ++
        ({ u with functions := gs }.checked config).diagnostics ∧
      (u.checked config).attributes = ({ u with functions := fs }.checked config).attributes ++
        ({ u with functions := gs }.checked config).attributes ∧
      (u.checked config).unit.functions =
        ({ u with functions := fs }.checked config).unit.functions ++
          ({ u with functions := gs }.checked config).unit.functions := by
  have hsites : u.sites config.strictLoopOptions =
      { u with functions := fs }.sites config.strictLoopOptions ++
        { u with functions := gs }.sites config.strictLoopOptions := by
    rw [sites, hf, List.flatMap_append]
    rfl
  refine ⟨?_, ?_, ?_⟩
  · rw [diagnostics_checked, diagnostics_checked, diagnostics_checked, hsites,
      List.flatMap_append]
  · show (u.sites _).flatMap _ = _
    rw [hsites, List.flatMap_append]
    rfl
  · show u.functions.map _ = _
    rw [hf, List.map_append]
    rfl

end SourceUnit

end AttrCheck
