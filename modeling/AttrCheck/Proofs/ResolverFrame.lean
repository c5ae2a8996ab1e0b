import AttrCheck.Proofs.AcceptedText

/-! What a visit leaves alone. A resolution is run so that its resolver is known where it fails,
too: what was opened is closed then as well. Whatever becomes of it, the open functions are those
that were open before, reports and attributes are only added, and names are only declared in the
innermost scope, by declarations that no block of the statement encloses. -/

namespace AttrCheck

namespace Resolver

def openFunction (r : Resolver) (name : String) : Resolver :=
  { r with checker := r.checker.pushFunction name }

def closeFunction (r : Resolver) : Except Defect Resolver := do
  let (_, checker) ← r.checker.popFunction
  return { r with checker }

end Resolver

abbrev Resolution (α : Type) := ExceptT Defect (StateM Resolver) α

namespace Resolution

variable {α β : Type}

def runOn (x : Resolution α) (r : Resolver) : Except Defect α × Resolver := x r

def outcome (x : Resolution α) (r : Resolver) : Except Defect (α × Resolver) :=
  (x.runOn r).1.map (·, (x.runOn r).2)

def attempt (step : Resolver → Except Defect Resolver) : Resolution Unit := fun r =>
  match step r with
  | .ok r => (.ok (), r)
  | .error d => (.error d, r)

/-- A run between two steps. The second one is taken however the run ends. -/
def between (enter leave : Resolver → Except Defect Resolver) (x : Resolution α) :
    Resolution α := do
  attempt enter
  try x finally attempt leave

def inScope (scope : Scope) (x : Resolution α) : Resolution α :=
  between (fun r => .ok (r.enterScope scope)) (fun r => .ok r.leaveScope) x

def inSwitch (loc : Loc) (x : Resolution α) : Resolution α :=
  between (fun r => r.enterSwitch loc) Resolver.leaveSwitch x

def inFunction (f : Function) (x : Resolution α) : Resolution α :=
  inScope f.scope <|
    between (fun r => .ok (r.openFunction f.name)) Resolver.closeFunction x

def settle (s : Stmt) (attrs : List RawAttr) (specifiers : Range) : Resolution Stmt := fun r =>
  match r.checker.process s.target (attrs.map (RawAttr.bound r.scopes)) specifiers with
  | (.error d, checker) => (.error d, { r with checker })
  | (.ok kept, checker) =>
    (.ok (s.withAttrs kept specifiers), { r with checker, attributes := r.attributes ++ kept })

end Resolution

namespace Stmt

open Resolution

mutual

def resolution : Stmt → Resolution Stmt
  | null l => return null l
  | expr e l => return expr e l
  | ret value l => return ret value l
  | brk l => return brk l
  | cont l => return cont l
  | decl d => do
    attempt fun r => .ok (r.declare d)
    return decl d
  | compound body l => inScope [] do return compound (← resolutionAll body) l
  | ifElse c yes none l => do return ifElse c (← yes.resolution) none l
  | ifElse c yes (some no) l => do return ifElse c (← yes.resolution) (some (← no.resolution)) l
  | switch c body l => inSwitch l do return switch c (← body.resolution) l
  | caseLabel value sub l => do return caseLabel value (← sub.resolution) l
  | defaultLabel sub l => do return defaultLabel (← sub.resolution) l
  | forLoop none c step body l => inScope [] do return forLoop none c step (← body.resolution) l
  | forLoop (some init) c step body l => inScope [] do
    return forLoop (some (← init.resolution)) c step (← body.resolution) l
  | rangeFor var range body typeName l => inScope [(var, .runtime)] do
    return rangeFor var range (← body.resolution) typeName l
  | whileLoop c body l => do return whileLoop c (← body.resolution) l
  | doWhile body c l => do return doWhile (← body.resolution) c l
  | attributed attrs sub range l => do return attributed attrs (← sub.resolution) range l
  | annotated attrs sub range _ => do settle (← sub.resolution) attrs range

def resolutionAll : List Stmt → Resolution (List Stmt)
  | [] => return []
  | s :: ss => do return (← s.resolution) :: (← resolutionAll ss)

end

def opensScope : Stmt → Bool
  | compound _ _ | forLoop _ _ _ _ _ | rangeFor _ _ _ _ _ => true
  | _ => false

inductive Exposes : Stmt → VarDecl → Prop where
  | self (d : VarDecl) : Exposes (decl d) d
  | inside {s t : Stmt} {d : VarDecl} (hs : s.opensScope = false) (ht : t ∈ s.children)
      (h : Exposes t d) : Exposes s d

def Declares (s : Stmt) (name : String) : Prop := ∃ d, s.Exposes d ∧ d.name = name

end Stmt

def Function.resolution (f : Function) : Resolution Function :=
  Resolution.inFunction f do return { f with body := ← f.body.resolution }

namespace Resolution

variable {α β : Type} {r : Resolver}

theorem runOn_bind (x : Resolution α) (f : α → Resolution β) : runOn (x >>= f) r =
    match x.runOn r with
    | (.ok a, r) => (f a).runOn r
    | (.error d, r) => (.error d, r) := by
  show (match x r with | (a, r) => ExceptT.bindCont f a r : Except Defect β × Resolver) = _
  unfold runOn
  rcases x r with ⟨_ | _, _⟩ <;> rfl

theorem runOn_finally (x : Resolution α) (close : Resolution Unit) :
    runOn (try x finally close) r =
      match close.runOn (x.runOn r).2 with
      | (.ok (), r') => ((x.runOn r).1, r')
      | (.error d, r') => (.error d, r') := by
  rcases hx : x r with ⟨_ | _, r'⟩ <;> rcases hclose : close r' with ⟨_ | _, _⟩
  all_goals
    simp only [runOn, tryFinally, tryFinally', ExceptT.mk, Functor.map, ExceptT.map, bind,
      StateT.bind, hx, hclose]
    rfl

end Resolution

structure Checker.Extends (c c' : Checker) : Prop where
  functions : c'.functions = c.functions
  diagnostics : c.engine.recorded <+: c'.engine.recorded

namespace Checker

variable {c c' c'' : Checker}

theorem Extends.refl (c : Checker) : c.Extends c := ⟨rfl, List.prefix_refl _⟩

theorem Extends.trans (h : c.Extends c') (h' : c'.Extends c'') : c.Extends c'' :=
  ⟨h'.functions.trans h.functions, h.diagnostics.trans h'.diagnostics⟩

theorem extends_reportAll (c : Checker) (rs : List Report) : c.Extends (c.reportAll rs) :=
  ⟨rfl, ⟨_, (Engine.recorded_reportAll c.engine rs).symm⟩⟩

theorem extends_settle (c : Checker) (t : Target) (a : RawAttr) (specifiers : Range)
    (v : Verdict) : c.Extends (c.settle t a specifiers v).2 := by
  cases v with
  | keep attr => exact .refl c
  | reject why => exact c.extends_reportAll [why.report t a specifiers]
  | malformed => exact .refl c

theorem extends_checkOne (c : Checker) (t : Target) (a : RawAttr) (specifiers : Range) :
    c.Extends (c.checkOne t a specifiers).2 :=
  have hlog : c.Extends (c.log (a.events t c.config.strictLoopOptions)) := ⟨rfl, List.prefix_refl _⟩
  hlog.trans (extends_settle _ t a specifiers _)

theorem extends_checkEach {check : Checker → RawAttr → Except Defect (Option Attr) × Checker}
    (h : ∀ (c : Checker) (a : RawAttr), c.Extends (check c a).2) (as : List RawAttr) (c : Checker) :
    c.Extends (checkEach check as c).2 := by
  induction as generalizing c with
  | nil => exact .refl c
  | cons a as ih =>
    have ha := h c a
    unfold checkEach
    generalize check c a = first at ha ⊢
    obtain ⟨_ | kept, c'⟩ := first
    · exact ha
    · have hrest := ha.trans (ih c')
      dsimp only
      generalize checkEach check as c' = rest at hrest ⊢
      obtain ⟨_ | rest, c''⟩ := rest <;> exact hrest

theorem extends_process (c : Checker) (t : Target) (attrs : List RawAttr) (specifiers : Range) :
    c.Extends (c.process t attrs specifiers).2 := by
  have heach := extends_checkEach (fun c a => c.extends_checkOne t a specifiers) attrs c
  unfold process
  generalize checkEach (fun c a => c.checkOne t a specifiers) attrs c = each at heach ⊢
  obtain ⟨_ | kept, c'⟩ := each
  · exact heach
  · exact heach.trans (c'.extends_reportAll _)

end Checker

/-- The resolver has the same functions, switches and scopes open, and only more reports,
attributes and, in the innermost scope, some of the names. The scope of the file is always open, so
that there is an innermost one. -/
structure Resolver.Extends (names : String → Prop) (r r' : Resolver) : Prop where
  checker : r.checker.Extends r'.checker
  attributes : r.attributes <+: r'.attributes
  scopes : ∀ scope outer, r.scopes = scope :: outer →
    ∃ added : Scope, r'.scopes = (added ++ scope) :: outer ∧ ∀ x ∈ added, names x.1

namespace Resolver

variable {names names' : String → Prop} {r r' r'' : Resolver}

theorem Extends.of_scopes_eq (hc : r.checker.Extends r'.checker)
    (ha : r.attributes <+: r'.attributes) (hs : r'.scopes = r.scopes) : r.Extends names r' :=
  ⟨hc, ha, fun _ _ h => ⟨[], hs.trans h, nofun⟩⟩

theorem Extends.refl (r : Resolver) : r.Extends names r :=
  .of_scopes_eq (.refl _) (List.prefix_refl _) rfl

theorem Extends.trans (h : r.Extends names r') (h' : r'.Extends names r'') :
    r.Extends names r'' := by
  refine ⟨h.checker.trans h'.checker, h.attributes.trans h'.attributes, fun scope outer hr => ?_⟩
  obtain ⟨added, hscopes, hadded⟩ := h.scopes scope outer hr
  obtain ⟨later, hscopes', hlater⟩ := h'.scopes _ outer hscopes
  refine ⟨later ++ added, by rw [hscopes', List.append_assoc], fun x hx => ?_⟩
  exact (List.mem_append.mp hx).elim (hlater x) (hadded x)

theorem Extends.mono (h : r.Extends names r') (hn : ∀ n, names n → names' n) :
    r.Extends names' r' := by
  refine ⟨h.checker, h.attributes, fun scope outer hr => ?_⟩
  obtain ⟨added, hscopes, hadded⟩ := h.scopes scope outer hr
  exact ⟨added, hscopes, fun x hx => hn _ (hadded x hx)⟩

theorem Extends.scopes_leaveScope {scope : Scope} (h : (r.enterScope scope).Extends names r') :
    r'.leaveScope.scopes = r.scopes := by
  obtain ⟨added, hscopes, _⟩ := h.scopes scope r.scopes rfl
  rw [leaveScope, hscopes, List.tail_cons]

theorem extends_declare (r : Resolver) (d : VarDecl) : r.Extends (· = d.name) (r.declare d) := by
  refine ⟨.refl _, List.prefix_refl _, fun scope outer hr => ?_⟩
  refine ⟨[(d.name, d.binding r.scopes)], ?_, by simp⟩
  rw [declare, Scopes.declareVar, hr]
  rfl

def withFunctions (r : Resolver) (fs : List FunctionScope) : Resolver :=
  { r with checker := { r.checker with functions := fs } }

theorem Extends.withFunctions {fs : List FunctionScope}
    (h : (r.withFunctions fs).Extends names r') :
    r.Extends names (r'.withFunctions r.checker.functions) :=
  ⟨⟨rfl, h.checker.diagnostics⟩, h.attributes, h.scopes⟩

theorem enterSwitch_eq_ok {l : Loc} (h : r.enterSwitch l = .ok r') :
    ∃ f fs, r.checker.functions = f :: fs ∧
      r' = r.withFunctions ({ f with switches := l :: f.switches } :: fs) := by
  obtain ⟨⟨config, engine, functions, events⟩, scopes, attributes⟩ := r
  cases functions with
  | nil => cases h
  | cons f fs =>
    cases h
    exact ⟨f, fs, rfl, rfl⟩

theorem leaveSwitch_of_enterSwitch {l : Loc} (h : r.enterSwitch l = .ok r')
    (hf : r''.checker.functions = r'.checker.functions) :
    r''.leaveSwitch = .ok (r''.withFunctions r.checker.functions) := by
  obtain ⟨f, fs, hr, rfl⟩ := enterSwitch_eq_ok h
  change r''.checker.functions = { f with switches := l :: f.switches } :: fs at hf
  simp only [leaveSwitch, Checker.popSwitch, hf, hr]
  rfl

end Resolver

namespace Resolution

variable {α β : Type} {names : String → Prop} {x : Resolution α}

def Extends (names : String → Prop) (x : Resolution α) : Prop :=
  ∀ r : Resolver, r.Extends names (x.runOn r).2

theorem Extends.mono {names' : String → Prop} (h : x.Extends names)
    (hn : ∀ n, names n → names' n) : x.Extends names' := fun r => (h r).mono hn

theorem extends_pure (a : α) : (pure a : Resolution α).Extends names := fun r => .refl r

theorem Extends.bind {f : α → Resolution β} (hx : x.Extends names)
    (hf : ∀ a, (f a).Extends names) : (x >>= f).Extends names := by
  intro r
  have hr := hx r
  rw [runOn_bind]
  generalize x.runOn r = first at hr ⊢
  obtain ⟨_ | a, r'⟩ := first
  · exact hr
  · exact hr.trans (hf a r')

theorem runOn_between {enter leave : Resolver → Except Defect Resolver} {r r' r'' : Resolver}
    (he : enter r = .ok r') (hl : leave (x.runOn r').2 = .ok r'') :
    (between enter leave x).runOn r = ((x.runOn r').1, r'') := by
  have hopen : (attempt enter).runOn r = (.ok (), r') := by rw [runOn, attempt, he]
  have hclose : (attempt leave).runOn (x.runOn r').2 = (.ok (), r'') := by rw [runOn, attempt, hl]
  rw [between, runOn_bind, hopen]
  dsimp only
  rw [runOn_finally, hclose]

theorem runOn_between_of_error {enter leave : Resolver → Except Defect Resolver} {r : Resolver}
    {d : Defect} (h : enter r = .error d) : (between enter leave x).runOn r = (.error d, r) := by
  rw [between, runOn_bind]
  simp only [runOn, attempt, h]

theorem runOn_inScope (scope : Scope) (x : Resolution α) (r : Resolver) :
    (inScope scope x).runOn r =
      ((x.runOn (r.enterScope scope)).1, (x.runOn (r.enterScope scope)).2.leaveScope) :=
  runOn_between rfl rfl

theorem Extends.scopes_inScope (hx : x.Extends names) (scope : Scope) (r : Resolver) :
    ((inScope scope x).runOn r).2.scopes = r.scopes := by
  rw [runOn_inScope]
  exact (hx _).scopes_leaveScope

theorem Extends.inScope {names' : String → Prop} (hx : x.Extends names) (scope : Scope) :
    (inScope scope x).Extends names' := by
  intro r
  have hscopes := hx.scopes_inScope scope r
  have hr := hx (r.enterScope scope)
  rw [runOn_inScope] at hscopes ⊢
  exact .of_scopes_eq hr.checker hr.attributes hscopes

theorem Extends.runOn_inSwitch {r r' : Resolver} {l : Loc} (hx : x.Extends names)
    (h : r.enterSwitch l = .ok r') : (inSwitch l x).runOn r =
      ((x.runOn r').1, (x.runOn r').2.withFunctions r.checker.functions) :=
  runOn_between h (Resolver.leaveSwitch_of_enterSwitch h (hx r').checker.functions)

theorem Extends.inSwitch (hx : x.Extends names) (l : Loc) : (inSwitch l x).Extends names := by
  intro r
  cases h : r.enterSwitch l with
  | error d =>
    rw [Resolution.inSwitch, runOn_between_of_error h]
    exact .refl r
  | ok r' =>
    rw [hx.runOn_inSwitch h]
    obtain ⟨f, fs, _, rfl⟩ := Resolver.enterSwitch_eq_ok h
    exact (hx _).withFunctions

theorem Extends.runOn_inFunction (hx : x.Extends names) (f : Function) (r : Resolver) :
    (inFunction f x).runOn r = ((x.runOn (r.enterFunction f)).1,
      ((x.runOn (r.enterFunction f)).2.withFunctions r.checker.functions).leaveScope) := by
  have hclose : (x.runOn (r.enterFunction f)).2.closeFunction =
      .ok ((x.runOn (r.enterFunction f)).2.withFunctions r.checker.functions) := by
    rw [Resolver.closeFunction, Checker.popFunction, (hx (r.enterFunction f)).checker.functions]
    rfl
  have hbetween : (between (fun r => .ok (r.openFunction f.name)) Resolver.closeFunction x).runOn
      (r.enterScope f.scope) = ((x.runOn (r.enterFunction f)).1,
        (x.runOn (r.enterFunction f)).2.withFunctions r.checker.functions) :=
    runOn_between rfl hclose
  rw [inFunction, runOn_inScope, hbetween]

theorem Extends.scopes_inFunction (hx : x.Extends names) (f : Function) (r : Resolver) :
    ((inFunction f x).runOn r).2.scopes = r.scopes := by
  have hr := (hx (r.enterFunction f)).withFunctions (r := r.enterScope f.scope)
  rw [hx.runOn_inFunction]
  exact hr.scopes_leaveScope

theorem Extends.inFunction {names' : String → Prop} (hx : x.Extends names) (f : Function) :
    (inFunction f x).Extends names' := by
  intro r
  have hscopes := hx.scopes_inFunction f r
  have hr := (hx (r.enterFunction f)).withFunctions (r := r.enterScope f.scope)
  rw [hx.runOn_inFunction] at hscopes ⊢
  exact .of_scopes_eq hr.checker hr.attributes hscopes

theorem extends_settle (s : Stmt) (attrs : List RawAttr) (specifiers : Range) :
    (settle s attrs specifiers).Extends names := by
  intro r
  have hprocess := r.checker.extends_process s.target (attrs.map (RawAttr.bound r.scopes))
    specifiers
  unfold runOn settle
  generalize r.checker.process s.target (attrs.map (RawAttr.bound r.scopes)) specifiers = result
    at hprocess ⊢
  obtain ⟨_ | kept, checker⟩ := result
  · exact .of_scopes_eq hprocess (List.prefix_refl _) rfl
  · exact .of_scopes_eq hprocess (List.prefix_append _ _) rfl

end Resolution

namespace Stmt

open Resolution

variable {s t : Stmt}

theorem Declares.of_child {n : String} (hs : s.opensScope = false) (ht : t ∈ s.children)
    (h : t.Declares n) : s.Declares n := by
  obtain ⟨d, hd, rfl⟩ := h
  exact ⟨d, .inside hs ht hd, rfl⟩

theorem extends_resolutionAll {names : String → Prop} (ss : List Stmt)
    (h : ∀ s ∈ ss, s.resolution.Extends names) : (resolutionAll ss).Extends names := by
  induction ss with
  | nil => exact extends_pure []
  | cons s ss ih =>
    have hss := ih fun t ht => h t (.tail _ ht)
    rw [resolutionAll]
    exact (h s (.head _)).bind fun s => hss.bind fun ss => extends_pure _

theorem exists_inScope (hs : s.opensScope = true)
    (ih : ∀ t ∈ s.children, t.resolution.Extends t.Declares) :
    ∃ scope, ∃ x : Resolution Stmt, s.resolution = inScope scope x ∧ x.Extends fun _ => True := by
  have hc : ∀ t ∈ s.children, t.resolution.Extends fun _ => True :=
    fun t ht => (ih t ht).mono fun _ _ => trivial
  cases s with
  | compound body l =>
    exact ⟨[], _, rfl, (extends_resolutionAll body hc).bind fun body => extends_pure _⟩
  | forLoop init c step body l =>
    have hbody := hc body (by simp [children])
    cases init with
    | none => exact ⟨[], _, rfl, hbody.bind fun body => extends_pure _⟩
    | some init =>
      have hinit := hc init (by simp [children])
      exact ⟨[], _, rfl, hinit.bind fun init => hbody.bind fun body => extends_pure _⟩
  | rangeFor var range body typeName l =>
    exact ⟨[(var, .runtime)], _, rfl, (hc body (.head _)).bind fun body => extends_pure _⟩
  | _ => cases hs

/-- What a statement leaves alone follows from what its children do. -/
theorem extends_resolution (s : Stmt) : s.resolution.Extends s.Declares := by
  induction s using childInduction with
  | h s ih =>
    have hc (hs : s.opensScope = false) : ∀ t ∈ s.children, t.resolution.Extends s.Declares :=
      fun t ht => (ih t ht).mono fun n hn => hn.of_child hs ht
    cases s with
    | null | expr | ret | brk | cont => exact extends_pure _
    | decl d =>
      refine Extends.bind (fun r => ?_) fun _ => extends_pure _
      exact (r.extends_declare d).mono fun n hn => ⟨d, .self d, hn.symm⟩
    | compound | forLoop | rangeFor =>
      obtain ⟨scope, x, hx, hextends⟩ := exists_inScope rfl ih
      exact hx ▸ hextends.inScope scope
    | ifElse c yes no l =>
      have hyes := hc rfl yes (.head _)
      cases no with
      | none => exact hyes.bind fun yes => extends_pure _
      | some no =>
        have hno := hc rfl no (by simp [children])
        exact hyes.bind fun yes => hno.bind fun no => extends_pure _
    | switch c body l => exact ((hc rfl body (.head _)).bind fun body => extends_pure _).inSwitch l
    | annotated attrs sub range l =>
      exact (hc rfl sub (.head _)).bind fun sub => extends_settle sub attrs range
    | caseLabel | defaultLabel | whileLoop | doWhile | attributed =>
      exact (hc rfl _ (.head _)).bind fun sub => extends_pure _

theorem scopes_resolution (hs : s.opensScope = true) (r : Resolver) :
    (s.resolution.runOn r).2.scopes = r.scopes := by
  obtain ⟨scope, x, hx, hextends⟩ := exists_inScope hs fun t _ => t.extends_resolution
  rw [hx]
  exact hextends.scopes_inScope scope r

end Stmt

namespace Resolution

variable {α β : Type} {names : String → Prop} {x : Resolution α}

theorem runOn_of_outcome {r r' : Resolver} {a : α} (h : x.outcome r = .ok (a, r')) :
    x.runOn r = (.ok a, r') := by
  unfold outcome at h
  generalize x.runOn r = run at h ⊢
  obtain ⟨_ | b, r''⟩ := run
  · cases h
  · cases h
    rfl

theorem outcome_pure (a : α) (r : Resolver) : outcome (pure a) r = pure (a, r) := rfl

theorem outcome_bind (x : Resolution α) (f : α → Resolution β) (r : Resolver) :
    outcome (x >>= f) r = x.outcome r >>= fun p => (f p.1).outcome p.2 := by
  unfold outcome
  rw [runOn_bind]
  generalize x.runOn r = first
  obtain ⟨_ | a, r'⟩ := first <;> rfl

theorem outcome_inScope (scope : Scope) (x : Resolution α) (r : Resolver) :
    (inScope scope x).outcome r =
      x.outcome (r.enterScope scope) >>= fun p => pure (p.1, p.2.leaveScope) := by
  unfold outcome
  rw [runOn_inScope]
  generalize x.runOn (r.enterScope scope) = inner
  obtain ⟨_ | a, r'⟩ := inner <;> rfl

theorem outcome_inSwitch (hx : x.Extends names) (l : Loc) (r : Resolver) :
    (inSwitch l x).outcome r = r.enterSwitch l >>= fun r => x.outcome r >>= fun p =>
      p.2.leaveSwitch >>= fun r => pure (p.1, r) := by
  unfold outcome
  cases h : r.enterSwitch l with
  | error d =>
    rw [inSwitch, runOn_between_of_error h]
    rfl
  | ok r' =>
    have hclose := Resolver.leaveSwitch_of_enterSwitch h (hx r').checker.functions
    rw [hx.runOn_inSwitch h]
    show _ = ((x.runOn r').1.map (·, (x.runOn r').2) >>= _)
    generalize x.runOn r' = inner at hclose ⊢
    obtain ⟨_ | a, r''⟩ := inner
    · rfl
    · show _ = (r''.leaveSwitch >>= _)
      rw [hclose]
      rfl

theorem outcome_inFunction (hx : x.Extends names) (f : Function) (r : Resolver) :
    (inFunction f x).outcome r = x.outcome (r.enterFunction f) >>= fun p =>
      p.2.leaveFunction >>= fun r => pure (p.1, r) := by
  have hclose : (x.runOn (r.enterFunction f)).2.leaveFunction = .ok
      ((x.runOn (r.enterFunction f)).2.withFunctions r.checker.functions).leaveScope := by
    rw [Resolver.leaveFunction, Checker.popFunction, (hx (r.enterFunction f)).checker.functions]
    rfl
  unfold outcome
  rw [hx.runOn_inFunction]
  generalize x.runOn (r.enterFunction f) = inner at hclose ⊢
  obtain ⟨_ | a, r''⟩ := inner
  · rfl
  · show _ = (r''.leaveFunction >>= _)
    rw [hclose]
    rfl

theorem outcome_settle (s : Stmt) (attrs : List RawAttr) (specifiers : Range) (r : Resolver) :
    (settle s attrs specifiers).outcome r = r.settle s attrs specifiers := by
  unfold outcome runOn settle Resolver.settle
  generalize r.checker.process s.target (attrs.map (RawAttr.bound r.scopes)) specifiers = result
  obtain ⟨_ | kept, checker⟩ := result <;> rfl

end Resolution

namespace Stmt

open Resolution

theorem outcome_resolutionAll (ss : List Stmt)
    (h : ∀ s ∈ ss, ∀ r, s.resolution.outcome r = s.resolve r) (r : Resolver) :
    (resolutionAll ss).outcome r = resolveAll r ss := by
  induction ss generalizing r with
  | nil => rfl
  | cons s ss ih =>
    have hss := ih fun t ht => h t (.tail _ ht)
    simp only [resolutionAll, resolveAll, outcome_bind, outcome_pure, h s (.head _), hss]

/-- Where a run fails, resolving fails the same way; else it leaves the resolver the same way. -/
theorem outcome_resolution (s : Stmt) (r : Resolver) : s.resolution.outcome r = s.resolve r := by
  induction s using childInduction generalizing r with
  | h s ih =>
    cases s with
    | null | expr | ret | brk | cont | decl => rfl
    | compound body l =>
      have hbody := outcome_resolutionAll body ih
      simp only [resolution, resolve, outcome_inScope, outcome_bind, outcome_pure, hbody,
        bind_assoc, pure_bind]
    | ifElse c yes no l =>
      have hyes := ih yes (.head _)
      cases no with
      | none => simp only [resolution, resolve, outcome_bind, outcome_pure, hyes]
      | some no =>
        have hno := ih no (by simp [children])
        simp only [resolution, resolve, outcome_bind, outcome_pure, hyes, hno]
    | switch c body l =>
      have hbody := ih body (.head _)
      have hextends : (do return switch c (← body.resolution) l : Resolution Stmt).Extends
          body.Declares := body.extends_resolution.bind fun _ => extends_pure _
      simp only [resolution, resolve, outcome_inSwitch hextends, outcome_bind, outcome_pure, hbody,
        bind_assoc, pure_bind]
    | forLoop init c step body l =>
      have hbody := ih body (by simp [children])
      cases init with
      | none =>
        simp only [resolution, resolve, outcome_inScope, outcome_bind, outcome_pure, hbody,
          bind_assoc, pure_bind]
      | some init =>
        have hinit := ih init (by simp [children])
        simp only [resolution, resolve, outcome_inScope, outcome_bind, outcome_pure, hinit, hbody,
          bind_assoc, pure_bind]
    | rangeFor var range body typeName l =>
      have hbody := ih body (.head _)
      simp only [resolution, resolve, outcome_inScope, outcome_bind, outcome_pure, hbody,
        bind_assoc, pure_bind]
    | annotated attrs sub range l =>
      have hsub := ih sub (.head _)
      simp only [resolution, resolve, outcome_bind, outcome_settle, hsub]
    | caseLabel | defaultLabel | whileLoop | doWhile | attributed =>
      have hsub := ih _ (.head _)
      simp only [resolution, resolve, outcome_bind, outcome_pure, hsub]

end Stmt

namespace Function

open Resolution

variable (f : Function)

theorem exists_inFunction : ∃ (names : String → Prop) (x : Resolution Function),
    f.resolution = inFunction f x ∧ x.Extends names :=
  ⟨_, _, rfl, f.body.extends_resolution.bind fun _ => extends_pure _⟩

theorem extends_resolution : f.resolution.Extends fun _ => False := by
  obtain ⟨names, x, hx, hextends⟩ := f.exists_inFunction
  exact hx ▸ hextends.inFunction f

theorem scopes_resolution (r : Resolver) : (f.resolution.runOn r).2.scopes = r.scopes := by
  obtain ⟨names, x, hx, hextends⟩ := f.exists_inFunction
  rw [hx]
  exact hextends.scopes_inFunction f r

theorem outcome_resolution (r : Resolver) : f.resolution.outcome r = f.resolve r := by
  have hextends : (do return { f with body := ← f.body.resolution } : Resolution Function).Extends
      f.body.Declares := f.body.extends_resolution.bind fun _ => extends_pure _
  rw [resolution, outcome_inFunction hextends]
  simp only [outcome_bind, outcome_pure, Stmt.outcome_resolution, resolve, bind_assoc, pure_bind]

end Function

/-- Whatever the resolver has open, and however the run ends, a statement of an accepted text leaves
the functions, the switches and the scopes as they were, but for names in the innermost scope that
the statement declares outside of its blocks. Reports and attributes are only added. -/
theorem resolution_frame {file text : String} {u : SourceUnit} (h : parse file text = .ok u)
    (r : Resolver) :
    (∀ s ∈ u.stmts,
      s.resolve r = s.resolution.outcome r ∧
      (r.checker.functions ≠ [] → ∃ s', (s.resolution.runOn r).1 = .ok s') ∧
      r.Extends s.Declares (s.resolution.runOn r).2 ∧
      (s.opensScope → (s.resolution.runOn r).2.scopes = r.scopes)) ∧
    ∀ f ∈ u.functions,
      f.resolve r = f.resolution.outcome r ∧
      (∃ f', (f.resolution.runOn r).1 = .ok f') ∧
      r.Extends (fun _ => False) (f.resolution.runOn r).2 ∧
      (f.resolution.runOn r).2.scopes = r.scopes := by
  have hnames := (SourceUnit.asRead_of_parse h).namesOptions
  constructor
  · intro s hs
    obtain ⟨f, hf, hsf⟩ := List.mem_flatMap.mp hs
    have hs : s.NamesOptions := fun t ht =>
      hnames f hf t (Stmt.mem_preorder_trans (f.body.postorder_perm_preorder.mem_iff.mp hsf) ht)
    refine ⟨(s.outcome_resolution r).symm, fun hr => ?_, s.extends_resolution r,
      fun hopens => s.scopes_resolution hopens r⟩
    have hrun := Resolution.runOn_of_outcome ((s.outcome_resolution r).trans (hs.resolves r hr))
    exact ⟨_, congrArg Prod.fst hrun⟩
  · intro f hf
    have hrun := Resolution.runOn_of_outcome
      ((f.outcome_resolution r).trans (f.resolve_eq (hnames f hf) r))
    exact ⟨(f.outcome_resolution r).symm, ⟨_, congrArg Prod.fst hrun⟩, f.extends_resolution r,
      f.scopes_resolution r⟩

def labelledText : String :=
  "void f(int n) \x7b switch (n) \x7b case 1: int a; for (;;) int b; \x7d \x7d"

theorem resolution_frame_labelled : ∃ u, parse "a.cc" labelledText = .ok u ∧
    u.stmts.map Stmt.kind = [.decl, .caseLabel, .decl, .forLoop, .compound, .switch, .compound] ∧
    let r := (Resolver.new {}).openFunction "g"
    (∀ s ∈ u.stmts,
      s.resolve r = s.resolution.outcome r ∧
      (r.checker.functions ≠ [] → ∃ s', (s.resolution.runOn r).1 = .ok s') ∧
      r.Extends s.Declares (s.resolution.runOn r).2 ∧
      (s.opensScope → (s.resolution.runOn r).2.scopes = r.scopes)) ∧
    ∀ f ∈ u.functions,
      f.resolve r = f.resolution.outcome r ∧
      (∃ f', (f.resolution.runOn r).1 = .ok f') ∧
      r.Extends (fun _ => False) (f.resolution.runOn r).2 ∧
      (f.resolution.runOn r).2.scopes = r.scopes := by
  have hread : ∃ u ∈ (parse "a.cc" labelledText).toOption, u.stmts.map Stmt.kind =
      [.decl, .caseLabel, .decl, .forLoop, .compound, .switch, .compound] := by
    decide +kernel
  obtain ⟨u, hu, hkinds⟩ := hread
  have hp := ok_of_mem_toOption hu
  exact ⟨u, hp, hkinds, resolution_frame hp _⟩

end AttrCheck
