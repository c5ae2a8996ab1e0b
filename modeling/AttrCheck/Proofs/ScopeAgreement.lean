import AttrCheck.Proofs.Resolution

/-! Scopes in which every name means the same. What is found in a statement depends on the scopes
around it through the meanings of names alone, so scopes that agree give the same findings. -/

namespace AttrCheck

namespace Scopes

def Agree (sc sc' : Scopes) : Prop := ∀ name, sc.find? name = sc'.find? name

variable {sc sc' : Scopes}

theorem Agree.refl (sc : Scopes) : sc.Agree sc := fun _ => rfl

theorem find?_cons (scope : Scope) (outer : Scopes) (name : String) :
    find? (scope :: outer) name = (scope.lookup name).or (outer.find? name) := by
  rw [find?, List.findSome?_cons]
  cases scope.lookup name <;> rfl

theorem Agree.cons (h : sc.Agree sc') (scope : Scope) : Agree (scope :: sc) (scope :: sc') := by
  intro name
  rw [find?_cons, find?_cons, h name]

theorem agree_cons_nil (sc : Scopes) : Agree sc ([] :: sc) := by
  intro name
  rw [find?_cons]
  rfl

theorem find?_declare (sc : Scopes) (n : String) (b : Binding) (name : String) :
    (sc.declare n b).find? name = if name = n then some b else sc.find? name := by
  have hlookup (scope : Scope) : List.lookup name ((n, b) :: scope) =
      if name = n then some b else scope.lookup name := by
    by_cases hn : name = n
    · simp [hn]
    · have hne : (name == n) = false := beq_false_of_ne hn
      simp [List.lookup_cons, hne, hn]
  cases sc with
  | nil =>
    rw [declare, find?_cons, hlookup]
    split <;> rfl
  | cons scope outer =>
    rw [declare, find?_cons, hlookup, find?_cons]
    split <;> rfl

theorem Agree.declare (h : sc.Agree sc') (n : String) (b : Binding) :
    (sc.declare n b).Agree (sc'.declare n b) := by
  intro name
  rw [find?_declare, find?_declare, h name]

end Scopes

/-- A name where it is written, with what it means if nothing declares it. -/
abbrev Mention := String × Binding

def Scopes.meaning (sc : Scopes) (x : Mention) : Binding := (sc.find? x.1).getD x.2

namespace Expr

mutual

def mentions : Expr → List Mention
  | int _ _ _ | string _ _ => []
  | name n b _ => [(n, b)]
  | paren inner _ => inner.mentions
  | unary _ operand _ => operand.mentions
  | binary _ lhs rhs _ => lhs.mentions ++ rhs.mentions
  | conditional c yes no _ => c.mentions ++ (yes.mentions ++ no.mentions)
  | call callee args _ => callee.mentions ++ mentionsAll args
  | assign _ target value _ => target.mentions ++ value.mentions

def mentionsAll : List Expr → List Mention
  | [] => []
  | e :: es => e.mentions ++ mentionsAll es

end

variable {sc sc' : Scopes}

mutual

theorem bound_eq_of_mentions (e : Expr) (h : ∀ x ∈ e.mentions, sc.meaning x = sc'.meaning x) :
    e.bound sc = e.bound sc' := by
  cases e with
  | int | string => rfl
  | name n b l =>
    have hmeaning : (sc.find? n).getD b = (sc'.find? n).getD b := h (n, b) (.head _)
    rw [bound, bound, hmeaning]
  | paren inner l => rw [bound, bound, inner.bound_eq_of_mentions h]
  | unary op operand l => rw [bound, bound, operand.bound_eq_of_mentions h]
  | binary op lhs rhs l =>
    obtain ⟨hl, hr⟩ := List.forall_mem_append.mp h
    rw [bound, bound, lhs.bound_eq_of_mentions hl, rhs.bound_eq_of_mentions hr]
  | conditional c yes no l =>
    obtain ⟨hc, h⟩ := List.forall_mem_append.mp h
    obtain ⟨hyes, hno⟩ := List.forall_mem_append.mp h
    rw [bound, bound, c.bound_eq_of_mentions hc, yes.bound_eq_of_mentions hyes,
      no.bound_eq_of_mentions hno]
  | call callee args l =>
    obtain ⟨hcallee, hargs⟩ := List.forall_mem_append.mp h
    rw [bound, bound, callee.bound_eq_of_mentions hcallee, boundAll_eq_of_mentions args hargs]
  | assign op target value l =>
    obtain ⟨htarget, hvalue⟩ := List.forall_mem_append.mp h
    rw [bound, bound, target.bound_eq_of_mentions htarget, value.bound_eq_of_mentions hvalue]

theorem boundAll_eq_of_mentions (es : List Expr)
    (h : ∀ x ∈ mentionsAll es, sc.meaning x = sc'.meaning x) : boundAll sc es = boundAll sc' es := by
  cases es with
  | nil => rfl
  | cons e es =>
    obtain ⟨he, hes⟩ := List.forall_mem_append.mp h
    rw [boundAll, boundAll, e.bound_eq_of_mentions he, boundAll_eq_of_mentions es hes]

end

end Expr

namespace RawAttr

def mentions (a : RawAttr) : List Mention :=
  a.args.flatMap fun
    | some (.expr e) => e.mentions
    | _ => []

variable {sc sc' : Scopes}

theorem bound_eq_of_mentions (a : RawAttr) (h : ∀ x ∈ a.mentions, sc.meaning x = sc'.meaning x) :
    a.bound sc = a.bound sc' := by
  have hargs : a.args.map (Option.map (Arg.bound sc)) = a.args.map (Option.map (Arg.bound sc')) := by
    refine List.map_congr_left fun arg harg => ?_
    match arg, harg with
    | none, _ | some (.ident _), _ => rfl
    | some (.expr e), harg =>
      have he : e.bound sc = e.bound sc' := e.bound_eq_of_mentions fun x hx =>
        h x (List.mem_flatMap.mpr ⟨_, harg, hx⟩)
      rw [Option.map_some, Option.map_some, Arg.bound, Arg.bound, he]
  rw [bound, bound, hargs]

end RawAttr

section Agreement

variable {sc sc' : Scopes} (h : sc.Agree sc')
include h

theorem Scopes.Agree.meaning (x : Mention) : sc.meaning x = sc'.meaning x := by
  rw [Scopes.meaning, Scopes.meaning, h x.1]

theorem Expr.bound_congr (e : Expr) : e.bound sc = e.bound sc' :=
  e.bound_eq_of_mentions fun x _ => h.meaning x

theorem RawAttr.bound_congr (a : RawAttr) : a.bound sc = a.bound sc' :=
  a.bound_eq_of_mentions fun x _ => h.meaning x

theorem VarDecl.binding_congr (d : VarDecl) : d.binding sc = d.binding sc' := by
  have hinit : (fun e : Expr => (e.bound sc).constant?) = fun e => (e.bound sc').constant? := by
    funext e
    rw [e.bound_congr h]
  rw [binding, binding, hinit]

theorem Scopes.Agree.declareVar (d : VarDecl) : (sc.declareVar d).Agree (sc'.declareVar d) := by
  rw [Scopes.declareVar, Scopes.declareVar, d.binding_congr h]
  exact h.declare d.name (d.binding sc')

end Agreement

namespace Setting

structure Agree (st st' : Setting) : Prop where
  strict : st.strict = st'.strict
  inSwitch : st.inSwitch = st'.inSwitch
  scopes : st.scopes.Agree st'.scopes

namespace Agree

variable {st st' : Setting}

theorem refl (st : Setting) : st.Agree st := ⟨rfl, rfl, .refl st.scopes⟩

theorem enter (h : st.Agree st') (scope : Scope) : (st.enter scope).Agree (st'.enter scope) :=
  ⟨h.strict, h.inSwitch, h.scopes.cons scope⟩

theorem enterSwitch (h : st.Agree st') : st.enterSwitch.Agree st'.enterSwitch :=
  ⟨h.strict, rfl, h.scopes⟩

theorem enter_nil (h : st.Agree st') : st.Agree (st'.enter []) :=
  ⟨h.strict, h.inSwitch, fun name => (h.scopes name).trans (Scopes.agree_cons_nil _ name)⟩

end Agree

end Setting

namespace Site

def findings (s : Site) : List Attr × List Report := (s.kept, s.reports)

theorem findings_of_bound (attrs : List RawAttr) (range : Range) (t : Target) {st st' : Setting}
    (hstrict : st.strict = st'.strict) (hin : st.inSwitch = st'.inSwitch)
    (h : ∀ a ∈ attrs, a.bound st.scopes = a.bound st'.scopes) :
    findings ⟨attrs, range, t, st⟩ = findings ⟨attrs, range, t, st'⟩ := by
  have hbound : bound ⟨attrs, range, t, st⟩ = bound ⟨attrs, range, t, st'⟩ :=
    List.map_congr_left h
  have hverdict : verdict ⟨attrs, range, t, st⟩ = verdict ⟨attrs, range, t, st'⟩ := by
    funext a
    show a.verdict t st.inSwitch st.strict = a.verdict t st'.inSwitch st'.strict
    rw [hin, hstrict]
  simp only [findings, reports, rejections, kept, hbound, hverdict]

theorem findings_congr (attrs : List RawAttr) (range : Range) (t : Target) {st st' : Setting}
    (h : st.Agree st') : findings ⟨attrs, range, t, st⟩ = findings ⟨attrs, range, t, st'⟩ :=
  findings_of_bound attrs range t h.strict h.inSwitch fun a _ => a.bound_congr h.scopes

end Site

namespace Stmt

def SitesAgree (s t : Stmt) : Prop := ∀ ⦃st st' : Setting⦄, st.Agree st' →
  (s.sites st).map Site.findings = (t.sites st').map Site.findings

def ScopesAgree (s t : Stmt) : Prop := ∀ ⦃sc sc' : Scopes⦄, sc.Agree sc' →
  (s.scopesAfter sc).Agree (t.scopesAfter sc')

def TargetsAgree (s t : Stmt) : Prop := ∀ ⦃st st' : Setting⦄, st.Agree st' →
  (s.resolved st).target = (t.resolved st').target

structure Agrees (s t : Stmt) : Prop where
  sites : s.SitesAgree t
  scopes : s.ScopesAgree t
  target : s.TargetsAgree t

variable {s t : Stmt}

theorem ScopesAgree.after (h : s.ScopesAgree t) {st st' : Setting} (hst : st.Agree st') :
    (st.after s).Agree (st'.after t) := ⟨hst.strict, hst.inSwitch, h hst.scopes⟩

theorem agrees_leaf (hsites : ∀ st, s.sites st = []) (hscopes : s.ScopesAgree s)
    (hresolved : ∀ st, s.resolved st = s) : s.Agrees s := by
  refine ⟨fun st st' _ => ?_, hscopes, fun st st' _ => ?_⟩
  · rw [hsites, hsites]
  · rw [hresolved, hresolved]

theorem sitesAll_agree {ss ts : List Stmt} (h : List.Forall₂ Agrees ss ts) {st st' : Setting}
    (hst : st.Agree st') :
    (sitesAll st ss).map Site.findings = (sitesAll st' ts).map Site.findings := by
  induction h generalizing st st' with
  | nil => rfl
  | cons h _ ih =>
    rw [sitesAll, sitesAll, List.map_append, List.map_append, h.sites hst, ih (h.scopes.after hst)]

/-! Statements made of statements that agree. -/

theorem agrees_compound {ss ts : List Stmt} (h : List.Forall₂ Agrees ss ts) (l : Loc) :
    (compound ss l).Agrees (compound ts l) := by
  refine ⟨fun st st' hst => ?_, fun sc sc' hsc => hsc, fun st st' _ => rfl⟩
  rw [sites, sites]
  exact sitesAll_agree h (hst.enter [])

theorem agrees_if (hsites : s.SitesAgree t) (hscopes : s.ScopesAgree t) (c : Expr) (l : Loc) :
    (ifElse c s none l).Agrees (ifElse c t none l) := by
  refine ⟨fun st st' hst => ?_, fun sc sc' hsc => ?_, fun st st' _ => rfl⟩
  · rw [sites, sites]
    exact hsites hst
  · rw [scopesAfter, scopesAfter]
    exact hscopes hsc

theorem agrees_ifElse {no no' : Stmt} (hsites : s.SitesAgree t) (hscopes : s.ScopesAgree t)
    (hsites' : no.SitesAgree no') (hscopes' : no.ScopesAgree no') (c : Expr) (l : Loc) :
    (ifElse c s (some no) l).Agrees (ifElse c t (some no') l) := by
  refine ⟨fun st st' hst => ?_, fun sc sc' hsc => ?_, fun st st' _ => rfl⟩
  · rw [sites, sites, List.map_append, List.map_append, hsites hst, hsites' (hscopes.after hst)]
  · rw [scopesAfter, scopesAfter]
    exact hscopes' (hscopes hsc)

theorem agrees_switch (hsites : s.SitesAgree t) (hscopes : s.ScopesAgree t) (c : Expr) (l : Loc) :
    (switch c s l).Agrees (switch c t l) := by
  refine ⟨fun st st' hst => ?_, fun sc sc' hsc => ?_, fun st st' _ => rfl⟩
  · rw [sites, sites]
    exact hsites hst.enterSwitch
  · rw [scopesAfter, scopesAfter]
    exact hscopes hsc

theorem agrees_for (hsites : s.SitesAgree t) (c step : Option Expr) (l : Loc) :
    (forLoop none c step s l).Agrees (forLoop none c step t l) := by
  refine ⟨fun st st' hst => ?_, fun sc sc' hsc => hsc, fun st st' _ => rfl⟩
  rw [sites, sites]
  exact hsites (hst.enter [])

theorem agrees_forInit {init init' : Stmt} (hinit : init.Agrees init') (hsites : s.SitesAgree t)
    (c step : Option Expr) (l : Loc) :
    (forLoop (some init) c step s l).Agrees (forLoop (some init') c step t l) := by
  refine ⟨fun st st' hst => ?_, fun sc sc' hsc => hsc, fun st st' _ => rfl⟩
  rw [sites, sites, List.map_append, List.map_append, hinit.sites (hst.enter []),
    hsites (hinit.scopes.after (hst.enter []))]

theorem agrees_rangeFor (hsites : s.SitesAgree t) (var : String) (range : Expr)
    (typeName : String) (l : Loc) :
    (rangeFor var range s typeName l).Agrees (rangeFor var range t typeName l) := by
  refine ⟨fun st st' hst => ?_, fun sc sc' hsc => hsc, fun st st' _ => rfl⟩
  rw [sites, sites]
  exact hsites (hst.enter [(var, .runtime)])

theorem agrees_around {m : Stmt → Stmt} (hsites : s.SitesAgree t) (hscopes : s.ScopesAgree t)
    (hs : ∀ sub st, (m sub).sites st = sub.sites st)
    (ha : ∀ sub sc, (m sub).scopesAfter sc = sub.scopesAfter sc)
    (hr : ∀ sub sub' st st', ((m sub).resolved st).target = ((m sub').resolved st').target) :
    (m s).Agrees (m t) := by
  refine ⟨fun st st' hst => ?_, fun sc sc' hsc => ?_, fun st st' _ => hr s t st st'⟩
  · rw [hs, hs]
    exact hsites hst
  · rw [ha, ha]
    exact hscopes hsc

theorem agrees_annotated (h : s.Agrees t) (attrs : List RawAttr) (range : Range) (l : Loc) :
    (annotated attrs s range l).Agrees (annotated attrs t range l) := by
  have hlast {st st' : Setting} (hst : st.Agree st') :
      Site.findings ⟨attrs, range, (s.resolved st).target, st.after s⟩ =
        Site.findings ⟨attrs, range, (t.resolved st').target, st'.after t⟩ := by
    rw [h.target hst]
    exact Site.findings_congr attrs range _ (h.scopes.after hst)
  refine ⟨fun st st' hst => ?_, fun sc sc' hsc => ?_, fun st st' hst => ?_⟩
  · rw [sites, sites, List.map_append, List.map_append, h.sites hst, List.map_singleton,
      List.map_singleton, hlast hst]
  · rw [scopesAfter, scopesAfter]
    exact h.scopes hsc
  · have hkept := congrArg Prod.fst (hlast hst)
    change Site.kept ⟨attrs, range, _, _⟩ = Site.kept ⟨attrs, range, _, _⟩ at hkept
    rw [resolved, resolved, hkept, withAttrs, withAttrs]
    split
    · exact h.target hst
    · rfl

theorem Agrees.refl (s : Stmt) : s.Agrees s := by
  induction s using childInduction with
  | h s ih =>
    cases s with
    | null | expr | ret | brk | cont =>
      exact agrees_leaf (fun _ => rfl) (fun _ _ hsc => hsc) fun _ => rfl
    | decl d => exact agrees_leaf (fun _ => rfl) (fun _ _ hsc => hsc.declareVar d) fun _ => rfl
    | compound body l => exact agrees_compound (List.forall₂_same.mpr ih) l
    | ifElse c yes no l =>
      have hyes := ih yes (.head _)
      cases no with
      | none => exact agrees_if hyes.sites hyes.scopes c l
      | some no =>
        have hno := ih no (by simp [children])
        exact agrees_ifElse hyes.sites hyes.scopes hno.sites hno.scopes c l
    | switch c body l =>
      have hbody := ih body (.head _)
      exact agrees_switch hbody.sites hbody.scopes c l
    | forLoop init c step body l =>
      have hbody := ih body (by simp [children])
      cases init with
      | none => exact agrees_for hbody.sites c step l
      | some init => exact agrees_forInit (ih init (by simp [children])) hbody.sites c step l
    | rangeFor var range body typeName l =>
      exact agrees_rangeFor (ih body (.head _)).sites var range typeName l
    | annotated attrs sub range l => exact agrees_annotated (ih sub (.head _)) attrs range l
    | caseLabel value sub l =>
      have hsub := ih sub (.head _)
      exact agrees_around (m := (caseLabel value · l)) hsub.sites hsub.scopes
        (fun _ _ => rfl) (fun _ _ => rfl) fun _ _ _ _ => rfl
    | defaultLabel sub l =>
      have hsub := ih sub (.head _)
      exact agrees_around (m := (defaultLabel · l)) hsub.sites hsub.scopes
        (fun _ _ => rfl) (fun _ _ => rfl) fun _ _ _ _ => rfl
    | whileLoop c body l =>
      have hbody := ih body (.head _)
      exact agrees_around (m := (whileLoop c · l)) hbody.sites hbody.scopes
        (fun _ _ => rfl) (fun _ _ => rfl) fun _ _ _ _ => rfl
    | doWhile body c l =>
      have hbody := ih body (.head _)
      exact agrees_around (m := (doWhile · c l)) hbody.sites hbody.scopes
        (fun _ _ => rfl) (fun _ _ => rfl) fun _ _ _ _ => rfl
    | attributed attrs sub range l =>
      have hsub := ih sub (.head _)
      exact agrees_around (m := (attributed attrs · range l)) hsub.sites hsub.scopes
        (fun _ _ => rfl) (fun _ _ => rfl) fun _ _ _ _ => rfl

end Stmt

/-- The findings at the sites make up what a check reports and attaches. -/
theorem SourceUnit.checked_of_findings {u u' : SourceUnit} (config : Config)
    (h : (u.sites config.strictLoopOptions).map Site.findings =
      (u'.sites config.strictLoopOptions).map Site.findings) :
    (u.checked config).diagnostics = (u'.checked config).diagnostics ∧
      (u.checked config).attributes = (u'.checked config).attributes := by
  have hreports := congrArg (List.flatMap Prod.snd) h
  have hkept := congrArg (List.flatMap Prod.fst) h
  rw [List.flatMap_map, List.flatMap_map] at hreports hkept
  exact ⟨congrArg (fun rs => (config.engine.reportAll rs).recorded) hreports, hkept⟩

end AttrCheck
