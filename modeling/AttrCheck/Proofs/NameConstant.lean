import AttrCheck.Proofs.ConstantRange
import AttrCheck.Proofs.DeclaredType
import AttrCheck.Proofs.DependentCount

/-! What the names in a loop hint mean. The scopes of a check keep of a declaration only the value
that it gives; here the declarations themselves are kept. A name has a value just where the one that
is visible is `const` and its initializer has the value; any other name is decided by the run. -/

namespace AttrCheck

inductive Declared where
  /-- A variable, with the scopes that its initializer sees. -/
  | var (d : VarDecl) (seen : Scopes)
  | parameter
  | templateParameter
  /-- The variable of a loop over a range. -/
  | element

namespace Declared

def binding : Declared → Binding
  | var d seen => d.binding seen
  | parameter | element => .runtime
  | templateParameter => .templateParam

def IsConstant (x : Declared) (v : Int) : Prop :=
  ∃ d seen e, x = var d seen ∧ d.isConst = true ∧ d.init = some e ∧
    (e.bound seen).constant? = some v

variable {x : Declared} {v : Int}

theorem isConstant_iff : x.IsConstant v ↔ x.binding.constant = some v := by
  constructor
  · rintro ⟨d, seen, e, rfl, hconst, hinit, hvalue⟩
    simp only [binding, VarDecl.binding, Binding.ofConstant, hconst, hinit, if_true,
      Option.bind_some, hvalue]
  · intro hvalue
    cases x with
    | var d seen =>
      simp only [binding, VarDecl.binding, Binding.ofConstant] at hvalue
      split_ifs at hvalue with hconst
      obtain ⟨e, hinit, hvalue⟩ := Option.bind_eq_some_iff.mp hvalue
      exact ⟨d, seen, e, rfl, hconst, hinit, hvalue⟩
    | parameter | element | templateParameter => cases hvalue

theorem IsConstant.isTemplateParam (h : x.IsConstant v) : x.binding.isTemplateParam = false := by
  obtain ⟨d, seen, e, rfl, _⟩ := h
  rfl

theorem IsConstant.fits (h : x.IsConstant v) : Fits v := by
  obtain ⟨d, seen, e, _, _, _, hvalue⟩ := h
  exact Expr.fits_constant? hvalue

end Declared

abbrev Declarations := List (List (String × Declared))

namespace Declarations

def scopes (ds : Declarations) : Scopes := ds.map fun scope => scope.map fun x => (x.1, x.2.binding)

def visible? (ds : Declarations) (name : String) : Option Declared :=
  ds.findSome? fun scope => scope.lookup name

def declare (ds : Declarations) (d : VarDecl) : Declarations :=
  match ds with
  | [] => [[(d.name, .var d ds.scopes)]]
  | scope :: outer => ((d.name, .var d ds.scopes) :: scope) :: outer

theorem scopes_declare (ds : Declarations) (d : VarDecl) :
    (ds.declare d).scopes = ds.scopes.declareVar d := by
  cases ds <;> rfl

theorem find?_scopes (ds : Declarations) (name : String) :
    ds.scopes.find? name = (ds.visible? name).map Declared.binding := by
  have hlookup (scope : List (String × Declared)) :
      (scope.map fun x => (x.1, x.2.binding)).lookup name =
        (scope.lookup name).map Declared.binding := by
    induction scope with
    | nil => rfl
    | cons x scope ih =>
      rw [List.map_cons, List.lookup_cons, List.lookup_cons, ih]
      cases name == x.1 <;> rfl
  induction ds with
  | nil => rfl
  | cons scope ds ih =>
    show List.findSome? _ (_ :: scopes ds) = _
    rw [List.findSome?_cons, hlookup, visible?, List.findSome?_cons]
    cases scope.lookup name with
    | none => exact ih
    | some x => rfl

theorem constant?_name (ds : Declarations) (n : String) (l : Loc) (v : Int) :
    ((Expr.name n .runtime l).bound ds.scopes).constant? = some v ↔
      ∃ x, ds.visible? n = some x ∧ x.IsConstant v := by
  rw [Expr.bound, find?_scopes, Expr.constant?]
  cases ds.visible? n with
  | none => simp [Binding.runtime]
  | some x =>
    rw [Option.map_some, Option.getD_some]
    constructor
    · intro h
      split_ifs at h
      obtain ⟨w, hw, hv⟩ := Option.bind_eq_some_iff.mp h
      obtain ⟨rfl, _⟩ := fitting_eq_some_iff.mp hv
      exact ⟨x, rfl, Declared.isConstant_iff.mpr hw⟩
    · rintro ⟨_, ⟨⟩, h⟩
      rw [h.isTemplateParam, if_neg Bool.false_ne_true, Declared.isConstant_iff.mp h,
        Option.bind_some]
      exact fitting_eq_some_iff.mpr ⟨rfl, h.fits⟩

end Declarations

theorem RawAttr.Counts.bound {a : RawAttr} {o : HintOption} {loc : Loc} {e : Expr}
    (h : a.Counts o loc e) (scopes : Scopes) : (a.bound scopes).Counts o loc (e.bound scopes) where
  kind := h.kind
  option := (a.ident?_bound scopes 0).trans h.option
  numeric := h.numeric
  count := by
    have hcount := h.count
    simp only [expr?, RawAttr.bound, List.getElem?_map] at hcount ⊢
    split at hcount
    next e' he =>
      obtain rfl := Option.some.inj hcount
      simp only [he, Option.map_some, Arg.bound]
    next => cases hcount

section Reaching

/-- Whether the evaluation of an expression comes to a name; an operand that may be skipped does not
count. -/
inductive Expr.Reaches (n : String) : Expr → Prop where
  | name {l : Loc} : Reaches n (.name n .runtime l)
  | paren {e : Expr} {l : Loc} (h : Reaches n e) : Reaches n (.paren e l)
  | unary {op : UnaryOp} {e : Expr} {l : Loc} (h : Reaches n e) : Reaches n (.unary op e l)
  | left {op : BinaryOp} {a b : Expr} {l : Loc} (h : Reaches n a) : Reaches n (.binary op a b l)
  | right {op : BinaryOp} {a b : Expr} {l : Loc} (hop : op ≠ .land ∧ op ≠ .lor)
    (h : Reaches n b) : Reaches n (.binary op a b l)
  | condition {c yes no : Expr} {l : Loc} (h : Reaches n c) : Reaches n (.conditional c yes no l)
  | branches {c yes no : Expr} {l : Loc} (hyes : Reaches n yes) (hno : Reaches n no) :
    Reaches n (.conditional c yes no l)
  | callee {f : Expr} {args : List Expr} {l : Loc} (h : Reaches n f) : Reaches n (.call f args l)
  | argument {f e : Expr} {args : List Expr} {l : Loc} (he : e ∈ args) (h : Reaches n e) :
    Reaches n (.call f args l)
  | target {op : String} {a b : Expr} {l : Loc} (h : Reaches n a) : Reaches n (.assign op a b l)
  | value {op : String} {a b : Expr} {l : Loc} (h : Reaches n b) : Reaches n (.assign op a b l)

def Expr.isRuntimeName (n : String) : Expr → Bool
  | name m b _ => m = n && b = .runtime
  | _ => false

theorem Expr.reaches_of_isRuntimeName {n : String} {e : Expr} (h : e.isRuntimeName n) :
    e.Reaches n := by
  cases e with
  | name m b l =>
    simp only [isRuntimeName, Bool.and_eq_true, decide_eq_true_eq] at h
    obtain ⟨rfl, rfl⟩ := h
    exact .name
  | _ => cases h

theorem Expr.Reaches.constant?_eq_none {n : String} {e : Expr} (h : e.Reaches n) {sc : Scopes}
    (hn : ∀ l, ((Expr.name n .runtime l).bound sc).constant? = none) :
    (e.bound sc).constant? = none := by
  induction h with
  | name => exact hn _
  | paren _ ih => exact ih
  | unary _ ih => rw [bound, constant?, ih, Option.bind_none]
  | left _ ih => rw [bound, constant?, ih, Option.bind_none]
  | @right op a b l hop _ ih =>
    have hdecided : ∀ v, op.decided? v = none := by
      intro v
      unfold BinaryOp.decided?
      split
      · exact absurd rfl hop.1
      · exact absurd rfl hop.2
      · rfl
    rw [bound, constant?, ih]
    cases (a.bound sc).constant? with
    | none => rfl
    | some v => simp only [Option.bind_some, hdecided, Option.bind_none]
  | condition _ ih => rw [bound, constant?, ih, Option.bind_none]
  | @branches c yes no l _ _ ihyes ihno =>
    rw [bound, constant?, ihyes, ihno]
    cases (c.bound sc).constant? with
    | none => rfl
    | some v => exact ite_self none
  | callee | argument | target | value => rfl

end Reaching

namespace Stmt

def declaredAfter (ds : Declarations) : Stmt → Declarations
  | decl d => ds.declare d
  | ifElse _ yes none _ => yes.declaredAfter ds
  | ifElse _ yes (some no) _ => no.declaredAfter (yes.declaredAfter ds)
  | switch _ sub _ | caseLabel _ sub _ | defaultLabel sub _ | whileLoop _ sub _ | doWhile sub _ _
  | attributed _ sub _ _ | annotated _ sub _ _ => sub.declaredAfter ds
  | null _ | compound _ _ | expr _ _ | ret _ _ | brk _ | cont _ | forLoop _ _ _ _ _
  | rangeFor _ _ _ _ _ => ds

mutual

/-- What is declared at each site in a statement, in the order of their checks. -/
def sights (ds : Declarations) : Stmt → List Declarations
  | compound body _ => sightsAll ([] :: ds) body
  | ifElse _ yes none _ => yes.sights ds
  | ifElse _ yes (some no) _ => yes.sights ds ++ no.sights (yes.declaredAfter ds)
  | forLoop none _ _ body _ => body.sights ([] :: ds)
  | forLoop (some init) _ _ body _ =>
    init.sights ([] :: ds) ++ body.sights (init.declaredAfter ([] :: ds))
  | rangeFor var _ body _ _ => body.sights ([(var, .element)] :: ds)
  | switch _ sub _ | caseLabel _ sub _ | defaultLabel sub _ | whileLoop _ sub _ | doWhile sub _ _
  | attributed _ sub _ _ => sub.sights ds
  | annotated _ sub _ _ => sub.sights ds ++ [sub.declaredAfter ds]
  | null _ | expr _ _ | decl _ | ret _ _ | brk _ | cont _ => []

def sightsAll (ds : Declarations) : List Stmt → List Declarations
  | [] => []
  | s :: ss => s.sights ds ++ sightsAll (s.declaredAfter ds) ss

end

theorem scopes_declaredAfter (s : Stmt) (ds : Declarations) :
    (s.declaredAfter ds).scopes = s.scopesAfter ds.scopes := by
  induction s using childInduction generalizing ds with
  | h s ih =>
    cases s with
    | decl d => exact ds.scopes_declare d
    | ifElse c yes no l =>
      have hyes := ih yes (.head _) ds
      cases no with
      | none => exact hyes
      | some no =>
        rw [declaredAfter, scopesAfter, ih no (by simp [children]), hyes]
    | null | compound | expr | ret | brk | cont | forLoop | rangeFor => rfl
    | switch | caseLabel | defaultLabel | whileLoop | doWhile | attributed | annotated =>
      exact ih _ (.head _) ds

theorem map_scopes_sites (s : Stmt) {ds : Declarations} {st : Setting} (h : st.scopes = ds.scopes) :
    (s.sites st).map (·.setting.scopes) = (s.sights ds).map Declarations.scopes := by
  have hafter {st : Setting} {ds : Declarations} (h : st.scopes = ds.scopes) (t : Stmt) :
      (st.after t).scopes = (t.declaredAfter ds).scopes := by
    rw [scopes_declaredAfter, Setting.after, h]
  have henter {st : Setting} {ds : Declarations} (h : st.scopes = ds.scopes) :
      (st.enter []).scopes = Declarations.scopes ([] :: ds) := congrArg ([] :: ·) h
  induction s using childInduction generalizing ds st with
  | h s ih =>
    cases s with
    | compound body l =>
      have hbody : ∀ t ∈ body, ∀ {ds : Declarations} {st : Setting}, st.scopes = ds.scopes →
          (t.sites st).map (·.setting.scopes) = (t.sights ds).map Declarations.scopes := ih
      have hall : ∀ {ds : Declarations} {st : Setting}, st.scopes = ds.scopes →
          (sitesAll st body).map (·.setting.scopes) =
            (sightsAll ds body).map Declarations.scopes := by
        clear ih
        induction body with
        | nil => exact fun _ => rfl
        | cons t ts ihts =>
          intro ds st h
          rw [sitesAll, sightsAll, List.map_append, List.map_append, hbody t (.head _) h,
            ihts (fun u hu => hbody u (.tail _ hu)) (hafter h t)]
      exact hall (henter h)
    | ifElse c yes no l =>
      have hyes := ih yes (.head _) h
      cases no with
      | none => exact hyes
      | some no =>
        rw [sites, sights, List.map_append, List.map_append, hyes,
          ih no (by simp [children]) (hafter h yes)]
    | forLoop init c step body l =>
      have hbody := fun {ds st} => @ih body (by simp [children]) ds st
      cases init with
      | none => exact hbody (henter h)
      | some init =>
        rw [sites, sights, List.map_append, List.map_append, hbody (hafter (henter h) init),
          ih init (by simp [children]) (henter h)]
    | rangeFor var range body typeName l =>
      exact ih body (.head _) (congrArg (([(var, Binding.runtime)] : Scope) :: ·) h)
    | annotated attrs sub range l =>
      rw [sites, sights, List.map_append, List.map_append, ih sub (.head _) h]
      exact congrArg (_ ++ [·]) (hafter h sub)
    | switch | caseLabel | defaultLabel | whileLoop | doWhile | attributed =>
      exact ih _ (.head _) h
    | null | expr | decl | ret | brk | cont => rfl

end Stmt

section AllVars

variable {P : VarDecl → Prop} {ds : Declarations}

namespace Declarations

def AllVars (P : VarDecl → Prop) (ds : Declarations) : Prop :=
  ∀ scope ∈ ds, ∀ x ∈ scope, ∀ d seen, x.2 = .var d seen → P d

theorem AllVars.enter (h : ds.AllVars P) {scope : List (String × Declared)}
    (hscope : ∀ x ∈ scope, ∀ d seen, x.2 ≠ .var d seen) : AllVars P (scope :: ds) :=
  List.forall_mem_cons.mpr ⟨fun x hx d seen hd => absurd hd (hscope x hx d seen), h⟩

theorem AllVars.declare (h : ds.AllVars P) {d : VarDecl} (hd : P d) : (ds.declare d).AllVars P := by
  have hnew (scope : List (String × Declared)) (seen : Scopes)
      (hscope : ∀ x ∈ scope, ∀ d seen, x.2 = .var d seen → P d) :
      ∀ x ∈ (d.name, Declared.var d seen) :: scope, ∀ d seen, x.2 = .var d seen → P d := by
    refine List.forall_mem_cons.mpr ⟨?_, hscope⟩
    rintro d' seen' ⟨⟩
    exact hd
  cases ds with
  | nil => exact List.forall_mem_singleton.mpr (hnew [] _ (List.forall_mem_nil _))
  | cons scope outer =>
    obtain ⟨hscope, houter⟩ := List.forall_mem_cons.mp h
    exact List.forall_mem_cons.mpr ⟨hnew scope _ hscope, houter⟩

theorem AllVars.of_visible? (h : ds.AllVars P) {n : String} {d : VarDecl} {seen : Scopes}
    (hn : ds.visible? n = some (.var d seen)) : P d := by
  obtain ⟨scope, hscope, hlookup⟩ := List.exists_of_findSome?_eq_some hn
  obtain ⟨_, _, rfl, _⟩ := List.lookup_eq_some_iff.mp hlookup
  exact h _ hscope _ (List.mem_append_right _ (.head _)) d seen rfl

end Declarations

namespace Stmt

theorem allVars_declaredAfter (s : Stmt) (h : ds.AllVars P) (hs : s.AllVars P) :
    (s.declaredAfter ds).AllVars P := by
  induction s using childInduction generalizing ds with
  | h s ih =>
    cases s with
    | decl d => exact h.declare (hs d (.head _))
    | ifElse c yes no l =>
      have hyes := ih yes (.head _) h (hs.child (.head _))
      cases no with
      | none => exact hyes
      | some no =>
        have hmem : no ∈ (ifElse c yes (some no) l).children := by simp [children]
        exact ih no hmem hyes (hs.child hmem)
    | null | compound | expr | ret | brk | cont | forLoop | rangeFor => exact h
    | switch | caseLabel | defaultLabel | whileLoop | doWhile | attributed | annotated =>
      exact ih _ (.head _) h (hs.child (.head _))

theorem allVars_sights (s : Stmt) (h : ds.AllVars P) (hs : s.AllVars P) :
    ∀ ds' ∈ s.sights ds, ds'.AllVars P := by
  induction s using childInduction generalizing ds with
  | h s ih =>
    have hblock {ds : Declarations} (h : ds.AllVars P) : Declarations.AllVars P ([] :: ds) :=
      h.enter (List.forall_mem_nil _)
    cases s with
    | compound body l =>
      have hall : ∀ {ds : Declarations}, ds.AllVars P → ∀ ds' ∈ sightsAll ds body,
          ds'.AllVars P := by
        have hbody : ∀ t ∈ body, t.AllVars P := fun t ht => hs.child ht
        clear hs
        induction body with
        | nil =>
          intro ds h
          exact List.forall_mem_nil _
        | cons t ts ihts =>
          intro ds h
          have ht := hbody t (.head _)
          exact List.forall_mem_append.mpr ⟨ih t (.head _) h ht,
            ihts (fun u hu => ih u (.tail _ hu)) (fun u hu => hbody u (.tail _ hu))
              (t.allVars_declaredAfter h ht)⟩
      exact hall (hblock h)
    | ifElse c yes no l =>
      have hyes := hs.child (t := yes) (.head _)
      cases no with
      | none => exact ih yes (.head _) h hyes
      | some no =>
        have hmem : no ∈ (ifElse c yes (some no) l).children := by simp [children]
        exact List.forall_mem_append.mpr ⟨ih yes (.head _) h hyes,
          ih no hmem (yes.allVars_declaredAfter h hyes) (hs.child hmem)⟩
    | forLoop init c step body l =>
      have hmem : body ∈ (forLoop init c step body l).children := by simp [children]
      cases init with
      | none => exact ih body hmem (hblock h) (hs.child hmem)
      | some init =>
        have hinit := hs.child (t := init) (.head _)
        exact List.forall_mem_append.mpr ⟨ih init (.head _) (hblock h) hinit,
          ih body hmem (init.allVars_declaredAfter (hblock h) hinit) (hs.child hmem)⟩
    | rangeFor var range body typeName l =>
      have hscope : ∀ x ∈ [(var, Declared.element)], ∀ d seen, x.2 ≠ .var d seen := by
        refine List.forall_mem_singleton.mpr ?_
        intro d seen he
        cases he
      exact ih body (.head _) (h.enter hscope) (hs.child (.head _))
    | annotated attrs sub range l =>
      have hsub := hs.child (t := sub) (.head _)
      exact List.forall_mem_append.mpr ⟨ih sub (.head _) h hsub,
        List.forall_mem_singleton.mpr (sub.allVars_declaredAfter h hsub)⟩
    | switch | caseLabel | defaultLabel | whileLoop | doWhile | attributed =>
      exact ih _ (.head _) h (hs.child (.head _))
    | null | expr | decl | ret | brk | cont => exact List.forall_mem_nil _

end Stmt

end AllVars

def Function.declared (f : Function) : List (String × Declared) :=
  f.params.map (·, .parameter) ++ f.templateParams.map (·, .templateParameter)

theorem Function.map_declared (f : Function) :
    f.declared.map (fun x => (x.1, x.2.binding)) = f.scope := by
  rw [declared, scope, List.map_append, List.map_map, List.map_map]
  rfl

namespace SourceUnit

def declared (u : SourceUnit) : Declarations := u.globals.foldl Declarations.declare [[]]

def sights (u : SourceUnit) : List Declarations :=
  u.functions.flatMap fun f => f.body.sights (f.declared :: u.declared)

theorem scopes_declared (u : SourceUnit) : u.declared.scopes = u.scopes := by
  have hall (ds : Declarations) :
      (u.globals.foldl Declarations.declare ds).scopes =
        u.globals.foldl Scopes.declareVar ds.scopes := by
    induction u.globals generalizing ds with
    | nil => rfl
    | cons d globals ih => rw [List.foldl_cons, List.foldl_cons, ih, ds.scopes_declare]
  exact hall [[]]

theorem map_scopes_sites (u : SourceUnit) (strict : Bool) :
    (u.sites strict).map (·.setting.scopes) = u.sights.map Declarations.scopes := by
  rw [sites, sights, List.map_flatMap, List.map_flatMap]
  refine List.flatMap_congr fun f _ => f.body.map_scopes_sites ?_
  show f.scope :: u.scopes = f.declared.map _ :: u.declared.scopes
  rw [scopes_declared, f.map_declared]

theorem length_sights (u : SourceUnit) (strict : Bool) :
    u.sights.length = (u.sites strict).length := by
  have h := congrArg List.length (u.map_scopes_sites strict)
  rw [List.length_map, List.length_map] at h
  exact h.symm

theorem scopes_of_mem_zip {u : SourceUnit} {strict : Bool} {s : Site} {ds : Declarations}
    (h : (s, ds) ∈ (u.sites strict).zip u.sights) : s.setting.scopes = ds.scopes := by
  obtain ⟨i, hi⟩ := List.mem_iff_getElem?.mp h
  obtain ⟨hs, hds⟩ := List.getElem?_zip_eq_some.mp hi
  have hmap := congrArg (·[i]?) (u.map_scopes_sites strict)
  simpa [hs, hds] using hmap

end SourceUnit

theorem saysConst_of_visible? {file text : String} {u : SourceUnit} (h : parse file text = .ok u)
    {ds : Declarations} (hds : ds ∈ u.sights) {n : String} {d : VarDecl} {seen : Scopes}
    (hn : ds.visible? n = some (.var d seen)) : d.SaysConst := by
  have hu := allVars_of_parse Parser.yields_variableDecl h
  have hglobals (ds : Declarations) (hds : ds.AllVars VarDecl.SaysConst) :
      (u.globals.foldl Declarations.declare ds).AllVars VarDecl.SaysConst := by
    have hall := hu.globals
    generalize u.globals = globals at hall
    induction globals generalizing ds with
    | nil => exact hds
    | cons d globals ih =>
      obtain ⟨hd, hglobals⟩ := List.forall_mem_cons.mp hall
      exact ih _ (hds.declare hd) hglobals
  have hdeclared : u.declared.AllVars VarDecl.SaysConst :=
    hglobals _ (List.forall_mem_singleton.mpr (List.forall_mem_nil _))
  obtain ⟨f, hf, hds⟩ := List.mem_flatMap.mp hds
  have hparams : ∀ x ∈ f.declared, ∀ d seen, x.2 ≠ .var d seen := by
    intro x hx
    obtain hx | hx := List.mem_append.mp hx
    all_goals
      obtain ⟨name, _, rfl⟩ := List.mem_map.mp hx
      exact fun _ _ => nofun
  exact (f.body.allVars_sights (hdeclared.enter hparams) (hu.functions f hf) ds hds).of_visible? hn

/-- A name in a hint has a value just where the visible declaration is `const` and its initializer
has that value. A count whose evaluation comes to any other name is refused on a loop. -/
theorem constant_names {file text : String} {u : SourceUnit} (h : parse file text = .ok u)
    (config : Config) :
    ∃ result, checkSource config file text = .ok result ∧
      u.sights.length = (u.sites config.strictLoopOptions).length ∧
      ∀ s ds, (s, ds) ∈ (u.sites config.strictLoopOptions).zip u.sights →
        (∀ n d seen, ds.visible? n = some (.var d seen) → d.SaysConst) ∧
        (∀ n l v, ((Expr.name n .runtime l).bound s.setting.scopes).constant? = some v ↔
          ∃ x, ds.visible? n = some x ∧ x.IsConstant v) ∧
        ∀ a ∈ s.attrs, ∀ o loc e, a.Counts o loc e → s.target.kind.isLoop = true →
          ∀ n, e.Reaches n → (∀ x v, ds.visible? n = some x → ¬ x.IsConstant v) →
            result.Reports .hintValue (a.valueWord loc).loc ∧ result.unit.Lacks a.range := by
  have hu := SourceUnit.asRead_of_parse h
  refine ⟨_, checkSource_eq h config, u.length_sights _, fun s ds hzip => ?_⟩
  have hscopes := SourceUnit.scopes_of_mem_zip hzip
  refine ⟨fun n d seen hn => saysConst_of_visible? h (List.of_mem_zip hzip).2 hn,
    fun n l v => hscopes ▸ ds.constant?_name n l v, ?_⟩
  intro a ha o loc e hcount ht n hreaches hvisible
  have hs : s ∈ u.sites config.strictLoopOptions := (List.of_mem_zip hzip).1
  have hnone : (e.bound s.setting.scopes).constant? = none := by
    refine hreaches.constant?_eq_none fun l => ?_
    refine Option.eq_none_iff_forall_ne_some.mpr fun v hv => ?_
    rw [hscopes] at hv
    obtain ⟨x, hx, hconst⟩ := (ds.constant?_name n l v).mp hv
    exact hvisible x v hx hconst
  have hbound := hcount.bound s.setting.scopes
  have hbad : s.verdict (a.bound s.setting.scopes) =
      .reject (.badValue ((a.bound s.setting.scopes).valueWord loc).loc) :=
    hbound.verdict_eq_badValue ht fun v _ halways => by
      rw [← Expr.constant?_eq_some_iff, hnone] at halways
      cases halways
  have hword : (a.bound s.setting.scopes).valueWord loc = a.valueWord loc := by
    rw [RawAttr.valueWord, RawAttr.ident?_bound, RawAttr.valueWord]
  rw [hword] at hbad
  exact hu.rejected config hs (List.mem_map_of_mem ha) hbad rfl

def hiddenCount : String :=
  "const int N = 4;\nvoid f() \x7b\nint N = 2;\n" ++
    "#pragma clang loop unroll_count(N)\nfor (;;) ;\n\x7d"

theorem constant_names_hidden : ∃ result loc, checkSource {} "a.cc" hiddenCount = .ok result ∧
    result.Reports .hintValue loc := by
  have hfound : ∃ u ∈ (parse "a.cc" hiddenCount).toOption, ∃ p ∈ (u.sites false).zip u.sights,
      p.1.target.kind.isLoop = true ∧
        (p.2.visible? "N").any (fun x => x.binding.constant = none) = true ∧
        ∃ a ∈ p.1.attrs, a.kind = .loopHint ∧
          (a.ident? 0).bind Ident.name = some "unroll_count" ∧
          (a.expr? 2).any (Expr.isRuntimeName "N") = true := by
    decide +kernel
  obtain ⟨u, hu, ⟨s, ds⟩, hzip, ht, hvisible, a, ha, hkind, hname, hcount⟩ := hfound
  obtain ⟨⟨loc, _⟩, hident, rfl⟩ := Option.bind_eq_some_iff.mp hname
  obtain ⟨e, he, hshape⟩ := (Option.any_eq_true _ _).mp hcount
  obtain ⟨x, hx, hnone⟩ := (Option.any_eq_true _ _).mp hvisible
  have hreaches : e.Reaches "N" := Expr.reaches_of_isRuntimeName hshape
  have hnot : ∀ x' v, ds.visible? "N" = some x' → ¬ x'.IsConstant v := by
    intro x' v hx' hconst
    obtain rfl := Option.some.inj (hx.symm.trans hx')
    have hvalue := Declared.isConstant_iff.mp hconst
    rw [of_decide_eq_true hnone] at hvalue
    cases hvalue
  obtain ⟨result, hresult, _, hall⟩ := constant_names (ok_of_mem_toOption hu) {}
  have h := (hall s ds hzip).2.2 a ha .unrollCount loc e ⟨hkind, hident, rfl, he⟩ ht "N" hreaches
    hnot
  exact ⟨result, _, hresult, h.1⟩

def typedCount (type : String) : String :=
  "void f() \x7b\n" ++ type ++ " K = 4;\n#pragma clang loop unroll_count(K)\nfor (;;) ;\n\x7d"

/-- Behind `const`, the value is taken of variables that are no integers. -/
theorem constant_names_typed : ["const double", "const int *", "const int &"].Forall fun type =>
    ∃ result, checkSource {} "a.cc" (typedCount type) = .ok result ∧
      result.diagnostics = [] ∧
      result.attributes.map (fun b => b.hint?.map fun h => (h.option, h.value)) =
        [some (.unrollCount, 4)] := by
  have hall : ∀ type ∈ ["const double", "const int *", "const int &"],
      ∃ result ∈ (checkSource {} "a.cc" (typedCount type)).toOption,
        result.diagnostics.isEmpty = true ∧
        result.attributes.map (fun b => b.hint?.map fun h => (h.option, h.value)) =
          [some (.unrollCount, 4)] := by
    decide +kernel
  refine List.forall_iff_forall_mem.mpr ?_
  intro type htype
  obtain ⟨result, hresult, hempty, hattrs⟩ := hall type htype
  exact ⟨result, ok_of_mem_toOption hresult, List.isEmpty_iff.mp hempty, hattrs⟩

end AttrCheck
