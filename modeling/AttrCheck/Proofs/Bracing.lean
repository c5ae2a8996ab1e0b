import AttrCheck.Proofs.AcceptedText
import AttrCheck.Proofs.ScopeAgreement

/-! Braces around a branch or a body. The two `for` statements open a scope of their own, and braces
around their bodies make no difference. Behind an `if`, `switch`, `while` or `do` no scope is opened
but that of a block, so there braces hide what the statement in them declares. -/

namespace AttrCheck

namespace Stmt

def declares : Stmt → List VarDecl
  | decl d => [d]
  | ifElse _ yes none _ => yes.declares
  | ifElse _ yes (some no) _ => yes.declares ++ no.declares
  | switch _ sub _ | caseLabel _ sub _ | defaultLabel sub _ | whileLoop _ sub _ | doWhile sub _ _
  | attributed _ sub _ _ | annotated _ sub _ _ => sub.declares
  | null _ | compound _ _ | expr _ _ | ret _ _ | brk _ | cont _ | forLoop _ _ _ _ _
  | rangeFor _ _ _ _ _ => []

theorem scopesAfter_eq (s : Stmt) (sc : Scopes) :
    s.scopesAfter sc = s.declares.foldl Scopes.declareVar sc := by
  induction s using childInduction generalizing sc with
  | h s ih =>
    cases s with
    | ifElse c yes no l =>
      have hyes := ih yes (.head _) sc
      cases no with
      | none => rw [scopesAfter, declares, hyes]
      | some no =>
        have hno := ih no (by simp [children]) (yes.scopesAfter sc)
        rw [scopesAfter, declares, List.foldl_append, hno, hyes]
    | switch | caseLabel | defaultLabel | whileLoop | doWhile | attributed | annotated =>
      exact ih _ (.head _) sc
    | _ => rfl

/-- Two statements, the second with braces around one branch or body in the first. Where no scope
is opened for that branch or body, it meets a condition. -/
inductive Braced (P : Stmt → Prop) : Stmt → Stmt → Prop where
  | yes {s : Stmt} (h : P s) (l' : Loc) (c : Expr) (no : Option Stmt) (l : Loc) :
    Braced P (ifElse c s no l) (ifElse c (compound [s] l') no l)
  | no {s : Stmt} (h : P s) (l' : Loc) (c : Expr) (yes : Stmt) (l : Loc) :
    Braced P (ifElse c yes (some s) l) (ifElse c yes (some (compound [s] l')) l)
  | switch {s : Stmt} (h : P s) (l' : Loc) (c : Expr) (l : Loc) :
    Braced P (switch c s l) (switch c (compound [s] l') l)
  | whileLoop {s : Stmt} (h : P s) (l' : Loc) (c : Expr) (l : Loc) :
    Braced P (whileLoop c s l) (whileLoop c (compound [s] l') l)
  | doWhile {s : Stmt} (h : P s) (l' : Loc) (c : Expr) (l : Loc) :
    Braced P (doWhile s c l) (doWhile (compound [s] l') c l)
  | forLoop (s : Stmt) (l' : Loc) (init : Option Stmt) (c step : Option Expr) (l : Loc) :
    Braced P (forLoop init c step s l) (forLoop init c step (compound [s] l') l)
  | rangeFor (s : Stmt) (l' : Loc) (var : String) (range : Expr) (typeName : String) (l : Loc) :
    Braced P (rangeFor var range s typeName l) (rangeFor var range (compound [s] l') typeName l)
  | inCompound {s t : Stmt} (h : Braced P s t) (before behind : List Stmt) (l : Loc) :
    Braced P (compound (before ++ s :: behind) l) (compound (before ++ t :: behind) l)
  | inYes {s t : Stmt} (h : Braced P s t) (c : Expr) (no : Option Stmt) (l : Loc) :
    Braced P (ifElse c s no l) (ifElse c t no l)
  | inNo {s t : Stmt} (h : Braced P s t) (c : Expr) (yes : Stmt) (l : Loc) :
    Braced P (ifElse c yes (some s) l) (ifElse c yes (some t) l)
  | inSwitch {s t : Stmt} (h : Braced P s t) (c : Expr) (l : Loc) :
    Braced P (switch c s l) (switch c t l)
  | inCase {s t : Stmt} (h : Braced P s t) (value : Expr) (l : Loc) :
    Braced P (caseLabel value s l) (caseLabel value t l)
  | inDefault {s t : Stmt} (h : Braced P s t) (l : Loc) :
    Braced P (defaultLabel s l) (defaultLabel t l)
  | inInit {s t : Stmt} (h : Braced P s t) (c step : Option Expr) (body : Stmt) (l : Loc) :
    Braced P (forLoop (some s) c step body l) (forLoop (some t) c step body l)
  | inFor {s t : Stmt} (h : Braced P s t) (init : Option Stmt) (c step : Option Expr) (l : Loc) :
    Braced P (forLoop init c step s l) (forLoop init c step t l)
  | inRangeFor {s t : Stmt} (h : Braced P s t) (var : String) (range : Expr) (typeName : String)
    (l : Loc) : Braced P (rangeFor var range s typeName l) (rangeFor var range t typeName l)
  | inWhile {s t : Stmt} (h : Braced P s t) (c : Expr) (l : Loc) :
    Braced P (whileLoop c s l) (whileLoop c t l)
  | inDo {s t : Stmt} (h : Braced P s t) (c : Expr) (l : Loc) :
    Braced P (doWhile s c l) (doWhile t c l)
  | inAttributed {s t : Stmt} (h : Braced P s t) (attrs : List Attr) (range : Range) (l : Loc) :
    Braced P (attributed attrs s range l) (attributed attrs t range l)
  | inAnnotated {s t : Stmt} (h : Braced P s t) (attrs : List RawAttr) (range : Range) (l : Loc) :
    Braced P (annotated attrs s range l) (annotated attrs t range l)

section Block

variable (s : Stmt) (l : Loc)

theorem sitesAgree_block : s.SitesAgree (compound [s] l) := by
  intro st st' hst
  rw [sites, sitesAll, sitesAll, List.append_nil]
  exact (Agrees.refl s).sites hst.enter_nil

theorem scopesAgree_block {s : Stmt} (h : s.declares = []) : s.ScopesAgree (compound [s] l) := by
  intro sc sc' hsc
  rwa [scopesAfter, scopesAfter_eq, h]

end Block

section Steps

variable {s t : Stmt} (hsites : s.SitesAgree t) (hscopes : s.ScopesAgree t)
include hsites hscopes

theorem agrees_yes (c : Expr) (no : Option Stmt) (l : Loc) :
    (ifElse c s no l).Agrees (ifElse c t no l) := by
  cases no with
  | none => exact agrees_if hsites hscopes c l
  | some no =>
    have hno := Agrees.refl no
    exact agrees_ifElse hsites hscopes hno.sites hno.scopes c l

theorem agrees_no (c : Expr) (yes : Stmt) (l : Loc) :
    (ifElse c yes (some s) l).Agrees (ifElse c yes (some t) l) := by
  have hyes := Agrees.refl yes
  exact agrees_ifElse hyes.sites hyes.scopes hsites hscopes c l

theorem agrees_while (c : Expr) (l : Loc) : (whileLoop c s l).Agrees (whileLoop c t l) :=
  agrees_around (m := (whileLoop c · l)) hsites hscopes (fun _ _ => rfl) (fun _ _ => rfl)
    fun _ _ _ _ => rfl

theorem agrees_do (c : Expr) (l : Loc) : (doWhile s c l).Agrees (doWhile t c l) :=
  agrees_around (m := (doWhile · c l)) hsites hscopes (fun _ _ => rfl) (fun _ _ => rfl)
    fun _ _ _ _ => rfl

end Steps

theorem agrees_forBody {s t : Stmt} (hsites : s.SitesAgree t) (init : Option Stmt)
    (c step : Option Expr) (l : Loc) :
    (forLoop init c step s l).Agrees (forLoop init c step t l) := by
  cases init with
  | none => exact agrees_for hsites c step l
  | some init => exact agrees_forInit (.refl init) hsites c step l

theorem Braced.agrees {s t : Stmt} (h : Braced (·.declares = []) s t) : s.Agrees t := by
  induction h with
  | yes h l' c no l => exact agrees_yes (sitesAgree_block _ l') (scopesAgree_block l' h) c no l
  | no h l' c yes l => exact agrees_no (sitesAgree_block _ l') (scopesAgree_block l' h) c yes l
  | switch h l' c l => exact agrees_switch (sitesAgree_block _ l') (scopesAgree_block l' h) c l
  | whileLoop h l' c l => exact agrees_while (sitesAgree_block _ l') (scopesAgree_block l' h) c l
  | doWhile h l' c l => exact agrees_do (sitesAgree_block _ l') (scopesAgree_block l' h) c l
  | forLoop s l' init c step l => exact agrees_forBody (sitesAgree_block s l') init c step l
  | rangeFor s l' var range typeName l =>
    exact agrees_rangeFor (sitesAgree_block s l') var range typeName l
  | inCompound _ before behind l ih =>
    have hsame (ss : List Stmt) : List.Forall₂ Agrees ss ss :=
      List.forall₂_same.mpr fun s _ => .refl s
    exact agrees_compound (List.rel_append (hsame before) (.cons ih (hsame behind))) l
  | inYes _ c no l ih => exact agrees_yes ih.sites ih.scopes c no l
  | inNo _ c yes l ih => exact agrees_no ih.sites ih.scopes c yes l
  | inSwitch _ c l ih => exact agrees_switch ih.sites ih.scopes c l
  | inCase _ value l ih =>
    exact agrees_around (m := (caseLabel value · l)) ih.sites ih.scopes (fun _ _ => rfl)
      (fun _ _ => rfl) fun _ _ _ _ => rfl
  | inDefault _ l ih =>
    exact agrees_around (m := (defaultLabel · l)) ih.sites ih.scopes (fun _ _ => rfl)
      (fun _ _ => rfl) fun _ _ _ _ => rfl
  | inInit _ c step body l ih => exact agrees_forInit ih (Agrees.refl body).sites c step l
  | inFor _ init c step l ih => exact agrees_forBody ih.sites init c step l
  | inRangeFor _ var range typeName l ih => exact agrees_rangeFor ih.sites var range typeName l
  | inWhile _ c l ih => exact agrees_while ih.sites ih.scopes c l
  | inDo _ c l ih => exact agrees_do ih.sites ih.scopes c l
  | inAttributed _ attrs range l ih =>
    exact agrees_around (m := (attributed attrs · range l)) ih.sites ih.scopes (fun _ _ => rfl)
      (fun _ _ => rfl) fun _ _ _ _ => rfl
  | inAnnotated _ attrs range l ih => exact agrees_annotated ih attrs range l

theorem Braced.written {P : Stmt → Prop} {s t : Stmt} (h : Braced P s t) :
    t.preorder.flatMap Stmt.written = s.preorder.flatMap Stmt.written := by
  induction h with
  | yes h l' c no l => cases no <;> simp [preorder, preorderAll, Stmt.written]
  | forLoop s l' init c step l => cases init <;> simp [preorder, preorderAll, Stmt.written]
  | inYes _ c no l ih => cases no <;> simp [preorder, Stmt.written, ih]
  | inFor _ init c step l ih => cases init <;> simp [preorder, Stmt.written, ih]
  | inCompound _ before behind l ih =>
    simp [preorder, preorderAll_eq_flatMap, Stmt.written, List.flatMap_append, ih]
  | no | switch | whileLoop | doWhile | rangeFor => simp [preorder, preorderAll, Stmt.written]
  | inNo | inSwitch | inCase | inDefault | inInit | inRangeFor | inWhile | inDo | inAttributed
  | inAnnotated => simp [preorder, Stmt.written, *]

def bracedBranch? : Stmt → Option Stmt
  | ifElse c s no l => some (ifElse c (compound [s] s.loc) no l)
  | _ => none

def bracedFirst? : Stmt → Option Stmt
  | compound (s :: behind) l => s.bracedBranch?.map fun t => compound (t :: behind) l
  | _ => none

theorem braced_of_mem_bracedBranch? {P : Stmt → Prop} {s t : Stmt} (h : t ∈ s.bracedBranch?)
    (hP : ∀ branch ∈ s.children, P branch) : Braced P s t := by
  cases s with
  | ifElse c s no l =>
    obtain rfl := Option.some.inj h
    exact .yes (hP s (.head _)) s.loc c no l
  | _ => cases h

theorem braced_of_mem_bracedFirst? {P : Stmt → Prop} {s t : Stmt} (h : t ∈ s.bracedFirst?)
    (hP : ∀ inner ∈ s.children, ∀ branch ∈ inner.children, P branch) : Braced P s t := by
  cases s with
  | compound body l =>
    cases body with
    | nil => cases h
    | cons s behind =>
      obtain ⟨t, ht, rfl⟩ := Option.map_eq_some_iff.mp h
      exact .inCompound (braced_of_mem_bracedBranch? ht (hP s (.head _))) [] behind l
  | _ => cases h

end Stmt

namespace SourceUnit

inductive Braced (P : Stmt → Prop) : SourceUnit → SourceUnit → Prop where
  | inFunction {s t : Stmt} (h : s.Braced P t) (before behind : List AttrCheck.Function)
    (f : AttrCheck.Function) (globals : List VarDecl) (file : String) :
    Braced P ⟨before ++ { f with body := s } :: behind, globals, file⟩
      ⟨before ++ { f with body := t } :: behind, globals, file⟩

theorem Braced.namesOptions {P : Stmt → Prop} {u u' : SourceUnit} (hb : u.Braced P u')
    (h : ∀ f ∈ u.functions, f.body.NamesOptions) : ∀ f ∈ u'.functions, f.body.NamesOptions := by
  obtain ⟨hb, before, behind, f, globals, file⟩ := hb
  intro g hg
  obtain hg | hg := List.mem_append.mp hg
  · exact h g (List.mem_append_left _ hg)
  · obtain rfl | hg := List.mem_cons.mp hg
    · intro r hr a ha
      have hmem := List.mem_flatMap_of_mem hr ha
      rw [hb.written] at hmem
      obtain ⟨r', hr', ha'⟩ := List.mem_flatMap.mp hmem
      exact h _ (List.mem_append_right _ (.head _)) r' hr' a ha'
    · exact h g (List.mem_append_right _ (.tail _ hg))

theorem Braced.findings {u u' : SourceUnit} (hb : u.Braced (·.declares = []) u') (strict : Bool) :
    (u'.sites strict).map Site.findings = (u.sites strict).map Site.findings := by
  obtain ⟨hb, before, behind, f, globals, file⟩ := hb
  have hbody := hb.agrees.sites (.refl (f.setting strict (globals.foldl Scopes.declareVar [[]])))
  simp only [sites, scopes, List.flatMap_append, List.flatMap_cons, List.map_append]
  exact congrArg (fun found => _ ++ (found ++ _)) hbody.symm

end SourceUnit

/-- Braces around a branch or body of an accepted text change no diagnostic and no attribute that
stays, where that branch or body declares nothing in the scope around it or is the body of a
`for`. -/
theorem braced_check {file text : String} {u u' : SourceUnit} (h : parse file text = .ok u)
    (hb : u.Braced (·.declares = []) u') (config : Config) :
    ∃ result result', u.check config = .ok result ∧ u'.check config = .ok result' ∧
      result'.diagnostics = result.diagnostics ∧ result'.attributes = result.attributes := by
  have hn := (SourceUnit.asRead_of_parse h).namesOptions
  exact ⟨_, _, u.check_eq hn config, u'.check_eq (hb.namesOptions hn) config,
    SourceUnit.checked_of_findings config (hb.findings config.strictLoopOptions)⟩

def branchText : String := "void f(int n) \x7b if (n) [[fallthrough]] n = 4; \x7d"

theorem braced_check_branch : ∃ u u', parse "a.cc" branchText = .ok u ∧
    u.Braced (·.declares = []) u' ∧
      ∃ result result', u.check {} = .ok result ∧ u'.check {} = .ok result' ∧
        result'.diagnostics = result.diagnostics ∧ result'.attributes = result.attributes := by
  have hread : ∃ u ∈ (parse "a.cc" branchText).toOption,
      ∃ f ∈ u.functions.head?, ∃ t ∈ f.body.bracedFirst?,
        ∀ inner ∈ f.body.children, ∀ branch ∈ inner.children, branch.declares = [] := by
    decide +kernel
  obtain ⟨u, hu, f, hf, t, ht, hbranch⟩ := hread
  obtain ⟨functions, globals, file⟩ := u
  obtain ⟨behind, rfl⟩ := List.head?_eq_some_iff.mp hf
  have hp := ok_of_mem_toOption hu
  have hb := SourceUnit.Braced.inFunction (Stmt.braced_of_mem_bracedFirst? ht hbranch) [] behind f
    globals file
  exact ⟨_, _, hp, hb, braced_check hp hb {}⟩

def hiddenText : String :=
  "void f(int n) \x7b\nif (n) const int K = 4;\n" ++
    "#pragma clang loop unroll_count(K)\nwhile (n) ;\n\x7d"

/-- Braces around a declaration hide its constant from a loop hint behind the `if`. -/
theorem braced_check_hidden : ∃ u u', parse "a.cc" hiddenText = .ok u ∧
      u.Braced (fun _ => True) u' ∧
      ∃ result result', u.check {} = .ok result ∧ u'.check {} = .ok result' ∧
        result'.diagnostics ≠ result.diagnostics ∧ result'.attributes ≠ result.attributes := by
  have hread : ∃ u ∈ (parse "a.cc" hiddenText).toOption,
      ∃ f ∈ u.functions.head?, ∃ t ∈ f.body.bracedFirst?,
      let braced : SourceUnit := ⟨{ f with body := t } :: u.functions.tail, u.globals, u.file⟩
      (braced.checked {}).diagnostics ≠ (u.checked {}).diagnostics ∧
        (braced.checked {}).attributes ≠ (u.checked {}).attributes := by
    decide +kernel
  obtain ⟨u, hu, f, hf, t, ht, hdiffer⟩ := hread
  obtain ⟨functions, globals, file⟩ := u
  obtain ⟨behind, rfl⟩ := List.head?_eq_some_iff.mp hf
  have hp := ok_of_mem_toOption hu
  have hn := (SourceUnit.asRead_of_parse hp).namesOptions
  have hb := SourceUnit.Braced.inFunction
    (Stmt.braced_of_mem_bracedFirst? (P := fun _ => True) ht fun _ _ _ _ => trivial) [] behind f
    globals file
  exact ⟨_, _, hp, hb, _, _, SourceUnit.check_eq _ hn {},
    SourceUnit.check_eq _ (hb.namesOptions hn) {}, hdiffer⟩

end AttrCheck
