import Mathlib.Data.List.Forall2
import AttrCheck.Transform
import AttrCheck.Proofs.DeclaredType

/-! Transformations by rules. A walk goes into a statement as long as no statement around it has a
rule. Nothing comes back changed unless the walk gets to a statement that its rule does not keep,
and what comes back is the statement with just the outermost statements that have a rule acted on. -/

namespace AttrCheck

def StmtKind.wraps : StmtKind → Bool
  | caseLabel | defaultLabel | attributed | annotated => true
  | _ => false

def TransformRules.Fit (rules : TransformRules) : Prop :=
  ∀ kind, rules kind = some .unwrap → kind.wraps

/-- What comes back for something: nothing where it is untouched, so that it stays what it was, and
the new one else. -/
structure ComesBack {α : Type} (old new : α) (untouched : Prop) (change : Option α) : Prop where
  eq_none_iff : change = none ↔ untouched
  getD_eq : change.getD old = new

section All

variable {α β ε : Type} {as : List α} {changes : List (Option α)} {new : α → α}
  {untouched : α → Prop}

theorem exists_mapM_forall₂ {f : α → Except ε β} {R : α → β → Prop}
    (h : ∀ a ∈ as, ∃ b, f a = .ok b ∧ R a b) :
    ∃ bs, as.mapM f = .ok bs ∧ List.Forall₂ R as bs := by
  induction as with
  | nil => exact ⟨[], rfl, .nil⟩
  | cons a as ih =>
    obtain ⟨b, ha, hb⟩ := h a (.head _)
    obtain ⟨bs, has, hbs⟩ := ih fun a' ha' => h a' (.tail _ ha')
    refine ⟨b :: bs, ?_, .cons hb hbs⟩
    rw [List.mapM_cons, ha, has]
    rfl

variable (h : List.Forall₂ (fun a change => ComesBack a (new a) (untouched a) change) as changes)
include h

theorem zipWith_getD_eq :
    List.zipWith (fun a (change : Option α) => change.getD a) as changes = as.map new := by
  induction h with
  | nil => rfl
  | cons hchange _ ih => exact congrArg₂ List.cons hchange.getD_eq ih

theorem all_isNone_iff : changes.all Option.isNone ↔ ∀ a ∈ as, untouched a := by
  induction h with
  | nil => simp
  | cons hchange _ ih =>
    rw [List.all_cons, Bool.and_eq_true, ih, Option.isNone_iff_eq_none, hchange.eq_none_iff,
      List.forall_mem_cons]

theorem map_of_all_isNone (hall : changes.all Option.isNone) : as.map new = as := by
  induction h with
  | nil => rfl
  | cons hchange _ ih =>
    rw [List.all_cons, Bool.and_eq_true, Option.isNone_iff_eq_none] at hall
    obtain ⟨rfl, hall⟩ := hall
    exact congrArg₂ List.cons hchange.getD_eq.symm (ih hall)

end All

namespace Stmt

def withChildren : Stmt → List Stmt → Stmt
  | compound _ l, body => compound body l
  | ifElse c _ none l, [yes] => ifElse c yes none l
  | ifElse c _ (some _) l, [yes, no] => ifElse c yes (some no) l
  | switch c _ l, [sub] => switch c sub l
  | caseLabel value _ l, [sub] => caseLabel value sub l
  | defaultLabel _ l, [sub] => defaultLabel sub l
  | forLoop none c step _ l, [sub] => forLoop none c step sub l
  | forLoop (some _) c step _ l, [init, sub] => forLoop (some init) c step sub l
  | rangeFor var range _ typeName l, [sub] => rangeFor var range sub typeName l
  | whileLoop c _ l, [sub] => whileLoop c sub l
  | doWhile _ c l, [sub] => doWhile sub c l
  | attributed attrs _ range l, [sub] => attributed attrs sub range l
  | annotated attrs _ range l, [sub] => annotated attrs sub range l
  | s, _ => s

def acted (s : Stmt) : TransformAction → Stmt
  | .keep => s
  | .unwrap => s.wrapped?.getD s
  | .toNull => null s.loc
  | .toBreak => brk s.loc
  | .toContinue => cont s.loc

def rewritten (rules : TransformRules) (s : Stmt) : Stmt :=
  match rules s.kind with
  | some action => s.acted action
  | none => s.withChildren (s.children.attach.map fun t => t.1.rewritten rules)
termination_by sizeOf s
decreasing_by exact sizeOf_lt_of_mem_children t.2

/-- The second statement is in the first, and none around it has a rule. -/
inductive Enters (rules : TransformRules) : Stmt → Stmt → Prop where
  | self (s : Stmt) : Enters rules s s
  | inside {s t v : Stmt} (hs : rules s.kind = none) (ht : t ∈ s.children) (h : Enters rules t v) :
    Enters rules s v

/-- Of the statements that are entered, none has a rule other than to keep it. -/
def Untouched (rules : TransformRules) (s : Stmt) : Prop :=
  ∀ t, s.Enters rules t → ∀ action, rules t.kind = some action → action = .keep

variable {rules : TransformRules} {s : Stmt}

theorem withChildren_children (s : Stmt) : s.withChildren s.children = s := by
  cases s with
  | ifElse c yes no l => cases no <;> rfl
  | forLoop init c step body l => cases init <;> rfl
  | _ => rfl

theorem children_withChildren {ts : List Stmt} (h : ts.length = s.children.length) :
    (s.withChildren ts).children = ts ∧ (s.withChildren ts).withChildren s.children = s := by
  cases s with
  | compound body l => exact ⟨rfl, rfl⟩
  | null | expr | decl | ret | brk | cont =>
    obtain rfl := List.length_eq_zero_iff.mp h
    exact ⟨rfl, rfl⟩
  | ifElse c yes no l =>
    cases no with
    | none =>
      obtain ⟨t, rfl⟩ := List.length_eq_one_iff.mp h
      exact ⟨rfl, rfl⟩
    | some no =>
      obtain ⟨t, v, rfl⟩ := List.length_eq_two.mp h
      exact ⟨rfl, rfl⟩
  | forLoop init c step body l =>
    cases init with
    | none =>
      obtain ⟨t, rfl⟩ := List.length_eq_one_iff.mp h
      exact ⟨rfl, rfl⟩
    | some init =>
      obtain ⟨t, v, rfl⟩ := List.length_eq_two.mp h
      exact ⟨rfl, rfl⟩
  | _ =>
    obtain ⟨t, rfl⟩ := List.length_eq_one_iff.mp h
    exact ⟨rfl, rfl⟩

theorem rewritten_of_rule {action : TransformAction} (h : rules s.kind = some action) :
    s.rewritten rules = s.acted action := by
  rw [rewritten, h]

theorem rewritten_of_none (h : rules s.kind = none) :
    s.rewritten rules = s.withChildren (s.children.map (rewritten rules)) := by
  rw [rewritten, h]
  simp

theorem untouched_iff_of_rule {action : TransformAction} (h : rules s.kind = some action) :
    s.Untouched rules ↔ action = .keep := by
  constructor
  · exact fun hs => hs s (.self s) action h
  · rintro rfl t ht action ha
    cases ht with
    | self => exact Option.some.inj (ha.symm.trans h)
    | inside hs => exact absurd (hs.symm.trans h) nofun

theorem untouched_iff_of_none (h : rules s.kind = none) :
    s.Untouched rules ↔ ∀ t ∈ s.children, t.Untouched rules := by
  constructor
  · exact fun hs t ht v hv => hs v (.inside h ht hv)
  · intro hc t ht action ha
    cases ht with
    | self => exact absurd (ha.symm.trans h) nofun
    | inside _ ht hv => exact hc _ ht _ hv action ha

section NoRule

def reassembled (rules : TransformRules) (s : Stmt) : Except TransformError (Option Stmt) := do
  let changes ← transformAll rules s.children
  return if changes.all Option.isNone then none
    else some (s.withChildren (merge s.children changes))

theorem reassembled_single {t : Stmt} (hc : s.children = [t]) : s.reassembled rules = do
    return (← t.transform rules).map fun t' => s.withChildren [t'] := by
  simp only [reassembled, hc, transformAll]
  rcases t.transform rules with _ | _ | t' <;> rfl

theorem reassembled_pair {t v : Stmt} (hc : s.children = [t, v]) : s.reassembled rules = do
    match ← t.transform rules, ← v.transform rules with
    | none, none => return none
    | t', v' => return some (s.withChildren [t'.getD t, v'.getD v]) := by
  simp only [reassembled, hc, transformAll]
  rcases t.transform rules with _ | _ | t' <;> rcases v.transform rules with _ | _ | v' <;> rfl

theorem transform_of_none (h : rules s.kind = none) :
    s.transform rules = s.reassembled rules := by
  rw [transform.eq_def, h]
  symm
  cases s with
  | null | expr | decl | ret | brk | cont | compound => rfl
  | ifElse c yes no l =>
    cases no with
    | none => exact reassembled_single rfl
    | some no => exact reassembled_pair rfl
  | forLoop init c step body l =>
    cases init with
    | none => exact reassembled_single rfl
    | some init => exact reassembled_pair rfl
  | switch | caseLabel | defaultLabel | rangeFor | whileLoop | doWhile | attributed | annotated =>
    exact reassembled_single rfl

end NoRule

abbrev Transforms (rules : TransformRules) (s : Stmt) : Option Stmt → Prop :=
  ComesBack s (s.rewritten rules) (s.Untouched rules)

theorem transformAll_eq_mapM (ss : List Stmt) :
    transformAll rules ss = ss.mapM (transform rules) := by
  induction ss with
  | nil => rfl
  | cons s ss ih => rw [transformAll, ih, List.mapM_cons]

theorem applyAction_eq {action : TransformAction} (ha : action ≠ .keep)
    (hw : action = .unwrap → s.kind.wraps) :
    s.applyAction action = .ok (some (s.acted action)) := by
  cases action with
  | keep => exact absurd rfl ha
  | unwrap =>
    have hwraps := hw rfl
    cases s <;> first | rfl | cases hwraps
  | toNull | toBreak | toContinue => rfl

theorem exists_transform_of_rule (hr : rules.Fit) {action : TransformAction}
    (h : rules s.kind = some action) :
    ∃ change, s.transform rules = .ok change ∧ s.Transforms rules change := by
  have hsame := untouched_iff_of_rule h
  have hresult := rewritten_of_rule h
  rw [transform.eq_def, h]
  by_cases ha : action = .keep
  · subst ha
    exact ⟨none, rfl, iff_of_true rfl (hsame.mpr rfl), hresult.symm⟩
  · have happly := applyAction_eq ha fun hunwrap => hr s.kind (hunwrap ▸ h)
    exact ⟨_, happly, iff_of_false nofun fun hs => ha (hsame.mp hs), hresult.symm⟩

theorem exists_transform (hr : rules.Fit) (s : Stmt) :
    ∃ change, s.transform rules = .ok change ∧ s.Transforms rules change := by
  induction s using childInduction with
  | h s ih =>
    cases h : rules s.kind with
    | some action => exact exists_transform_of_rule hr h
    | none =>
      obtain ⟨changes, hall, hchanges⟩ := exists_mapM_forall₂ ih
      have hnone := all_isNone_iff hchanges
      rw [← untouched_iff_of_none h] at hnone
      rw [transform_of_none h, reassembled, transformAll_eq_mapM, hall]
      refine ⟨_, rfl, ?_, ?_⟩
      · split_ifs with hsame
        · exact iff_of_true rfl (hnone.mp hsame)
        · exact iff_of_false nofun fun hs => hsame (hnone.mpr hs)
      · rw [rewritten_of_none h]
        split_ifs with hsame
        · rw [map_of_all_isNone hchanges hsame, withChildren_children]
          rfl
        · exact congrArg s.withChildren (zipWith_getD_eq hchanges)

/-- The statements of a block that kept their places. There are none if the block itself is
replaced; in a block that is kept as a whole, nothing is entered. -/
structure KeepsPlaces (rules : TransformRules) (body : List Stmt) (kept : Option (List Bool)) :
    Prop where
  eq_none_iff : kept = none ↔ ∃ action, rules .compound = some action ∧ action ≠ .keep
  flags : ∀ flags ∈ kept, List.Forall₂
    (fun s same => same = true ↔ (rules .compound = none → s.Untouched rules)) body flags

theorem exists_keptInBody_of_rule (hr : rules.Fit) {action : TransformAction}
    (h : rules .compound = some action) (body : List Stmt) (l : Loc) :
    ∃ kept, (compound body l).keptInBody rules = .ok kept ∧ KeepsPlaces rules body kept := by
  have htransform : (compound body l).transform rules = (compound body l).applyAction action := by
    rw [transform.eq_def, kind, h]
  rw [keptInBody, htransform]
  by_cases ha : action = .keep
  · subst ha
    refine ⟨some (body.map fun _ => true), rfl, iff_of_false (Option.some_ne_none _) ?_, ?_⟩
    · rintro ⟨action, haction, hne⟩
      exact hne (Option.some.inj (haction.symm.trans h))
    · rintro _ ⟨⟩
      have hflag : ∀ s ∈ body, (true = true ↔ (rules .compound = none → s.Untouched rules)) :=
        fun s _ => iff_of_true rfl fun hnone =>
          absurd (hnone.symm.trans h) (Option.some_ne_none _).symm
      exact List.forall₂_map_right_iff.mpr (List.forall₂_same.mpr hflag)
  · have hreplaced : KeepsPlaces rules body none := ⟨iff_of_true rfl ⟨action, h, ha⟩, nofun⟩
    refine ⟨none, ?_, hreplaced⟩
    cases action with
    | keep => exact absurd rfl ha
    | unwrap => cases hr _ h
    | toNull | toBreak | toContinue => rfl

theorem exists_keptInBody (hr : rules.Fit) (body : List Stmt) (l : Loc) :
    ∃ kept, (compound body l).keptInBody rules = .ok kept ∧ KeepsPlaces rules body kept := by
  cases h : rules .compound with
  | some action => exact exists_keptInBody_of_rule hr h body l
  | none =>
    obtain ⟨changes, hall, hchanges⟩ :=
      exists_mapM_forall₂ fun s (_ : s ∈ body) => exists_transform hr s
    rw [← transformAll_eq_mapM] at hall
    have hunruled : ¬ ∃ action, rules .compound = some action ∧ action ≠ .keep := by
      rintro ⟨action, haction, _⟩
      exact absurd (haction.symm.trans h) (Option.some_ne_none _)
    have htransform : (compound body l).transform rules =
        .ok (if changes.all Option.isNone then none
          else some (compound (merge body changes) l)) := by
      rw [transform_of_none h, reassembled, children, hall]
      rfl
    rw [keptInBody, htransform]
    by_cases hsame : changes.all Option.isNone
    · refine ⟨some (body.map fun _ => true), by rw [if_pos hsame]; rfl,
        iff_of_false (Option.some_ne_none _) hunruled, ?_⟩
      rintro _ ⟨⟩
      have hbody := (all_isNone_iff hchanges).mp hsame
      have hflag : ∀ s ∈ body, (true = true ↔ (rules .compound = none → s.Untouched rules)) :=
        fun s hs => iff_of_true rfl fun _ => hbody s hs
      exact List.forall₂_map_right_iff.mpr (List.forall₂_same.mpr hflag)
    · refine ⟨some (changes.map Option.isNone), ?_,
        iff_of_false (Option.some_ne_none _) hunruled, ?_⟩
      · rw [if_neg hsame]
        show (transformAll rules body >>= _) = _
        rw [hall]
        rfl
      · rintro _ ⟨⟩
        refine List.forall₂_map_right_iff.mpr (hchanges.imp fun s change hchange => ?_)
        rw [Option.isNone_iff_eq_none, hchange.eq_none_iff]
        exact ⟨fun hs _ => hs, fun hs => hs h⟩

end Stmt

def Function.rewritten (rules : TransformRules) (f : Function) : Function :=
  { f with body := f.body.rewritten rules }

def SourceUnit.rewritten (rules : TransformRules) (u : SourceUnit) : SourceUnit :=
  { u with functions := u.functions.map (Function.rewritten rules) }

variable {rules : TransformRules}

theorem Function.exists_transform (hr : rules.Fit) (f : Function) :
    ∃ change, f.transform rules = .ok change ∧
      ComesBack f (f.rewritten rules) (f.body.Untouched rules) change := by
  obtain ⟨change, hbody, hchange⟩ := Stmt.exists_transform hr f.body
  refine ⟨change.map fun body => { f with body }, ?_, ?_, ?_⟩
  · rw [transform, hbody]
    rfl
  · rw [Option.map_eq_none_iff, hchange.eq_none_iff]
  · rw [rewritten, ← hchange.getD_eq]
    cases change <;> rfl

theorem Parser.yields_function_block (n : Nat) :
    Yields (function n) fun f => ∃ body l, f.body = .compound body l := by
  intro c f c' h
  obtain ⟨d, _, hbody⟩ := body_of_function h
  have hblock : Yields (compoundStmt n (stmt n)) fun s => ∃ body l, s = .compound body l :=
    .skip fun _ => .skip fun _ => .skip fun _ => .skip fun body => .skip fun _ =>
      .pure ⟨body, _, rfl⟩
  exact hblock d f.body c' hbody

theorem functions_of_parse {P : Function → Prop} (hP : ∀ n, Parser.Yields (Parser.function n) P)
    {file text : String} {u : SourceUnit} (h : parse file text = .ok u) :
    ∀ f ∈ u.functions, P f := by
  obtain ⟨items, c, hitems, _, rfl⟩ := exists_items_of_parse h
  have hitem (n : Nat) : Parser.Yields (Parser.topLevel n) fun item =>
      ∀ f ∈ item.function?, P f := by
    refine .orElse (.map fun c f c' h => ?_) (.map fun _ _ _ _ => nofun)
    rintro _ ⟨⟩
    exact hP n c f c' h
  have hround (n : Nat) : Parser.Yields (Parser.topLevel n <* Parser.layout) fun item =>
      ∀ f ∈ item.function?, P f := (hitem n).bind fun _ h => .skip fun _ => .pure h
  have hall := (Parser.Yields.skip fun _ => (hround _).many _) _ items c hitems
  intro f hf
  obtain ⟨item, hmem, hfunction⟩ := List.mem_filterMap.mp hf
  exact hall item hmem f hfunction

/-- A transformation by rules for classes of statements changes just what it has to. The unit, each
function and each statement of a body that the walk enters come back themselves if and only if the
walk gets to no statement in them that its rule does not keep. What comes back else differs in the
outermost statements that have a rule, and in nothing else. -/
theorem transform_sharing {file text : String} {u : SourceUnit} (h : parse file text = .ok u)
    (hr : rules.Fit) : ∃ t, u.transform { stmts := rules } = .ok t ∧
      ComesBack u (u.rewritten rules) (∀ f ∈ u.functions, f.body.Untouched rules) t.unit ∧
      List.Forall₂ (fun f change => ComesBack f (f.rewritten rules) (f.body.Untouched rules) change)
        u.functions t.functions ∧
      List.Forall₂ (fun f kept => ∃ body l, f.body = .compound body l ∧
        Stmt.KeepsPlaces rules body kept) u.functions t.kept := by
  obtain ⟨changes, hall, hchanges⟩ :=
    exists_mapM_forall₂ fun f (_ : f ∈ u.functions) => Function.exists_transform hr f
  obtain ⟨kept, hkept, hplaces⟩ := exists_mapM_forall₂ (f := fun f => f.body.keptInBody rules)
    (R := fun f kept => ∃ body l, f.body = .compound body l ∧ Stmt.KeepsPlaces rules body kept)
    fun f (hf : f ∈ u.functions) => by
      obtain ⟨body, l, hbody⟩ := functions_of_parse Parser.yields_function_block h f hf
      obtain ⟨kept, hkept, hplaces⟩ := Stmt.exists_keptInBody hr body l
      exact ⟨kept, hbody ▸ hkept, body, l, hbody, hplaces⟩
  let functions :=
    List.zipWith (fun f (change : Option Function) => change.getD f) u.functions changes
  refine ⟨⟨if changes.all Option.isNone then none else some { u with functions }, changes, kept⟩,
    ?_, ⟨?_, ?_⟩, hchanges, hplaces⟩
  · have hwhole : ({ stmts := rules } : UnitRules).replaceWhole u = false := rfl
    have hrules : ({ stmts := rules } : UnitRules).inBodies = rules := rfl
    simp only [SourceUnit.transform, hwhole, hrules, hall, hkept]
    rfl
  · have hsame := all_isNone_iff hchanges
    split_ifs with hnone
    · exact iff_of_true rfl (hsame.mp hnone)
    · exact iff_of_false nofun fun hu => hnone (hsame.mpr hu)
  · have hfunctions : functions = u.functions.map (Function.rewritten rules) :=
      zipWith_getD_eq hchanges
    rw [SourceUnit.rewritten]
    split_ifs with hnone
    · rw [map_of_all_isNone hchanges hnone]
      rfl
    · rw [← hfunctions]
      rfl

def unlabelled : TransformRules
  | .caseLabel | .defaultLabel => some .unwrap
  | .brk => some .toContinue
  | .null => some .keep
  | _ => none

theorem fit_unlabelled : unlabelled.Fit := by
  intro kind
  cases kind <;> simp [unlabelled, StmtKind.wraps]

def breakingText : String :=
  "void f(int n) \x7b switch (n) case 1: break; return; \x7d void g() \x7b ; \x7d"

theorem transform_sharing_unlabelled : ∃ u t, parse "a.cc" breakingText = .ok u ∧ unlabelled.Fit ∧
    u.transform { stmts := unlabelled } = .ok t ∧
    t.functions.map Option.isSome = [true, false] ∧
    t.kept = [some [false, true], some [true]] ∧
    ComesBack u (u.rewritten unlabelled) (∀ f ∈ u.functions, f.body.Untouched unlabelled) t.unit ∧
    List.Forall₂ (fun f change =>
      ComesBack f (f.rewritten unlabelled) (f.body.Untouched unlabelled) change)
      u.functions t.functions ∧
    List.Forall₂ (fun f kept => ∃ body l, f.body = .compound body l ∧
      Stmt.KeepsPlaces unlabelled body kept) u.functions t.kept := by
  have hread : ∃ u ∈ (parse "a.cc" breakingText).toOption,
      ∃ t ∈ (u.transform { stmts := unlabelled }).toOption,
        t.functions.map Option.isSome = [true, false] ∧
        t.kept = [some [false, true], some [true]] := by
    decide +kernel
  obtain ⟨u, hu, t, ht, hfunctions, hkept⟩ := hread
  have hp := ok_of_mem_toOption hu
  have htransform := ok_of_mem_toOption ht
  obtain ⟨t', ht', hunit, hchanges, hplaces⟩ := transform_sharing hp fit_unlabelled
  obtain rfl := Except.ok.inj (htransform.symm.trans ht')
  exact ⟨u, t, hp, fit_unlabelled, htransform, hfunctions, hkept, hunit, hchanges, hplaces⟩

end AttrCheck
