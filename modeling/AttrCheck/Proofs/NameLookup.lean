import AttrCheck.Proofs.ConstantRange
import AttrCheck.Proofs.Containment
import AttrCheck.Proofs.DeclaredType
import AttrCheck.Proofs.ScopeAgreement

/-! Names looked up in scopes. To write the meanings of its names into an expression and to fold
what results is to fold the expression with each name looked up where it is met. Nothing but the
names is touched, and what has a value without them keeps it. -/

namespace AttrCheck

namespace Scopes

def Fit (scopes : Scopes) : Prop :=
  ∀ scope ∈ scopes, ∀ x ∈ scope, ∀ v, x.2.constant = some v → Fits v

def known? (scopes : Scopes) (n : String) : Option Int :=
  match scopes.find? n with
  | some ⟨some v, false⟩ => some v
  | _ => none

def IsParam (scopes : Scopes) (n : String) : Prop :=
  ∃ b, scopes.find? n = some b ∧ b.isTemplateParam = true

theorem fit_start : Fit [[]] := by
  intro scope hs x hx
  obtain rfl := List.mem_singleton.mp hs
  cases hx

theorem Fit.enter {scopes : Scopes} (h : scopes.Fit) {scope : Scope}
    (hs : ∀ x ∈ scope, x.2.constant = none) : Fit (scope :: scopes) := by
  intro scope' hmem x hx v hv
  obtain rfl | hmem := List.mem_cons.mp hmem
  · rw [hs x hx] at hv
    cases hv
  · exact h scope' hmem x hx v hv

theorem Fit.declareVar {scopes : Scopes} (h : scopes.Fit) (d : VarDecl) :
    (scopes.declareVar d).Fit := by
  have hd : ∀ v, (d.binding scopes).constant = some v → Fits v := by
    intro v hv
    simp only [VarDecl.binding, Binding.ofConstant] at hv
    split_ifs at hv
    obtain ⟨e, _, hv⟩ := Option.bind_eq_some_iff.mp hv
    exact Expr.fits_constant? hv
  intro scope hs x hx v hv
  cases scopes with
  | nil =>
    obtain rfl := List.mem_singleton.mp hs
    obtain rfl := List.mem_singleton.mp hx
    exact hd v hv
  | cons inner outer =>
    obtain rfl | hs := List.mem_cons.mp hs
    · obtain rfl | hx := List.mem_cons.mp hx
      · exact hd v hv
      · exact h inner (.head _) x hx v hv
    · exact h scope (.tail _ hs) x hx v hv

theorem Fit.known? {scopes : Scopes} (h : scopes.Fit) {n : String} {v : Int}
    (hv : scopes.known? n = some v) : Fits v := by
  unfold Scopes.known? at hv
  split at hv
  next w hfind =>
    obtain rfl := Option.some.inj hv
    obtain ⟨scope, hs, hl⟩ := List.exists_of_findSome?_eq_some hfind
    obtain ⟨inner, outer, rfl, _⟩ := List.lookup_eq_some_iff.mp hl
    exact h _ hs (n, ⟨some w, false⟩) (by simp) w rfl
  next => cases hv

end Scopes

namespace Expr

def valueWith? (look : String → Option Int) : Expr → Option Int
  | int value _ _ => fitting value
  | name n _ _ => look n
  | paren inner _ => inner.valueWith? look
  | unary op operand _ => (operand.valueWith? look).bind op.value?
  | binary op lhs rhs _ =>
    (lhs.valueWith? look).bind fun a =>
      (op.decided? a).or ((rhs.valueWith? look).bind (op.value? a))
  | conditional c yes no _ =>
    (c.valueWith? look).bind fun a => if a = 0 then no.valueWith? look else yes.valueWith? look
  | string _ _ | call _ _ _ | assign _ _ _ _ => none

def IsUnbound (e : Expr) : Prop := ∀ x ∈ e.mentions, x.2 = .runtime

mutual

/-- The expression with `f` of each name, and of what is written into it, written into the name. -/
def withMeanings (f : Mention → Binding) : Expr → Expr
  | int value text l => int value text l
  | string value l => string value l
  | name n b l => name n (f (n, b)) l
  | paren inner l => paren (inner.withMeanings f) l
  | unary op operand l => unary op (operand.withMeanings f) l
  | binary op lhs rhs l => binary op (lhs.withMeanings f) (rhs.withMeanings f) l
  | conditional c yes no l =>
    conditional (c.withMeanings f) (yes.withMeanings f) (no.withMeanings f) l
  | call callee args l => call (callee.withMeanings f) (allWithMeanings f args) l
  | assign op target value l => assign op (target.withMeanings f) (value.withMeanings f) l

def allWithMeanings (f : Mention → Binding) : List Expr → List Expr
  | [] => []
  | e :: es => e.withMeanings f :: allWithMeanings f es

end

theorem allWithMeanings_eq_map (f : Mention → Binding) (es : List Expr) :
    allWithMeanings f es = es.map (withMeanings f) := by
  induction es with
  | nil => rfl
  | cons e es ih => rw [allWithMeanings, ih, List.map_cons]

def unbound (e : Expr) : Expr := e.withMeanings fun _ => .runtime

theorem mentionsAll_eq_flatMap (es : List Expr) : mentionsAll es = es.flatMap mentions := by
  induction es with
  | nil => rfl
  | cons e es ih => rw [mentionsAll, ih, List.flatMap_cons]

def mention? : Expr → Option Mention
  | name n b _ => some (n, b)
  | _ => none

theorem mentions_eq (e : Expr) : e.mentions = e.mention?.toList ++ e.parts.flatMap mentions := by
  cases e with
  | call callee args l => rw [mentions, mentionsAll_eq_flatMap]; rfl
  | _ => simp [mentions, mention?, parts]

theorem mem_mentions_iff {e : Expr} {n : String} {b : Binding} :
    (n, b) ∈ e.mentions ↔ ∃ l, (Node.expr e).Contains (.expr (.name n b l)) := by
  constructor
  · intro h
    induction e using partsInduction with
    | h e ih =>
      rw [mentions_eq, List.mem_append] at h
      obtain h | h := h
      · cases e with
        | name n' b' l =>
          obtain ⟨rfl, rfl⟩ := Prod.mk.inj (List.mem_singleton.mp h)
          exact ⟨l, .refl⟩
        | _ => exact absurd h List.not_mem_nil
      · obtain ⟨e', he', h⟩ := List.mem_flatMap.mp h
        obtain ⟨l, hl⟩ := ih e' he' h
        exact ⟨l, .head (List.mem_map_of_mem he') hl⟩
  · rintro ⟨l, h⟩
    generalize hnode : Node.expr e = a at h
    induction h using Relation.ReflTransGen.head_induction_on generalizing e with
    | refl =>
      obtain rfl := Node.expr.inj hnode
      exact .head _
    | head hpart _ ih =>
      subst hnode
      obtain ⟨e', he', rfl⟩ := List.mem_map.mp hpart
      rw [mentions_eq]
      exact List.mem_append_right _ (List.mem_flatMap_of_mem he' (ih rfl))

theorem isDependent_iff (e : Expr) :
    e.isDependent = true ↔ ∃ x ∈ e.mentions, x.2.isTemplateParam = true := by
  induction e using partsInduction with
  | h e ih =>
    have hparts : e.isDependent = true ↔ (∃ x ∈ e.mention?.toList, x.2.isTemplateParam = true) ∨
        ∃ e' ∈ e.parts, e'.isDependent = true := by
      cases e with
      | call callee args l => simp [isDependent, anyDependent_eq_any, mention?, parts]
      | _ => simp [isDependent, mention?, parts, or_assoc]
    rw [hparts, mentions_eq]
    simp only [List.mem_append, List.mem_flatMap, or_and_right, exists_or]
    refine or_congr_right ?_
    constructor
    · rintro ⟨e', he', hd⟩
      obtain ⟨x, hx, ht⟩ := (ih e' he').mp hd
      exact ⟨x, ⟨e', he', hx⟩, ht⟩
    · rintro ⟨x, ⟨e', he', hx⟩, ht⟩
      exact ⟨e', he', (ih e' he').mpr ⟨x, hx, ht⟩⟩

theorem parts_withMeanings (f : Mention → Binding) (e : Expr) :
    (e.withMeanings f).parts = e.parts.map (withMeanings f) := by
  cases e with
  | call callee args l => rw [withMeanings, parts, parts, allWithMeanings_eq_map, List.map_cons]
  | _ => rfl

theorem mentions_withMeanings (f : Mention → Binding) (e : Expr) :
    (e.withMeanings f).mentions = e.mentions.map fun x => (x.1, f x) := by
  induction e using partsInduction with
  | h e ih =>
    have hown : (e.withMeanings f).mention?.toList = e.mention?.toList.map fun x => (x.1, f x) := by
      cases e <;> rfl
    rw [mentions_eq, mentions_eq e, hown, parts_withMeanings, List.flatMap_map, List.map_append,
      List.map_flatMap]
    exact congrArg _ (List.flatMap_congr ih)

theorem withMeanings_withMeanings {f g h : Mention → Binding} {e : Expr}
    (hfg : ∀ x ∈ e.mentions, f (x.1, g x) = h x) :
    (e.withMeanings g).withMeanings f = e.withMeanings h := by
  induction e using partsInduction with
  | h e ih =>
    have hparts : ∀ e' ∈ e.parts, (e'.withMeanings g).withMeanings f = e'.withMeanings h := by
      intro e' he'
      refine ih e' he' fun x hx => hfg x ?_
      rw [mentions_eq]
      exact List.mem_append_right _ (List.mem_flatMap_of_mem he' hx)
    cases e with
    | int | string => rfl
    | name n b l => exact congrArg (name n · l) (hfg (n, b) (.head _))
    | call callee args l =>
      have hargs : args.map (withMeanings f ∘ withMeanings g) = args.map (withMeanings h) :=
        List.map_congr_left fun e he => hparts e (.tail _ he)
      rw [withMeanings, withMeanings, withMeanings, hparts callee (.head _), allWithMeanings_eq_map,
        allWithMeanings_eq_map, allWithMeanings_eq_map, List.map_map, hargs]
    | paren | unary => rw [withMeanings, withMeanings, withMeanings, hparts _ (.head _)]
    | binary | assign =>
      rw [withMeanings, withMeanings, withMeanings, hparts _ (.head _),
        hparts _ (.tail _ (.head _))]
    | conditional =>
      rw [withMeanings, withMeanings, withMeanings, hparts _ (.head _),
        hparts _ (.tail _ (.head _)), hparts _ (.tail _ (.tail _ (.head _)))]

theorem withMeanings_snd (e : Expr) : e.withMeanings Prod.snd = e := by
  induction e using partsInduction with
  | h e ih =>
    cases e with
    | int | string | name => rfl
    | call callee args l =>
      have hargs : args.map (withMeanings Prod.snd) = args.map id :=
        List.map_congr_left fun e he => ih e (.tail _ he)
      rw [withMeanings, ih callee (.head _), allWithMeanings_eq_map, hargs, List.map_id]
    | paren | unary => rw [withMeanings, ih _ (.head _)]
    | binary | assign => rw [withMeanings, ih _ (.head _), ih _ (.tail _ (.head _))]
    | conditional =>
      rw [withMeanings, ih _ (.head _), ih _ (.tail _ (.head _)),
        ih _ (.tail _ (.tail _ (.head _)))]

theorem bound_eq_withMeanings (scopes : Scopes) (e : Expr) :
    e.bound scopes = e.withMeanings scopes.meaning := by
  induction e using partsInduction with
  | h e ih =>
    cases e with
    | int | string | name => rfl
    | call callee args l =>
      have hargs : args.map (bound scopes) = args.map (withMeanings scopes.meaning) :=
        List.map_congr_left fun e he => ih e (.tail _ he)
      rw [bound, withMeanings, ih callee (.head _), boundAll_eq_map, allWithMeanings_eq_map, hargs]
    | paren | unary => rw [bound, withMeanings, ih _ (.head _)]
    | binary | assign => rw [bound, withMeanings, ih _ (.head _), ih _ (.tail _ (.head _))]
    | conditional =>
      rw [bound, withMeanings, ih _ (.head _), ih _ (.tail _ (.head _)),
        ih _ (.tail _ (.tail _ (.head _)))]

theorem bound_nil (e : Expr) : e.bound [] = e :=
  (bound_eq_withMeanings [] e).trans e.withMeanings_snd

theorem mentions_bound (scopes : Scopes) (e : Expr) :
    (e.bound scopes).mentions = e.mentions.map fun x => (x.1, scopes.meaning x) := by
  rw [bound_eq_withMeanings, mentions_withMeanings]

theorem bound_bound (scopes : Scopes) (e : Expr) :
    (e.bound scopes).bound scopes = e.bound scopes := by
  rw [bound_eq_withMeanings, bound_eq_withMeanings]
  refine withMeanings_withMeanings fun x _ => ?_
  rw [Scopes.meaning, Scopes.meaning]
  cases scopes.find? x.1 <;> rfl

theorem unbound_bound (scopes : Scopes) (e : Expr) : (e.bound scopes).unbound = e.unbound := by
  rw [bound_eq_withMeanings]
  exact withMeanings_withMeanings fun _ _ => rfl

theorem IsUnbound.unbound_eq {e : Expr} (h : e.IsUnbound) : e.unbound = e := by
  have hsame : (e.withMeanings Prod.snd).withMeanings Prod.snd = e.unbound :=
    withMeanings_withMeanings h
  rwa [withMeanings_snd, withMeanings_snd, eq_comm] at hsame

theorem IsUnbound.part {e e' : Expr} (h : e.IsUnbound) (he' : e' ∈ e.parts) : e'.IsUnbound := by
  intro x hx
  refine h x ?_
  rw [mentions_eq]
  exact List.mem_append_right _ (List.mem_flatMap_of_mem he' hx)

theorem constant?_bound {e : Expr} (h : e.IsUnbound) (scopes : Scopes) :
    (e.bound scopes).constant? = e.valueWith? fun n => (scopes.known? n).bind fitting := by
  induction e using partsInduction with
  | h e ih =>
    have hparts (e') (he' : e' ∈ e.parts) := ih e' he' (h.part he')
    cases e with
    | int | string | call | assign => rfl
    | name n b l =>
      obtain rfl : b = .runtime := h (n, b) (.head _)
      rw [bound, valueWith?, constant?, Scopes.known?]
      rcases scopes.find? n with _ | ⟨_ | v, _ | _⟩ <;> rfl
    | paren => rw [bound, constant?, valueWith?, hparts _ (.head _)]
    | unary => rw [bound, constant?, valueWith?, hparts _ (.head _)]
    | binary op lhs rhs l =>
      rw [bound, constant?, valueWith?, hparts lhs (.head _), hparts rhs (.tail _ (.head _))]
      refine congrArg _ (funext fun a => ?_)
      cases op.decided? a <;> rfl
    | conditional c yes no l =>
      rw [bound, constant?, valueWith?, hparts c (.head _), hparts yes (.tail _ (.head _)),
        hparts no (.tail _ (.tail _ (.head _)))]

theorem valueWith?_mono {look look' : String → Option Int}
    (hlook : ∀ n v, look n = some v → look' n = some v) {e : Expr} {v : Int}
    (h : e.valueWith? look = some v) : e.valueWith? look' = some v := by
  fun_induction valueWith? look e generalizing v with
  | case1 => exact h
  | case2 n b l => exact hlook n v h
  | case3 inner l ih => exact ih h
  | case4 op operand l ih =>
    obtain ⟨a, ha, hv⟩ := Option.bind_eq_some_iff.mp h
    rw [valueWith?, ih ha]
    exact hv
  | case5 op lhs rhs l ihl ihr =>
    obtain ⟨a, ha, hv⟩ := Option.bind_eq_some_iff.mp h
    rw [valueWith?, ihl ha, Option.bind_some]
    -- An operand that is not evaluated may well be without a value.
    obtain hd | ⟨hd, hv⟩ := Option.or_eq_some_iff.mp hv
    · rw [hd, Option.some_or]
    · obtain ⟨b, hb, hv⟩ := Option.bind_eq_some_iff.mp hv
      rw [hd, Option.none_or, ihr hb]
      exact hv
  | case6 c yes no l ihc ihno ihyes =>
    obtain ⟨a, ha, hv⟩ := Option.bind_eq_some_iff.mp h
    rw [valueWith?, ihc ha, Option.bind_some]
    split_ifs at hv ⊢
    · exact ihno hv
    · exact ihyes hv
  | case7 => cases h
  | case8 => cases h
  | case9 => cases h

theorem isDependent_bound_iff {e : Expr} (h : e.IsUnbound) (scopes : Scopes) :
    (e.bound scopes).isDependent = true ↔
      ∃ n b l, (Node.expr e).Contains (.expr (.name n b l)) ∧ scopes.IsParam n := by
  rw [isDependent_iff, mentions_bound]
  constructor
  · rintro ⟨x, hx, ht⟩
    obtain ⟨⟨n, b⟩, hmem, rfl⟩ := List.mem_map.mp hx
    obtain ⟨l, hl⟩ := mem_mentions_iff.mp hmem
    refine ⟨n, b, l, hl, ?_⟩
    obtain rfl : b = .runtime := h (n, b) hmem
    unfold Scopes.meaning at ht
    cases hfind : scopes.find? n with
    | none =>
      rw [hfind] at ht
      cases ht
    | some b' =>
      rw [hfind] at ht
      exact ⟨b', hfind, ht⟩
  · rintro ⟨n, b, l, hl, b', hfind, ht⟩
    have hmem := mem_mentions_iff.mpr ⟨l, hl⟩
    refine ⟨_, List.mem_map_of_mem hmem, ?_⟩
    rw [Scopes.meaning, hfind]
    exact ht

theorem isUnbound_of_parts {e : Expr} (hown : ∀ x ∈ e.mention?, x.2 = .runtime)
    (h : ∀ e' ∈ e.parts, e'.IsUnbound) : e.IsUnbound := by
  intro x hx
  rw [mentions_eq, List.mem_append] at hx
  obtain hx | hx := hx
  · exact hown x (Option.mem_toList.mp hx)
  · obtain ⟨e', he', hx⟩ := List.mem_flatMap.mp hx
    exact h e' he' x hx

end Expr

namespace Parser

variable {n : Nat} {inner : Parser Expr}

theorem isUnbound_joinLeft {start : Loc} {first : Expr} {rest : List (BinaryOp × Expr)}
    (hfirst : first.IsUnbound) (hrest : ∀ x ∈ rest, x.2.IsUnbound) :
    (joinLeft start first rest).IsUnbound := by
  induction rest generalizing first with
  | nil => exact hfirst
  | cons x rest ih =>
    obtain ⟨hx, hrest⟩ := List.forall_mem_cons.mp hrest
    refine ih (Expr.isUnbound_of_parts nofun ?_) hrest
    exact List.forall_mem_cons.mpr ⟨hfirst, List.forall_mem_singleton.mpr hx⟩

theorem isUnbound_joinArms {start : Loc} {cond : Expr} {arms : List (Expr × Expr × Loc)}
    (hcond : cond.IsUnbound) (harms : ∀ x ∈ arms, x.1.IsUnbound ∧ x.2.1.IsUnbound) :
    (joinArms start cond arms).IsUnbound := by
  induction arms generalizing start cond with
  | nil => exact hcond
  | cons x arms ih =>
    obtain ⟨⟨hyes, hnext⟩, harms⟩ := List.forall_mem_cons.mp harms
    refine Expr.isUnbound_of_parts nofun (List.forall_mem_cons.mpr ⟨hcond, ?_⟩)
    exact List.forall_mem_cons.mpr ⟨hyes, List.forall_mem_singleton.mpr (ih hnext harms)⟩

section Unbound

variable (h : Yields inner Expr.IsUnbound)
include h

theorem yields_arguments : Yields (arguments n inner) fun args => ∀ e ∈ args, e.IsUnbound := by
  have hrest : Yields (spaced (symbol ",") *> spaced inner) Expr.IsUnbound := .skip fun _ => h.spaced
  have hlist : Yields (commaList inner n) fun args => ∀ e ∈ args, e.IsUnbound :=
    h.bind fun _ he => (hrest.many n).bind fun _ hes =>
      .pure (List.forall_mem_cons.mpr ⟨he, hes⟩)
  have hargs := hlist.orElse (.pure (List.forall_mem_nil _))
  exact .skip fun _ => hargs.spaced.bind fun _ hall => .skip fun _ => .pure hall

theorem yields_primary : Yields (primary inner) Expr.IsUnbound := by
  refine .skip fun start => .firstOf fun p hp => ?_
  have hleaf {e : Expr} (hown : ∀ x ∈ e.mention?, x.2 = .runtime) (he : e.parts = []) :
      e.IsUnbound := Expr.isUnbound_of_parts hown (he ▸ List.forall_mem_nil _)
  simp only [List.mem_cons, List.not_mem_nil, or_false] at hp
  obtain rfl | rfl | rfl | rfl | rfl := hp
  · exact .skip fun _ => .pure (hleaf nofun rfl)
  · exact .skip fun _ => .pure (hleaf nofun rfl)
  · exact .skip fun _ => .pure (hleaf nofun rfl)
  · refine .bind (P := Expr.IsUnbound) (.skip fun _ => h.spaced.bind fun _ he =>
      .skip fun _ => .pure he) fun e he => .pure ?_
    exact Expr.isUnbound_of_parts nofun (List.forall_mem_singleton.mpr he)
  · exact .skip fun s => .pure (hleaf (by rintro _ ⟨⟩; rfl) rfl)

theorem yields_postfixExpr : Yields (postfixExpr n inner) Expr.IsUnbound := by
  have hop : Yields (postfixOp n inner) fun op =>
      ∀ start e, e.IsUnbound → (op.apply start e).IsUnbound := by
    refine .firstOf fun p hp => ?_
    have hstep (op : UnaryOp) (start : Loc) (e : Expr) (he : e.IsUnbound) :
        ((PostfixOp.step op).apply start e).IsUnbound :=
      Expr.isUnbound_of_parts nofun (List.forall_mem_singleton.mpr he)
    simp only [List.mem_cons, List.not_mem_nil, or_false] at hp
    obtain rfl | rfl | rfl := hp
    · exact (yields_arguments h).bind fun args hargs => .pure fun start e he =>
        Expr.isUnbound_of_parts nofun (List.forall_mem_cons.mpr ⟨he, hargs⟩)
    · exact .skip fun _ => .pure (hstep .postInc)
    · exact .skip fun _ => .pure (hstep .postDec)
  refine .skip fun start => (yields_primary h).bind fun e he =>
    (hop.spaced.many n).bind fun ops hops => .pure ?_
  induction ops generalizing e with
  | nil => exact he
  | cons op ops ih =>
    obtain ⟨hop, hops⟩ := List.forall_mem_cons.mp hops
    exact ih (op.apply start e) (hop start e he) hops

theorem yields_unary : Yields (unary n inner) Expr.IsUnbound := by
  refine .skip fun fronts => (yields_postfixExpr h).bind fun e he => .pure ?_
  induction fronts with
  | nil => exact he
  | cons front fronts ih => exact Expr.isUnbound_of_parts nofun (List.forall_mem_singleton.mpr ih)

theorem yields_chainFrom (levels : List (List (BinaryOp × List Char))) :
    ∀ {start first}, first.IsUnbound →
      Yields (chainFrom n inner start first levels) Expr.IsUnbound := by
  induction levels with
  | nil => exact fun hfirst => .pure hfirst
  | cons level tighter ih =>
    intro start first hfirst
    have hround : Yields (do
        let op ← spaced (binaryOp level)
        layout
        let loc ← here
        let operand ← unary n inner
        let rhs ← chainFrom n inner loc operand tighter
        return (op, rhs)) fun x => x.2.IsUnbound :=
      .skip fun _ => .skip fun _ => .skip fun _ => (yields_unary h).bind fun _ hoperand =>
        (ih hoperand).bind fun _ hrhs => .pure hrhs
    exact (ih hfirst).bind fun _ hlhs => (hround.many n).bind fun _ hrest =>
      .pure (isUnbound_joinLeft hlhs hrest)

theorem yields_exprWith : Yields (exprWith n inner) Expr.IsUnbound := by
  refine .skip fun start => (yields_unary h).bind fun e he => .orElse ?_ ?_
  · refine .skip fun op => h.spaced.bind fun value hvalue => .pure ?_
    refine Expr.isUnbound_of_parts nofun (List.forall_mem_cons.mpr ⟨he, ?_⟩)
    exact List.forall_mem_singleton.mpr hvalue
  · have harm : Yields (do
        spaced (symbol "?")
        let yes ← spaced inner
        spaced (symbol ":")
        layout
        let loc ← here
        let operand ← unary n inner
        let next ← chainFrom n inner loc operand binaryLevels
        return (yes, next, loc)) fun x => x.1.IsUnbound ∧ x.2.1.IsUnbound :=
      .skip fun _ => h.spaced.bind fun _ hyes => .skip fun _ => .skip fun _ => .skip fun _ =>
        (yields_unary h).bind fun _ hoperand => (yields_chainFrom h binaryLevels hoperand).bind
          fun _ hnext => .pure ⟨hyes, hnext⟩
    exact (yields_chainFrom h binaryLevels he).bind fun _ hcond => (harm.many n).bind
      fun _ harms => .pure (isUnbound_joinArms hcond harms)

end Unbound

theorem yields_expr (n : Nat) : Yields (expr n) Expr.IsUnbound := by
  induction n with
  | zero => exact fun c e c' h => nomatch h
  | succ n ih => exact yields_exprWith ih

end Parser

namespace Expr

/-- To bind an expression and then fold it is to fold it with each name looked up; a value that is
known of a name counts if it fits the width, as all do that declarations make known. What results
depends on template parameters just where one stands anywhere in the expression. Nothing but the
names is written to, to bind again changes nothing, and a value that is there before stays. -/
theorem bound_meanings (scopes : Scopes) {e : Expr} (h : e.IsUnbound) :
    ((e.bound scopes).constant? = e.valueWith? fun n => (scopes.known? n).bind fitting) ∧
      (scopes.Fit → (e.bound scopes).constant? = e.valueWith? scopes.known?) ∧
      ((e.bound scopes).isDependent = true ↔
        ∃ n b l, (Node.expr e).Contains (.expr (.name n b l)) ∧ scopes.IsParam n) ∧
      (e.bound scopes).unbound = e ∧
      (e.bound scopes).bound scopes = e.bound scopes ∧
      ∀ v, e.constant? = some v → (e.bound scopes).constant? = some v := by
  have hvalue := constant?_bound h scopes
  refine ⟨hvalue, ?_, isDependent_bound_iff h scopes, ?_, e.bound_bound scopes, ?_⟩
  · intro hfit
    rw [hvalue]
    refine congrArg (e.valueWith? ·) (funext fun n => ?_)
    cases hn : scopes.known? n with
    | none => rfl
    | some v => exact if_pos (hfit.known? hn)
  · rw [unbound_bound, h.unbound_eq]
  · intro v hv
    have hnone : ∀ n, (Scopes.known? [] n).bind fitting = none := fun _ => rfl
    rw [← e.bound_nil, constant?_bound h []] at hv
    rw [hvalue]
    exact valueWith?_mono (fun n w hw => nomatch (hnone n).symm.trans hw) hv

def hidingScopes : Scopes :=
  let constant (value : Int) (text : String) : VarDecl :=
    ⟨"K", "const int", some (.int value text .unknown), true, .unknown⟩
  Scopes.declareVar ([("N", .templateParam)] :: Scopes.declareVar [[]] (constant 8 "8"))
    (constant 4 "4")

theorem bound_meanings_hiding : ∃ e c,
    Parser.expr 20 (Cursor.ofText "a.cc" "K + (1 || N)") = some (e, c) ∧ e.IsUnbound ∧
      hidingScopes.Fit ∧ (e.bound hidingScopes).constant? = e.valueWith? hidingScopes.known? ∧
      e.valueWith? hidingScopes.known? = some 5 ∧
      ((e.bound hidingScopes).isDependent = true ↔
        ∃ n b l, (Node.expr e).Contains (.expr (.name n b l)) ∧ hidingScopes.IsParam n) ∧
      (e.bound hidingScopes).isDependent = true ∧ (e.bound hidingScopes).unbound = e ∧
      (e.bound hidingScopes).bound hidingScopes = e.bound hidingScopes ∧
      ∀ v, e.constant? = some v → (e.bound hidingScopes).constant? = some v := by
  have hread : ∃ x ∈ Parser.expr 20 (Cursor.ofText "a.cc" "K + (1 || N)"),
      x.1.valueWith? hidingScopes.known? = some 5 ∧
        (x.1.bound hidingScopes).isDependent = true := by
    decide +kernel
  obtain ⟨⟨e, c⟩, hx, hfive, hparam⟩ := hread
  have hfit : hidingScopes.Fit :=
    ((Scopes.fit_start.declareVar _).enter (by simp [Binding.templateParam])).declareVar _
  have hunbound := Parser.yields_expr 20 _ e c hx
  obtain ⟨_, hvalue, hdependent, hrest⟩ := bound_meanings hidingScopes hunbound
  exact ⟨e, c, hx, hunbound, hfit, hvalue hfit, hfive, hdependent, hparam, hrest⟩

end Expr

end AttrCheck
