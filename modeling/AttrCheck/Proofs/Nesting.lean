import AttrCheck.Proofs.AcceptedText
import AttrCheck.Proofs.GrammarAllowance

/-! How statements nest as they are read. What stands inside a statement is read behind its first
character, and behind specifiers there is never another one: all of them belong to one statement
with attributes, and the statement inside it has none of its own. -/

namespace AttrCheck

namespace Stmt

/-- A statement with attributes as written only around statements without. -/
def Flat (s : Stmt) : Prop :=
  ∀ attrs sub range l, annotated attrs sub range l ∈ s.preorder → sub.annotation? = none

def IsSimple (s : Stmt) : Prop := s.children = [] ∧ s.annotation? = none

theorem IsSimple.preorder {s : Stmt} (h : s.IsSimple) : s.preorder = [s] := by
  rw [preorder_eq, h.1, List.flatMap_nil]

end Stmt

namespace Parser

variable {α β : Type} {p : Parser α} {n : Nat} {sub : Parser Stmt}

def Gives (p : Parser α) (P : α → Prop) : Prop := ∀ c a c', p c = some (a, c') → P a

theorem gives_pure {P : α → Prop} {a : α} (h : P a) : Gives (pure a) P := by
  intro c b c' e
  obtain ⟨rfl, _⟩ := pure_eq_some_iff.mp e
  exact h

theorem gives_bind {P : β → Prop} {q : α → Parser β} (h : ∀ a, Gives (q a) P) :
    Gives (p >>= q) P := by
  intro c b c' e
  obtain ⟨a, c₁, _, e⟩ := bind_eq_some_iff.mp e
  exact h a c₁ b c' e

/-- What stands directly inside a statement that the parser gives is read by `sub` somewhere behind
the cursor, unless nothing is inside it. -/
def Feeds (sub p : Parser Stmt) : Prop := ∀ c s c', p c = some (s, c') → ∀ t ∈ s.children,
  (∃ d d', c.Reaches d ∧ sub d = some (t, d')) ∨ t.IsSimple

def Nests (sub p : Parser Stmt) : Prop := ∀ c s c', p c = some (s, c') → ∀ t ∈ s.children,
  (∃ d d', c.Passes d ∧ sub d = some (t, d')) ∨ t.IsSimple

namespace Feeds

theorem bind {q : α → Parser Stmt} (hp : Advances p) (hq : ∀ a, Feeds sub (q a)) :
    Feeds sub (p >>= q) := by
  intro c s c' e t ht
  obtain ⟨a, c₁, h₁, e⟩ := bind_eq_some_iff.mp e
  obtain ⟨d, d', hd, h⟩ | h := hq a c₁ s c' e t ht
  · exact .inl ⟨d, d', (hp c a c₁ h₁).trans hd, h⟩
  · exact .inr h

theorem next {q : α → Parser Stmt} (hp : Consumes p) (hq : ∀ a, Feeds sub (q a)) :
    Nests sub (p >>= q) := by
  intro c s c' e t ht
  obtain ⟨a, c₁, h₁, e⟩ := bind_eq_some_iff.mp e
  obtain ⟨d, d', hd, h⟩ | h := hq a c₁ s c' e t ht
  · exact .inl ⟨d, d', (hp c a c₁ h₁).trans_reaches hd, h⟩
  · exact .inr h

theorem last {make : Stmt → Stmt} (h : ∀ t, (make t).children = [t]) :
    Feeds sub (do return make (← spaced sub)) := by
  intro c s c' e t ht
  obtain ⟨t', c₁, h₁, e⟩ := bind_eq_some_iff.mp e
  obtain ⟨rfl, rfl⟩ := pure_eq_some_iff.mp e
  rw [h, List.mem_singleton] at ht
  obtain rfl := ht
  obtain ⟨_, c₂, h₂, h₁⟩ := bind_eq_some_iff.mp h₁
  exact .inl ⟨c₂, c₁, advances_layout c () c₂ h₂, h₁⟩

end Feeds

theorem bind_of_eq_some {f : α → Parser β} {c c' : Cursor} {a : α} (h : p c = some (a, c')) :
    (p >>= f) c = f a c' := by
  show Option.bind (p c) _ = _
  rw [h]
  rfl

theorem bind_of_eq_none {c : Cursor} (h : p c = none) (f : α → Parser β) : (p >>= f) c = none := by
  show Option.bind (p c) _ = _
  rw [h]
  rfl

theorem map_of_eq_none {c : Cursor} (h : p c = none) (f : α → β) : (f <$> p) c = none := by
  show Option.bind (p c) _ = _
  rw [h]
  rfl

theorem choice_of_some {c : Cursor} {x : α × Cursor} (h : p c = some x) (q : Parser α) :
    (p <|> q) c = some x := by
  show (p c <|> q c) = _
  rw [h]
  rfl

theorem choice_of_none {c : Cursor} (h : p c = none) (q : Parser α) : (p <|> q) c = q c := by
  show (p c <|> q c) = _
  rw [h]
  rfl

theorem maybe_of_none {p : Parser α} {c : Cursor} (h : p c = none) :
    maybe p c = some (none, c) :=
  choice_of_none (map_of_eq_none h some) _

theorem maybe_of_some {p : Parser α} {c c' : Cursor} {a : α} (h : p c = some (a, c')) :
    maybe p c = some (some a, c') :=
  choice_of_some (map_eq_some_iff.mpr ⟨a, h, rfl⟩) _

theorem seqLayout_eq_some_iff {p : Parser α} {c c' : Cursor} {a : α} :
    (p <* layout) c = some (a, c') ↔
      ∃ d, p c = some (a, d) ∧ skipLayout .code d.loc d.rest = c' := by
  constructor
  · intro h
    obtain ⟨b, d, hp, h⟩ := bind_eq_some_iff.mp h
    obtain ⟨_, e, he, h⟩ := bind_eq_some_iff.mp h
    obtain ⟨rfl, rfl⟩ := pure_eq_some_iff.mp h
    exact ⟨d, hp, (Prod.mk.inj (Option.some.inj he)).2⟩
  · rintro ⟨d, hp, rfl⟩
    exact bind_eq_some_iff.mpr ⟨a, d, hp, bind_eq_some_iff.mpr ⟨(), _, rfl, rfl⟩⟩

theorem many_of_some {p : Parser α} {c c₁ c₂ : Cursor} {a : α} {as : List α}
    (h : p c = some (a, c₁)) (h' : many p n c₁ = some (as, c₂)) :
    many p (n + 1) c = some (a :: as, c₂) :=
  choice_of_some (bind_eq_some_iff.mpr ⟨a, c₁, h, bind_eq_some_iff.mpr ⟨as, c₂, h', rfl⟩⟩) _

theorem many_of_none {p : Parser α} {c : Cursor} (h : p c = none) (n : Nat) :
    many p n c = some ([], c) := by
  cases n with
  | zero => rfl
  | succ n => exact choice_of_none (bind_of_eq_none h _) _

theorem exists_many (p : Parser α) (n : Nat) (c : Cursor) : ∃ as c', many p n c = some (as, c') := by
  induction n generalizing c with
  | zero => exact ⟨[], c, rfl⟩
  | succ n ih =>
    cases h : p c with
    | none => exact ⟨[], c, many_of_none h _⟩
    | some x =>
      obtain ⟨as, c', hmany⟩ := ih x.2
      exact ⟨_, c', many_of_some h hmany⟩

theorem many_succ_eq_some {p : Parser α} {c c' : Cursor} {as : List α}
    (h : many p (n + 1) c = some (as, c')) :
    (∃ a c₁ as', p c = some (a, c₁) ∧ many p n c₁ = some (as', c') ∧ as = a :: as') ∨
      p c = none ∧ as = [] ∧ c' = c := by
  cases hc : p c with
  | none =>
    obtain ⟨rfl, rfl⟩ := Prod.mk.inj (Option.some.inj ((many_of_none hc _).symm.trans h))
    exact .inr ⟨rfl, rfl, rfl⟩
  | some x =>
    obtain ⟨as', c₁, hmany⟩ := exists_many p n x.2
    obtain ⟨rfl, rfl⟩ := Prod.mk.inj (Option.some.inj ((many_of_some hc hmany).symm.trans h))
    exact .inl ⟨x.1, x.2, as', rfl, hmany, rfl⟩

theorem many_eq_some {p : Parser α} {c c' : Cursor} {as : List α} (hp : Advances p)
    (h : many p n c = some (as, c')) {a : α} (ha : a ∈ as) :
    ∃ d d', c.Reaches d ∧ p d = some (a, d') := by
  induction n generalizing c as with
  | zero =>
    obtain ⟨rfl, _⟩ := pure_eq_some_iff.mp h
    cases ha
  | succ n ih =>
    obtain ⟨b, c₁, bs, h₁, h₂, rfl⟩ | ⟨_, rfl, _⟩ := many_succ_eq_some h
    · obtain rfl | ha := List.mem_cons.mp ha
      · exact ⟨c, c₁, .refl c, h₁⟩
      · obtain ⟨d, d', hd, h⟩ := ih h₂ ha
        exact ⟨d, d', (hp c b c₁ h₁).trans hd, h⟩
    · cases ha

section Forms

variable (ha : Advances sub)

theorem nests_worded {s : String} {q : Loc → Parser Stmt} (hs : s.toList ≠ [])
    (hq : ∀ start, Feeds sub (q start)) : Nests sub (do let start ← here; keyword s; q start) :=
  fun c _ c' e => Feeds.next (consumes_keyword hs) (fun _ => hq c.loc) c _ c' e

theorem nests_of_gives {p : Parser Stmt} (h : Gives p fun s => s.children = []) : Nests sub p := by
  intro c s c' e t ht
  rw [h c s c' e] at ht
  cases ht

theorem nests_annotatedStmt : Nests sub (annotatedStmt n sub) :=
  Feeds.next (consumes_specifiers (advances_expr n)) fun _ => .last fun _ => rfl

theorem nests_caseStmt : Nests sub (caseStmt n sub) :=
  nests_worded (by decide) fun _ => .bind advances_spacedExpr fun _ =>
    .bind (advances_symbol _).spaced fun _ => .last fun _ => rfl

theorem nests_defaultStmt : Nests sub (defaultStmt sub) :=
  nests_worded (by decide) fun _ => .bind (advances_symbol _).spaced fun _ => .last fun _ => rfl

theorem nests_conditionStmt {word : String} {make : Expr → Stmt → Loc → Stmt}
    (hw : word.toList ≠ []) (hsub : ∀ c s l, (make c s l).children = [s]) :
    Nests sub (conditionStmt n sub word make) :=
  nests_worded hw fun start => .bind advances_condition fun cond =>
    .last fun s => hsub cond s start

theorem nests_rangeForStmt : Nests sub (rangeForStmt n sub) :=
  nests_worded (by decide) fun _ => .bind (advances_symbol _).spaced fun _ =>
    .bind (advances_typeName n).spaced fun _ => .bind consumes_name.advances.spaced fun _ =>
      .bind (advances_symbol _).spaced fun _ => .bind advances_spacedExpr fun _ =>
        .bind (advances_symbol _).spaced fun _ => .last fun _ => rfl

theorem nests_doStmt : Nests sub (doStmt n sub) := by
  refine nests_worded (by decide) fun start => ?_
  intro c s c' e t ht
  obtain ⟨body, c₁, h₁, e⟩ := bind_eq_some_iff.mp e
  obtain ⟨_, _, _, e⟩ := bind_eq_some_iff.mp e
  obtain ⟨_, _, _, e⟩ := bind_eq_some_iff.mp e
  obtain ⟨_, _, _, e⟩ := bind_eq_some_iff.mp e
  obtain ⟨rfl, rfl⟩ := pure_eq_some_iff.mp e
  obtain rfl := List.mem_singleton.mp ht
  obtain ⟨_, c₂, h₂, h₁⟩ := bind_eq_some_iff.mp h₁
  exact .inl ⟨c₂, c₁, advances_layout c () c₂ h₂, h₁⟩

include ha

theorem nests_compoundStmt : Nests sub (compoundStmt n sub) := by
  intro c s c' e t ht
  rw [compoundStmt, bind_here_apply] at e
  obtain ⟨_, c₁, h₁, e⟩ := bind_eq_some_iff.mp e
  obtain ⟨_, c₂, h₂, e⟩ := bind_eq_some_iff.mp e
  obtain ⟨body, c₃, h₃, e⟩ := bind_eq_some_iff.mp e
  obtain ⟨_, _, _, e⟩ := bind_eq_some_iff.mp e
  obtain ⟨rfl, rfl⟩ := pure_eq_some_iff.mp e
  have hitem : Advances (sub <* layout) := ha.bind fun _ => advances_layout.bind fun _ =>
    advances_pure _
  obtain ⟨d, d', hd, h⟩ := many_eq_some hitem h₃ ht
  obtain ⟨t', d₁, h₄, h⟩ := bind_eq_some_iff.mp h
  obtain ⟨_, _, _, h⟩ := bind_eq_some_iff.mp h
  obtain ⟨rfl, _⟩ := pure_eq_some_iff.mp h
  have hopen := (consumes_symbol (by decide) c () c₁ h₁).trans_reaches (advances_layout c₁ () c₂ h₂)
  exact .inl ⟨d, d₁, hopen.trans_reaches hd, h₄⟩

theorem nests_ifStmt : Nests sub (ifStmt n sub) := by
  refine nests_worded (by decide) fun start => .bind advances_condition fun cond => ?_
  intro c s c' e t ht
  obtain ⟨yes, c₁, h₁, e⟩ := bind_eq_some_iff.mp e
  obtain ⟨no, c₂, h₂, e⟩ := bind_eq_some_iff.mp e
  obtain ⟨rfl, rfl⟩ := pure_eq_some_iff.mp e
  obtain ⟨_, c₃, h₃, h₁⟩ := bind_eq_some_iff.mp h₁
  have hyes : c.Reaches c₃ := advances_layout c () c₃ h₃
  obtain rfl | ht := List.mem_cons.mp ht
  · exact .inl ⟨c₃, c₁, hyes, h₁⟩
  · obtain ⟨no', hno, rfl⟩ | ⟨rfl, _⟩ := maybe_eq_some h₂
    · obtain rfl := List.mem_singleton.mp ht
      obtain ⟨_, c₄, h₄, hno⟩ := bind_eq_some_iff.mp hno
      obtain ⟨_, c₅, h₅, hno⟩ := bind_eq_some_iff.mp hno
      have helse : c₁.Reaches c₅ := ((advances_keyword "else").spaced c₁ () c₄ h₄).trans
        (advances_layout c₄ () c₅ h₅)
      exact .inl ⟨c₅, c₂, (hyes.trans (ha c₃ yes c₁ h₁)).trans helse, hno⟩
    · cases ht

omit ha in
theorem gives_loopInit : Gives (loopInit n) fun init => ∀ s ∈ init, s.IsSimple := by
  intro c o c' e
  obtain ⟨p, hp, e⟩ := firstOf_eq_some e
  simp only [List.mem_cons, List.not_mem_nil, or_false] at hp
  obtain rfl | rfl | rfl := hp
  · obtain ⟨s, h, rfl⟩ := map_eq_some_iff.mp e
    rintro _ ⟨⟩
    exact gives_bind (fun d => gives_pure (P := Stmt.IsSimple) ⟨rfl, rfl⟩) c s c' h
  · obtain ⟨s, h, rfl⟩ := map_eq_some_iff.mp e
    rintro _ ⟨⟩
    exact gives_bind (fun _ => gives_bind fun _ => gives_bind fun _ =>
      gives_pure (P := Stmt.IsSimple) ⟨rfl, rfl⟩) c s c' h
  · obtain ⟨s, _, _, e⟩ := bind_eq_some_iff.mp e
    obtain ⟨rfl, _⟩ := pure_eq_some_iff.mp e
    nofun

omit ha in
theorem nests_forStmt : Nests sub (forStmt n sub) := by
  refine nests_worded (by decide) fun start => .bind (advances_symbol _).spaced fun _ => ?_
  intro c s c' e t ht
  obtain ⟨init, c₁, h₁, e⟩ := bind_eq_some_iff.mp e
  obtain ⟨cond, c₂, h₂, e⟩ := bind_eq_some_iff.mp e
  obtain ⟨_, c₃, h₃, e⟩ := bind_eq_some_iff.mp e
  obtain ⟨step, c₄, h₄, e⟩ := bind_eq_some_iff.mp e
  obtain ⟨_, c₅, h₅, e⟩ := bind_eq_some_iff.mp e
  obtain ⟨body, c₆, h₆, e⟩ := bind_eq_some_iff.mp e
  obtain ⟨rfl, rfl⟩ := pure_eq_some_iff.mp e
  obtain ht | ht := List.mem_append.mp ht
  · obtain ⟨_, c₀, _, h₀⟩ := bind_eq_some_iff.mp h₁
    exact .inr (gives_loopInit c₀ init c₁ h₀ t (Option.mem_toList.mp ht))
  · obtain rfl := List.mem_singleton.mp ht
    obtain ⟨_, c₇, h₇, h₆⟩ := bind_eq_some_iff.mp h₆
    have hvalue : Advances (spaced (maybe (expr n))) := (advances_expr n).maybe.spaced
    have hhead : c.Reaches c₃ := ((advances_loopInit.spaced c init c₁ h₁).trans
      (hvalue c₁ cond c₂ h₂)).trans ((advances_symbol _).spaced c₂ () c₃ h₃)
    have htail : c₃.Reaches c₇ := ((hvalue c₃ step c₄ h₄).trans
      ((advances_symbol _).spaced c₄ () c₅ h₅)).trans (advances_layout c₅ () c₇ h₇)
    exact .inl ⟨c₇, c₆, hhead.trans htail, h₆⟩

theorem nests_stmtWith : Nests sub (stmtWith n sub) := by
  intro c s c' e
  obtain ⟨p, hp, e⟩ := firstOf_eq_some e
  suffices hnests : Nests sub p from hnests c s c' e
  simp only [List.mem_cons, List.not_mem_nil, or_false] at hp
  -- One case for each form of a statement, in the order in which they are tried.
  obtain rfl | rfl | rfl | rfl | rfl | rfl | rfl | rfl | rfl | rfl | rfl | rfl | rfl | rfl | rfl |
    rfl := hp
  · exact nests_annotatedStmt
  · exact nests_caseStmt
  · exact nests_defaultStmt
  · exact nests_compoundStmt ha
  · exact nests_ifStmt ha
  · exact nests_conditionStmt (by decide) fun _ _ _ => rfl
  · exact nests_conditionStmt (by decide) fun _ _ _ => rfl
  · exact nests_doStmt
  · exact nests_rangeForStmt
  · exact nests_forStmt
  · exact nests_of_gives (gives_bind fun _ => gives_bind fun _ => gives_bind fun _ => gives_pure rfl)
  · exact nests_of_gives (gives_bind fun _ => gives_bind fun _ => gives_bind fun _ => gives_pure rfl)
  · exact nests_of_gives (gives_bind fun _ => gives_bind fun _ => gives_bind fun _ =>
      gives_bind fun _ => gives_pure rfl)
  · exact nests_of_gives (gives_bind fun _ => gives_pure rfl)
  · exact nests_of_gives (gives_bind fun _ => gives_bind fun _ => gives_pure rfl)
  · exact nests_of_gives (gives_bind fun _ => gives_bind fun _ => gives_bind fun _ => gives_pure rfl)

end Forms

theorem stops_many {p : Parser α} (hp : Consumes p) {c c' : Cursor} {as : List α}
    (h : many p n c = some (as, c')) (hn : c.rest.length < n) : p c' = none := by
  induction n generalizing c as with
  | zero => exact absurd hn (Nat.not_lt_zero _)
  | succ n ih =>
    obtain ⟨a, c₁, as', h₁, h₂, rfl⟩ | ⟨hnone, rfl, rfl⟩ := many_succ_eq_some h
    · have hlt := length_lt_of_passes (hp c a c₁ h₁)
      exact ih h₂ (Nat.lt_of_lt_of_le hlt (Nat.le_of_lt_succ hn))
    · exact hnone

theorem stops_specifiers {inner : Parser Expr} (ha : Advances inner) {c c' : Cursor}
    {spec : Specifier} (h : specifiers n inner c = some (spec, c')) (hn : c.rest.length < n) :
    spaced (anySpecifier n inner) c' = none := by
  obtain ⟨first, c₁, h₁, h⟩ := bind_eq_some_iff.mp h
  obtain ⟨more, c₂, h₂, h⟩ := bind_eq_some_iff.mp h
  obtain ⟨_, rfl⟩ := pure_eq_some_iff.mp h
  have hlt := length_lt_of_passes (consumes_anySpecifier ha c first c₁ h₁)
  exact stops_many (consumes_anySpecifier ha).spaced h₂ (Nat.lt_trans hlt hn)

theorem annotatedStmt_of_annotated {c c' : Cursor} {s : Stmt}
    (h : stmtWith n sub c = some (s, c')) (hs : s.annotation? ≠ none) :
    annotatedStmt n sub c = some (s, c') := by
  obtain ⟨p, hp, e⟩ := firstOf_eq_some h
  simp only [List.mem_cons, List.not_mem_nil, or_false] at hp
  have hgives {p : Parser Stmt} (h : Gives p fun s => s.annotation? = none)
      (e : p c = some (s, c')) : annotatedStmt n sub c = some (s, c') := absurd (h c s c' e) hs
  obtain rfl | rfl | rfl | rfl | rfl | rfl | rfl | rfl | rfl | rfl | rfl | rfl | rfl | rfl | rfl |
    rfl := hp
  case inl => exact e
  all_goals
    refine hgives ?_ e
    repeat first | exact gives_pure rfl | refine gives_bind fun _ => ?_

theorem annotation?_of_annotatedStmt {c c' : Cursor} {attrs : List RawAttr} {sub : Stmt}
    {range : Range} {l : Loc}
    (h : annotatedStmt (n + 1) (stmt n) c = some (.annotated attrs sub range l, c'))
    (hn : c.rest.length < n + 1) : sub.annotation? = none := by
  obtain ⟨spec, c₁, h₁, h⟩ := bind_eq_some_iff.mp h
  obtain ⟨t, c₃, h₃, h⟩ := bind_eq_some_iff.mp h
  obtain ⟨ht, _⟩ := pure_eq_some_iff.mp h
  injection ht with _ hsub
  subst hsub
  obtain ⟨_, c₂, h₂, h₃⟩ := bind_eq_some_iff.mp h₃
  by_contra hs
  cases n with
  | zero => cases h₃
  | succ n =>
    -- Another specifier would have been taken in with those before it.
    obtain ⟨spec', _, h₄, _⟩ := bind_eq_some_iff.mp (annotatedStmt_of_annotated h₃ hs)
    obtain ⟨first, c₅, h₅, _⟩ := bind_eq_some_iff.mp h₄
    have hle := length_le_of_reaches (advances_layout c₁ () c₂ h₂)
    have hlt := length_lt_of_passes (consumes_specifiers (advances_expr _) c spec c₁ h₁)
    have hexpr : Alike True n (expr (n + 1)) (expr (n + 1 + 1)) := alike_expr (by omega) (by omega)
    have hspec := (alike_anySpecifier hexpr (advances_expr _) (Nat.lt_succ_self n)
      (by omega : n < n + 1 + 1)).eq (c := c₂) (by omega)
    have hstop := stops_specifiers (advances_expr _) h₁ hn
    have hnone : anySpecifier (n + 1 + 1) (expr (n + 1 + 1)) c₂ = none := by
      obtain ⟨_, rfl⟩ := Prod.mk.inj (Option.some.inj h₂)
      exact hstop
    rw [hspec, hnone] at h₅
    cases h₅

theorem exists_read_of_stmt {c c' : Cursor} {s t : Stmt} (h : stmt n c = some (s, c'))
    (hn : c.rest.length < n) (ht : t ∈ s.preorder) :
    (∃ m d d', c.Reaches d ∧ d.rest.length < m ∧ stmt m d = some (t, d')) ∨ t.IsSimple := by
  induction n generalizing c c' s with
  | zero => exact absurd hn (Nat.not_lt_zero _)
  | succ n ih =>
    rw [Stmt.preorder_eq] at ht
    obtain rfl | ht := List.mem_cons.mp ht
    · exact .inl ⟨n + 1, c, c', .refl c, hn, h⟩
    · obtain ⟨r, hr, ht⟩ := List.mem_flatMap.mp ht
      obtain ⟨d, d', hd, hread⟩ | hsimple := nests_stmtWith (consumes_stmt n).advances c s c' h r hr
      · have hlt := length_lt_of_passes hd
        obtain ⟨m, e, e', he, hm⟩ | hsimple := ih hread (by omega) ht
        · exact .inl ⟨m, e, e', hd.reaches.trans he, hm⟩
        · exact .inr hsimple
      · rw [hsimple.preorder, List.mem_singleton] at ht
        exact .inr (ht ▸ hsimple)

theorem exists_read_of_function {c c' : Cursor} {f : AttrCheck.Function} {t : Stmt}
    (h : function n c = some (f, c')) (hn : c.rest.length < n) (ht : t ∈ f.body.preorder)
    (ha : t.annotation? ≠ none) :
    ∃ m d d', c.Reaches d ∧ d.rest.length < m ∧ stmt m d = some (t, d') := by
  obtain ⟨d, hd, hbody⟩ := body_of_function h
  have hle := length_le_of_reaches hd
  rw [Stmt.preorder_eq] at ht
  obtain rfl | ht := List.mem_cons.mp ht
  · rw [compoundStmt, bind_here_apply] at hbody
    obtain ⟨_, _, _, hbody⟩ := bind_eq_some_iff.mp hbody
    obtain ⟨_, _, _, hbody⟩ := bind_eq_some_iff.mp hbody
    obtain ⟨_, _, _, hbody⟩ := bind_eq_some_iff.mp hbody
    obtain ⟨_, _, _, hbody⟩ := bind_eq_some_iff.mp hbody
    obtain ⟨hblock, _⟩ := pure_eq_some_iff.mp hbody
    rw [← hblock] at ha
    exact absurd rfl ha
  · obtain ⟨r, hr, ht⟩ := List.mem_flatMap.mp ht
    obtain ⟨d₁, d₂, hd₁, hread⟩ | hsimple :=
      nests_compoundStmt (consumes_stmt n).advances d f.body c' hbody r hr
    · have hlt := length_lt_of_passes hd₁
      obtain ⟨m, e, e', he, hm⟩ | hsimple := exists_read_of_stmt hread (by omega) ht
      · exact ⟨m, e, e', (hd.trans hd₁.reaches).trans he, hm⟩
      · exact absurd hsimple.2 ha
    · rw [hsimple.preorder, List.mem_singleton] at ht
      exact absurd (ht ▸ hsimple.2) ha

end Parser

theorem exists_read_of_parse {file text : String} {u : SourceUnit} (h : parse file text = .ok u)
    {f : Function} (hf : f ∈ u.functions) {t : Stmt} (ht : t ∈ f.body.preorder)
    (ha : t.annotation? ≠ none) : ∃ m d d', (Cursor.ofText file text).Reaches d ∧
      d.rest.length < m ∧ Parser.stmt m d = some (t, d') := by
  obtain ⟨items, c, he, _, rfl⟩ := exists_items_of_parse h
  obtain ⟨_, c₁, h₁, he⟩ := Parser.bind_eq_some_iff.mp he
  obtain ⟨item, hitem, hf⟩ := List.mem_filterMap.mp hf
  have hadvances : (Parser.topLevel (text.toList.length + 1) <* Parser.layout).Advances :=
    ((Parser.consumes_topLevel _).seqLeft Parser.advances_layout).advances
  obtain ⟨d, d', hd, hround⟩ := Parser.many_eq_some hadvances he hitem
  obtain ⟨item', _, hread, hend⟩ := Parser.bind_eq_some_iff.mp hround
  obtain ⟨_, _, _, hend⟩ := Parser.bind_eq_some_iff.mp hend
  obtain ⟨rfl, _⟩ := Parser.pure_eq_some_iff.mp hend
  have hstart := (Parser.advances_layout _ () c₁ h₁).trans hd
  have hle := Parser.length_le_of_reaches hstart
  obtain hread | hread := Parser.orElse_eq_some hread
  · obtain ⟨g, hg, rfl⟩ := Parser.map_eq_some_iff.mp hread
    obtain rfl := Option.some.inj hf
    obtain ⟨m, e, e', he, hm⟩ := Parser.exists_read_of_function hg (Nat.lt_succ_of_le hle) ht ha
    exact ⟨m, e, e', hstart.trans he, hm⟩
  · obtain ⟨g, _, rfl⟩ := Parser.map_eq_some_iff.mp hread
    cases hf

/-- In an accepted text no statement with attributes stands directly behind specifiers. -/
theorem flat_of_parse {file text : String} {u : SourceUnit} (h : parse file text = .ok u) :
    ∀ f ∈ u.functions, f.body.Flat := by
  intro f hf attrs sub range l hs
  obtain ⟨m, d, d', _, hlen, hread⟩ := exists_read_of_parse h hf hs nofun
  cases m with
  | zero => exact absurd hlen (Nat.not_lt_zero _)
  | succ m =>
    exact Parser.annotation?_of_annotatedStmt (Parser.annotatedStmt_of_annotated hread nofun) hlen

end AttrCheck
