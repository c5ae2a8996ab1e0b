import AttrCheck.Proofs.Progress

/-! Two readings side by side. As long as they are in step, both have read the same; once they are
apart, what they have read may differ, and only what is left of the two texts is known to go
together. Where both go on with the same parser, both fail or both succeed, and stand to each other
as before. -/

namespace AttrCheck

structure Pairing where
  inStep : Cursor → Cursor → Prop
  apart : Cursor → Cursor → Prop
  /-- No layout lies in front of them. -/
  settled : Cursor → Cursor → Prop
  loc_eq : ∀ {c d}, inStep c d → c.loc = d.loc

namespace Pairing

variable {α : Type} (B : Pairing) (same : Prop)

def Linked (c d : Cursor) : Prop := same ∧ B.inStep c d ∨ B.apart c d

/-- Outcomes of two readings, the first of which leaves no more than there was. Those in step are
equal. -/
def Joint (r : List Char) (x y : α × Cursor) : Prop :=
  (same ∧ B.inStep x.2 y.2 ∧ x.1 = y.1 ∨ B.apart x.2 y.2) ∧ x.2.rest.length ≤ r.length

variable {B same} {r : List Char} {a b : α} {c d : Cursor}

theorem Joint.linked (h : B.Joint same r (a, c) (b, d)) : B.Linked (same ∧ a = b) c d :=
  h.1.imp (fun h => ⟨⟨h.1, h.2.2⟩, h.2.1⟩) id

theorem Linked.here (h : B.Linked same c d) : B.Linked (same ∧ c.loc = d.loc) c d :=
  h.imp_left fun h => ⟨⟨h.1, B.loc_eq h.2⟩, h.2⟩

end Pairing

namespace Parser

variable {α β : Type} {B C D : Pairing} {same bare : Prop} {k n m : Nat}

/-- Two parsers that fail together and succeed together on texts of which the first has fewer than
`k` characters. The texts begin with no layout if `bare`. -/
def Agree (B : Pairing) (same bare : Prop) (k : Nat) (p q : Parser α) : Prop :=
  ∀ c d : Cursor, B.Linked same c d → (bare → B.settled c d) → c.rest.length < k →
    Option.Rel (B.Joint same c.rest) (p c) (q d)

def Across (B C : Pairing) (same bare : Prop) (k : Nat) (p q : Parser α) : Prop :=
  ∀ c d : Cursor, B.Linked same c d → (bare → B.settled c d) → c.rest.length < k →
    Option.Rel (C.Joint same c.rest) (p c) (q d)

theorem rel_bind {γ δ ε ζ : Type} {R : γ → δ → Prop} {S : ε → ζ → Prop} {x : Option γ}
    {y : Option δ} {f : γ → Option ε} {g : δ → Option ζ} (h : Option.Rel R x y)
    (hfg : ∀ a ∈ x, ∀ b, R a b → Option.Rel S (f a) (g b)) :
    Option.Rel S (x.bind f) (y.bind g) := by
  cases h with
  | none => exact .none
  | some h => exact hfg _ rfl _ h

theorem rel_imp {γ δ : Type} {R S : γ → δ → Prop} {x : Option γ} {y : Option δ}
    (h : Option.Rel R x y) (hRS : ∀ a b, R a b → S a b) : Option.Rel S x y := by
  cases h with
  | none => exact .none
  | some h => exact .some (hRS _ _ h)

theorem exists_of_rel {γ δ : Type} {R : γ → δ → Prop} {a : γ} {x : Option γ} {y : Option δ}
    (h : Option.Rel R x y) (hx : x = some a) : ∃ b, y = some b ∧ R a b := by
  subst hx
  cases h with
  | some h => exact ⟨_, rfl, h⟩

theorem rel_of_eq_some {γ δ : Type} {R : γ → δ → Prop} {a : γ} {b : δ} {x : Option γ}
    {y : Option δ} (h : Option.Rel R x y) (hx : x = some a) (hy : y = some b) : R a b := by
  subst hx hy
  exact Option.rel_some_some.mp h

theorem length_le_of_reaches {c c' : Cursor} (h : c.Reaches c') :
    c'.rest.length ≤ c.rest.length := by
  obtain ⟨t, ht, _⟩ := h
  rw [ht, List.length_append]
  exact Nat.le_add_left _ _

theorem length_lt_of_passes {c c' : Cursor} (h : c.Passes c') :
    c'.rest.length < c.rest.length := by
  obtain ⟨t, hne, ht, _⟩ := h
  rw [ht, List.length_append]
  exact Nat.lt_add_of_pos_left (List.length_pos_iff.mpr hne)

theorem agree_pure {a b : α} (hab : same → a = b) :
    Agree B same bare k (pure a : Parser α) (pure b) := by
  intro c d hl _ _
  exact .some ⟨hl.imp (fun h => ⟨h.1, h.2, hab h.1⟩) id, Nat.le_refl _⟩

theorem agree_failure : Agree B same bare k (failure : Parser α) failure :=
  fun _ _ _ _ _ => .none

theorem agree_here : Agree B same bare k here here := by
  intro c d hl _ _
  exact .some ⟨hl.imp (fun h => ⟨h.1, h.2, B.loc_eq h.2⟩) id, Nat.le_refl _⟩

private theorem of_values {r : List Char} {a b : α} {x y : Option (β × Cursor)}
    (h : Option.Rel (B.Joint (same ∧ a = b) r) x y) : Option.Rel (B.Joint same r) x y :=
  rel_imp h fun _ _ h => ⟨h.1.imp (fun h => ⟨h.1.1, h.2⟩) id, h.2⟩

namespace Across

variable {p q : Parser α} {f g : α → Parser β} {p' q' : Parser β}

theorem andThen (h : Across B C same bare k p q)
    (hfg : ∀ c a c', p c = some (a, c') → c.rest.length < k → ∀ b d',
      C.Joint same c.rest (a, c') (b, d') →
        Option.Rel (D.Joint same c'.rest) (f a c') (g b d')) :
    Across B D same bare k (p >>= f) (q >>= g) := by
  intro c d hl hb hc
  refine rel_bind (h c d hl hb hc) ?_
  rintro ⟨a, c'⟩ ha ⟨b, d'⟩ hj
  exact rel_imp (hfg c a c' ha hc b d' hj) fun _ _ h => ⟨h.1, Nat.le_trans h.2 hj.2⟩

theorem bind (h : Across B C same bare k p q)
    (hfg : ∀ a b, Across C D (same ∧ a = b) False k (f a) (g b)) :
    Across B D same bare k (p >>= f) (q >>= g) :=
  h.andThen fun _ a c' _ hc b d' hj =>
    of_values (hfg a b c' d' hj.linked nofun (Nat.lt_of_le_of_lt hj.2 hc))

theorem seq (h : Across B C same bare k p q) (h' : Across C D same False k p' q') :
    Across B D same bare k (p >>= fun _ => p') (q >>= fun _ => q') :=
  h.andThen fun _ _ c' _ hc _ d' hj => h' c' d' (hj.1.imp (fun h => ⟨h.1, h.2.1⟩) id) nofun
    (Nat.lt_of_le_of_lt hj.2 hc)

theorem nextSeq (h : Across B C same bare (k + 1) p q) (hp : Consumes p)
    (h' : Across C D same False k p' q') :
    Across B D same bare (k + 1) (p >>= fun _ => p') (q >>= fun _ => q') :=
  h.andThen fun c a c' ha hc _ d' hj => h' c' d' (hj.1.imp (fun h => ⟨h.1, h.2.1⟩) id) nofun
    (Nat.lt_of_lt_of_le (length_lt_of_passes (hp c a c' ha)) (Nat.le_of_lt_succ hc))

theorem map {f g : α → β} (h : Across B C same bare k p q) (hfg : ∀ a, f a = g a) :
    Across B C same bare k (f <$> p) (g <$> q) :=
  h.bind fun a b => agree_pure fun hs => by rw [hfg a, hs.2]

theorem orElse {p' q' : Parser α} (h : Across B C same bare k p q)
    (h' : Across B C same bare k p' q') : Across B C same bare k (p <|> p') (q <|> q') := by
  intro c d hl hb hc
  have hpq := h c d hl hb hc
  have hpq' := h' c d hl hb hc
  show Option.Rel _ ((p c) <|> (p' c)) ((q d) <|> (q' d))
  generalize p c = x at *
  generalize q d = y at *
  cases hpq with
  | none => exact hpq'
  | some hxy => exact .some hxy

end Across

namespace Agree

variable {p q : Parser α} {f g : α → Parser β}

theorem mono (h : Agree B same bare k p q) {k' : Nat} (hk : k' ≤ k) :
    Agree B same bare k' p q :=
  fun c d hl hb hc => h c d hl hb (Nat.lt_of_lt_of_le hc hk)

theorem settle {bare' : Prop} (h : Agree B same bare' k p q) (hb : bare' → bare) :
    Agree B same bare k p q :=
  fun c d hl hbare hc => h c d hl (fun h => hbare (hb h)) hc

theorem andThen (h : Agree B same bare k p q)
    (hfg : ∀ c a c', p c = some (a, c') → c.rest.length < k → ∀ b d',
      B.Joint same c.rest (a, c') (b, d') →
        Option.Rel (B.Joint same c'.rest) (f a c') (g b d')) :
    Agree B same bare k (p >>= f) (q >>= g) := Across.andThen h hfg

theorem bind (h : Agree B same bare k p q)
    (hfg : ∀ a b, Agree B (same ∧ a = b) False k (f a) (g b)) :
    Agree B same bare k (p >>= f) (q >>= g) :=
  h.andThen fun _ a c' _ hc b d' hj =>
    of_values (hfg a b c' d' hj.linked nofun (Nat.lt_of_le_of_lt hj.2 hc))

theorem next (h : Agree B same bare (k + 1) p q) (hp : Consumes p)
    (hfg : ∀ a b, Agree B (same ∧ a = b) False k (f a) (g b)) :
    Agree B same bare (k + 1) (p >>= f) (q >>= g) :=
  h.andThen fun c a c' ha hc b d' hj => of_values (hfg a b c' d' hj.linked nofun
    (Nat.lt_of_lt_of_le (length_lt_of_passes (hp c a c' ha)) (Nat.le_of_lt_succ hc)))

variable {p' q' : Parser β}

theorem seq (h : Agree B same bare k p q) (h' : Agree B same False k p' q') :
    Agree B same bare k (p >>= fun _ => p') (q >>= fun _ => q') :=
  h.andThen fun _ _ c' _ hc _ d' hj => h' c' d' (hj.1.imp (fun h => ⟨h.1, h.2.1⟩) id) nofun
    (Nat.lt_of_le_of_lt hj.2 hc)

theorem nextSeq (h : Agree B same bare (k + 1) p q) (hp : Consumes p)
    (h' : Agree B same False k p' q') :
    Agree B same bare (k + 1) (p >>= fun _ => p') (q >>= fun _ => q') :=
  h.andThen fun c a c' ha hc _ d' hj => h' c' d' (hj.1.imp (fun h => ⟨h.1, h.2.1⟩) id) nofun
    (Nat.lt_of_lt_of_le (length_lt_of_passes (hp c a c' ha)) (Nat.le_of_lt_succ hc))

theorem map {f g : α → β} (h : Agree B same bare k p q) (hfg : ∀ a, f a = g a) :
    Agree B same bare k (f <$> p) (g <$> q) :=
  h.bind fun a b => agree_pure fun hs => by rw [hfg a, hs.2]

theorem seqRight (h : Agree B same bare k p q) (h' : Agree B same False k p' q') :
    Agree B same bare k (p *> p') (q *> q') := h.seq h'

theorem orElse {p' q' : Parser α} (h : Agree B same bare k p q)
    (h' : Agree B same bare k p' q') : Agree B same bare k (p <|> p') (q <|> q') :=
  Across.orElse h h'

theorem first {ps qs : List (Parser α)} (h : Agree B same bare k p q)
    (hs : Agree B same bare k (Parser.firstOf ps) (Parser.firstOf qs)) :
    Agree B same bare k (Parser.firstOf (p :: ps)) (Parser.firstOf (q :: qs)) := h.orElse hs

theorem last (h : Agree B same bare k p q) :
    Agree B same bare k (Parser.firstOf [p]) (Parser.firstOf [q]) :=
  h.orElse agree_failure

theorem firstOf {ps : List (Parser α)} (h : ∀ p ∈ ps, Agree B same bare k p p) :
    Agree B same bare k (Parser.firstOf ps) (Parser.firstOf ps) := by
  induction ps with
  | nil => exact agree_failure
  | cons p ps ih => exact (h p (.head _)).first (ih fun q hq => h q (.tail _ hq))

theorem maybe (h : Agree B same bare k p q) :
    Agree B same bare k (Parser.maybe p) (Parser.maybe q) :=
  (h.map fun _ => rfl).orElse (agree_pure fun _ => rfl)

theorem default (h : Agree B same bare k p q) (a : α) :
    Agree B same bare k (Parser.orElse p a) (Parser.orElse q a) :=
  h.orElse (agree_pure fun _ => rfl)

theorem many (h : ∀ s, Agree B s False k p q) (hp : Consumes p) (hn : k ≤ n) (hm : k ≤ m) :
    Agree B same bare k (Parser.many p n) (Parser.many q m) := by
  induction k generalizing n m same bare with
  | zero => exact fun c _ _ _ hc => absurd hc (Nat.not_lt_zero _)
  | succ k ih =>
    obtain ⟨n, rfl⟩ := Nat.exists_eq_add_of_le' (Nat.le_trans (Nat.le_add_left 1 k) hn)
    obtain ⟨m, rfl⟩ := Nat.exists_eq_add_of_le' (Nat.le_trans (Nat.le_add_left 1 k) hm)
    have hrest (s : Prop) : Agree B s False k (Parser.many p n) (Parser.many q m) :=
      ih (fun s => (h s).mono (Nat.le_succ k)) (Nat.le_of_succ_le_succ hn)
        (Nat.le_of_succ_le_succ hm)
    have hround (s : Prop) := (h s).next hp fun a b => (hrest _).bind fun as bs =>
      agree_pure (a := a :: as) (b := b :: bs) fun hs => by rw [hs.1.2, hs.2]
    exact ((hround same).settle nofun).orElse (agree_pure fun _ => rfl)

end Agree

end Parser

namespace Pairing

def symbols : List String :=
  ["(", ")", "[[", "]]", "<", ">", ",", "::", "?", ":", "++", "--", "*", "&"]

def marks : List String :=
  ["-", "+", "!", "~", "=", "||", "&&", "|", "^", "&", "==", "!=", "<=", ">=", "<", ">", "<<", ">>",
    "*", "/", "%", "<<=", ">>=", "-=", "+=", "*=", "/=", "%=", "&=", "^=", "|="]

def words : List String :=
  ["true", "false", "__attribute__", "__declspec", "template", "typename", "class"] ++ baseTypes

/-- The readings take layout and lexemes off their texts together. A slash is also how comments
begin, so no layout may lie in front of it, and where it is a symbol by itself no star follows. -/
structure Lawful (B : Pairing) : Prop where
  layout : ∀ {same : Prop} {c d : Cursor}, B.Linked same c d →
    B.Linked same (skipLayout .code c.loc c.rest) (skipLayout .code d.loc d.rest) ∧
      B.settled (skipLayout .code c.loc c.rest) (skipLayout .code d.loc d.rest)
  symbol : ∀ s ∈ symbols, ∀ same k, Parser.Agree B same False k (.symbol s) (.symbol s)
  mark : ∀ s ∈ marks, ∀ bad, (s = "/" → '*' ∈ bad) → ∀ same k,
    Parser.Agree B same ('/' ∈ s.toList) k (.symbolNotBefore s bad) (.symbolNotBefore s bad)
  word : ∀ s ∈ words, ∀ same k, Parser.Agree B same False k (.keyword s) (.keyword s)
  wordAndBlank : ∀ s ∈ ["const", "unsigned", "signed"],
    ∀ same k, Parser.Agree B same False k (.wordAndBlank s) (.wordAndBlank s)
  blanks : ∀ f : Char → Bool, (∀ c, f c → Text.isBlank c) →
    ∀ same k, Parser.Agree B same False k (.run f) (.run f)
  name : ∀ same k, Parser.Agree B same False k .name .name
  number : ∀ same k, Parser.Agree B same False k .number .number
  stringLiteral : ∀ same k, Parser.Agree B same False k .stringLiteral .stringLiteral

end Pairing

end AttrCheck
