import Mathlib.Order.Defs.PartialOrder
import Mathlib.Order.Basic
import AttrCheck.Grammar.Unit

/-! How far a parser reads. What it takes off the text is the front of what was left, and the place
moves on over just these characters. A parser that fails takes nothing. -/

namespace AttrCheck

instance : Preorder Loc where
  le l m := l.line < m.line ∨ l.line = m.line ∧ l.col ≤ m.col
  lt l m := l.line < m.line ∨ l.line = m.line ∧ l.col < m.col
  le_refl l := .inr ⟨rfl, Int.le_refl l.col⟩
  le_trans l m n h h' := by omega
  lt_iff_le_not_ge l m := by omega

namespace Loc

theorem lt_iff {l m : Loc} : l < m ↔ l.line < m.line ∨ l.line = m.line ∧ l.col < m.col :=
  Iff.rfl

theorem lt_next (l : Loc) (c : Char) : l < l.next c := by
  rw [lt_iff, next]
  split
  · exact .inl (Int.lt_succ l.line)
  · exact .inr ⟨rfl, Int.lt_succ l.col⟩

theorem le_after (l : Loc) (cs : List Char) : l ≤ l.after cs := by
  induction cs generalizing l with
  | nil => exact le_rfl
  | cons c cs ih => exact (lt_next l c).le.trans (ih (l.next c))

theorem lt_after (l : Loc) {cs : List Char} (h : cs ≠ []) : l < l.after cs := by
  cases cs with
  | nil => exact absurd rfl h
  | cons c cs => exact (lt_next l c).trans_le (le_after (l.next c) cs)

end Loc

namespace Cursor

def Reaches (c c' : Cursor) : Prop := ∃ t, c.rest = t ++ c'.rest ∧ c'.loc = c.loc.after t

def Passes (c c' : Cursor) : Prop :=
  ∃ t, t ≠ [] ∧ c.rest = t ++ c'.rest ∧ c'.loc = c.loc.after t

variable {c c' c'' : Cursor}

theorem Reaches.refl (c : Cursor) : c.Reaches c := ⟨[], rfl, rfl⟩

theorem Reaches.trans (h : c.Reaches c') (h' : c'.Reaches c'') : c.Reaches c'' := by
  obtain ⟨t, hr, hl⟩ := h
  obtain ⟨t', hr', hl'⟩ := h'
  exact ⟨t ++ t', by rw [hr, hr', List.append_assoc], by rw [hl', hl, Loc.after_append]⟩

theorem Passes.reaches (h : c.Passes c') : c.Reaches c' := by
  obtain ⟨t, _, ht⟩ := h
  exact ⟨t, ht⟩

theorem Passes.trans_reaches (h : c.Passes c') (h' : c'.Reaches c'') : c.Passes c'' := by
  obtain ⟨t, ht, hr, hl⟩ := h
  obtain ⟨t', hr', hl'⟩ := h'
  exact ⟨t ++ t', List.append_ne_nil_of_left_ne_nil ht t', by rw [hr, hr', List.append_assoc],
    by rw [hl', hl, Loc.after_append]⟩

theorem Reaches.trans_passes (h : c.Reaches c') (h' : c'.Passes c'') : c.Passes c'' := by
  obtain ⟨t, hr, hl⟩ := h
  obtain ⟨t', ht', hr', hl'⟩ := h'
  exact ⟨t ++ t', List.append_ne_nil_of_right_ne_nil t ht', by rw [hr, hr', List.append_assoc],
    by rw [hl', hl, Loc.after_append]⟩

theorem Reaches.loc_le (h : c.Reaches c') : c.loc ≤ c'.loc := by
  obtain ⟨t, _, hl⟩ := h
  rw [hl]
  exact Loc.le_after c.loc t

theorem Passes.loc_lt (h : c.Passes c') : c.loc < c'.loc := by
  obtain ⟨t, ht, _, hl⟩ := h
  rw [hl]
  exact Loc.lt_after c.loc ht

theorem reaches_next (loc : Loc) (d : Char) (cs : List Char) :
    Reaches ⟨loc, d :: cs⟩ ⟨loc.next d, cs⟩ := ⟨[d], rfl, rfl⟩

end Cursor

namespace Parser

variable {α β : Type} {p : Parser α} {q : α → Parser β}

theorem bind_eq_some_iff {c c'' : Cursor} {b : β} :
    (p >>= q) c = some (b, c'') ↔ ∃ a c', p c = some (a, c') ∧ q a c' = some (b, c'') := by
  show Option.bind (p c) (fun x => q x.1 x.2) = _ ↔ _
  simp [Option.bind_eq_some_iff]

theorem pure_eq_some_iff {a b : α} {c c' : Cursor} :
    (pure a : Parser α) c = some (b, c') ↔ a = b ∧ c = c' := by
  show some (a, c) = _ ↔ _
  simp

theorem here_eq_some_iff {l : Loc} {c c' : Cursor} :
    here c = some (l, c') ↔ c.loc = l ∧ c = c' := by
  simp [here]

theorem bind_here_apply (q : Loc → Parser β) (c : Cursor) : (here >>= q) c = q c.loc c := rfl

theorem map_eq_some_iff {f : α → β} {c c' : Cursor} {b : β} :
    (f <$> p) c = some (b, c') ↔ ∃ a, p c = some (a, c') ∧ f a = b := by
  show Option.bind (p c) (fun x => some (f x.1, x.2)) = _ ↔ _
  simp [Option.bind_eq_some_iff]

theorem orElse_eq_some {p p' : Parser α} {c c' : Cursor} {a : α}
    (h : (p <|> p') c = some (a, c')) : p c = some (a, c') ∨ p' c = some (a, c') := by
  change ((p c) <|> (p' c)) = _ at h
  cases hp : p c with
  | none => exact .inr (by simpa [hp] using h)
  | some x => exact .inl (by simpa [hp] using h)

theorem firstOf_eq_some {ps : List (Parser α)} {c c' : Cursor} {a : α}
    (h : firstOf ps c = some (a, c')) : ∃ p ∈ ps, p c = some (a, c') := by
  induction ps with
  | nil => exact absurd h nofun
  | cons p ps ih =>
    obtain h | h := orElse_eq_some h
    · exact ⟨p, List.mem_cons_self, h⟩
    · obtain ⟨p', hp', h⟩ := ih h
      exact ⟨p', List.mem_cons_of_mem p hp', h⟩

theorem maybe_eq_some {o : Option α} {c c' : Cursor} (h : maybe p c = some (o, c')) :
    (∃ a, p c = some (a, c') ∧ o = some a) ∨ o = none ∧ c = c' := by
  obtain h | h := orElse_eq_some h
  · obtain ⟨a, hp, rfl⟩ := map_eq_some_iff.mp h
    exact .inl ⟨a, hp, rfl⟩
  · obtain ⟨rfl, rfl⟩ := pure_eq_some_iff.mp h
    exact .inr ⟨rfl, rfl⟩

def Advances (p : Parser α) : Prop := ∀ c a c', p c = some (a, c') → c.Reaches c'

def Consumes (p : Parser α) : Prop := ∀ c a c', p c = some (a, c') → c.Passes c'

theorem advances_pure (a : α) : Advances (pure a : Parser α) := by
  intro c b c' h
  obtain ⟨_, rfl⟩ := pure_eq_some_iff.mp h
  exact .refl c

theorem advances_failure : Advances (failure : Parser α) := nofun

theorem advances_here : Advances here := by
  intro c l c' h
  obtain ⟨_, rfl⟩ := here_eq_some_iff.mp h
  exact .refl c

theorem Consumes.advances (h : Consumes p) : Advances p := fun c a c' e => (h c a c' e).reaches

namespace Advances

theorem bind (hp : Advances p) (hq : ∀ a, Advances (q a)) : Advances (p >>= q) := by
  intro c b c'' h
  obtain ⟨a, c', h, h'⟩ := bind_eq_some_iff.mp h
  exact (hp c a c' h).trans (hq a c' b c'' h')

theorem bind_consumes (hp : Advances p) (hq : ∀ a, Consumes (q a)) : Consumes (p >>= q) := by
  intro c b c'' h
  obtain ⟨a, c', h, h'⟩ := bind_eq_some_iff.mp h
  exact (hp c a c' h).trans_passes (hq a c' b c'' h')

theorem map (f : α → β) (hp : Advances p) : Advances (f <$> p) := by
  intro c b c' h
  obtain ⟨a, h, _⟩ := map_eq_some_iff.mp h
  exact hp c a c' h

theorem seqRight {p' : Parser β} (hp : Advances p) (hp' : Advances p') : Advances (p *> p') :=
  hp.bind fun _ => hp'

theorem orElse {p' : Parser α} (hp : Advances p) (hp' : Advances p') : Advances (p <|> p') := by
  intro c a c' h
  exact (orElse_eq_some h).elim (hp c a c') (hp' c a c')

theorem firstOf {ps : List (Parser α)} (h : ∀ p ∈ ps, Advances p) :
    Advances (Parser.firstOf ps) := by
  intro c a c' e
  obtain ⟨p, hp, e⟩ := firstOf_eq_some e
  exact h p hp c a c' e

theorem first {ps : List (Parser α)} (hp : Advances p) (hps : Advances (Parser.firstOf ps)) :
    Advances (Parser.firstOf (p :: ps)) := hp.orElse hps

theorem last (hp : Advances p) : Advances (Parser.firstOf [p]) := hp.orElse advances_failure

theorem maybe (hp : Advances p) : Advances (Parser.maybe p) :=
  (hp.map some).orElse (advances_pure none)

theorem default (hp : Advances p) (a : α) : Advances (Parser.orElse p a) :=
  hp.orElse (advances_pure a)

theorem many (hp : Advances p) (n : Nat) : Advances (Parser.many p n) := by
  induction n with
  | zero => exact advances_pure []
  | succ n ih => exact (hp.bind fun _ => ih.bind fun _ => advances_pure _).orElse (advances_pure [])

end Advances

theorem Consumes.bind (hp : Consumes p) (hq : ∀ a, Advances (q a)) : Consumes (p >>= q) := by
  intro c b c'' h
  obtain ⟨a, c', h, h'⟩ := bind_eq_some_iff.mp h
  exact (hp c a c' h).trans_reaches (hq a c' b c'' h')

def Splits (split : List Char → Option (α × List Char × List Char)) : Prop :=
  ∀ cs a lexeme rest, split cs = some (a, lexeme, rest) → cs = lexeme ++ rest

variable {split : List Char → Option (α × List Char × List Char)}

theorem lexeme_eq_some {c c' : Cursor} {a : α} (h : lexeme split c = some (a, c')) :
    ∃ t rest, split c.rest = some (a, t, rest) ∧ c' = c.behind t rest := by
  simp only [lexeme, Option.map_eq_some_iff, Prod.mk.injEq] at h
  obtain ⟨⟨_, t, rest⟩, hs, rfl, rfl⟩ := h
  exact ⟨t, rest, hs, rfl⟩

theorem advances_lexeme (h : Splits split) : Advances (lexeme split) := by
  intro c a c' e
  obtain ⟨t, rest, hs, rfl⟩ := lexeme_eq_some e
  exact ⟨t, h c.rest a t rest hs, rfl⟩

theorem consumes_lexeme (h : Splits split) (hne : ∀ cs a rest, split cs ≠ some (a, [], rest)) :
    Consumes (lexeme split) := by
  intro c a c' e
  obtain ⟨t, rest, hs, rfl⟩ := lexeme_eq_some e
  exact ⟨t, fun ht => hne _ _ _ (ht ▸ hs), h c.rest a t rest hs, rfl⟩

end Parser

end AttrCheck
