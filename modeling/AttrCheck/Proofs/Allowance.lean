import AttrCheck.Proofs.GrammarAgreement

/-! The allowance of a parser. It bounds how deep a reading goes and how often a part of it is
repeated, and neither can exceed the number of characters that are left. So every allowance above
that number gives the same reading; and where a text stands makes no difference to what is read. -/

namespace AttrCheck

def Pairing.plain (same : Prop) : Pairing where
  inStep c d := c = d
  apart c d := ¬ same ∧ c.rest = d.rest
  settled _ _ := True
  loc_eq h := by rw [h]

namespace Parser

variable {α β : Type} {same : Prop} {k n m : Nat}

/-- Two parsers that read the same off all texts of fewer than `k` characters. The texts stand in
the same place if `same`, and then the parsers also give the same. -/
abbrev Alike (same : Prop) (k : Nat) (p q : Parser α) : Prop := Agree (.plain same) same False k p q

theorem alike_pure {a b : α} (hab : same → a = b) : Alike same k (pure a : Parser α) (pure b) :=
  agree_pure hab

namespace Alike

variable {p q : Parser α}

theorem of_advances (hp : Advances p) (h : ∀ c d : Cursor, c.rest = d.rest →
    Option.Rel (fun x y => x.2.rest = y.2.rest) (p c) (p d)) : Alike same k p p := by
  intro c d hl _ _
  have hlen : ∀ x ∈ p c, x.2.rest.length ≤ c.rest.length := fun x hx =>
    length_le_of_reaches (hp c x.1 x.2 hx)
  obtain ⟨hs, rfl⟩ | ⟨hs, hr⟩ := hl
  · cases he : p c with
    | none => exact .none
    | some x => exact .some ⟨.inl ⟨hs, rfl, rfl⟩, hlen x he⟩
  · have hrel := h c d hr
    generalize p c = x at *
    generalize p d = y at *
    cases hrel with
    | none => exact .none
    | some hxy => exact .some ⟨.inr ⟨hs, hxy⟩, hlen _ rfl⟩

theorem agree (h : Alike same k p q) (s bare : Prop) : Agree (.plain same) s bare k p q := by
  intro c d hl _ hc
  by_cases hsame : same
  · have hl' : (Pairing.plain same).Linked same c d :=
      hl.imp (fun h => ⟨hsame, h.2⟩) fun h => absurd hsame h.1
    exact rel_imp (h c d hl' nofun hc) fun _ _ hj => ⟨hj.1.elim
      (fun hin => hl.elim (fun h => .inl ⟨h.1, hin.2⟩) fun h => absurd hsame h.1)
      fun h => absurd hsame h.1, hj.2⟩
  · have hl' : (Pairing.plain same).Linked same c d :=
      .inr (hl.elim (fun h => ⟨hsame, congrArg Cursor.rest h.2⟩) id)
    exact rel_imp (h c d hl' nofun hc) fun _ _ hj =>
      ⟨.inr (hj.1.elim (fun h => absurd h.1 hsame) id), hj.2⟩

theorem eq (h : Alike True k p q) {c : Cursor} (hc : c.rest.length < k) : p c = q c := by
  have hrel := h c c (.inl ⟨trivial, rfl⟩) nofun hc
  generalize p c = x at *
  generalize q c = y at *
  cases hrel with
  | none => rfl
  | some h =>
    obtain ⟨_, hcursor, hvalue⟩ | ⟨hfalse, _⟩ := h.1
    · exact congrArg some (Prod.ext hvalue hcursor)
    · exact absurd trivial hfalse

theorem rest_eq (h : Alike False k p q) {r : List Char} (hr : r.length < k) (l l' : Loc) :
    (p ⟨l, r⟩).map (·.2.rest) = (q ⟨l', r⟩).map (·.2.rest) := by
  have hrel := h ⟨l, r⟩ ⟨l', r⟩ (.inr ⟨id, rfl⟩) nofun hr
  generalize p ⟨l, r⟩ = x at *
  generalize q ⟨l', r⟩ = y at *
  cases hrel with
  | none => rfl
  | some h =>
    obtain ⟨hfalse, _⟩ | ⟨_, hrest⟩ := h.1
    · exact hfalse.elim
    · exact congrArg some hrest

theorem value_eq {r : List Char} {a b : α} {c d : Cursor}
    (h : (Pairing.plain same).Joint same r (a, c) (b, d)) : same → a = b :=
  fun hs => h.1.elim (fun h => h.2.2) fun h => absurd hs h.1

theorem linked {r : List Char} {a b : α} {c d : Cursor}
    (h : (Pairing.plain same).Joint same r (a, c) (b, d)) : (Pairing.plain same).Linked same c d :=
  h.1.imp (fun h => ⟨h.1, h.2.1⟩) id

theorem bind {f g : α → Parser β} (h : Alike same k p q)
    (hfg : ∀ a b, (same → a = b) → Alike same k (f a) (g b)) :
    Alike same k (p >>= f) (q >>= g) :=
  h.andThen fun _ a c' _ hc b d' hj =>
    hfg a b (value_eq hj) c' d' (linked hj) nofun (Nat.lt_of_le_of_lt hj.2 hc)

theorem many (h : Alike same k p q) (hp : Consumes p) (hn : k ≤ n) (hm : k ≤ m) :
    Alike same k (Parser.many p n) (Parser.many q m) :=
  Agree.many (fun s => h.agree s False) hp hn hm

theorem seqLeft {p' q' : Parser β} (h : Alike same k p q) (h' : Alike same k p' q') :
    Alike same k (p <* p') (q <* q') := h.bind fun _ _ hab => h'.bind fun _ _ _ => agree_pure hab

end Alike

theorem alike_lexeme {split : List Char → Option (α × List Char × List Char)} (h : Splits split) :
    Alike same k (lexeme split) (lexeme split) := by
  refine .of_advances (advances_lexeme h) fun c d hr => ?_
  simp only [lexeme, hr]
  cases split d.rest with
  | none => exact .none
  | some x => exact .some rfl

theorem alike_symbol (s : String) : Alike same k (symbol s) (symbol s) :=
  alike_lexeme (splits_symbol s)

theorem alike_run (f : Char → Bool) : Alike same k (run f) (run f) := by
  refine .of_advances (advances_run f) fun c d hr => ?_
  simp only [run, lexeme, hr]
  exact .some rfl

theorem alike_run₁ (f : Char → Bool) : Alike same k (run₁ f) (run₁ f) := by
  refine .of_advances (advances_run₁ f) fun c d hr => ?_
  show Option.Rel _ ((if (c.rest.takeWhile f).isEmpty then failure else
    pure (c.rest.takeWhile f) : Parser _) _) ((if (d.rest.takeWhile f).isEmpty then
      failure else pure (d.rest.takeWhile f) : Parser _) _)
  rw [hr]
  split
  · exact .none
  · exact .some rfl

theorem alike_notBefore (f : Char → Bool) : Alike same k (notBefore f) (notBefore f) := by
  refine .of_advances (advances_notBefore f) fun c d hr => ?_
  unfold notBefore
  rw [hr]
  split
  · exact .some hr
  · split
    · exact .none
    · exact .some hr

theorem alike_symbolNotBefore (s : String) (bad : List Char) :
    Alike same k (symbolNotBefore s bad) (symbolNotBefore s bad) :=
  (alike_symbol s).bind fun _ _ _ => alike_notBefore bad.contains

theorem alike_keyword (s : String) : Alike same k (keyword s) (keyword s) :=
  (alike_symbol s).bind fun _ _ _ => alike_notBefore Text.isWord

theorem alike_loopDirective : Alike same k loopDirective loopDirective :=
  (alike_symbol _).bind fun _ _ _ => (alike_run _).bind fun _ _ _ =>
    (alike_symbol _).bind fun _ _ _ => (alike_run₁ _).bind fun _ _ _ =>
      (alike_symbol _).bind fun _ _ _ => (alike_run₁ _).bind fun _ _ _ => alike_keyword _

theorem atLoopDirective_eq (loc loc' : Loc) (cs : List Char) :
    atLoopDirective ⟨loc, cs⟩ = atLoopDirective ⟨loc', cs⟩ := by
  have h := alike_loopDirective.rest_eq (Nat.lt_succ_self cs.length) loc loc'
  unfold atLoopDirective
  rw [← Option.isSome_map (f := fun x => x.2.rest), h, Option.isSome_map]

end Parser

inductive LayoutMode.Like : LayoutMode → LayoutMode → Prop where
  | code : Like code code
  | line : Like line line
  | slash {o o' : Cursor} (h : o.rest = o'.rest) : Like (slash o) (slash o')
  | comment {o o' : Cursor} (h : o.rest = o'.rest) : Like (comment o) (comment o')
  | star {o o' : Cursor} (h : o.rest = o'.rest) : Like (star o) (star o')

theorem rest_skipLayout_eq {mode mode' : LayoutMode} (h : mode.Like mode') (loc loc' : Loc)
    (cs : List Char) : (skipLayout mode loc cs).rest = (skipLayout mode' loc' cs).rest := by
  induction cs generalizing mode mode' loc loc' with
  | nil => cases h <;> first | rfl | assumption
  | cons c cs ih =>
    cases h with
    | code =>
      simp only [skipLayout, Parser.atLoopDirective_eq loc loc']
      split_ifs
      · exact ih .code _ _
      · have hslash : (LayoutMode.slash ⟨loc, c :: cs⟩).Like (.slash ⟨loc', c :: cs⟩) := .slash rfl
        exact ih hslash _ _
      · exact ih .line _ _
      · rfl
    | line =>
      refine ih ?_ _ _
      split_ifs
      · exact .code
      · exact .line
    | slash h =>
      simp only [skipLayout]
      split_ifs
      · exact ih .line _ _
      · exact ih (.comment h) _ _
      · exact h
    | comment h =>
      refine ih ?_ _ _
      split_ifs
      · exact .star h
      · exact .comment h
    | star h =>
      refine ih ?_ _ _
      split_ifs
      · exact .code
      · exact .star h
      · exact .comment h

namespace Parser

theorem lawful_plain (same : Prop) : (Pairing.plain same).Lawful where
  layout := by
    rintro s c d (⟨hs, rfl⟩ | ⟨hs, hr⟩)
    · exact ⟨.inl ⟨hs, rfl⟩, trivial⟩
    · exact ⟨.inr ⟨hs, hr ▸ rest_skipLayout_eq .code c.loc d.loc c.rest⟩, trivial⟩
  symbol t _ s _ := (alike_symbol t).agree s _
  mark t _ bad _ s _ := (alike_symbolNotBefore t bad).agree s _
  word t _ s _ := (alike_keyword t).agree s _
  wordAndBlank t _ s _ := Alike.agree ((alike_symbol t).seq ((alike_run₁ _).seq
    (alike_pure fun _ => rfl))) s _
  blanks f _ s _ := (alike_run f).agree s _
  name s _ := Alike.agree (alike_lexeme fun cs a t rest h => by
    obtain ⟨_, rfl, rfl⟩ := splitName_eq_some h
    exact List.takeWhile_append_dropWhile.symm) s _
  number s _ := Alike.agree (alike_lexeme fun cs a t rest h => by
    simp only [splitNumber, Option.map_eq_some_iff, Prod.mk.injEq] at h
    obtain ⟨_, _, _, rfl, rfl⟩ := h
    exact List.takeWhile_append_dropWhile.symm) s _
  stringLiteral s _ := Alike.agree (alike_lexeme fun cs a t rest h => by
    obtain ⟨_, _, _, hcs⟩ := splitString_eq_some h
    exact hcs) s _

variable {α β : Type} {same : Prop} {k n m : Nat}

theorem Alike.spaced {p q : Parser α} (h : Alike same k p q) :
    Alike same k (Parser.spaced p) (Parser.spaced q) :=
  Agree.spaced (lawful_plain same) (h.settle nofun)

theorem alike_layout : Alike same k layout layout := agree_layout (lawful_plain same)

theorem alike_name : Alike same k name name := agree_name (lawful_plain same)

end Parser

end AttrCheck
