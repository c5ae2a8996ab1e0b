import AttrCheck.Proofs.Lookahead

/-! How far parsers look ahead. Behind a closing bracket no word goes on and no symbol, but for the
second of two square brackets; so what follows the bracket makes no difference to lexemes that end
with it or before. -/

namespace AttrCheck

inductive Closed : List Char → Prop where
  | last {e : Char} (h : e = ')' ∨ e = ']') : Closed [e]
  | cons {c : Char} {cs : List Char} (h : Closed cs) : Closed (c :: cs)

namespace Closed

theorem ne_nil {z : List Char} (h : Closed z) : z ≠ [] := by
  cases h <;> nofun

theorem of_append {t z : List Char} (h : Closed (t ++ z)) (hz : z ≠ []) : Closed z := by
  induction t with
  | nil => exact h
  | cons c t ih =>
    generalize hcs : c :: t ++ z = cs at h
    cases h with
    | last h =>
      obtain ⟨_, hnil⟩ := List.cons.inj hcs
      exact absurd (List.append_eq_nil_iff.mp hnil).2 hz
    | cons h =>
      obtain ⟨_, rfl⟩ := List.cons.inj hcs
      exact ih h

theorem run {z : List Char} (h : Closed z) {f : Char → Bool} (hf : f ')' = false ∧ f ']' = false)
    (w : List Char) : (z ++ w).takeWhile f = z.takeWhile f ∧
      (z ++ w).dropWhile f = z.dropWhile f ++ w ∧ Closed (z.dropWhile f) := by
  induction h with
  | last h =>
    have he : f _ = false := h.elim (fun e => e ▸ hf.1) fun e => e ▸ hf.2
    simp [he, Closed.last h]
  | @cons c cs hcs ih =>
    by_cases hc : f c
    · simpa [hc] using ih
    · simp [hc, hcs.cons]

end Closed

namespace Parser

variable {α β : Type}

/-- Text behind a closing bracket makes no difference to the parser, unless the bracket goes on
there. -/
def Local (p : Parser α) : Prop := ∀ loc z w, Closed z → w.head? ≠ some ']' →
  p ⟨loc, z ++ w⟩ = (p ⟨loc, z⟩).map fun x => (x.1, ⟨x.2.loc, x.2.rest ++ w⟩)

def Open (p : Parser α) : Prop := ∀ loc z a c', Closed z → p ⟨loc, z⟩ = some (a, c') →
  Closed c'.rest

theorem local_pure (a : α) : Local (pure a : Parser α) := fun _ _ _ _ _ => rfl

theorem local_failure : Local (failure : Parser α) := fun _ _ _ _ _ => rfl

theorem Local.bind {p : Parser α} {q : α → Parser β} (hp : Local p) (ho : Open p)
    (hq : ∀ a, Local (q a)) : Local (p >>= q) := by
  intro loc z w hz hw
  show (p ⟨loc, z ++ w⟩).bind (fun x => q x.1 x.2) =
    ((p ⟨loc, z⟩).bind fun x => q x.1 x.2).map _
  rw [hp loc z w hz hw]
  cases hpz : p ⟨loc, z⟩ with
  | none => rfl
  | some x => exact hq x.1 x.2.loc x.2.rest w (ho loc z x.1 x.2 hz hpz) hw

theorem local_lexeme {split : List Char → Option (α × List Char × List Char)}
    (h : ∀ z w, Closed z → w.head? ≠ some ']' →
      split (z ++ w) = (split z).map fun x => (x.1, x.2.1, x.2.2 ++ w)) :
    Local (lexeme split) := by
  intro loc z w hz hw
  simp only [lexeme, h z w hz hw]
  cases split z <;> rfl

def fits : List Char → Bool
  | c :: d :: cs => (c ≠ ')' && (c ≠ ']' || d = ']')) && fits (d :: cs)
  | _ => true

theorem isPrefixOf?_append {s : List Char} (hs : fits s) {z w : List Char} (hz : Closed z)
    (hw : w.head? ≠ some ']') : s.isPrefixOf? (z ++ w) = (s.isPrefixOf? z).map (· ++ w) := by
  induction hz generalizing s with
  | @last e he =>
    match s with
    | [] => rfl
    | [c] =>
      simp only [List.isPrefixOf?, List.cons_append, List.nil_append]
      split <;> rfl
    | c :: d :: s =>
      simp only [fits, Bool.and_eq_true, Bool.or_eq_true, decide_eq_true_eq] at hs
      simp only [List.isPrefixOf?, List.cons_append, List.nil_append]
      split
      next hce =>
        have hd : d = ']' := by
          rw [eq_of_beq hce] at hs
          exact hs.1.2.resolve_left fun h => he.elim hs.1.1 h
        cases w with
        | nil => rfl
        | cons b w =>
          have hb : (d == b) = false := by
            rw [hd, beq_eq_false_iff_ne]
            exact fun h => hw (h ▸ rfl)
          simp [List.isPrefixOf?, hb]
      · rfl
  | @cons c z hz ih =>
    match s with
    | [] => rfl
    | [d] =>
      simp only [List.isPrefixOf?, List.cons_append]
      split <;> rfl
    | d :: e :: s =>
      simp only [fits, Bool.and_eq_true] at hs
      simp only [List.isPrefixOf?, List.cons_append]
      split
      · exact ih hs.2
      · rfl

theorem local_symbol {s : String} (hs : fits s.toList) : Local (symbol s) :=
  local_lexeme fun z w hz hw => by
    rw [isPrefixOf?_append hs hz hw]
    cases s.toList.isPrefixOf? z <;> rfl

theorem open_symbol {s : String} (hs : ∀ c ∈ s.toList, c ≠ ')' ∧ c ≠ ']') : Open (symbol s) := by
  intro loc z u c' hz h
  have hrest : z = s.toList ++ c'.rest := eq_append_of_symbol h
  refine Closed.of_append (hrest ▸ hz) fun hnil => ?_
  rw [hnil, List.append_nil] at hrest
  have hlast : ∀ z, Closed z → ∃ e ∈ z, e = ')' ∨ e = ']' := by
    intro z hz
    induction hz with
    | last h => exact ⟨_, .head _, h⟩
    | cons _ ih =>
      obtain ⟨e, he, h⟩ := ih
      exact ⟨e, .tail _ he, h⟩
  obtain ⟨e, he, h⟩ := hlast z hz
  obtain ⟨hne, hne'⟩ := hs e (hrest ▸ he)
  exact h.elim hne hne'

theorem local_run {f : Char → Bool} (hf : f ')' = false ∧ f ']' = false) : Local (run f) :=
  local_lexeme fun z w hz _ => by
    obtain ⟨htake, hdrop, _⟩ := hz.run hf w
    rw [htake, hdrop]
    rfl

theorem open_run {f : Char → Bool} (hf : f ')' = false ∧ f ']' = false) : Open (run f) := by
  intro loc z cs c' hz h
  obtain ⟨t, rest, hsplit, rfl⟩ := lexeme_eq_some h
  obtain ⟨_, _, rfl⟩ := Prod.mk.inj (Option.some.inj hsplit)
  exact (hz.run hf []).2.2

theorem local_notBefore (f : Char → Bool) : Local (notBefore f) := by
  intro loc z w hz _
  cases z with
  | nil => cases hz
  | cons c z =>
    show (if f c then none else some ((), (⟨loc, c :: (z ++ w)⟩ : Cursor))) = _
    simp only [notBefore]
    split <;> rfl

theorem local_run₁ {f : Char → Bool} (hf : f ')' = false ∧ f ']' = false) : Local (run₁ f) :=
  (local_run hf).bind (open_run hf) fun cs => by
    split
    · exact local_failure
    · exact local_pure cs

theorem open_run₁ {f : Char → Bool} (hf : f ')' = false ∧ f ']' = false) : Open (run₁ f) := by
  intro loc z cs c' hz h
  obtain ⟨ds, c₁, hrun, h⟩ := bind_eq_some_iff.mp h
  have hopen := open_run hf loc z ds c₁ hz hrun
  split at h
  · cases h
  · obtain ⟨_, rfl⟩ := pure_eq_some_iff.mp h
    exact hopen

def Unclosing (s : String) : Prop := ∀ c ∈ s.toList, c ≠ ')' ∧ c ≠ ']'

instance (s : String) : Decidable (Unclosing s) := inferInstanceAs (Decidable (∀ _ ∈ _, _))

theorem Unclosing.fits {s : String} (h : Unclosing s) : Parser.fits s.toList := by
  have hall : ∀ cs : List Char, (∀ c ∈ cs, c ≠ ')' ∧ c ≠ ']') → Parser.fits cs := by
    intro cs
    induction cs with
    | nil => exact fun _ => rfl
    | cons c cs ih =>
      intro h
      cases cs with
      | nil => rfl
      | cons d cs => simp [Parser.fits, h c (.head _), ih fun c hc => h c (.tail _ hc)]
  exact hall s.toList h

theorem local_keyword {s : String} (hs : Unclosing s) : Local (keyword s) :=
  (local_symbol hs.fits).bind (open_symbol hs) fun _ => local_notBefore Text.isWord

theorem local_symbolNotBefore {s : String} (hs : Unclosing s) (bad : List Char) :
    Local (symbolNotBefore s bad) :=
  (local_symbol hs.fits).bind (open_symbol hs) fun _ => local_notBefore bad.contains

theorem local_wordAndBlank {s : String} (hs : Unclosing s) : Local (wordAndBlank s) :=
  (local_symbol hs.fits).bind (open_symbol hs) fun _ =>
    (local_run₁ (by decide)).bind (open_run₁ (by decide)) fun _ => local_pure _

theorem local_loopDirective : Local loopDirective := by
  have hsymbol (s : String) (hs : Unclosing s) : Local (symbol s) := local_symbol hs.fits
  have hblank : Text.isInlineBlank ')' = false ∧ Text.isInlineBlank ']' = false := by decide
  exact (hsymbol "#" (by decide)).bind (open_symbol (by decide)) fun _ =>
    (local_run hblank).bind (open_run hblank) fun _ =>
      (hsymbol "pragma" (by decide)).bind (open_symbol (by decide)) fun _ =>
        (local_run₁ hblank).bind (open_run₁ hblank) fun _ =>
          (hsymbol "clang" (by decide)).bind (open_symbol (by decide)) fun _ =>
            (local_run₁ hblank).bind (open_run₁ hblank) fun _ => local_keyword (by decide)

theorem frontWord_closed {z : List Char} (hz : Closed z) (w : List Char) :
    frontWord (z ++ w) = frontWord z :=
  (hz.run (by decide) w).1

theorem front_closed {z : List Char} (hz : Closed z) (w : List Char) :
    front (z ++ w) = front z := by
  rw [front, front, frontWord_closed hz]
  cases z with
  | nil => cases hz
  | cons c z => rfl

theorem local_name : Local name :=
  local_lexeme fun z w hz _ => by
    obtain ⟨htake, hdrop, _⟩ := hz.run (f := isNamePart) (by decide) w
    cases z with
    | nil => cases hz
    | cons c z =>
      have hword := frontWord_closed hz w
      rw [List.cons_append] at htake hdrop hword
      simp only [splitName, List.cons_append, htake, hdrop, hword]
      split <;> rfl

theorem local_number : Local number :=
  local_lexeme fun z w hz _ => by
    have hdrop := (hz.run (f := Text.isWord) (by decide) w).2.1
    simp only [splitNumber, frontWord_closed hz, hdrop]
    cases wordNumber? (frontWord z) <;> rfl

end Parser

end AttrCheck
