import AttrCheck.Proofs.Seam

/-! Readings of a text and of the text with the semicolon take lexemes off together. Only a string
can run on over the seam, and it ends in the same place of both texts. -/

namespace AttrCheck

namespace Loc

theorem after_lt_of_shorter {z r t s : List Char} (h : z ++ r = t ++ s) (hlen : s.length < r.length)
    (loc : Loc) : loc.after z < loc.after t := by
  obtain ⟨u, rfl, rfl⟩ | ⟨u, rfl, rfl⟩ := List.append_eq_append_iff.mp h
  · have hne : u ≠ [] := by
      rintro rfl
      exact absurd hlen (Nat.lt_irrefl _)
    rw [after_append]
    exact lt_after _ hne
  · rw [List.length_append] at hlen
    exact absurd hlen (by omega)

end Loc

theorem Closed.tail {c : Char} {z : List Char} (h : Closed (c :: z)) : z = [] ∨ Closed z := by
  cases h with
  | last _ => exact .inl rfl
  | cons h => exact .inr h

namespace Seam

variable {σ : Seam}

def StringsMeet (σ : Seam) (z : List Char) (x y : List Char × List Char) : Prop :=
  (∃ w, Closed w ∧ z = x.1 ++ '"' :: w ∧ y.1 = x.1 ∧ x.2 = w ++ σ.rest ∧
    y.2 = w ++ ';' :: σ.rest) ∨
  x.2 = y.2 ∧ x.2.length < σ.rest.length

theorem stringsMeet_map {z : List Char} {o o' : Option (List Char × List Char)} (e : List Char)
    (h : Option.Rel (σ.StringsMeet z) o o') :
    Option.Rel (σ.StringsMeet (e ++ z)) (o.map fun x => (e ++ x.1, x.2))
      (o'.map fun x => (e ++ x.1, x.2)) := by
  cases h with
  | none => exact .none
  | some h =>
    refine .some (h.imp ?_ id)
    rintro ⟨w, hw, rfl, hbody, hx, hy⟩
    exact ⟨w, hw, (List.append_assoc ..).symm, congrArg (e ++ ·) hbody, hx, hy⟩

theorem splitStringBody_plain {c : Char} (hc : c ≠ '"' ∧ c ≠ '\\' ∧ c ≠ '\n') (cs : List Char) :
    splitStringBody (c :: cs) = (splitStringBody cs).map fun x => ([c] ++ x.1, x.2) := by
  rw [splitStringBody]
  · rw [if_neg (by simp [hc.2])]
    rfl
  · exact hc.1
  · exact fun _ _ h => absurd h hc.2.1

theorem stringsMeet_at :
    Option.Rel (σ.StringsMeet []) (splitStringBody σ.rest) (splitStringBody (';' :: σ.rest)) := by
  rw [splitStringBody_plain (by decide)]
  cases h : splitStringBody σ.rest with
  | none => exact .none
  | some x =>
    have hlen : x.2.length < σ.rest.length := by
      rw [Parser.splitStringBody_eq_some h, List.length_append]
      exact Nat.lt_add_left _ (Nat.lt_succ_self _)
    exact .some (.inr ⟨rfl, hlen⟩)

theorem stringsMeet_of_closed {z : List Char} (hz : z = [] ∨ Closed z) :
    Option.Rel (σ.StringsMeet z) (splitStringBody (z ++ σ.rest))
      (splitStringBody (z ++ ';' :: σ.rest)) := by
  match z with
  | [] => exact stringsMeet_at
  | [c] =>
    -- A bracket, so nothing of the string ends or is taken along here.
    have hbracket : c = ')' ∨ c = ']' := by
      obtain hz | hz := hz
      · cases hz
      · cases hz with
        | last h => exact h
        | cons h => cases h
    have hplain : c ≠ '"' ∧ c ≠ '\\' ∧ c ≠ '\n' := by
      obtain rfl | rfl := hbracket <;> decide
    rw [List.singleton_append, List.singleton_append, splitStringBody_plain hplain,
      splitStringBody_plain hplain]
    exact stringsMeet_map [c] stringsMeet_at
  | c :: d :: z =>
    have hz' : Closed (d :: z) := (hz.resolve_left nofun).tail.resolve_left nofun
    by_cases hquote : c = '"'
    · subst hquote
      exact .some (.inl ⟨d :: z, hz', rfl, rfl, rfl, rfl⟩)
    by_cases hback : c = '\\'
    · subst hback
      simp only [List.cons_append, splitStringBody]
      split_ifs
      · exact .none
      · exact stringsMeet_map ['\\', d] (stringsMeet_of_closed hz'.tail)
    by_cases hline : c = '\n'
    · subst hline
      exact .none
    · simp only [List.cons_append, splitStringBody_plain ⟨hquote, hback, hline⟩]
      exact stringsMeet_map [c] (stringsMeet_of_closed (.inr hz'))

end Seam

namespace Parser

variable {α : Type} {p : Parser α} {σ : Seam} {same bare : Prop} {k : Nat}

theorem agree_blanks {f : Char → Bool} (hf : ∀ c, f c → Text.isBlank c) :
    Agree σ.pairing same bare k (run f) (run f) := by
  have hnot (c : Char) (hc : Text.isBlank c = false) : f c = false := by
    by_contra h
    exact absurd (hf c (by simpa using h)) (by simp [hc])
  have hclosing : f ')' = false ∧ f ']' = false := ⟨hnot _ (by decide), hnot _ (by decide)⟩
  have hsemicolon : run f σ.semicolon = some ([], σ.semicolon) := by
    have hneg : ¬ f ';' := by simp [hnot ';' (by decide)]
    show some (_, (⟨_, _⟩ : Cursor)) = _
    rw [Seam.semicolon, List.takeWhile_cons_of_neg hneg, List.dropWhile_cons_of_neg hneg]
    rfl
  intro c d hl _ _
  have hlen := length_le_of_reaches (advances_run f c _ _ rfl)
  have hskip := Seam.skipLayout_dropWhile hf c.loc c.rest
  obtain ⟨hs, hin⟩ | hapart := hl
  · cases hin with
    | before hz hl => exact before_of_local (advances_run f) (local_run hclosing) hs _ _ hz hl
    | «at» =>
      rw [hsemicolon]
      by_cases hrest : σ.rest.takeWhile f = []
      · have hdrop : σ.rest.dropWhile f = σ.rest := by
          have happend := List.takeWhile_append_dropWhile (p := f) (l := σ.rest)
          rwa [hrest] at happend
        have hrun : run f ⟨σ.loc, σ.rest⟩ = some ([], ⟨σ.loc, σ.rest⟩) := by
          show some (_, (⟨_, _⟩ : Cursor)) = _
          rw [hrest, hdrop]
          rfl
        rw [hrun]
        exact .some ⟨.inl ⟨hs, .at, rfl⟩, Nat.le_refl _⟩
      · exact .some ⟨.inr (.ahead (Loc.lt_after σ.loc hrest) hskip), hlen⟩
  · cases hapart with
    | ahead hc h =>
      rw [hsemicolon]
      exact .some ⟨.inr (.ahead (hc.trans_le (Loc.le_after c.loc _)) (hskip.trans h)), hlen⟩
    | behind hc hr hlen =>
      exact behind_of_alike (advances_run f) (fun _ => alike_run f) hc hr hlen

theorem splits_string : Splits splitString := by
  intro cs a t rest h
  obtain ⟨_, _, _, hcs⟩ := splitString_eq_some h
  exact hcs

theorem before_stringLiteral (hs : same) (loc : Loc) (z : List Char) (hz : Closed z)
    (hl : loc.after z = σ.loc) : Option.Rel (σ.pairing.Joint same (z ++ σ.rest))
      (stringLiteral ⟨loc, z ++ σ.rest⟩) (stringLiteral ⟨loc, z ++ ';' :: σ.rest⟩) := by
  cases z with
  | nil => cases hz
  | cons c z =>
    by_cases hc : c = '"'
    · subst hc
      rw [List.cons_append, List.cons_append, stringLiteral_quote, stringLiteral_quote]
      refine rel_bind (Seam.stringsMeet_of_closed hz.tail) ?_
      rintro ⟨body, r⟩ hbody ⟨body', r'⟩ hmeet
      have htext : '"' :: z ++ σ.rest = ('"' :: body ++ ['"']) ++ r := by
        simp [splitStringBody_eq_some hbody]
      have hlen : r.length ≤ ('"' :: z ++ σ.rest).length := by
        rw [htext, List.length_append]
        exact Nat.le_add_left _ _
      refine .some ⟨?_, hlen⟩
      obtain ⟨w, _, rfl, hsame, hr, hr'⟩ | ⟨hrest, hlt⟩ := hmeet
      · have hz' : '"' :: (body ++ '"' :: w) = ('"' :: body ++ ['"']) ++ w := by simp
        rw [hz'] at hz hl
        obtain rfl : body' = body := hsame
        obtain rfl : r = w ++ σ.rest := hr
        obtain rfl : r' = w ++ ';' :: σ.rest := hr'
        exact .inl ⟨hs, Seam.inStep_behind hz hl, rfl⟩
      · have hloc := Loc.after_lt_of_shorter htext hlt loc
        rw [hl] at hloc
        exact .inr (.behind hloc hrest (Nat.le_of_lt hlt))
    · rw [List.cons_append, List.cons_append, stringLiteral_eq_none hc, stringLiteral_eq_none hc]
      exact .none

theorem agree_stringLiteral : Agree σ.pairing same bare k stringLiteral stringLiteral := by
  have hquote : "\"" ∉ ["case", "default", ";"] ∧ ∀ c ∈ "\"".toList.head?, ¬ OpensLayout c := by
    decide
  exact agree_of_begins (advances_lexeme splits_string) (fun _ => alike_lexeme splits_string)
    before_stringLiteral begins_stringLiteral (fun w hw hw' => hquote.1 (hw' ▸ hw))
    fun _ w hw => hw ▸ hquote.2

section Fronts

variable {s : String} (hfronts : ∀ w ∈ ["case", "default", ";"], w ≠ String.ofList (s.toList.take 1))
include hfronts

theorem agree_symbol_of_fits (hs : fits s.toList)
    (hhead : ∃ c ∈ s.toList.head?, Text.isWord c = false)
    (hlayout : ∀ c ∈ (String.ofList (s.toList.take 1)).toList.head?, ¬ OpensLayout c) :
    Agree σ.pairing same bare k (symbol s) (symbol s) :=
  agree_of_begins (advances_symbol s) (fun _ => alike_symbol s)
    (before_of_local (advances_symbol s) (local_symbol hs)) (begins_symbol hhead) hfronts
    fun _ _ hw => hw ▸ hlayout

theorem agree_symbolNotBefore (hs : Unclosing s) (bad : List Char)
    (hhead : ∃ c ∈ s.toList.head?, Text.isWord c = false)
    (hlayout : ¬ bare → ∀ c ∈ (String.ofList (s.toList.take 1)).toList.head?, ¬ OpensLayout c) :
    Agree σ.pairing same bare k (symbolNotBefore s bad) (symbolNotBefore s bad) :=
  agree_of_begins (advances_symbolNotBefore s bad) (fun _ => alike_symbolNotBefore s bad)
    (before_of_local (advances_symbolNotBefore s bad) (local_symbolNotBefore hs bad))
    (begins_symbol hhead).bind hfronts fun hbare _ hw => hw ▸ hlayout hbare

end Fronts

section Words

variable {s : String} (hs : Unclosing s) (hw : IsWhole s) (hfronts : s ∉ ["case", "default", ";"])
include hs hw hfronts

theorem agree_of_word {p : Parser α} (ha : Advances p) (hp : ∀ k, Alike False k p p)
    (hl : Local p) (hb : Begins p (· = s)) : Agree σ.pairing same bare k p p := by
  refine agree_of_begins ha hp (before_of_local ha hl) hb (fun w hw hws => hfronts (hws ▸ hw)) ?_
  rintro - w rfl c hc hopens
  exact absurd (hw.2 c (List.mem_of_mem_head? hc)) (by simp [hopens.not_isWord])

theorem agree_keyword : Agree σ.pairing same bare k (keyword s) (keyword s) :=
  agree_of_word hs hw hfronts (advances_keyword s) (fun _ => alike_keyword s) (local_keyword hs)
    (begins_keyword hw)

theorem agree_wordAndBlank : Agree σ.pairing same bare k (wordAndBlank s) (wordAndBlank s) :=
  agree_of_word hs hw hfronts (advances_wordAndBlank s)
    (fun _ => (alike_symbol s).seq ((alike_run₁ _).seq (alike_pure fun _ => rfl)))
    (local_wordAndBlank hs) (begins_wordAndBlank hw)

end Words

theorem agree_name_of_seam : Agree σ.pairing same bare k name name := by
  have hfronts : ∀ w ∈ ["case", "default", ";"],
      ¬ ((∃ c ∈ w.toList.head?, isNameStart c) ∧ reservedWords.contains w = false) := by
    decide
  refine agree_of_begins consumes_name.advances (fun _ => alike_name)
    (before_of_local consumes_name.advances local_name) begins_name hfronts ?_
  rintro - w ⟨⟨d, hd, hstart⟩, _⟩ c hc hopens
  obtain rfl := Option.mem_unique hc hd
  have hword := isWord_of_isNamePart (isNamePart_of_isNameStart hstart)
  exact absurd hword (by simp [hopens.not_isWord])

theorem agree_number : Agree σ.pairing same bare k number number := by
  have hfronts : ∀ w ∈ ["case", "default", ";"], ¬ ∃ c ∈ w.toList.head?, c.isDigit := by decide
  have halike (k : Nat) : Alike False k number number := (lawful_plain False).number False k
  refine agree_of_begins consumes_number.advances halike
    (before_of_local consumes_number.advances local_number) begins_number hfronts ?_
  rintro - w ⟨d, hd, hdigit⟩ c hc hopens
  obtain rfl := Option.mem_unique hc hd
  have hpart : isNamePart c := by simp [isNamePart, Char.isAlphanum, hdigit]
  exact absurd (isWord_of_isNamePart hpart) (by simp [hopens.not_isWord])

theorem lawful_seam : σ.pairing.Lawful where
  layout := Seam.linked_layout
  symbol s hs _ _ := by
    have hall : ∀ s ∈ Pairing.symbols,
        (∀ w ∈ ["case", "default", ";"], w ≠ String.ofList (s.toList.take 1)) ∧ fits s.toList ∧
        (∃ c ∈ s.toList.head?, Text.isWord c = false) ∧
        ∀ c ∈ (String.ofList (s.toList.take 1)).toList.head?, ¬ OpensLayout c := by
      decide
    obtain ⟨hfronts, hfits, hhead, hlayout⟩ := hall s hs
    exact agree_symbol_of_fits hfronts hfits hhead hlayout
  mark s hs bad _ _ _ := by
    have hall : ∀ s ∈ Pairing.marks,
        (∀ w ∈ ["case", "default", ";"], w ≠ String.ofList (s.toList.take 1)) ∧ Unclosing s ∧
        (∃ c ∈ s.toList.head?, Text.isWord c = false) ∧ ('/' ∉ s.toList →
          ∀ c ∈ (String.ofList (s.toList.take 1)).toList.head?, ¬ OpensLayout c) := by
      decide
    obtain ⟨hfronts, hclosing, hhead, hlayout⟩ := hall s hs
    exact agree_symbolNotBefore hfronts hclosing bad hhead hlayout
  word s hs _ _ := by
    have hall : ∀ s ∈ Pairing.words,
        Unclosing s ∧ IsWhole s ∧ s ∉ ["case", "default", ";"] := by
      decide
    obtain ⟨hclosing, hwhole, hfronts⟩ := hall s hs
    exact agree_keyword hclosing hwhole hfronts
  wordAndBlank s hs _ _ := by
    have hall : ∀ s ∈ ["const", "unsigned", "signed"],
        Unclosing s ∧ IsWhole s ∧ s ∉ ["case", "default", ";"] := by
      decide
    obtain ⟨hclosing, hwhole, hfronts⟩ := hall s hs
    exact agree_wordAndBlank hclosing hwhole hfronts
  blanks _ hf _ _ := agree_blanks hf
  name _ _ := agree_name_of_seam
  number _ _ := agree_number
  stringLiteral _ _ := agree_stringLiteral

end Parser

end AttrCheck
