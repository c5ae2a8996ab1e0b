import Mathlib.Data.List.TakeWhile
import AttrCheck.Proofs.Spelling

/-! Layout in pieces. What is skipped in front of a text is one blank, comment or directive after the
other, and as many of them as there are. -/

namespace AttrCheck

/-- A piece of layout and the text behind it. A comment that ends with its line and a directive go on
to the end of the line, a comment in stars to the first end of a comment. Loop directives are none. -/
inductive LayoutPiece : List Char → List Char → Prop where
  | blank {c : Char} {rest : List Char} (h : Text.isBlank c) : LayoutPiece [c] rest
  | line {t rest : List Char} (h : '\n' ∉ t) (hr : ∀ c ∈ rest.head?, c = '\n') :
    LayoutPiece ('/' :: '/' :: t) rest
  | block {t rest : List Char} (h : ¬ ['*', '/'] <:+: t ++ ['*']) :
    LayoutPiece ('/' :: '*' :: (t ++ ['*', '/'])) rest
  | directive {t rest : List Char} (h : '\n' ∉ t) (hr : ∀ c ∈ rest.head?, c = '\n')
    (hl : ∀ l, Parser.atLoopDirective ⟨l, '#' :: (t ++ rest)⟩ = false) :
    LayoutPiece ('#' :: t) rest

theorem LayoutPiece.ne_nil {t rest : List Char} (h : LayoutPiece t rest) : t ≠ [] := by
  cases h <;> exact List.cons_ne_nil _ _

theorem skipLayout_append {t cs : List Char} {l : Loc}
    (h : ∃ l', skipLayout .code l (t ++ cs) = skipLayout .code l' cs) :
    skipLayout .code l (t ++ cs) = skipLayout .code (l.after t) cs := by
  obtain ⟨l', hskip⟩ := h
  have hrest : (skipLayout .code l (t ++ cs)).rest = (skipLayout .code (l.after t) cs).rest := by
    rw [hskip]
    exact rest_skipLayout_eq .code l' (l.after t) cs
  obtain ⟨t₁, ht₁, hloc₁⟩ := Parser.advances_layout ⟨l, t ++ cs⟩ () _ rfl
  obtain ⟨t₂, ht₂, hloc₂⟩ := Parser.advances_layout ⟨l.after t, cs⟩ () _ rfl
  change t ++ cs = t₁ ++ (skipLayout .code l (t ++ cs)).rest at ht₁
  change cs = t₂ ++ (skipLayout .code (l.after t) cs).rest at ht₂
  have htext : t₁ = t ++ t₂ := by
    have hboth : t₁ ++ (skipLayout .code l (t ++ cs)).rest =
        (t ++ t₂) ++ (skipLayout .code l (t ++ cs)).rest := by
      rw [← ht₁, List.append_assoc, hrest, ← ht₂]
    exact List.append_cancel_right hboth
  have hloc : (skipLayout .code l (t ++ cs)).loc = (skipLayout .code (l.after t) cs).loc := by
    change _ = l.after t₁ at hloc₁
    change _ = (l.after t).after t₂ at hloc₂
    rw [hloc₁, hloc₂, htext, Loc.after_append]
  exact Cursor.mk.injEq .. ▸ ⟨hloc, hrest⟩

theorem skipLayout_toLineEnd {t rest : List Char} (h : '\n' ∉ t)
    (hr : ∀ c ∈ rest.head?, c = '\n') (l : Loc) :
    skipLayout .line l (t ++ rest) = skipLayout .code (l.after t) rest := by
  induction t generalizing l with
  | nil =>
    cases rest with
    | nil => rfl
    | cons c rest =>
      obtain rfl := hr c rfl
      simp [skipLayout, (by decide : Text.isBlank '\n' = true)]
  | cons c t ih =>
    have hc : c ≠ '\n' := fun hc => h (hc ▸ .head _)
    rw [List.cons_append, skipLayout, if_neg hc, ih fun ht => h (.tail _ ht)]
    rfl

theorem skipLayout_piece {t rest : List Char} (h : LayoutPiece t rest) (l : Loc) :
    skipLayout .code l (t ++ rest) = skipLayout .code (l.after t) rest := by
  cases h with
  | blank h => exact skipLayout_append (skipLayout_gap (.blank h .nil) rest l)
  | @block t _ h =>
    exact skipLayout_append (by simpa using skipLayout_gap (.block h .nil) rest l)
  | line h hr =>
    have hline := skipLayout_toLineEnd h hr ((l.next '/').next '/')
    simpa [skipLayout, (by decide : Text.isBlank '/' = false)] using hline
  | directive h hr hl =>
    have hline := skipLayout_toLineEnd h hr (l.next '#')
    simpa [skipLayout, (by decide : Text.isBlank '#' = false), hl] using hline

theorem skipLayout_unclosed (o : Cursor) (cs : List Char) (l : Loc) :
    (¬ ['*', '/'] <:+: cs → skipLayout (.comment o) l cs = o) ∧
      (¬ ['*', '/'] <:+: '*' :: cs → skipLayout (.star o) l cs = o) := by
  induction cs generalizing l with
  | nil => exact ⟨fun _ => rfl, fun _ => rfl⟩
  | cons c cs ih =>
    have htail (h : ¬ ['*', '/'] <:+: c :: cs) : ¬ ['*', '/'] <:+: cs :=
      fun hin => h (hin.trans (List.suffix_cons c cs).isInfix)
    have hcomment (h : ¬ ['*', '/'] <:+: c :: cs) : skipLayout
        (if c = '*' then .star o else .comment o) (l.next c) cs = o := by
      split_ifs with hstar
      · exact (ih (l.next c)).2 (hstar ▸ h)
      · exact (ih (l.next c)).1 (htail h)
    refine ⟨hcomment, fun h => ?_⟩
    have hslash : c ≠ '/' := by
      rintro rfl
      exact h ⟨[], cs, rfl⟩
    rw [skipLayout, if_neg hslash]
    exact hcomment fun hin => h (hin.trans (List.suffix_cons '*' _).isInfix)

theorem exists_commentEnd {cs : List Char} (h : ['*', '/'] <:+: cs) :
    ∃ t rest, cs = t ++ '*' :: '/' :: rest ∧ ¬ ['*', '/'] <:+: t ++ ['*'] := by
  induction cs with
  | nil => exact absurd (List.eq_nil_of_infix_nil h) nofun
  | cons c cs ih =>
    by_cases hfront : ['*', '/'] <+: c :: cs
    · obtain ⟨rest, hrest⟩ := hfront
      exact ⟨[], rest, hrest.symm, fun hin => absurd hin.length_le (by decide)⟩
    · obtain ⟨t, rest, rfl, ht⟩ := ih ((List.infix_cons_iff.mp h).resolve_left hfront)
      refine ⟨c :: t, rest, rfl, fun hin => ?_⟩
      obtain hfirst | hin := List.infix_cons_iff.mp hin
      · exact hfront (hfirst.trans ⟨'/' :: rest, by simp⟩)
      · exact ht hin

theorem exists_lineEnd (cs : List Char) :
    ∃ t rest, cs = t ++ rest ∧ '\n' ∉ t ∧ ∀ c ∈ rest.head?, c = '\n' := by
  refine ⟨cs.takeWhile (· ≠ '\n'), cs.dropWhile (· ≠ '\n'), List.takeWhile_append_dropWhile.symm,
    fun h => by simpa using List.mem_takeWhile_imp h, fun c hc => ?_⟩
  have hhead := List.head?_dropWhile_not (· ≠ '\n') cs
  rw [Option.mem_def.mp hc] at hhead
  simpa using hhead

theorem exists_piece (l : Loc) (cs : List Char) : skipLayout .code l cs = ⟨l, cs⟩ ∨
    ∃ t rest, cs = t ++ rest ∧ LayoutPiece t rest := by
  cases cs with
  | nil => exact .inl rfl
  | cons c cs =>
    simp only [skipLayout]
    split_ifs with hblank hslash hhash
    · exact .inr ⟨[c], cs, rfl, .blank hblank⟩
    · subst hslash
      cases cs with
      | nil => exact .inl rfl
      | cons d cs =>
        simp only [skipLayout]
        split_ifs with hline hstar
        · subst hline
          obtain ⟨t, rest, rfl, ht, hr⟩ := exists_lineEnd cs
          exact .inr ⟨_, rest, rfl, .line ht hr⟩
        · subst hstar
          by_cases hend : ['*', '/'] <:+: cs
          · obtain ⟨t, rest, rfl, ht⟩ := exists_commentEnd hend
            exact .inr ⟨'/' :: '*' :: (t ++ ['*', '/']), rest, by simp, .block ht⟩
          · exact .inl ((skipLayout_unclosed _ cs _).1 hend)
        · exact .inl rfl
    · obtain ⟨rfl, hl⟩ : c = '#' ∧ Parser.atLoopDirective ⟨l, c :: cs⟩ = false := by
        simpa using hhash
      obtain ⟨t, rest, rfl, ht, hr⟩ := exists_lineEnd cs
      exact .inr ⟨'#' :: t, rest, rfl,
        .directive ht hr fun l' => (Parser.atLoopDirective_eq l' l _).trans hl⟩
    · exact .inl rfl

theorem skipLayout_skipLayout (l : Loc) (cs : List Char) :
    skipLayout .code (skipLayout .code l cs).loc (skipLayout .code l cs).rest =
      skipLayout .code l cs := by
  induction hn : cs.length using Nat.strongRecOn generalizing l cs with
  | ind n ih =>
    obtain hstay | ⟨t, rest, rfl, ht⟩ := exists_piece l cs
    · rw [hstay, hstay]
    · have hpos := List.length_pos_of_ne_nil ht.ne_nil
      rw [skipLayout_piece ht]
      exact ih rest.length (by rw [← hn, List.length_append]; omega) _ _ rfl

theorem not_isBlank_of_skipLayout {l : Loc} {c : Char} {cs : List Char}
    (h : skipLayout .code l (c :: cs) = ⟨l, c :: cs⟩) : Text.isBlank c = false := by
  by_contra hblank
  have hreach := Parser.length_le_of_reaches (Parser.advances_layout ⟨l.next c, cs⟩ () _ rfl)
  rw [skipLayout, if_pos (by simpa using hblank)] at h
  change (skipLayout .code (l.next c) cs).rest.length ≤ cs.length at hreach
  rw [h, List.length_cons] at hreach
  omega

end AttrCheck
