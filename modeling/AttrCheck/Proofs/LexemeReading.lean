import Mathlib.Data.List.Basic
import AttrCheck.Proofs.Reading

/-! Layout, words, names and literals are read off the text as they stand there. -/

namespace AttrCheck

namespace LayoutMode

def opened? : LayoutMode → Option Cursor
  | code | line => none
  | slash opened | comment opened | star opened => some opened

end LayoutMode

theorem reaches_skipLayout {base : Cursor} (cs : List Char) : ∀ {mode : LayoutMode} {loc : Loc},
    base.Reaches ⟨loc, cs⟩ → (∀ o, mode.opened? = some o → base.Reaches o) →
      base.Reaches (skipLayout mode loc cs) := by
  induction cs with
  | nil =>
    intro mode loc h ho
    cases mode with
    | code | line => exact h
    | slash o | comment o | star o => exact ho o rfl
  | cons c cs ih =>
    intro mode loc h ho
    have hn : base.Reaches ⟨loc.next c, cs⟩ := h.trans (Cursor.reaches_next loc c cs)
    cases mode with
    | code =>
      simp only [skipLayout]
      split_ifs
      · exact ih hn nofun
      · exact ih hn fun o e => Option.some.inj e ▸ h
      · exact ih hn nofun
      · exact h
    | line =>
      refine ih hn ?_
      split_ifs <;> nofun
    | slash o =>
      simp only [skipLayout]
      split_ifs
      · exact ih hn nofun
      · exact ih hn ho
      · exact ho o rfl
    | comment o =>
      refine ih hn ?_
      split_ifs <;> exact ho
    | star o =>
      refine ih hn ?_
      split_ifs
      · nofun
      · exact ho
      · exact ho

namespace Parser

variable {α : Type} {p : Parser α}

theorem advances_layout : Advances layout := by
  intro c u c' h
  obtain ⟨_, rfl⟩ := Prod.mk.inj (Option.some.inj h)
  exact reaches_skipLayout c.rest (.refl c) nofun

theorem splits_symbol (s : String) :
    Splits fun cs => (s.toList.isPrefixOf? cs).map fun rest => ((), s.toList, rest) := by
  intro cs a t rest h
  simp only [Option.map_eq_some_iff, Prod.mk.injEq] at h
  obtain ⟨_, h, _, rfl, rfl⟩ := h
  exact (List.append_eq_of_isPrefixOf?_eq_some h).symm

theorem advances_symbol (s : String) : Advances (symbol s) := advances_lexeme (splits_symbol s)

theorem consumes_symbol {s : String} (hs : s.toList ≠ []) : Consumes (symbol s) := by
  refine consumes_lexeme (splits_symbol s) fun cs a rest h => ?_
  simp only [Option.map_eq_some_iff, Prod.mk.injEq] at h
  obtain ⟨_, _, _, h, _⟩ := h
  exact hs h

theorem advances_run (f : Char → Bool) : Advances (run f) := by
  refine advances_lexeme fun cs a t rest h => ?_
  simp only [Option.some.injEq, Prod.mk.injEq] at h
  obtain ⟨_, rfl, rfl⟩ := h
  exact List.takeWhile_append_dropWhile.symm

theorem advances_notBefore (f : Char → Bool) : Advances (notBefore f) := by
  intro c u c' h
  unfold notBefore at h
  split at h
  · obtain ⟨_, rfl⟩ := Prod.mk.inj (Option.some.inj h)
    exact .refl c
  · split at h
    · exact absurd h nofun
    · obtain ⟨_, rfl⟩ := Prod.mk.inj (Option.some.inj h)
      exact .refl c

theorem advances_symbolNotBefore (s : String) (bad : List Char) :
    Advances (symbolNotBefore s bad) :=
  (advances_symbol s).bind fun _ => advances_notBefore bad.contains

theorem consumes_keyword {s : String} (hs : s.toList ≠ []) : Consumes (keyword s) :=
  (consumes_symbol hs).bind fun _ => advances_notBefore Text.isWord

theorem advances_keyword (s : String) : Advances (keyword s) :=
  (advances_symbol s).bind fun _ => advances_notBefore Text.isWord

theorem advances_run₁ (f : Char → Bool) : Advances (run₁ f) := by
  refine (advances_run f).bind fun cs => ?_
  split
  · exact advances_failure
  · exact advances_pure cs

theorem splitName_eq_some {cs t rest : List Char} {a : String}
    (h : splitName cs = some (a, t, rest)) :
    t ≠ [] ∧ t = cs.takeWhile isNamePart ∧ rest = cs.dropWhile isNamePart := by
  cases cs with
  | nil => exact absurd h nofun
  | cons c cs =>
    simp only [splitName] at h
    split_ifs at h with hc
    simp only [Option.some.injEq, Prod.mk.injEq] at h
    obtain ⟨_, rfl, rfl⟩ := h
    have hp : isNamePart c = true := by
      simp only [isNameStart, Bool.and_eq_true, Bool.or_eq_true] at hc
      obtain ⟨ha | hu, _⟩ := hc
      · simp [isNamePart, Char.isAlphanum, ha]
      · simp [isNamePart, hu]
    exact ⟨by simp [hp], rfl, rfl⟩

theorem consumes_name : Consumes name := by
  refine consumes_lexeme (fun cs a t rest h => ?_) fun cs a rest h => (splitName_eq_some h).1 rfl
  obtain ⟨_, rfl, rfl⟩ := splitName_eq_some h
  exact List.takeWhile_append_dropWhile.symm

theorem advances_number : Advances number := by
  refine advances_lexeme fun cs a t rest h => ?_
  simp only [splitNumber, Option.map_eq_some_iff, Prod.mk.injEq] at h
  obtain ⟨_, _, _, rfl, rfl⟩ := h
  exact List.takeWhile_append_dropWhile.symm

theorem splitStringBody_eq_some {cs body rest : List Char}
    (h : splitStringBody cs = some (body, rest)) : cs = body ++ '"' :: rest := by
  fun_induction splitStringBody cs generalizing body rest with
  | case1 => exact absurd h nofun
  | case2 cs =>
    obtain ⟨rfl, rfl⟩ := Prod.mk.inj (Option.some.inj h)
    rfl
  | case3 => exact absurd h nofun
  | case4 c cs _ ih | case6 c cs _ _ _ ih =>
    simp only [Option.map_eq_some_iff, Prod.mk.injEq] at h
    obtain ⟨⟨b, r⟩, hb, rfl, rfl⟩ := h
    rw [ih hb]
    rfl
  | case5 => exact absurd h nofun

theorem splitStringBody_append {cs body rest : List Char}
    (h : splitStringBody cs = some (body, rest)) (m : List Char) :
    splitStringBody (cs ++ m) = some (body, rest ++ m) := by
  fun_induction splitStringBody cs generalizing body rest with
  | case1 | case3 | case5 => cases h
  | case2 cs =>
    obtain ⟨rfl, rfl⟩ := Prod.mk.inj (Option.some.inj h)
    rfl
  | case4 c cs hc ih =>
    simp only [Option.map_eq_some_iff, Prod.mk.injEq] at h
    obtain ⟨⟨b, r⟩, hb, rfl, rfl⟩ := h
    simp [splitStringBody, hc, ih hb]
  | case6 c cs hquote _ hc ih =>
    simp only [Option.map_eq_some_iff, Prod.mk.injEq] at h
    obtain ⟨⟨b, r⟩, hb, rfl, rfl⟩ := h
    have hback : c ≠ '\\' := by
      rintro rfl
      exact hc rfl
    rw [List.cons_append, splitStringBody.eq_4 _ _ hquote fun _ _ h => absurd h hback, if_neg hc,
      ih hb]
    rfl

theorem stringLiteral_quote (loc : Loc) (cs : List Char) : stringLiteral ⟨loc, '"' :: cs⟩ =
    (splitStringBody cs).bind fun x =>
      some (String.ofList x.1, ⟨loc.after ('"' :: x.1 ++ ['"']), x.2⟩) := by
  simp only [stringLiteral, lexeme, splitString]
  cases splitStringBody cs <;> rfl

theorem stringLiteral_eq_none {loc : Loc} {c : Char} {cs : List Char} (hc : c ≠ '"') :
    stringLiteral ⟨loc, c :: cs⟩ = none := by
  simp [stringLiteral, lexeme, splitString, hc]

theorem advances_stringLiteral : Advances stringLiteral := by
  refine advances_lexeme fun cs a t rest h => ?_
  unfold splitString at h
  split at h
  · simp only [Option.map_eq_some_iff, Prod.mk.injEq] at h
    obtain ⟨⟨body, r⟩, hb, _, rfl, rfl⟩ := h
    simp [splitStringBody_eq_some hb]
  · exact absurd h nofun

theorem advances_theWord (s : String) : Advances (theWord s) :=
  (advances_keyword s).bind fun _ => advances_pure s

theorem advances_oneWordOf (words : List String) : Advances (oneWordOf words) := by
  refine .firstOf fun p hp => ?_
  obtain ⟨s, _, rfl⟩ := List.mem_map.mp hp
  exact advances_theWord s

theorem advances_wordAndBlank (s : String) : Advances (wordAndBlank s) :=
  (advances_symbol s).bind fun _ => (advances_run₁ _).bind fun _ => advances_pure _

theorem advances_declarator : Advances declarator := by
  have hmark : ∀ s : String, Advances (symbol s *> pure s) := fun s =>
    (advances_symbol s).seqRight (advances_pure s)
  exact (advances_run _).bind fun _ =>
    ((hmark "*").first (hmark "&").last).bind fun _ => advances_pure _

theorem advances_typeName (n : Nat) : Advances (typeName n) := by
  have hsign : Advances (firstOf [wordAndBlank "unsigned", wordAndBlank "signed"]) :=
    (advances_wordAndBlank _).first (advances_wordAndBlank _).last
  have hbase : Advances (oneWordOf baseTypes) := advances_oneWordOf baseTypes
  have hsigned := hsign.bind fun sign => hbase.bind fun base => advances_pure (sign ++ base)
  exact (advances_wordAndBlank "const").maybe.bind fun _ =>
    (hsigned.first hbase.last).bind fun _ =>
      (advances_declarator.many n).bind fun _ => advances_pure _

namespace Advances

theorem spaced (hp : Advances p) : Advances (Parser.spaced p) := advances_layout.bind fun _ => hp

theorem parens (hp : Advances p) : Advances (Parser.parens p) :=
  (advances_symbol _).bind fun _ => hp.spaced.bind fun _ =>
    (advances_symbol _).spaced.bind fun _ => advances_pure _

theorem commaList (hp : Advances p) (n : Nat) : Advances (Parser.commaList p n) :=
  hp.bind fun _ => Advances.bind (.many ((advances_symbol _).spaced.seqRight hp.spaced) n) fun _ =>
    advances_pure _

end Advances

theorem Consumes.spaced (hp : Consumes p) : Consumes (Parser.spaced p) :=
  advances_layout.bind_consumes fun _ => hp

end Parser

end AttrCheck
