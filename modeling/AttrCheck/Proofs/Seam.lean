import AttrCheck.Proofs.Allowance
import AttrCheck.Proofs.Locality

/-! A text and the same text with a semicolon put in where a label follows behind layout. The text
in front ends with a closing bracket, as specifiers do. Lexemes end with the bracket or before, or
begin behind it; only strings, comments and preprocessor lines run on over the seam, and these take
the semicolon in. -/

namespace AttrCheck

structure Seam where
  loc : Loc
  rest : List Char
  labelled : front (skipLayout .code loc rest).rest ∈ ["case", "default"]

namespace Seam

variable (σ : Seam)

def label : Cursor := skipLayout .code σ.loc σ.rest

def semicolon : Cursor := ⟨σ.loc, ';' :: σ.rest⟩

inductive InStep : Cursor → Cursor → Prop where
  | before {loc : Loc} {z : List Char} (hz : Closed z) (hl : loc.after z = σ.loc) :
      InStep ⟨loc, z ++ σ.rest⟩ ⟨loc, z ++ ';' :: σ.rest⟩
  | at : InStep ⟨σ.loc, σ.rest⟩ σ.semicolon

/-- Behind the seam the readings are apart: one has gone over layout to the label, or both have
gone over the seam. -/
inductive Apart : Cursor → Cursor → Prop where
  | ahead {c : Cursor} (hc : σ.loc < c.loc) (h : skipLayout .code c.loc c.rest = σ.label) :
      Apart c σ.semicolon
  | behind {c d : Cursor} (hc : σ.loc < c.loc) (hr : c.rest = d.rest)
      (hlen : c.rest.length ≤ σ.rest.length) : Apart c d

def pairing : Pairing where
  inStep := σ.InStep
  apart := σ.Apart
  settled c d := d = σ.semicolon → c.rest = σ.label.rest
  loc_eq h := by cases h <;> rfl

variable {σ}

theorem skipLayout_labelled {cs : List Char} (h : front cs ∈ ["case", "default"]) (loc : Loc) :
    skipLayout .code loc cs = ⟨loc, cs⟩ := by
  have hhead := head?_front cs
  have hletter : ∀ w ∈ ["case", "default"],
      w.toList.head? = some 'c' ∨ w.toList.head? = some 'd' := by
    decide
  obtain h | h := hletter _ h
  all_goals
    rw [hhead] at h
    obtain ⟨cs, rfl⟩ := List.head?_eq_some_iff.mp h
    exact skipLayout_stop (by decide) loc cs

theorem labelled_label : front σ.label.rest ∈ ["case", "default"] := σ.labelled

theorem skipLayout_label : skipLayout .code σ.label.loc σ.label.rest = σ.label :=
  skipLayout_labelled σ.labelled σ.label.loc

theorem front_of_ahead {loc : Loc} {cs : List Char} (h : skipLayout .code loc cs = σ.label) :
    (front cs ∈ ["case", "default"] ∧ cs = σ.label.rest) ∨
      ∃ c, OpensLayout c ∧ cs.head? = some c ∧
        front cs = String.ofList [c] := by
  have hlabel := σ.labelled_label
  cases cs with
  | nil =>
    rw [← h] at hlabel
    exact absurd hlabel (by simp [skipLayout, front, frontWord])
  | cons c cs =>
    by_cases hc : OpensLayout c
    · exact .inr ⟨c, hc, rfl, front_cons hc.not_isWord⟩
    · rw [← h, skipLayout_stop hc] at hlabel ⊢
      exact .inl ⟨hlabel, rfl⟩

theorem front_of_rest : (front σ.rest ∈ ["case", "default"] ∧ σ.rest = σ.label.rest) ∨
    ∃ c, OpensLayout c ∧ σ.rest.head? = some c ∧ front σ.rest = String.ofList [c] :=
  front_of_ahead rfl

theorem rest_head : σ.rest.head? ≠ some ']' := by
  intro hhead
  obtain ⟨hfront, _⟩ | ⟨c, hc, hcs, _⟩ := front_of_rest
  · have hall : ∀ w ∈ ["case", "default"], w.toList.head? ≠ some ']' := by decide
    exact hall _ hfront ((head?_front σ.rest).trans hhead)
  · obtain rfl := Option.some.inj (hcs.symm.trans hhead)
    exact absurd hc (by decide)

theorem rest_ne_nil : σ.rest ≠ [] := by
  intro hnil
  obtain ⟨hfront, _⟩ | ⟨c, _, hcs, _⟩ := front_of_rest
  · rw [hnil] at hfront
    exact absurd hfront (by decide)
  · rw [hnil] at hcs
    cases hcs

theorem loc_le_label : σ.loc ≤ σ.label.loc :=
  (Parser.advances_layout ⟨σ.loc, σ.rest⟩ () σ.label rfl).loc_le

theorem inStep_behind {loc : Loc} {t z : List Char} (hz : Closed (t ++ z))
    (hl : loc.after (t ++ z) = σ.loc) :
    σ.InStep ⟨loc.after t, z ++ σ.rest⟩ ⟨loc.after t, z ++ ';' :: σ.rest⟩ := by
  rw [Loc.after_append] at hl
  by_cases hnil : z = []
  · subst hnil
    rw [show loc.after t = σ.loc from hl]
    exact .at
  · exact .before (hz.of_append hnil) hl

theorem linked_semicolon {same : Prop} {c : Cursor} (h : σ.pairing.Linked same c σ.semicolon) :
    skipLayout .code c.loc c.rest = σ.label ∧
      (same ∧ c = ⟨σ.loc, σ.rest⟩ ∨ σ.loc < c.loc) := by
  generalize hd : σ.semicolon = d at h
  have hlen : d.rest.length = σ.rest.length + 1 := hd ▸ rfl
  obtain ⟨hs, hin⟩ | hapart := h
  · cases hin with
    | before hz _ =>
      have hpos := List.length_pos_iff.mpr hz.ne_nil
      simp only [List.length_append, List.length_cons] at hlen
      omega
    | «at» => exact ⟨rfl, .inl ⟨hs, rfl⟩⟩
  · cases hapart with
    | ahead hc h => exact ⟨h, .inr hc⟩
    | behind _ hr hle =>
      rw [hr] at hle
      omega

end Seam

namespace Parser

variable {α : Type} {p : Parser α} {σ : Seam} {same bare : Prop} {k : Nat}

theorem behind_of_alike (ha : Advances p) (hp : ∀ k, Alike False k p p) {c d : Cursor}
    (hc : σ.loc < c.loc) (hr : c.rest = d.rest) (hlen : c.rest.length ≤ σ.rest.length) :
    Option.Rel (σ.pairing.Joint same c.rest) (p c) (p d) := by
  have hrel := hp (c.rest.length + 1) c d (.inr ⟨id, hr⟩) nofun (Nat.lt_succ_self _)
  cases hpc : p c with
  | none =>
    rw [hpc] at hrel
    cases hpd : p d with
    | none => exact .none
    | some y =>
      rw [hpd] at hrel
      cases hrel
  | some x =>
    rw [hpc] at hrel
    cases hpd : p d with
    | none =>
      rw [hpd] at hrel
      cases hrel
    | some y =>
      rw [hpd] at hrel
      obtain ⟨hj, hle⟩ := Option.rel_some_some.mp hrel
      have hrest := hj.elim (fun h => h.1.elim) fun h => h.2
      have hloc := hc.trans_le (ha c x.1 x.2 hpc).loc_le
      exact .some ⟨.inr (.behind hloc hrest (Nat.le_trans hle hlen)), hle⟩

theorem agree_of_begins {K : String → Prop} (ha : Advances p) (hp : ∀ k, Alike False k p p)
    (hbefore : same → ∀ loc z, Closed z → loc.after z = σ.loc → Option.Rel
      (σ.pairing.Joint same (z ++ σ.rest)) (p ⟨loc, z ++ σ.rest⟩) (p ⟨loc, z ++ ';' :: σ.rest⟩))
    (hb : Begins p K) (hword : ∀ w ∈ ["case", "default", ";"], ¬ K w)
    (hhead : ¬ bare → ∀ w, K w → ∀ c ∈ w.toList.head?, ¬ OpensLayout c) :
    Agree σ.pairing same bare k p p := by
  have hnone {c : Cursor} (hc : ¬ K (front c.rest)) : p c = none := by
    cases h : p c with
    | none => rfl
    | some x => exact absurd (hb c x.1 x.2 h) hc
  have hsemicolon : p σ.semicolon = none := by
    refine hnone ?_
    rw [Seam.semicolon, front_cons (by decide)]
    exact hword _ (by decide)
  have hlabel {w : String} (hw : w ∈ ["case", "default"]) : ¬ K w :=
    hword w (List.mem_append_left [";"] hw)
  have hahead {c : Cursor} (h : skipLayout .code c.loc c.rest = σ.label)
      (hbare : bare → c.rest = σ.label.rest) : p c = none := by
    refine hnone ?_
    by_cases hb : bare
    · rw [hbare hb]
      exact hlabel σ.labelled_label
    · obtain ⟨hfront, _⟩ | ⟨d, hd, _, hfront⟩ := Seam.front_of_ahead h
      · exact hlabel hfront
      · rw [hfront]
        exact fun hK => hhead hb _ hK d (by rw [String.toList_ofList]; rfl) hd
  intro c d hl hbare _
  obtain ⟨hs, hin⟩ | hapart := hl
  · cases hin with
    | before hz hl => exact hbefore hs _ _ hz hl
    | «at» =>
      rw [hahead (c := ⟨σ.loc, σ.rest⟩) rfl fun hb => hbare hb rfl, hsemicolon]
      exact .none
  · cases hapart with
    | ahead hc h =>
      rw [hahead h fun hb => hbare hb rfl, hsemicolon]
      exact .none
    | behind hc hr hlen => exact behind_of_alike ha hp hc hr hlen

theorem before_of_local (ha : Advances p) (hlocal : Local p) (hs : same) (loc : Loc)
    (z : List Char) (hz : Closed z) (hl : loc.after z = σ.loc) :
    Option.Rel (σ.pairing.Joint same (z ++ σ.rest)) (p ⟨loc, z ++ σ.rest⟩)
      (p ⟨loc, z ++ ';' :: σ.rest⟩) := by
  rw [hlocal loc z σ.rest hz σ.rest_head, hlocal loc z (';' :: σ.rest) hz (by simp)]
  cases hpz : p ⟨loc, z⟩ with
  | none => exact .none
  | some x =>
    obtain ⟨t, hz', hloc⟩ := ha ⟨loc, z⟩ x.1 x.2 hpz
    change z = t ++ x.2.rest at hz'
    have hin : σ.InStep ⟨x.2.loc, x.2.rest ++ σ.rest⟩ ⟨x.2.loc, x.2.rest ++ ';' :: σ.rest⟩ := by
      rw [hloc]
      exact Seam.inStep_behind (hz' ▸ hz) (hz' ▸ hl)
    refine .some ⟨.inl ⟨hs, hin, rfl⟩, ?_⟩
    rw [hz']
    simp

end Parser

namespace Seam

variable {σ : Seam}

inductive Ends (σ : Seam) : Cursor → Cursor → Prop where
  | before {loc : Loc} {z : List Char} (hz : Closed z) (hl : loc.after z = σ.loc) :
      Ends σ ⟨loc, z ++ σ.rest⟩ ⟨loc, z ++ ';' :: σ.rest⟩
  | behind {c d : Cursor} (hc : σ.loc < c.loc) (hr : c.rest = d.rest)
      (hlen : c.rest.length ≤ σ.rest.length) : Ends σ c d

theorem Ends.ne_semicolon {c d : Cursor} (h : σ.Ends c d) : d ≠ σ.semicolon := by
  intro hd
  have hlen := congrArg (fun c => c.rest.length) hd
  cases h with
  | before hz _ =>
    have hpos := List.length_pos_iff.mpr hz.ne_nil
    simp only [semicolon, List.length_append, List.length_cons] at hlen
    omega
  | behind _ hr hle =>
    simp only [semicolon, ← hr, List.length_cons] at hlen
    omega

inductive ModesMeet (σ : Seam) : LayoutMode → LayoutMode → Prop where
  | code : ModesMeet σ .code .code
  | line : ModesMeet σ .line .line
  | slash {o o' : Cursor} (h : σ.Ends o o') : ModesMeet σ (.slash o) (.slash o')
  | comment {o o' : Cursor} (h : σ.Ends o o') : ModesMeet σ (.comment o) (.comment o')
  | star {o o' : Cursor} (h : σ.Ends o o') : ModesMeet σ (.star o) (.star o')

theorem ends_behind {mode mode' : LayoutMode} (h : σ.ModesMeet mode mode') {loc loc' : Loc}
    {cs : List Char} (hloc : σ.loc < loc) (hlen : cs.length ≤ σ.rest.length) :
    σ.Ends (skipLayout mode loc cs) (skipLayout mode' loc' cs) := by
  induction cs generalizing mode mode' loc loc' with
  | nil =>
    cases h with
    | code | line => exact .behind hloc rfl hlen
    | slash h | comment h | star h => exact h
  | cons c cs ih =>
    have hnext {mode mode' : LayoutMode} (h : σ.ModesMeet mode mode') :
        σ.Ends (skipLayout mode (loc.next c) cs) (skipLayout mode' (loc'.next c) cs) :=
      ih h (hloc.trans (Loc.lt_next loc c)) (Nat.le_of_succ_le hlen)
    have hhere : σ.Ends ⟨loc, c :: cs⟩ ⟨loc', c :: cs⟩ := .behind hloc rfl hlen
    cases h with
    | code =>
      simp only [skipLayout, Parser.atLoopDirective_eq loc loc']
      split_ifs
      · exact hnext .code
      · exact hnext (.slash hhere)
      · exact hnext .line
      · exact hhere
    | line =>
      refine hnext ?_
      split_ifs
      · exact .code
      · exact .line
    | slash h =>
      simp only [skipLayout]
      split_ifs
      · exact hnext .line
      · exact hnext (.comment h)
      · exact h
    | comment h =>
      refine hnext ?_
      split_ifs
      · exact .star h
      · exact .comment h
    | star h =>
      refine hnext ?_
      split_ifs
      · exact .code
      · exact .star h
      · exact .comment h

theorem ends_at {mode mode' : LayoutMode} (h : σ.ModesMeet mode mode')
    (hmode : (∃ o, mode = .comment o) ∨ mode = .line) :
    σ.Ends (skipLayout mode σ.loc σ.rest) (skipLayout mode' σ.loc (';' :: σ.rest)) := by
  have hover : skipLayout mode' σ.loc (';' :: σ.rest) =
      skipLayout mode' (σ.loc.next ';') σ.rest := by
    cases h with
    | line | comment h => rfl
    | code | slash h | star h => simp at hmode
  rw [hover]
  cases hrest : σ.rest with
  | nil => exact absurd hrest σ.rest_ne_nil
  | cons c cs =>
    have hlen : cs.length ≤ σ.rest.length := by
      rw [hrest]
      exact Nat.le_succ _
    have hnext {mode mode' : LayoutMode} (h : σ.ModesMeet mode mode') :
        σ.Ends (skipLayout mode (σ.loc.next c) cs)
          (skipLayout mode' ((σ.loc.next ';').next c) cs) :=
      ends_behind h (Loc.lt_next σ.loc c) hlen
    cases h with
    | line =>
      refine hnext ?_
      split_ifs
      · exact .code
      · exact .line
    | comment h =>
      refine hnext ?_
      split_ifs
      · exact .star h
      · exact .comment h
    | code | slash h | star h => simp at hmode

theorem atLoopDirective_closed {z w : List Char} (hz : Closed z) (hw : w.head? ≠ some ']')
    (loc : Loc) : Parser.atLoopDirective ⟨loc, z ++ w⟩ = Parser.atLoopDirective ⟨loc, z⟩ := by
  rw [Parser.atLoopDirective, Parser.local_loopDirective loc z w hz hw, Option.isSome_map]
  rfl

theorem ends_before {mode mode' : LayoutMode} (h : σ.ModesMeet mode mode') {loc : Loc}
    {z : List Char} (hz : Closed z) (hl : loc.after z = σ.loc) :
    σ.Ends (skipLayout mode loc (z ++ σ.rest)) (skipLayout mode' loc (z ++ ';' :: σ.rest)) := by
  induction hz generalizing mode mode' loc with
  | @last e he =>
    have hhere : σ.Ends ⟨loc, [e] ++ σ.rest⟩ ⟨loc, [e] ++ ';' :: σ.rest⟩ :=
      .before (.last he) hl
    have hseam {mode mode' : LayoutMode} (h : σ.ModesMeet mode mode')
        (hmode : (∃ o, mode = .comment o) ∨ mode = .line) :
        σ.Ends (skipLayout mode (loc.next e) σ.rest)
          (skipLayout mode' (loc.next e) (';' :: σ.rest)) := by
      rw [show loc.next e = σ.loc from hl]
      exact ends_at h hmode
    have hplain : ¬ OpensLayout e ∧ e ≠ '/' ∧ e ≠ '*' ∧ e ≠ '\n' := by
      obtain rfl | rfl := he <;> decide
    obtain ⟨hstop, hslash, hstar, hline⟩ := hplain
    cases h with
    | code =>
      rw [List.singleton_append, List.singleton_append, skipLayout_stop hstop,
        skipLayout_stop hstop]
      exact hhere
    | line =>
      simp only [List.singleton_append, skipLayout, if_neg hline]
      exact hseam .line (.inr rfl)
    | slash h =>
      simp only [List.singleton_append, skipLayout, if_neg hslash, if_neg hstar]
      exact h
    | comment h =>
      simp only [List.singleton_append, skipLayout, if_neg hstar]
      exact hseam (.comment h) (.inl ⟨_, rfl⟩)
    | star h =>
      simp only [List.singleton_append, skipLayout, if_neg hslash, if_neg hstar]
      exact hseam (.comment h) (.inl ⟨_, rfl⟩)
  | @cons c z hz ih =>
    have hhere : σ.Ends ⟨loc, c :: (z ++ σ.rest)⟩ ⟨loc, c :: (z ++ ';' :: σ.rest)⟩ :=
      .before hz.cons hl
    have hnext {mode mode' : LayoutMode} (h : σ.ModesMeet mode mode') := ih h hl
    have hdirective : Parser.atLoopDirective ⟨loc, c :: (z ++ σ.rest)⟩ =
        Parser.atLoopDirective ⟨loc, c :: (z ++ ';' :: σ.rest)⟩ :=
      (atLoopDirective_closed hz.cons σ.rest_head loc).trans
        (atLoopDirective_closed hz.cons (by simp) loc).symm
    cases h with
    | code =>
      simp only [List.cons_append, skipLayout, hdirective]
      split_ifs
      · exact hnext .code
      · exact hnext (.slash hhere)
      · exact hnext .line
      · exact hhere
    | line =>
      refine hnext ?_
      split_ifs
      · exact .code
      · exact .line
    | slash h =>
      simp only [List.cons_append, skipLayout]
      split_ifs
      · exact hnext .line
      · exact hnext (.comment h)
      · exact h
    | comment h =>
      refine hnext ?_
      split_ifs
      · exact .star h
      · exact .comment h
    | star h =>
      refine hnext ?_
      split_ifs
      · exact .code
      · exact .star h
      · exact .comment h

theorem skipLayout_semicolon : skipLayout .code σ.semicolon.loc σ.semicolon.rest = σ.semicolon :=
  skipLayout_stop (by decide) σ.loc σ.rest

theorem spaced_semicolon {α : Type} (p : Parser α) : Parser.spaced p σ.semicolon = p σ.semicolon :=
  congrArg p skipLayout_semicolon

theorem linked_label (hs : Prop) {c : Cursor} (hloc : σ.loc < c.loc ∨ c = ⟨σ.loc, σ.rest⟩ ∧ hs)
    (h : skipLayout .code c.loc c.rest = σ.label) : σ.pairing.Linked hs σ.label σ.semicolon := by
  obtain ⟨t, hrest, hlabel⟩ :=
    Parser.advances_layout c () σ.label (congrArg (fun d => some ((), d)) h)
  obtain hloc | ⟨rfl, hs⟩ := hloc
  · refine .inr (.ahead ?_ skipLayout_label)
    rw [hlabel]
    exact hloc.trans_le (Loc.le_after c.loc t)
  · by_cases ht : t = []
    · subst ht
      have hsame : σ.label = ⟨σ.loc, σ.rest⟩ := congrArg₂ Cursor.mk hlabel hrest.symm
      rw [hsame]
      exact .inl ⟨hs, .at⟩
    · refine .inr (.ahead ?_ skipLayout_label)
      rw [hlabel]
      exact Loc.lt_after σ.loc ht

theorem linked_layout {same : Prop} {c d : Cursor} (hl : σ.pairing.Linked same c d) :
    σ.pairing.Linked same (skipLayout .code c.loc c.rest) (skipLayout .code d.loc d.rest) ∧
      σ.pairing.settled (skipLayout .code c.loc c.rest) (skipLayout .code d.loc d.rest) := by
  obtain ⟨hs, hin⟩ | hapart := hl
  · cases hin with
    | before hz hl =>
      have hends := ends_before (.code : σ.ModesMeet .code .code) hz hl
      refine ⟨?_, fun hd => absurd hd hends.ne_semicolon⟩
      generalize skipLayout .code _ (_ ++ σ.rest) = c at hends ⊢
      generalize skipLayout .code _ _ = d at hends ⊢
      cases hends with
      | before hz hl => exact .inl ⟨hs, .before hz hl⟩
      | behind hc hr hlen => exact .inr (.behind hc hr hlen)
    | «at» =>
      rw [skipLayout_semicolon]
      exact ⟨linked_label same (c := ⟨σ.loc, σ.rest⟩) (.inr ⟨rfl, hs⟩) rfl, fun _ => rfl⟩
  · cases hapart with
    | ahead hc h =>
      rw [skipLayout_semicolon, h]
      exact ⟨linked_label same (.inl hc) h, fun _ => rfl⟩
    | behind hc hr hlen =>
      have hrest := rest_skipLayout_eq .code c.loc d.loc c.rest
      have hadvance := Parser.advances_layout c () _ rfl
      have hle := Nat.le_trans (Parser.length_le_of_reaches hadvance) hlen
      have hends : σ.Ends (skipLayout .code c.loc c.rest) (skipLayout .code d.loc d.rest) :=
        .behind (hc.trans_le hadvance.loc_le) (hr ▸ hrest) hle
      exact ⟨.inr (.behind (hc.trans_le hadvance.loc_le) (hr ▸ hrest) hle),
        fun hd => absurd hd hends.ne_semicolon⟩

theorem skipLayout_dropWhile {f : Char → Bool} (hf : ∀ c, f c → Text.isBlank c) (loc : Loc)
    (cs : List Char) : skipLayout .code (loc.after (cs.takeWhile f)) (cs.dropWhile f) =
      skipLayout .code loc cs := by
  induction cs generalizing loc with
  | nil => rfl
  | cons c cs ih =>
    by_cases hc : f c
    · rw [List.takeWhile_cons_of_pos hc, List.dropWhile_cons_of_pos hc, Loc.after_cons, ih]
      simp [skipLayout, hf c hc]
    · rw [List.takeWhile_cons_of_neg hc, List.dropWhile_cons_of_neg hc]
      rfl

end Seam

end AttrCheck
