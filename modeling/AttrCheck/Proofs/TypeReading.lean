import AttrCheck.Proofs.HintRoundTrip
import AttrCheck.Proofs.TokenSequence

/-! Types are read back from their words and marks. What may be the sign of a type may be a type
alone: it is the one or the other by what follows behind white space. -/

namespace AttrCheck

namespace Parser

variable {m : List Char} {v : String} {n : Nat}

structure EndsBase (m : List Char) : Prop where
  word : ∀ c ∈ m.head?, Text.isWord c = false
  base : front (m.dropWhile Text.isBlank) ∉ baseTypes

structure EndsType (m : List Char) : Prop extends EndsBase m where
  mark : ∀ c ∈ (m.dropWhile Text.isBlank).head?, c ∉ ['*', '&']

theorem dropWhile_isBlank_gap {g cs : List Char} (hg : Gap g)
    (hcs : ∀ c ∈ cs.head?, Text.isBlank c = false) : (g ++ cs).dropWhile Text.isBlank = cs ∨
      (g ++ cs).dropWhile Text.isBlank ∈ {u | u.head? = some '/'} := by
  have hslash : ¬ Text.isBlank '/' = true := by decide
  induction hg with
  | nil =>
    left
    cases cs with
    | nil => rfl
    | cons c cs => exact List.dropWhile_cons_of_neg (by simp [hcs c rfl])
  | blank hc _ ih =>
    rw [List.cons_append, List.dropWhile_cons_of_pos hc]
    exact ih
  | line | block =>
    right
    rw [List.cons_append, List.dropWhile_cons_of_neg hslash]
    rfl

theorem endsType_of_next {s : String} (hend : (Token.type s).Ends m) (hnext : Next (.word v) m)
    (hv : IsName v) : EndsType m := by
  obtain ⟨r, h⟩ := hnext
  cases h with
  | @cons _ _ g m' _ hg hword _ =>
    obtain ⟨⟨c, hc, hstart⟩, hpart, hfree⟩ := hv
    obtain ⟨cs, hcs⟩ := List.head?_eq_some_iff.mp hc
    have hname : Text.isWord c := isWord_of_isNamePart (isNamePart_of_isNameStart hstart)
    have hblank : ∀ d ∈ (v.toList ++ m').head?, Text.isBlank d = false := by
      rw [hcs]
      rintro d ⟨⟩
      by_contra hb
      rw [Text.not_isWord_of_isBlank (by simpa using hb)] at hname
      cases hname
    have hbases : ∀ s ∈ baseTypes, reservedWords.contains s = true := by decide
    have hstops : ∀ d ∈ (g ++ (v.toList ++ m')).head?, Text.isWord d = false :=
      fun d hd => Bool.eq_false_iff.mpr (hend.stop d hd)
    obtain hrest | hrest := dropWhile_isBlank_gap hg hblank
    · have hfront : front (v.toList ++ m') = v := by
        rw [front_append hword.valid.1 hword.valid.2 (not_isWord_of_ends hword),
          String.ofList_toList]
      refine ⟨⟨hstops, fun hbase => ?_⟩, fun d hd hmark => ?_⟩
      · rw [Token.text, hrest, hfront] at hbase
        rw [hbases v hbase] at hfree
        cases hfree
      · rw [Token.text, hrest, hcs] at hd
        obtain rfl := Option.some.inj hd
        have hall : ∀ d ∈ ['*', '&'], Text.isWord d = false := by decide
        rw [hall _ hmark] at hname
        cases hname
    · obtain ⟨u, hu⟩ := List.head?_eq_some_iff.mp hrest
      refine ⟨⟨hstops, ?_⟩, ?_⟩
      · rw [Token.text, hu, front_cons (by decide)]
        decide
      · rw [Token.text, hu]
        rintro d ⟨⟩
        decide

theorem declarator_append {s : String} (hs : s ∈ ["*", "&", " *", " &"]) (l : Loc) :
    declarator ⟨l, s.toList ++ m⟩ = some (s, ⟨l.after s.toList, m⟩) := by
  simp only [List.mem_cons, List.not_mem_nil, or_false] at hs
  obtain rfl | rfl | rfl | rfl := hs <;> rfl

theorem EndsType.refuses_declarator (h : EndsType m) : Refuses declarator m := by
  intro l
  have hsymbol : ∀ t ∈ ["*", "&"], ∀ l, symbol t ⟨l, m.dropWhile Text.isBlank⟩ = none := by
    have hmarks : ∀ t ∈ ["*", "&"], ∃ d ∈ t.toList.head?, d ∈ ['*', '&'] := by decide
    intro t ht l
    obtain ⟨d, hd, hmem⟩ := hmarks t ht
    have hmark := h.mark
    cases hrest : m.dropWhile Text.isBlank with
    | nil =>
      obtain ⟨ds, hds⟩ := List.head?_eq_some_iff.mp hd
      simp [symbol, lexeme, hds, List.isPrefixOf?]
    | cons c cs =>
      refine symbol_eq_none ⟨d, hd, ?_⟩
      rintro rfl
      exact hmark d (by rw [hrest]; rfl) hmem
  have hrun : run Text.isBlank ⟨l, m⟩ = some (m.takeWhile Text.isBlank,
    ⟨l.after (m.takeWhile Text.isBlank), m.dropWhile Text.isBlank⟩) := rfl
  rw [declarator, bind_of_eq_some hrun]
  have hstar := hsymbol "*" (.head _) (l.after (m.takeWhile Text.isBlank))
  have hamp := hsymbol "&" (.tail _ (.head _)) (l.after (m.takeWhile Text.isBlank))
  exact bind_of_eq_none ((firstOf_of_none (bind_of_eq_none hstar _) _).trans
    (firstOf_of_none (bind_of_eq_none hamp _) _)) _

theorem EndsType.takes_marks (h : EndsType m) {marks : List String}
    (hmarks : ∀ s ∈ marks, s ∈ ["*", "&", " *", " &"])
    (hn : ((String.join marks).toList ++ m).length < n) :
    Takes (many declarator n) ((String.join marks).toList ++ m) m (· = marks) := by
  induction marks with
  | nil => exact h.refuses_declarator.many n
  | cons s marks ih =>
    have htext : (String.join (s :: marks)).toList ++ m =
        s.toList ++ ((String.join marks).toList ++ m) := by
      simp [String.toList_join]
    rw [htext] at hn ⊢
    have hfirst : Takes declarator (s.toList ++ ((String.join marks).toList ++ m))
        ((String.join marks).toList ++ m) (· = s) := fun l =>
      ⟨s, _, declarator_append (hmarks s (.head _)) l, rfl⟩
    have hmore := ih (fun t ht => hmarks t (.tail _ ht)) (by
      rw [List.length_append] at hn
      omega)
    refine (Takes.many consumes_declarator hfirst hmore hn).mono ?_
    rintro _ ⟨_, _, rfl, rfl, rfl⟩
    rfl

theorem EndsType.endsBase (h : EndsType m) {marks : List String}
    (hmarks : ∀ s ∈ marks, s ∈ ["*", "&", " *", " &"]) :
    EndsBase ((String.join marks).toList ++ m) := by
  cases marks with
  | nil => exact h.toEndsBase
  | cons s marks =>
    have htext : (String.join (s :: marks)).toList ++ m =
        s.toList ++ ((String.join marks).toList ++ m) := by
      simp [String.toList_join]
    have hs := hmarks s (.head _)
    simp only [List.mem_cons, List.not_mem_nil, or_false] at hs
    have hstar : ∀ cs, front ('*' :: cs) ∉ baseTypes := fun cs => by
      rw [front_cons (by decide)]
      decide
    have hamp : ∀ cs, front ('&' :: cs) ∉ baseTypes := fun cs => by
      rw [front_cons (by decide)]
      decide
    rw [htext]
    obtain rfl | rfl | rfl | rfl := hs
    · exact ⟨by rintro c ⟨⟩; decide, hstar _⟩
    · exact ⟨by rintro c ⟨⟩; decide, hamp _⟩
    · exact ⟨by rintro c ⟨⟩; decide, hstar _⟩
    · exact ⟨by rintro c ⟨⟩; decide, hamp _⟩

theorem takes_wordAndBlank (s : String) (hm : ∀ c ∈ m.head?, Text.isBlank c = false) :
    Takes (wordAndBlank s) ((s ++ " ").toList ++ m) m (· = s ++ " ") := by
  intro l
  have htext : (s ++ " ").toList ++ m = s.toList ++ ([' '] ++ m) := by simp
  have hrun : run₁ Text.isBlank ⟨l.after s.toList, [' '] ++ m⟩ =
      some ([' '], ⟨(l.after s.toList).after [' '], m⟩) := by
    rw [run₁, bind_of_eq_some (run_append (by decide) hm _)]
    rfl
  refine ⟨s ++ " ", (l.after s.toList).after [' '], ?_, rfl⟩
  rw [htext, wordAndBlank, bind_of_eq_some (symbol_append s l _), bind_of_eq_some hrun]
  rfl

theorem refuses_wordAndBlank {s w : String} (hs : IsWhole s) (hw : IsWhole w) (hne : s ≠ w)
    (hm : ∀ c ∈ m.head?, Text.isWord c = false) : Refuses (wordAndBlank s) (w.toList ++ m) := by
  intro l
  cases hread : wordAndBlank s ⟨l, w.toList ++ m⟩ with
  | none => rfl
  | some x =>
    have hfront := begins_wordAndBlank hs _ x.1 x.2 hread
    rw [front_append hw.1 hw.2 hm, String.ofList_toList] at hfront
    exact absurd hfront.symm hne

theorem rest_of_wordAndBlank {s t : String} {c c' : Cursor}
    (h : wordAndBlank s c = some (t, c')) :
    ∃ u, c.rest = s.toList ++ u ∧ c'.rest = u.dropWhile Text.isBlank := by
  obtain ⟨_, c₁, hsymbol, h⟩ := bind_eq_some_iff.mp h
  obtain ⟨_, c₂, hblanks, h⟩ := bind_eq_some_iff.mp h
  obtain ⟨_, rfl⟩ := pure_eq_some_iff.mp h
  obtain ⟨blanks, c₃, hrun, h⟩ := bind_eq_some_iff.mp hblanks
  split at h
  · cases h
  · obtain ⟨_, rfl⟩ := pure_eq_some_iff.mp h
    obtain ⟨_, _, hsplit, rfl⟩ := lexeme_eq_some hrun
    simp only [Option.some.injEq, Prod.mk.injEq] at hsplit
    exact ⟨c₁.rest, eq_append_of_symbol hsymbol, hsplit.2.2.symm⟩

def signedBase : Parser String :=
  firstOf
    [do return (← firstOf [wordAndBlank "unsigned", wordAndBlank "signed"]) ++
          (← oneWordOf baseTypes),
      oneWordOf baseTypes]

theorem whole_of_mem_baseTypes : ∀ s ∈ baseTypes, IsWhole s := by decide

theorem EndsBase.takes_base (h : EndsBase m) {base : String} (hbase : base ∈ baseTypes) :
    Takes signedBase (base.toList ++ m) m (· = base) := by
  have hwhole := whole_of_mem_baseTypes base hbase
  have hfront : front (base.toList ++ m) = base := by
    rw [front_append hwhole.1 hwhole.2 h.word, String.ofList_toList]
  intro l
  have hsigned : (do return (← firstOf [wordAndBlank "unsigned", wordAndBlank "signed"]) ++
      (← oneWordOf baseTypes) : Parser String) ⟨l, base.toList ++ m⟩ = none := by
    cases hread : (do return (← firstOf [wordAndBlank "unsigned", wordAndBlank "signed"]) ++
      (← oneWordOf baseTypes) : Parser String) ⟨l, base.toList ++ m⟩ with
    | none => rfl
    | some x =>
      obtain ⟨_, c₁, hsign, hrest⟩ := bind_eq_some_iff.mp hread
      obtain ⟨b, c₂, hbase', _⟩ := bind_eq_some_iff.mp hrest
      obtain ⟨s, hs, hsign⟩ : ∃ s, IsWhole s ∧
          wordAndBlank s ⟨l, base.toList ++ m⟩ = some (_, c₁) := by
        obtain ⟨p, hp, hsign⟩ := firstOf_eq_some hsign
        simp only [List.mem_cons, List.not_mem_nil, or_false] at hp
        obtain rfl | rfl := hp
        · exact ⟨"unsigned", by decide, hsign⟩
        · exact ⟨"signed", by decide, hsign⟩
      obtain rfl : base = s := hfront.symm.trans (begins_wordAndBlank hs _ _ _ hsign)
      obtain ⟨u, hu, hc₁⟩ := rest_of_wordAndBlank hsign
      have hmem := begins_oneWordOf whole_of_mem_baseTypes c₁ b c₂ hbase'
      rw [hc₁, ← List.append_cancel_left hu] at hmem
      exact absurd hmem h.base
  exact ⟨base, _, (firstOf_of_none hsigned _).trans (firstOf_of_some
    (oneWordOf_append whole_of_mem_baseTypes (by decide) hbase l h.word) _), rfl⟩

theorem takes_signed {sign base : String} (hm : ∀ c ∈ m.head?, Text.isWord c = false)
    (hsign : sign ∈ ["unsigned", "signed"]) (hbase : base ∈ baseTypes) :
    Takes signedBase ((sign ++ " ").toList ++ (base.toList ++ m)) m (· = sign ++ " " ++ base) := by
  have hwhole := whole_of_mem_baseTypes base hbase
  have hblank : ∀ c ∈ (base.toList ++ m).head?, Text.isBlank c = false := by
    obtain ⟨c, cs, hcs⟩ := List.exists_cons_of_ne_nil hwhole.1
    rw [hcs]
    rintro d ⟨⟩
    by_contra hb
    have hword := hwhole.2 c (hcs ▸ .head _)
    rw [Text.not_isWord_of_isBlank (by simpa using hb)] at hword
    cases hword
  have hread : Takes (firstOf [wordAndBlank "unsigned", wordAndBlank "signed"])
      ((sign ++ " ").toList ++ (base.toList ++ m)) (base.toList ++ m) (· = sign ++ " ") := by
    intro l
    obtain ⟨_, l', hread, rfl⟩ := takes_wordAndBlank sign hblank l
    refine ⟨_, l', ?_, rfl⟩
    simp only [List.mem_cons, List.not_mem_nil, or_false] at hsign
    obtain rfl | rfl := hsign
    · exact firstOf_of_some hread _
    · have hother : wordAndBlank "unsigned" ⟨l, ("signed" ++ " ").toList ++ (base.toList ++ m)⟩ =
          none := by
        have hrefuses := refuses_wordAndBlank (s := "unsigned") (w := "signed")
          (m := [' '] ++ (base.toList ++ m)) (by decide) (by decide) (by decide)
          (by rintro c ⟨⟩; decide) l
        simpa using hrefuses
      exact (firstOf_of_none hother _).trans (firstOf_of_some hread _)
  have hboth : Takes (do return (← firstOf [wordAndBlank "unsigned", wordAndBlank "signed"]) ++
      (← oneWordOf baseTypes) : Parser String) ((sign ++ " ").toList ++ (base.toList ++ m)) m
      (· = sign ++ " " ++ base) := by
    refine hread.bind fun _ hx => ?_
    subst hx
    exact Takes.bind (P := (· = base)) (fun l => ⟨base, _, oneWordOf_append whole_of_mem_baseTypes
      (by decide) hbase l hm, rfl⟩) fun _ hb => .pure (by rw [hb])
  intro l
  obtain ⟨x, l', hx, hvalue⟩ := hboth l
  exact ⟨x, l', firstOf_of_some hx _, hvalue⟩

theorem EndsType.takes_typeName (h : EndsType m) {w : TypeWords} (hw : w.Valid)
    (hn : (w.text.toList ++ m).length < n) :
    Takes (typeName n) (w.text.toList ++ m) m (· = ⟨w.isConst, w.text⟩) := by
  obtain ⟨isConst, sign, base, marks⟩ := w
  have hbase : base ∈ baseTypes := hw.base
  let signed : String := (sign.map (· ++ " ")).getD "" ++ base
  let rest : List Char := (String.join marks).toList ++ m
  have hends : EndsBase rest := h.endsBase hw.marks
  have htext : (TypeWords.mk isConst sign base marks).text.toList ++ m =
      (if isConst then "const " else "").toList ++ (signed.toList ++ rest) := by
    simp [TypeWords.text, signed, rest]
  have hread : Takes signedBase (signed.toList ++ rest) rest (· = signed) := by
    cases sign with
    | none => simpa [signed] using hends.takes_base hbase
    | some s => simpa [signed] using takes_signed hends.word (hw.sign s rfl) hbase
  have hwords : ∀ s ∈ ["unsigned", "signed"] ++ baseTypes, IsWhole s ∧ "const" ≠ s := by decide
  -- The first word is the sign or the base.
  obtain ⟨first, hfirst, u, hu, hword⟩ : ∃ first, (IsWhole first ∧ "const" ≠ first) ∧
      ∃ u, signed.toList ++ rest = first.toList ++ u ∧ ∀ c ∈ u.head?, Text.isWord c = false := by
    cases sign with
    | none =>
      exact ⟨base, hwords base (List.mem_append_right _ hbase), rest, by simp [signed], hends.word⟩
    | some s =>
      refine ⟨s, hwords s (List.mem_append_left _ (hw.sign s rfl)), ' ' :: (base.toList ++ rest),
        by simp [signed], ?_⟩
      rintro c ⟨⟩
      decide
  have hconst : Takes (maybe (wordAndBlank "const"))
      ((if isConst then "const " else "").toList ++ (signed.toList ++ rest)) (signed.toList ++ rest)
      (· = if isConst then some "const " else none) := by
    cases isConst with
    | true =>
      have hblank : ∀ c ∈ (signed.toList ++ rest).head?, Text.isBlank c = false := by
        obtain ⟨c, cs, hcs⟩ := List.exists_cons_of_ne_nil hfirst.1.1
        rw [hu, hcs]
        rintro d ⟨⟩
        by_contra hb
        have hc := hfirst.1.2 c (hcs ▸ .head _)
        rw [Text.not_isWord_of_isBlank (by simpa using hb)] at hc
        cases hc
      refine (takes_wordAndBlank "const" hblank).maybe.mono ?_
      rintro _ ⟨_, rfl, rfl⟩
      rfl
    | false =>
      rw [hu]
      exact (refuses_wordAndBlank (by decide) hfirst.1 hfirst.2 hword).maybe
  have hmarks : Takes (many declarator n) rest m (· = marks) := by
    refine h.takes_marks hw.marks ?_
    rw [htext] at hn
    simp only [List.length_append] at hn ⊢
    simp only [rest, List.length_append] at hn
    omega
  rw [htext]
  refine hconst.bind fun _ hc => hread.bind fun _ hb => hmarks.bind fun _ hm => .pure ?_
  subst hc hb hm
  cases isConst <;> simp [TypeWords.text, signed, String.append_assoc]

end Parser

end AttrCheck
