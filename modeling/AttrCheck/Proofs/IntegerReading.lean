import AttrCheck.Proofs.IntegerSpelling
import AttrCheck.Proofs.LongestMatch

/-! Integers in expressions. A word that writes an integer is read as one literal, and a text whose
first word begins with a digit but writes none is no expression. -/

namespace AttrCheck

theorem isSpelling_single {t : Token} (h : t.Ends []) : IsSpelling Token.Ends [t] t.text := by
  have hspells : Spells Token.Ends [t] (t.text.toList ++ []) [] := .cons .nil h (.nil [])
  rw [List.append_nil] at hspells
  exact ⟨[], hspells, .nil⟩

namespace IntegerSpelling

theorem parse_text (x : IntegerSpelling) (file : String) :
    (∃ u, parse file (statementText x.text) = .ok u ∧
      u.bare = functionUnit file [.expr (.int x.value x.text .unknown) .unknown]) ∧
    ∃ u, parse file (initializerText x.text) = .ok u ∧
      u.bare = variableUnit file (.int x.value x.text .unknown) := by
  have hnumber := x.wordNumber?_text
  have htoken : IsSpelling Token.Ends [.number x.text] (Token.number x.text).text :=
    isSpelling_single ⟨⟨x.value, hnumber⟩, nofun⟩
  refine parse_spelling (.number hnumber) file ?_
  rw [Expr.tokens_number hnumber]
  exact htoken

variable (limit : DigitLimit)

/-- The word is read as one literal that holds its value and its text. In a text the literal is
built, unless it is decimal and has more digits than the host takes. -/
structure IsRead (x : IntegerSpelling) : Prop where
  /-- As an operand, whatever follows, if the word ends there. -/
  operand : ∀ inner l m, (∀ c ∈ m.head?, Text.isWord c = false) →
    Parser.primary inner ⟨l, x.text.toList ++ m⟩ =
      some (.int x.value x.text l, ⟨l.after x.text.toList, m⟩)
  value : literalValue limit x.text =
    if limit.converts x.text then .ok x.value else .error .tooManyDigits
  statement : limit.converts x.text → ∀ file, ∃ u,
    parseSource limit file (statementText x.text) = .ok u ∧
      u.bare = functionUnit file [.expr (.int x.value x.text .unknown) .unknown]
  initializer : limit.converts x.text → ∀ file, ∃ u,
    parseSource limit file (initializerText x.text) = .ok u ∧
      u.bare = variableUnit file (.int x.value x.text .unknown)
  refused : limit.converts x.text = false → ∀ file,
    parseSource limit file (statementText x.text) = .error (.unbuilt .tooManyDigits) ∧
      parseSource limit file (initializerText x.text) = .error (.unbuilt .tooManyDigits)
  converts : limit.converts x.text = false ↔
    x.radix = .decimal ∧ ∃ most ∈ limit.most, most < x.digits.length

theorem converts_eq_false_iff (x : IntegerSpelling) : limit.converts x.text = false ↔
    x.radix = .decimal ∧ ∃ most ∈ limit.most, most < x.digits.length := by
  rw [x.converts_text, Radix.counted, List.length_map]
  split_ifs with hr
  · unfold DigitLimit.admits
    cases limit.most <;> simp [hr]
  · simp [limit.admits_of_le (Nat.zero_le 640), hr]

theorem isRead (x : IntegerSpelling) : x.IsRead limit where
  operand _ _ _ hm := Parser.primary_of_number (Parser.number_append x.wordNumber?_text hm)
  value := by
    rw [x.literalValue_text, DigitLimit.settle]
    simp
  statement h file := exists_parseSource_of_converts (x.parse_text file).1 (by
    rw [literals_exprUnit]
    exact List.forall_mem_singleton.mpr h)
  initializer h file := exists_parseSource_of_converts (x.parse_text file).2 (by
    rw [literals_variableUnit]
    exact List.forall_mem_singleton.mpr h)
  refused h file := by
    have hmem : ∃ s ∈ (Expr.int x.value x.text .unknown).literals, limit.converts s = false :=
      ⟨x.text, .head _, h⟩
    refine ⟨parseSource_bare_of_not_converts (x.parse_text file).1 ?_,
      parseSource_bare_of_not_converts (x.parse_text file).2 ?_⟩
    · rwa [literals_exprUnit]
    · rwa [literals_variableUnit]
  converts := x.converts_eq_false_iff limit

theorem exists_of_number {c c' : Cursor} {n : Nat} {s : String}
    (h : Parser.number c = some ((n, s), c')) : ∃ x : IntegerSpelling, x.text = s ∧ x.value = n ∧
      c.rest = s.toList ++ c'.rest ∧ ∀ d ∈ c'.rest.head?, Text.isWord d = false := by
  obtain ⟨hn, hs, hrest⟩ := Parser.number_eq_some h
  obtain ⟨x, htext, hvalue⟩ := exists_of_wordNumber hn
  refine ⟨x, String.toList_inj.mp htext, hvalue, ?_, fun d hd => ?_⟩
  · rw [hs, hrest]
    exact List.takeWhile_append_dropWhile.symm
  · have hstop := List.head?_dropWhile_not Text.isWord c.rest
    rw [← hrest, hd] at hstop
    exact hstop

end IntegerSpelling

namespace Parser

theorem begins_expr_of_digit (n : Nat) : Begins (expr n) fun w =>
    (∃ c ∈ w.toList.head?, c.isDigit) → ∃ v, wordNumber? w.toList = some v := by
  have hnumber : Begins number fun w =>
      (∃ c ∈ w.toList.head?, c.isDigit) → ∃ v, wordNumber? w.toList = some v :=
    begins_number_word.mono fun _ h _ => h
  refine .expr hnumber (fun w hw hhead => ?_) n
  obtain ⟨c, hc, hdigit⟩ := hhead
  have hmarks : ∀ s ∈ ["\"", "true", "false", "("] ++ frontOpFronts, ∀ c ∈ s.toList.head?,
      c.isDigit = false := by
    decide
  obtain ⟨⟨d, hd, hstart⟩, _⟩ | hmem := hw
  · obtain rfl := Option.some.inj (hc.symm.trans hd)
    exact absurd hstart (Bool.eq_false_iff.mp (not_isNameStart_of_isDigit hdigit))
  · exact absurd hdigit (Bool.eq_false_iff.mp (hmarks w hmem c hc))

theorem refuses_expr_of_ne_text {c : Cursor} (hdigit : ∃ d ∈ c.rest.head?, d.isDigit)
    (hne : ∀ x : IntegerSpelling, x.text.toList ≠ frontWord c.rest) (n : Nat) :
    expr n c = none := by
  have hword : frontWord c.rest ≠ [] := by
    obtain ⟨d, hd, hdigit⟩ := hdigit
    obtain ⟨ds, hds⟩ := List.head?_eq_some_iff.mp hd
    rw [hds, frontWord,
      List.takeWhile_cons_of_pos (isWord_of_isNamePart (isNamePart_of_isDigit hdigit))]
    exact List.cons_ne_nil _ _
  cases he : expr n c with
  | none => rfl
  | some e =>
    rw [← head?_front] at hdigit
    obtain ⟨v, hv⟩ := begins_expr_of_digit n c e.1 e.2 he hdigit
    obtain ⟨x, htext, _⟩ := IntegerSpelling.exists_of_wordNumber hv
    rw [front, if_neg hword, String.toList_ofList] at htext
    exact absurd htext (hne x)

theorem refuses_expr_of_bare {cs : List Char} (hdigit : ∃ c ∈ cs.head?, c.isDigit)
    (hword : ∀ c ∈ cs, Text.isWord c) (hsuffix : ∀ c ∈ cs, isSuffixChar c = false)
    (hnone : ∀ m, bareNumber? (cs ++ m) = none) (m : List Char) (n : Nat) (l : Loc) :
    expr n ⟨l, cs ++ m⟩ = none := by
  obtain ⟨c, hc, hdigit⟩ := hdigit
  refine refuses_expr_of_ne_text ⟨c, by rw [List.head?_append, hc]; rfl, hdigit⟩ (fun x hx => ?_) n
  have hnumber := x.wordNumber?_text
  rw [hx, frontWord, List.takeWhile_append_of_pos hword] at hnumber
  obtain ⟨m', hm'⟩ := exists_bare_of_wordNumber hsuffix hnumber
  cases (hnone m').symm.trans hm'

theorem refuses_expr_of_zero {ds : List Char} (hds : ∀ d ∈ ds, d.isDigit)
    (hlarge : '8' ∈ ds ∨ '9' ∈ ds) (m : List Char) (n : Nat) (l : Loc) :
    expr n ⟨l, '0' :: ds ++ m⟩ = none := by
  have hdigit : ∀ d ∈ '0' :: ds, d.isDigit := List.forall_mem_cons.mpr ⟨rfl, hds⟩
  refine refuses_expr_of_bare ⟨'0', rfl, rfl⟩
    (fun d hd => isWord_of_isNamePart (isNamePart_of_isDigit (hdigit d hd)))
    (fun d hd => not_isSuffixChar_of_isDigit (hdigit d hd)) (fun m' => ?_) m n l
  have hhead : ∀ c ∈ (ds ++ m').head?, c ∉ baseLetters := by
    have hne : ds ≠ [] := by
      rintro rfl
      simp at hlarge
    rw [List.head?_append_of_ne_nil _ hne]
    exact fun c hc => not_mem_baseLetters (hds c (List.mem_of_mem_head? hc))
  have hall : ¬ (ds ++ m').all isOctalDigit := by
    intro hall
    have hoctal {c : Char} (hc : c ∈ ds) := List.all_eq_true.mp hall c (List.mem_append_left m' hc)
    obtain hmem | hmem := hlarge <;> exact absurd (hoctal hmem) (by decide)
  exact (bareNumber?_zero hhead).trans (if_neg hall)

theorem refuses_expr_of_word (x : IntegerSpelling) {c : Char} (hword : Text.isWord c)
    (hending : c ∉ ['u', 'U', 'l', 'L']) (hdigit : ∀ d : Digit x.radix.base, d.char ≠ c)
    (hlone : x.bare = ['0'] → c ∉ baseLetters) (m : List Char) (n : Nat) (l : Loc) :
    expr n ⟨l, x.bare ++ c :: m⟩ = none := by
  have hbare := x.bareNumber?_bare
  have hbehind (m' : List Char) : x.bare ++ c :: m' = x.bare ++ [c] ++ m' := by simp
  rw [hbehind]
  refine refuses_expr_of_bare ?head ?words ?suffixes (fun m' => ?_) m n l
  case head =>
    obtain ⟨d, hd, h⟩ := head_of_bareNumber hbare
    exact ⟨d, by rw [List.head?_append, hd]; rfl, h⟩
  case words =>
    refine List.forall_mem_append.mpr ⟨fun d hd => ?_, List.forall_mem_singleton.mpr hword⟩
    exact isWord_of_isNamePart (isNamePart_of_bareNumber hbare d hd)
  case suffixes =>
    refine List.forall_mem_append.mpr ⟨x.not_isSuffixChar_of_mem_bare, ?_⟩
    refine List.forall_mem_singleton.mpr (Bool.eq_false_iff.mpr fun h => hending ?_)
    simpa [isSuffixChar, or_assoc] using h
  have hnot : x.radix.isDigit c = false := by
    refine Bool.eq_false_iff.mpr fun h => ?_
    obtain ⟨d, hd⟩ := Digit.isDigit_iff.mp h
    exact hdigit d hd
  rw [← hbehind, IntegerSpelling.bare, List.append_assoc]
  exact Radix.bareNumber?_eq_none x.mark_mem x.admits hnot hlone m'

end Parser

/-- Integers are read by the rules that they are written by. Every number can be written in every
base, with every mark and ending; however it is written, it is read as one literal, which the host
converts to the number or, where it is decimal and too long, not at all; and what is read as a
number is so written, and a whole word. An expression that begins with a digit begins with such a
word, so that no eight or nine stands among the digits behind a zero, and no word goes on behind
digits otherwise than by an ending. -/
theorem integers_read (limit : DigitLimit) :
    (∀ (n : Nat) (r : Radix), ∀ mark ∈ r.marks, ∀ ending ∈ endings, ∃ x : IntegerSpelling,
      x.value = n ∧ x.text = mark ++ String.ofList (Nat.toDigits r.base n) ++ ending) ∧
    (∀ x : IntegerSpelling, x.IsRead limit) ∧
    (∀ c n s c', Parser.number c = some ((n, s), c') → ∃ x : IntegerSpelling, x.text = s ∧
      x.value = n ∧ c.rest = s.toList ++ c'.rest ∧ ∀ d ∈ c'.rest.head?, Text.isWord d = false) ∧
    (∀ c : Cursor, (∃ d ∈ c.rest.head?, d.isDigit) →
      (∀ x : IntegerSpelling, x.text.toList ≠ frontWord c.rest) → ∀ n, Parser.expr n c = none) ∧
    (∀ ds : List Char, (∀ d ∈ ds, d.isDigit) → '8' ∈ ds ∨ '9' ∈ ds → ∀ m n l,
      Parser.expr n ⟨l, '0' :: ds ++ m⟩ = none) ∧
    ∀ (x : IntegerSpelling) (c : Char), Text.isWord c → c ∉ ['u', 'U', 'l', 'L'] →
      (∀ d : Digit x.radix.base, d.char ≠ c) → (x.bare = ['0'] → c ∉ ['x', 'X', 'b', 'B']) →
        ∀ m n l, Parser.expr n ⟨l, x.bare ++ c :: m⟩ = none :=
  ⟨fun n _ _ hmark _ hending => IntegerSpelling.exists_of_toDigits n hmark hending,
    IntegerSpelling.isRead limit, fun _ _ _ _ h => IntegerSpelling.exists_of_number h,
    fun _ hdigit hne n => Parser.refuses_expr_of_ne_text hdigit hne n,
    fun _ hds hlarge m n l => Parser.refuses_expr_of_zero hds hlarge m n l,
    fun x _ hword hending hdigit hlone m n l =>
      Parser.refuses_expr_of_word x hword hending hdigit hlone m n l⟩

def mixedSpelling : IntegerSpelling where
  radix := .hexadecimal
  mark := "0X"
  digits := [⟨(0 : Fin 16), false⟩, ⟨(15 : Fin 16), false⟩, ⟨(11 : Fin 16), true⟩]
  ending := "uLL"
  mark_mem := by decide
  digits_ne_nil := nofun
  no_zero_in_front := nofun
  ending_mem := by decide

theorem integers_read_mixed :
    (∃ x : IntegerSpelling, x.value = 251 ∧ x.text = "0XfbuLL") ∧
    Parser.primary failure ⟨.start "a.cc", "0X0fBuLL)".toList⟩ =
      some (.int 251 "0X0fBuLL" (.start "a.cc"), ⟨⟨"a.cc", 1, 9⟩, [')']⟩) ∧
    (∃ u, parseSource .standard "a.cc" "int x = 0X0fBuLL;" = .ok u ∧
      u.bare = variableUnit "a.cc" (.int 251 "0X0fBuLL" .unknown)) ∧
    (∃ x : IntegerSpelling, x.text = "0b101l" ∧ x.value = 5) ∧
    Parser.expr 9 ⟨.start "a.cc", "12uu".toList⟩ = none ∧
    Parser.expr 9 ⟨.start "a.cc", "0129u".toList⟩ = none ∧
    Parser.expr 9 ⟨.start "a.cc", "0X0fBg".toList⟩ = none := by
  obtain ⟨hwritten, hread, hnumber, hfront, hzero, hbehind⟩ := integers_read .standard
  have htext : mixedSpelling.text = "0X0fBuLL" := by decide
  have hvalue : mixedSpelling.value = 251 := by decide
  have hmixed := hread mixedSpelling
  refine ⟨hwritten 251 .hexadecimal "0X" (by decide) "uLL" (by decide), ?_, ?_, ?_, ?_, ?_, ?_⟩
  · have hoperand := hmixed.operand failure (.start "a.cc") [')'] (by decide)
    rw [htext, hvalue] at hoperand
    exact hoperand
  · have hinitializer := hmixed.initializer (by rw [htext]; decide) "a.cc"
    rw [htext, hvalue] at hinitializer
    exact hinitializer
  · obtain ⟨x, hx, hn, _⟩ := hnumber ⟨.start "a.cc", "0b101l".toList⟩ 5 "0b101l"
      ⟨⟨"a.cc", 1, 7⟩, []⟩ (by decide)
    exact ⟨x, hx, hn⟩
  · refine hfront _ ⟨'1', by decide, by decide⟩ (fun x hx => ?_) 9
    have hnone : wordNumber? (frontWord "12uu".toList) = none := by decide
    cases hnone.symm.trans (hx ▸ x.wordNumber?_text)
  · exact hzero "129".toList (by decide) (by decide) ['u'] 9 (.start "a.cc")
  · have hdigit : ∀ (v : Fin 16) (capital : Bool), Digit.char ⟨v, capital⟩ ≠ 'g' := by decide
    exact hbehind mixedSpelling 'g' (by decide) (by decide) (fun d => hdigit d.value d.isCapital)
      (by decide) [] 9 (.start "a.cc")

def longSpelling : IntegerSpelling where
  radix := .decimal
  mark := ""
  digits := List.replicate 4301 ⟨(1 : Fin 10), false⟩
  ending := ""
  mark_mem := .head _
  digits_ne_nil _ := nofun
  no_zero_in_front := by
    rintro - _ ⟨⟩ hzero
    cases hzero
  ending_mem := nil_mem_endings

theorem not_converts_longSpelling : DigitLimit.standard.converts longSpelling.text = false := by
  have hlength : longSpelling.digits.length = 4301 := List.length_replicate
  refine (longSpelling.converts_eq_false_iff .standard).mpr ⟨rfl, 4300, rfl, ?_⟩
  rw [hlength]
  decide

/-- It is read, but not converted. -/
theorem integers_read_long :
    (∃ u, parse "a.cc" (initializerText longSpelling.text) = .ok u ∧
      u.bare = variableUnit "a.cc" (.int longSpelling.value longSpelling.text .unknown)) ∧
    parseSource .standard "a.cc" (initializerText longSpelling.text) =
      .error (.unbuilt .tooManyDigits) :=
  ⟨(longSpelling.parse_text "a.cc").2,
    ((longSpelling.isRead .standard).refused not_converts_longSpelling "a.cc").2⟩

end AttrCheck
