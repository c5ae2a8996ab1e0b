import AttrCheck.Grammar.Lexeme

/-! Words that are numbers: what tells the value, and one of the endings behind it. -/

namespace AttrCheck

def baseLetters : List Char := ['x', 'X', 'b', 'B']

theorem not_mem_baseLetters {c : Char} (h : c.isDigit) : c ∉ baseLetters := by
  have hall : baseLetters.all (!·.isDigit) := by decide
  intro hc
  simpa [h] using List.all_eq_true.mp hall c hc

theorem bareNumber?_zero {ds : List Char} (h : ∀ c ∈ ds.head?, c ∉ baseLetters) :
    bareNumber? ('0' :: ds) = if ds.all isOctalDigit then some (ofDigits 8 ds) else none := by
  simp only [bareNumber?]
  split
  case h_5 => rfl
  all_goals exact absurd (by decide) (h _ rfl)

theorem bareNumber?_nonzero {ds : List Char} (h : ∀ c ∈ ds.head?, c ≠ '0') :
    bareNumber? ds =
      if !ds.isEmpty && ds.all Char.isDigit then some (ofDigits 10 ds) else none := by
  unfold bareNumber?
  split
  · exact absurd rfl (h '0' rfl)
  · rfl

theorem isSuffixChar_of_mem {ending : String} (h : ending ∈ numberSuffixes) :
    ∀ c ∈ ending.toList, isSuffixChar c := by
  have hall : numberSuffixes.all (·.toList.all isSuffixChar) := by decide
  exact List.all_eq_true.mp (List.all_eq_true.mp hall ending h)

theorem exists_ending_of_wordNumber {word : List Char} {n : Nat} (h : wordNumber? word = some n) :
    ∃ bare, ∃ ending ∈ numberSuffixes, word = bare ++ ending.toList ∧ bareNumber? bare = some n := by
  unfold wordNumber? at h
  extract_lets ending bare at h
  split at h
  next hending =>
    refine ⟨bare, String.ofList ending, List.contains_iff_mem.mp hending, ?_, h⟩
    rw [String.toList_ofList, ← List.reverse_append, List.takeWhile_append_dropWhile,
      List.reverse_reverse]
  next => cases h

theorem spans_ending {bare : List Char} (hbare : ∀ c ∈ bare, isSuffixChar c = false)
    {ending : String} (hending : ending ∈ numberSuffixes) :
    (bare ++ ending.toList).reverse.takeWhile isSuffixChar = ending.toList.reverse ∧
      (bare ++ ending.toList).reverse.dropWhile isSuffixChar = bare.reverse := by
  have hsuffix : ∀ c ∈ ending.toList.reverse, isSuffixChar c := fun c hc =>
    isSuffixChar_of_mem hending c (List.mem_reverse.mp hc)
  have htake : bare.reverse.takeWhile isSuffixChar = [] := by
    cases hr : bare.reverse with
    | nil => rfl
    | cons c cs =>
      have hc := hbare c (List.mem_reverse.mp (hr ▸ .head _))
      exact List.takeWhile_cons_of_neg (Bool.eq_false_iff.mp hc)
  have hdrop : bare.reverse.dropWhile isSuffixChar = bare.reverse := by
    have hsplit := List.takeWhile_append_dropWhile (p := isSuffixChar) (l := bare.reverse)
    rwa [htake, List.nil_append] at hsplit
  rw [List.reverse_append, List.takeWhile_append_of_pos hsuffix,
    List.dropWhile_append_of_pos hsuffix, htake, hdrop, List.append_nil]
  exact ⟨rfl, rfl⟩

theorem wordNumber?_append {bare : List Char} (hbare : ∀ c ∈ bare, isSuffixChar c = false)
    {ending : String} (hending : ending ∈ numberSuffixes) :
    wordNumber? (bare ++ ending.toList) = bareNumber? bare := by
  obtain ⟨htake, hdrop⟩ := spans_ending hbare hending
  rw [wordNumber?, htake, hdrop, List.reverse_reverse, String.ofList_toList, List.reverse_reverse]
  exact if_pos (List.contains_iff_mem.mpr hending)

theorem exists_bare_of_wordNumber {cs m : List Char} (hcs : ∀ c ∈ cs, isSuffixChar c = false)
    {n : Nat} (h : wordNumber? (cs ++ m) = some n) : ∃ m', bareNumber? (cs ++ m') = some n := by
  obtain ⟨bare, ending, hending, heq, hbare⟩ := exists_ending_of_wordNumber h
  obtain ⟨as, rfl, _⟩ | ⟨bs, rfl, hbs⟩ := List.append_eq_append_iff.mp heq
  · exact ⟨as, hbare⟩
  · have hnil : bs = [] := by
      refine List.eq_nil_iff_forall_not_mem.mpr fun c hc => ?_
      have hsuffix := isSuffixChar_of_mem hending c (hbs ▸ List.mem_append_left _ hc)
      exact absurd hsuffix (Bool.eq_false_iff.mp (hcs c (List.mem_append_right _ hc)))
    exact ⟨[], by rwa [hnil, List.append_nil, List.append_nil]⟩

inductive IsLiteral : Int → String → Prop where
  | number {n : Nat} {s : String} (h : wordNumber? s.toList = some n) : IsLiteral n s
  | yes : IsLiteral 1 "true"
  | no : IsLiteral 0 "false"

end AttrCheck
