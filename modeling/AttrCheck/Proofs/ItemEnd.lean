import AttrCheck.Proofs.Allowance

/-! Where the item at the front of a text ends, told without reading it: a scan keeps count of the
braces that are open in code and leaves out comments, preprocessor lines and strings. All that is
read in front of the end leaves the scan as it was, and does not depend on what is behind. -/

namespace AttrCheck

inductive ScanMode where
  | code
  /-- In a comment or a preprocessor line, which a line feed ends. -/
  | line
  /-- In front of the star that opens a comment. -/
  | opening
  | comment
  /-- Behind a star in a comment. -/
  | star
  | string
  /-- Behind a backslash in a string. -/
  | escape

def ScanMode.behind (c : Char) (cs : List Char) : ScanMode :=
  if c = '"' then .string
  else if c = '/' then
    if cs.head? = some '/' then .line else if cs.head? = some '*' then .opening else .code
  else if c = '#' && !Parser.atLoopDirective ⟨.start "", c :: cs⟩ then .line
  else .code

/-- The text behind the brace that closes all that are open, of which there are `k` to begin with,
or behind a semicolon where none is open. -/
def itemEnd : ScanMode → Nat → List Char → Option (List Char)
  | _, _, [] => none
  | .code, k, c :: cs =>
    if c = '\x7b' then itemEnd .code (k + 1) cs
    else if c = '\x7d' then if k ≤ 1 then some cs else itemEnd .code (k - 1) cs
    else if c = ';' ∧ k = 0 then some cs
    else itemEnd (.behind c cs) k cs
  | .line, k, c :: cs => itemEnd (if c = '\n' then .code else .line) k cs
  | .opening, k, _ :: cs => itemEnd .comment k cs
  | .comment, k, c :: cs => itemEnd (if c = '*' then .star else .comment) k cs
  | .star, k, c :: cs =>
    itemEnd (if c = '/' then .code else if c = '*' then .star else .comment) k cs
  | .string, k, c :: cs =>
    if c = '\n' then none
    else itemEnd (if c = '"' then .code else if c = '\\' then .escape else .string) k cs
  | .escape, k, c :: cs => if c = '\n' then none else itemEnd .string k cs

def scanMarks : List Char := ['\x7b', '\x7d', ';', '"', '/', '#']

def stmtEnds : List Char := [';', '\x7d']

theorem not_mem_scanMarks_of_isBlank {c : Char} (h : Text.isBlank c) : c ∉ scanMarks := by
  have hall : ∀ e ∈ scanMarks, Text.isBlank e = false := by decide
  intro hmem
  rw [hall c hmem] at h
  cases h

theorem not_mem_scanMarks_of_isWord {c : Char} (h : Text.isWord c) : c ∉ scanMarks := by
  have hall : ∀ e ∈ scanMarks, Text.isWord e = false := by decide
  intro hmem
  rw [hall c hmem] at h
  cases h

theorem not_mem_stmtEnds {c : Char} (h : c ∉ scanMarks) : c ∉ stmtEnds := by
  have hsub : stmtEnds ⊆ scanMarks := by decide
  exact fun hc => h (hsub hc)

variable {k : Nat} {mode : ScanMode} {c : Char} {cs : List Char}

theorem itemEnd_code (hc : c ∉ ['\x7b', '\x7d', ';']) :
    itemEnd .code k (c :: cs) = itemEnd (.behind c cs) k cs := by
  simp only [List.mem_cons, List.not_mem_nil, or_false, not_or] at hc
  rw [itemEnd, if_neg hc.1, if_neg hc.2.1, if_neg fun h => hc.2.2 h.1]

theorem itemEnd_plain (hc : c ∉ scanMarks) : itemEnd .code k (c :: cs) = itemEnd .code k cs := by
  have hnot : ∀ e ∈ scanMarks, c ≠ e := fun e he h => hc (h ▸ he)
  have hends : ['\x7b', '\x7d', ';'] ⊆ scanMarks := by decide
  rw [itemEnd_code fun h => hc (hends h), ScanMode.behind, if_neg (hnot '"' (by decide)),
    if_neg (hnot '/' (by decide))]
  simp [hnot '#' (by decide)]

theorem itemEnd_semicolon : itemEnd .code (k + 1) (';' :: cs) = itemEnd .code (k + 1) cs := rfl

theorem itemEnd_opening : itemEnd .code k ('\x7b' :: cs) = itemEnd .code (k + 1) cs := rfl

theorem itemEnd_closing : itemEnd .code (k + 2) ('\x7d' :: cs) = itemEnd .code (k + 1) cs := rfl

theorem itemEnd_slash (h : ∀ d ∈ cs.head?, d ≠ '/' ∧ d ≠ '*') :
    itemEnd .code k ('/' :: cs) = itemEnd .code k cs := by
  have hnot : cs.head? ≠ some '/' ∧ cs.head? ≠ some '*' :=
    ⟨fun hs => (h _ hs).1 rfl, fun hs => (h _ hs).2 rfl⟩
  rw [itemEnd_code (by decide), ScanMode.behind, if_neg (by decide), if_pos rfl,
    if_neg hnot.1, if_neg hnot.2]

theorem itemEnd_lineComment : itemEnd .code k ('/' :: '/' :: cs) = itemEnd .line k cs := by
  rw [itemEnd_code (by decide)]
  rfl

theorem itemEnd_comment : itemEnd .code k ('/' :: '*' :: cs) = itemEnd .comment k cs := by
  rw [itemEnd_code (by decide)]
  rfl

theorem itemEnd_string : itemEnd .code k ('"' :: cs) = itemEnd .string k cs := by
  rw [itemEnd_code (by decide)]
  rfl

theorem itemEnd_hash (loc : Loc) : itemEnd .code k ('#' :: cs) =
    itemEnd (if Parser.atLoopDirective ⟨loc, '#' :: cs⟩ then .code else .line) k cs := by
  rw [itemEnd_code (by decide), ScanMode.behind, if_neg (by decide), if_neg (by decide),
    Parser.atLoopDirective_eq _ loc]
  cases Parser.atLoopDirective ⟨loc, '#' :: cs⟩ <;> rfl

theorem itemEnd_plain_append {t : List Char} (ht : ∀ c ∈ t, c ∉ scanMarks) :
    itemEnd .code k (t ++ cs) = itemEnd .code k cs := by
  induction t with
  | nil => rfl
  | cons c t ih =>
    rw [List.cons_append, itemEnd_plain (ht c (.head _)), ih fun d hd => ht d (.tail _ hd)]

def Stopped (cs : List Char) : Prop := ∃ c ∈ cs, c ∈ stmtEnds

theorem Stopped.cons (h : Stopped cs) : Stopped (c :: cs) := by
  obtain ⟨d, hd, h⟩ := h
  exact ⟨d, .tail _ hd, h⟩

theorem Stopped.ne_nil (h : Stopped cs) : cs ≠ [] := List.ne_nil_of_mem h.choose_spec.1

theorem takeWhile_dropWhile_append {f : Char → Bool} (h : cs.dropWhile f ≠ []) (w : List Char) :
    (cs ++ w).takeWhile f = cs.takeWhile f ∧ (cs ++ w).dropWhile f = cs.dropWhile f ++ w := by
  induction cs with
  | nil => exact absurd rfl h
  | cons c cs ih =>
    by_cases hc : f c
    · rw [List.dropWhile_cons_of_pos hc] at h
      simpa [hc] using ih h
    · simp [hc]

theorem Stopped.dropWhile {f : Char → Bool} (hf : ∀ e ∈ stmtEnds, f e = false)
    (h : Stopped cs) : Stopped (cs.dropWhile f) := by
  obtain ⟨e, hmem, he⟩ := h
  rw [← List.takeWhile_append_dropWhile (p := f) (l := cs)] at hmem
  refine ⟨e, (List.mem_append.mp hmem).resolve_left fun htake => ?_, he⟩
  have hrun := List.all_eq_true.mp List.all_takeWhile e htake
  rw [hf e he] at hrun
  cases hrun

theorem stopped_of_itemEnd (h : itemEnd mode k cs ≠ none) : Stopped cs := by
  induction cs generalizing mode k with
  | nil => exact absurd rfl h
  | cons c cs ih =>
    cases mode with
    | code =>
      rw [itemEnd] at h
      split_ifs at h with hopen hclose hk hsemicolon
      · exact (ih h).cons
      · exact ⟨c, .head _, hclose ▸ .tail _ (.head _)⟩
      · exact (ih h).cons
      · exact ⟨c, .head _, hsemicolon.1 ▸ .head _⟩
      · exact (ih h).cons
    | line | opening | comment | star => exact (ih h).cons
    | string | escape =>
      rw [itemEnd] at h
      split at h
      · exact absurd rfl h
      · exact (ih h).cons

def Cursor.followedBy (c : Cursor) (w : List Char) : Cursor := ⟨c.loc, c.rest ++ w⟩

theorem Cursor.followedBy_nil (c : Cursor) : c.followedBy [] = c :=
  congrArg (Cursor.mk c.loc) (List.append_nil _)

namespace Parser

variable {α β : Type} {p : Parser α} {q : α → Parser β}

/-- The parser takes no character that ends statements or blocks, so that it does not look over
one. -/
structure Contained (p : Parser α) : Prop where
  stopped : ∀ c a c', Stopped c.rest → p c = some (a, c') → Stopped c'.rest
  extend : ∀ c w, Stopped c.rest →
    p (c.followedBy w) = (p c).map fun x => (x.1, x.2.followedBy w)

theorem contained_pure (a : α) : Contained (pure a : Parser α) where
  stopped _ _ _ hc h := (pure_eq_some_iff.mp h).2 ▸ hc
  extend _ _ _ := rfl

theorem contained_failure : Contained (failure : Parser α) := ⟨nofun, fun _ _ _ => rfl⟩

namespace Contained

theorem bind (hp : Contained p) (hq : ∀ a, Contained (q a)) : Contained (p >>= q) where
  stopped c b c'' hc h := by
    obtain ⟨a, c', ha, h⟩ := bind_eq_some_iff.mp h
    exact (hq a).stopped c' b c'' (hp.stopped c a c' hc ha) h
  extend c w hc := by
    show (p (c.followedBy w)).bind (fun x => q x.1 x.2) = ((p c).bind fun x => q x.1 x.2).map _
    rw [hp.extend c w hc]
    cases ha : p c with
    | none => rfl
    | some x => exact (hq x.1).extend x.2 w (hp.stopped c x.1 x.2 hc ha)

end Contained

theorem isPrefixOf?_append_of_mem {e : Char} {s cs : List Char} (hs : e ∉ s) (hcs : e ∈ cs)
    (w : List Char) : s.isPrefixOf? (cs ++ w) = (s.isPrefixOf? cs).map (· ++ w) := by
  induction s generalizing cs with
  | nil => rfl
  | cons d s ih =>
    obtain ⟨hd, hs⟩ := not_or.mp (mt List.mem_cons.mpr hs)
    cases cs with
    | nil => cases hcs
    | cons c cs =>
      simp only [List.isPrefixOf?, List.cons_append]
      split
      next hdc =>
        have hc : e ≠ c := fun h => hd (h.trans (eq_of_beq hdc).symm)
        exact ih hs ((List.mem_cons.mp hcs).resolve_left hc)
      next => rfl

theorem contained_symbol {s : String} (hs : ∀ c ∈ s.toList, c ∉ stmtEnds) :
    Contained (symbol s) where
  stopped := by
    rintro c _ c' ⟨e, hmem, he⟩ h
    rw [eq_append_of_symbol h] at hmem
    exact ⟨e, (List.mem_append.mp hmem).resolve_left fun h => hs e h he, he⟩
  extend := by
    rintro c w ⟨e, hmem, he⟩
    have happend := isPrefixOf?_append_of_mem (fun h => hs e h he) hmem w
    simp only [symbol, lexeme, Cursor.followedBy, happend]
    cases s.toList.isPrefixOf? c.rest <;> rfl

theorem contained_lexeme {split : List Char → Option (α × List Char × List Char)} {f : Char → Bool}
    (hf : ∀ e ∈ stmtEnds, f e = false)
    (hrest : ∀ cs a t rest, split cs = some (a, t, rest) → rest = cs.dropWhile f)
    (hsplit : ∀ cs w, Stopped cs → split (cs ++ w) =
      (split cs).map fun x => (x.1, x.2.1, x.2.2 ++ w)) : Contained (lexeme split) where
  stopped c a c' hc h := by
    obtain ⟨t, rest, hx, rfl⟩ := lexeme_eq_some h
    obtain rfl := hrest c.rest a t rest hx
    exact hc.dropWhile hf
  extend c w hc := by
    simp only [lexeme, Cursor.followedBy, hsplit c.rest w hc]
    cases split c.rest <;> rfl

theorem contained_run {f : Char → Bool} (hf : ∀ e ∈ stmtEnds, f e = false) :
    Contained (run f) := by
  refine contained_lexeme hf (fun cs _ _ _ h => ?_) fun cs w hc => ?_
  · obtain ⟨_, _, rfl⟩ := Prod.mk.inj (Option.some.inj h)
    rfl
  · obtain ⟨htake, hdrop⟩ := takeWhile_dropWhile_append (hc.dropWhile hf).ne_nil w
    rw [htake, hdrop]
    rfl

theorem contained_notBefore (f : Char → Bool) : Contained (notBefore f) where
  stopped c _ c' hc h := (notBefore_eq_some h).1 ▸ hc
  extend c w hc := by
    obtain ⟨loc, cs⟩ := c
    cases cs with
    | nil => exact absurd rfl hc.ne_nil
    | cons d cs =>
      simp only [notBefore, Cursor.followedBy, List.cons_append]
      split <;> rfl

theorem contained_run₁ {f : Char → Bool} (hf : ∀ e ∈ stmtEnds, f e = false) :
    Contained (run₁ f) :=
  (contained_run hf).bind fun cs => by
    split
    · exact contained_failure
    · exact contained_pure cs

theorem contained_keyword {s : String} (hs : ∀ c ∈ s.toList, c ∉ stmtEnds) :
    Contained (keyword s) :=
  (contained_symbol hs).bind fun _ => contained_notBefore Text.isWord

theorem contained_loopDirective : Contained loopDirective := by
  have hblank : ∀ e ∈ stmtEnds, Text.isInlineBlank e = false := by decide
  exact (contained_symbol (s := "#") (by decide)).bind fun _ => (contained_run hblank).bind
    fun _ => (contained_symbol (s := "pragma") (by decide)).bind fun _ =>
      (contained_run₁ hblank).bind fun _ => (contained_symbol (s := "clang") (by decide)).bind
        fun _ => (contained_run₁ hblank).bind fun _ => contained_keyword (by decide)

theorem contained_name : Contained name := by
  refine contained_lexeme (f := isNamePart) (by decide)
    (fun _ _ _ _ h => (splitName_eq_some h).2.2) fun cs w hc => ?_
  have hname : cs.dropWhile isNamePart ≠ [] := (hc.dropWhile (by decide)).ne_nil
  have hfront : cs.dropWhile Text.isWord ≠ [] := (hc.dropWhile (by decide)).ne_nil
  obtain ⟨htake, hdrop⟩ := takeWhile_dropWhile_append hname w
  have hword : frontWord (cs ++ w) = frontWord cs := (takeWhile_dropWhile_append hfront w).1
  cases cs with
  | nil => exact absurd rfl hc.ne_nil
  | cons c cs =>
    rw [List.cons_append] at htake hdrop hword
    simp only [splitName, List.cons_append, htake, hdrop, hword]
    split <;> rfl

theorem contained_number : Contained number := by
  refine contained_lexeme (f := Text.isWord) (by decide) (fun cs _ _ _ h => ?_) fun cs w hc => ?_
  · simp only [splitNumber, Option.map_eq_some_iff, Prod.mk.injEq] at h
    obtain ⟨_, _, _, _, rfl⟩ := h
    rfl
  · have hfront : cs.dropWhile Text.isWord ≠ [] := (hc.dropWhile (by decide)).ne_nil
    obtain ⟨hword, hdrop⟩ := takeWhile_dropWhile_append hfront w
    simp only [splitNumber, frontWord, hword, hdrop]
    cases wordNumber? (cs.takeWhile Text.isWord) <;> rfl

theorem atLoopDirective_followedBy {cs : List Char} (h : Stopped cs) (loc : Loc) (w : List Char) :
    atLoopDirective ⟨loc, cs ++ w⟩ = atLoopDirective ⟨loc, cs⟩ := by
  have hextend := contained_loopDirective.extend ⟨loc, cs⟩ w h
  rw [atLoopDirective, show (⟨loc, cs ++ w⟩ : Cursor) = Cursor.followedBy ⟨loc, cs⟩ w from rfl,
    hextend, Option.isSome_map]
  rfl

end Parser

end AttrCheck
