import Mathlib.Data.List.TakeWhile
import AttrCheck.Proofs.Spelling

/-! Lexemes read off tokens. Of the operators that may stand in some place, the one that stands
there is read, and none where another token stands. -/

namespace AttrCheck

/-- Whether a symbol, with none of `bad` behind it, is not in front of a text that begins with
another one and goes on with none of `following`. -/
def excludes (following bad : List Char) : List Char → List Char → Bool
  | [], [] => false
  | [], c :: _ => bad.contains c
  | c :: _, [] => following.contains c
  | c :: s, d :: u => c ≠ d || excludes following bad s u

namespace Parser

variable {α : Type}

theorem symbolNotBefore_append (s : String) {bad r : List Char} (hr : ∀ c ∈ r.head?, c ∉ bad)
    (l : Loc) : symbolNotBefore s bad ⟨l, s.toList ++ r⟩ = some ((), ⟨l.after s.toList, r⟩) := by
  rw [symbolNotBefore, bind_of_eq_some (symbol_append s l r)]
  cases r with
  | nil => rfl
  | cons c cs => simp [notBefore, hr c rfl]

theorem symbolNotBefore_nil (s : String) (c : Cursor) : symbolNotBefore s [] c = symbol s c := by
  rw [symbolNotBefore]
  cases h : symbol s c with
  | none => exact bind_of_eq_none h _
  | some x =>
    obtain ⟨_, c'⟩ := x
    rw [bind_of_eq_some h]
    unfold notBefore
    cases c'.rest <;> rfl

theorem symbolNotBefore_eq_none {s : String} {following bad u r : List Char}
    (h : excludes following bad s.toList u = true) (hr : ∀ c ∈ r.head?, c ∉ following) (l : Loc) :
    symbolNotBefore s bad ⟨l, u ++ r⟩ = none := by
  have hprefix : ∀ s u : List Char, excludes following bad s u = true → ∀ rest,
      s.isPrefixOf? (u ++ r) = some rest → ∃ c ∈ rest.head?, c ∈ bad := by
    intro s u h
    fun_induction excludes following bad s u with
    | case1 => cases h
    | case2 c u =>
      rintro rest ⟨⟩
      exact ⟨c, rfl, by simpa using h⟩
    | case3 c s =>
      intro rest hrest
      cases r with
      | nil => cases hrest
      | cons d r =>
        have hne : (c == d) = false := by
          rw [beq_eq_false_iff_ne]
          rintro rfl
          exact hr c rfl (by simpa using h)
        simp [List.isPrefixOf?, hne] at hrest
    | case4 c s d u ih =>
      intro rest hrest
      by_cases hcd : c = d
      · refine ih (by simpa [hcd] using h) rest ?_
        simpa [List.isPrefixOf?, hcd] using hrest
      · have hne : (c == d) = false := beq_eq_false_iff_ne.mpr hcd
        simp [List.isPrefixOf?, hne] at hrest
  cases hs : symbol s ⟨l, u ++ r⟩ with
  | none => exact bind_of_eq_none hs _
  | some x =>
    obtain ⟨_, c'⟩ := x
    rw [symbolNotBefore, bind_of_eq_some hs]
    obtain ⟨_, rest, hsplit, rfl⟩ := lexeme_eq_some hs
    simp only [Option.map_eq_some_iff, Prod.mk.injEq] at hsplit
    obtain ⟨_, hsplit, _, rfl, rfl⟩ := hsplit
    obtain ⟨c, hc, hbad⟩ := hprefix _ _ h _ hsplit
    obtain ⟨cs, rfl⟩ := List.head?_eq_some_iff.mp hc
    simp [notBefore, Cursor.behind, hbad]

theorem symbol_eq_none_of_excludes {s : String} {following u r : List Char}
    (h : excludes following [] s.toList u = true) (hr : ∀ c ∈ r.head?, c ∉ following) (l : Loc) :
    symbol s ⟨l, u ++ r⟩ = none := by
  rw [← symbolNotBefore_nil]
  exact symbolNotBefore_eq_none h hr l

def symbolOf (symbol : α → String) (table : List (α × List Char)) : Parser α :=
  firstOf (table.map fun y => symbolNotBefore (symbol y.1) y.2 *> pure y.1)

theorem symbolOf_eq_none {symbol : α → String} {table : List (α × List Char)}
    {following u r : List Char}
    (h : ∀ y ∈ table, excludes following y.2 (symbol y.1).toList u = true)
    (hr : ∀ c ∈ r.head?, c ∉ following) (l : Loc) : symbolOf symbol table ⟨l, u ++ r⟩ = none := by
  induction table with
  | nil => rfl
  | cons y table ih =>
    have hy := symbolNotBefore_eq_none (h y (.head _)) hr l
    have hfirst : (symbolNotBefore (symbol y.1) y.2 *> pure y.1) ⟨l, u ++ r⟩ = none :=
      bind_of_eq_none hy _
    rw [symbolOf, List.map_cons, firstOf_of_none hfirst]
    exact ih fun y hy => h y (.tail _ hy)

theorem symbolOf_eq_some [DecidableEq α] {symbol : α → String} {table : List (α × List Char)}
    {x : α} {following r : List Char} (hx : ∃ y ∈ table, y.1 = x)
    (h : ∀ y ∈ table.takeWhile (·.1 ≠ x),
      excludes following y.2 (symbol y.1).toList (symbol x).toList = true)
    (hbad : ∀ y ∈ table, y.1 = x → ∀ c ∈ r.head?, c ∉ y.2)
    (hr : ∀ c ∈ r.head?, c ∉ following) (l : Loc) :
    symbolOf symbol table ⟨l, (symbol x).toList ++ r⟩ =
      some (x, ⟨l.after (symbol x).toList, r⟩) := by
  induction table with
  | nil => simp at hx
  | cons y table ih =>
    by_cases hyx : y.1 = x
    · subst hyx
      have hread := symbolNotBefore_append (symbol y.1) (hbad y (.head _) rfl) l
      have hfirst : (symbolNotBefore (symbol y.1) y.2 *> pure y.1) ⟨l, (symbol y.1).toList ++ r⟩ =
          some (y.1, ⟨l.after (symbol y.1).toList, r⟩) := bind_of_eq_some hread
      exact firstOf_of_some hfirst _
    · have htake : (y :: table).takeWhile (·.1 ≠ x) = y :: table.takeWhile (·.1 ≠ x) :=
        List.takeWhile_cons_of_pos (by simpa using hyx)
      rw [htake] at h
      have hfirst : (symbolNotBefore (symbol y.1) y.2 *> pure y.1) ⟨l, (symbol x).toList ++ r⟩ =
          none := bind_of_eq_none (symbolNotBefore_eq_none (h y (.head _)) hr l) _
      rw [symbolOf, List.map_cons, firstOf_of_none hfirst]
      refine ih ?_ (fun y hy => h y (.tail _ hy)) fun y hy => hbad y (.tail _ hy)
      obtain ⟨z, hz, hzx⟩ := hx
      obtain rfl | hz := List.mem_cons.mp hz
      · exact absurd hzx hyx
      · exact ⟨z, hz, hzx⟩

end Parser

def BinaryOp.level : BinaryOp → Nat
  | .lor => 0
  | .land => 1
  | .bor => 2
  | .bxor => 3
  | .band => 4
  | .eq | .ne => 5
  | .lt | .gt | .le | .ge => 6
  | .shl | .shr => 7
  | .add | .sub => 8
  | .mul | .div | .rem => 9

theorem BinaryOp.mem_all (op : BinaryOp) : op ∈ BinaryOp.all := by
  cases op <;> decide

theorem BinaryOp.level_lt (op : BinaryOp) : op.level < 10 := by
  cases op <;> decide

def levelAt (k : Nat) : List (BinaryOp × List Char) := binaryLevels.getD k []

theorem drop_binaryLevels {k : Nat} (h : k < 10) :
    binaryLevels.drop k = levelAt k :: binaryLevels.drop (k + 1) := by
  have hall : ∀ k < 10, binaryLevels.drop k = levelAt k :: binaryLevels.drop (k + 1) := by decide
  exact hall k h

theorem levelAt_mem {k : Nat} (h : k < 10) : levelAt k ∈ binaryLevels := by
  have hall : ∀ k < 10, levelAt k ∈ binaryLevels := by decide
  exact hall k h

theorem level_of_mem {k : Nat} (h : k < 10) : ∀ y ∈ levelAt k, y.1.level = k := by
  have hall : ∀ k < 10, ∀ y ∈ levelAt k, y.1.level = k := by decide
  exact hall k h

theorem exists_mem_levelAt (op : BinaryOp) : ∃ y ∈ levelAt op.level, y.1 = op := by
  cases op <;> decide

theorem excludes_binary : ∀ level ∈ binaryLevels, ∀ y ∈ level, ∀ op ∈ BinaryOp.all, op ≠ y.1 →
    excludes (continuations op.symbol) y.2 y.1.symbol.toList op.symbol.toList = true := by
  decide

theorem stops_binary : ∀ level ∈ binaryLevels, ∀ y ∈ level, ∀ c ∈ y.2,
    (Token.binary y.1).Stops c := by
  have hall : ∀ level ∈ binaryLevels, ∀ y ∈ level, ∀ c ∈ y.2,
      c ∈ continuations y.1.symbol ∨ Token.IsSign y.1 ∧ (c = '+' ∨ c = '-') := by
    decide
  exact hall

def followers : List String := ["(", "++", "--", "?", ")", ",", ";", ":"] ++ assignSymbols

namespace Token

def Follows : Token → Prop
  | binary _ => True
  | mark s => s ∈ followers
  | _ => False

/-- How tightly a token binds to the expression in front of it: like the expressions it makes of it,
and not at all if it ends it. -/
def bond : Token → Nat
  | binary op => 3 + op.level
  | mark s => if s ∈ ["(", "++", "--"] then 14 else if s = "?" then 2 else
      if s ∈ assignSymbols then 1 else 0
  | _ => 0

variable {t : Token} {m : List Char}

theorem binaryOp_eq_none (ht : t.Follows) (hm : t.Ends m) {k : Nat} (hk : k < 10)
    (hbond : t.bond ≠ 3 + k) (l : Loc) :
    Parser.binaryOp (levelAt k) ⟨l, t.text.toList ++ m⟩ = none := by
  cases t with
  | binary op =>
    have hstop : ∀ c ∈ m.head?, c ∉ continuations op.symbol := fun c hc h => hm.stop c hc (.inl h)
    refine Parser.symbolOf_eq_none (fun y hy => ?_) hstop l
    refine excludes_binary _ (levelAt_mem hk) y hy op op.mem_all ?_
    rintro rfl
    exact hbond (congrArg (3 + ·) (level_of_mem hk y hy))
  | mark s =>
    have hall : ∀ level ∈ binaryLevels, ∀ y ∈ level, ∀ s ∈ followers,
        excludes (continuations s) y.2 y.1.symbol.toList s.toList = true := by
      decide
    exact Parser.symbolOf_eq_none (fun y hy => hall _ (levelAt_mem hk) y hy s ht) hm.stop l
  | word | number | string | type => exact ht.elim

theorem assignOp_eq_none (ht : t.Follows) (hm : t.Ends m) (hbond : t.bond ≠ 1) (l : Loc) :
    Parser.assignOp ⟨l, t.text.toList ++ m⟩ = none := by
  have htable : Parser.assignOp = Parser.symbolOf id (assignSymbols.map (·, ['='])) := rfl
  rw [htable]
  cases t with
  | binary op =>
    have hall : ∀ op ∈ BinaryOp.all, ∀ y ∈ assignSymbols.map (·, ['=']),
        excludes (continuations op.symbol) y.2 y.1.toList op.symbol.toList = true := by
      decide
    exact Parser.symbolOf_eq_none (hall op op.mem_all)
      (fun c hc hcont => hm.stop c hc (.inl hcont)) l
  | mark s =>
    have hall : ∀ s ∈ followers, (Token.mark s).bond ≠ 1 →
        ∀ y ∈ assignSymbols.map (·, ['=']),
          excludes (continuations s) y.2 y.1.toList s.toList = true := by
      decide
    exact Parser.symbolOf_eq_none (hall s ht hbond) hm.stop l
  | word | number | string | type => exact ht.elim

theorem symbol_eq_none {s : String} (ht : t.Follows) (hm : t.Ends m)
    (hbinary : ∀ op ∈ BinaryOp.all,
      excludes (continuations op.symbol) [] s.toList op.symbol.toList = true)
    (hmark : ∀ u ∈ followers, t = .mark u → excludes (continuations u) [] s.toList u.toList = true)
    (l : Loc) : Parser.symbol s ⟨l, t.text.toList ++ m⟩ = none := by
  cases t with
  | binary op =>
    exact Parser.symbol_eq_none_of_excludes (hbinary op op.mem_all)
      (fun c hc hcont => hm.stop c hc (.inl hcont)) l
  | mark u => exact Parser.symbol_eq_none_of_excludes (hmark u ht rfl) hm.stop l
  | word | number | string | type => exact ht.elim

theorem question_eq_none (ht : t.Follows) (hm : t.Ends m) (hbond : t.bond ≠ 2) (l : Loc) :
    Parser.symbol "?" ⟨l, t.text.toList ++ m⟩ = none := by
  refine symbol_eq_none ht hm (by decide) (fun u hu htu => ?_) l
  have hall : ∀ u ∈ followers, (Token.mark u).bond ≠ 2 →
      excludes (continuations u) [] "?".toList u.toList = true := by
    decide
  exact hall u hu (htu ▸ hbond)

theorem comma_eq_none (ht : t.Follows) (hm : t.Ends m) (hne : t ≠ .mark ",") (l : Loc) :
    Parser.symbol "," ⟨l, t.text.toList ++ m⟩ = none := by
  refine symbol_eq_none ht hm (by decide) (fun u hu htu => ?_) l
  have hall : ∀ u ∈ followers, u ≠ "," →
      excludes (continuations u) [] ",".toList u.toList = true := by
    decide
  exact hall u hu fun h => hne (by rw [htu, h])

theorem postfixOp_eq_none (ht : t.Follows) (hm : t.Ends m) (hbond : t.bond ≠ 14) (n : Nat)
    (inner : Parser Expr) (l : Loc) :
    Parser.postfixOp n inner ⟨l, t.text.toList ++ m⟩ = none := by
  have hnone : ∀ s ∈ ["(", "++", "--"], Parser.symbol s ⟨l, t.text.toList ++ m⟩ = none := by
    intro s hs
    have hbinary : ∀ s ∈ ["(", "++", "--"], ∀ op ∈ BinaryOp.all,
        excludes (continuations op.symbol) [] s.toList op.symbol.toList = true := by
      decide
    have hmark : ∀ s ∈ ["(", "++", "--"], ∀ u ∈ followers, (Token.mark u).bond ≠ 14 →
        excludes (continuations u) [] s.toList u.toList = true := by
      decide
    exact symbol_eq_none ht hm (hbinary s hs) (fun u hu htu => hmark s hs u hu (htu ▸ hbond)) l
  have hcall : Parser.arguments n inner ⟨l, t.text.toList ++ m⟩ = none :=
    Parser.bind_of_eq_none (hnone "(" (.head _)) _
  have hinc := hnone "++" (.tail _ (.head _))
  have hdec := hnone "--" (.tail _ (.tail _ (.head _)))
  have hstep {s : String} (hs : Parser.symbol s ⟨l, t.text.toList ++ m⟩ = none) (op : UnaryOp) :
      (Parser.symbol s *> pure (PostfixOp.step op)) ⟨l, t.text.toList ++ m⟩ = none :=
    Parser.bind_of_eq_none hs _
  rw [Parser.postfixOp, Parser.firstOf_of_none (Parser.bind_of_eq_none hcall _),
    Parser.firstOf_of_none (hstep hinc _), Parser.firstOf_of_none (hstep hdec _)]
  rfl

theorem binaryOp_eq_some {op : BinaryOp} (hm : (binary op).Ends m) (l : Loc) :
    Parser.binaryOp (levelAt op.level) ⟨l, op.symbol.toList ++ m⟩ =
      some (op, ⟨l.after op.symbol.toList, m⟩) := by
  have hlevel := levelAt_mem op.level_lt
  have hstop : ∀ c ∈ m.head?, c ∉ continuations op.symbol := fun c hc h => hm.stop c hc (.inl h)
  refine Parser.symbolOf_eq_some (exists_mem_levelAt op) (fun y hy => ?_)
    (fun y hy hop c hc hbad => ?_) hstop l
  · obtain ⟨hne, hmem⟩ : y.1 ≠ op ∧ y ∈ levelAt op.level :=
      ⟨by simpa using List.mem_takeWhile_imp hy, (List.takeWhile_prefix _).subset hy⟩
    exact excludes_binary _ hlevel y hmem op op.mem_all hne.symm
  · exact hm.stop c hc (hop ▸ stops_binary _ hlevel y hy c hbad)

theorem assignOp_eq_some {s : String} (hs : s ∈ assignSymbols) (hm : (mark s).Ends m)
    (hequals : ∀ c ∈ m.head?, c ≠ '=') (l : Loc) :
    Parser.assignOp ⟨l, s.toList ++ m⟩ = some (s, ⟨l.after s.toList, m⟩) := by
  have htable : Parser.assignOp = Parser.symbolOf id (assignSymbols.map (·, ['='])) := rfl
  have hmem : ∀ s ∈ assignSymbols, ∃ y ∈ assignSymbols.map (·, ['=']), y.1 = s := by decide
  have hbad : ∀ y ∈ assignSymbols.map (·, ['=']), y.2 = ['='] := by decide
  have hall : ∀ s ∈ assignSymbols, ∀ y ∈ (assignSymbols.map (·, ['='])).takeWhile (·.1 ≠ s),
      excludes (continuations s) y.2 y.1.toList s.toList = true := by
    decide
  rw [htable]
  refine Parser.symbolOf_eq_some (hmem s hs) (hall s hs) (fun y hy _ c hc => ?_) hm.stop l
  rw [hbad y hy, List.mem_singleton]
  exact hequals c hc

end Token

end AttrCheck
