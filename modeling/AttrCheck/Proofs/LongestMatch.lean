import Mathlib.Data.List.Induction
import AttrCheck.Proofs.UnitRoundTrip

/-! Expressions however their tokens are spaced. What C scans as one token is as long as it can be,
and layout stands wherever that leaves the tokens as they are. Such a text is read as the expression
that its tokens make, unless a sign stands right behind one that joins two operands. -/

namespace AttrCheck

inductive IsScannedNumber : List Char → Prop where
  | digit {c : Char} (h : c.isDigit) : IsScannedNumber [c]
  | point {c : Char} (h : c.isDigit) : IsScannedNumber ['.', c]
  | more {cs : List Char} {c : Char} (h : IsScannedNumber cs) (hc : Text.isWord c ∨ c = '.') :
    IsScannedNumber (cs ++ [c])
  | exponent {cs : List Char} {e sign : Char} (h : IsScannedNumber cs)
    (he : e ∈ ['e', 'E', 'p', 'P']) (hsign : sign ∈ ['+', '-']) :
    IsScannedNumber (cs ++ [e, sign])

def encodings : List String := ["", "u8", "u", "U", "L"]

/-- The tokens of C, character constants left out, and the openings of comments. -/
inductive IsLexeme : List Char → Prop where
  | name {c : Char} {cs : List Char} (hc : Text.isWord c) (hdigit : c.isDigit = false)
    (hcs : ∀ d ∈ cs, Text.isWord d) : IsLexeme (c :: cs)
  | number {cs : List Char} (h : IsScannedNumber cs) : IsLexeme cs
  | string {encoding body : String} (hencoding : encoding ∈ encodings) (hbody : IsStringBody body) :
    IsLexeme (encoding.toList ++ (Token.string body).text.toList)
  | punctuator {s : String} (h : s ∈ punctuators) : IsLexeme s.toList

theorem isLexeme_of_isWord {cs : List Char} (hne : cs ≠ []) (hcs : ∀ c ∈ cs, Text.isWord c) :
    IsLexeme cs := by
  obtain ⟨c, cs, rfl⟩ := List.exists_cons_of_ne_nil hne
  cases hdigit : c.isDigit with
  | false => exact .name (hcs c (.head _)) hdigit fun d hd => hcs d (.tail _ hd)
  | true =>
    refine .number ?_
    induction cs using List.reverseRecOn with
    | nil => exact .digit hdigit
    | append_singleton cs d ih =>
      have hmore := ih (List.cons_ne_nil _ _) fun x hx => hcs x (by
        rw [← List.cons_append]
        exact List.mem_append_left _ hx)
      exact .more hmore (.inl (hcs d (.tail _ (List.mem_append_right _ (.head _)))))

theorem IsScannedNumber.exists_head {cs : List Char} (h : IsScannedNumber cs) :
    ∃ c ∈ cs.head?, c.isDigit ∨ c = '.' := by
  have hfront {cs ds : List Char} (hcs : ∃ c ∈ cs.head?, c.isDigit ∨ c = '.') :
      ∃ c ∈ (cs ++ ds).head?, c.isDigit ∨ c = '.' := by
    obtain ⟨c, hc, hdigit⟩ := hcs
    exact ⟨c, by rw [List.head?_append, hc]; rfl, hdigit⟩
  induction h with
  | digit h => exact ⟨_, rfl, .inl h⟩
  | point => exact ⟨_, rfl, .inr rfl⟩
  | more _ _ ih | exponent _ _ _ ih => exact hfront ih

namespace Token

/-- The token is one of C, and none of those that the text begins with is longer. A type may be
several tokens. -/
def IsLongest : Token → List Char → Prop
  | type _, _ => False
  | t, rest => IsLexeme t.text.toList ∧
    ∀ w, IsLexeme w → w <+: t.text.toList ++ rest → w.length ≤ t.text.toList.length

/-- A sign that joins two operands has no other sign right behind it. -/
def IsApart (t : Token) (rest : List Char) : Prop :=
  ∀ op, t = .binary op → IsSign op → ∀ c ∈ rest.head?, c ≠ '+' ∧ c ≠ '-'

variable {t : Token} {rest : List Char}

theorem not_isLexeme_of_isLongest (h : t.IsLongest rest) {c : Char} (hc : c ∈ rest.head?) :
    ¬ IsLexeme (t.text.toList ++ [c]) := by
  intro hlexeme
  obtain ⟨cs, rfl⟩ := List.head?_eq_some_iff.mp hc
  have hlongest : ∀ w, IsLexeme w → w <+: t.text.toList ++ c :: cs →
      w.length ≤ t.text.toList.length := by
    cases t with
    | type => exact h.elim
    | _ => exact h.2
  have hle := hlongest _ hlexeme ⟨cs, by rw [List.append_assoc]; rfl⟩
  rw [List.length_append] at hle
  exact absurd hle (by simp)

theorem IsLongest.ends (h : t.IsLongest rest) (hvalid : t.Valid) (hapart : t.IsApart rest) :
    t.Ends rest := by
  refine ⟨hvalid, fun c hc hstops => not_isLexeme_of_isLongest h hc ?_⟩
  have hword (hne : t.text.toList ≠ []) (htext : ∀ d ∈ t.text.toList, Text.isWord d)
      (hc : Text.isWord c) : IsLexeme (t.text.toList ++ [c]) :=
    isLexeme_of_isWord (by simp) (List.forall_mem_append.mpr
      ⟨htext, List.forall_mem_singleton.mpr hc⟩)
  have hmark {s : String} (hs : c ∈ continuations s) : IsLexeme (s.toList ++ [c]) := by
    have hlexeme := IsLexeme.punctuator (mem_continuations.mp hs)
    rwa [String.toList_ofList] at hlexeme
  cases t with
  | word s => exact hword (text_ne_nil hvalid) hvalid.2 hstops
  | number s =>
    obtain ⟨n, hn⟩ := hvalid
    exact hword (text_ne_nil ⟨n, hn⟩)
      (fun d hd => isWord_of_isNamePart (isNamePart_of_wordNumber hn d hd)) hstops
  | string => exact hstops.elim
  | type => exact h.elim
  | mark s => exact hmark hstops
  | binary op =>
    obtain hstops | ⟨hsign, hsecond⟩ := hstops
    · exact hmark hstops
    · obtain ⟨hplus, hminus⟩ := hapart op rfl hsign c hc
      exact (hsecond.elim hplus hminus).elim

end Token

/-- A text that is these tokens, with layout in front of each and at the end, where `P` holds of
each and of what is behind it. -/
def IsSpelling (P : Token → List Char → Prop) (ts : List Token) (s : String) : Prop :=
  ∃ r, Spells P ts s.toList r ∧ Gap r

section Frame

def statementText (s : String) : String := "void f() \x7b" ++ s ++ ";\x7d"

def initializerText (s : String) : String := "int x = " ++ s ++ ";"

theorem ends_closed {s : String} (hs : s ∈ ["(", ")", "\x7b", "\x7d", ";"]) (m : List Char) :
    (Token.mark s).Ends m := by
  have hall : ∀ s ∈ ["(", ")", "\x7b", "\x7d", ";"], s ∈ Token.marks ∧ continuations s = [] := by
    decide
  obtain ⟨hmark, hnone⟩ := hall s hs
  refine ⟨hmark, fun c _ hc => ?_⟩
  have hc : c ∈ continuations s := hc
  rw [hnone] at hc
  cases hc

theorem Spells.behind_space {P : Token → List Char → Prop} {t : Token} {ts : List Token}
    {cs r : List Char} (h : Spells P (t :: ts) cs r) : Spells P (t :: ts) (' ' :: cs) r := by
  cases h with
  | cons hg ht hspells => exact .cons (.blank (by decide) hg) ht hspells

theorem ends_of_space {t : Token} (h : t.Valid) (m : List Char) : t.Ends (' ' :: m) := by
  refine ⟨h, ?_⟩
  rintro c ⟨⟩
  exact Token.not_stops h (by decide) (by decide)

variable {e : Expr} (he : e.Written) {s : String}
include he

theorem Expr.Written.spells_closed (hs : IsSpelling Token.Ends e.tokens s) {ts : List Token}
    {cs r : List Char} (hr : Spells Token.Ends ts cs r) :
    Spells Token.Ends (e.tokens ++ .mark ";" :: ts) (s.toList ++ ';' :: cs) r := by
  obtain ⟨g, hspells, hgap⟩ := hs
  have hsemi : ∀ t ∈ e.tokens, ∀ c ∈ (';' :: cs).head?, ¬ t.Stops c := by
    rintro t ht c ⟨⟩
    exact Token.not_stops (he.valid t ht) (by decide) (by decide)
  exact (hspells.followed hsemi).trans (.cons hgap (ends_closed (by decide) cs) hr)

theorem stands_statementText (hs : IsSpelling Token.Ends e.tokens s) :
    Stands (Function.headTokens "void" "f" ++ (Stmt.compound [.expr e .unknown] .unknown).tokens)
      (statementText s).toList [] := by
  have htext : (statementText s).toList = "void".toList ++ (' ' :: ("f".toList ++ ("(".toList ++
      (")".toList ++ (' ' :: ("\x7b".toList ++ (s.toList ++ [';', '\x7d']))))))) := by
    simp [statementText]
  have htokens : (Stmt.compound [.expr e .unknown] .unknown).tokens =
      .mark "\x7b" :: (e.tokens ++ .mark ";" :: [.mark "\x7d"]) := by
    simp [Stmt.tokens, Stmt.allTokens]
  have hclose : Spells Token.Ends [.mark "\x7d"] ['\x7d'] [] :=
    .cons .nil (ends_closed (by decide) []) (.nil [])
  have hname (m : List Char) : (Token.word "f").Ends ('(' :: m) := by
    refine ⟨show Parser.IsWhole "f" by decide, ?_⟩
    rintro c ⟨⟩
    exact Bool.eq_false_iff.mp (show Text.isWord '(' = false by decide)
  have hvoid : (Token.type "void").Valid := ⟨false, isType_of_mem (by decide)⟩
  rw [htext, htokens]
  exact ⟨_, _, _, rfl, rfl, ends_of_space hvoid _, .cons gap_space (hname _)
    (.cons .nil (ends_closed (by decide) _) (.cons .nil (ends_closed (by decide) _)
      (.cons gap_space (ends_closed (by decide) _) (he.spells_closed hs hclose))))⟩

theorem stands_initializerText (hs : IsSpelling Token.Ends e.tokens s) :
    Stands (initialized e).tokens (initializerText s).toList [] := by
  have htext : (initializerText s).toList = "int".toList ++ (' ' :: ("x".toList ++
      (' ' :: ("=".toList ++ ' ' :: (s.toList ++ [';']))))) := by
    simp [initializerText]
  have htokens : (initialized e).tokens =
      .type "int" :: .word "x" :: .mark "=" :: (e.tokens ++ [.mark ";"]) := rfl
  have hvalue : Spells Token.Ends (e.tokens ++ [.mark ";"]) (' ' :: (s.toList ++ [';'])) [] := by
    have hspells := he.spells_closed hs (.nil [])
    obtain ⟨u, us, hopener, _⟩ := he.exists_opener
    rw [hopener, List.cons_append] at hspells ⊢
    exact hspells.behind_space
  have hint : (Token.type "int").Valid := ⟨false, isType_of_mem (by decide)⟩
  have hname : (Token.word "x").Valid := show Parser.IsWhole "x" by decide
  have hequals : (Token.mark "=").Valid := show "=" ∈ Token.marks by decide
  rw [htext, htokens]
  exact ⟨_, _, _, rfl, rfl, ends_of_space hint _, .cons gap_space (ends_of_space hname _)
    (.cons gap_space (ends_of_space hequals _) hvalue)⟩

end Frame

theorem IsSpelling.mono {P Q : Token → List Char → Prop} {ts : List Token} {s : String}
    (h : IsSpelling P ts s) (hPQ : ∀ t ∈ ts, ∀ m, P t m → Q t m) : IsSpelling Q ts s := by
  obtain ⟨r, hspells, hgap⟩ := h
  exact ⟨r, hspells.mono hPQ, hgap⟩

section Spelling

variable {e : Expr} (he : e.Written) {s s' : String}
include he

/-- The expression is what any spelling of its tokens is read as. -/
theorem parse_spelling (file : String) (hs : IsSpelling Token.Ends e.tokens s) :
    (∃ u, parse file (statementText s) = .ok u ∧
      u.bare = functionUnit file [.expr e .unknown]) ∧
    ∃ u, parse file (initializerText s) = .ok u ∧ u.bare = variableUnit file e :=
  ⟨parse_function file (isType_of_mem (by decide)) (by decide)
      (List.forall_mem_singleton.mpr (.expr he)) (stands_statementText he hs),
    parse_variable file (initialized_written he) (stands_initializerText he hs)⟩

theorem parseSource_spelling (limit : DigitLimit) (file : String)
    (hlimit : ∀ s ∈ e.literals, limit.converts s) (hs : IsSpelling Token.Ends e.tokens s) :
    (∃ u, parseSource limit file (statementText s) = .ok u ∧
      u.bare = functionUnit file [.expr e .unknown]) ∧
    ∃ u, parseSource limit file (initializerText s) = .ok u ∧ u.bare = variableUnit file e := by
  obtain ⟨hstatement, hinitializer⟩ := parse_spelling he file hs
  refine ⟨exists_parseSource_of_converts hstatement ?_,
    exists_parseSource_of_converts hinitializer ?_⟩
  · rwa [literals_exprUnit]
  · rwa [literals_variableUnit]

/-- Two texts with the tokens of an expression, each as long as it can be, are read as one
expression, if the host converts the integers in it and no sign stands right behind one that joins
two operands. -/
theorem parse_respaced (limit : DigitLimit) (file : String)
    (hlimit : ∀ s ∈ e.literals, limit.converts s)
    (hs : IsSpelling (fun t rest => t.IsLongest rest ∧ t.IsApart rest) e.tokens s)
    (hs' : IsSpelling (fun t rest => t.IsLongest rest ∧ t.IsApart rest) e.tokens s') :
    (∃ u u', parseSource limit file (statementText s) = .ok u ∧
      parseSource limit file (statementText s') = .ok u' ∧
      u.bare = u'.bare ∧ u.bare = functionUnit file [.expr e .unknown]) ∧
    ∃ u u', parseSource limit file (initializerText s) = .ok u ∧
      parseSource limit file (initializerText s') = .ok u' ∧
      u.bare = u'.bare ∧ u.bare = variableUnit file e := by
  have hends : ∀ t ∈ e.tokens, ∀ m, t.IsLongest m ∧ t.IsApart m → t.Ends m :=
    fun t ht m h => h.1.ends (he.valid t ht) h.2
  obtain ⟨⟨u, hu, hbare⟩, v, hv, hvbare⟩ :=
    parseSource_spelling he limit file hlimit (hs.mono hends)
  obtain ⟨⟨u', hu', hbare'⟩, v', hv', hvbare'⟩ :=
    parseSource_spelling he limit file hlimit (hs'.mono hends)
  exact ⟨⟨u, u', hu, hu', hbare.trans hbare'.symm, hbare⟩,
    v, v', hv, hv', hvbare.trans hvbare'.symm, hvbare⟩

end Spelling

section Longest

variable {rest w : List Char}

theorem IsLexeme.mem_punctuators (h : IsLexeme w)
    (hhead : ∃ c ∈ w.head?, Text.isWord c = false ∧ c ≠ '.' ∧ c ≠ '"') :
    ∃ q ∈ punctuators, q.toList = w := by
  obtain ⟨c, hc, hword, hpoint, hquote⟩ := hhead
  cases h with
  | punctuator h => exact ⟨_, h, rfl⟩
  | name hname =>
    obtain rfl := Option.some.inj hc
    rw [hname] at hword
    cases hword
  | number h =>
    obtain ⟨d, hd, hdigit⟩ := h.exists_head
    obtain rfl := Option.some.inj (hd.symm.trans hc)
    obtain hdigit | rfl := hdigit
    · rw [isWord_of_isNamePart (isNamePart_of_isDigit hdigit)] at hword
      cases hword
    · exact absurd rfl hpoint
  | @string encoding body hencoding hbody =>
    have hall : ∀ s ∈ encodings, ∀ d ∈ (s.toList ++ ['"']).head?, Text.isWord d ∨ d = '"' := by
      decide
    have htext : (Token.string body).text.toList = ['"'] ++ (body.toList ++ ['"']) := by
      simp [Token.text]
    have hc : c ∈ (encoding.toList ++ ['"']).head? := by
      rw [htext, ← List.append_assoc, List.head?_append_of_ne_nil _ (by simp)] at hc
      exact hc
    obtain h | h := hall encoding hencoding c hc
    · rw [h] at hword
      cases hword
    · exact absurd h hquote

theorem longest_symbol {s : String} (hs : s ∈ punctuators)
    (hhead : ∃ c ∈ s.toList.head?, Text.isWord c = false ∧ c ≠ '.' ∧ c ≠ '"')
    (hlonger : ∀ q ∈ punctuators, q.toList <+: s.toList ++ rest →
      q.toList.length ≤ s.toList.length) :
    IsLexeme s.toList ∧ ∀ w, IsLexeme w → w <+: s.toList ++ rest → w.length ≤ s.toList.length := by
  refine ⟨.punctuator hs, fun w hw hfront => ?_⟩
  cases w with
  | nil => exact Nat.zero_le _
  | cons d ds =>
    obtain ⟨c, hc, hnot⟩ := hhead
    obtain ⟨cs, hcs⟩ := List.head?_eq_some_iff.mp hc
    rw [hcs] at hfront
    obtain rfl : d = c := (List.cons_prefix_cons.mp hfront).1
    obtain ⟨q, hq, hqw⟩ := hw.mem_punctuators ⟨d, rfl, hnot⟩
    rw [← hqw]
    rw [← hcs, ← hqw] at hfront
    exact hlonger q hq hfront

theorem longest_name {s : String} (hs : IsName s)
    (hrest : ∀ c ∈ rest.head?, Text.isWord c = false ∧ c ≠ '"') :
    IsLexeme s.toList ∧ ∀ w, IsLexeme w → w <+: s.toList ++ rest → w.length ≤ s.toList.length := by
  obtain ⟨hne, hword⟩ := hs.isWhole
  refine ⟨isLexeme_of_isWord hne hword, fun w hw hfront => ?_⟩
  obtain ⟨⟨c, hc, hstart⟩, _⟩ := hs
  have hfrontWord : frontWord (s.toList ++ rest) = s.toList :=
    frontWord_append hword fun c hc => (hrest c hc).1
  have hhead : ∀ d ∈ w.head?, d = c := by
    obtain ⟨cs, hcs⟩ := List.head?_eq_some_iff.mp hc
    rintro d hd
    obtain ⟨ds, rfl⟩ := List.head?_eq_some_iff.mp hd
    rw [hcs] at hfront
    exact (List.cons_prefix_cons.mp hfront).1
  obtain ⟨t, ht⟩ := hfront
  rw [← ht] at hfrontWord
  cases hw with
  | @name d ds hd _ hds =>
    have hall : ∀ x ∈ d :: ds, Text.isWord x := List.forall_mem_cons.mpr ⟨hd, hds⟩
    rw [frontWord, List.takeWhile_append_of_pos hall] at hfrontWord
    rw [← hfrontWord, List.length_append]
    exact Nat.le_add_right _ _
  | number h =>
    obtain ⟨d, hd, hdigit⟩ := h.exists_head
    obtain rfl := hhead d hd
    obtain hdigit | rfl := hdigit
    · rw [not_isNameStart_of_isDigit hdigit] at hstart
      cases hstart
    · exact absurd hstart (by decide)
  | @string encoding body hencoding hbody =>
    -- The word in front of the quote is the name itself, so that the quote follows the name.
    have hencodings : ∀ s ∈ encodings, ∀ d ∈ s.toList, Text.isWord d := by decide
    have htext : encoding.toList ++ (Token.string body).text.toList ++ t =
        encoding.toList ++ '"' :: (body.toList ++ '"' :: t) := by
      simp [Token.text]
    have hquote : ∀ d ∈ ('"' :: (body.toList ++ '"' :: t)).head?, Text.isWord d = false := by
      rintro d ⟨⟩
      decide
    rw [htext, frontWord_append (hencodings encoding hencoding) hquote] at hfrontWord
    rw [htext, hfrontWord] at ht
    have hrest' := List.append_cancel_left ht
    exact absurd rfl (hrest '"' (hrest' ▸ rfl)).2
  | @punctuator q hq =>
    have hall : ∀ q ∈ punctuators, ∃ d ∈ q.toList.head?, isNameStart d = false := by decide
    obtain ⟨d, hd, hnot⟩ := hall q hq
    rw [hhead d hd, hstart] at hnot
    cases hnot

end Longest

def signedSum : Expr :=
  .binary .add (.name "a" .runtime .unknown)
    (.unary .minus (.name "b" .runtime .unknown) .unknown) .unknown

theorem signedSum_written : signedSum.Written :=
  .binary (.name (by decide)) (.front rfl (.name (by decide)) (by decide)) (by decide) (by decide)

theorem signedSum_spells {P : Token → List Char → Prop} {g₁ g₂ g₃ g₄ : List Char} (h₁ : Gap g₁)
    (h₂ : Gap g₂) (h₃ : Gap g₃) (h₄ : Gap g₄)
    (ha : P (.word "a") (g₂ ++ '+' :: (g₃ ++ '-' :: (g₄ ++ ['b']))))
    (hplus : P (.binary .add) (g₃ ++ '-' :: (g₄ ++ ['b']))) (hminus : P (.mark "-") (g₄ ++ ['b']))
    (hb : P (.word "b") []) : Spells P signedSum.tokens
      (g₁ ++ 'a' :: (g₂ ++ '+' :: (g₃ ++ '-' :: (g₄ ++ ['b'])))) [] :=
  .cons h₁ ha (.cons h₂ hplus (.cons h₃ hminus (.cons h₄ hb (.nil []))))

theorem parse_respaced_signedSum :
    (∃ u u', parseSource .standard "a.cc" (statementText "a+ -b") = .ok u ∧
      parseSource .standard "a.cc" (statementText " a\n+/* sign */-b") = .ok u' ∧
      u.bare = u'.bare ∧ u.bare = functionUnit "a.cc" [.expr signedSum .unknown]) ∧
    ∃ u u', parseSource .standard "a.cc" (initializerText "a+ -b") = .ok u ∧
      parseSource .standard "a.cc" (initializerText " a\n+/* sign */-b") = .ok u' ∧
      u.bare = u'.bare ∧ u.bare = variableUnit "a.cc" signedSum := by
  have ha : IsName "a" := by decide
  have hb : IsName "b" := by decide
  have hspace : IsSpelling (fun t rest => t.IsLongest rest ∧ t.IsApart rest) signedSum.tokens
      "a+ -b" :=
    ⟨[], signedSum_spells .nil .nil gap_space .nil ⟨longest_name ha (by decide), nofun⟩
      ⟨longest_symbol (by decide) (by decide) (by decide), by rintro _ _ _ c ⟨⟩; decide⟩
      ⟨longest_symbol (by decide) (by decide) (by decide), nofun⟩ ⟨longest_name hb nofun, nofun⟩,
      .nil⟩
  have hcomment : Gap "/* sign */".toList :=
    Gap.block (t := " sign ".toList) (by decide) .nil
  have hcommented : IsSpelling (fun t rest => t.IsLongest rest ∧ t.IsApart rest) signedSum.tokens
      " a\n+/* sign */-b" :=
    ⟨[], signedSum_spells gap_space (.blank (c := '\n') (by decide) .nil) hcomment .nil
      ⟨longest_name ha (by decide), nofun⟩
      ⟨longest_symbol (by decide) (by decide) (by decide), by rintro _ _ _ c ⟨⟩; decide⟩
      ⟨longest_symbol (by decide) (by decide) (by decide), nofun⟩ ⟨longest_name hb nofun, nofun⟩,
      .nil⟩
  exact parse_respaced signedSum_written .standard "a.cc" (by decide) hspace hcommented

/-- With the sign right behind the operator, the text is refused, although the tokens that it scans
as are the same. -/
theorem parse_respaced_refused : signedSum.Written ∧
    IsSpelling Token.IsLongest signedSum.tokens "a+ -b" ∧
    IsSpelling Token.IsLongest signedSum.tokens "a+-b" ∧
    (parseSource .standard "a.cc" (statementText "a+ -b")).isOk = true ∧
    (parseSource .standard "a.cc" (statementText "a+-b")).isOk = false ∧
    (parseSource .standard "a.cc" (initializerText "a+-b")).isOk = false := by
  have ha : IsName "a" := by decide
  have hb : IsName "b" := by decide
  refine ⟨signedSum_written, ⟨[], ?_, .nil⟩, ⟨[], ?_, .nil⟩, ?_⟩
  · exact signedSum_spells .nil .nil gap_space .nil (longest_name ha (by decide))
      (longest_symbol (by decide) (by decide) (by decide))
      (longest_symbol (by decide) (by decide) (by decide)) (longest_name hb nofun)
  · exact signedSum_spells .nil .nil .nil .nil (longest_name ha (by decide))
      (longest_symbol (by decide) (by decide) (by decide))
      (longest_symbol (by decide) (by decide) (by decide)) (longest_name hb nofun)
  · decide +kernel

end AttrCheck
