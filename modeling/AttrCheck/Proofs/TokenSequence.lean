import AttrCheck.Proofs.OperandReading

/-! Parsers over sequences of tokens. What a parser gives for a text is stated without its place,
and where it stops is stated by what it leaves of the text. -/

namespace AttrCheck

namespace Parser

variable {α β : Type} {p : Parser α} {q : α → Parser β} {P : α → Prop} {Q : β → Prop}
  {cs m r : List Char} {n : Nat}

theorem many_enough (hp : Consumes p) {c : Cursor} {k : Nat} (hn : c.rest.length < n)
    (hk : c.rest.length < k) : many p n c = many p k c := by
  induction n generalizing c k with
  | zero => exact absurd hn (Nat.not_lt_zero _)
  | succ n ih =>
    obtain ⟨k, rfl⟩ := Nat.exists_eq_add_of_le' (Nat.zero_lt_of_lt hk)
    cases hc : p c with
    | none => rw [many_of_none hc, many_of_none hc]
    | some x =>
      have hlt := length_lt_of_passes (hp c x.1 x.2 hc)
      obtain ⟨as, c', has⟩ := exists_many p n x.2
      have hrest := ih (c := x.2) (k := k) (by omega) (by omega)
      rw [many_of_some hc has, many_of_some hc (hrest ▸ has)]

theorem many_step (hp : Consumes p) {c c₁ c₂ : Cursor} {a : α} {as : List α}
    (ha : p c = some (a, c₁)) (has : many p n c₁ = some (as, c₂)) (hn : c.rest.length < n) :
    many p n c = some (a :: as, c₂) := by
  obtain ⟨n, rfl⟩ := Nat.exists_eq_add_of_le' (Nat.zero_lt_of_lt hn)
  have hlt := length_lt_of_passes (hp c a c₁ ha)
  have hsame := many_enough hp (c := c₁) (n := n) (k := n + 1) (by omega) (by omega)
  exact many_of_some ha (hsame.trans has)

/-- The parser reads the text up to `r`, wherever the text stands; what it gives is some `P`. -/
def Takes (p : Parser α) (cs r : List Char) (P : α → Prop) : Prop :=
  ∀ l, ∃ a l', p ⟨l, cs⟩ = some (a, ⟨l', r⟩) ∧ P a

def Refuses (p : Parser α) (cs : List Char) : Prop := ∀ l, p ⟨l, cs⟩ = none

namespace Takes

theorem pure {a : α} (h : P a) : Takes (pure a : Parser α) cs cs P := fun l => ⟨a, l, rfl, h⟩

theorem bind (hp : Takes p cs m P) (hq : ∀ a, P a → Takes (q a) m r Q) :
    Takes (p >>= q) cs r Q := by
  intro l
  obtain ⟨a, l₁, ha, hP⟩ := hp l
  obtain ⟨b, l₂, hb, hQ⟩ := hq a hP l₁
  exact ⟨b, l₂, (bind_of_eq_some ha).trans hb, hQ⟩

theorem here {q : Loc → Parser β} (h : ∀ l, Takes (q l) cs r Q) : Takes (here >>= q) cs r Q :=
  fun l => h l l

theorem mono {P' : α → Prop} (h : Takes p cs r P) (hP : ∀ a, P a → P' a) : Takes p cs r P' := by
  intro l
  obtain ⟨a, l', ha, hPa⟩ := h l
  exact ⟨a, l', ha, hP a hPa⟩

theorem maybe (h : Takes p cs r P) :
    Takes (Parser.maybe p) cs r fun o => ∃ a, o = some a ∧ P a := by
  intro l
  obtain ⟨a, l', ha, hP⟩ := h l
  exact ⟨some a, l', maybe_of_some ha, a, rfl, hP⟩

theorem orElse (h : Takes p cs r P) (a : α) : Takes (Parser.orElse p a) cs r P := by
  intro l
  obtain ⟨b, l', hb, hP⟩ := h l
  exact ⟨b, l', orElse_of_some hb a, hP⟩

theorem many {R : List α → Prop} (hp : Consumes p) (hfirst : Takes p cs m P)
    (hmore : Takes (Parser.many p n) m r R) (hn : cs.length < n) :
    Takes (Parser.many p n) cs r fun as => ∃ b bs, as = b :: bs ∧ P b ∧ R bs := by
  intro l
  obtain ⟨b, l₁, hb, hP⟩ := hfirst l
  obtain ⟨bs, l₂, hbs, hR⟩ := hmore l₁
  exact ⟨b :: bs, l₂, many_step hp hb hbs hn, b, bs, rfl, hP, hR⟩

end Takes

namespace Refuses

theorem bind (h : Refuses p cs) : Refuses (p >>= q) cs := fun l => bind_of_eq_none (h l) q

theorem maybe (h : Refuses p cs) : Takes (Parser.maybe p) cs cs (· = none) :=
  fun l => ⟨none, l, maybe_of_none (h l), rfl⟩

theorem orElse (h : Refuses p cs) (a : α) : Takes (Parser.orElse p a) cs cs (· = a) :=
  fun l => ⟨a, l, orElse_of_none (h l) a, rfl⟩

theorem many (h : Refuses p cs) (n : Nat) : Takes (Parser.many p n) cs cs (· = []) :=
  fun l => ⟨[], l, many_of_none (h l) n, rfl⟩

end Refuses

theorem takes_symbol (s : String) (m : List Char) :
    Takes (symbol s) (s.toList ++ m) m fun _ => True :=
  fun l => ⟨(), _, symbol_append s l m, trivial⟩

section Word

variable {s : String} (h : (Token.word s).Ends m)
include h

theorem not_isWord_of_ends : ∀ c ∈ m.head?, Text.isWord c = false :=
  fun c hc => Bool.eq_false_iff.mpr (h.stop c hc)

theorem takes_keyword : Takes (keyword s) (s.toList ++ m) m fun _ => True :=
  fun l => ⟨(), _, keyword_append s l (not_isWord_of_ends h), trivial⟩

theorem takes_name (hs : IsName s) : Takes name (s.toList ++ m) m (· = s) :=
  fun l => ⟨s, _, name_append hs l (not_isWord_of_ends h), rfl⟩

end Word

end Parser

section Reading

variable {α : Type} {p : Parser α} {P : α → Prop} {t : Token} {ts : List Token} {cs m r : List Char}

theorem Stands.takes (h : Stands (t :: ts) cs r)
    (hp : ∀ m, t.Ends m → Parser.Takes p (t.text.toList ++ m) m P) :
    ∃ m, Spells Token.Ends ts m r ∧ m.length < cs.length ∧ Parser.Takes p cs m P := by
  obtain ⟨m, rfl, hend, hspells⟩ := h.cons
  have hpos := List.length_pos_iff.mpr (Token.text_ne_nil hend.valid)
  refine ⟨m, hspells, ?_, hp m hend⟩
  rw [List.length_append]
  omega

theorem Spells.spaced (h : Spells Token.Ends ts cs r) (hne : ts ≠ [])
    (hp : ∀ cs', Stands ts cs' r → cs'.length ≤ cs.length → Parser.Takes p cs' m P) :
    Parser.Takes (Parser.spaced p) cs m P := by
  obtain ⟨t, ts, rfl⟩ := List.exists_cons_of_ne_nil hne
  obtain ⟨cs', hstands, hlength, hlayout⟩ := h.layout
  intro l
  obtain ⟨l₁, hl₁⟩ := hlayout l
  obtain ⟨a, l₂, ha, hP⟩ := hp cs' hstands hlength l₁
  exact ⟨a, l₂, (Parser.bind_of_eq_some hl₁).trans ha, hP⟩

theorem Spells.takes (h : Spells Token.Ends (t :: ts) cs r)
    (hp : ∀ m, t.Ends m → Parser.Takes p (t.text.toList ++ m) m P) :
    ∃ m, Spells Token.Ends ts m r ∧ m.length < cs.length ∧
      Parser.Takes (Parser.spaced p) cs m P := by
  obtain ⟨cs', hstands, hlength, hlayout⟩ := h.layout
  obtain ⟨m, hspells, hlt, htakes⟩ := hstands.takes hp
  refine ⟨m, hspells, Nat.lt_of_lt_of_le hlt hlength, fun l => ?_⟩
  obtain ⟨l₁, hl₁⟩ := hlayout l
  obtain ⟨a, l₂, ha, hP⟩ := htakes l₁
  exact ⟨a, l₂, (Parser.bind_of_eq_some hl₁).trans ha, hP⟩

theorem Spells.takes_layout (h : Spells Token.Ends ts cs r) (hne : ts ≠ []) :
    ∃ cs', Stands ts cs' r ∧ cs'.length ≤ cs.length ∧
      Parser.Takes Parser.layout cs cs' fun _ => True := by
  obtain ⟨t, ts, rfl⟩ := List.exists_cons_of_ne_nil hne
  obtain ⟨cs', hstands, hlength, hlayout⟩ := h.layout
  refine ⟨cs', hstands, hlength, fun l => ?_⟩
  obtain ⟨l', hl'⟩ := hlayout l
  exact ⟨(), l', hl', trivial⟩

theorem Spells.leaves (h : Spells Token.Ends (t :: ts) cs r)
    (hp : ∀ m, t.Ends m → Parser.Takes p (t.text.toList ++ m) (t.text.toList ++ m) P) :
    ∃ cs', Spells Token.Ends (t :: ts) cs' r ∧ cs'.length ≤ cs.length ∧
      Parser.Takes (Parser.spaced p) cs cs' P := by
  obtain ⟨cs', hstands, hlength, hlayout⟩ := h.layout
  obtain ⟨m, rfl, hend, hspells⟩ := hstands.cons
  refine ⟨_, .cons .nil hend hspells, hlength, fun l => ?_⟩
  obtain ⟨l₁, hl₁⟩ := hlayout l
  obtain ⟨a, l₂, ha, hP⟩ := hp m hend l₁
  exact ⟨a, l₂, (Parser.bind_of_eq_some hl₁).trans ha, hP⟩

theorem Stands.takes_single (h : Stands [t] cs r)
    (hp : ∀ m, t.Ends m → Parser.Takes p (t.text.toList ++ m) m P) : Parser.Takes p cs r P := by
  obtain ⟨m, hm, _, htakes⟩ := h.takes hp
  cases hm
  exact htakes

theorem Stands.takes_parens (h : Stands (.mark "(" :: (ts ++ [.mark ")"])) cs r)
    (hp : ∀ m, Spells Token.Ends (ts ++ [.mark ")"]) m r → m.length < cs.length →
      ∃ m', Spells Token.Ends [.mark ")"] m' r ∧ Parser.Takes (Parser.spaced p) m m' P) :
    Parser.Takes (Parser.parens p) cs r P := by
  obtain ⟨m, hm, hlt, hopen⟩ := h.takes fun m _ => Parser.takes_symbol "(" m
  obtain ⟨m', hm', hread⟩ := hp m hm hlt
  obtain ⟨_, hend, _, hclose⟩ := hm'.takes fun m _ => Parser.takes_symbol ")" m
  cases hend
  exact hopen.bind fun _ _ => hread.bind fun a ha => hclose.bind fun _ _ => .pure ha

theorem Next.refuses (h : Next t r)
    (hp : ∀ m, t.Ends m → Parser.Refuses p (t.text.toList ++ m)) :
    Parser.Refuses (Parser.spaced p) r := by
  obtain ⟨m, hspells⟩ := h
  obtain ⟨cs', hstands, _, hlayout⟩ := hspells.layout
  obtain ⟨m', rfl, hend, _⟩ := hstands.cons
  intro l
  obtain ⟨l', hl'⟩ := hlayout l
  exact (Parser.bind_of_eq_some hl').trans (hp m' hend l')

end Reading

def listed {ι : Type} (tokens : ι → List Token) (items : List ι) : List Token :=
  (items.flatMap fun i => .mark "," :: tokens i).tail

section Listed

variable {ι α : Type} {tokens : ι → List Token} {item : Parser α} {R : ι → α → Prop}
  {items : List ι} {stop : Token} {cs m r : List Char} {n k : Nat}

theorem exists_next_listed (h : Spells Token.Ends (items.flatMap fun i => .mark "," :: tokens i) m r)
    (hnext : Next stop r) : ∃ t, Next t m ∧ (t = .mark "," ∨ t = stop) := by
  cases items with
  | nil =>
    cases h
    exact ⟨stop, hnext, .inr rfl⟩
  | cons i items =>
    rw [List.flatMap_cons] at h
    exact ⟨.mark ",", h.next, .inl rfl⟩

variable (hitem : Parser.Consumes item) (hstart : ∀ i ∈ items, tokens i ≠ [])
  (hread : ∀ i ∈ items, ∀ t cs r, Stands (tokens i) cs r → cs.length < n → Next t r →
    t = .mark "," ∨ t = stop → Parser.Takes item cs r (R i))
  (hstop : ∀ m, stop.Ends m → Parser.Refuses (Parser.symbol ",") (stop.text.toList ++ m))
  (hnext : Next stop r)
  (hk : n ≤ k)
include hitem hstart hread hstop hnext hk

theorem takes_rounds (h : Spells Token.Ends (items.flatMap fun i => .mark "," :: tokens i) m r)
    (hn : m.length < n) :
    Parser.Takes (Parser.many (Parser.spaced (Parser.symbol ",") *> Parser.spaced item) k) m r
      (List.Forall₂ R items) := by
  have hround : Parser.Consumes (Parser.spaced (Parser.symbol ",") *> Parser.spaced item) :=
    (Parser.consumes_symbol (by decide)).spaced.seqRight hitem.spaced.advances
  induction items generalizing m with
  | nil =>
    cases h
    refine ((hnext.refuses hstop).bind.many k).mono ?_
    rintro _ rfl
    exact .nil
  | cons i items ih =>
    rw [List.flatMap_cons, List.cons_append] at h
    obtain ⟨m₁, hm₁, hlt₁, hcomma⟩ := h.takes fun m _ => Parser.takes_symbol "," m
    obtain ⟨m₂, hi, hrest⟩ := hm₁.exists_of_append
    have hle₂ := hi.length_le
    obtain ⟨t, ht, hafter⟩ := exists_next_listed hrest hnext
    have hfirst : Parser.Takes (Parser.spaced item) m₁ m₂ (R i) :=
      hi.spaced (hstart i (.head _)) fun cs' hcs' hle =>
        hread i (.head _) t cs' m₂ hcs' (by omega) ht hafter
    have hmore := ih (fun j hj => hstart j (.tail _ hj)) (fun j hj => hread j (.tail _ hj)) hrest
      (by omega)
    refine (Parser.Takes.many hround (hcomma.bind fun _ _ => hfirst) hmore (by omega)).mono ?_
    rintro _ ⟨a, as, rfl, ha, has⟩
    exact .cons ha has

theorem takes_commaList (hne : items ≠ []) (h : Stands (listed tokens items) cs r)
    (hn : cs.length < n) :
    Parser.Takes (Parser.commaList item k) cs r (List.Forall₂ R items) := by
  obtain ⟨i, items, rfl⟩ := List.exists_cons_of_ne_nil hne
  have hsplit : Stands (tokens i ++ items.flatMap fun i => .mark "," :: tokens i) cs r := h
  obtain ⟨m, hi, hrest⟩ := hsplit.exists_of_append (hstart i (.head _))
  obtain ⟨t, ht, hafter⟩ := exists_next_listed hrest hnext
  have hlt := hi.length_lt
  have hmore := takes_rounds hitem (fun j hj => hstart j (.tail _ hj))
    (fun j hj => hread j (.tail _ hj)) hstop hnext hk hrest (by omega)
  refine (hread i (.head _) t cs m hi hn ht hafter).bind fun a ha => hmore.bind fun as has => ?_
  exact .pure (.cons ha has)

end Listed

end AttrCheck
