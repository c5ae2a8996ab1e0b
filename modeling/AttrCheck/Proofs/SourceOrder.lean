import AttrCheck.Proofs.ExprReading
import AttrCheck.Proofs.Traversal

/-! What a text is read as stands in the order of the text. The marks of a unit are its statements
and the attributes on them; their places increase strictly. As it is read, no statement carries
checked attributes, and every loop hint names its option. -/

namespace AttrCheck

def RawAttr.NamesOption (a : RawAttr) : Prop :=
  a.kind = .loopHint → ∃ loc name, a.ident? 0 = some ⟨loc, some name⟩

inductive Mark where
  | stmt (loc : Loc)
  | attr (a : RawAttr)
  /-- A statement whose attributes are checked already. -/
  | checked (loc : Loc)

namespace Mark

def loc : Mark → Loc
  | stmt l | checked l => l
  | attr a => a.loc

def attr? : Mark → Option RawAttr
  | attr a => some a
  | stmt _ | checked _ => none

def AsWritten : Mark → Prop
  | stmt _ => True
  | attr a => a.NamesOption
  | checked _ => False

end Mark

/-- Marks as a text has them between two places. -/
structure Spread (lo : Loc) (ms : List Mark) (hi : Loc) : Prop where
  le : lo ≤ hi
  sorted : ms.Pairwise (·.loc < ·.loc)
  bounds : ∀ m ∈ ms, lo ≤ m.loc ∧ m.loc < hi
  asWritten : ∀ m ∈ ms, m.AsWritten

namespace Spread

variable {lo mid hi : Loc} {ms ms' : List Mark}

theorem nil (h : lo ≤ hi) : Spread lo [] hi := ⟨h, .nil, nofun, nofun⟩

theorem singleton {m : Mark} (hlo : lo ≤ m.loc) (hhi : m.loc < hi) (hm : m.AsWritten) :
    Spread lo [m] hi := by
  refine ⟨hlo.trans hhi.le, List.pairwise_singleton _ m, ?_, ?_⟩
  · intro m' hm'
    rw [List.mem_singleton.mp hm']
    exact ⟨hlo, hhi⟩
  · intro m' hm'
    rwa [List.mem_singleton.mp hm']

theorem start (h : lo < hi) : Spread lo [.stmt lo] hi := singleton le_rfl h trivial

theorem append (h : Spread lo ms mid) (h' : Spread mid ms' hi) : Spread lo (ms ++ ms') hi := by
  refine ⟨h.le.trans h'.le, List.pairwise_append.mpr ⟨h.sorted, h'.sorted, ?_⟩, ?_, ?_⟩
  · intro m hm m' hm'
    exact (h.bounds m hm).2.trans_le (h'.bounds m' hm').1
  · intro m hm
    obtain hm | hm := List.mem_append.mp hm
    · exact ⟨(h.bounds m hm).1, (h.bounds m hm).2.trans_le h'.le⟩
    · exact ⟨h.le.trans (h'.bounds m hm).1, (h'.bounds m hm).2⟩
  · intro m hm
    exact (List.mem_append.mp hm).elim (h.asWritten m) (h'.asWritten m)

theorem trans_le (h : Spread lo ms mid) (hhi : mid ≤ hi) : Spread lo ms hi := by
  simpa using h.append (nil hhi)

theorem of_le (hlo : lo ≤ mid) (h : Spread mid ms hi) : Spread lo ms hi := (nil hlo).append h

theorem sublist (h : Spread lo ms hi) (hs : ms'.Sublist ms) : Spread lo ms' hi :=
  ⟨h.le, h.sorted.sublist hs, fun m hm => h.bounds m (hs.subset hm),
    fun m hm => h.asWritten m (hs.subset hm)⟩

end Spread

namespace Stmt

def ownMarks : Stmt → List Mark
  | annotated attrs _ _ l => .stmt l :: attrs.map .attr
  | attributed _ _ _ l => [.checked l]
  | s => [.stmt s.loc]

def marks (s : Stmt) : List Mark := s.preorder.flatMap ownMarks

theorem marks_eq (s : Stmt) : s.marks = s.ownMarks ++ s.children.flatMap marks := by
  rw [marks, preorder_eq, List.flatMap_cons, List.flatMap_assoc]
  rfl

end Stmt

namespace Parser

variable {α β γ : Type}

/-- A way for a list to stand in a text between two places that lets another one stand behind it. -/
structure Joins (R : Loc → List γ → Loc → Prop) : Prop where
  nil {lo hi : Loc} : lo ≤ hi → R lo [] hi
  append {lo mid hi : Loc} {xs ys : List γ} : R lo xs mid → R mid ys hi → R lo (xs ++ ys) hi

/-- What the parser reads stands in this way between the place where it begins and the place where
it ends. -/
def Lays (R : Loc → List γ → Loc → Prop) (p : Parser α) (items : α → List γ) : Prop :=
  ∀ c a c', p c = some (a, c') → R c.loc (items a) c'.loc

namespace Joins

variable {R : Loc → List γ → Loc → Prop} (hR : Joins R) {lo mid hi : Loc} {xs : List γ}
include hR

theorem trans_le (h : R lo xs mid) (hhi : mid ≤ hi) : R lo xs hi := by
  simpa using hR.append h (hR.nil hhi)

theorem of_le (hlo : lo ≤ mid) (h : R mid xs hi) : R lo xs hi := hR.append (hR.nil hlo) h

end Joins

namespace Lays

variable {R : Loc → List γ → Loc → Prop} (hR : Joins R) {p : Parser α} {items : α → List γ}
include hR

theorem spaced (h : Lays R p items) : Lays R (Parser.spaced p) items := by
  intro c a c' e
  obtain ⟨_, c₁, h₁, e⟩ := bind_eq_some_iff.mp e
  exact hR.of_le (advances_layout c () c₁ h₁).loc_le (h c₁ a c' e)

theorem seqLeft {q : Parser β} (h : Lays R p items) (hq : Advances q) :
    Lays R (p <* q) items := by
  intro c a c' e
  obtain ⟨_, c₁, h₁, e⟩ := bind_eq_some_iff.mp e
  obtain ⟨b, c₂, h₂, e⟩ := bind_eq_some_iff.mp e
  obtain ⟨rfl, rfl⟩ := pure_eq_some_iff.mp e
  exact hR.trans_le (h c _ c₁ h₁) (hq c₁ b c₂ h₂).loc_le

theorem seqRight {q : Parser β} (hq : Advances q) (h : Lays R p items) :
    Lays R (q *> p) items := by
  intro c a c' e
  obtain ⟨b, c₁, h₁, e⟩ := bind_eq_some_iff.mp e
  exact hR.of_le (hq c b c₁ h₁).loc_le (h c₁ a c' e)

theorem parens (h : Lays R p items) : Lays R (Parser.parens p) items := by
  intro c a c' e
  obtain ⟨_, c₁, h₁, e⟩ := bind_eq_some_iff.mp e
  obtain ⟨a', c₂, h₂, e⟩ := bind_eq_some_iff.mp e
  obtain ⟨_, c₃, h₃, e⟩ := bind_eq_some_iff.mp e
  obtain ⟨rfl, rfl⟩ := pure_eq_some_iff.mp e
  have hclose := ((advances_symbol _).spaced c₂ () c₃ h₃).loc_le
  exact hR.of_le (advances_symbol _ c () c₁ h₁).loc_le
    (hR.trans_le (h.spaced hR c₁ a' c₂ h₂) hclose)

omit hR in
theorem firstOf {ps : List (Parser α)} (h : ∀ p ∈ ps, Lays R p items) :
    Lays R (Parser.firstOf ps) items := by
  intro c a c' e
  obtain ⟨p, hp, e⟩ := firstOf_eq_some e
  exact h p hp c a c' e

theorem maybe (h : Lays R p items) :
    Lays R (Parser.maybe p) fun o => o.toList.flatMap items := by
  intro c o c' e
  rcases maybe_eq_some e with ⟨a, hp, rfl⟩ | ⟨rfl, rfl⟩
  · simpa using h c a c' hp
  · exact hR.nil le_rfl

theorem many (h : Lays R p items) (n : Nat) :
    Lays R (Parser.many p n) fun as => as.flatMap items := by
  induction n with
  | zero =>
    intro c as c' e
    obtain ⟨rfl, rfl⟩ := pure_eq_some_iff.mp e
    exact hR.nil le_rfl
  | succ n ih =>
    intro c as c' e
    rcases orElse_eq_some e with e | e
    · obtain ⟨a, c₁, h₁, e⟩ := bind_eq_some_iff.mp e
      obtain ⟨as', c₂, h₂, e⟩ := bind_eq_some_iff.mp e
      obtain ⟨rfl, rfl⟩ := pure_eq_some_iff.mp e
      exact hR.append (h c a c₁ h₁) (ih c₁ as' c₂ h₂)
    · obtain ⟨rfl, rfl⟩ := pure_eq_some_iff.mp e
      exact hR.nil le_rfl

theorem cons {p' : Parser α} {item : α → γ} (h : Lays R p fun a => [item a])
    (h' : Lays R p' fun a => [item a]) (n : Nat) :
    Lays R (do let a ← p; let as ← Parser.many p' n; return a :: as) (List.map item) := by
  intro c as c' e
  obtain ⟨a, c₁, h₁, e⟩ := bind_eq_some_iff.mp e
  obtain ⟨as', c₂, h₂, e⟩ := bind_eq_some_iff.mp e
  obtain ⟨rfl, rfl⟩ := pure_eq_some_iff.mp e
  have hrest : R c₁.loc (as'.map item) c₂.loc := by
    rw [List.map_eq_flatMap]
    exact h'.many hR n c₁ as' c₂ h₂
  exact hR.append (h c a c₁ h₁) hrest

theorem default {p : Parser (List α)} {item : α → γ} (h : Lays R p (List.map item)) :
    Lays R (Parser.orElse p []) (List.map item) := by
  intro c as c' e
  rcases orElse_eq_some e with e | e
  · exact h c as c' e
  · obtain ⟨rfl, rfl⟩ := pure_eq_some_iff.mp e
    exact hR.nil le_rfl

end Lays

variable {p : Parser α} {marks : α → List Mark}

def Leaves (p : Parser α) (marks : α → List Mark) : Prop :=
  ∀ c a c', p c = some (a, c') → Spread c.loc (marks a) c'.loc

theorem joins_spread : Joins Spread := ⟨.nil, .append⟩

namespace Leaves

theorem spaced (h : Leaves p marks) : Leaves (Parser.spaced p) marks := Lays.spaced joins_spread h

theorem seqLeft {q : Parser β} (h : Leaves p marks) (hq : Advances q) : Leaves (p <* q) marks :=
  Lays.seqLeft joins_spread h hq

theorem seqRight {q : Parser β} (hq : Advances q) (h : Leaves p marks) : Leaves (q *> p) marks :=
  Lays.seqRight joins_spread hq h

theorem parens (h : Leaves p marks) : Leaves (Parser.parens p) marks := Lays.parens joins_spread h

theorem firstOf {ps : List (Parser α)} (h : ∀ p ∈ ps, Leaves p marks) :
    Leaves (Parser.firstOf ps) marks := Lays.firstOf h

theorem maybe (h : Leaves p marks) :
    Leaves (Parser.maybe p) fun o => o.toList.flatMap marks := Lays.maybe joins_spread h

theorem many (h : Leaves p marks) (n : Nat) :
    Leaves (Parser.many p n) fun as => as.flatMap marks := Lays.many joins_spread h n

end Leaves

end Parser

end AttrCheck
