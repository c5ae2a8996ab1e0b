import AttrCheck.Proofs.AcceptedText
import AttrCheck.Proofs.NodePlaces

/-! Walks over accepted texts. The statements that a walk enters begin one behind the other, and
no node begins behind anything that stands inside it. -/

namespace AttrCheck

open Node

def TopLevel.node : TopLevel → Node
  | function f => .function f
  | global d => .var d

theorem Parser.behind_topLevel {n : Nat} (l : Loc) :
    Behind l (topLevel n) fun item => From l item.node :=
  .orElse (.map (behind_function l)) (.map (behind_variableDecl l))

theorem SourceUnit.roots_ofItems {file : String} {items : List TopLevel} {a : Node}
    (h : a ∈ (ofItems file items).roots) : ∃ item ∈ items, a = item.node := by
  rcases List.mem_append.mp h with h | h
  · obtain ⟨f, hf, rfl⟩ := List.mem_map.mp h
    obtain ⟨item, hitem, hf⟩ := List.mem_filterMap.mp hf
    cases item with
    | function g => exact ⟨_, hitem, congrArg Node.function (Option.some.inj hf).symm⟩
    | global d => cases hf
  · obtain ⟨d, hd, rfl⟩ := List.mem_map.mp h
    obtain ⟨item, hitem, hd⟩ := List.mem_filterMap.mp hd
    cases item with
    | function f => cases hd
    | global d' => exact ⟨_, hitem, congrArg Node.var (Option.some.inj hd).symm⟩

theorem roots_of_parse {file text : String} {u : SourceUnit} (h : parse file text = .ok u) :
    ∀ a ∈ u.roots, a.Throughout Node.AsRead := by
  intro a ha
  obtain ⟨items, c, he, _, rfl⟩ := exists_items_of_parse h
  obtain ⟨item, hitem, rfl⟩ := SourceUnit.roots_ofItems ha
  have hround : Parser.Behind (Loc.start file)
      (Parser.topLevel (text.toList.length + 1) <* Parser.layout)
      fun item => From (Loc.start file) item.node :=
    (Parser.behind_topLevel _).bind fun _ hi => .skip Parser.advances_layout fun _ => .pure hi
  have hitems : Parser.Behind (Loc.start file) (Parser.items (text.toList.length + 1))
      fun items => ∀ item ∈ items, From (Loc.start file) item.node :=
    .skip Parser.advances_layout fun _ => hround.many _
  exact ((hitems _ items c le_rfl he).1 item hitem).asRead

namespace Node

/-- In a node that is as a text is read, what stands inside another begins no sooner. -/
theorem loc_le_of_contains {a b : Node} (h : a.Throughout AsRead) (hb : a.Contains b) :
    a.loc ≤ b.loc := by
  induction hb with
  | refl => exact le_rfl
  | tail hc hpart ih => exact ih.trans ((h.of_contains hc).self.le _ hpart)

end Node

def Mark.stmt? : Mark → Option Loc
  | stmt l | checked l => some l
  | attr _ => none

namespace SourceUnit

theorem filterMap_stmt?_marks (u : SourceUnit) :
    u.marks.filterMap Mark.stmt? = u.bodyStmts.map Stmt.loc := by
  have hown (s : Stmt) : s.ownMarks.filterMap Mark.stmt? = [s.loc] := by
    cases s with
    | annotated attrs sub range l =>
      have hattrs : (attrs.map Mark.attr).filterMap Mark.stmt? = [] := by
        rw [List.filterMap_map]
        exact List.filterMap_eq_nil_iff.mpr fun _ _ => rfl
      exact congrArg (List.cons l) hattrs
    | _ => rfl
  simp only [marks, bodyStmts, Stmt.marks, List.filterMap_flatMap, hown, List.map_eq_flatMap,
    List.flatMap_assoc]

theorem pairwise_loc_of_parse {file text : String} {u : SourceUnit}
    (h : parse file text = .ok u) : u.bodyStmts.Pairwise (·.loc < ·.loc) := by
  obtain ⟨stop, hm⟩ := spread_of_parse h
  -- Marks are strictly in order, and each statement leaves one at its place.
  have hlocs : (u.marks.filterMap Mark.stmt?).Pairwise (· < ·) := by
    refine hm.sorted.filterMap _ ?_
    intro m m' hlt l hl l' hl'
    have hplace {m : Mark} {l : Loc} (h : m.stmt? = some l) : m.loc = l := by
      cases m with
      | attr => cases h
      | _ => exact Option.some.inj h
    rwa [← hplace hl, ← hplace hl']
  rw [filterMap_stmt?_marks] at hlocs
  exact List.pairwise_map.mp hlocs

end SourceUnit

/-- A walk over an accepted text that stops nowhere enters just the statements that stand in the
bodies of its functions, each once and in the order of the text, from the first function to the
last. And each node of the text begins no later than all that stands inside it. -/
theorem walk_of_parse {file text : String} {u : SourceUnit} (h : parse file text = .ok u) :
    u.walk none = u.bodyStmts.map Stmt.visit ∧
      (∀ s, s ∈ u.bodyStmts ↔ ∃ f ∈ u.functions, (Node.function f).Contains (.stmt s)) ∧
      u.bodyStmts.Nodup ∧ u.bodyStmts.Pairwise (·.loc < ·.loc) ∧
      ∀ r ∈ u.roots, ∀ a b, r.Contains a → a.Contains b → a.loc ≤ b.loc := by
  have hsorted := SourceUnit.pairwise_loc_of_parse h
  refine ⟨u.walk_none, ?_, ?_, hsorted, ?_⟩
  · intro s
    simp only [SourceUnit.bodyStmts, List.mem_flatMap, Node.function_contains_iff]
  · exact hsorted.imp fun hlt heq => (heq ▸ hlt).ne rfl
  · intro r hr a b ha hb
    exact Node.loc_le_of_contains ((roots_of_parse h r hr).of_contains ha) hb

def interleavedText : String :=
  "void f() \x7b [[x(n)]] if (n ? a = 1 : -b) ; else return; \x7d\nint k = 2;\n" ++
    "void g() \x7b for (int i;;) ; \x7d"

theorem walk_of_parse_interleaved : ∃ u, parse "a.cc" interleavedText = .ok u ∧
    u.bodyStmts.map Stmt.kind =
      [.compound, .annotated, .ifElse, .null, .ret, .compound, .forLoop, .decl, .null] ∧
    u.walk none = u.bodyStmts.map Stmt.visit ∧ u.bodyStmts.Pairwise (·.loc < ·.loc) ∧
    u.roots.length = 3 ∧ ∀ r ∈ u.roots, ∀ a b, r.Contains a → a.Contains b → a.loc ≤ b.loc := by
  have hread : ∃ u ∈ (parse "a.cc" interleavedText).toOption, u.bodyStmts.map Stmt.kind =
      [.compound, .annotated, .ifElse, .null, .ret, .compound, .forLoop, .decl, .null] ∧
        u.roots.length = 3 := by
    decide +kernel
  obtain ⟨u, hu, hkinds, hroots⟩ := hread
  have hp := ok_of_mem_toOption hu
  obtain ⟨hwalk, _, _, hsorted, hplaces⟩ := walk_of_parse hp
  exact ⟨u, hp, hkinds, hwalk, hsorted, hroots, hplaces⟩

end AttrCheck
