import Mathlib.Data.List.Pairwise
import AttrCheck.Check
import AttrCheck.Proofs.Replacement
import AttrCheck.Proofs.UnitReading

/-! Texts that are read as a unit. Their check always has a result, which is that of the sites, and
the place of an attribute tells its site. -/

namespace AttrCheck

theorem ok_of_mem_toOption {ε α : Type} {x : Except ε α} {a : α} (h : a ∈ x.toOption) :
    x = .ok a := by
  cases x with
  | error e => cases h
  | ok b => rw [Option.some.inj h]

namespace Engine

theorem diagnose?_report (e : Engine) (r : Report) : (e.report r).diagnose? = e.diagnose? := by
  unfold report
  split <;> rfl

theorem recorded_report (e : Engine) (r : Report) :
    (e.report r).recorded = e.recorded ++ (e.diagnose? r).toList := by
  unfold report
  split
  next h => rw [h, Option.toList_none, List.append_nil]
  next d h => rw [h, Option.toList_some]

theorem recorded_reportAll (e : Engine) (rs : List Report) :
    (e.reportAll rs).recorded = e.recorded ++ rs.filterMap e.diagnose? := by
  induction rs generalizing e with
  | nil => rw [List.filterMap_nil, List.append_nil]; rfl
  | cons r rs ih =>
    have h := ih (e.report r)
    rw [diagnose?_report, recorded_report] at h
    show ((e.report r).reportAll rs).recorded = _
    rw [h, List.append_assoc, List.filterMap_eq_flatMap_toList, List.filterMap_eq_flatMap_toList,
      List.flatMap_cons]

theorem diagnose?_severity {e : Engine} (hp : e.promotes = false) (r : Report) :
    (∃ d, e.diagnose? r = some d ∧ d.severity = .error) ↔ r.id.severity = .error := by
  simp only [diagnose?, severity?, hp]
  cases r.id.severity with
  | warning => split <;> simp
  | _ => simp

theorem errorFree_reportAll {e : Engine} (hn : e.recorded = []) (hp : e.promotes = false)
    (rs : List Report) : (∀ d ∈ (e.reportAll rs).recorded, d.severity ≠ .error) ↔
      ∀ r ∈ rs, r.id.severity ≠ .error := by
  rw [recorded_reportAll, hn, List.nil_append]
  constructor
  · intro hall r hr hsev
    obtain ⟨d, hd, herr⟩ := (diagnose?_severity hp r).mpr hsev
    exact hall d (List.mem_filterMap.mpr ⟨r, hr, hd⟩) herr
  · intro hall d hd herr
    obtain ⟨r, hr, hrd⟩ := List.mem_filterMap.mp hd
    exact hall r hr ((diagnose?_severity hp r).mp ⟨d, hrd, herr⟩)

end Engine

namespace SourceUnit

def stmts (u : SourceUnit) : List Stmt := u.functions.flatMap fun f => f.body.postorder

theorem map_sites (u : SourceUnit) (strict : Bool) :
    (u.sites strict).map Site.annotation = u.stmts.filterMap Stmt.annotation? := by
  simp only [sites, stmts, List.map_flatMap, List.filterMap_flatMap]
  exact List.flatMap_congr fun f _ => f.body.map_sites _

theorem flatMap_attrs (u : SourceUnit) (strict : Bool) :
    (u.sites strict).flatMap Site.attrs = u.stmts.flatMap Stmt.written := by
  have hwritten : ∀ s : Stmt, s.written = s.annotation?.toList.flatMap Prod.fst := by
    intro s
    cases s <;> simp [Stmt.written, Stmt.annotation?]
  have hsites := congrArg (List.flatMap Prod.fst) (u.map_sites strict)
  rw [List.flatMap_map] at hsites
  rw [List.flatMap_congr fun s _ => hwritten s, ← List.flatMap_assoc,
    ← List.filterMap_eq_flatMap_toList]
  exact hsites

theorem annotations_resolved (u : SourceUnit) (strict : Bool) :
    (u.resolved strict).stmts.filterMap Stmt.annotation? = [] := by
  simp only [resolved, stmts, List.flatMap_map, List.filterMap_flatMap, List.flatMap_eq_nil_iff]
  exact fun f _ => f.body.annotations_resolved _

structure AsRead (u : SourceUnit) : Prop where
  namesOptions : ∀ f ∈ u.functions, f.body.NamesOptions
  unattributed : u.stmts.filterMap Stmt.attribution? = []
  placed : (u.stmts.flatMap Stmt.written).Pairwise (·.loc ≠ ·.loc)

theorem filterMap_marks (u : SourceUnit) : u.marks.filterMap Mark.attr? =
    u.functions.flatMap fun f => f.body.preorder.flatMap Stmt.written := by
  have hown : ∀ s : Stmt, s.ownMarks.filterMap Mark.attr? = s.written := by
    intro s
    cases s with
    | annotated attrs sub range l =>
      rw [Stmt.ownMarks, List.filterMap_cons_none rfl, List.filterMap_map]
      exact List.filterMap_some
    | _ => rfl
  simp only [marks, Stmt.marks, List.filterMap_flatMap, hown]

theorem mem_marks {u : SourceUnit} {f : Function} {s : Stmt} {m : Mark} (hf : f ∈ u.functions)
    (hs : s ∈ f.body.preorder) (hm : m ∈ s.ownMarks) : m ∈ u.marks :=
  List.mem_flatMap_of_mem hf (List.mem_flatMap_of_mem hs hm)

theorem asRead_of_parse {file text : String} {u : SourceUnit} (h : parse file text = .ok u) :
    u.AsRead := by
  obtain ⟨stop, hm⟩ := spread_of_parse h
  refine ⟨?_, ?_, ?_⟩
  · intro f hf s hs a ha
    cases s with
    | annotated attrs sub range l =>
      exact hm.asWritten (.attr a) (mem_marks hf hs (.tail _ (List.mem_map_of_mem ha)))
    | _ => exact absurd ha List.not_mem_nil
  · rw [List.filterMap_eq_nil_iff]
    intro s hs
    obtain ⟨f, hf, hs⟩ := List.mem_flatMap.mp hs
    cases s with
    | attributed attrs sub range l =>
      have hpre := (f.body.postorder_perm_preorder.mem_iff).mp hs
      exact (hm.asWritten (.checked l) (mem_marks hf hpre (.head _))).elim
    | _ => rfl
  · have hattrs : (u.marks.filterMap Mark.attr?).Pairwise (·.loc ≠ ·.loc) := by
      refine hm.sorted.filterMap _ ?_
      intro m m' hlt a ha a' ha'
      cases m with
      | attr b =>
        cases m' with
        | attr b' =>
          obtain rfl := Option.some.inj ha
          obtain rfl := Option.some.inj ha'
          exact hlt.ne
        | _ => cases ha'
      | _ => cases ha
    have hperm : (u.stmts.flatMap Stmt.written).Perm (u.marks.filterMap Mark.attr?) := by
      rw [filterMap_marks, stmts, List.flatMap_assoc]
      refine List.Perm.flatMap_left u.functions fun f _ => ?_
      exact f.body.postorder_perm_preorder.flatMap_right _
    exact (hperm.pairwise_iff fun h => h.symm).mpr hattrs

theorem eq_of_placed {α : Type} {xs : List α} {attrs : α → List RawAttr}
    (h : (xs.flatMap attrs).Pairwise (·.loc ≠ ·.loc)) {x y : α} {a b : RawAttr} (hx : x ∈ xs)
    (hy : y ∈ xs) (ha : a ∈ attrs x) (hb : b ∈ attrs y) (hl : a.loc = b.loc) : x = y ∧ a = b := by
  obtain ⟨hin, hout⟩ := List.pairwise_flatMap.mp h
  have hxy : x = y := by
    by_contra hne
    have hsymm : Std.Symm fun x y : α => ∀ a ∈ attrs x, ∀ b ∈ attrs y, a.loc ≠ b.loc :=
      ⟨fun x y hxy b hb a ha => (hxy a ha b hb).symm⟩
    exact hout.forall hx hy hne a ha b hb hl
  subst hxy
  refine ⟨rfl, ?_⟩
  by_contra hne
  have hsymm : Std.Symm fun a b : RawAttr => a.loc ≠ b.loc := ⟨fun a b => Ne.symm⟩
  exact (hin x hx).forall ha hb hne hl

namespace AsRead

variable {u : SourceUnit} (h : u.AsRead) (strict : Bool)
include h

theorem attributions_resolved : (u.resolved strict).stmts.filterMap Stmt.attribution? =
    (u.sites strict).filterMap Site.attribution? := by
  have hu := h.unattributed
  simp only [stmts, List.filterMap_flatMap, List.flatMap_eq_nil_iff] at hu
  simp only [resolved, stmts, sites, List.flatMap_map, List.filterMap_flatMap]
  exact List.flatMap_congr fun f hf => f.body.attributions_resolved (hu f hf) _

theorem site_eq {s s' : Site} {a a' : RawAttr} (hs : s ∈ u.sites strict)
    (hs' : s' ∈ u.sites strict) (ha : a ∈ s.attrs) (ha' : a' ∈ s'.attrs) (hl : a.loc = a'.loc) :
    s = s' ∧ a = a' := by
  have hp := h.placed
  rw [← u.flatMap_attrs strict] at hp
  exact eq_of_placed hp hs hs' ha ha' hl

omit strict in
theorem stmt_eq {s s' : Stmt} {a a' : RawAttr} (hs : s ∈ u.stmts) (hs' : s' ∈ u.stmts)
    (ha : a ∈ s.written) (ha' : a' ∈ s'.written) (hl : a.loc = a'.loc) : s = s' :=
  (eq_of_placed h.placed hs hs' ha ha' hl).1

end AsRead

end SourceUnit

theorem SourceUnit.outcome_eq {u : SourceUnit} (h : u.AsRead) (config : Config) : u.outcome config =
    .ok { u.checked config with events := u.readEvent :: (u.checked config).events } := by
  have hc := u.check_eq h.namesOptions config
  unfold outcome
  rw [hc]

theorem checkSource_eq {file text : String} {u : SourceUnit} (h : parse file text = .ok u)
    (config : Config) : checkSource config file text =
      .ok { u.checked config with events := u.readEvent :: (u.checked config).events } := by
  unfold checkSource
  split
  next he => cases h.symm.trans he
  next u' hu =>
    obtain rfl := Except.ok.inj (h.symm.trans hu)
    exact u.outcome_eq (SourceUnit.asRead_of_parse h) config

end AttrCheck
