import AttrCheck.Proofs.ErrorFree
import AttrCheck.Proofs.FunctionWise
import AttrCheck.Proofs.Suppression

/-! The order of what a check finds. The attributes that stay, and the conflicts between them, are
those of the attribute lists in the resolved tree, one list behind the other in the order in which
their statements are left. -/

namespace AttrCheck

theorem Engine.diagnose?_of_error {r : Report} (h : r.id.severity = .error) (e : Engine) :
    e.diagnose? r = some r.diagnostic := by
  simp only [diagnose?, severity?, Report.diagnostic, h, Option.map_some]

theorem Engine.filterMap_diagnose?_conflicts (e : Engine) (attrs : List Attr) :
    (conflicts attrs).filterMap e.diagnose? = (conflicts attrs).map Report.diagnostic := by
  rw [← List.filterMap_eq_map]
  refine List.filterMap_congr fun r hr => diagnose?_of_error ?_ e
  rw [id_of_mem_scanHints hr]
  rfl

theorem Engine.recorded_reportAll_conflicts (e : Engine) (attrs : List Attr) :
    (e.reportAll (conflicts attrs)).recorded =
      e.recorded ++ (conflicts attrs).map Report.diagnostic := by
  rw [recorded_reportAll, filterMap_diagnose?_conflicts]

theorem Engine.id_of_diagnose? {e : Engine} {r : Report} {d : Diagnostic}
    (h : e.diagnose? r = some d) : d.id = r.id := by
  obtain ⟨severity, _, rfl⟩ := Option.map_eq_some_iff.mp h
  rfl

theorem Rejection.report_id_ne (why : Rejection) (t : Target) (a : RawAttr) (range : Range) :
    (why.report t a range).id ≠ .hintConflict := by
  cases why with
  | unknownKind =>
    simp only [report, RawAttr.unknownReport]
    split_ifs <;> decide
  | _ => simp [report, RawAttr.declarationReport, RawAttr.notEmptyReport]

namespace Site

theorem conflicts_rejections (s : Site) (e : Engine) :
    (s.rejections.filterMap e.diagnose?).filter (·.id = .hintConflict) = [] := by
  rw [List.filter_eq_nil_iff]
  intro d hd
  obtain ⟨r, hr, hd⟩ := List.mem_filterMap.mp hd
  obtain ⟨a, _, hr⟩ := List.mem_filterMap.mp hr
  obtain ⟨why, _, rfl⟩ := Option.map_eq_some_iff.mp hr
  simpa [Engine.id_of_diagnose? hd] using why.report_id_ne s.target a s.specifiers

theorem conflicts_reports (s : Site) (e : Engine) :
    (s.reports.filterMap e.diagnose?).filter (·.id = .hintConflict) =
      (conflicts s.kept).map Report.diagnostic := by
  have hid : ∀ r ∈ conflicts s.kept, r.id = .hintConflict := fun r hr => id_of_mem_scanHints hr
  have hkept : ((conflicts s.kept).map Report.diagnostic).filter (·.id = .hintConflict) =
      (conflicts s.kept).map Report.diagnostic := by
    refine List.filter_eq_self.mpr fun d hd => ?_
    obtain ⟨r, hr, rfl⟩ := List.mem_map.mp hd
    exact decide_eq_true (hid r hr)
  rw [reports, List.filterMap_append, List.filter_append, s.conflicts_rejections,
    e.filterMap_diagnose?_conflicts, hkept, List.nil_append]

end Site

namespace SourceUnit

def attrLists (u : SourceUnit) : List (List Attr) :=
  (u.stmts.filterMap Stmt.attribution?).map Prod.fst

theorem AsRead.flatMap_attrLists {u : SourceUnit} (h : u.AsRead) (strict : Bool) {α : Type}
    {f : List Attr → List α} (hf : f [] = []) :
    (u.resolved strict).attrLists.flatMap f =
      (u.sites strict).flatMap fun s => f s.kept := by
  have hone : ∀ s : Site, s.attribution?.toList.flatMap (fun p => f p.1) = f s.kept := by
    intro s
    unfold Site.attribution?
    split_ifs with hempty
    · rw [List.isEmpty_iff.mp hempty, hf]
      rfl
    · exact List.flatMap_singleton _ _
  rw [attrLists, h.attributions_resolved, List.flatMap_map, List.filterMap_eq_flatMap_toList,
    List.flatMap_assoc]
  exact List.flatMap_congr fun s _ => hone s

end SourceUnit

/-- The attributes of a result are those on the statements of its unit, inner statements first, and
its conflict diagnostics are what the check for conflicts says of each of these attribute lists, in
the same order. -/
theorem postorder_check {file text : String} {u : SourceUnit} (h : parse file text = .ok u)
    (config : Config) : ∃ result, checkSource config file text = .ok result ∧
      result.attributes = result.unit.attrLists.flatten ∧
      result.diagnostics.filter (·.id = .hintConflict) =
        result.unit.attrLists.flatMap fun attrs => (conflicts attrs).map Report.diagnostic := by
  have hu := SourceUnit.asRead_of_parse h
  refine ⟨_, checkSource_eq h config, ?_, ?_⟩
  · have hlists := hu.flatMap_attrLists config.strictLoopOptions (f := id) rfl
    rw [List.flatMap_id] at hlists
    exact hlists.symm
  · have hlists := hu.flatMap_attrLists config.strictLoopOptions
      (f := fun attrs => (conflicts attrs).map Report.diagnostic) rfl
    refine Eq.trans ?_ hlists.symm
    change (u.checked config).diagnostics.filter _ = _
    rw [u.diagnostics_checked config, List.filter_flatMap]
    exact List.flatMap_congr fun s _ => s.conflicts_reports config.engine

def nestedHintsText : String :=
  "void f() \x7b\n#pragma clang loop unroll(disable) unroll_count(2)\nwhile (1) \x7b\n" ++
    "#pragma clang loop vectorize(enable) vectorize(disable)\nwhile (1) ; \x7d \x7d"

theorem postorder_check_nested : ∃ u, parse "a.cc" nestedHintsText = .ok u ∧
    ∃ result, checkSource {} "a.cc" nestedHintsText = .ok result ∧
      result.unit.attrLists.map (fun attrs => (conflicts attrs).length) = [1, 1] ∧
      result.attributes = result.unit.attrLists.flatten ∧
      result.diagnostics.filter (·.id = .hintConflict) =
        result.unit.attrLists.flatMap fun attrs => (conflicts attrs).map Report.diagnostic := by
  have hread : ∃ u ∈ (parse "a.cc" nestedHintsText).toOption,
      (u.checked {}).unit.attrLists.map (fun attrs => (conflicts attrs).length) = [1, 1] := by
    decide +kernel
  obtain ⟨u, hu, hlists⟩ := hread
  have hp := ok_of_mem_toOption hu
  obtain ⟨result, hresult, hattributes, hdiagnostics⟩ := postorder_check hp {}
  obtain rfl := Except.ok.inj ((checkSource_eq hp {}).symm.trans hresult)
  exact ⟨u, hp, _, hresult, hlists, hattributes, hdiagnostics⟩

end AttrCheck
