import AttrCheck.Proofs.AcceptedText

/-! Units checked function by function. The functions of a unit share its variables at file scope
and nothing else, so that the check of a unit is made up of the checks of its functions, each alone
with those variables. -/

namespace AttrCheck

namespace SourceUnit

variable (u : SourceUnit)

def only (f : Function) : SourceUnit := { u with functions := [f] }

theorem sites_only (f : Function) (strict : Bool) :
    (u.only f).sites strict = f.sites strict u.scopes := List.flatMap_singleton _ _

theorem flatMap_sites_only (strict : Bool) :
    u.functions.flatMap (fun f => (u.only f).sites strict) = u.sites strict :=
  List.flatMap_congr fun f _ => u.sites_only f strict

variable (config : Config)

theorem diagnostics_checked : (u.checked config).diagnostics =
    (u.sites config.strictLoopOptions).flatMap fun s =>
      s.reports.filterMap config.engine.diagnose? := by
  show (config.engine.reportAll _).recorded = _
  rw [Engine.recorded_reportAll, List.filterMap_flatMap]
  rfl

theorem flatMap_checked_only :
    (u.functions.flatMap fun f => ((u.only f).checked config).diagnostics) =
        (u.checked config).diagnostics ∧
      (u.functions.flatMap fun f => ((u.only f).checked config).attributes) =
        (u.checked config).attributes ∧
      (u.functions.flatMap fun f => ((u.only f).checked config).unit.functions) =
        (u.checked config).unit.functions := by
  have hsites := u.flatMap_sites_only config.strictLoopOptions
  refine ⟨?_, ?_, ?_⟩
  · simp only [diagnostics_checked]
    rw [← hsites, List.flatMap_assoc]
  · show (u.functions.flatMap fun f => ((u.only f).sites _).flatMap Site.kept) =
      (u.sites _).flatMap Site.kept
    rw [← hsites, List.flatMap_assoc]
  · exact List.map_eq_flatMap.symm

end SourceUnit

/-- The check of an accepted text finds in each function what it finds where that function is alone
with the variables at file scope, and puts the findings one behind the other. -/
theorem functionwise_check {file text : String} {u : SourceUnit} (h : parse file text = .ok u)
    (config : Config) : ∃ result, u.check config = .ok result ∧
      ∃ parts : List CheckResult,
        List.Forall₂ (fun f part => (u.only f).check config = .ok part) u.functions parts ∧
        result.diagnostics = parts.flatMap CheckResult.diagnostics ∧
        result.attributes = parts.flatMap CheckResult.attributes ∧
        result.unit.functions = parts.flatMap (·.unit.functions) := by
  have hn := (SourceUnit.asRead_of_parse h).namesOptions
  obtain ⟨hdiagnostics, hattributes, hfunctions⟩ := u.flatMap_checked_only config
  refine ⟨_, u.check_eq hn config, u.functions.map fun f => (u.only f).checked config, ?_, ?_, ?_,
    ?_⟩
  · refine List.forall₂_map_right_iff.mpr (List.forall₂_same.mpr fun f hf => ?_)
    refine (u.only f).check_eq (fun g hg => ?_) config
    obtain rfl := List.mem_singleton.mp hg
    exact hn g hf
  · rw [List.flatMap_map, hdiagnostics]
  · rw [List.flatMap_map, hattributes]
  · rw [List.flatMap_map, hfunctions]

def pairText : String :=
  "const int K = 4; void f(int K) \x7b switch (K) \x7b [[fallthrough]]; \x7d \x7d " ++
    "void g() \x7b\n[[fallthrough]];\n#pragma clang loop unroll_count(K)\nfor (;;) ; \x7d"

theorem functionwise_check_pair : ∃ u, parse "a.cc" pairText = .ok u ∧
    u.functions.length = 2 ∧ ∃ result, u.check {} = .ok result ∧
      ∃ parts : List CheckResult,
        List.Forall₂ (fun f part => (u.only f).check {} = .ok part) u.functions parts ∧
        result.diagnostics = parts.flatMap CheckResult.diagnostics ∧
        result.attributes = parts.flatMap CheckResult.attributes ∧
        result.unit.functions = parts.flatMap (·.unit.functions) := by
  have hread : ∃ u ∈ (parse "a.cc" pairText).toOption, u.functions.length = 2 := by
    decide +kernel
  obtain ⟨u, hu, hlength⟩ := hread
  have hp := ok_of_mem_toOption hu
  exact ⟨u, hp, hlength, functionwise_check hp {}⟩

end AttrCheck
