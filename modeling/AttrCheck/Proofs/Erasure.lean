import AttrCheck.Proofs.AcceptedText

/-! A check touches attributes only. Without any attributes, the tree that a check leaves is the
tree that was read. -/

namespace AttrCheck

namespace Stmt

mutual

def erased : Stmt → Stmt
  | compound body l => compound (erasedAll body) l
  | ifElse c yes none l => ifElse c yes.erased none l
  | ifElse c yes (some no) l => ifElse c yes.erased (some no.erased) l
  | switch c body l => switch c body.erased l
  | caseLabel value sub l => caseLabel value sub.erased l
  | defaultLabel sub l => defaultLabel sub.erased l
  | forLoop none c step body l => forLoop none c step body.erased l
  | forLoop (some init) c step body l => forLoop (some init.erased) c step body.erased l
  | rangeFor var range body typeName l => rangeFor var range body.erased typeName l
  | whileLoop c body l => whileLoop c body.erased l
  | doWhile body c l => doWhile body.erased c l
  | attributed _ sub _ _ | annotated _ sub _ _ => sub.erased
  | null l => null l
  | expr e l => expr e l
  | decl d => decl d
  | ret value l => ret value l
  | brk l => brk l
  | cont l => cont l

def erasedAll : List Stmt → List Stmt
  | [] => []
  | s :: ss => s.erased :: erasedAll ss

end

theorem erasedAll_eq_map (ss : List Stmt) : erasedAll ss = ss.map erased := by
  induction ss with
  | nil => rfl
  | cons s ss ih => rw [erasedAll, ih, List.map_cons]

theorem erased_withAttrs (s : Stmt) (attrs : List Attr) (range : Range) :
    (s.withAttrs attrs range).erased = s.erased := by
  unfold withAttrs
  split
  · rfl
  · rw [erased]

theorem erased_resolved (s : Stmt) (st : Setting) : (s.resolved st).erased = s.erased := by
  induction s using childInduction generalizing st with
  | h s ih =>
    cases s with
    | null | expr | decl | ret | brk | cont => rfl
    | compound body l =>
      have hbody : (resolvedAll (st.enter []) body).map erased = body.map erased :=
        map_resolvedAll ih (st.enter [])
      rw [resolved, erased, erased, erasedAll_eq_map, erasedAll_eq_map, hbody]
    | ifElse c yes no l =>
      have hyes := ih yes (.head _) st
      cases no with
      | none => rw [resolved, erased, erased, hyes]
      | some no => rw [resolved, erased, erased, hyes, ih no (by simp [children])]
    | forLoop init c step body l =>
      have hbody := ih body (by simp [children])
      cases init with
      | none => rw [resolved, erased, erased, hbody]
      | some init => rw [resolved, erased, erased, hbody, ih init (by simp [children])]
    | annotated attrs sub range l => rw [resolved, erased_withAttrs, erased, ih sub (.head _) st]
    | switch | caseLabel | defaultLabel | rangeFor | whileLoop | doWhile | attributed =>
      rw [resolved, erased, erased, ih _ (.head _)]

end Stmt

namespace SourceUnit

def erased (u : SourceUnit) : SourceUnit :=
  { u with functions := u.functions.map fun f => { f with body := f.body.erased } }

theorem erased_resolved (u : SourceUnit) (strict : Bool) :
    (u.resolved strict).erased = u.erased := by
  simp only [resolved, erased, List.map_map, Function.comp_def, AttrCheck.Function.resolved,
    Stmt.erased_resolved]

section Unannotated

variable {u : SourceUnit} (h : u.stmts.filterMap Stmt.annotation? = [])
include h

theorem body_unannotated {f : AttrCheck.Function} (hf : f ∈ u.functions) :
    f.body.postorder.filterMap Stmt.annotation? = [] := by
  rw [stmts, List.filterMap_flatMap, List.flatMap_eq_nil_iff] at h
  exact h f hf

theorem resolved_eq_self (strict : Bool) : u.resolved strict = u := by
  have hf : ∀ f ∈ u.functions, f.resolved strict u.scopes = f := by
    intro f hf
    rw [Function.resolved, f.body.resolved_eq_self (body_unannotated h hf)]
  rw [resolved, List.map_congr_left hf, List.map_id']

theorem sites_eq_nil (strict : Bool) : u.sites strict = [] := by
  have hs := u.map_sites strict
  rw [h] at hs
  exact List.map_eq_nil_iff.mp hs

theorem check_eq_self (config : Config) : ∃ result, u.check config = .ok result ∧
    result.unit = u ∧ result.diagnostics = [] ∧ result.attributes = [] := by
  have hn : ∀ f ∈ u.functions, f.body.NamesOptions := by
    intro f hf s hs a ha
    have hpost := f.body.postorder_perm_preorder.mem_iff.mpr hs
    have hs := List.filterMap_eq_nil_iff.mp (body_unannotated h hf) s hpost
    cases s with
    | annotated => cases hs
    | _ => cases ha
  refine ⟨u.checked config, u.check_eq hn config, resolved_eq_self h _, ?_, ?_⟩
  · change (config.engine.reportAll ((u.sites _).flatMap Site.reports)).recorded = []
    rw [sites_eq_nil h]
    rfl
  · rw [checked, sites_eq_nil h]
    rfl

end Unannotated

end SourceUnit

/-- A check leaves the tree of an accepted text alone but for attributes, of which it leaves none
as written; to check the outcome again changes nothing and finds nothing. -/
theorem erased_check {file text : String} {u : SourceUnit} (h : parse file text = .ok u)
    (config config' : Config) : ∃ result, checkSource config file text = .ok result ∧
      result.unit.erased = u.erased ∧
      (∀ attrs sub range l, Stmt.annotated attrs sub range l ∉ result.unit.stmts) ∧
      ∃ again, result.unit.check config' = .ok again ∧ again.unit = result.unit ∧
        again.diagnostics = [] ∧ again.attributes = [] := by
  refine ⟨_, checkSource_eq h config, u.erased_resolved _, ?_, ?_⟩
  · intro attrs sub range l hs
    exact nomatch List.filterMap_eq_nil_iff.mp (u.annotations_resolved _) _ hs
  · exact SourceUnit.check_eq_self (u.annotations_resolved _) config'

theorem erased_check_switch : ∃ u,
    parse "a.cc" "void f(int n) { switch (n) { case 1: [[fallthrough]]; default: ; } }" = .ok u ∧
      ∃ result, checkSource {} "a.cc"
        "void f(int n) { switch (n) { case 1: [[fallthrough]]; default: ; } }" = .ok result ∧
        result.unit.erased = u.erased ∧
        (∀ attrs sub range l, Stmt.annotated attrs sub range l ∉ result.unit.stmts) ∧
        ∃ again, result.unit.check {} = .ok again ∧ again.unit = result.unit ∧
          again.diagnostics = [] ∧ again.attributes = [] := by
  have hread : ∃ u ∈ (parse "a.cc"
      "void f(int n) { switch (n) { case 1: [[fallthrough]]; default: ; } }").toOption,
      u.functions.length = 1 := by
    decide +kernel
  obtain ⟨u, hu, _⟩ := hread
  exact ⟨u, ok_of_mem_toOption hu, erased_check (ok_of_mem_toOption hu) {} {}⟩

end AttrCheck
