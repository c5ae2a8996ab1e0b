import AttrCheck.Proofs.SExpReading
import AttrCheck.Proofs.WalkOrder

/-! When two checked units have the same S-expression. A check leaves only nodes that can be told
from their S-expressions, so that it is when the units show the same. -/

namespace AttrCheck

open Node

namespace SExp

mutual

def decEq : (e f : SExp) → Decidable (e = f)
  | symbol s, symbol t => decidable_of_iff (s = t) (symbol.injEq s t ▸ Iff.rfl)
  | int m, int n => decidable_of_iff (m = n) (int.injEq m n ▸ Iff.rfl)
  | string s, string t => decidable_of_iff (s = t) (string.injEq s t ▸ Iff.rfl)
  | list es, list fs => @decidable_of_iff _ (es = fs) (list.injEq es fs ▸ Iff.rfl) (decEqAll es fs)
  | symbol _, int _ | symbol _, string _ | symbol _, list _ | int _, symbol _ | int _, string _
  | int _, list _ | string _, symbol _ | string _, int _ | string _, list _ | list _, symbol _
  | list _, int _ | list _, string _ => isFalse nofun

def decEqAll : (es fs : List SExp) → Decidable (es = fs)
  | [], [] => isTrue rfl
  | e :: es, f :: fs =>
    @decidable_of_iff _ (e = f ∧ es = fs) List.cons_eq_cons.symm
      (@instDecidableAnd _ _ (decEq e f) (decEqAll es fs))
  | [], _ :: _ | _ :: _, [] => isFalse nofun

end

instance : DecidableEq SExp := decEq

end SExp

namespace Stmt

theorem mem_parts_of_resolved {s : Stmt} {st : Setting} (h : s.annotation? = none) {b : Node}
    (hb : b ∈ (s.resolved st).parts) (hn : b.HoldsNoStmt) : b ∈ s.parts := by
  have hne (t : Stmt) : b ≠ .stmt t := by
    rintro rfl
    exact hn
  cases s with
  | annotated => simp [annotation?] at h
  | compound body l =>
    obtain ⟨t, _, ht⟩ := List.mem_map.mp hb
    exact absurd ht.symm (hne t)
  | ifElse c yes no l => cases no <;> simp_all [resolved, parts]
  | forLoop init c step body l => cases init <;> simp_all [resolved, parts]
  | _ => simp_all [resolved, parts]

theorem mem_parts_resolved {s : Stmt} {st : Setting} (h : s.annotation? = none) {b : Node}
    (hb : b ∈ (s.resolved st).parts) :
    (∃ c ∈ s.children, ∃ st', b = .stmt (c.resolved st')) ∨ (b ∈ s.parts ∧ b.HoldsNoStmt) := by
  cases b with
  | function f => exact absurd hb (function_not_mem_parts f)
  | stmt t =>
    have ht := mem_parts_iff.mp hb
    rw [children_resolved st h] at ht
    obtain ⟨c, hc, st', rfl, _⟩ := mem_resolvedAll ht
    exact .inl ⟨c, hc, st', rfl⟩
  | _ => exact .inr ⟨mem_parts_of_resolved h hb trivial, trivial⟩

theorem isLegible_resolved {s : Stmt} (st : Setting) (h : s.annotation? = none)
    (hw : (Node.stmt s).AsWritten) : (Node.stmt (s.resolved st)).IsLegible := by
  cases s with
  | annotated => simp [annotation?] at h
  | attributed => exact hw.elim
  | ifElse c yes no l => cases no <;> trivial
  | forLoop init c step body l => cases init <;> trivial
  | _ => trivial

end Stmt

namespace Node

theorem legible_of_holdsNoStmt {a : Node} (h : a.Throughout AsRead) (hn : a.HoldsNoStmt) :
    a.Throughout IsLegible := by
  induction h with
  | @intro a hself _ ih =>
    refine .intro ?_ fun b hb => ih b hb (hn.part hb)
    cases a with
    | function | stmt => exact hn.elim
    | _ => exact hself.asWritten

theorem legible_withAttrs {s : Stmt} (h : (stmt s).Throughout IsLegible) (site : Site)
    (range : Range) : (stmt (s.withAttrs site.kept range)).Throughout IsLegible := by
  unfold Stmt.withAttrs
  split_ifs
  · exact h
  · refine .intro ?_ (List.forall_mem_singleton.mpr h)
    intro hint hmem
    exact (Site.suits_of_mem_kept hmem).2

theorem legible_resolved {s : Stmt} (h : (stmt s).Throughout AsRead) (st : Setting) :
    (stmt (s.resolved st)).Throughout IsLegible := by
  induction s using Stmt.childInduction generalizing st with
  | h s ih =>
    obtain ⟨hself, hparts⟩ := h
    cases ha : s.annotation? with
    | some p =>
      obtain ⟨sub, l, rfl⟩ := Stmt.annotation?_eq_some_iff.mp ha
      -- What stays of the attributes is put on what replaces the statement inside.
      have hsub := ih sub (.head _) (hparts _ (List.mem_append_right _ (.head _))) st
      exact legible_withAttrs hsub _ _
    | none =>
      refine .intro (Stmt.isLegible_resolved st ha hself.asWritten) ?_
      intro b hb
      rcases Stmt.mem_parts_resolved ha hb with ⟨c, hc, st', rfl⟩ | ⟨hb, hn⟩
      · exact ih c hc (hparts _ (Stmt.mem_parts_iff.mpr hc)) st'
      · -- Expressions and variables stay as they were read.
        exact legible_of_holdsNoStmt (hparts b hb) hn

end Node

theorem SourceUnit.legible_resolved {u : SourceUnit} (h : ∀ a ∈ u.roots, a.Throughout Node.AsRead)
    (strict : Bool) : ∀ a ∈ (u.resolved strict).roots, a.Throughout IsLegible := by
  intro a ha
  rcases List.mem_append.mp ha with ha | ha
  · obtain ⟨g, hg, rfl⟩ := List.mem_map.mp ha
    obtain ⟨f, hf, rfl⟩ := List.mem_map.mp hg
    obtain ⟨_, hparts⟩ := h _ (List.mem_append_left _ (List.mem_map_of_mem hf))
    have hbody := Node.legible_resolved (hparts _ (.head _)) (f.setting strict u.scopes)
    exact .intro trivial (List.forall_mem_singleton.mpr hbody)
  · obtain ⟨d, hd, rfl⟩ := List.mem_map.mp ha
    exact legible_of_holdsNoStmt (h _ (List.mem_append_right _ ha)) trivial

theorem exists_parse_of_check {config : Config} {file text : String} {r : CheckResult}
    (h : checkSource config file text = .ok r) : ∃ u, parse file text = .ok u := by
  unfold checkSource at h
  split at h
  · cases h
  next u hu => exact ⟨u, hu⟩

/-- What the S-expression of a checked unit shows can be told from it. -/
theorem unit?_sexp_of_check {config : Config} {file text : String} {r : CheckResult}
    (h : checkSource config file text = .ok r) : r.unit.sexp.unit? = some r.unit.core := by
  obtain ⟨u, hu⟩ := exists_parse_of_check h
  obtain rfl := Except.ok.inj (h.symm.trans (checkSource_eq hu config))
  exact SExp.unit?_sexp (SourceUnit.legible_resolved (roots_of_parse hu) _)

section

variable {config config' : Config} {file file' text text' : String} {r r' : CheckResult}

/-- Two checked units have the same S-expression if and only if they show the same, that is, they
are equal but for places, parentheses, the spelling of numbers, what is known of names and what
functions return, a missing expression being like the name `nil`. -/
theorem sexp_eq_iff (h : checkSource config file text = .ok r)
    (h' : checkSource config' file' text' = .ok r') :
    r.unit.sexp = r'.unit.sexp ↔ r.unit.core = r'.unit.core := by
  constructor
  · intro he
    have hread := unit?_sexp_of_check h
    rw [he, unit?_sexp_of_check h'] at hread
    exact (Option.some.inj hread).symm
  · intro he
    rw [← r.unit.sexp_core, he, r'.unit.sexp_core]

end

def bareText : String := "int k = 0x2;\nvoid f() \x7b for (;;) return; \x7d"

def wordyText : String := "int k = (2);\nint f() \x7b for (; nil;) return (nil); \x7d"

theorem sexp_eq_iff_wordy : ∃ r r', checkSource {} "a.cc" bareText = .ok r ∧
    checkSource {} "b.cc" wordyText = .ok r' ∧ r.unit.sexp = r'.unit.sexp ∧
    r.unit.core = r'.unit.core := by
  have hread : ∃ u ∈ (parse "a.cc" bareText).toOption,
      ∃ u' ∈ (parse "b.cc" wordyText).toOption,
        (u.resolved false).sexp = (u'.resolved false).sexp := by
    decide +kernel
  obtain ⟨u, hu, u', hu', hsexp⟩ := hread
  have h := checkSource_eq (ok_of_mem_toOption hu) {}
  have h' := checkSource_eq (ok_of_mem_toOption hu') {}
  exact ⟨_, _, h, h', hsexp, (sexp_eq_iff h h').mp hsexp⟩

end AttrCheck
