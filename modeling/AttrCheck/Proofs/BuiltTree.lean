import AttrCheck.Proofs.Building
import AttrCheck.Proofs.StmtTokens

/-! Trees that are built of texts, up to places. The integers in a tree have no part in its places,
so that a tree tells whether a text that it is read from can be built. -/

namespace AttrCheck

namespace Expr

theorem allLiterals_eq (es : List Expr) : allLiterals es = es.flatMap literals := by
  induction es with
  | nil => rfl
  | cons e es ih => rw [allLiterals, ih, List.flatMap_cons]

theorem literals_bare (e : Expr) : e.bare.literals = e.literals := by
  induction e using partsInduction with
  | h e ih =>
    cases e with
    | call callee args l =>
      have hargs : args.flatMap (fun e => e.bare.literals) = args.flatMap literals :=
        List.flatMap_congr fun e he => ih e (.tail _ he)
      rw [bare, literals, literals, ih callee (.head _), bareAll_eq_map, allLiterals_eq,
        allLiterals_eq, List.flatMap_map, hargs]
    | _ => simp_all [bare, literals, parts]

theorem optLiterals_bare (o : Option Expr) : optLiterals (o.map bare) = optLiterals o := by
  cases o with
  | none => rfl
  | some e => simp [optLiterals, literals_bare]

end Expr

theorem VarDecl.literals_bare (d : VarDecl) : d.bare.literals = d.literals :=
  Expr.optLiterals_bare d.init

theorem RawAttr.literals_bare (a : RawAttr) : a.bare.literals = a.literals := by
  have harg (arg : Arg) : arg.bare.literals = arg.literals := by
    cases arg with
    | ident i => rfl
    | expr e => exact e.literals_bare
  simp only [literals, bare, List.flatMap_map]
  refine List.flatMap_congr fun place _ => ?_
  cases place with
  | none => rfl
  | some arg => simp [harg]

namespace Stmt

theorem allLiterals_eq (ss : List Stmt) : allLiterals ss = ss.flatMap literals := by
  induction ss with
  | nil => rfl
  | cons s ss ih => rw [allLiterals, ih, List.flatMap_cons]

theorem literals_bare (s : Stmt) : s.bare.literals = s.literals := by
  induction s using childInduction with
  | h s ih =>
    cases s with
    | compound body l =>
      rw [bare, literals, literals, bareAll_eq_map, allLiterals_eq, allLiterals_eq,
        List.flatMap_map]
      exact List.flatMap_congr ih
    | decl d => exact d.literals_bare
    | ret value l => exact Expr.optLiterals_bare value
    | ifElse c yes no l =>
      cases no <;> simp_all [bare, literals, optLiterals, children, Expr.literals_bare]
    | forLoop init c step body l =>
      cases init <;> simp_all [bare, literals, optLiterals, children, Expr.optLiterals_bare]
    | annotated attrs sub range l =>
      have hattrs : attrs.flatMap (fun a => a.bare.literals) = attrs.flatMap RawAttr.literals :=
        List.flatMap_congr fun a _ => a.literals_bare
      rw [bare, literals, literals, ih sub (.head _), List.flatMap_map, hattrs]
    | _ => simp_all [bare, literals, children, Expr.literals_bare]

end Stmt

theorem SourceUnit.literals_bare (u : SourceUnit) : u.bare.literals = u.literals := by
  simp only [literals, bare, List.flatMap_map, Function.bare, Stmt.literals_bare,
    VarDecl.literals_bare]

section

variable {limit : DigitLimit} {file text : String} {v : SourceUnit}
  (h : ∃ u, parse file text = .ok u ∧ u.bare = v)
include h

theorem exists_parseSource_of_converts (hall : ∀ s ∈ v.literals, limit.converts s) :
    ∃ u, parseSource limit file text = .ok u ∧ u.bare = v := by
  obtain ⟨u, hu, rfl⟩ := h
  rw [u.literals_bare] at hall
  exact ⟨u, parseSource_of_converts hu hall, rfl⟩

theorem parseSource_bare_of_not_converts (hnot : ∃ s ∈ v.literals, limit.converts s = false) :
    parseSource limit file text = .error (.unbuilt .tooManyDigits) := by
  obtain ⟨u, hu, rfl⟩ := h
  rw [u.literals_bare] at hnot
  exact parseSource_of_not_converts hu hnot

end

end AttrCheck
