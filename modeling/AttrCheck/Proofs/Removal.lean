import AttrCheck.Proofs.AcceptedText
import AttrCheck.Proofs.Nesting

/-! Taking attributes out of a unit. The rest of the tree stays, with the same settings and the same
statements behind the specifiers, so the sites are the same but for their attributes. -/

namespace AttrCheck

namespace Stmt

section Change

variable (g : List RawAttr → List RawAttr)

mutual

def mapWritten : Stmt → Stmt
  | compound body l => compound (mapWrittenAll body) l
  | ifElse c yes none l => ifElse c yes.mapWritten none l
  | ifElse c yes (some no) l => ifElse c yes.mapWritten (some no.mapWritten) l
  | switch c body l => switch c body.mapWritten l
  | caseLabel value sub l => caseLabel value sub.mapWritten l
  | defaultLabel sub l => defaultLabel sub.mapWritten l
  | forLoop none c step body l => forLoop none c step body.mapWritten l
  | forLoop (some init) c step body l => forLoop (some init.mapWritten) c step body.mapWritten l
  | rangeFor var range body typeName l => rangeFor var range body.mapWritten typeName l
  | whileLoop c body l => whileLoop c body.mapWritten l
  | doWhile body c l => doWhile body.mapWritten c l
  | attributed attrs sub range l => attributed attrs sub.mapWritten range l
  | annotated attrs sub range l => annotated (g attrs) sub.mapWritten range l
  | null l => null l
  | expr e l => expr e l
  | decl d => decl d
  | ret value l => ret value l
  | brk l => brk l
  | cont l => cont l

def mapWrittenAll : List Stmt → List Stmt
  | [] => []
  | s :: ss => s.mapWritten :: mapWrittenAll ss

end

theorem mapWrittenAll_eq_map (ss : List Stmt) : mapWrittenAll g ss = ss.map (mapWritten g) := by
  induction ss with
  | nil => rfl
  | cons s ss ih => rw [mapWrittenAll, ih, List.map_cons]

theorem children_mapWritten (s : Stmt) :
    (s.mapWritten g).children = s.children.map (mapWritten g) := by
  cases s with
  | compound body l => rw [mapWritten, children, children, mapWrittenAll_eq_map]
  | ifElse c yes no l => cases no <;> rfl
  | forLoop init c step body l => cases init <;> rfl
  | _ => rfl

theorem target_mapWritten (s : Stmt) : (s.mapWritten g).target = s.target := by
  cases s with
  | ifElse c yes no l => cases no <;> rfl
  | forLoop init c step body l => cases init <;> rfl
  | _ => rfl

theorem written_mapWritten (hg : g [] = []) (s : Stmt) :
    (s.mapWritten g).written = g s.written := by
  cases s with
  | ifElse c yes no l => cases no <;> exact hg.symm
  | forLoop init c step body l => cases init <;> exact hg.symm
  | annotated => rfl
  | _ => exact hg.symm

theorem annotation?_mapWritten (s : Stmt) :
    (s.mapWritten g).annotation? = s.annotation?.map fun p => (g p.1, p.2) := by
  cases s with
  | ifElse c yes no l => cases no <;> rfl
  | forLoop init c step body l => cases init <;> rfl
  | _ => rfl

theorem inside_mapWritten (s : Stmt) (st : Setting) :
    st.inside (s.mapWritten g) = st.inside s := by
  cases s with
  | ifElse c yes no l => cases no <;> rfl
  | forLoop init c step body l => cases init <;> rfl
  | _ => rfl

theorem scopesAfter_mapWritten (s : Stmt) (sc : Scopes) :
    (s.mapWritten g).scopesAfter sc = s.scopesAfter sc := by
  induction s using childInduction generalizing sc with
  | h s ih =>
    cases s with
    | ifElse c yes no l =>
      have hyes := ih yes (.head _) sc
      cases no with
      | none => rw [mapWritten, scopesAfter, scopesAfter, hyes]
      | some no => rw [mapWritten, scopesAfter, scopesAfter, hyes, ih no (by simp [children])]
    | forLoop init c step body l => cases init <;> rfl
    | switch | caseLabel | defaultLabel | whileLoop | doWhile | attributed | annotated =>
      exact ih _ (.head _) sc
    | _ => rfl

theorem after_mapWritten (s : Stmt) (st : Setting) : st.after (s.mapWritten g) = st.after s := by
  rw [Setting.after, Setting.after, scopesAfter_mapWritten]

theorem preorder_mapWritten (s : Stmt) :
    (s.mapWritten g).preorder = s.preorder.map (mapWritten g) := by
  induction s using childInduction with
  | h s ih =>
    rw [preorder_eq, preorder_eq, children_mapWritten, List.flatMap_map, List.map_cons,
      List.map_flatMap]
    exact congrArg _ (List.flatMap_congr ih)

end Change

theorem target_resolved {s : Stmt} (h : s.annotation? = none) (st : Setting) :
    (s.resolved st).target = s.target := by
  cases s with
  | annotated => cases h
  | ifElse c yes no l => cases no <;> rfl
  | forLoop init c step body l => cases init <;> rfl
  | _ => rfl

theorem Flat.of_mem {s t : Stmt} (h : s.Flat) (ht : t ∈ s.children) : t.Flat := by
  intro attrs sub range l hs
  refine h attrs sub range l ?_
  rw [preorder_eq]
  exact .tail _ (List.mem_flatMap_of_mem ht hs)

theorem Flat.sub {attrs : List RawAttr} {sub : Stmt} {range : Range} {l : Loc}
    (h : (annotated attrs sub range l).Flat) : sub.annotation? = none :=
  h attrs sub range l (by rw [preorder_eq]; exact .head _)

end Stmt

def Site.mapWritten (g : List RawAttr → List RawAttr) (s : Site) : Site :=
  { s with attrs := g s.attrs }

namespace Stmt

variable (g : List RawAttr → List RawAttr)

theorem sitesAll_mapWritten {ss : List Stmt} (h : ∀ s ∈ ss, ∀ st, (s.mapWritten g).sites st =
    (s.sites st).map (Site.mapWritten g)) (st : Setting) :
    sitesAll st (ss.map (mapWritten g)) = (sitesAll st ss).map (Site.mapWritten g) := by
  induction ss generalizing st with
  | nil => rfl
  | cons s ss ih =>
    have hs := h s (.head _) st
    have hss := ih (fun t ht => h t (.tail _ ht)) (st.after s)
    rw [List.map_cons, sitesAll, sitesAll, List.map_append, hs, after_mapWritten, hss]

theorem sites_mapWritten {s : Stmt} (hs : s.Flat) (st : Setting) :
    (s.mapWritten g).sites st = (s.sites st).map (Site.mapWritten g) := by
  induction s using childInduction generalizing st with
  | h s ih =>
    cases ha : s.annotation? with
    | none =>
      have ha' : (s.mapWritten g).annotation? = none := by
        rw [annotation?_mapWritten, ha]
        rfl
      rw [sites_eq st ha, sites_eq st ha', children_mapWritten, inside_mapWritten]
      exact sitesAll_mapWritten g (fun t ht => ih t ht (hs.of_mem ht)) _
    | some p =>
      obtain ⟨sub, l, rfl⟩ := annotation?_eq_some_iff.mp ha
      have hsub := ih sub (.head _) (hs.of_mem (.head _)) st
      have ha' : (sub.mapWritten g).annotation? = none := by
        rw [annotation?_mapWritten, hs.sub]
        rfl
      have htarget : ((sub.mapWritten g).resolved st).target = (sub.resolved st).target := by
        rw [target_resolved ha', target_resolved hs.sub, target_mapWritten]
      rw [mapWritten, sites, sites, hsub, htarget, after_mapWritten, List.map_append]
      rfl

end Stmt

namespace SourceUnit

variable (g : List RawAttr → List RawAttr)

def mapWritten (u : SourceUnit) : SourceUnit :=
  { u with functions := u.functions.map fun f => { f with body := f.body.mapWritten g } }

theorem sites_mapWritten {u : SourceUnit} (h : ∀ f ∈ u.functions, f.body.Flat) (strict : Bool) :
    (u.mapWritten g).sites strict = (u.sites strict).map (Site.mapWritten g) := by
  rw [sites, sites, mapWritten, List.flatMap_map, List.map_flatMap]
  exact List.flatMap_congr fun f hf => Stmt.sites_mapWritten g (h f hf) _

theorem namesOptions_mapWritten {u : SourceUnit} (hg : ∀ as, g as ⊆ as)
    (h : ∀ f ∈ u.functions, f.body.NamesOptions) :
    ∀ f ∈ (u.mapWritten g).functions, f.body.NamesOptions := by
  have hnil : g [] = [] := List.subset_nil.mp (hg [])
  intro f hf s hs a ha
  obtain ⟨f', hf', rfl⟩ := List.mem_map.mp hf
  rw [Stmt.preorder_mapWritten] at hs
  obtain ⟨s', hs', rfl⟩ := List.mem_map.mp hs
  rw [Stmt.written_mapWritten g hnil] at ha
  exact h f' hf' s' hs' a (hg _ ha)

end SourceUnit

end AttrCheck
