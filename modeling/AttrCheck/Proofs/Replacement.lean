import AttrCheck.Proofs.Resolution

/-! What a resolution does to the tree. A statement keeps its kind and its place in the tree, with
its insides replaced; only the attributes as written go, and where some of them stay, the checked
ones stand in their place. -/

namespace AttrCheck

namespace Setting

def inside (st : Setting) : Stmt → Setting
  | .compound _ _ | .forLoop _ _ _ _ _ => st.enter []
  | .rangeFor var _ _ _ _ => st.enter [(var, .runtime)]
  | .switch _ _ _ => st.enterSwitch
  | _ => st

end Setting

namespace Site

def annotation (s : Site) : List RawAttr × Range := (s.attrs, s.specifiers)

def attribution? (s : Site) : Option (List Attr × Range) :=
  if s.kept.isEmpty then none else some (s.kept, s.specifiers)

end Site

namespace Stmt

def annotation? : Stmt → Option (List RawAttr × Range)
  | annotated attrs _ range _ => some (attrs, range)
  | _ => none

def attribution? : Stmt → Option (List Attr × Range)
  | attributed attrs _ range _ => some (attrs, range)
  | _ => none

theorem annotation?_eq_some_iff {s : Stmt} {attrs : List RawAttr} {range : Range} :
    s.annotation? = some (attrs, range) ↔ ∃ sub l, s = annotated attrs sub range l := by
  cases s <;> simp [annotation?]

theorem attribution?_eq_some_iff {s : Stmt} {attrs : List Attr} {range : Range} :
    s.attribution? = some (attrs, range) ↔ ∃ sub l, s = attributed attrs sub range l := by
  cases s <;> simp [attribution?]

section Unannotated

variable {s : Stmt} (st : Setting) (h : s.annotation? = none)
include h

theorem children_resolved : (s.resolved st).children = resolvedAll (st.inside s) s.children := by
  cases s with
  | annotated => simp [annotation?] at h
  | ifElse c yes no l => cases no <;> rfl
  | forLoop init c step body l => cases init <;> rfl
  | _ => rfl

theorem sites_eq : s.sites st = sitesAll (st.inside s) s.children := by
  cases s with
  | annotated => simp [annotation?] at h
  | ifElse c yes no l => cases no <;> simp [sites, children, sitesAll, Setting.inside]
  | forLoop init c step body l => cases init <;> simp [sites, children, sitesAll, Setting.inside]
  | _ => simp [sites, children, sitesAll, Setting.inside]

theorem annotation?_resolved : (s.resolved st).annotation? = none := by
  cases s with
  | annotated => simp [annotation?] at h
  | ifElse c yes no l => cases no <;> rfl
  | forLoop init c step body l => cases init <;> rfl
  | _ => rfl

theorem attribution?_resolved : (s.resolved st).attribution? = s.attribution? := by
  cases s with
  | annotated => simp [annotation?] at h
  | ifElse c yes no l => cases no <;> rfl
  | forLoop init c step body l => cases init <;> rfl
  | _ => rfl

end Unannotated

theorem map_sitesAll {α : Type} {f : Site → α} {g : Stmt → List α} {ss : List Stmt}
    (h : ∀ s ∈ ss, ∀ st, (s.sites st).map f = g s) (st : Setting) :
    (sitesAll st ss).map f = ss.flatMap g := by
  induction ss generalizing st with
  | nil => rfl
  | cons s ss ih =>
    have hs := h s (.head _) st
    have hss := ih (fun t ht => h t (.tail _ ht)) (st.after s)
    rw [sitesAll, List.map_append, hs, hss, List.flatMap_cons]

theorem map_sites (s : Stmt) (st : Setting) :
    (s.sites st).map Site.annotation = s.postorder.filterMap annotation? := by
  induction s using childInduction generalizing st with
  | h s ih =>
    rw [postorder_eq, List.filterMap_append, List.filterMap_flatMap]
    cases ha : s.annotation? with
    | none =>
      have hc := map_sitesAll ih (st.inside s)
      rw [sites_eq st ha, hc, List.filterMap_cons_none ha]
      simp
    | some p =>
      obtain ⟨sub, l, rfl⟩ := annotation?_eq_some_iff.mp ha
      have hsub := ih sub (.head _) st
      rw [sites, List.map_append, hsub]
      simp [children, annotation?, Site.annotation]

theorem postorder_withAttrs (s : Stmt) (attrs : List Attr) (range : Range) :
    (s.withAttrs attrs range).postorder = s.postorder ++
      if attrs.isEmpty then [] else [attributed attrs s range range.start] := by
  unfold withAttrs
  split
  · rw [List.append_nil]
  · rw [postorder_eq]
    simp [children]

theorem filterMap_resolvedAll {α : Type} {f : Stmt → Option α} {g : Site → Option α}
    {ss : List Stmt} (h : ∀ s ∈ ss, ∀ st, (s.resolved st).postorder.filterMap f =
      (s.sites st).filterMap g) (st : Setting) :
    ((resolvedAll st ss).flatMap postorder).filterMap f = (sitesAll st ss).filterMap g := by
  induction ss generalizing st with
  | nil => rfl
  | cons s ss ih =>
    have hss := ih (fun t ht => h t (.tail _ ht)) (st.after s)
    rw [resolvedAll, sitesAll, List.flatMap_cons, List.filterMap_append, List.filterMap_append,
      h s (.head _) st, hss]

theorem annotations_resolved (s : Stmt) (st : Setting) :
    (s.resolved st).postorder.filterMap annotation? = [] := by
  induction s using childInduction generalizing st with
  | h s ih =>
    cases ha : s.annotation? with
    | none =>
      have hc := filterMap_resolvedAll (g := fun _ => none) (fun t ht st => by
        rw [ih t ht st, List.filterMap_none]) (st.inside s)
      rw [postorder_eq, children_resolved st ha, List.filterMap_append, hc,
        List.filterMap_cons_none (annotation?_resolved st ha)]
      simp
    | some p =>
      obtain ⟨sub, l, rfl⟩ := annotation?_eq_some_iff.mp ha
      rw [resolved, postorder_withAttrs, List.filterMap_append, ih sub (.head _) st]
      split <;> simp [annotation?]

theorem attributions_resolved (s : Stmt) (h : s.postorder.filterMap attribution? = [])
    (st : Setting) : (s.resolved st).postorder.filterMap attribution? =
      (s.sites st).filterMap Site.attribution? := by
  induction s using childInduction generalizing st with
  | h s ih =>
    rw [postorder_eq, List.filterMap_append, List.append_eq_nil_iff, List.filterMap_flatMap,
      List.flatMap_eq_nil_iff] at h
    -- Only a statement with attributes as written is replaced by one of another kind.
    cases ha : s.annotation? with
    | none =>
      have hs : (s.resolved st).attribution? = none := by
        rw [attribution?_resolved st ha]
        simpa using h.2
      have hc := filterMap_resolvedAll (fun t ht st => ih t ht (h.1 t ht) st) (st.inside s)
      rw [postorder_eq, children_resolved st ha, List.filterMap_append, hc,
        List.filterMap_cons_none hs, sites_eq st ha]
      simp
    | some p =>
      obtain ⟨sub, l, rfl⟩ := annotation?_eq_some_iff.mp ha
      have hsub := ih sub (.head _) (h.1 sub (.head _)) st
      rw [resolved, postorder_withAttrs, List.filterMap_append, hsub, sites, List.filterMap_append]
      congr 1
      simp only [List.filterMap_cons, Site.attribution?]
      split <;> simp [attribution?]

theorem map_resolvedAll {α : Type} {f g : Stmt → α} {ss : List Stmt}
    (h : ∀ s ∈ ss, ∀ st, f (s.resolved st) = g s) (st : Setting) :
    (resolvedAll st ss).map f = ss.map g := by
  induction ss generalizing st with
  | nil => rfl
  | cons s ss ih =>
    have hs := h s (.head _) st
    have hss := ih (fun t ht => h t (.tail _ ht)) (st.after s)
    rw [resolvedAll, List.map_cons, hs, hss, List.map_cons]

theorem resolved_eq_self (s : Stmt) (h : s.postorder.filterMap annotation? = []) (st : Setting) :
    s.resolved st = s := by
  induction s using childInduction generalizing st with
  | h s ih =>
    rw [postorder_eq, List.filterMap_append, List.append_eq_nil_iff, List.filterMap_flatMap,
      List.flatMap_eq_nil_iff] at h
    have hc : ∀ t ∈ s.children, ∀ st, t.resolved st = t := fun t ht => ih t ht (h.1 t ht)
    cases s with
    | annotated => simp [annotation?] at h
    | null | expr | decl | ret | brk | cont => rfl
    | compound body l =>
      have hbody : (resolvedAll (st.enter []) body).map id = body.map id :=
        map_resolvedAll hc (st.enter [])
      rw [List.map_id, List.map_id] at hbody
      rw [resolved, hbody]
    | ifElse c yes no l =>
      have hyes := hc yes (.head _) st
      cases no with
      | none => rw [resolved, hyes]
      | some no => rw [resolved, hyes, hc no (by simp [children])]
    | forLoop init c step body l =>
      have hbody := hc body (by simp [children])
      cases init with
      | none => rw [resolved, hbody]
      | some init => rw [resolved, hbody, hc init (by simp [children])]
    | switch | caseLabel | defaultLabel | rangeFor | whileLoop | doWhile | attributed =>
      rw [resolved, hc _ (.head _)]

end Stmt

end AttrCheck
