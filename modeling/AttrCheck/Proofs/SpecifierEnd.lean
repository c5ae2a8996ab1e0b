import AttrCheck.Proofs.Locality
import AttrCheck.Proofs.Nesting

/-! Where specifiers end. All but loop directives end with a closing bracket; the range of a loop
directive ends with that of its last option, in front of the end of its line. -/

namespace AttrCheck

theorem Closed.append (t : List Char) {z : List Char} (h : Closed z) : Closed (t ++ z) := by
  induction t with
  | nil => exact h
  | cons c t ih => exact ih.cons

namespace Cursor

def Closes (c c' : Cursor) : Prop :=
  ∃ t, Closed t ∧ c.rest = t ++ c'.rest ∧ c'.loc = c.loc.after t

variable {c c' c'' : Cursor}

theorem Closes.passes (h : c.Closes c') : c.Passes c' := by
  obtain ⟨t, ht, h⟩ := h
  exact ⟨t, ht.ne_nil, h⟩

theorem Reaches.trans_closes (h : c.Reaches c') (h' : c'.Closes c'') : c.Closes c'' := by
  obtain ⟨t, hr, hl⟩ := h
  obtain ⟨t', ht', hr', hl'⟩ := h'
  exact ⟨t ++ t', ht'.append t, by rw [hr, hr', List.append_assoc],
    by rw [hl', hl, Loc.after_append]⟩

end Cursor

namespace Parser

variable {α β : Type} {p : Parser α} {n : Nat} {inner : Parser Expr}

def Closing (p : Parser α) : Prop := ∀ c a c', p c = some (a, c') → c.Closes c'

theorem closing_symbol {s : String} (hs : Closed s.toList) : Closing (symbol s) := by
  intro c u c' h
  obtain ⟨t, ht, hl⟩ := advances_symbol s c u c' h
  have hrest := eq_append_of_symbol h
  rw [ht, List.append_cancel_right_eq] at hrest
  exact ⟨t, hrest ▸ hs, ht, hl⟩

namespace Closing

theorem bind {q : α → Parser β} (hp : Advances p) (hq : ∀ a, Closing (q a)) :
    Closing (p >>= q) := by
  intro c b c'' h
  obtain ⟨a, c', h, h'⟩ := bind_eq_some_iff.mp h
  exact (hp c a c' h).trans_closes (hq a c' b c'' h')

theorem andPure (h : Closing p) (f : α → β) : Closing (p >>= fun a => pure (f a)) := by
  intro c b c' e
  obtain ⟨a, c₁, h₁, e⟩ := bind_eq_some_iff.mp e
  obtain ⟨_, rfl⟩ := pure_eq_some_iff.mp e
  exact h c a c₁ h₁

theorem spaced (h : Closing p) : Closing (Parser.spaced p) := .bind advances_layout fun _ => h

theorem parens (h : Advances p) : Closing (Parser.parens p) :=
  .bind (advances_symbol _) fun _ => .bind h.spaced fun _ =>
    (closing_symbol (s := ")") (.last (.inl rfl))).spaced.andPure _

end Closing

theorem many_last {p : Parser α} (hp : Advances p) {c c' : Cursor} {as : List α}
    (h : many p n c = some (as, c')) :
    (as = [] ∧ c' = c) ∨ ∃ bs b d, as = bs ++ [b] ∧ c.Reaches d ∧ p d = some (b, c') := by
  induction n generalizing c as with
  | zero =>
    obtain ⟨rfl, rfl⟩ := pure_eq_some_iff.mp h
    exact .inl ⟨rfl, rfl⟩
  | succ n ih =>
    obtain ⟨a, c₁, as', h₁, h₂, rfl⟩ | ⟨_, rfl, rfl⟩ := many_succ_eq_some h
    · obtain ⟨rfl, rfl⟩ | ⟨bs, b, d, rfl, hd, hb⟩ := ih h₂
      · exact .inr ⟨[], a, c, rfl, .refl c, h₁⟩
      · exact .inr ⟨a :: bs, b, d, rfl, (hp c a c₁ h₁).trans hd, hb⟩
    · exact .inl ⟨rfl, rfl⟩

/-- The range of what is read between two cursors, the second of which ends it unless a loop
directive does. -/
structure Spans (c : Cursor) (spec : Specifier) (c' : Cursor) : Prop where
  start : spec.range.start = c.loc
  lt : c.loc < spec.range.stop
  le : spec.range.stop ≤ c'.loc
  ending : (spec.range.stop = c'.loc ∧ c.Closes c') ∨
    ∃ a ∈ spec.attrs, a.spelling = .pragma ∧ a.range.stop = spec.range.stop

theorem spans_specifier {p : Parser (List RawAttr)} (hp : Closing p) {c c' : Cursor}
    {spec : Specifier} (h : specifier p c = some (spec, c')) : Spans c spec c' := by
  rw [specifier, bind_here_apply] at h
  obtain ⟨attrs, c₁, h₁, h⟩ := bind_eq_some_iff.mp h
  rw [bind_here_apply] at h
  obtain ⟨rfl, rfl⟩ := pure_eq_some_iff.mp h
  have hcloses := hp c attrs c₁ h₁
  exact ⟨rfl, hcloses.passes.loc_lt, le_rfl, .inl ⟨rfl, hcloses⟩⟩

theorem loopOption_range {c c' : Cursor} {a : RawAttr}
    (h : loopOption inner c = some (a, c')) : a.spelling = .pragma ∧ a.range.stop = c'.loc := by
  obtain ⟨_, _, _, h⟩ := bind_eq_some_iff.mp h
  rw [bind_here_apply] at h
  obtain ⟨_, _, _, h⟩ := bind_eq_some_iff.mp h
  obtain ⟨_, _, _, h⟩ := bind_eq_some_iff.mp h
  obtain ⟨_, _, _, h⟩ := bind_eq_some_iff.mp h
  obtain ⟨_, _, _, h⟩ := bind_eq_some_iff.mp h
  obtain ⟨_, _, _, h⟩ := bind_eq_some_iff.mp h
  rw [bind_here_apply] at h
  obtain ⟨_, _, _, h⟩ := bind_eq_some_iff.mp h
  rw [bind_here_apply] at h
  obtain ⟨rfl, rfl⟩ := pure_eq_some_iff.mp h
  exact ⟨rfl, rfl⟩

theorem stop_of_options (ha : Advances inner) {c c' c'' : Cursor} {first : RawAttr}
    {more : List RawAttr} (h : loopOption inner c = some (first, c'))
    (h' : many (loopOption inner) n c' = some (more, c'')) : (more.getLastD first) ∈ first :: more ∧
      (more.getLastD first).spelling = .pragma ∧ (more.getLastD first).range.stop = c''.loc := by
  obtain ⟨rfl, rfl⟩ | ⟨bs, b, d, rfl, _, hb⟩ := many_last (consumes_loopOption ha).advances h'
  · exact ⟨.head _, loopOption_range h⟩
  · rw [List.getLastD_concat]
    exact ⟨by simp, loopOption_range hb⟩

theorem spans_loopSpecifier (ha : Advances inner) {c c' : Cursor} {spec : Specifier}
    (h : loopSpecifier n inner c = some (spec, c')) : Spans c spec c' := by
  rw [loopSpecifier, bind_here_apply] at h
  obtain ⟨_, c₁, h₁, h⟩ := bind_eq_some_iff.mp h
  obtain ⟨first, c₂, h₂, h⟩ := bind_eq_some_iff.mp h
  obtain ⟨more, c₃, h₃, h⟩ := bind_eq_some_iff.mp h
  obtain ⟨_, c₄, h₄, h⟩ := bind_eq_some_iff.mp h
  obtain ⟨_, c₅, h₅, h⟩ := bind_eq_some_iff.mp h
  obtain ⟨rfl, rfl⟩ := pure_eq_some_iff.mp h
  obtain ⟨hmem, hspelling, hstop⟩ := stop_of_options ha h₂ h₃
  have hopen := (consumes_loopDirective c () c₁ h₁).trans_reaches
    (((consumes_loopOption ha).advances c₁ first c₂ h₂).trans
      ((consumes_loopOption ha).advances.many n c₂ more c₃ h₃))
  have hend := (advances_run _ c₃ _ c₄ h₄).trans (advances_lineEnd c₄ () c₅ h₅)
  refine ⟨rfl, ?_, ?_, .inr ⟨_, hmem, hspelling, rfl⟩⟩
  · exact hopen.loc_lt.trans_le hstop.ge
  · exact hstop.le.trans hend.loc_le

theorem spans_anySpecifier (ha : Advances inner) {c c' : Cursor} {spec : Specifier}
    (h : anySpecifier n inner c = some (spec, c')) : Spans c spec c' := by
  obtain ⟨p, hp, h⟩ := firstOf_eq_some h
  simp only [List.mem_cons, List.not_mem_nil, or_false] at hp
  obtain rfl | rfl | rfl | rfl := hp
  · refine spans_specifier (.bind (advances_symbol _) fun _ => ?_) h
    exact .bind (advances_attributeList ha _).spaced fun _ =>
      (closing_symbol (s := "]]") (.cons (.last (.inr rfl)))).spaced.andPure _
  · refine spans_specifier (.bind (advances_keyword _) fun _ => ?_) h
    exact (Closing.parens (advances_attributeList ha _).parens).spaced
  · refine spans_specifier (.bind (advances_keyword _) fun _ => ?_) h
    exact (Closing.parens (advances_declspecList ha)).spaced
  · exact spans_loopSpecifier ha h

theorem spans_specifiers (ha : Advances inner) {c c' : Cursor} {spec : Specifier}
    (h : specifiers n inner c = some (spec, c')) : Spans c spec c' := by
  obtain ⟨first, c₁, h₁, h⟩ := bind_eq_some_iff.mp h
  obtain ⟨more, c₂, h₂, h⟩ := bind_eq_some_iff.mp h
  obtain ⟨rfl, rfl⟩ := pure_eq_some_iff.mp h
  have hfirst := spans_anySpecifier ha h₁
  obtain ⟨rfl, rfl⟩ | ⟨specs, last, d, rfl, hd, hlast⟩ :=
    many_last (consumes_anySpecifier ha).spaced.advances h₂
  · rw [List.flatMap_nil, List.append_nil]
    exact hfirst
  · obtain ⟨_, d', hd', hlast⟩ := bind_eq_some_iff.mp hlast
    have hspan := spans_anySpecifier ha hlast
    have hreach := ((consumes_anySpecifier ha).advances c first c₁ h₁).trans
      (hd.trans (advances_layout d () d' hd'))
    rw [List.getLastD_concat]
    refine ⟨hfirst.start, hreach.loc_le.trans_lt hspan.lt, hspan.le, ?_⟩
    refine hspan.ending.imp (fun h => ⟨h.1, hreach.trans_closes h.2⟩) ?_
    rintro ⟨a, ha, h⟩
    exact ⟨a, List.mem_append_right _ (List.mem_flatMap_of_mem (by simp) ha), h⟩

theorem exists_specifiers_of_stmt {c c' : Cursor} {attrs : List RawAttr} {sub : Stmt}
    {range : Range} {l : Loc} (h : stmt n c = some (.annotated attrs sub range l, c')) :
    ∃ m c₁, n = m + 1 ∧ specifiers (m + 1) (expr (m + 1)) c = some (⟨attrs, range⟩, c₁) ∧
      spaced (stmt m) c₁ = some (sub, c') := by
  cases n with
  | zero => cases h
  | succ m =>
    obtain ⟨spec, c₁, h₁, h⟩ := bind_eq_some_iff.mp (annotatedStmt_of_annotated h nofun)
    obtain ⟨t, c₂, h₂, h⟩ := bind_eq_some_iff.mp h
    obtain ⟨ht, rfl⟩ := pure_eq_some_iff.mp h
    injection ht with hattrs hsub hrange
    subst hattrs hsub hrange
    exact ⟨m, c₁, rfl, h₁, h₂⟩

theorem lt_stop_of_stmt {c c' : Cursor} {s : Stmt} (h : stmt n c = some (s, c'))
    (hn : c.rest.length < n) {attrs : List RawAttr} {sub : Stmt} {range : Range} {l : Loc}
    (hs : .annotated attrs sub range l ∈ s.preorder) : c.loc < range.stop := by
  obtain ⟨m, d, d', hd, _, hread⟩ | hsimple := exists_read_of_stmt h hn hs
  · obtain ⟨k, d₁, _, hspec, _⟩ := exists_specifiers_of_stmt hread
    exact hd.loc_le.trans_lt (spans_specifiers (advances_expr _) hspec).lt
  · cases hsimple.2

end Parser

end AttrCheck
