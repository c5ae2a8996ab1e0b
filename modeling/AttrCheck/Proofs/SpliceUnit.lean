import AttrCheck.Proofs.SpliceSpecifier

/-! Whole texts under the splice. By induction on what is left of the text, all forms of statements
mend; a function ends with a block, so that behind it both readings are in front of the same text,
up to its end. -/

namespace AttrCheck

def TopLevel.stmts (item : TopLevel) : List Stmt :=
  item.function?.toList.flatMap fun f => f.body.preorder

namespace Parser

variable {α : Type} {σ : LabelSeam} {same : Prop} {P P' : Cursor → Cursor → Prop} {k n m : Nat}

theorem Mends.of_imp {p q : Parser Stmt} (h : Mends σ same P k p q)
    (hP : ∀ c d, P' c d → P c d) : Mends σ same P' k p q :=
  fun c d hl hp => h c d hl (hP c d hp)

def Away (σ : LabelSeam) (c d : Cursor) : Prop := σ.pairing.settled c d ∧ d ≠ σ.semicolon

theorem mends_semicolon {c : Cursor} (hl : σ.pairing.Linked same c σ.semicolon)
    (hsettled : σ.pairing.settled c σ.semicolon) (hc : c.rest.length < k) (hn : k ≤ n)
    {t : Stmt} {c' : Cursor} (ht : stmt n c = some (t, c')) :
    σ.Mended same k t c' (.null σ.loc) ⟨σ.loc.next ';', σ.rest⟩ := by
  have hrest := hsettled rfl
  obtain ⟨hlabel, _⟩ := Seam.linked_semicolon hl
  have hskip := Seam.skipLayout_labelled (hrest ▸ σ.labelled_label) c.loc
  obtain rfl : c = σ.label := hskip.symm.trans hlabel
  have hlen : σ.label.rest.length < n := Nat.lt_of_lt_of_le hc hn
  obtain ⟨rfl, rfl⟩ := Prod.mk.inj (Option.some.inj ((σ.read n hlen).symm.trans ht))
  refine ⟨.inr ⟨Stmt.mem_tails_self _, hc, rfl, rfl⟩, .of_stop_ne (fun attrs s range l hs => ?_) _⟩
  exact (Seam.loc_le_label.trans_lt (lt_stop_of_stmt ht hlen hs)).ne'

section Form

variable (h : ∀ s, Mends σ s σ.pairing.settled k (stmt n) (stmt m)) (hn : k ≤ n) (hm : k ≤ m)
include h hn hm

theorem mends_loopForms : Mends σ same P (k + 1)
    (rangeForStmt (n + 1) (stmt n) <|> forStmt (n + 1) (stmt n))
    (rangeForStmt (m + 1) (stmt m) <|> forStmt (m + 1) (stmt m)) := by
  have hn' := Nat.lt_succ_of_le hn
  have hm' := Nat.lt_succ_of_le hm
  intro c d hl hP hc t c' ht hfits helse
  obtain ht | ht := orElse_eq_some ht
  · obtain ⟨t', d', ht', hmended⟩ := mends_rangeForStmt h hn' hm' c d hl hP hc t c' ht hfits helse
    exact ⟨t', d', choice_of_some ht' _, hmended⟩
  · obtain ⟨t', d', ht', hmended⟩ := mends_forStmt h hn' hm' c d hl hP hc t c' ht hfits helse
    exact ⟨t', d', (choice_of_none (rangeForStmt_eq_none ht') _).trans ht', hmended⟩

theorem mends_stmtForms (hnm : n < m) :
    List.Forall₂ (fun f g => Mends σ same (Away σ) (k + 1) f.2 g.2)
    (stmtForms (n + 1) (stmt n)) (stmtForms (m + 1) (stmt m)) := by
  have hn' := Nat.lt_succ_of_le hn
  have hm' := Nat.lt_succ_of_le hm
  have hle := Nat.succ_le_succ hn
  have hle' := Nat.succ_le_succ hm
  refine .cons ((mends_annotatedStmt h hn hm).of_imp fun _ _ h => h.1) <|
    .cons ((mends_caseStmt h hn' hm').of_imp fun _ _ h => h.2) <|
    .cons ((mends_defaultStmt h).of_imp fun _ _ h => h.2) <|
    .cons (mends_compoundStmt h hn hm hnm) <|
    .cons (mends_ifStmt h hn hm) <|
    .cons (mends_conditionStmt h hn' hm' (by decide) (by decide) (by decide) trails_switch) <|
    .cons (mends_conditionStmt h hn' hm' (by decide) (by decide) (by decide) trails_whileLoop) <|
    .cons (mends_doStmt (consumes_stmt n).advances h hn' hm') <|
    .cons (mends_loopForms h hn hm) <|
    .cons (mends_wordStmt (by decide) (by decide) (by decide) fun _ => ⟨rfl, rfl⟩) <|
    .cons (mends_wordStmt (by decide) (by decide) (by decide) fun _ => ⟨rfl, rfl⟩) <|
    .cons (mends_returnStmt hle hle') <|
    .cons (mends_declStmt hle hle') <|
    .cons mends_nullStmt <|
    .cons (mends_exprStmt hle hle') .nil

end Form

theorem exists_of_forall₂ {γ δ : Type} {R : γ → δ → Prop} {as : List γ} {bs : List δ}
    (h : List.Forall₂ R as bs) {a : γ} (ha : a ∈ as) : ∃ b ∈ bs, R a b := by
  induction h with
  | nil => cases ha
  | cons hab _ ih =>
    obtain rfl | ha := List.mem_cons.mp ha
    · exact ⟨_, .head _, hab⟩
    · obtain ⟨b, hb, hab⟩ := ih ha
      exact ⟨b, .tail _ hb, hab⟩

theorem mends_stmt (hn : k ≤ n) (hm : k ≤ m) (hnm : n < m) :
    Mends σ same σ.pairing.settled k (stmt n) (stmt m) := by
  induction k generalizing n m same with
  | zero => exact fun c _ _ _ hc => absurd hc (Nat.not_lt_zero _)
  | succ k ih =>
    obtain ⟨n, rfl⟩ := Nat.exists_eq_add_of_le' (Nat.le_trans (Nat.le_add_left 1 k) hn)
    obtain ⟨m, rfl⟩ := Nat.exists_eq_add_of_le' (Nat.le_trans (Nat.le_add_left 1 k) hm)
    have hsub (s : Prop) : Mends σ s σ.pairing.settled k (stmt n) (stmt m) :=
      ih (Nat.le_of_succ_le_succ hn) (Nat.le_of_succ_le_succ hm) (Nat.lt_of_succ_lt_succ hnm)
    intro c d hl hsettled hc t c' ht hfits helse
    by_cases hd : d = σ.semicolon
    · subst hd
      exact ⟨_, _, stmt_semicolon m, mends_semicolon hl hsettled hc hn ht⟩
    · obtain ⟨f, hf, ht⟩ := exists_form_of_stmtWith ht
      obtain ⟨g, hg, hmends⟩ := exists_of_forall₂ (mends_stmtForms hsub
        (Nat.le_of_succ_le_succ hn) (Nat.le_of_succ_le_succ hm) (Nat.lt_of_succ_lt_succ hnm)) hf
      obtain ⟨t', d', ht', hmended⟩ := hmends c d hl ⟨hsettled, hd⟩ hc t c' ht hfits helse
      exact ⟨t', d', stmtWith_eq_some hg ht', hmended⟩

theorem gives_functionHead : Gives (functionHead n) fun make => ∀ t, (make t).body = t :=
  gives_bind fun _ => gives_bind fun _ => gives_bind fun _ => gives_bind fun _ =>
    gives_bind fun _ => gives_pure fun _ => rfl

theorem Consumes.eq_none {p : Parser α} (hp : Consumes p) {c : Cursor} (hc : c.rest = []) :
    p c = none := by
  cases hx : p c with
  | none => rfl
  | some x =>
    have hlt := length_lt_of_passes (hp c x.1 x.2 hx)
    rw [hc] at hlt
    exact absurd hlt (Nat.not_lt_zero _)

theorem rest_eq_nil_of_linked {c d : Cursor} (hl : σ.pairing.Linked same c d) (hc : c.rest = []) :
    d.rest = [] := by
  obtain ⟨_, hin⟩ | hapart := hl
  · cases hin with
    | before hz _ => exact absurd (List.append_eq_nil_iff.mp hc).1 hz.ne_nil
    | «at» => exact absurd hc Seam.rest_ne_nil
  · cases hapart with
    | ahead _ h =>
      have hlabel := σ.labelled_label
      rw [← h, hc] at hlabel
      exact absurd hlabel (by simp [skipLayout, front, frontWord])
    | behind _ hr _ => exact hr ▸ hc

section Unit

variable (hn : k < n) (hnm : n < m)
include hn hnm

theorem exists_function {c d c' : Cursor} {f : AttrCheck.Function}
    (hl : σ.pairing.Linked same c d) (hc : c.rest.length < k + 1)
    (hx : function n c = some (f, c')) (hfits : σ.Fits f.body) :
    ∃ f' d', function m d = some (f', d') ∧ σ.pairing.Linked (same ∧ f = f') c' d' ∧
      σ.Keeps f.body.preorder f'.body.preorder := by
  have hm := Nat.lt_trans hn hnm
  rw [function_eq] at hx
  obtain ⟨make, c₁, h₁, hx⟩ := bind_eq_some_iff.mp hx
  obtain ⟨body, c₂, h₂, hx⟩ := bind_eq_some_iff.mp hx
  obtain ⟨rfl, rfl⟩ := pure_eq_some_iff.mp hx
  rw [gives_functionHead c make c₁ h₁] at hfits ⊢
  have hrel := agree_functionHead lawful_seam hn hm c d hl nofun hc
  obtain ⟨⟨make', d₁⟩, g₁, hj⟩ := exists_of_rel hrel h₁
  obtain ⟨hl', _⟩ := Seam.linked_layout hj.linked
  have hlen := length_le_of_reaches (advances_layout c₁ () _ rfl)
  obtain ⟨body', d₂, g₂, hlinked, hkeeps⟩ := exists_compoundStmt
    (fun _ => mends_stmt (Nat.le_of_lt hn) (Nat.le_of_lt hm) hnm) (Nat.le_of_lt hn)
    (Nat.le_of_lt hm) (Nat.le_of_lt hn) hnm hl'
    (Nat.lt_of_le_of_lt (Nat.le_trans hlen hj.2) hc) h₂ hfits
  refine ⟨make' body', d₂, ?_, ?_, ?_⟩
  · rw [function_eq]
    exact bind_eq_some_iff.mpr ⟨make', d₁, g₁, bind_eq_some_iff.mpr ⟨body', d₂, g₂, rfl⟩⟩
  · refine hlinked.imp_left ?_
    rintro ⟨⟨⟨hs, hmake⟩, hbody⟩, hin⟩
    exact ⟨⟨hs, by rw [hmake, hbody]⟩, hin⟩
  · rw [gives_functionHead d make' d₁ g₁]
    exact hkeeps

theorem exists_topLevel {c d c' : Cursor} {item : TopLevel}
    (hl : σ.pairing.Linked same c d) (hc : c.rest.length < k + 1)
    (hx : topLevel n c = some (item, c')) (hfits : ∀ f ∈ item.function?, σ.Fits f.body) :
    ∃ item' d', topLevel m d = some (item', d') ∧
      σ.pairing.Linked (same ∧ item = item') c' d' ∧ σ.Keeps item.stmts item'.stmts := by
  have hm := Nat.lt_trans hn hnm
  obtain hx | hx := orElse_eq_some hx
  · obtain ⟨f, hf, rfl⟩ := map_eq_some_iff.mp hx
    obtain ⟨f', d', hf', hlinked, hkeeps⟩ := exists_function hn hnm hl hc hf (hfits f rfl)
    refine ⟨.function f', d', choice_of_some (map_eq_some_iff.mpr ⟨f', hf', rfl⟩) _,
      hlinked.imp_left ?_, ?_⟩
    · rintro ⟨⟨hs, hf⟩, hin⟩
      exact ⟨⟨hs, by rw [hf]⟩, hin⟩
    · simpa [TopLevel.stmts, TopLevel.function?] using hkeeps
  · obtain ⟨v, hv, rfl⟩ := map_eq_some_iff.mp hx
    obtain ⟨⟨v', d'⟩, hv', hj⟩ := follows_variableDecl (P := Anywhere) hn hm c d hl trivial hc
      (v, c') hv
    have hnone : (TopLevel.function <$> function m) d = none :=
      map_of_eq_none (function_eq_none hv') _
    refine ⟨.global v', d', (choice_of_none hnone _).trans (map_eq_some_iff.mpr ⟨v', hv', rfl⟩),
      hj.linked.imp_left ?_, ?_⟩
    · rintro ⟨⟨hs, hv⟩, hin⟩
      exact ⟨⟨hs, by rw [hv]⟩, hin⟩
    · exact .of_stop_ne (fun _ _ _ _ hmem => absurd hmem List.not_mem_nil) _

theorem exists_many_topLevel {j j' : Nat} {c d c' : Cursor} {items : List TopLevel}
    (hl : σ.pairing.Linked same c d) (hc : c.rest.length < k + 1) (hj : c.rest.length < j)
    (hj' : c.rest.length < j') (hx : many (topLevel n <* layout) j c = some (items, c'))
    (hend : c'.rest = []) (hfits : ∀ item ∈ items, ∀ f ∈ item.function?, σ.Fits f.body) :
    ∃ items' d', many (topLevel m <* layout) j' d = some (items', d') ∧ d'.rest = [] ∧
      σ.Keeps (items.flatMap TopLevel.stmts) (items'.flatMap TopLevel.stmts) := by
  induction j generalizing j' c d items same with
  | zero => exact absurd hj (Nat.not_lt_zero _)
  | succ j ih =>
    obtain ⟨j', rfl⟩ := Nat.exists_eq_add_of_le' (Nat.le_trans (Nat.le_add_left 1 _) hj')
    obtain ⟨item, c₁, items, h₁, hmore, rfl⟩ | ⟨_, rfl, rfl⟩ := many_succ_eq_some hx
    · obtain ⟨c₂, hitem, rfl⟩ := seqLayout_eq_some_iff.mp h₁
      obtain ⟨item', d₂, hitem', hlinked, hkeeps⟩ := exists_topLevel hn hnm hl hc hitem
        (hfits item (.head _))
      have hlt := length_lt_of_passes (consumes_topLevel n c item c₂ hitem)
      have hlen := length_le_of_reaches (advances_layout c₂ () _ rfl)
      obtain ⟨items', d', hmore', hend', hkeeps'⟩ := ih (Seam.linked_layout hlinked).1 (by omega)
        (by omega) (show (skipLayout .code c₂.loc c₂.rest).rest.length < j' by omega) hmore
        fun item hitem => hfits item (.tail _ hitem)
      have hround' := seqLayout_eq_some_iff.mpr ⟨d₂, hitem', rfl⟩
      simp only [List.flatMap_cons]
      exact ⟨item' :: items', d', many_of_some hround' hmore', hend', hkeeps.append hkeeps'⟩
    · have hrest := rest_eq_nil_of_linked hl hend
      have hnone : (topLevel m <* layout) d = none :=
        ((consumes_topLevel m).seqLeft advances_layout).eq_none hrest
      exact ⟨[], d, many_of_none hnone _, hrest,
        .of_stop_ne (fun _ _ _ _ hmem => absurd hmem List.not_mem_nil) _⟩

end Unit

end Parser

namespace SourceUnit

theorem stmts_ofItems (file : String) (items : List TopLevel) :
    (ofItems file items).functions.flatMap (fun f => f.body.preorder) =
      items.flatMap TopLevel.stmts := by
  show (items.filterMap TopLevel.function?).flatMap _ = _
  induction items with
  | nil => rfl
  | cons item items ih =>
    cases item <;> simp [List.filterMap_cons, TopLevel.function?, TopLevel.stmts, ih]

/-- Where a semicolon fits in front of the label, the text with it is accepted as the text without
it is. -/
theorem exists_parse {σ : LabelSeam} {file text text' : String} {before : List Char}
    (hbefore : Closed before) (hloc : (Loc.start file).after before = σ.loc)
    (htext : text.toList = before ++ σ.rest) (htext' : text'.toList = before ++ ';' :: σ.rest)
    {u : SourceUnit} (h : parse file text = .ok u) (hfits : ∀ f ∈ u.functions, σ.Fits f.body) :
    ∃ u', parse file text' = .ok u' ∧ σ.Keeps (u.functions.flatMap fun f => f.body.preorder)
      (u'.functions.flatMap fun f => f.body.preorder) := by
  obtain ⟨items, c, hitems, hend, rfl⟩ := exists_items_of_parse h
  have hlen : text'.toList.length = text.toList.length + 1 := by
    rw [htext, htext', List.length_append, List.length_append, List.length_cons, Nat.add_assoc]
  have hl : σ.pairing.Linked True (Cursor.ofText file text) (Cursor.ofText file text') := by
    rw [Cursor.ofText, Cursor.ofText, htext, htext']
    exact .inl ⟨trivial, .before hbefore hloc⟩
  obtain ⟨_, c₁, h₁, hitems⟩ := Parser.bind_eq_some_iff.mp hitems
  obtain ⟨_, rfl⟩ := Prod.mk.inj (Option.some.inj h₁)
  have hle := Parser.length_le_of_reaches (Parser.advances_layout _ () _ h₁)
  have hle : (skipLayout .code (Cursor.ofText file text).loc
    (Cursor.ofText file text).rest).rest.length ≤ text.toList.length := hle
  have hfits' : ∀ item ∈ items, ∀ f ∈ item.function?, σ.Fits f.body := fun item hitem f hf =>
    hfits f (List.mem_filterMap.mpr ⟨item, hitem, hf⟩)
  obtain ⟨items', d, hitems', hend', hkeeps⟩ := Parser.exists_many_topLevel
    (Nat.lt_succ_self text.toList.length) (by omega : _ < text'.toList.length + 1)
    (Seam.linked_layout hl).1 (Nat.lt_succ_of_le hle) (Nat.lt_succ_of_le hle)
    (by omega : _ < text'.toList.length + 1) hitems hend hfits'
  refine ⟨.ofItems file items', parse_of_items ?_ hend', ?_⟩
  · exact Parser.bind_eq_some_iff.mpr ⟨(), _, rfl, hitems'⟩
  · rw [stmts_ofItems, stmts_ofItems]
    exact hkeeps

end SourceUnit

end AttrCheck
