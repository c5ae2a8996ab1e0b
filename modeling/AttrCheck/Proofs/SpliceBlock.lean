import AttrCheck.Proofs.SpliceStmt

/-! Statements with others in front of their end, under the splice. What a label cannot stand at the
end of fits no longer; in a block, the label stands behind the statement that it was put off from. -/

namespace AttrCheck

namespace Parser

variable {α : Type} {σ : LabelSeam} {same : Prop} {P : Cursor → Cursor → Prop} {k n m : Nat}

theorem elseReads_of_spaced {q : Parser α} (hq : Begins q (· ≠ "else")) {c : Cursor}
    {x : α × Cursor} (h : spaced q c = some x) : ElseReads c := by
  refine .inl ?_
  have hbegins : Begins (keyword "else") (· = "else") := begins_keyword (by decide)
  obtain ⟨_, c₁, h₁, h⟩ := bind_eq_some_iff.mp (Prod.eta x ▸ h)
  have hnone := hq.eq_none hbegins (fun w hw hw' => hw hw') h
  show (keyword "else") (skipLayout .code c.loc c.rest) = none
  obtain ⟨_, rfl⟩ := Prod.mk.inj (Option.some.inj h₁)
  exact hnone

theorem ElseReads.eq_none {c : Cursor} (h : ElseReads c) (hn : c.rest.length < n)
    (hnone : elseClause (stmt n) c = none) : spaced (keyword "else") c = none := by
  obtain h | ⟨m, x, hm, hx⟩ := h
  · exact h
  · have halike : Alike True (c.rest.length + 1) (elseClause (stmt m)) (elseClause (stmt n)) :=
      (alike_keyword "else").spaced.bind fun _ _ _ => (alike_stmt hm hn).spaced
    rw [halike.eq (Nat.lt_succ_self _), hnone] at hx
    cases hx

def whileClause (n : Nat) : Parser Expr := do
  spaced (keyword "while")
  let cond ← condition n
  spaced (symbol ";")
  return cond

theorem doStmt_eq (n : Nat) (sub : Parser Stmt) : doStmt n sub = (do
    let start ← here
    keyword "do"
    let body ← spaced sub
    (fun cond => Stmt.doWhile body cond start) <$> whileClause n) := by
  simp only [doStmt, whileClause, map_bind, map_pure]

theorem follows_whileClause (hn : k ≤ n) (hm : k ≤ m) :
    Follows σ same P k (whileClause n) (whileClause m) :=
  (follows_keyword (by decide) (by decide) (by decide)).spaced.seq <|
    (agree_condition lawful_seam hn hm).follows.bind fun _ _ =>
      follows_semicolon.spaced.bind fun _ _ => follows_pure fun hs => hs.1.2

theorem mends_doStmt {sub sub' : Parser Stmt} (ha : Advances sub)
    (h : ∀ s, Mends σ s σ.pairing.settled k sub sub') (hn : k < n) (hm : k < m) :
    Mends σ same P (k + 1) (doStmt n sub) (doStmt m sub') := by
  rw [doStmt_eq, doStmt_eq]
  refine .worded (by decide) (fun _ => follows_keyword (by decide) (by decide) (by decide))
    fun start start' => ?_
  intro c d hl hP hc t c' ht hfits _
  obtain ⟨body, c₁, h₁, ht⟩ := bind_eq_some_iff.mp ht
  obtain ⟨cond, hcond, rfl⟩ := map_eq_some_iff.mp ht
  have hwhile : ElseReads c₁ := by
    have hbegins : Begins (keyword "while") (· ≠ "else") :=
      (begins_keyword (by decide)).mono fun w hw => hw ▸ by decide
    obtain ⟨_, _, hwhile, _⟩ := bind_eq_some_iff.mp hcond
    exact elseReads_of_spaced hbegins hwhile
  have hbody : body ∈ (Stmt.doWhile body cond start).preorder :=
    Stmt.mem_preorder_of_child (.head _) (Stmt.mem_preorder_self body)
  obtain ⟨body', d₁, h₁', hlinked | hpending, hkeeps⟩ := (h _).spaced c d hl hP hc body c₁ h₁
    (hfits.of_mem hbody) hwhile
  · have hlen := length_le_of_reaches (ha.spaced c body c₁ h₁)
    obtain ⟨⟨cond', d'⟩, hcond', hj⟩ := follows_whileClause (P := Anywhere)
      (Nat.le_of_lt hn) (Nat.le_of_lt hm) c₁ d₁ hlinked trivial (Nat.lt_of_le_of_lt hlen hc)
      (cond, c') hcond
    refine ⟨.doWhile body' cond' start', d', bind_eq_some_iff.mpr ⟨body', d₁, h₁',
      map_eq_some_iff.mpr ⟨cond', hcond', rfl⟩⟩, .inl ?_, .of_children rfl ?_⟩
    · exact hj.linked.imp_left fun ⟨⟨⟨⟨hs, hstart⟩, hbody⟩, hcond⟩, hin⟩ =>
        ⟨⟨⟨hs, hstart⟩, by rw [hstart, hbody, hcond]⟩, hin⟩
    · simpa [Stmt.children] using hkeeps
  · exact absurd hpending.1 (hfits.loop body cond start (Stmt.mem_preorder_self _))

theorem else_eq_none_of_pending {c d : Cursor} {t : Stmt} (h : σ.Pending k t c d) :
    spaced (keyword "else") d = none := by
  have hbegins : Begins (keyword "else") (· = "else") := begins_keyword (by decide)
  have hrest := rest_skipLayout_eq .code d.loc σ.loc σ.rest
  show (keyword "else") (skipLayout .code d.loc d.rest) = none
  rw [h.2.2.2] at hrest ⊢
  cases hx : (keyword "else") (skipLayout .code (σ.loc.next ';') σ.rest) with
  | none => rfl
  | some x =>
    have hfront := hbegins _ x.1 x.2 hx
    rw [hrest] at hfront
    have hall : "else" ∉ ["case", "default"] := by decide
    exact absurd σ.labelled_label (hfront ▸ hall)

theorem mends_ifStmt (h : ∀ s, Mends σ s σ.pairing.settled k (stmt n) (stmt m)) (hn : k ≤ n)
    (hm : k ≤ m) :
    Mends σ same P (k + 1) (ifStmt (n + 1) (stmt n)) (ifStmt (m + 1) (stmt m)) := by
  refine .worded (by decide) (fun _ => follows_keyword (by decide) (by decide) (by decide))
    fun start start' => (agree_condition lawful_seam (Nat.le_succ_of_le hn)
      (Nat.le_succ_of_le hm)).follows.mends fun cond cond' => ?_
  intro c d hl _ hc t c' ht hfits helse
  obtain ⟨yes, c₁, h₁, ht⟩ := bind_eq_some_iff.mp ht
  obtain ⟨no, c₂, h₂, ht⟩ := bind_eq_some_iff.mp ht
  obtain ⟨rfl, rfl⟩ := pure_eq_some_iff.mp ht
  have hyes : yes ∈ (Stmt.ifElse cond yes no start).preorder :=
    Stmt.mem_preorder_of_child (.head _) (Stmt.mem_preorder_self yes)
  have hlen := length_le_of_reaches ((consumes_stmt n).advances.spaced c yes c₁ h₁)
  have hlt := Nat.lt_of_le_of_lt hlen hc
  have helseword (s : Prop) : Agree σ.pairing s False k (spaced (keyword "else"))
      (spaced (keyword "else")) :=
    Agree.spaced lawful_seam (agree_keyword (by decide) (by decide) (by decide))
  change maybe (elseClause (stmt n)) c₁ = some (no, c₂) at h₂
  cases hno : elseClause (stmt n) c₁ with
  | none =>
    obtain ⟨rfl, rfl⟩ := Prod.mk.inj (Option.some.inj ((maybe_of_none hno).symm.trans h₂))
    have hnone := helse.eq_none (Nat.lt_of_lt_of_le hlt hn) hno
    obtain ⟨yes', d₁, h₁', hmended, hkeeps⟩ := (h _).spaced (P := Anywhere) c d hl trivial hc
      yes c₁ h₁ (hfits.of_mem hyes) helse
    have hnone' : elseClause (stmt m) d₁ = none := by
      have hword : spaced (keyword "else") d₁ = none := by
        obtain hlinked | hpending := hmended
        · have hrel := helseword _ c₁ d₁ hlinked nofun hlt
          rw [hnone] at hrel
          cases hd : spaced (keyword "else") d₁ with
          | none => rfl
          | some y =>
            rw [hd] at hrel
            cases hrel
        · exact else_eq_none_of_pending hpending
      exact bind_of_eq_none hword _
    refine ⟨.ifElse cond' yes' none start', d₁, bind_eq_some_iff.mpr ⟨yes', d₁, h₁',
      bind_eq_some_iff.mpr ⟨none, d₁, maybe_of_none hnone', rfl⟩⟩, hmended.imp ?_ ?_,
      .of_children rfl ?_⟩
    · refine fun h => h.imp_left ?_
      rintro ⟨⟨⟨⟨hs, hstart⟩, hcond⟩, hyes⟩, hin⟩
      exact ⟨⟨⟨⟨hs, hstart⟩, hcond⟩, by rw [hstart, hcond, hyes]⟩, hin⟩
    · exact fun h => ⟨.tail _ h.1, h.2⟩
    · simpa [Stmt.children] using hkeeps
  | some x =>
    obtain ⟨branch, c₃⟩ := x
    obtain ⟨rfl, rfl⟩ := Prod.mk.inj (Option.some.inj ((maybe_of_some hno).symm.trans h₂))
    obtain ⟨yes', d₁, h₁', hlinked | hpending, hkeeps⟩ := (h _).spaced (P := Anywhere) c d hl
      trivial hc yes c₁ h₁ (hfits.of_mem hyes) (.inr ⟨n, _, Nat.lt_of_lt_of_le hlt hn, hno⟩)
    · obtain ⟨_, c₄, h₄, h₅⟩ := bind_eq_some_iff.mp hno
      obtain ⟨⟨_, d₄⟩, h₄', hj⟩ := (helseword _).follows (P := Anywhere) c₁ d₁ hlinked trivial hlt
        ((), c₄) h₄
      have hmem : branch ∈ (Stmt.ifElse cond yes branch start).preorder :=
        Stmt.mem_preorder_of_child (.tail _ (.head _)) (Stmt.mem_preorder_self branch)
      obtain ⟨branch', d₃, h₅', hmended, hkeeps'⟩ := (h _).spaced (P := Anywhere) c₄ d₄ hj.linked
        trivial (Nat.lt_of_le_of_lt hj.2 hlt) branch c₃ h₅ (hfits.of_mem hmem) helse
      have hclause : elseClause (stmt m) d₁ = some (branch', d₃) :=
        bind_eq_some_iff.mpr ⟨(), d₄, h₄', h₅'⟩
      refine ⟨.ifElse cond' yes' branch' start', d₃, bind_eq_some_iff.mpr ⟨yes', d₁, h₁',
        bind_eq_some_iff.mpr ⟨some branch', d₃, maybe_of_some hclause, rfl⟩⟩, hmended.imp ?_ ?_,
        .of_children rfl ?_⟩
      · refine fun h => h.imp_left ?_
        rintro ⟨⟨⟨⟨⟨⟨hs, hstart⟩, hcond⟩, hyes⟩, _⟩, hbranch⟩, hin⟩
        exact ⟨⟨⟨⟨hs, hstart⟩, hcond⟩, by rw [hstart, hcond, hyes, hbranch]⟩, hin⟩
      · exact fun h => ⟨.tail _ h.1, h.2⟩
      · simpa [Stmt.children] using hkeeps.append hkeeps'
    · exact absurd hpending.1 (hfits.branch cond yes branch start (Stmt.mem_preorder_self _))

theorem front_of_linked {c d : Cursor} (h : σ.pairing.Linked same c d) (hd : d ≠ σ.semicolon) :
    front d.rest = front c.rest := by
  obtain ⟨_, hin⟩ | hapart := h
  · cases hin with
    | before hz _ => exact (front_closed hz _).trans (front_closed hz _).symm
    | «at» => exact absurd rfl hd
  · cases hapart with
    | ahead => exact absurd rfl hd
    | behind _ hr _ => rw [hr]

theorem front_of_close {c d c' : Cursor} {u : Unit} (h : σ.pairing.Linked same c d)
    (hsettled : σ.pairing.settled c d) (hclose : symbol "\x7d" c = some (u, c')) :
    front d.rest = "\x7d" := by
  have hfront : front c.rest = "\x7d" := begins_symbol (by decide) c u c' hclose
  refine (front_of_linked h fun hd => ?_).trans hfront
  have hall : "\x7d" ∉ ["case", "default"] := by decide
  have hlabel := σ.labelled_label
  rw [← hsettled hd, hfront] at hlabel
  exact hall hlabel

theorem passes_stop : σ.label.Passes σ.stop :=
  consumes_stmt _ _ _ _ (σ.read _ (Nat.lt_succ_self _))

theorem loc_lt_stop : σ.loc < σ.stop.loc := Seam.loc_le_label.trans_lt passes_stop.loc_lt

theorem length_stop_le : σ.stop.rest.length ≤ σ.rest.length := by
  have hlabel := length_le_of_reaches (advances_layout ⟨σ.loc, σ.rest⟩ () σ.label rfl)
  exact Nat.le_trans (Nat.le_of_lt (length_lt_of_passes passes_stop)) hlabel

theorem read_of_pending {c d : Cursor} {t : Stmt} (h : σ.Pending k t c d) (hm : k ≤ m) :
    ∃ s e, stmt m (skipLayout .code d.loc d.rest) = some (s, e) ∧ e.rest = c.rest := by
  obtain ⟨_, hlen, rfl, rfl⟩ := h
  have hrest := rest_skipLayout_eq .code (σ.loc.next ';') σ.loc σ.rest
  have halike : Alike False k (stmt k) (stmt m) := alike_stmt (Nat.le_refl k) hm
  have hrel := halike σ.label (skipLayout .code (σ.loc.next ';') σ.rest) (.inr ⟨id, hrest.symm⟩)
    nofun hlen
  obtain ⟨⟨s, e⟩, hread, hj⟩ := exists_of_rel hrel (σ.read k hlen)
  exact ⟨s, e, hread, hj.1.elim (fun h => h.1.elim) fun h => h.2.symm⟩

theorem elseReads_of_many {j : Nat} {c c₁ c₂ : Cursor} {body : List Stmt} {u : Unit}
    (hmany : many (stmt n <* layout) j (skipLayout .code c.loc c.rest) = some (body, c₁))
    (hclose : symbol "\x7d" c₁ = some (u, c₂)) : ElseReads c := by
  have hbrace : Begins (symbol "\x7d") (· ≠ "else") :=
    (begins_symbol (by decide)).mono fun w hw => hw ▸ by decide
  have hstmt : Begins (stmt n) (· ≠ "else") :=
    (begins_stmt n).mono fun w hw hw' => hw (hw' ▸ .tail _ (.head _))
  have hspaced {β : Type} {q : Parser β} (hq : Begins q (· ≠ "else")) {x : β × Cursor}
      (h : q (skipLayout .code c.loc c.rest) = some x) : ElseReads c :=
    elseReads_of_spaced hq (bind_eq_some_iff.mpr ⟨(), _, rfl, Prod.eta x ▸ h⟩)
  cases j with
  | zero =>
    obtain ⟨rfl, rfl⟩ := pure_eq_some_iff.mp hmany
    exact hspaced hbrace hclose
  | succ j =>
    obtain ⟨t, c₃, _, ht, _, _⟩ | ⟨_, _, rfl⟩ := many_succ_eq_some hmany
    · exact hspaced hstmt.bind ht
    · exact hspaced hbrace hclose

theorem keeps_of_many {j : Nat} {c c' : Cursor} {body : List Stmt}
    (hmany : many (stmt n <* layout) j c = some (body, c')) (hc : σ.loc < c.loc)
    (hn : c.rest.length < n) (qs : List Stmt) : σ.Keeps (body.flatMap Stmt.preorder) qs := by
  refine .of_stop_ne (fun attrs sub range l hmem hstop => ?_) qs
  obtain ⟨t, ht, hmem⟩ := List.mem_flatMap.mp hmem
  obtain ⟨d, d', hd, hround⟩ :=
    many_eq_some ((consumes_stmt n).seqLeft advances_layout).advances hmany ht
  obtain ⟨e, hread, _⟩ := seqLayout_eq_some_iff.mp hround
  have hlt := lt_stop_of_stmt hread (Nat.lt_of_le_of_lt (length_le_of_reaches hd) hn) hmem
  rw [hstop] at hlt
  exact lt_irrefl _ ((hc.trans_le hd.loc_le).trans hlt)

section Block

variable (h : ∀ s, Mends σ s σ.pairing.settled k (stmt n) (stmt m)) (hn : k ≤ n) (hm : k ≤ m)

include hn hm in
theorem exists_many_of_pending {j j' : Nat} (hj : j < j') {c d c₁ : Cursor} {t : Stmt}
    {body : List Stmt} (h : σ.Pending k t c d) (hc : c.rest.length < j)
    (hmany : many (stmt n <* layout) j (skipLayout .code c.loc c.rest) = some (body, c₁)) :
    ∃ body' d₁, many (stmt m <* layout) j' (skipLayout .code d.loc d.rest) = some (body', d₁) ∧
      σ.pairing.apart c₁ d₁ ∧
      σ.Keeps (body.flatMap Stmt.preorder) (body'.flatMap Stmt.preorder) := by
  obtain ⟨j', rfl⟩ := Nat.exists_eq_add_of_le' (Nat.le_trans (Nat.le_add_left 1 _) hj)
  obtain ⟨s, e, hs, he⟩ := read_of_pending h hm
  obtain ⟨_, hlabel, rfl, rfl⟩ := h
  have hround : Advances (stmt n <* layout) :=
    ((consumes_stmt n).seqLeft advances_layout).advances
  have hlayout := advances_layout σ.stop () _ rfl
  have hreach := hlayout.trans (hround.many j _ body c₁ hmany)
  have hlen := length_le_of_reaches hlayout
  have hstop := length_lt_of_passes (passes_stop (σ := σ))
  have hrest : (skipLayout .code σ.stop.loc σ.stop.rest).rest =
      (skipLayout .code e.loc e.rest).rest := by
    rw [he]
    exact rest_skipLayout_eq .code _ _ _
  have halike : Alike False ((skipLayout .code σ.stop.loc σ.stop.rest).rest.length + 1)
      (many (stmt n <* layout) j) (many (stmt m <* layout) j') :=
    ((alike_stmt (by omega) (by omega)).seqLeft alike_layout).many
      ((consumes_stmt n).seqLeft advances_layout) (by omega) (by omega)
  have hrel := halike _ (skipLayout .code e.loc e.rest) (.inr ⟨id, hrest⟩) nofun
    (Nat.lt_succ_self _)
  obtain ⟨⟨body', d₁⟩, hmany', hj⟩ := exists_of_rel hrel hmany
  refine ⟨s :: body', d₁, many_of_some (seqLayout_eq_some_iff.mpr ⟨e, hs, rfl⟩) hmany', ?_, ?_⟩
  · exact .behind (loc_lt_stop.trans_le hreach.loc_le) (hj.1.elim (fun h => h.1.elim) fun h => h.2)
      (Nat.le_trans (length_le_of_reaches hreach) length_stop_le)
  · exact keeps_of_many hmany (loc_lt_stop.trans_le hlayout.loc_le) (by omega) _

include h hn hm in
theorem mends_many {j j' : Nat} (hj : j < j') {c d c₁ c₂ : Cursor} {body : List Stmt} {u : Unit}
    (hl : σ.pairing.Linked same c d) (hsettled : σ.pairing.settled c d) (hc : c.rest.length < k)
    (hcj : c.rest.length < j) (hbody : many (stmt n <* layout) j c = some (body, c₁))
    (hclose : symbol "\x7d" c₁ = some (u, c₂)) (hfits : ∀ s ∈ body, σ.Fits s) :
    ∃ body' d₁, many (stmt m <* layout) j' d = some (body', d₁) ∧
      σ.pairing.Linked (same ∧ body = body') c₁ d₁ ∧
      σ.Keeps (body.flatMap Stmt.preorder) (body'.flatMap Stmt.preorder) := by
  induction j generalizing j' c d body same with
  | zero => exact absurd hcj (Nat.not_lt_zero _)
  | succ j ih =>
    obtain ⟨j', rfl⟩ := Nat.exists_eq_add_of_le' (Nat.le_trans (Nat.le_add_left 1 _) hj)
    have hj := Nat.lt_of_succ_lt_succ hj
    obtain ⟨t, c₃, body, hround, hmany, rfl⟩ | ⟨_, rfl, rfl⟩ := many_succ_eq_some hbody
    · obtain ⟨e, ht, rfl⟩ := seqLayout_eq_some_iff.mp hround
      have hlt := length_lt_of_passes (consumes_stmt n c t e ht)
      have hlen := length_le_of_reaches (advances_layout e () _ rfl)
      obtain ⟨t', e', ht', hmended, hkeeps⟩ := h same c d hl hsettled hc t e ht
        (hfits t (.head _)) (elseReads_of_many hmany hclose)
      have hround' := seqLayout_eq_some_iff.mpr ⟨e', ht', rfl⟩
      simp only [List.flatMap_cons]
      obtain hlinked | hpending := hmended
      · obtain ⟨hl', hsettled'⟩ := Seam.linked_layout hlinked
        obtain ⟨body', d₁, hmany', hlinked', hkeeps'⟩ := ih hj hl' hsettled' (by omega) (by omega)
          hmany fun s hs => hfits s (.tail _ hs)
        refine ⟨t' :: body', d₁, many_of_some hround' hmany', hlinked'.imp_left ?_,
          hkeeps.append hkeeps'⟩
        exact fun ⟨⟨⟨hs, ht⟩, hbody⟩, hin⟩ => ⟨⟨hs, by rw [ht, hbody]⟩, hin⟩
      · obtain ⟨body', d₁, hmany', hapart, hkeeps'⟩ :=
          exists_many_of_pending hn hm hj hpending (by omega) hmany
        exact ⟨t' :: body', d₁, many_of_some hround' hmany', .inr hapart, hkeeps.append hkeeps'⟩
    · have hnone : (stmt m <* layout) d = none := by
        have hfront := front_of_close hl hsettled hclose
        cases hd : stmt m d with
        | none => exact bind_of_eq_none hd _
        | some x => exact absurd (hfront ▸ .head _) (begins_stmt m d x.1 x.2 hd)
      refine ⟨[], d, many_of_none hnone _, hl.imp_left fun h => ⟨⟨h.1, rfl⟩, h.2⟩, ?_⟩
      exact .of_stop_ne (fun _ _ _ _ hmem => absurd hmem List.not_mem_nil) _

include h hn hm in
theorem exists_compoundStmt {j j' : Nat} (hk : k ≤ j) (hj : j < j') {c d c' : Cursor} {t : Stmt}
    (hl : σ.pairing.Linked same c d) (hc : c.rest.length < k + 1)
    (ht : compoundStmt j (stmt n) c = some (t, c')) (hfits : σ.Fits t) :
    ∃ t' d', compoundStmt j' (stmt m) d = some (t', d') ∧
      σ.pairing.Linked (same ∧ t = t') c' d' ∧ σ.Keeps t.preorder t'.preorder := by
  have hopen (s : Prop) : Agree σ.pairing s False (k + 1) (symbol "\x7b") (symbol "\x7b") :=
    agree_symbol_of_fits (by decide) (by decide) (by decide) (by decide)
  have hclose (s : Prop) : Agree σ.pairing s False k (symbol "\x7d") (symbol "\x7d") :=
    agree_symbol_of_fits (by decide) (by decide) (by decide) (by decide)
  rw [compoundStmt, bind_here_apply] at ht
  obtain ⟨_, c₁, h₁, ht⟩ := bind_eq_some_iff.mp ht
  obtain ⟨_, c₂, h₂, ht⟩ := bind_eq_some_iff.mp ht
  obtain ⟨body, c₃, h₃, ht⟩ := bind_eq_some_iff.mp ht
  obtain ⟨_, c₄, h₄, ht⟩ := bind_eq_some_iff.mp ht
  obtain ⟨rfl, rfl⟩ := pure_eq_some_iff.mp ht
  obtain ⟨_, rfl⟩ := Prod.mk.inj (Option.some.inj h₂)
  obtain ⟨⟨_, d₁⟩, g₁, hj₁⟩ := exists_of_rel (hopen _ c d hl.here False.elim hc) h₁
  have hlt := length_lt_of_passes (consumes_symbol (by decide) c () c₁ h₁)
  have hlen := length_le_of_reaches (advances_layout c₁ () _ rfl)
  have hbody : ∀ s ∈ body, s ∈ (Stmt.compound body c.loc).preorder := fun s hs =>
    Stmt.mem_preorder_of_child hs (Stmt.mem_preorder_self s)
  obtain ⟨hl', hsettled⟩ := Seam.linked_layout hj₁.linked
  obtain ⟨body', d₃, g₃, hlinked, hkeeps⟩ := mends_many h hn hm hj hl' hsettled (by omega) (by omega)
    h₃ h₄ fun s hs => hfits.of_mem (hbody s hs)
  have hreach := length_le_of_reaches
    (((consumes_stmt n).seqLeft advances_layout).advances.many j _ body c₃ h₃)
  obtain ⟨⟨_, d₄⟩, g₄, hj₄⟩ := exists_of_rel (hclose _ c₃ d₃ hlinked False.elim (by omega)) h₄
  refine ⟨.compound body' d.loc, d₄, ?_, ?_, .of_children rfl hkeeps⟩
  · rw [compoundStmt, bind_here_apply]
    exact bind_eq_some_iff.mpr ⟨(), d₁, g₁, bind_eq_some_iff.mpr ⟨(), _, rfl,
      bind_eq_some_iff.mpr ⟨body', d₃, g₃, bind_eq_some_iff.mpr ⟨(), d₄, g₄, rfl⟩⟩⟩⟩
  · refine hj₄.linked.imp_left ?_
    rintro ⟨⟨⟨⟨⟨hs, hstart⟩, _⟩, hbody⟩, _⟩, hin⟩
    exact ⟨⟨hs, by rw [hstart, hbody]⟩, hin⟩

include h hn hm in
theorem mends_compoundStmt (hnm : n < m) :
    Mends σ same P (k + 1) (compoundStmt (n + 1) (stmt n)) (compoundStmt (m + 1) (stmt m)) := by
  intro c d hl _ hc t c' ht hfits _
  obtain ⟨t', d', ht', hlinked, hkeeps⟩ := exists_compoundStmt h hn hm (Nat.le_succ_of_le hn)
    (Nat.succ_lt_succ hnm) hl hc ht hfits
  exact ⟨t', d', ht', .inl hlinked, hkeeps⟩

end Block

end Parser

end AttrCheck
