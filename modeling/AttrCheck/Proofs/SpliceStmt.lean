import AttrCheck.Proofs.Splice

/-! The forms of statements under the splice, but for those with attributes. -/

namespace AttrCheck

namespace Parser

variable {α : Type} {σ : LabelSeam} {same : Prop} {P : Cursor → Cursor → Prop} {k n m : Nat}

def loopInitForms (n : Nat) : List ((String → Prop) × Parser (Option Stmt)) :=
  [((· ∈ typeFronts), some <$> declStmt n), ((· ∉ statementFronts), some <$> exprStmt n),
    ((· = ";"), nullStmt *> pure none)]

theorem loopInit_eq_some {f : (String → Prop) × Parser (Option Stmt)} (hf : f ∈ loopInitForms n)
    {c : Cursor} {x : Option Stmt × Cursor} (hx : f.2 c = some x) : loopInit n c = some x := by
  show firstOf ((loopInitForms n).map Prod.snd) c = some x
  refine firstOf_eq_some_of_begins ?_ ?_ hf hx
  · intro f hf
    simp only [loopInitForms, List.mem_cons, List.not_mem_nil, or_false] at hf
    obtain rfl | rfl | rfl := hf
    · exact begins_declStmt.map some
    · exact begins_exprStmt.map some
    · exact begins_nullStmt.bind
  · have htypes : ∀ w ∈ typeFronts, w ∈ statementFronts ∧ w ≠ ";" := by decide
    have hnull : ";" ∈ statementFronts := by decide
    refine List.pairwise_cons.mpr ⟨?_, List.pairwise_pair.mpr ?_⟩
    · simp only [List.mem_cons, List.not_mem_nil, or_false, forall_eq_or_imp, forall_eq]
      exact ⟨fun w hw => not_not.mpr (htypes w hw).1, fun w hw => (htypes w hw).2⟩
    · exact fun w hw hw' => hw (hw' ▸ hnull)

theorem follows_loopInit (hn : k ≤ n) (hm : k ≤ m) :
    Follows σ same P k (loopInit n) (loopInit m) := by
  intro c d hl hP hc x hx
  obtain ⟨p, hp, hx⟩ := firstOf_eq_some (Prod.eta x ▸ hx)
  have hform {f : (String → Prop) × Parser (Option Stmt)} (hf : f ∈ loopInitForms m)
      {p : Parser (Option Stmt)} (h : Follows σ same P k p f.2) (hx : p c = some x) :
      ∃ y, loopInit m d = some y ∧ σ.pairing.Joint same c.rest x y := by
    obtain ⟨y, hy, hj⟩ := h c d hl hP hc x hx
    exact ⟨y, loopInit_eq_some hf hy, hj⟩
  have hsome {p q : Parser Stmt} (h : Follows σ same P k p q) :
      Follows σ same P k (some <$> p) (some <$> q) :=
    h.bind fun _ _ => follows_pure fun hs => congrArg some hs.2
  simp only [List.mem_cons, List.not_mem_nil, or_false] at hp
  obtain rfl | rfl | rfl := hp
  · exact hform (.head _) (hsome (follows_declStmt hn hm)) hx
  · exact hform (.tail _ (.head _)) (hsome (follows_exprStmt hn hm)) hx
  · have hnull : Follows σ same P k (nullStmt *> pure none) (nullStmt *> pure (none : Option Stmt)) :=
      (agree_here.follows.bind fun _ _ => follows_semicolon.seq (follows_pure fun hs => by
        rw [hs.2])).seq (follows_pure fun _ => rfl)
    exact hform (.tail _ (.tail _ (.head _))) hnull hx

/-- Ways to make a statement that ends where the one put into it ends. -/
structure Trails (inits : List Stmt) (make : Stmt → Stmt) : Prop where
  plain : ∀ t, (make t).annotation? = none
  children : ∀ t, (make t).children = inits ++ [t]
  tails : ∀ t, (make t).tails = make t :: t.tails

theorem trails_caseLabel (value : Expr) (l : Loc) : Trails [] fun s => .caseLabel value s l :=
  ⟨fun _ => rfl, fun _ => rfl, fun _ => rfl⟩

theorem trails_defaultLabel (l : Loc) : Trails [] fun s => .defaultLabel s l :=
  ⟨fun _ => rfl, fun _ => rfl, fun _ => rfl⟩

theorem trails_switch (cond : Expr) (l : Loc) : Trails [] fun s => .switch cond s l :=
  ⟨fun _ => rfl, fun _ => rfl, fun _ => rfl⟩

theorem trails_whileLoop (cond : Expr) (l : Loc) : Trails [] fun s => .whileLoop cond s l :=
  ⟨fun _ => rfl, fun _ => rfl, fun _ => rfl⟩

theorem trails_rangeFor (var : String) (range : Expr) (type : String) (l : Loc) :
    Trails [] fun s => .rangeFor var range s type l :=
  ⟨fun _ => rfl, fun _ => rfl, fun _ => rfl⟩

theorem trails_forLoop (init : Option Stmt) (cond step : Option Expr) (l : Loc) :
    Trails init.toList fun s => .forLoop init cond step s l :=
  ⟨fun _ => rfl, fun _ => rfl, fun _ => rfl⟩

theorem Mends.spaced {p q : Parser Stmt} (h : Mends σ same σ.pairing.settled k p q) :
    Mends σ same P k (Parser.spaced p) (Parser.spaced q) := by
  intro c d hl _ hc t c' ht hfits helse
  have hlen := length_le_of_reaches (advances_layout c () _ rfl)
  obtain ⟨hl', hsettled⟩ := Seam.linked_layout hl
  exact h _ _ hl' hsettled (Nat.lt_of_le_of_lt hlen hc) t c' ht hfits helse

theorem Mends.last {p q : Parser Stmt} (h : Mends σ same σ.pairing.settled k p q)
    {inits inits' : List Stmt} {make make' : Stmt → Stmt} (ht : Trails inits make)
    (ht' : Trails inits' make') (hinits : ∀ s ∈ inits, s.IsSimple) (hmake : same → make = make') :
    Mends σ same P k (do return make (← Parser.spaced p))
      (do return make' (← Parser.spaced q)) := by
  intro c d hl hP hc s c' hs hfits helse
  obtain ⟨t, c₁, h₁, hs⟩ := bind_eq_some_iff.mp hs
  obtain ⟨rfl, rfl⟩ := pure_eq_some_iff.mp hs
  have hchild : t ∈ (make t).preorder := by
    refine Stmt.mem_preorder_of_child ?_ (Stmt.mem_preorder_self t)
    rw [ht.children]
    exact List.mem_append_right _ (.head _)
  obtain ⟨t', d₁, h₁', hmended, hkeeps⟩ := h.spaced (P := P) c d hl hP hc t c₁ h₁
    (hfits.of_mem hchild) helse
  refine ⟨make' t', d₁, bind_eq_some_iff.mpr ⟨t', d₁, h₁', rfl⟩, hmended.imp ?_ ?_, ?_⟩
  · exact fun h => h.imp_left fun ⟨⟨hs, heq⟩, hin⟩ => ⟨⟨hs, by rw [hmake hs, heq]⟩, hin⟩
  · rw [LabelSeam.Pending, LabelSeam.Pending, ht.tails]
    exact fun h => ⟨.tail _ h.1, h.2⟩
  · refine .of_children (ht.plain t) ?_
    rw [ht.children, ht'.children, List.flatMap_append, List.flatMap_append,
      List.flatMap_singleton, List.flatMap_singleton]
    exact (LabelSeam.keeps_of_simple hinits _).append hkeeps

theorem Mends.worded {word : String} {q q' : Loc → Parser Stmt} (hw : word.toList ≠ [])
    (hword : ∀ s, Follows σ s P (k + 1) (keyword word) (keyword word))
    (h : ∀ start start', Mends σ (same ∧ start = start') Anywhere k (q start) (q' start')) :
    Mends σ same P (k + 1) (do let start ← here; keyword word; q start)
      (do let start ← here; keyword word; q' start) :=
  .hereBind fun start start' => (hword _).nextMends (consumes_keyword hw) (h start start')

section Form

variable {sub sub' : Parser Stmt} (h : ∀ s, Mends σ s σ.pairing.settled k sub sub') (hn : k < n)
  (hm : k < m)

theorem follows_keyword {word : String} (hc : Unclosing word) (hw : IsWhole word)
    (hfronts : word ∉ ["case", "default", ";"]) :
    Follows σ same P k (keyword word) (keyword word) := (agree_keyword hc hw hfronts).follows

theorem follows_spacedSymbol {s : String} (hs : s ∈ Pairing.symbols) :
    Follows σ same P k (spaced (symbol s)) (spaced (symbol s)) :=
  (Agree.spaced lawful_seam (agree_symbol lawful_seam hs)).follows

include h

theorem mends_defaultStmt : Mends σ same (fun _ d => d ≠ σ.semicolon) (k + 1) (defaultStmt sub)
    (defaultStmt sub') :=
  .worded (by decide) (fun _ => follows_of_local (advances_keyword _)
    (fun _ => alike_keyword _) (local_keyword (by decide))) fun start start' =>
      (follows_spacedSymbol (by decide)).mends fun _ _ =>
        (h _).last (trails_defaultLabel _) (trails_defaultLabel _) nofun fun hs => by rw [hs.1.2]

include hn hm

theorem mends_caseStmt : Mends σ same (fun _ d => d ≠ σ.semicolon) (k + 1) (caseStmt n sub)
    (caseStmt m sub') :=
  .worded (by decide) (fun _ => follows_of_local (advances_keyword _)
    (fun _ => alike_keyword _) (local_keyword (by decide))) fun start start' =>
      (agree_spacedExpr lawful_seam (Nat.le_of_lt hn) (Nat.le_of_lt hm)).follows.mends fun _ _ =>
        (follows_spacedSymbol (by decide)).mends fun _ _ =>
          (h _).last (trails_caseLabel _ _) (trails_caseLabel _ _) nofun
            fun ⟨⟨⟨_, hstart⟩, hvalue⟩, _⟩ => by rw [hstart, hvalue]

theorem mends_conditionStmt {word : String} (hc : Unclosing word) (hw : IsWhole word)
    (hfronts : word ∉ ["case", "default", ";"]) {make : Expr → Stmt → Loc → Stmt}
    (ht : ∀ c l, Trails [] fun s => make c s l) :
    Mends σ same P (k + 1) (conditionStmt n sub word make) (conditionStmt m sub' word make) :=
  .worded hw.1 (fun _ => follows_keyword hc hw hfronts) fun start start' =>
    (agree_condition lawful_seam (Nat.le_of_lt hn) (Nat.le_of_lt hm)).follows.mends
      fun cond cond' => (h _).last (ht cond start) (ht cond' start') nofun
        fun ⟨⟨_, hstart⟩, hcond⟩ => by rw [hstart, hcond]

theorem mends_rangeForStmt :
    Mends σ same P (k + 1) (rangeForStmt n sub) (rangeForStmt m sub') :=
  .worded (by decide) (fun _ => follows_keyword (by decide) (by decide) (by decide))
    fun start start' => (follows_spacedSymbol (by decide)).mends fun _ _ =>
      (Agree.spaced lawful_seam
        (agree_typeName lawful_seam (Nat.le_of_lt hn) (Nat.le_of_lt hm))).follows.mends fun _ _ =>
          (Agree.spaced lawful_seam (agree_name lawful_seam)).follows.mends fun _ _ =>
            (follows_spacedSymbol (by decide)).mends fun _ _ =>
              (agree_spacedExpr lawful_seam (Nat.le_of_lt hn) (Nat.le_of_lt hm)).follows.mends
                fun _ _ => (follows_spacedSymbol (by decide)).mends fun _ _ =>
                  (h _).last (trails_rangeFor _ _ _ _) (trails_rangeFor _ _ _ _) nofun
                    fun ⟨⟨⟨⟨⟨⟨⟨_, hstart⟩, _⟩, htype⟩, hvar⟩, _⟩, hrange⟩, _⟩ => by
                      rw [hstart, htype, hvar, hrange]

theorem mends_forStmt : Mends σ same P (k + 1) (forStmt n sub) (forStmt m sub') := by
  have hvalue (s : Prop) : Follows σ s Anywhere k (spaced (maybe (expr n)))
      (spaced (maybe (expr m))) := (Agree.spaced lawful_seam
    (agree_expr lawful_seam (Nat.le_of_lt hn) (Nat.le_of_lt hm)).maybe).follows
  have hinits : Gives (spaced (loopInit n)) fun init => ∀ s ∈ init.toList, s.IsSimple :=
    gives_bind fun _ c init c' h s hs => gives_loopInit c init c' h s (Option.mem_toList.mp hs)
  exact .worded (by decide) (fun _ => follows_keyword (by decide) (by decide) (by decide))
    fun start start' => (follows_spacedSymbol (by decide)).mends fun _ _ =>
      (follows_loopInit (Nat.le_of_lt hn) (Nat.le_of_lt hm)).spaced.mendsOf hinits
        fun init init' hsimple => (hvalue _).mends fun cond cond' =>
          follows_semicolon.spaced.mends fun _ _ => (hvalue _).mends fun step step' =>
            (follows_spacedSymbol (by decide)).mends fun _ _ =>
              (h _).last (trails_forLoop _ _ _ _) (trails_forLoop _ _ _ _) hsimple
                fun ⟨⟨⟨⟨⟨⟨⟨_, hstart⟩, _⟩, hinit⟩, hcond⟩, _⟩, hstep⟩, _⟩ => by
                  rw [hstart, hinit, hcond, hstep]

end Form

end Parser

end AttrCheck
