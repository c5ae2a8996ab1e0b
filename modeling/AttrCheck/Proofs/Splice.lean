import AttrCheck.Proofs.Fallthrough
import AttrCheck.Proofs.SeamLexeme
import AttrCheck.Proofs.SpecifierEnd

/-! Putting a semicolon in front of a label. Where a statement can be read off the text without the
semicolon, one can be read off the text with it: the same in front of the seam, and at the seam an
empty statement in place of the label. The label then stands behind all statements that ended with
its own. -/

namespace AttrCheck

namespace Stmt

/-- The statements in a statement that end where it ends, itself included. -/
def tails (s : Stmt) : List Stmt :=
  s :: match s with
    | ifElse _ yes none _ => yes.tails
    | ifElse _ _ (some no) _ => no.tails
    | switch _ sub _ | caseLabel _ sub _ | defaultLabel sub _ | forLoop _ _ _ sub _
    | rangeFor _ _ sub _ _ | whileLoop _ sub _ | attributed _ sub _ _ | annotated _ sub _ _ =>
      sub.tails
    | compound _ _ | doWhile _ _ _ | null _ | expr _ _ | decl _ | ret _ _ | brk _ | cont _ => []

theorem mem_tails_self (s : Stmt) : s ∈ s.tails := by
  rw [tails.eq_def]
  exact .head _

end Stmt

structure LabelSeam extends Seam where
  sub : Stmt
  stop : Cursor
  read : ∀ n, toSeam.label.rest.length < n → Parser.stmt n toSeam.label = some (sub, stop)

namespace LabelSeam

variable (σ : LabelSeam)

/-- Each statement whose specifiers end at the seam has an empty one in place of its own. -/
def Keeps (ps qs : List Stmt) : Prop := ∀ attrs sub range l, .annotated attrs sub range l ∈ ps →
  range.stop = σ.loc → .annotated attrs (.null σ.loc) range l ∈ qs

/-- Statements in which no option of a loop directive ends at the seam, and the label ends neither
the body of a `do` nor a branch with an `else` behind it. -/
structure Fits (t : Stmt) : Prop where
  closing : ∀ attrs sub range l, .annotated attrs sub range l ∈ t.preorder → ∀ a ∈ attrs,
    a.spelling = .pragma → a.range.stop ≠ σ.loc
  loop : ∀ body cond l, .doWhile body cond l ∈ t.preorder → σ.sub ∉ body.tails
  branch : ∀ cond yes no l, .ifElse cond yes (some no) l ∈ t.preorder → σ.sub ∉ yes.tails

variable {σ}

theorem Fits.of_mem {s t : Stmt} (h : σ.Fits s) (ht : t ∈ s.preorder) : σ.Fits t where
  closing attrs sub range l hs := h.closing attrs sub range l (Stmt.mem_preorder_trans ht hs)
  loop body cond l hs := h.loop body cond l (Stmt.mem_preorder_trans ht hs)
  branch cond yes no l hs := h.branch cond yes no l (Stmt.mem_preorder_trans ht hs)

theorem Keeps.of_stop_ne {ps : List Stmt} (h : ∀ attrs sub range l,
    .annotated attrs sub range l ∈ ps → range.stop ≠ σ.loc) (qs : List Stmt) : σ.Keeps ps qs :=
  fun attrs sub range l hs hstop => absurd hstop (h attrs sub range l hs)

theorem keeps_of_simple {ss : List Stmt} (h : ∀ s ∈ ss, s.IsSimple) (qs : List Stmt) :
    σ.Keeps (ss.flatMap Stmt.preorder) qs := by
  refine .of_stop_ne (fun attrs sub range l hmem => ?_) qs
  obtain ⟨s, hs, hmem⟩ := List.mem_flatMap.mp hmem
  rw [(h s hs).preorder, List.mem_singleton] at hmem
  cases (hmem ▸ h s hs).2

theorem Keeps.append {ps qs ps' qs' : List Stmt} (h : σ.Keeps ps qs) (h' : σ.Keeps ps' qs') :
    σ.Keeps (ps ++ ps') (qs ++ qs') := by
  intro attrs sub range l hs hstop
  obtain hs | hs := List.mem_append.mp hs
  · exact List.mem_append_left _ (h attrs sub range l hs hstop)
  · exact List.mem_append_right _ (h' attrs sub range l hs hstop)

theorem Keeps.of_children {s s' : Stmt} (hs : s.annotation? = none)
    (h : σ.Keeps (s.children.flatMap Stmt.preorder) (s'.children.flatMap Stmt.preorder)) :
    σ.Keeps s.preorder s'.preorder := by
  intro attrs sub range l hmem hstop
  rw [Stmt.preorder_eq] at hmem ⊢
  obtain rfl | hmem := List.mem_cons.mp hmem
  · cases hs
  · exact .tail _ (h attrs sub range l hmem hstop)

variable (σ)

/-- The statement that the label begins still stands behind the semicolon, with fewer than `k`
characters. -/
def Pending (k : Nat) (t : Stmt) (c d : Cursor) : Prop :=
  σ.sub ∈ t.tails ∧ σ.label.rest.length < k ∧ c = σ.stop ∧ d = ⟨σ.loc.next ';', σ.rest⟩

def Mended (same : Prop) (k : Nat) (t : Stmt) (c : Cursor) (t' : Stmt) (d : Cursor) : Prop :=
  (σ.pairing.Linked (same ∧ t = t') c d ∨ σ.Pending k t c d) ∧ σ.Keeps t.preorder t'.preorder

variable {σ} {same hs : Prop} {k : Nat} {t t' : Stmt} {c d : Cursor}

theorem Mended.of_values (h : σ.Mended (same ∧ hs) k t c t' d) : σ.Mended same k t c t' d :=
  ⟨h.1.imp_left fun h => h.imp_left fun h => ⟨⟨h.1.1.1, h.1.2⟩, h.2⟩, h.2⟩

theorem Mended.mono (h : σ.Mended same k t c t' d) {k' : Nat} (hk : k ≤ k') :
    σ.Mended same k' t c t' d :=
  ⟨h.1.imp_right fun h => ⟨h.1, Nat.lt_of_lt_of_le h.2.1 hk, h.2.2⟩, h.2⟩

end LabelSeam

namespace Parser

variable {α β : Type} {σ : LabelSeam} {same : Prop} {P : Cursor → Cursor → Prop} {k n m : Nat}

def Follows (σ : LabelSeam) (same : Prop) (P : Cursor → Cursor → Prop) (k : Nat)
    (p q : Parser α) : Prop :=
  ∀ c d, σ.pairing.Linked same c d → P c d → c.rest.length < k → ∀ x, p c = some x →
    ∃ y, q d = some y ∧ σ.pairing.Joint same c.rest x y

def elseClause (sub : Parser Stmt) : Parser Stmt := do
  spaced (keyword "else")
  spaced sub

def ElseReads (c : Cursor) : Prop :=
  spaced (keyword "else") c = none ∨
    ∃ n x, c.rest.length < n ∧ elseClause (stmt n) c = some x

/-- Where the first parser reads a statement, the second reads the mended one. -/
def Mends (σ : LabelSeam) (same : Prop) (P : Cursor → Cursor → Prop) (k : Nat)
    (p q : Parser Stmt) : Prop :=
  ∀ c d, σ.pairing.Linked same c d → P c d → c.rest.length < k → ∀ t c', p c = some (t, c') →
    σ.Fits t → ElseReads c' → ∃ t' d', q d = some (t', d') ∧ σ.Mended same k t c' t' d'

def Anywhere (_ _ : Cursor) : Prop := True

theorem Agree.follows {p q : Parser α} (h : Agree σ.pairing same False k p q) :
    Follows σ same P k p q := by
  intro c d hl _ hc x hx
  exact exists_of_rel (h c d hl nofun hc) hx

namespace Follows

variable {p q : Parser α} {f g : α → Parser β}

theorem bind (h : Follows σ same P k p q)
    (hfg : ∀ a b, Follows σ (same ∧ a = b) Anywhere k (f a) (g b)) :
    Follows σ same P k (p >>= f) (q >>= g) := by
  intro c d hl hP hc x hx
  obtain ⟨a, c₁, h₁, hx⟩ := bind_eq_some_iff.mp (Prod.eta x ▸ hx)
  obtain ⟨⟨b, d₁⟩, hb, hj⟩ := h c d hl hP hc (a, c₁) h₁
  obtain ⟨y, hy, hj'⟩ := hfg a b c₁ d₁ hj.linked trivial (Nat.lt_of_le_of_lt hj.2 hc) x hx
  exact ⟨y, bind_eq_some_iff.mpr ⟨b, d₁, hb, hy⟩,
    hj'.1.imp (fun h => ⟨h.1.1, h.2⟩) id, Nat.le_trans hj'.2 hj.2⟩

theorem mendsOf {Q : α → Prop} {f g : α → Parser Stmt} (h : Follows σ same P k p q)
    (hp : Gives p Q) (hfg : ∀ a b, Q a → Mends σ (same ∧ a = b) Anywhere k (f a) (g b)) :
    Mends σ same P k (p >>= f) (q >>= g) := by
  intro c d hl hP hc t c' ht hfits helse
  obtain ⟨a, c₁, h₁, ht⟩ := bind_eq_some_iff.mp ht
  obtain ⟨⟨b, d₁⟩, hb, hj⟩ := h c d hl hP hc (a, c₁) h₁
  obtain ⟨t', d', ht', hm⟩ := hfg a b (hp c a c₁ h₁) c₁ d₁ hj.linked trivial
    (Nat.lt_of_le_of_lt hj.2 hc) t c' ht hfits helse
  exact ⟨t', d', bind_eq_some_iff.mpr ⟨b, d₁, hb, ht'⟩, hm.of_values⟩

theorem mends {f g : α → Parser Stmt} (h : Follows σ same P k p q)
    (hfg : ∀ a b, Mends σ (same ∧ a = b) Anywhere k (f a) (g b)) :
    Mends σ same P k (p >>= f) (q >>= g) :=
  h.mendsOf (fun _ _ _ _ => trivial) fun a b _ => hfg a b

theorem seq {p' q' : Parser β} (h : Follows σ same P k p q)
    (h' : Follows σ same Anywhere k p' q') :
    Follows σ same P k (p >>= fun _ => p') (q >>= fun _ => q') := by
  intro c d hl hP hc x hx
  obtain ⟨a, c₁, h₁, hx⟩ := bind_eq_some_iff.mp (Prod.eta x ▸ hx)
  obtain ⟨⟨b, d₁⟩, hb, hj⟩ := h c d hl hP hc (a, c₁) h₁
  have hlinked := hj.1.imp_left fun h => And.intro h.1 h.2.1
  obtain ⟨y, hy, hj'⟩ := h' c₁ d₁ hlinked trivial (Nat.lt_of_le_of_lt hj.2 hc) x hx
  exact ⟨y, bind_eq_some_iff.mpr ⟨b, d₁, hb, hy⟩, hj'.1, Nat.le_trans hj'.2 hj.2⟩

theorem nextMends {p' q' : Parser Stmt} (h : Follows σ same P (k + 1) p q) (hp : Consumes p)
    (h' : Mends σ same Anywhere k p' q') :
    Mends σ same P (k + 1) (p >>= fun _ => p') (q >>= fun _ => q') := by
  intro c d hl hP hc t c' ht hfits helse
  obtain ⟨a, c₁, h₁, ht⟩ := bind_eq_some_iff.mp ht
  obtain ⟨⟨b, d₁⟩, hb, hj⟩ := h c d hl hP hc (a, c₁) h₁
  have hlinked := hj.1.imp_left fun h => And.intro h.1 h.2.1
  have hlt := length_lt_of_passes (hp c a c₁ h₁)
  obtain ⟨t', d', ht', hm⟩ := h' c₁ d₁ hlinked trivial
    (Nat.lt_of_lt_of_le hlt (Nat.le_of_lt_succ hc)) t c' ht hfits helse
  exact ⟨t', d', bind_eq_some_iff.mpr ⟨b, d₁, hb, ht'⟩, hm.mono (Nat.le_succ k)⟩

theorem leaf {p q : Parser Stmt} (h : Follows σ same P k p q) (hp : Gives p Stmt.IsSimple) :
    Mends σ same P k p q := by
  intro c d hl hP hc t c' ht _ _
  obtain ⟨⟨t', d'⟩, ht', hj⟩ := h c d hl hP hc (t, c') ht
  obtain ⟨hchildren, hplain⟩ := hp c t c' ht
  have hnone : ∀ s ∈ t.children, s.IsSimple := by simp [hchildren]
  exact ⟨t', d', ht', .inl hj.linked, .of_children hplain (LabelSeam.keeps_of_simple hnone _)⟩

end Follows

theorem follows_pure {a b : α} (hab : same → a = b) :
    Follows σ same P k (pure a : Parser α) (pure b) := (agree_pure hab).follows

theorem follows_behind {p : Parser α} (ha : Advances p) (hp : ∀ k, Alike False k p p) {c d : Cursor}
    (hc : σ.loc < c.loc) (hr : c.rest = d.rest) (hlen : c.rest.length ≤ σ.rest.length)
    {x : α × Cursor} (hx : p c = some x) :
    ∃ y, p d = some y ∧ σ.pairing.Joint same c.rest x y :=
  exists_of_rel (behind_of_alike ha hp hc hr hlen) hx

theorem follows_of_local {p : Parser α} (ha : Advances p) (hp : ∀ k, Alike False k p p)
    (hl : Local p) : Follows σ same (fun _ d => d ≠ σ.semicolon) k p p := by
  rintro c d (⟨hs, hin⟩ | hapart) hd _ x hx
  · cases hin with
    | before hz hloc => exact exists_of_rel (before_of_local ha hl hs _ _ hz hloc) hx
    | «at» => exact absurd rfl hd
  · cases hapart with
    | ahead => exact absurd rfl hd
    | behind hc hr hlen => exact follows_behind ha hp hc hr hlen hx

theorem follows_semicolon : Follows σ same P k (symbol ";") (symbol ";") := by
  intro c d hl _ hc x hx
  have haway : d ≠ σ.semicolon := by
    rintro rfl
    have hhead : c.rest.head? = some ';' := by
      rw [eq_append_of_symbol hx]
      rfl
    obtain ⟨hfront, _⟩ | ⟨e, he, hcs, _⟩ := Seam.front_of_ahead (Seam.linked_semicolon hl).1
    · have hall : ∀ w ∈ ["case", "default"], w.toList.head? ≠ some ';' := by decide
      exact hall _ hfront ((head?_front c.rest).trans hhead)
    · obtain rfl := Option.some.inj (hcs.symm.trans hhead)
      exact absurd he (by decide)
  exact follows_of_local (advances_symbol ";") (fun _ => alike_symbol ";") (local_symbol (by decide))
    c d hl haway hc x hx

theorem Follows.spaced {p q : Parser α} (h : Follows σ same Anywhere k p q) :
    Follows σ same P k (Parser.spaced p) (Parser.spaced q) :=
  (agree_layout lawful_seam).follows.seq h

theorem Mends.hereBind {f g : Loc → Parser Stmt}
    (h : ∀ l l', Mends σ (same ∧ l = l') P k (f l) (g l')) :
    Mends σ same P k (here >>= f) (here >>= g) := by
  intro c d hl hP hc t c' ht hfits helse
  obtain ⟨t', d', ht', hm⟩ := h c.loc d.loc c d hl.here hP hc t c' ht hfits helse
  exact ⟨t', d', ht', hm.of_values⟩

section Leaf

variable (hn : k ≤ n) (hm : k ≤ m)

theorem mends_nullStmt : Mends σ same P k nullStmt nullStmt := by
  refine Follows.leaf (agree_here.follows.bind fun _ _ => follows_semicolon.bind fun _ _ =>
    follows_pure fun ⟨⟨_, hstart⟩, _⟩ => by rw [hstart]) ?_
  exact gives_bind fun _ => gives_bind fun _ => gives_pure ⟨rfl, rfl⟩

theorem mends_wordStmt {word : String} (hc : Unclosing word) (hw : IsWhole word)
    (hfronts : word ∉ ["case", "default", ";"]) {make : Loc → Stmt}
    (hmake : ∀ l, (make l).IsSimple) :
    Mends σ same P k (wordStmt word make) (wordStmt word make) := by
  refine Follows.leaf (agree_here.follows.bind fun _ _ =>
    (agree_keyword hc hw hfronts).follows.bind fun _ _ => follows_semicolon.spaced.bind fun _ _ =>
      follows_pure fun ⟨⟨⟨_, hstart⟩, _⟩, _⟩ => by rw [hstart]) ?_
  exact gives_bind fun l => gives_bind fun _ => gives_bind fun _ => gives_pure (hmake l)

include hn hm

theorem follows_variableDecl : Follows σ same P k (variableDecl n) (variableDecl m) :=
  agree_here.follows.bind fun _ _ => (agree_typeName lawful_seam hn hm).follows.bind fun _ _ =>
    (Agree.spaced lawful_seam (agree_name lawful_seam)).follows.bind fun _ _ =>
      (agree_layout lawful_seam).follows.bind fun _ _ =>
        (agree_initializer lawful_seam hn hm).maybe.follows.bind fun _ _ =>
          follows_semicolon.bind fun _ _ => follows_pure
            fun ⟨⟨⟨⟨⟨⟨_, hloc⟩, htype⟩, hname⟩, _⟩, hinit⟩, _⟩ => by
              rw [hloc, htype, hname, hinit]

theorem follows_declStmt : Follows σ same P k (declStmt n) (declStmt m) :=
  (follows_variableDecl hn hm).bind fun _ _ => follows_pure fun hs => by rw [hs.2]

theorem follows_exprStmt : Follows σ same P k (exprStmt n) (exprStmt m) :=
  agree_here.follows.bind fun _ _ => (agree_expr lawful_seam hn hm).follows.bind fun _ _ =>
    follows_semicolon.spaced.bind fun _ _ => follows_pure fun ⟨⟨⟨_, hstart⟩, he⟩, _⟩ => by
      rw [hstart, he]

theorem mends_declStmt : Mends σ same P k (declStmt n) (declStmt m) :=
  (follows_declStmt hn hm).leaf (gives_bind fun _ => gives_pure ⟨rfl, rfl⟩)

theorem mends_exprStmt : Mends σ same P k (exprStmt n) (exprStmt m) :=
  (follows_exprStmt hn hm).leaf
    (gives_bind fun _ => gives_bind fun _ => gives_bind fun _ => gives_pure ⟨rfl, rfl⟩)

theorem mends_returnStmt : Mends σ same P k (returnStmt n) (returnStmt m) := by
  refine Follows.leaf (agree_here.follows.bind fun _ _ =>
    (agree_keyword (by decide) (by decide) (by decide)).follows.bind fun _ _ =>
      (Agree.spaced lawful_seam (agree_expr lawful_seam hn hm).maybe).follows.bind fun _ _ =>
        follows_semicolon.spaced.bind fun _ _ => follows_pure
          fun ⟨⟨⟨⟨_, hstart⟩, _⟩, hvalue⟩, _⟩ => by rw [hstart, hvalue]) ?_
  exact gives_bind fun _ => gives_bind fun _ => gives_bind fun _ => gives_bind fun _ =>
    gives_pure ⟨rfl, rfl⟩

end Leaf

end Parser

end AttrCheck
