import AttrCheck.Proofs.SpliceBlock

/-! Specifiers under the splice. In front of the seam they are read off both texts alike. A loop
directive whose last option ends at the seam is the one exception, since the semicolon would stand
in its line. -/

namespace AttrCheck

namespace Parser

variable {α : Type} {σ : LabelSeam} {same : Prop} {P : Cursor → Cursor → Prop} {k n m : Nat}
  {inner inner' : Parser Expr}

def lineFeed : Parser Unit := symbol "\n" <|> notBefore fun _ => true

def restOfLine : Parser Unit := do
  let _ ← run (· ≠ '\n')
  lineFeed

theorem restOfLine_cons (loc : Loc) (c : Char) (cs : List Char) : restOfLine ⟨loc, c :: cs⟩ =
    if c = '\n' then some ((), ⟨loc.next c, cs⟩) else restOfLine ⟨loc.next c, cs⟩ := by
  split_ifs with hc
  · subst hc
    rfl
  · have hpos : decide (c ≠ '\n') = true := by simpa using hc
    show lineFeed ⟨loc.after _, _⟩ = lineFeed ⟨(loc.next c).after _, _⟩
    rw [List.takeWhile_cons_of_pos (p := fun x => decide (x ≠ '\n')) hpos,
      List.dropWhile_cons_of_pos (p := fun x => decide (x ≠ '\n')) hpos, Loc.after_cons]

theorem lineEnd_of_none {c : Cursor} (h : symbol "//" c = none) : lineEnd c = lineFeed c := by
  have hnone : (symbol "//" *> run (· ≠ '\n')) c = none := bind_of_eq_none h _
  exact bind_of_eq_some (maybe_of_none hnone)

theorem exists_restOfLine (loc : Loc) (cs : List Char) :
    ∃ c, restOfLine ⟨loc, cs⟩ = some ((), c) := by
  induction cs generalizing loc with
  | nil => exact ⟨⟨loc, []⟩, rfl⟩
  | cons c cs ih =>
    rw [restOfLine_cons]
    split_ifs with hc
    · exact ⟨_, rfl⟩
    · exact ih (loc.next c)

theorem advances_restOfLine : Advances restOfLine :=
  (advances_run _).bind fun _ => (advances_symbol _).orElse (advances_notBefore _)

theorem alike_restOfLine : Alike same k restOfLine restOfLine :=
  (alike_run _).seq ((alike_symbol _).orElse (alike_notBefore _))

theorem passes_of_restOfLine {loc : Loc} {cs : List Char} (hcs : cs ≠ []) {c' : Cursor} {u : Unit}
    (h : restOfLine ⟨loc, cs⟩ = some (u, c')) : Cursor.Passes ⟨loc, cs⟩ c' := by
  cases cs with
  | nil => exact absurd rfl hcs
  | cons c cs =>
    have hnext : Cursor.Passes ⟨loc, c :: cs⟩ ⟨loc.next c, cs⟩ := ⟨[c], nofun, rfl, rfl⟩
    rw [restOfLine_cons] at h
    split_ifs at h
    · obtain ⟨_, rfl⟩ := Prod.mk.inj (Option.some.inj h)
      exact hnext
    · exact hnext.trans_reaches (advances_restOfLine _ u c' h)

theorem lineFeed_eq_some {c c' : Cursor} {u : Unit} (h : lineFeed c = some (u, c')) :
    c.rest = [] ∧ c' = c ∨ ∃ cs, c.rest = '\n' :: cs ∧ c' = ⟨c.loc.next '\n', cs⟩ := by
  obtain ⟨loc, rest⟩ := c
  cases rest with
  | nil =>
    obtain ⟨_, rfl⟩ := Prod.mk.inj (Option.some.inj h)
    exact .inl ⟨rfl, rfl⟩
  | cons c cs =>
    obtain h | h := orElse_eq_some h
    · obtain ⟨rfl, _⟩ := List.cons.inj (eq_append_of_symbol h)
      obtain ⟨_, rfl⟩ := Prod.mk.inj (Option.some.inj h)
      exact .inr ⟨cs, rfl, rfl⟩
    · cases h

theorem before_restOfLine {loc : Loc} {z : List Char} (hz : Closed z) (hl : loc.after z = σ.loc) :
    ∃ c' d', restOfLine ⟨loc, z ++ σ.rest⟩ = some ((), c') ∧
      restOfLine ⟨loc, z ++ ';' :: σ.rest⟩ = some ((), d') ∧ σ.Ends c' d' := by
  induction hz generalizing loc with
  | @last e he =>
    have hline : e ≠ '\n' := by
      obtain rfl | rfl := he <;> decide
    have hloc : loc.next e = σ.loc := hl
    rw [List.singleton_append, List.singleton_append, restOfLine_cons, restOfLine_cons,
      if_neg hline, if_neg hline, hloc, restOfLine_cons, if_neg (by decide)]
    obtain ⟨c', hc'⟩ := exists_restOfLine σ.loc σ.rest
    obtain ⟨d', hd'⟩ := exists_restOfLine (σ.loc.next ';') σ.rest
    have hpasses := passes_of_restOfLine σ.rest_ne_nil hc'
    have hrest := (alike_restOfLine (k := σ.rest.length + 1)).rest_eq (Nat.lt_succ_self _) σ.loc
      (σ.loc.next ';')
    rw [hc', hd'] at hrest
    exact ⟨c', d', hc', hd', .behind hpasses.loc_lt (Option.some.inj hrest)
      (Nat.le_of_lt (length_lt_of_passes hpasses))⟩
  | @cons c z hz ih =>
    rw [List.cons_append, List.cons_append, restOfLine_cons, restOfLine_cons]
    split_ifs with hc
    · exact ⟨_, _, rfl, rfl, .before hz hl⟩
    · exact ih hl

theorem before_lineEnd {loc : Loc} {z : List Char} (hz : Closed z) (hl : loc.after z = σ.loc)
    {x : Unit × Cursor} (hx : lineEnd ⟨loc, z ++ σ.rest⟩ = some x) :
    ∃ d', lineEnd ⟨loc, z ++ ';' :: σ.rest⟩ = some ((), d') ∧ σ.Ends x.2 d' := by
  have hlocal := local_symbol (s := "//") (by decide) loc z
  have hleft := hlocal σ.rest hz σ.rest_head
  have hright := hlocal (';' :: σ.rest) hz (by simp)
  cases hslash : symbol "//" ⟨loc, z⟩ with
  | none =>
    rw [hslash] at hleft hright
    rw [lineEnd_of_none hleft] at hx
    rw [lineEnd_of_none hright]
    obtain ⟨hrest, _⟩ | ⟨cs, hrest, hcursor⟩ := lineFeed_eq_some (Prod.eta x ▸ hx)
    · exact absurd (List.append_eq_nil_iff.mp hrest).1 hz.ne_nil
    · cases hz with
      | last he =>
        obtain ⟨rfl, _⟩ := List.cons.inj hrest
        exact absurd he (by decide)
      | cons hz =>
        obtain ⟨rfl, rfl⟩ := List.cons.inj hrest
        rw [hcursor]
        exact ⟨_, rfl, .before hz hl⟩
  | some y =>
    have hopen := open_symbol (s := "//") (by decide) loc z y.1 y.2 hz hslash
    obtain rfl : z = '/' :: '/' :: y.2.rest := eq_append_of_symbol hslash
    obtain ⟨c', d', hc', hd', hends⟩ := before_restOfLine hopen hl
    have hsame := hc'.symm.trans hx
    obtain rfl := Option.some.inj hsame
    exact ⟨d', hd', hends⟩

theorem follows_lineEnd : Follows σ same (fun _ d => d ≠ σ.semicolon) k lineEnd lineEnd := by
  have halike (k : Nat) : Alike False k lineEnd lineEnd := alike_lineEnd
  rintro c d (⟨hs, hin⟩ | hapart) hd hc x hx
  · cases hin with
    | before hz hl =>
      obtain ⟨d', hd', hends⟩ := before_lineEnd hz hl hx
      have hlen := length_le_of_reaches (advances_lineEnd _ x.1 x.2 hx)
      refine ⟨((), d'), hd', ?_, hlen⟩
      generalize x.2 = c' at hends ⊢
      cases hends with
      | before hz hl => exact .inl ⟨hs, .before hz hl, rfl⟩
      | behind hc hr hlen => exact .inr (.behind hc hr hlen)
    | «at» => exact absurd rfl hd
  · cases hapart with
    | ahead => exact absurd rfl hd
    | behind hc hr hlen => exact follows_behind advances_lineEnd halike hc hr hlen hx

/-- Where the second reading ends at the semicolon, the first ends with no layout behind. -/
def Snug (σ : LabelSeam) (k : Nat) (p q : Parser α) : Prop :=
  ∀ (s : Prop) c d, σ.pairing.Linked s c d → c.rest.length < k → ∀ a c' b, p c = some (a, c') →
    q d = some (b, σ.semicolon) → c' = ⟨σ.loc, σ.rest⟩

theorem snug_symbol {s : String} (hs : s.toList ≠ []) : Snug σ k (symbol s) (symbol s) := by
  intro same c d hl _ _ c' _ hc hd
  have hpasses := consumes_symbol hs d _ _ hd
  have haway : d ≠ σ.semicolon := by
    rintro rfl
    exact lt_irrefl _ hpasses.loc_lt
  obtain ⟨hs, hin⟩ | hapart := hl
  · cases hin with
    | @before loc z hz hl =>
      have hrest : z ++ ';' :: σ.rest = s.toList ++ ';' :: σ.rest := eq_append_of_symbol hd
      obtain rfl := List.append_cancel_right hrest
      have hrest' : s.toList ++ σ.rest = s.toList ++ c'.rest := eq_append_of_symbol hc
      obtain ⟨t, ht, hloc⟩ := advances_symbol s _ _ c' hc
      have hword : s.toList = t := List.append_cancel_right (hrest'.symm.trans ht)
      exact congrArg₂ Cursor.mk (hloc.trans (hword ▸ hl)) (List.append_cancel_left hrest').symm
    | «at» => exact absurd rfl haway
  · cases hapart with
    | ahead => exact absurd rfl haway
    | behind _ hr hlen =>
      have hlt := length_lt_of_passes hpasses
      have hsemicolon : σ.semicolon.rest.length = σ.rest.length + 1 := rfl
      rw [hr] at hlen
      omega

theorem snug_loopOption (h : ∀ s, Agree σ.pairing s False k inner inner') :
    Snug σ k (loopOption inner) (loopOption inner') := by
  intro s c d hl hc a c' b ha hb
  rw [loopOption_eq] at ha hb
  obtain ⟨x, c₁, h₁, ha⟩ := bind_eq_some_iff.mp ha
  obtain ⟨⟨y, d₁⟩, h₁', hj⟩ := (agree_openOption lawful_seam h).follows (P := Anywhere) c d hl
    trivial hc (x, c₁) h₁
  obtain ⟨_, d₂, h₂, hb⟩ := bind_eq_some_iff.mp hb
  obtain ⟨rfl, rfl⟩ := Prod.mk.inj (Option.some.inj (h₁'.symm.trans h₂))
  obtain ⟨_, c₃, hclose, ha⟩ := bind_eq_some_iff.mp ha
  obtain ⟨_, d₃, hclose', hb⟩ := bind_eq_some_iff.mp hb
  obtain ⟨_, rfl⟩ := pure_eq_some_iff.mp ha
  obtain ⟨_, hd₃⟩ := pure_eq_some_iff.mp hb
  have hd₃ : d₃ = σ.semicolon := hd₃
  exact snug_symbol (by decide) _ c₁ d₁ hj.linked (Nat.lt_of_le_of_lt hj.2 hc) _ _ _ hclose
    (hd₃ ▸ hclose')

theorem Snug.many {p q : Parser α} (h : Snug σ k p q) (hp : Consumes p)
    (hpq : ∀ s, Agree σ.pairing s False k p q) {c d c' : Cursor} {as bs : List α}
    (hl : σ.pairing.Linked same c d) (hc : c.rest.length < k) (hn : c.rest.length < n)
    (hm : c.rest.length < m) (hd : d = σ.semicolon → c = ⟨σ.loc, σ.rest⟩)
    (has : many p n c = some (as, c')) (hbs : many q m d = some (bs, σ.semicolon)) :
    c' = ⟨σ.loc, σ.rest⟩ := by
  induction n generalizing m c d as bs same with
  | zero => exact absurd hn (Nat.not_lt_zero _)
  | succ n ih =>
    obtain ⟨m, rfl⟩ := Nat.exists_eq_add_of_le' (Nat.le_trans (Nat.le_add_left 1 _) hm)
    have hrel := hpq same c d hl nofun hc
    obtain ⟨a, c₁, as', h₁, hmore, rfl⟩ | ⟨hnone, rfl, rfl⟩ := many_succ_eq_some has
    · obtain ⟨⟨b, d₁⟩, g₁, hj⟩ := exists_of_rel hrel h₁
      obtain ⟨b', d₁', bs', g₁', hmore', rfl⟩ | ⟨hnone, _⟩ := many_succ_eq_some hbs
      · obtain ⟨rfl, rfl⟩ := Prod.mk.inj (Option.some.inj (g₁.symm.trans g₁'))
        have hlt := length_lt_of_passes (hp c a c₁ h₁)
        refine ih hj.linked (by omega) (by omega) (by omega) ?_ hmore hmore'
        rintro rfl
        exact h _ c d hl hc a c₁ b h₁ g₁
      · rw [g₁] at hnone
        cases hnone
    · refine hd ?_
      obtain ⟨b, d₁, _, g₁, _⟩ | ⟨_, _, rfl⟩ := many_succ_eq_some hbs
      · rw [hnone, g₁] at hrel
        cases hrel
      · rfl

theorem eq_semicolon_of_blanks {c d : Cursor} {cs : List Char} (hl : σ.pairing.Linked same c d)
    (h : run Text.isInlineBlank d = some (cs, σ.semicolon)) : d = σ.semicolon := by
  have hlen := length_le_of_reaches (advances_run _ d cs _ h)
  obtain ⟨_, hin⟩ | hapart := hl
  · cases hin with
    | before hz _ =>
      obtain ⟨_, hdrop, hclosed⟩ := hz.run (f := Text.isInlineBlank) (by decide) (';' :: σ.rest)
      obtain ⟨_, hcursor⟩ := Prod.mk.inj (Option.some.inj h)
      have hrest := hdrop.symm.trans (congrArg Cursor.rest hcursor)
      exact absurd (List.self_eq_append_left.mp hrest.symm) hclosed.ne_nil
    | «at» => rfl
  · cases hapart with
    | ahead => rfl
    | behind _ hr hle =>
      have hsemicolon : σ.semicolon.rest.length = σ.rest.length + 1 := rfl
      rw [hr] at hle
      omega

def loopOptions (n : Nat) (inner : Parser Expr) : Parser (RawAttr × List RawAttr) := do
  let first ← loopOption inner
  let more ← many (loopOption inner) n
  let _ ← run Text.isInlineBlank
  return (first, more)

theorem loopSpecifier_eq (n : Nat) (inner : Parser Expr) : loopSpecifier n inner = (do
    let start ← here
    loopDirective
    let (first, more) ← loopOptions n inner
    lineEnd
    return ⟨first :: more, ⟨start, (more.getLastD first).range.stop⟩⟩) := by
  simp only [loopSpecifier, loopOptions, bind_assoc, pure_bind]

section Options

variable (h : ∀ s, Agree σ.pairing s False k inner inner') (ha : Advances inner) (hn : k ≤ n)
  (hm : k ≤ m)
include h ha hn hm

theorem agree_loopOptions :
    Agree σ.pairing same False k (loopOptions n inner) (loopOptions m inner') :=
  (agree_loopOption lawful_seam h).bind fun _ _ =>
    (Agree.many (fun _ => agree_loopOption lawful_seam h) (consumes_loopOption ha) hn hm).bind
      fun _ _ => (agree_blanks fun _ => Text.isBlank_of_isInlineBlank).seq <| agree_pure
        fun ⟨⟨_, hfirst⟩, hmore⟩ => by rw [hfirst, hmore]

theorem stop_of_loopOptions {c d c' : Cursor} {first : RawAttr} {more : List RawAttr}
    {x : RawAttr × List RawAttr} (hl : σ.pairing.Linked same c d) (hc : c.rest.length < k)
    (hx : loopOptions n inner c = some ((first, more), c'))
    (hy : loopOptions m inner' d = some (x, σ.semicolon)) :
    ∃ a ∈ first :: more, a.spelling = .pragma ∧ a.range.stop = σ.loc := by
  have hoption (s : Prop) : Agree σ.pairing s False k (loopOption inner) (loopOption inner') :=
    agree_loopOption lawful_seam h
  have hcons := consumes_loopOption ha
  obtain ⟨_, c₁, h₁, hx⟩ := bind_eq_some_iff.mp hx
  obtain ⟨_, c₂, h₂, hx⟩ := bind_eq_some_iff.mp hx
  obtain ⟨_, c₃, h₃, hx⟩ := bind_eq_some_iff.mp hx
  obtain ⟨⟨rfl, rfl⟩, rfl⟩ := (pure_eq_some_iff.mp hx).imp_left Prod.mk.inj
  obtain ⟨first', d₁, g₁, hy⟩ := bind_eq_some_iff.mp hy
  obtain ⟨more', d₂, g₂, hy⟩ := bind_eq_some_iff.mp hy
  obtain ⟨_, d₃, g₃, hy⟩ := bind_eq_some_iff.mp hy
  obtain ⟨_, rfl⟩ := pure_eq_some_iff.mp hy
  have hj₁ := rel_of_eq_some (hoption same c d hl nofun hc) h₁ g₁
  have hc₁ := Nat.lt_of_le_of_lt hj₁.2 hc
  have hmany (s : Prop) : Agree σ.pairing s False k (many (loopOption inner) n)
      (many (loopOption inner') m) := Agree.many hoption hcons hn hm
  have hj₂ := rel_of_eq_some (hmany _ c₁ d₁ hj₁.linked nofun hc₁) h₂ g₂
  obtain rfl := eq_semicolon_of_blanks hj₂.linked g₃
  have hstop : c₂ = ⟨σ.loc, σ.rest⟩ := by
    refine (snug_loopOption h).many hcons hoption hj₁.linked hc₁ (Nat.lt_of_lt_of_le hc₁ hn)
      (Nat.lt_of_lt_of_le hc₁ hm) ?_ h₂ g₂
    rintro rfl
    exact snug_loopOption h same c d hl hc _ _ _ h₁ g₁
  obtain ⟨hmem, hspelling, hend⟩ := stop_of_options ha h₁ h₂
  exact ⟨_, hmem, hspelling, by rw [hend, hstop]⟩

end Options

theorem agree_loopDirective : Agree σ.pairing same True k loopDirective loopDirective := by
  have hfronts : ∀ w ∈ ["case", "default", ";"], ¬ w = "#" := by decide
  have hbegins : Begins loopDirective (· = "#") := (begins_symbol (by decide)).bind
  exact agree_of_begins consumes_loopDirective.advances (fun _ => alike_loopDirective)
    (before_of_local consumes_loopDirective.advances local_loopDirective) hbegins hfronts
    fun hbare => absurd trivial hbare

def Clear (σ : LabelSeam) (attrs : List RawAttr) : Prop :=
  ∀ a ∈ attrs, a.spelling = .pragma → a.range.stop ≠ σ.loc

theorem exists_loopSpecifier (h : ∀ s, Agree σ.pairing s False k inner inner')
    (ha : Advances inner) (hn : k ≤ n) (hm : k ≤ m) {c d c' : Cursor} {spec : Specifier}
    (hl : σ.pairing.Linked same c d) (hsettled : σ.pairing.settled c d) (hc : c.rest.length < k)
    (hx : loopSpecifier n inner c = some (spec, c')) (hclear : Clear σ spec.attrs) :
    ∃ y, loopSpecifier m inner' d = some y ∧ σ.pairing.Joint same c.rest (spec, c') y := by
  rw [loopSpecifier_eq, bind_here_apply] at hx
  obtain ⟨_, c₁, h₁, hx⟩ := bind_eq_some_iff.mp hx
  obtain ⟨⟨first, more⟩, c₂, h₂, hx⟩ := bind_eq_some_iff.mp hx
  obtain ⟨_, c₃, h₃, hx⟩ := bind_eq_some_iff.mp hx
  obtain ⟨rfl, rfl⟩ := pure_eq_some_iff.mp hx
  obtain ⟨⟨_, d₁⟩, g₁, hj₁⟩ := exists_of_rel
    (agree_loopDirective c d hl.here (fun _ => hsettled) hc) h₁
  have hc₁ := Nat.lt_of_le_of_lt hj₁.2 hc
  obtain ⟨⟨⟨first', more'⟩, d₂⟩, g₂, hj₂⟩ := exists_of_rel
    (agree_loopOptions h ha hn hm c₁ d₁ hj₁.linked nofun hc₁) h₂
  have haway : d₂ ≠ σ.semicolon := by
    rintro rfl
    obtain ⟨a, hmem, hspelling, hstop⟩ := stop_of_loopOptions h ha hn hm hj₁.linked hc₁ h₂ g₂
    exact hclear a hmem hspelling hstop
  obtain ⟨⟨_, d₃⟩, g₃, hj₃⟩ := follows_lineEnd c₂ d₂ hj₂.linked haway
    (Nat.lt_of_le_of_lt hj₂.2 hc₁) ((), c₃) h₃
  refine ⟨(⟨first' :: more', ⟨d.loc, (more'.getLastD first').range.stop⟩⟩, d₃), ?_, ?_,
    Nat.le_trans hj₃.2 (Nat.le_trans hj₂.2 hj₁.2)⟩
  · rw [loopSpecifier_eq, bind_here_apply]
    exact bind_eq_some_iff.mpr ⟨(), d₁, g₁, bind_eq_some_iff.mpr ⟨_, d₂, g₂,
      bind_eq_some_iff.mpr ⟨(), d₃, g₃, rfl⟩⟩⟩
  · refine hj₃.1.imp_left ?_
    rintro ⟨⟨⟨⟨hs, hloc⟩, _⟩, hoptions⟩, hin, _⟩
    obtain ⟨rfl, rfl⟩ := Prod.mk.inj hoptions
    exact ⟨hs, hin, by rw [hloc]⟩

section Specifiers

variable (hn : k < n) (hm : k < m)
include hn hm

theorem exists_anySpecifier {c d c' : Cursor} {spec : Specifier}
    (hl : σ.pairing.Linked same c d) (hsettled : σ.pairing.settled c d)
    (hc : c.rest.length < k + 1) (hx : anySpecifier n (expr n) c = some (spec, c'))
    (hclear : Clear σ spec.attrs) :
    ∃ y, anySpecifier m (expr m) d = some y ∧ σ.pairing.Joint same c.rest (spec, c') y := by
  have hexpr (s : Prop) : Agree σ.pairing s False k (expr n) (expr m) :=
    agree_expr lawful_seam (Nat.le_of_lt hn) (Nat.le_of_lt hm)
  have ha := advances_expr n
  have hagree {p q : Parser Specifier} (h : Agree σ.pairing same False (k + 1) p q)
      (hx : p c = some (spec, c')) :
      ∃ y, q d = some y ∧ σ.pairing.Joint same c.rest (spec, c') y :=
    exists_of_rel (h c d hl nofun hc) hx
  have hform {f : (String → Prop) × Parser Specifier} (hf : f ∈ specifierForms m (expr m))
      (hy : ∃ y, f.2 d = some y ∧ σ.pairing.Joint same c.rest (spec, c') y) :
      ∃ y, anySpecifier m (expr m) d = some y ∧ σ.pairing.Joint same c.rest (spec, c') y := by
    obtain ⟨y, hy, hj⟩ := hy
    exact ⟨y, anySpecifier_eq_some hf hy, hj⟩
  obtain ⟨p, hp, hx⟩ := firstOf_eq_some hx
  simp only [List.mem_cons, List.not_mem_nil, or_false] at hp
  obtain rfl | rfl | rfl | rfl := hp
  · exact hform (.head _)
      (hagree (agree_bracketSpecifier lawful_seam hexpr ha hn hm) hx)
  · exact hform (.tail _ (.head _))
      (hagree (agree_gnuSpecifier lawful_seam hexpr ha hn hm) hx)
  · exact hform (.tail _ (.tail _ (.head _)))
      (hagree (agree_declspecSpecifier lawful_seam hexpr ha hn hm) hx)
  · exact hform (.tail _ (.tail _ (.tail _ (.head _)))) (exists_loopSpecifier
      (fun _ => agree_expr lawful_seam hn hm) ha hn hm hl hsettled hc hx hclear)

theorem exists_spacedSpecifier {c d c' : Cursor} {spec : Specifier}
    (hl : σ.pairing.Linked same c d) (hc : c.rest.length < k + 1)
    (hx : spaced (anySpecifier n (expr n)) c = some (spec, c')) (hclear : Clear σ spec.attrs) :
    ∃ y, spaced (anySpecifier m (expr m)) d = some y ∧
      σ.pairing.Joint same c.rest (spec, c') y := by
  have hlen := length_le_of_reaches (advances_layout c () _ rfl)
  obtain ⟨hl', hsettled⟩ := Seam.linked_layout hl
  obtain ⟨y, hy, hj⟩ := exists_anySpecifier hn hm hl' hsettled (Nat.lt_of_le_of_lt hlen hc) hx
    hclear
  exact ⟨y, hy, hj.1, Nat.le_trans hj.2 hlen⟩

theorem exists_many_specifiers {j j' : Nat} {c d c' : Cursor} {specs : List Specifier}
    (hl : σ.pairing.Linked same c d) (hc : c.rest.length < k + 1) (hj : c.rest.length < j)
    (hj' : c.rest.length < j') (hx : many (spaced (anySpecifier n (expr n))) j c = some (specs, c'))
    (hclear : ∀ spec ∈ specs, Clear σ spec.attrs)
    (hstops : ∀ s d', σ.pairing.Linked s c' d' → spaced (anySpecifier m (expr m)) d' = none) :
    ∃ specs' d', many (spaced (anySpecifier m (expr m))) j' d = some (specs', d') ∧
      σ.pairing.Linked (same ∧ specs = specs') c' d' := by
  induction j generalizing j' c d specs same with
  | zero => exact absurd hj (Nat.not_lt_zero _)
  | succ j ih =>
    obtain ⟨j', rfl⟩ := Nat.exists_eq_add_of_le' (Nat.le_trans (Nat.le_add_left 1 _) hj')
    obtain ⟨spec, c₁, specs, h₁, hmore, rfl⟩ | ⟨_, rfl, rfl⟩ := many_succ_eq_some hx
    · obtain ⟨⟨spec', d₁⟩, g₁, hjoint⟩ := exists_spacedSpecifier hn hm hl hc h₁
        (hclear spec (.head _))
      have hlt := length_lt_of_passes ((consumes_anySpecifier (advances_expr n)).spaced c spec c₁ h₁)
      obtain ⟨specs', d', hmore', hl'⟩ := ih hjoint.linked (by omega) (by omega)
        (show c₁.rest.length < j' by omega) hmore
        fun spec hspec => hclear spec (.tail _ hspec)
      refine ⟨spec' :: specs', d', many_of_some g₁ hmore', hl'.imp_left ?_⟩
      exact fun ⟨⟨⟨hs, hspec⟩, hspecs⟩, hin⟩ => ⟨⟨hs, by rw [hspec, hspecs]⟩, hin⟩
    · exact ⟨[], d, many_of_none (hstops same d hl) _, hl.imp_left fun h => ⟨⟨h.1, rfl⟩, h.2⟩⟩

theorem exists_specifiers {c d c' : Cursor} {spec : Specifier}
    (hl : σ.pairing.Linked same c d) (hsettled : σ.pairing.settled c d)
    (hc : c.rest.length < k + 1) (hx : specifiers n (expr n) c = some (spec, c'))
    (hclear : Clear σ spec.attrs)
    (hstops : ∀ s d', σ.pairing.Linked s c' d' → spaced (anySpecifier m (expr m)) d' = none) :
    ∃ spec' d', specifiers m (expr m) d = some (spec', d') ∧
      σ.pairing.Linked (same ∧ spec = spec') c' d' := by
  obtain ⟨first, c₁, h₁, hx⟩ := bind_eq_some_iff.mp hx
  obtain ⟨more, c₂, h₂, hx⟩ := bind_eq_some_iff.mp hx
  obtain ⟨rfl, rfl⟩ := pure_eq_some_iff.mp hx
  obtain ⟨⟨first', d₁⟩, g₁, hj⟩ := exists_anySpecifier hn hm hl hsettled hc h₁
    fun a ha => hclear a (List.mem_append_left _ ha)
  have hc₁ := Nat.lt_of_le_of_lt hj.2 hc
  obtain ⟨more', d₂, g₂, hl'⟩ := exists_many_specifiers hn hm hj.linked hc₁
    (Nat.lt_of_lt_of_le hc₁ hn) (Nat.lt_of_lt_of_le hc₁ hm) h₂ (fun spec hspec a ha =>
      hclear a (List.mem_append_right _ (List.mem_flatMap_of_mem hspec ha))) hstops
  refine ⟨⟨first'.attrs ++ more'.flatMap Specifier.attrs,
    ⟨first'.range.start, (more'.getLastD first').range.stop⟩⟩, d₂, bind_eq_some_iff.mpr
      ⟨first', d₁, g₁, bind_eq_some_iff.mpr ⟨more', d₂, g₂, rfl⟩⟩, hl'.imp_left ?_⟩
  exact fun ⟨⟨⟨hs, hfirst⟩, hmore⟩, hin⟩ => ⟨⟨hs, by rw [hfirst, hmore]⟩, hin⟩

end Specifiers

theorem front_of_plain {c c' : Cursor} {s : Stmt} (h : stmt n c = some (s, c'))
    (hs : s.annotation? = none) : front c.rest ∉ specifierFronts := by
  intro hfront
  cases n with
  | zero => cases h
  | succ n =>
    obtain ⟨spec, _, _, h⟩ := bind_eq_some_iff.mp (annotatedStmt_of_front h hfront)
    obtain ⟨sub, _, _, h⟩ := bind_eq_some_iff.mp h
    obtain ⟨rfl, _⟩ := pure_eq_some_iff.mp h
    cases hs

theorem anySpecifier_eq_none {c d c' : Cursor} {s : Stmt} (hs : spaced (stmt n) c = some (s, c'))
    (hplain : s.annotation? = none) (hl : σ.pairing.Linked same c d) :
    spaced (anySpecifier m inner) d = none := by
  obtain ⟨_, c₁, hlayout, hs⟩ := bind_eq_some_iff.mp hs
  obtain ⟨_, rfl⟩ := Prod.mk.inj (Option.some.inj hlayout)
  obtain ⟨hl', _⟩ := Seam.linked_layout hl
  show anySpecifier m inner (skipLayout .code d.loc d.rest) = none
  cases hx : anySpecifier m inner (skipLayout .code d.loc d.rest) with
  | none => rfl
  | some x =>
    have hfront := begins_anySpecifier _ x.1 x.2 hx
    by_cases hd : skipLayout .code d.loc d.rest = σ.semicolon
    · rw [hd, Seam.semicolon, front_cons (by decide)] at hfront
      exact absurd hfront (by decide)
    · exact absurd (front_of_linked hl' hd ▸ hfront) (front_of_plain hs hplain)

theorem semicolon_of_loc {c d : Cursor} (hl : σ.pairing.Linked same c d) (hc : c.loc = σ.loc) :
    same ∧ d = σ.semicolon := by
  obtain ⟨hs, hin⟩ | hapart := hl
  · cases hin with
    | @before loc z hz hl =>
      have hlt := Loc.lt_after loc hz.ne_nil
      rw [hl, show loc = σ.loc from hc] at hlt
      exact absurd hlt (lt_irrefl _)
    | «at» => exact ⟨hs, rfl⟩
  · cases hapart with
    | ahead hlt _ => exact absurd hc hlt.ne'
    | behind hlt _ _ => exact absurd hc hlt.ne'

theorem stmt_semicolon (n : Nat) :
    stmt (n + 1) σ.semicolon = some (.null σ.loc, ⟨σ.loc.next ';', σ.rest⟩) := by
  have hform : ((· ∈ [";"]), nullStmt) ∈ stmtForms (n + 1) (stmt n) := by
    simp [stmtForms, wordForms]
  exact stmtWith_eq_some hform rfl

theorem mends_annotatedStmt (h : ∀ s, Mends σ s σ.pairing.settled k (stmt n) (stmt m))
    (hn : k ≤ n) (hm : k ≤ m) : Mends σ same σ.pairing.settled (k + 1)
      (annotatedStmt (n + 1) (stmt n)) (annotatedStmt (m + 1) (stmt m)) := by
  intro c d hl hsettled hc t c' ht hfits helse
  have hread := ht
  obtain ⟨spec, c₁, h₁, ht⟩ := bind_eq_some_iff.mp ht
  obtain ⟨sub, c₂, h₂, ht⟩ := bind_eq_some_iff.mp ht
  obtain ⟨rfl, rfl⟩ := pure_eq_some_iff.mp ht
  have hplain := annotation?_of_annotatedStmt hread (Nat.lt_of_lt_of_le hc (Nat.succ_le_succ hn))
  have hclear := hfits.closing _ _ _ _ (Stmt.mem_preorder_self _)
  obtain ⟨spec', d₁, g₁, hl₁⟩ := exists_specifiers (Nat.lt_succ_of_le hn) (Nat.lt_succ_of_le hm)
    hl hsettled hc h₁ hclear fun s d' hl' => anySpecifier_eq_none h₂ hplain hl'
  have hlt := length_lt_of_passes (consumes_specifiers (advances_expr _) c spec c₁ h₁)
  obtain ⟨sub', d₂, g₂, hmended, hkeeps⟩ := (h _).spaced (P := Anywhere) c₁ d₁ hl₁ trivial
    (Nat.lt_of_lt_of_le hlt (Nat.le_of_lt_succ hc)) sub c₂ h₂
    (hfits.of_mem (Stmt.mem_preorder_of_child (.head _) (Stmt.mem_preorder_self sub))) helse
  refine ⟨.annotated spec'.attrs sub' spec'.range spec'.range.start, d₂, bind_eq_some_iff.mpr
    ⟨spec', d₁, g₁, bind_eq_some_iff.mpr ⟨sub', d₂, g₂, rfl⟩⟩, hmended.imp ?_ ?_, ?_⟩
  · exact fun h => h.imp_left fun ⟨⟨⟨hs, hspec⟩, hsub⟩, hin⟩ =>
      ⟨⟨hs, by rw [hspec, hsub]⟩, hin⟩
  · exact fun h => ⟨.tail _ h.1, Nat.lt_succ_of_lt h.2.1, h.2.2⟩
  · intro attrs s range l hmem hstop
    obtain hself | hmem := List.mem_cons.mp (Stmt.preorder_eq _ ▸ hmem)
    · injection hself with hattrs _ hrange hstart
      subst hattrs hrange hstart
      -- Only a loop directive could end in front of where its line does.
      obtain ⟨hend, _⟩ | ⟨a, ha, hspelling, hend⟩ :=
        (spans_specifiers (advances_expr _) h₁).ending
      · obtain ⟨⟨_, rfl⟩, rfl⟩ := semicolon_of_loc hl₁ (hend.symm.trans hstop)
        obtain ⟨m, rfl⟩ : ∃ m', m = m' + 1 := Nat.exists_eq_add_of_le' (by omega)
        rw [Seam.spaced_semicolon, stmt_semicolon] at g₂
        obtain ⟨rfl, _⟩ := Prod.mk.inj (Option.some.inj g₂)
        exact Stmt.mem_preorder_self _
      · exact absurd (hend.trans hstop) (hclear a ha hspelling)
    · have hsub : .annotated attrs s range l ∈ sub.preorder := by
        simpa [Stmt.children] using hmem
      exact Stmt.mem_preorder_of_child (.head _) (hkeeps attrs s range l hsub hstop)

end Parser

end AttrCheck
