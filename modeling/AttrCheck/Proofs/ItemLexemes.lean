import AttrCheck.Proofs.ItemEnd
import AttrCheck.Proofs.StmtAgreement

/-! A text and the same text with other text behind. Up to the end of the item at the front both are
read alike; where no item ends, nothing is known of longer texts. -/

namespace AttrCheck

variable {k : Nat} {stop : Option (List Char)}

def Uncommented (cs : List Char) : Prop := ∀ ds, cs ≠ '/' :: '/' :: ds

namespace LayoutMode

def followedBy (w : List Char) : LayoutMode → LayoutMode
  | code => code
  | line => line
  | slash opened => slash (opened.followedBy w)
  | comment opened => comment (opened.followedBy w)
  | star opened => star (opened.followedBy w)

/-- Where the item ends as `stop` says, seen from in front of `cs` and, in a comment, also from
where it was opened. -/
def Scans (k : Nat) (stop : Option (List Char)) (cs : List Char) : LayoutMode → Prop
  | code => itemEnd .code k cs = stop
  | line => itemEnd .line k cs = stop
  | slash opened => opened.rest = '/' :: cs ∧ itemEnd .code k opened.rest = stop
  | comment opened =>
    itemEnd .comment k cs = stop ∧ itemEnd .code k opened.rest = stop ∧ Uncommented opened.rest
  | star opened =>
    itemEnd .star k cs = stop ∧ itemEnd .code k opened.rest = stop ∧ Uncommented opened.rest

def step (loc : Loc) (c : Char) (cs : List Char) : LayoutMode → Cursor ⊕ LayoutMode
  | code =>
    if Text.isBlank c then .inr code
    else if c = '/' then .inr (slash ⟨loc, c :: cs⟩)
    else if c = '#' && !Parser.atLoopDirective ⟨loc, c :: cs⟩ then .inr line
    else .inl ⟨loc, c :: cs⟩
  | line => .inr (if c = '\n' then code else line)
  | slash opened =>
    if c = '/' then .inr line else if c = '*' then .inr (comment opened) else .inl opened
  | comment opened => .inr (if c = '*' then star opened else comment opened)
  | star opened =>
    .inr (if c = '/' then code else if c = '*' then star opened else comment opened)

variable {mode : LayoutMode} {loc : Loc} {c : Char} {cs : List Char}

theorem skipLayout_cons (mode : LayoutMode) (loc : Loc) (c : Char) (cs : List Char) :
    skipLayout mode loc (c :: cs) =
      (mode.step loc c cs).elim id fun m => skipLayout m (loc.next c) cs := by
  cases mode <;> simp only [skipLayout, step] <;> split_ifs <;> rfl

theorem step_followedBy {w : List Char}
    (h : mode = code → Parser.atLoopDirective ⟨loc, c :: (cs ++ w)⟩ =
      Parser.atLoopDirective ⟨loc, c :: cs⟩) :
    (mode.followedBy w).step loc c (cs ++ w) =
      (mode.step loc c cs).map (·.followedBy w) (followedBy w) := by
  cases mode with
  | code =>
    simp only [followedBy, step, h rfl]
    split_ifs <;> rfl
  | line | slash opened | comment opened | star opened =>
    simp only [followedBy, step]
    split_ifs <;> rfl

theorem Scans.step (h : mode.Scans k stop (c :: cs)) (loc : Loc) : (mode.step loc c cs).elim
    (fun o => itemEnd .code k o.rest = stop ∧ Uncommented o.rest) (Scans k stop cs) := by
  cases mode with
  | code =>
    change itemEnd .code k (c :: cs) = stop at h
    simp only [LayoutMode.step]
    split_ifs with hblank hslash hline
    · exact (itemEnd_plain (not_mem_scanMarks_of_isBlank hblank)).symm.trans h
    · exact ⟨congrArg (· :: cs) hslash, h⟩
    · obtain ⟨hc, hnot⟩ := Bool.and_eq_true_iff.mp hline
      obtain rfl := of_decide_eq_true hc
      rw [itemEnd_hash loc, if_neg (by simpa using hnot)] at h
      exact h
    · exact ⟨h, fun ds hds => hslash (List.cons.inj hds).1⟩
  | line =>
    simp only [Scans, itemEnd] at h
    simp only [LayoutMode.step]
    split_ifs at h ⊢
    all_goals exact h
  | slash o =>
    obtain ⟨hrest, hfound⟩ := h
    simp only [LayoutMode.step]
    split_ifs with hline hstar
    · rw [hrest, hline, itemEnd_lineComment] at hfound
      exact hfound
    · refine ⟨?_, hfound, ?_⟩
      · rw [← hfound, hrest, hstar, itemEnd_comment]
      · intro ds hds
        rw [hrest, hstar] at hds
        cases hds
    · refine ⟨hfound, fun ds hds => ?_⟩
      rw [hrest] at hds
      exact hline (List.cons.inj (List.cons.inj hds).2).1
  | comment o =>
    obtain ⟨hinside, hopened⟩ := h
    rw [itemEnd] at hinside
    simp only [LayoutMode.step]
    split_ifs at hinside ⊢
    all_goals exact ⟨hinside, hopened⟩
  | star o =>
    obtain ⟨hinside, hopened⟩ := h
    rw [itemEnd] at hinside
    simp only [LayoutMode.step]
    split_ifs at hinside ⊢
    · exact hinside
    all_goals exact ⟨hinside, hopened⟩

end LayoutMode

/-- What holds behind layout: the item ends where it did, and if it ends at all, the layout is the
same in longer texts. -/
structure Settles (k : Nat) (stop : Option (List Char)) (mode : LayoutMode) (loc : Loc)
    (cs : List Char) : Prop where
  found : itemEnd .code k (skipLayout mode loc cs).rest = stop
  uncommented : Uncommented (skipLayout mode loc cs).rest
  extend : stop ≠ none → ∀ w, skipLayout (mode.followedBy w) loc (cs ++ w) =
    (skipLayout mode loc cs).followedBy w

theorem settles_nil {mode : LayoutMode} (h : mode.Scans k stop []) (loc : Loc) :
    Settles k stop mode loc [] := by
  cases mode with
  | code | line => exact ⟨h, nofun, fun hs => absurd h.symm hs⟩
  | slash o =>
    obtain ⟨hrest, hfound⟩ := h
    have hnone : stop = none := by
      rw [← hfound, hrest]
      rfl
    have hbare : Uncommented o.rest := hrest ▸ nofun
    exact ⟨hfound, hbare, fun hs => absurd hnone hs⟩
  | comment o | star o => exact ⟨h.2.1, h.2.2, fun hs => absurd h.1.symm hs⟩

theorem settles {mode : LayoutMode} {cs : List Char} (h : mode.Scans k stop cs) (loc : Loc) :
    Settles k stop mode loc cs := by
  induction cs generalizing mode loc with
  | nil => exact settles_nil h loc
  | cons c cs ih =>
    have hscans := h.step loc
    have hcons := LayoutMode.skipLayout_cons mode loc c cs
    have hlonger (hs : stop ≠ none) (w : List Char) :
        skipLayout (mode.followedBy w) loc (c :: cs ++ w) =
          ((mode.step loc c cs).map (·.followedBy w) (LayoutMode.followedBy w)).elim id
            fun m => skipLayout m (loc.next c) (cs ++ w) := by
      rw [List.cons_append, LayoutMode.skipLayout_cons, LayoutMode.step_followedBy]
      rintro rfl
      exact Parser.atLoopDirective_followedBy (stopped_of_itemEnd (h ▸ hs)) loc w
    generalize mode.step loc c cs = next at hscans hcons hlonger
    cases next with
    | inl o => exact ⟨hcons ▸ hscans.1, hcons ▸ hscans.2, fun hs w => hcons ▸ hlonger hs w⟩
    | inr m =>
      obtain ⟨hfound, hbare, hextend⟩ := ih hscans (loc.next c)
      exact ⟨hcons ▸ hfound, hcons ▸ hbare,
        fun hs w => hcons ▸ (hlonger hs w).trans (hextend hs w)⟩

theorem itemEnd_line_eq (cs : List Char) :
    itemEnd .line k cs = itemEnd .code k (cs.dropWhile (· ≠ '\n')) := by
  induction cs with
  | nil => rfl
  | cons c cs ih =>
    by_cases hc : c = '\n'
    · subst hc
      exact (itemEnd_plain (by decide)).symm
    · rw [itemEnd, if_neg hc, ih, List.dropWhile_cons_of_pos (by simpa using hc)]

theorem itemEnd_string_eq (cs : List Char) :
    itemEnd .string k cs = (splitStringBody cs).bind fun x => itemEnd .code k x.2 := by
  fun_induction splitStringBody cs with
  | case1 => rfl
  | case2 cs => rfl
  | case3 cs => rfl
  | case4 c cs hc ih =>
    rw [Option.bind_map]
    exact (if_neg hc).trans ih
  | case5 c cs hquote hback hc =>
    simp only [Bool.or_eq_true, decide_eq_true_eq] at hc
    obtain rfl | rfl := hc
    · cases cs with
      | nil => rfl
      | cons d ds => exact absurd rfl (hback d ds rfl)
    · rfl
  | case6 c cs hquote hback hc ih =>
    simp only [Bool.or_eq_true, decide_eq_true_eq, not_or] at hc
    rw [itemEnd, if_neg hc.2, if_neg hquote, if_neg hc.1, ih, Option.bind_map]
    rfl

namespace Parser

variable {α β : Type} {f g h : List Char → Option (List Char)} {bare : Prop} {p : Parser α}

/-- What is read leaves to one scan what another finds, and where that finds anything, longer texts
are read in the same way. -/
structure Keeps (f g : List Char → Option (List Char)) (bare : Prop) (p : Parser α) : Prop where
  found : ∀ c a c', (bare → Uncommented c.rest) → p c = some (a, c') → g c'.rest = f c.rest
  extend : ∀ c w, (bare → Uncommented c.rest) → f c.rest ≠ none →
    p (c.followedBy w) = (p c).map fun x => (x.1, x.2.followedBy w)

theorem keeps_pure (a : α) : Keeps f f bare (pure a : Parser α) where
  found _ _ _ _ h := (pure_eq_some_iff.mp h).2 ▸ rfl
  extend _ _ _ _ := rfl

theorem keeps_failure : Keeps f g bare (failure : Parser α) := ⟨nofun, fun _ _ _ _ => rfl⟩

namespace Keeps

theorem bind {q : α → Parser β} (hp : Keeps f g bare p) (hq : ∀ a, Keeps g h False (q a)) :
    Keeps f h bare (p >>= q) where
  found c b c'' hb hx := by
    obtain ⟨a, c', ha, hx⟩ := bind_eq_some_iff.mp hx
    rw [(hq a).found c' b c'' nofun hx, hp.found c a c' hb ha]
  extend c w hb hc := by
    show (p (c.followedBy w)).bind (fun x => q x.1 x.2) = ((p c).bind fun x => q x.1 x.2).map _
    rw [hp.extend c w hb hc]
    cases ha : p c with
    | none => rfl
    | some x => exact (hq x.1).extend x.2 w nofun (hp.found c x.1 x.2 hb ha ▸ hc)

theorem orElse {q : Parser α} (hp : Keeps f g bare p) (hq : Keeps f g bare q) :
    Keeps f g bare (p <|> q) where
  found c a c' hb hx := (orElse_eq_some hx).elim (hp.found c a c' hb) (hq.found c a c' hb)
  extend c w hb hc := by
    show (p (c.followedBy w) <|> q (c.followedBy w)) = (p c <|> q c).map _
    rw [hp.extend c w hb hc, hq.extend c w hb hc]
    cases p c <;> rfl

theorem maybe (hp : Keeps f f bare p) : Keeps f f bare (Parser.maybe p) :=
  (hp.bind fun _ => keeps_pure _).orElse (keeps_pure none)

end Keeps

abbrev Steady (k : Nat) (bare : Prop) (p : Parser α) : Prop :=
  Keeps (itemEnd .code k) (itemEnd .code k) bare p

theorem Contained.steady (hp : Contained p) (hfound : ∀ c a c', (bare → Uncommented c.rest) →
    p c = some (a, c') → itemEnd .code k c'.rest = itemEnd .code k c.rest) : Steady k bare p where
  found := hfound
  extend c w _ hc := hp.extend c w (stopped_of_itemEnd hc)

theorem steady_symbol {s : String} (hs : ∀ c ∈ s.toList, c ∉ scanMarks) :
    Steady k bare (symbol s) :=
  (contained_symbol fun c hc => not_mem_stmtEnds (hs c hc)).steady fun c _ c' _ h => by
    rw [eq_append_of_symbol h, itemEnd_plain_append hs]

theorem steady_notBefore (f : Char → Bool) : Steady k bare (notBefore f) :=
  (contained_notBefore f).steady fun _ _ _ _ h => by rw [(notBefore_eq_some h).1]

theorem itemEnd_dropWhile {f : Char → Bool} (hf : ∀ c, f c → c ∉ scanMarks) (cs : List Char) :
    itemEnd .code k (cs.dropWhile f) = itemEnd .code k cs := by
  have hrun : ∀ c ∈ cs.takeWhile f, c ∉ scanMarks :=
    fun c hc => hf c (List.all_eq_true.mp List.all_takeWhile c hc)
  rw [← itemEnd_plain_append hrun, List.takeWhile_append_dropWhile]

theorem steady_run {f : Char → Bool} (hf : ∀ c, f c → c ∉ scanMarks) :
    Steady k bare (run f) := by
  have hends : ∀ e ∈ stmtEnds, f e = false := fun e he => by
    simpa using fun h => not_mem_stmtEnds (hf e h) he
  refine (contained_run hends).steady fun c _ c' _ h => ?_
  obtain ⟨_, _, hsplit, rfl⟩ := lexeme_eq_some h
  obtain ⟨_, _, rfl⟩ := Prod.mk.inj (Option.some.inj hsplit)
  exact itemEnd_dropWhile hf c.rest

theorem steady_run₁ {f : Char → Bool} (hf : ∀ c, f c → c ∉ scanMarks) : Steady k bare (run₁ f) :=
  (steady_run hf).bind fun cs => by
    split
    · exact keeps_failure
    · exact keeps_pure cs

theorem steady_keyword {s : String} (hs : ∀ c ∈ s.toList, c ∉ scanMarks) :
    Steady k bare (keyword s) :=
  (steady_symbol hs).bind fun _ => steady_notBefore Text.isWord

theorem steady_wordAndBlank {s : String} (hs : ∀ c ∈ s.toList, c ∉ scanMarks) :
    Steady k bare (wordAndBlank s) :=
  (steady_symbol hs).bind fun _ =>
    (steady_run₁ fun _ => not_mem_scanMarks_of_isBlank).bind fun _ => keeps_pure _

theorem steady_name : Steady k bare name :=
  contained_name.steady fun c _ c' _ h => by
    obtain ⟨t, rest, hsplit, rfl⟩ := lexeme_eq_some h
    rw [show (c.behind t rest).rest = rest from rfl, (splitName_eq_some hsplit).2.2]
    exact itemEnd_dropWhile
      (fun _ h => not_mem_scanMarks_of_isWord (isWord_of_isNamePart h)) c.rest

theorem steady_number : Steady k bare number :=
  contained_number.steady fun c _ c' _ h => by
    obtain ⟨t, rest, hsplit, rfl⟩ := lexeme_eq_some h
    simp only [splitNumber, Option.map_eq_some_iff, Prod.mk.injEq] at hsplit
    obtain ⟨_, _, _, _, rfl⟩ := hsplit
    exact itemEnd_dropWhile (fun _ => not_mem_scanMarks_of_isWord) c.rest

theorem steady_stringLiteral : Steady k bare stringLiteral := by
  constructor
  · rintro ⟨loc, cs⟩ a c' _ h
    cases cs with
    | nil => cases h
    | cons d cs =>
      by_cases hd : d = '"'
      · subst hd
        rw [stringLiteral_quote] at h
        obtain ⟨x, hx, h⟩ := Option.bind_eq_some_iff.mp h
        obtain ⟨_, rfl⟩ := Prod.mk.inj (Option.some.inj h)
        show _ = itemEnd .code k ('"' :: cs)
        rw [itemEnd_string, itemEnd_string_eq, hx]
        rfl
      · rw [stringLiteral_eq_none hd] at h
        cases h
  · rintro ⟨loc, cs⟩ w _ hc
    cases cs with
    | nil => exact absurd rfl hc
    | cons d cs =>
      by_cases hd : d = '"'
      · subst hd
        change itemEnd .code k ('"' :: cs) ≠ none at hc
        rw [itemEnd_string, itemEnd_string_eq] at hc
        obtain ⟨x, hx⟩ : ∃ x, splitStringBody cs = some x :=
          Option.ne_none_iff_exists'.mp fun hnone => hc (by rw [hnone]; rfl)
        show stringLiteral ⟨loc, '"' :: (cs ++ w)⟩ = _
        rw [stringLiteral_quote, stringLiteral_quote, splitStringBody_append hx, hx]
        rfl
      · show stringLiteral ⟨loc, d :: (cs ++ w)⟩ = _
        rw [stringLiteral_eq_none hd, stringLiteral_eq_none hd]
        rfl

theorem steady_slash (hbare : bare) {bad : List Char} (hbad : '*' ∈ bad) :
    Steady k bare (symbolNotBefore "/" bad) := by
  have hcontained : Contained (symbolNotBefore "/" bad) :=
    (contained_symbol (by decide)).bind fun _ => contained_notBefore bad.contains
  refine hcontained.steady fun c _ c' hb h => ?_
  obtain ⟨_, c₁, hsymbol, hnot⟩ := bind_eq_some_iff.mp h
  obtain ⟨rfl, hhead⟩ := notBefore_eq_some hnot
  have hrest : c.rest = '/' :: c'.rest := eq_append_of_symbol hsymbol
  rw [hrest, itemEnd_slash]
  rintro d hd
  obtain ⟨ds, hds⟩ := List.head?_eq_some_iff.mp hd
  constructor
  · rintro rfl
    exact hb hbare ds (hrest.trans (by rw [hds]))
  · rintro rfl
    simpa [hbad] using hhead _ hd

theorem steady_mark {s : String} (hs : s ∈ Pairing.marks) {bad : List Char}
    (hbad : s = "/" → '*' ∈ bad) : Steady k ('/' ∈ s.toList) (symbolNotBefore s bad) := by
  have hall : ∀ s ∈ Pairing.marks, s = "/" ∨ s = "/=" ∨ ∀ c ∈ s.toList, c ∉ scanMarks := by
    decide
  obtain rfl | rfl | hplain := hall s hs
  · exact steady_slash (by decide) (hbad rfl)
  · have hcontained : Contained (symbolNotBefore "/=" bad) :=
      (contained_symbol (by decide)).bind fun _ => contained_notBefore bad.contains
    refine hcontained.steady fun c _ c' _ h => ?_
    obtain ⟨_, c₁, hsymbol, hnot⟩ := bind_eq_some_iff.mp h
    obtain ⟨rfl, _⟩ := notBefore_eq_some hnot
    have hrest : c.rest = '/' :: '=' :: c'.rest := eq_append_of_symbol hsymbol
    rw [hrest, itemEnd_slash (by simp), itemEnd_plain (by decide)]
  · exact (steady_symbol hplain).bind fun _ => steady_notBefore bad.contains

theorem steady_loopDirective : Steady k bare loopDirective := by
  refine contained_loopDirective.steady fun c _ c' _ h => ?_
  have hat : atLoopDirective c := by
    rw [atLoopDirective, h]
    rfl
  obtain ⟨_, c₁, hsymbol, h⟩ := bind_eq_some_iff.mp h
  have hrest : c.rest = '#' :: c₁.rest := eq_append_of_symbol hsymbol
  rw [show c = ⟨c.loc, c.rest⟩ from rfl, hrest] at hat
  rw [hrest, itemEnd_hash c.loc, if_pos hat]
  have hblank (d : Char) (hd : Text.isInlineBlank d) : d ∉ scanMarks :=
    not_mem_scanMarks_of_isBlank (Text.isBlank_of_isInlineBlank hd)
  have hbehind : Steady k False (do
      let _ ← run Text.isInlineBlank
      symbol "pragma"
      let _ ← run₁ Text.isInlineBlank
      symbol "clang"
      let _ ← run₁ Text.isInlineBlank
      keyword "loop") :=
    (steady_run hblank).bind fun _ => (steady_symbol (by decide)).bind fun _ =>
      (steady_run₁ hblank).bind fun _ => (steady_symbol (by decide)).bind fun _ =>
        (steady_run₁ hblank).bind fun _ => steady_keyword (by decide)
  exact hbehind.found c₁ () c' False.elim h

theorem steady_lineComment : Steady k bare (symbol "//" *> run (· ≠ '\n')) := by
  have hcontained : Contained (symbol "//") := contained_symbol (by decide)
  have hscan {c c₁ : Cursor} {u : Unit} (h : symbol "//" c = some (u, c₁)) :
      itemEnd .code k c.rest = itemEnd .code k (c₁.rest.dropWhile (· ≠ '\n')) := by
    have hrest : c.rest = '/' :: '/' :: c₁.rest := eq_append_of_symbol h
    rw [hrest, itemEnd_lineComment, itemEnd_line_eq]
  constructor
  · intro c a c' _ h
    obtain ⟨_, c₁, hsymbol, h⟩ := bind_eq_some_iff.mp h
    obtain ⟨_, _, hsplit, rfl⟩ := lexeme_eq_some h
    obtain ⟨_, _, rfl⟩ := Prod.mk.inj (Option.some.inj hsplit)
    exact (hscan hsymbol).symm
  · intro c w _ hc
    show (symbol "//" (c.followedBy w)).bind (fun x => run (· ≠ '\n') x.2) =
      ((symbol "//" c).bind fun x => run (· ≠ '\n') x.2).map _
    rw [hcontained.extend c w (stopped_of_itemEnd hc)]
    cases hsymbol : symbol "//" c with
    | none => rfl
    | some x =>
      have hfeed : x.2.rest.dropWhile (· ≠ '\n') ≠ [] := by
        intro hnil
        rw [hscan hsymbol, hnil] at hc
        exact hc rfl
      obtain ⟨htake, hdrop⟩ := takeWhile_dropWhile_append hfeed w
      simp only [Option.map_some, Option.bind_some, run, lexeme, Cursor.followedBy, htake, hdrop]
      rfl

theorem steady_lineEnd : Steady k bare lineEnd := by
  refine steady_lineComment.maybe.bind fun _ => (steady_symbol (by decide)).orElse ?_
  exact steady_notBefore _

theorem keeps_char {s : String} {e : Char} (hs : s.toList = [e]) (hnil : f [] = none)
    (hfound : ∀ cs, g cs = f (e :: cs)) : Keeps f g bare (symbol s) := by
  constructor
  · intro c _ c' _ h
    rw [eq_append_of_symbol h, hs]
    exact hfound c'.rest
  · rintro ⟨loc, cs⟩ w _ hc
    cases cs with
    | nil => exact absurd hnil hc
    | cons d cs =>
      simp only [symbol, lexeme, hs, Cursor.followedBy, List.cons_append, List.isPrefixOf?]
      split <;> rfl

theorem steady_semicolon : Steady (k + 1) bare (symbol ";") :=
  keeps_char (e := ';') rfl rfl fun _ => itemEnd_semicolon.symm

theorem keeps_opening : Keeps (itemEnd .code k) (itemEnd .code (k + 1)) bare (symbol "\x7b") :=
  keeps_char (e := '\x7b') rfl rfl fun _ => itemEnd_opening.symm

theorem keeps_closing :
    Keeps (itemEnd .code (k + 2)) (itemEnd .code (k + 1)) bare (symbol "\x7d") :=
  keeps_char (e := '\x7d') rfl rfl fun _ => itemEnd_closing.symm

theorem keeps_end : Keeps (itemEnd .code 0) some bare (symbol ";") ∧
    Keeps (itemEnd .code 1) some bare (symbol "\x7d") :=
  ⟨keeps_char (e := ';') rfl rfl fun _ => rfl, keeps_char (e := '\x7d') rfl rfl fun _ => rfl⟩

end Parser

end AttrCheck
