import AttrCheck.Proofs.DirectiveReading
import AttrCheck.Proofs.Erasure
import AttrCheck.Proofs.FunctionWise

/-! Hints that are printed and read back. A function whose body is lines of directives in front of a
loop is accepted, whatever hints the lines hold and however they are spread over them; the check
attaches these hints to the loop, in order, and reports their conflicts and nothing else. -/

namespace AttrCheck

namespace Parser

variable {n : Nat} {sub : Parser Stmt}

def loopFronts : List String := ["while", "do", "for"]

theorem gives_orElse {α : Type} {p q : Parser α} {P : α → Prop} (hp : Gives p P)
    (hq : Gives q P) : Gives (p <|> q) P :=
  fun c a c' e => (orElse_eq_some e).elim (hp c a c') (hq c a c')

theorem isLoop_iff_of_stmtWith {c c' : Cursor} {s : Stmt} (h : stmtWith n sub c = some (s, c')) :
    s.isLoop = true ↔ front c.rest ∈ loopFronts := by
  have hgives : ∀ g ∈ wordForms n sub,
      Gives g.2 fun s => s.isLoop = decide (g.1 ∈ [["while"], ["do"], ["for"]]) := by
    intro g hg
    simp only [wordForms, List.mem_cons, List.not_mem_nil, or_false] at hg
    obtain rfl | rfl | rfl | rfl | rfl | rfl | rfl | rfl | rfl | rfl | rfl | rfl | rfl | rfl := hg
    all_goals
      repeat first
        | exact gives_pure rfl
        | refine gives_bind fun _ => ?_
        | refine gives_orElse ?_ ?_
  have hwords : ∀ ks ∈ wordFronts, ∀ w ∈ ks,
      w ∈ loopFronts ↔ ks ∈ [["while"], ["do"], ["for"]] := by
    decide
  obtain ⟨f, hf, h⟩ := exists_form_of_stmtWith h
  have hfront := begins_stmtForms f hf c s c' h
  obtain hf | hf := List.mem_append.mp hf
  · obtain ⟨g, hg, rfl⟩ := List.mem_map.mp hf
    have hmem : g.1 ∈ wordFronts := List.mem_map_of_mem (f := Prod.fst) hg
    rw [hwords g.1 hmem _ hfront, hgives g hg c s c' h, decide_eq_true_eq]
  · obtain rfl := List.mem_singleton.mp hf
    have hexpr : Gives (exprStmt n) fun s => s.isLoop = false := by
      repeat first | exact gives_pure rfl | refine gives_bind fun _ => ?_
    have hall : ∀ w ∈ loopFronts, w ∈ statementFronts := by decide
    exact iff_of_false (by simp [hexpr c s c' h]) fun hc => hfront (hall _ hc)

theorem prefix_front (cs : List Char) : (front cs).toList <+: cs := by
  rw [front, String.toList_ofList]
  split_ifs
  · exact List.take_prefix 1 cs
  · exact List.takeWhile_prefix _

theorem annotation?_of_stmt {c c' : Cursor} {s t : Stmt} (h : stmt n c = some (s, c'))
    (hn : c.rest.length < n) (ht : t ∈ s.preorder)
    (hplain : ∀ w ∈ specifierFronts, ¬ w.toList <:+: c.rest) : t.annotation? = none := by
  obtain ⟨m, d, d', hreach, _, hread⟩ | hsimple := exists_read_of_stmt h hn ht
  · by_contra ha
    cases m with
    | zero => cases hread
    | succ m =>
      obtain ⟨_, _, hspec, _⟩ := bind_eq_some_iff.mp (annotatedStmt_of_annotated hread ha)
      have hfront := Begins.bind begins_anySpecifier _ _ _ hspec
      obtain ⟨z, hz, _⟩ := hreach
      exact hplain _ hfront
        (hz ▸ (prefix_front d.rest).isInfix.trans (List.suffix_append z _).isInfix)
  · exact hsimple.2

end Parser

def bodyEnd : List Char := ['\n', '\x7d']

theorem free_append {cs : List Char} (h : ∀ w ∈ Parser.specifierFronts, ¬ w.toList <:+: cs) :
    ∀ w ∈ Parser.specifierFronts, ¬ w.toList <:+: cs ++ bodyEnd := by
  have hfree : ∀ w ∈ Parser.specifierFronts, w.toList ≠ [] ∧ ∀ c ∈ w.toList, c ∉ bodyEnd := by
    decide
  rintro w hw ⟨before, behind, heq⟩
  obtain ⟨hne, hchars⟩ := hfree w hw
  obtain ⟨rest, hcs, _⟩ | ⟨cut, hcut, hend⟩ := List.append_eq_append_iff.mp heq
  · exact h w hw ⟨before, rest, hcs.symm⟩
  · obtain rfl | ⟨cut, c, rfl⟩ := List.eq_nil_or_concat cut
    · rw [List.append_nil] at hcut
      exact h w hw ⟨before, [], by rw [List.append_nil, hcut]⟩
    · -- The last character of the specifier's word would be one of those behind the text.
      have hlast : c ∈ w.toList.getLast? := by
        have heq := congrArg List.getLast? hcut
        rw [List.getLast?_append_of_ne_nil _ hne] at heq
        simp [heq]
      have hmem : c ∈ bodyEnd := hend ▸ by simp
      exact absurd hmem (hchars c (List.mem_of_getLast? hlast))

/-- A text that is a loop, wherever it stands at the end of a function body, and in which no
statement has attributes. -/
structure IsPlainLoop (loop : String) : Prop where
  reads : ∀ l, ∃ s l', Parser.stmt (loop.toList.length + 3) ⟨l, loop.toList ++ bodyEnd⟩ =
    some (s, ⟨l', bodyEnd⟩) ∧ s.isLoop ∧ ∀ t ∈ s.preorder, t.annotation? = none

namespace IsPlainLoop

open AttrCheck.Parser

variable {loop : String}

theorem of_read {l₀ l₀' : Loc} {s₀ : Stmt}
    (hread : stmt (loop.toList.length + 3) ⟨l₀, loop.toList ++ bodyEnd⟩ = some (s₀, ⟨l₀', bodyEnd⟩))
    (hloop : s₀.isLoop) (hfree : ∀ w ∈ specifierFronts, ¬ w.toList <:+: loop.toList) :
    IsPlainLoop loop where
  reads l := by
    have hlen : (loop.toList ++ bodyEnd).length < loop.toList.length + 3 := by
      rw [List.length_append]
      exact Nat.lt_succ_self _
    have halike : Alike False (loop.toList.length + 3) (stmt (loop.toList.length + 3))
        (stmt (loop.toList.length + 3)) := alike_stmt (Nat.le_refl _) (Nat.le_refl _)
    have hrest := halike.rest_eq hlen l₀ l
    rw [hread] at hrest
    obtain ⟨⟨s, l', r⟩, hread', rfl⟩ := Option.map_eq_some_iff.mp hrest.symm
    have hfront := (isLoop_iff_of_stmtWith hread).mp hloop
    refine ⟨s, l', hread', (isLoop_iff_of_stmtWith hread').mpr hfront, fun t ht => ?_⟩
    exact annotation?_of_stmt hread' hlen ht (free_append hfree)

variable (h : IsPlainLoop loop)
include h

theorem front_mem : front (loop.toList ++ bodyEnd) ∈ loopFronts := by
  obtain ⟨s, l', hread, hloop, _⟩ := h.reads (Loc.start "")
  exact (isLoop_iff_of_stmtWith hread).mp hloop

theorem exists_read {n : Nat} (hn : loop.toList.length + 2 < n) (l : Loc) : ∃ s l',
    stmt n ⟨l, loop.toList ++ bodyEnd⟩ = some (s, ⟨l', bodyEnd⟩) ∧ s.isLoop ∧
      ∀ t ∈ s.preorder, t.annotation? = none := by
  have hlen : (loop.toList ++ bodyEnd).length < loop.toList.length + 3 := by
    rw [List.length_append]
    exact Nat.lt_succ_self _
  have halike : Alike True (loop.toList.length + 3) (stmt (loop.toList.length + 3)) (stmt n) :=
    alike_stmt (Nat.le_refl _) hn
  exact halike.eq (c := ⟨l, loop.toList ++ bodyEnd⟩) hlen ▸ h.reads l

theorem spaced_loop {α : Type} (p : Parser α) (l : Loc) :
    spaced p ⟨l, loop.toList ++ bodyEnd⟩ = p ⟨l, loop.toList ++ bodyEnd⟩ := by
  have hall : ∀ w ∈ loopFronts, ∃ c ∈ w.toList.head?, ¬ OpensLayout c := by decide
  refine spaced_of_head ?_
  rw [← head?_front]
  exact hall _ h.front_mem

theorem anySpecifier_eq_none (n : Nat) (inner : Parser Expr) (l : Loc) :
    anySpecifier n inner ⟨l, loop.toList ++ bodyEnd⟩ = none := by
  have hall : ∀ w ∈ loopFronts, w ∉ specifierFronts := by decide
  cases hspec : anySpecifier n inner ⟨l, loop.toList ++ bodyEnd⟩ with
  | none => rfl
  | some x => exact absurd (begins_anySpecifier _ x.1 x.2 hspec) (hall _ h.front_mem)

end IsPlainLoop

namespace Parser

open LoopHint

theorem oneWordOf_append {words : List String} (hw : ∀ s ∈ words, IsWhole s)
    (hnodup : words.Pairwise (· ≠ ·)) {s : String} (hs : s ∈ words) (l : Loc) {r : List Char}
    (hr : ∀ c ∈ r.head?, Text.isWord c = false) :
    oneWordOf words ⟨l, s.toList ++ r⟩ = some (s, ⟨l.after s.toList, r⟩) := by
  let forms : List ((String → Prop) × Parser String) := words.map fun s => ((· = s), theWord s)
  have hforms : forms.map Prod.snd = words.map theWord := by simp [forms]
  have hread : theWord s ⟨l, s.toList ++ r⟩ = some (s, ⟨l.after s.toList, r⟩) := by
    rw [theWord, bind_of_eq_some (keyword_append s l hr)]
    rfl
  have hbegins : ∀ f ∈ forms, Begins f.2 f.1 := by
    intro f hf
    obtain ⟨t, ht, rfl⟩ := List.mem_map.mp hf
    exact begins_theWord (hw t ht)
  have hdiffer : forms.Pairwise fun f g => ∀ w, f.1 w → ¬ g.1 w :=
    List.pairwise_map.mpr (hnodup.imp fun hne w hw hw' => hne (hw.symm.trans hw'))
  rw [oneWordOf, ← hforms]
  exact firstOf_eq_some_of_begins hbegins hdiffer (List.mem_map_of_mem hs) hread

theorem typeName_append {s : String} (hs : s ∈ ["int", "void"]) (n : Nat) (l : Loc) {c : Char}
    (hc : isNamePart c) (cs : List Char) : typeName n ⟨l, s.toList ++ ' ' :: c :: cs⟩ =
      some (⟨false, s⟩, ⟨l.after s.toList, ' ' :: c :: cs⟩) := by
  have hwhole : ∀ s ∈ ["int", "void"], IsWhole s ∧ s ∈ baseTypes := by decide
  obtain ⟨⟨hne, hall⟩, hmem⟩ := hwhole s hs
  have hbase : oneWordOf baseTypes ⟨l, s.toList ++ ' ' :: c :: cs⟩ =
      some (s, ⟨l.after s.toList, ' ' :: c :: cs⟩) :=
    oneWordOf_append (by decide) (by decide) hmem l (by rintro d ⟨⟩; decide)
  have hfront : front (s.toList ++ ' ' :: c :: cs) = s := by
    rw [front_append hne hall (by rintro d ⟨⟩; decide), String.ofList_toList]
  have hnone (w : String) (hw : IsWhole w) (hdiffer : ∀ s ∈ ["int", "void"], w ≠ s) :
      wordAndBlank w ⟨l, s.toList ++ ' ' :: c :: cs⟩ = none := by
    cases hread : wordAndBlank w ⟨l, s.toList ++ ' ' :: c :: cs⟩ with
    | none => rfl
    | some x =>
      exact absurd ((begins_wordAndBlank hw _ x.1 x.2 hread).symm.trans hfront) (hdiffer s hs)
  have hmark (l : Loc) : declarator ⟨l, ' ' :: c :: cs⟩ = none := by
    have hblank : ∀ d ∈ (c :: cs).head?, Text.isBlank d = false := by
      rintro d ⟨⟩
      by_contra hb
      have hword := Text.not_isWord_of_isBlank (by simpa using hb)
      rw [isWord_of_isNamePart hc] at hword
      cases hword
    have hsymbol : ∀ t ∈ ["*", "&"], ∀ l, symbol t ⟨l, c :: cs⟩ = none := by
      have hmarks : ∀ t ∈ ["*", "&"], ∃ d ∈ t.toList.head?, isNamePart d = false := by decide
      intro t ht l
      obtain ⟨d, hd, hpart⟩ := hmarks t ht
      refine symbol_eq_none ⟨d, hd, ?_⟩
      rintro rfl
      rw [hc] at hpart
      cases hpart
    have hrun := run_append (t := [' ']) (by decide) hblank l
    rw [List.singleton_append] at hrun
    rw [declarator, bind_of_eq_some hrun]
    have hstar := hsymbol "*" (.head _) (l.after [' '])
    have hamp := hsymbol "&" (.tail _ (.head _)) (l.after [' '])
    exact bind_of_eq_none ((firstOf_of_none (bind_of_eq_none hstar _) _).trans
      (firstOf_of_none (bind_of_eq_none hamp _) _)) _
  have hsigned : firstOf [wordAndBlank "unsigned", wordAndBlank "signed"]
      ⟨l, s.toList ++ ' ' :: c :: cs⟩ = none := by
    rw [firstOf_of_none (hnone "unsigned" (by decide) (by decide)),
      firstOf_of_none (hnone "signed" (by decide) (by decide))]
    rfl
  rw [typeName, bind_of_eq_some (maybe_of_none (hnone "const" (by decide) (by decide)))]
  refine (bind_of_eq_some ((firstOf_of_none (bind_of_eq_none hsigned _) _).trans
    (firstOf_of_some hbase _))).trans ?_
  rw [bind_of_eq_some (many_of_none (hmark _) n)]
  simp
  rfl

theorem layout_blank {b : Char} (hb : Text.isBlank b) (l : Loc) (cs : List Char) :
    layout ⟨l, b :: cs⟩ = layout ⟨l.next b, cs⟩ := by
  have hskip : skipLayout .code l (b :: cs) = skipLayout .code (l.next b) cs := by
    simp [skipLayout, hb]
  exact congrArg (fun c => some ((), c)) hskip

section Function

variable {loop : String} (hloop : IsPlainLoop loop) {groups : List (List LoopHint)}
  (hne : groups ≠ []) (hgroup : ∀ g ∈ groups, g ≠ [])
  (hr : ∀ g ∈ groups, ∀ h ∈ g, h.InRange)
include hloop hne hgroup hr

theorem stmt_directives {k : Nat} (hk : (lineChars groups).length + loop.toList.length + 2 < k)
    (l : Loc) : ∃ attrs s range l₁ l',
      stmt (k + 1) ⟨l, lineChars groups ++ (loop.toList ++ bodyEnd)⟩ =
        some (.annotated attrs s range l₁, ⟨l', bodyEnd⟩) ∧
      List.Forall₂ Writes groups.flatten attrs ∧ s.isLoop ∧
      ∀ t ∈ s.preorder, t.annotation? = none := by
  have hend (l : Loc) : spaced (anySpecifier (k + 1) (expr (k + 1)))
      ⟨l, loop.toList ++ bodyEnd⟩ = none :=
    (hloop.spaced_loop _ l).trans (hloop.anySpecifier_eq_none _ _ l)
  obtain ⟨hcount, hgroups⟩ := length_le_lineChars groups
  obtain ⟨spec, hspec, hattrs⟩ := specifiers_directives hgroup hr k
    (fun g hg => by have hle := hgroups g hg; omega) hend hne (by omega) l
  have hk' : loop.toList.length + 2 < k := by omega
  obtain ⟨s, l', hread, hisLoop, hplain⟩ := hloop.exists_read hk' (l.after (lineChars groups))
  have hform : ((· ∈ specifierFronts), annotatedStmt (k + 1) (stmt k)) ∈
      stmtForms (k + 1) (stmt k) := .head _
  have hannotated : annotatedStmt (k + 1) (stmt k)
      ⟨l, lineChars groups ++ (loop.toList ++ bodyEnd)⟩ =
        some (.annotated spec.attrs s spec.range spec.range.start, ⟨l', bodyEnd⟩) := by
    rw [annotatedStmt, bind_of_eq_some hspec,
      bind_of_eq_some ((hloop.spaced_loop _ _).trans hread)]
    rfl
  exact ⟨spec.attrs, s, spec.range, spec.range.start, l', stmtWith_eq_some hform hannotated, hattrs,
    hisLoop, hplain⟩

theorem compoundStmt_directives {k : Nat}
    (hk : (lineChars groups).length + loop.toList.length + 2 < k) (l : Loc) :
    ∃ attrs s range l₁ l',
      compoundStmt (k + 1) (stmt (k + 1))
          ⟨l, '\x7b' :: '\n' :: (lineChars groups ++ (loop.toList ++ bodyEnd))⟩ =
        some (.compound [.annotated attrs s range l₁] l, ⟨l', []⟩) ∧
      List.Forall₂ Writes groups.flatten attrs ∧ s.isLoop ∧
      ∀ t ∈ s.preorder, t.annotation? = none := by
  obtain ⟨attrs, s, range, l₁, l', hread, hattrs, hisLoop, hplain⟩ :=
    stmt_directives hloop hne hgroup hr hk ((l.next '\x7b').next '\n')
  refine ⟨attrs, s, range, l₁, (l'.next '\n').next '\x7d', ?_, hattrs, hisLoop, hplain⟩
  have hopen : symbol "\x7b" ⟨l, '\x7b' :: '\n' :: (lineChars groups ++ (loop.toList ++ bodyEnd))⟩ =
      some ((), ⟨l.next '\x7b', '\n' :: (lineChars groups ++ (loop.toList ++ bodyEnd))⟩) :=
    symbol_append "\x7b" l _
  have hclose (l : Loc) : symbol "\x7d" ⟨l, ['\x7d']⟩ = some ((), ⟨l.next '\x7d', []⟩) :=
    symbol_append "\x7d" l []
  have hlayout : layout ⟨l.next '\x7b', '\n' :: (lineChars groups ++ (loop.toList ++ bodyEnd))⟩ =
      some ((), ⟨(l.next '\x7b').next '\n', lineChars groups ++ (loop.toList ++ bodyEnd)⟩) := by
    obtain ⟨g, groups, rfl⟩ := List.exists_cons_of_ne_nil hne
    have hchars : lineChars (g :: groups) = (directiveText g).toList ++ lineChars groups :=
      List.flatMap_cons
    rw [layout_blank (by decide), hchars, List.append_assoc]
    exact layout_directiveText (hgroup g (.head _)) _ _
  have hlast : many (stmt (k + 1) <* layout) k ⟨l'.next '\n', ['\x7d']⟩ =
      some ([], ⟨l'.next '\n', ['\x7d']⟩) := by
    refine many_of_none ?_ k
    cases hstmt : (stmt (k + 1) <* layout) ⟨l'.next '\n', ['\x7d']⟩ with
    | none => rfl
    | some x =>
      have hfront := Begins.bind (begins_stmt (k + 1)) _ x.1 x.2 hstmt
      have hend : front ['\x7d'] ∈ ["\x7d", "else"] := by decide
      exact absurd hend hfront
  have hbody : many (stmt (k + 1) <* layout) (k + 1)
      ⟨(l.next '\x7b').next '\n', lineChars groups ++ (loop.toList ++ bodyEnd)⟩ =
        some ([.annotated attrs s range l₁], ⟨l'.next '\n', ['\x7d']⟩) := by
    refine many_of_some ?_ hlast
    show (stmt (k + 1) >>= fun a => layout >>= fun _ => pure a) _ = _
    rw [bind_of_eq_some hread]
    rfl
  rw [compoundStmt, bind_here_apply, bind_of_eq_some hopen, bind_of_eq_some hlayout,
    bind_of_eq_some hbody, bind_of_eq_some (hclose _)]
  rfl

theorem function_directives {k : Nat}
    (hk : (lineChars groups).length + loop.toList.length + 2 < k) (l : Loc) : ∃ f attrs s range l₁ l₂ l',
      function (k + 1) ⟨l, "void f(int n) ".toList ++
          '\x7b' :: '\n' :: (lineChars groups ++ (loop.toList ++ bodyEnd))⟩ = some (f, ⟨l', []⟩) ∧
      f.body = .compound [.annotated attrs s range l₁] l₂ ∧
      List.Forall₂ Writes groups.flatten attrs ∧ s.isLoop ∧
      ∀ t ∈ s.preorder, t.annotation? = none := by
  have hbody := compoundStmt_directives hloop hne hgroup hr hk
  generalize '\n' :: (lineChars groups ++ (loop.toList ++ bodyEnd)) = rest at hbody ⊢
  have htext : "void f(int n) ".toList ++ '\x7b' :: rest = "void".toList ++ ' ' :: 'f' ::
      '(' :: ("int".toList ++ ' ' :: 'n' :: ')' :: ' ' :: '\x7b' :: rest) := rfl
  have hlayout (l : Loc) {c : Char} (hc : ¬ OpensLayout c) (cs : List Char) :
      layout ⟨l, c :: cs⟩ = some ((), ⟨l, c :: cs⟩) :=
    congrArg (fun c => some ((), c)) (skipLayout_stop hc l cs)
  have hblank (l : Loc) {c : Char} (hc : ¬ OpensLayout c) (cs : List Char) :
      layout ⟨l, ' ' :: c :: cs⟩ = some ((), ⟨l.next ' ', c :: cs⟩) :=
    (layout_blank (by decide) l _).trans (hlayout _ hc cs)
  have hname {c d : Char} (hc : IsName (String.ofList [c])) (hopens : ¬ OpensLayout c)
      (hd : Text.isWord d = false) (l : Loc) (cs : List Char) : spaced name ⟨l, ' ' :: c :: d :: cs⟩ =
        some (String.ofList [c], ⟨(l.next ' ').next c, d :: cs⟩) := by
    have hread := name_append hc (l.next ' ') (r := d :: cs) (by rintro e ⟨⟩; exact hd)
    rw [String.toList_ofList] at hread
    exact (bind_of_eq_some (hblank l hopens _)).trans hread
  have htemplate (l : Loc) (cs : List Char) : Parser.orElse (templateHeader (k + 1)) []
      ⟨l, "void".toList ++ cs⟩ = some ([], ⟨l, "void".toList ++ cs⟩) := by
    have hvoid : "void".toList = 'v' :: "oid".toList := by decide
    rw [hvoid]
    have hnone : templateHeader (k + 1) ⟨l, 'v' :: ("oid".toList ++ cs)⟩ = none :=
      bind_of_eq_none (bind_of_eq_none (symbol_eq_none (by decide)) _) _
    exact orElse_of_none hnone []
  have hparams (l : Loc) (cs : List Char) : ∃ params l',
      spaced (parens (Parser.orElse (commaList (param (k + 1)) (k + 1)) []))
        ⟨l, '(' :: ("int".toList ++ ' ' :: 'n' :: ')' :: cs)⟩ = some (params, ⟨l', cs⟩) := by
    let inside := l.next '('
    have hparam : param (k + 1) ⟨inside, "int".toList ++ ' ' :: 'n' :: ')' :: cs⟩ =
        some (some "n", ⟨((inside.after "int".toList).next ' ').next 'n', ')' :: cs⟩) := by
      have htype := typeName_append (.head _ : "int" ∈ ["int", "void"]) (k + 1) inside
        (by decide : isNamePart 'n') (')' :: cs)
      rw [param, bind_of_eq_some htype]
      exact maybe_of_some (hname (by decide) (by decide) (by decide) _ _)
    have hcomma (l : Loc) : (spaced (symbol ",") *> spaced (param (k + 1))) ⟨l, ')' :: cs⟩ = none :=
      bind_of_eq_none ((bind_of_eq_some (hlayout l (by decide) cs)).trans
        (symbol_eq_none (by decide))) _
    have hlist : commaList (param (k + 1)) (k + 1)
        ⟨inside, "int".toList ++ ' ' :: 'n' :: ')' :: cs⟩ =
        some ([some "n"], ⟨((inside.after "int".toList).next ' ').next 'n', ')' :: cs⟩) := by
      rw [commaList, bind_of_eq_some hparam, bind_of_eq_some (many_of_none (hcomma _) _)]
      rfl
    have hopen : symbol "(" ⟨l, '(' :: ("int".toList ++ ' ' :: 'n' :: ')' :: cs)⟩ =
        some ((), ⟨inside, "int".toList ++ ' ' :: 'n' :: ')' :: cs⟩) := symbol_append "(" l _
    have hclose (l : Loc) : spaced (symbol ")") ⟨l, ')' :: cs⟩ = some ((), ⟨l.next ')', cs⟩) :=
      (bind_of_eq_some (hlayout l (by decide) cs)).trans (symbol_append ")" l cs)
    have horElse : spaced (Parser.orElse (commaList (param (k + 1)) (k + 1)) [])
        ⟨inside, "int".toList ++ ' ' :: 'n' :: ')' :: cs⟩ =
          some ([some "n"], ⟨((inside.after "int".toList).next ' ').next 'n', ')' :: cs⟩) := by
      exact (spaced_of_head ⟨'i', rfl, by decide⟩).trans (orElse_of_some hlist [])
    refine ⟨[some "n"], (((inside.after "int".toList).next ' ').next 'n').next ')',
      (bind_of_eq_some (hlayout l (by decide) _)).trans ?_⟩
    rw [parens, bind_of_eq_some hopen, bind_of_eq_some horElse, bind_of_eq_some (hclose _)]
    rfl
  have htype := typeName_append (.tail _ (.head _) : "void" ∈ ["int", "void"]) (k + 1) l
    (by decide : isNamePart 'f') ('(' :: ("int".toList ++ ' ' :: 'n' :: ')' :: ' ' :: '\x7b' :: rest))
  obtain ⟨params, l', hparams⟩ := hparams (((l.after "void".toList).next ' ').next 'f')
    (' ' :: '\x7b' :: rest)
  obtain ⟨attrs, s, range, l₁, l₂, hblock, hfacts⟩ := hbody (l'.next ' ')
  refine ⟨⟨"f", .compound [.annotated attrs s range l₁] (l'.next ' '), params.filterMap id, [], "void",
    l⟩, attrs, s, range, l₁, l'.next ' ', l₂, ?_, rfl, hfacts⟩
  have hblock' : spaced (compoundStmt (k + 1) (stmt (k + 1))) ⟨l', ' ' :: '\x7b' :: rest⟩ =
      some (.compound [.annotated attrs s range l₁] (l'.next ' '), ⟨l₂, []⟩) :=
    (bind_of_eq_some (hblank l' (by decide) rest)).trans hblock
  rw [htext, function, bind_here_apply]
  refine (bind_of_eq_some (htemplate l _)).trans ?_
  rw [bind_of_eq_some htype,
    bind_of_eq_some (hname (by decide) (by decide) (by decide) _ _), bind_of_eq_some hparams,
    bind_of_eq_some hblock']
  rfl

end Function

end Parser

theorem parse_of_item {file text : String} {item : TopLevel} {l : Loc}
    (hhead : ∃ c ∈ text.toList.head?, ¬ OpensLayout c)
    (hitem : Parser.topLevel (text.toList.length + 1) (.ofText file text) =
      some (item, ⟨l, []⟩)) : parse file text = .ok (.ofItems file [item]) := by
  have hround : (Parser.topLevel (text.toList.length + 1) <* Parser.layout) (.ofText file text) =
      some (item, ⟨l, []⟩) := by
    refine (Parser.bind_of_eq_some hitem).trans ?_
    rfl
  have hlast (n : Nat) : (Parser.topLevel n <* Parser.layout) ⟨l, []⟩ = none := by
    cases hread : (Parser.topLevel n <* Parser.layout) ⟨l, []⟩ with
    | none => rfl
    | some x =>
      have hpasses := ((Parser.consumes_topLevel n).seqLeft Parser.advances_layout) _ x.1 x.2 hread
      exact absurd (Parser.length_lt_of_passes hpasses) (Nat.not_lt_zero _)
  have hitems : Parser.items (text.toList.length + 1) (.ofText file text) =
      some ([item], ⟨l, []⟩) :=
    (Parser.spaced_of_head hhead).trans
      (Parser.many_of_some hround (Parser.many_of_none (hlast _) _))
  exact parse_of_items hitems rfl

theorem parse_of_function {file text : String} {f : Function} {l : Loc}
    (hhead : ∃ c ∈ text.toList.head?, ¬ OpensLayout c)
    (hf : Parser.function (text.toList.length + 1) (.ofText file text) = some (f, ⟨l, []⟩)) :
    parse file text = .ok ⟨[f], [], file⟩ :=
  parse_of_item hhead
    (Parser.choice_of_some (Parser.map_eq_some_iff.mpr ⟨f, hf, rfl⟩) _)

def hintedText (groups : List (List LoopHint)) (loop : String) : String :=
  "void f(int n) \x7b\n" ++ LoopHint.directiveLines groups ++ loop ++ "\n\x7d"

theorem toList_hintedText (groups : List (List LoopHint)) (loop : String) :
    (hintedText groups loop).toList = "void f(int n) ".toList ++
      '\x7b' :: '\n' :: (LoopHint.lineChars groups ++ (loop.toList ++ bodyEnd)) := by
  have hparts (head lines tail : String) : (head ++ lines ++ loop ++ tail).toList =
      head.toList ++ (lines.toList ++ (loop.toList ++ tail.toList)) := by
    simp only [String.toList_append, List.append_assoc]
  have hhead : "void f(int n) \x7b\n".toList = "void f(int n) ".toList ++ ['\x7b', '\n'] := by
    decide
  have htail : "\n\x7d".toList = bodyEnd := by decide
  refine (hparts _ _ _).trans ?_
  simp only [hhead, htail, LoopHint.toList_directiveLines, List.append_assoc, List.cons_append,
    List.nil_append]

namespace LoopHint

def Same (h h' : LoopHint) : Prop := h'.option = h.option ∧ h'.value = h.value

theorem map_same {hs hs' : List LoopHint} (h : List.Forall₂ Same hs hs') :
    hs'.map (fun h => (h.option, h.value)) = hs.map fun h => (h.option, h.value) := by
  induction h with
  | nil => rfl
  | cons h _ ih => rw [List.map_cons, List.map_cons, ih, h.1, h.2]

theorem hintValue_written {h : LoopHint} (hr : h.InRange) (l : Loc) (scopes : Scopes) :
    hintValue h.option (((h.written l).bound scopes).valueWord l)
      (((h.written l).bound scopes).expr? 2) = .ok h.value := by
  unfold InRange at hr
  cases hc : h.option.optionClass with
  | boolean =>
    simp only [hc] at hr
    have hexpr : ∀ l', h.valueExpr l' = .name h.valueText .runtime l' := by simp [valueExpr, hc]
    have hword : (((h.written l).bound scopes).valueWord l).name = some h.valueText := by
      simp only [written, hexpr]
      rfl
    obtain hv | hv := hr <;> simp [hintValue, hc, hword, valueText_boolean hc, hv, switchText]
  | numeric =>
    simp only [hc] at hr
    have hexpr : ∀ l', h.valueExpr l' = .int h.value h.valueText l' := by simp [valueExpr, hc]
    have hint : ∃ l', ((h.written l).bound scopes).expr? 2 =
        some (.int h.value h.valueText l') := by
      simp only [written, hexpr]
      exact ⟨_, rfl⟩
    obtain ⟨l', hint⟩ := hint
    have hfits : fitting h.value = some h.value :=
      fitting_eq_some_iff.mpr ⟨rfl, by omega, by omega⟩
    simp [hintValue, hc, hint, Expr.constant?, hfits, hr.1]

theorem verdict_written {h : LoopHint} (hr : h.InRange) (l : Loc) (scopes : Scopes) {t : Target}
    (ht : t.kind.isLoop = true) (inSwitch strict : Bool) : ∃ h', h.Same h' ∧
      ((h.written l).bound scopes).verdict t inSwitch strict = .keep (.hint h') := by
  have hkind : ((h.written l).bound scopes).kind = .loopHint := by
    have hfind : AttrKind.find .pragma none "loop" = .loopHint := by decide
    exact hfind
  have hoption : HintOption.resolve? strict h.option.text = some h.option := by
    rw [HintOption.resolve?, HintOption.ofText?_text]
  have hread : ((h.written l).bound scopes).readHint strict =
      .keep (.hint ⟨h.option, h.value, (h.written l).range⟩) := by
    have hident : ((h.written l).bound scopes).ident? 0 = some ⟨l, some h.option.text⟩ := rfl
    simp only [RawAttr.readHint, hident, hoption, hintValue_written hr l scopes]
    rfl
  refine ⟨⟨h.option, h.value, (h.written l).range⟩, ⟨rfl, rfl⟩, ?_⟩
  rw [RawAttr.verdict, hkind]
  exact (if_pos ht).trans hread

end LoopHint

namespace Site

variable {s : Site}

theorem exists_kept (ht : s.target.kind.isLoop = true) {hs : List LoopHint}
    (hr : ∀ h ∈ hs, h.InRange) (hw : List.Forall₂ LoopHint.Writes hs s.attrs) :
    ∃ hints, List.Forall₂ LoopHint.Same hs hints ∧ s.kept = hints.map .hint ∧
      s.reports = conflicts (hints.map .hint) := by
  have hverdicts : ∃ hints, List.Forall₂ LoopHint.Same hs hints ∧
      s.bound.map s.verdict = hints.map fun h => .keep (.hint h) := by
    rw [bound, List.map_map]
    generalize s.attrs = attrs at hw ⊢
    induction hw with
    | nil => exact ⟨[], .nil, rfl⟩
    | @cons h a hs as hwrites _ ih =>
      obtain ⟨hints, hsame, hmap⟩ := ih fun h' hh' => hr h' (.tail _ hh')
      obtain ⟨l, rfl⟩ := hwrites
      obtain ⟨h', hsame', hkeep⟩ := LoopHint.verdict_written (hr h (.head _)) l s.setting.scopes ht
        s.setting.inSwitch s.setting.strict
      exact ⟨h' :: hints, .cons hsame' hsame, congrArg₂ List.cons hkeep hmap⟩
  obtain ⟨hints, hsame, hmap⟩ := hverdicts
  have hkept : s.kept = hints.map .hint := by
    have hall : (s.bound.map s.verdict).filterMap Verdict.kept? = hints.map .hint := by
      rw [hmap, List.filterMap_map]
      exact List.filterMap_eq_map_iff_forall_eq_some.mpr fun _ _ => rfl
    rw [List.filterMap_map] at hall
    exact hall
  have hrejections : s.rejections = [] := by
    refine List.filterMap_eq_nil_iff.mpr fun a ha => ?_
    have hmem : s.verdict a ∈ hints.map fun h => Verdict.keep (.hint h) :=
      hmap ▸ List.mem_map_of_mem ha
    obtain ⟨h, _, hkeep⟩ := List.mem_map.mp hmem
    rw [← hkeep]
    rfl
  exact ⟨hints, hsame, hkept, by rw [reports, hrejections, hkept, List.nil_append]⟩

end Site

def Report.wording (r : Report) : DiagId × List DiagArg := (r.id, r.args)

theorem wording_hintReports {h h' : LoopHint} (hsame : h.Same h') (s : CategoryState) :
    (hintReports s h').map Report.wording = (hintReports s h).map Report.wording := by
  obtain ⟨ho, hv⟩ := hsame
  have hadd : s.add h' = s.add h := by simp only [CategoryState.add, ho, hv]
  have hduplicate : (duplicateReport? s h').map Report.wording =
      (duplicateReport? s h).map Report.wording := by
    unfold duplicateReport?
    rw [ho, hv]
    cases h.option.optionClass <;> simp [conflictReport, Report.wording, Function.comp_def]
  have hincompatible : (incompatibleReport? (s.add h) h').map Report.wording =
      (incompatibleReport? (s.add h) h).map Report.wording := by
    unfold incompatibleReport?
    rw [ho]
    split <;> rfl
  rw [hintReports, hintReports, hadd, List.map_append, List.map_append, ← Option.toList_map,
    ← Option.toList_map, hduplicate, hincompatible, Option.toList_map, Option.toList_map]

theorem wording_scanHints {hs hs' : List LoopHint} (hsame : List.Forall₂ LoopHint.Same hs hs')
    (s : HintStates) :
    (scanHints s hs').1.map Report.wording = (scanHints s hs).1.map Report.wording := by
  induction hsame generalizing s with
  | nil => rfl
  | @cons h h' hs hs' hsame _ ih =>
    have hadd : s.add h' = s.add h := by
      obtain ⟨ho, hv⟩ := hsame
      funext c
      simp only [HintStates.add, CategoryState.add, ho, hv]
    have hfirst := wording_hintReports hsame (s h.option.category)
    rw [scanHints, scanHints, hadd, hsame.1, List.map_append, List.map_append, ih, hfirst]

theorem messages_congr (e : Engine) {rs rs' : List Report}
    (h : rs'.map Report.wording = rs.map Report.wording) :
    (rs'.filterMap e.diagnose?).map Diagnostic.message =
      (rs.filterMap e.diagnose?).map Diagnostic.message := by
  let message? (w : DiagId × List DiagArg) : Option (Except FormatError String) :=
    (e.severity? w.1).map fun _ => w.1.message w.2
  have hall (rs : List Report) : (rs.filterMap e.diagnose?).map Diagnostic.message =
      (rs.map Report.wording).filterMap message? := by
    rw [List.map_filterMap, List.filterMap_map]
    refine congrArg (rs.filterMap ·) (funext fun r => ?_)
    simp only [Engine.diagnose?, Option.map_map]
    rfl
  rw [hall, hall, h]

section Check

variable {loop : String} (hloop : IsPlainLoop loop) {groups : List (List LoopHint)}
  (hne : groups ≠ []) (hgroup : ∀ g ∈ groups, g ≠ [])
  (hr : ∀ g ∈ groups, ∀ h ∈ g, h.InRange)
include hloop hne hgroup hr

theorem parse_hintedText (file : String) : ∃ f attrs s range l₁ l₂,
    parse file (hintedText groups loop) = .ok ⟨[f], [], file⟩ ∧
      f.body = .compound [.annotated attrs s range l₁] l₂ ∧
      List.Forall₂ LoopHint.Writes groups.flatten attrs ∧ s.isLoop ∧
      ∀ t ∈ s.preorder, t.annotation? = none := by
  have htext := toList_hintedText groups loop
  have hlen : (LoopHint.lineChars groups).length + loop.toList.length + 2 <
      (hintedText groups loop).toList.length := by
    have hhead : "void f(int n) ".toList.length = 14 := by decide
    have hend : bodyEnd.length = 2 := rfl
    rw [htext]
    simp only [List.length_append, List.length_cons, hhead, hend]
    omega
  obtain ⟨f, attrs, s, range, l₁, l₂, l', hf, hfacts⟩ :=
    Parser.function_directives hloop hne hgroup hr hlen (Loc.start file)
  refine ⟨f, attrs, s, range, l₁, l₂, ?_, hfacts⟩
  have hvoid : "void f(int n) ".toList = 'v' :: "oid f(int n) ".toList := by decide
  have hhead : 'v' ∈ (hintedText groups loop).toList.head? := by
    rw [htext, hvoid]
    rfl
  rw [← htext] at hf
  exact parse_of_function ⟨'v', hhead, by decide⟩ hf

/-- Hints that are printed in lines of directives in front of a loop are attached to that loop, in
order, and what is reported is what they have in conflict. -/
theorem hinted_check (config : Config) (file : String) :
    ∃ (result : CheckResult) (f : Function) (s : Stmt) (range : Range) (l l' : Loc)
      (hints : List LoopHint), checkSource config file (hintedText groups loop) = .ok result ∧
      result.unit.functions = [f] ∧
      f.body = .compound [.attributed (hints.map .hint) s range l] l' ∧ s.isLoop = true ∧
      hints.map (fun h => (h.option, h.value)) =
        groups.flatten.map (fun h => (h.option, h.value)) ∧
      result.attributes = hints.map .hint ∧
      result.diagnostics.map Diagnostic.message =
        ((conflicts (groups.flatten.map .hint)).filterMap config.engine.diagnose?).map
          Diagnostic.message := by
  obtain ⟨f, attrs, s, range, l₁, l₂, hparse, hbody, hwrites, hisLoop, hplain⟩ :=
    parse_hintedText hloop hne hgroup hr file
  have hunannotated : s.postorder.filterMap Stmt.annotation? = [] :=
    List.filterMap_eq_nil_iff.mpr fun t ht => hplain t (s.postorder_perm_preorder.mem_iff.mp ht)
  have hself (st : Setting) : s.resolved st = s := s.resolved_eq_self hunannotated st
  have hnone (st : Setting) : s.sites st = [] :=
    List.map_eq_nil_iff.mp ((s.map_sites st).trans hunannotated)
  let strict := config.strictLoopOptions
  let inside := (f.setting strict [[]]).enter []
  let site : Site := ⟨attrs, range, s.target, inside.after s⟩
  have hsites : SourceUnit.sites strict ⟨[f], [], file⟩ = [site] := by
    show (f.body.sites (f.setting strict [[]])) ++ [] = [site]
    rw [hbody, Stmt.sites, Stmt.sitesAll, Stmt.sitesAll, Stmt.sites, hnone, hself]
    rfl
  have hranges : ∀ h ∈ groups.flatten, h.InRange := by
    intro h hh
    obtain ⟨g, hg, hh⟩ := List.mem_flatten.mp hh
    exact hr g hg h hh
  obtain ⟨hints, hsame, hkept, hreports⟩ := site.exists_kept hisLoop hranges hwrites
  have hne' : (hints.map Attr.hint).isEmpty = false := by
    obtain ⟨g, hg⟩ := List.exists_mem_of_ne_nil groups hne
    obtain ⟨h, hh⟩ := List.exists_mem_of_ne_nil g (hgroup g hg)
    have hlen := hsame.length_eq
    have hpos := List.length_pos_of_mem (List.mem_flatten_of_mem hg hh)
    rw [List.isEmpty_eq_false_iff, ← List.length_pos_iff, List.length_map]
    omega
  have hresolved : (f.resolved strict [[]]).body =
      .compound [.attributed (hints.map .hint) s range range.start] l₂ := by
    show f.body.resolved (f.setting strict [[]]) = _
    rw [hbody, Stmt.resolved, Stmt.resolvedAll, Stmt.resolvedAll, Stmt.resolved, hself]
    show Stmt.compound [s.withAttrs site.kept range] l₂ = _
    rw [hkept, Stmt.withAttrs, hne']
    rfl
  refine ⟨_, f.resolved strict [[]], s, range, range.start, l₂, hints, checkSource_eq hparse config,
    rfl, hresolved, hisLoop, ?_, ?_, ?_⟩
  · exact LoopHint.map_same hsame
  · show (SourceUnit.sites strict ⟨[f], [], file⟩).flatMap Site.kept = _
    rw [hsites, List.flatMap_singleton, hkept]
  · have hmessages := messages_congr config.engine (wording_scanHints hsame .initial)
    have hhints (hs : List LoopHint) : conflicts (hs.map .hint) = (scanHints .initial hs).1 := by
      simp [conflicts, Attr.hints, Function.comp_def, Attr.hint?]
    rw [hhints, ← hmessages, ← hhints, ← hreports]
    show (SourceUnit.checked config ⟨[f], [], file⟩).diagnostics.map _ = _
    rw [SourceUnit.diagnostics_checked, hsites, List.flatMap_singleton]

end Check

theorem isPlainLoop_endless : IsPlainLoop "for (;;) ;" := by
  have hread : ∃ x ∈ Parser.stmt ("for (;;) ;".toList.length + 3)
      ⟨Loc.start "a.cc", "for (;;) ;".toList ++ bodyEnd⟩,
      x.2.rest = bodyEnd ∧ x.1.isLoop = true := by
    decide +kernel
  obtain ⟨⟨s, l', r⟩, hread, hrest, hloop⟩ := hread
  have hend : r = bodyEnd := hrest
  subst hend
  exact .of_read hread hloop (by decide +kernel)

theorem hinted_check_conflicting : ∃ (result : CheckResult) (f : Function) (s : Stmt)
    (range : Range) (l l' : Loc) (hints : List LoopHint),
    checkSource {} "a.cc" (hintedText [[⟨.unroll, 0, .unknown⟩],
      [⟨.unrollCount, 9223372036854775807, .unknown⟩, ⟨.vectorize, 1, .unknown⟩]] "for (;;) ;") =
        .ok result ∧
      result.unit.functions = [f] ∧
      f.body = .compound [.attributed (hints.map .hint) s range l] l' ∧ s.isLoop = true ∧
      hints.map (fun h => (h.option, h.value)) =
        [(.unroll, 0), (.unrollCount, 9223372036854775807), (.vectorize, 1)] ∧
      result.attributes = hints.map .hint ∧
      result.diagnostics.map Diagnostic.message =
        ((conflicts (List.map Attr.hint [⟨.unroll, 0, .unknown⟩,
          ⟨.unrollCount, 9223372036854775807, .unknown⟩, ⟨.vectorize, 1, .unknown⟩])).filterMap
            (Config.engine {}).diagnose?).map Diagnostic.message := by
  have hrange : ∀ g ∈ ([[⟨.unroll, 0, .unknown⟩],
      [⟨.unrollCount, 9223372036854775807, .unknown⟩, ⟨.vectorize, 1, .unknown⟩]] :
        List (List LoopHint)), ∀ h ∈ g, h.InRange := by
    simp [LoopHint.InRange, HintOption.optionClass]
  exact hinted_check isPlainLoop_endless (by simp) (by simp) hrange {} "a.cc"

end AttrCheck
