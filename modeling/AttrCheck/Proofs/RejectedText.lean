import AttrCheck.Proofs.AppendedText
import AttrCheck.Proofs.LayoutPieces
import AttrCheck.Proofs.LinePlaces

/-! Texts that are not accepted. From the start of a text layout, functions and declarations are read
as long as one of them is in front of what is left. Where that ends is a character of the text which
is not white space, and the error stands there and shows the text from there on. -/

namespace AttrCheck

def Parser.ReadsItem (c c' : Cursor) : Prop :=
  ∀ n, c.rest.length < n →
    (∃ f, function n c = some (f, c')) ∨ ∃ d, variableDecl n c = some (d, c')

/-- Some layout and some items, in any order, are all that is read up to the second cursor. -/
inductive Cursor.Runs (start : Cursor) : Cursor → Prop where
  | refl : Runs start start
  | layout {loc : Loc} {t rest : List Char} (h : Runs start ⟨loc, t ++ rest⟩)
    (ht : LayoutPiece t rest) : Runs start ⟨loc.after t, rest⟩
  | item {c c' : Cursor} (h : Runs start c) (hc : Parser.ReadsItem c c') : Runs start c'

def Cursor.into (file : String) (text : List Char) (p : Nat) : Cursor :=
  ⟨Loc.ofOffset file text p, text.drop p⟩

namespace Parser

variable {n m : Nat} {c c' stop : Cursor}

theorem begins_function : Begins (function n) (· ∈ "template" :: typeFronts) := by
  refine .hereBind fun _ c a c' h => ?_
  obtain ⟨params, c₁, hparams, h⟩ := bind_eq_some_iff.mp h
  obtain hparams | hparams := orElse_eq_some hparams
  · have htemplate : Begins (templateHeader n) (· = "template") :=
      (begins_keyword (by decide)).bind
    rw [htemplate c params c₁ hparams]
    exact .head _
  · obtain ⟨_, rfl⟩ := pure_eq_some_iff.mp hparams
    exact .tail _ ((begins_typeName n).bind c a c' h)

theorem begins_topLevel : Begins (topLevel n) (· ∈ "template" :: typeFronts) := by
  have hdecl : Begins (variableDecl n) (· ∈ typeFronts) :=
    .hereBind fun _ => (begins_typeName n).bind
  exact (begins_function.map _).orElse ((hdecl.mono fun _ => .tail _).map _)

theorem skipLayout_topLevel {item : TopLevel} (h : topLevel n c = some (item, c')) :
    skipLayout .code c.loc c.rest = c := by
  have hfront := begins_topLevel c item c' h
  have hfronts : ∀ w ∈ "template" :: typeFronts, ∀ d ∈ w.toList.head?, ¬ OpensLayout d := by decide
  obtain ⟨loc, _ | ⟨d, cs⟩⟩ := c
  · rfl
  · exact skipLayout_stop (hfronts _ hfront d (head?_front (d :: cs) ▸ rfl)) loc cs

theorem topLevel_of_readsItem (h : ReadsItem c c') (hn : c.rest.length < n) :
    ∃ item, topLevel n c = some (item, c') := by
  obtain ⟨f, hf⟩ | ⟨d, hd⟩ := h n hn
  · exact ⟨.function f, choice_of_some (map_eq_some_iff.mpr ⟨f, hf, rfl⟩) _⟩
  · refine ⟨.global d, ?_⟩
    rw [topLevel, choice_of_none (map_of_eq_none (function_eq_none hd) _)]
    exact map_eq_some_iff.mpr ⟨d, hd, rfl⟩

theorem readsItem_of_topLevel {item : TopLevel} (h : topLevel n c = some (item, c'))
    (hn : c.rest.length < n) : ReadsItem c c' := by
  intro m hm
  have hread := (topLevel_followedBy h hn hm []).2
  rw [Cursor.followedBy_nil, Cursor.followedBy_nil] at hread
  obtain hf | hd := orElse_eq_some hread
  · obtain ⟨f, hf, _⟩ := map_eq_some_iff.mp hf
    exact .inl ⟨f, hf⟩
  · obtain ⟨d, hd, _⟩ := map_eq_some_iff.mp hd
    exact .inr ⟨d, hd⟩

def StopsAt (n : Nat) (c stop : Cursor) : Prop :=
  ∃ k items, c.rest.length < k ∧
    many (topLevel n <* layout) k (skipLayout .code c.loc c.rest) = some (items, stop)

theorem StopsAt.reaches (h : StopsAt n c stop) : c.Reaches stop := by
  obtain ⟨k, items, _, hmany⟩ := h
  have hround : Advances (topLevel n <* layout) :=
    ((consumes_topLevel n).seqLeft advances_layout).advances
  exact (advances_layout c () _ rfl).trans (hround.many k _ _ _ hmany)

theorem StopsAt.layout {loc : Loc} {t rest : List Char} (h : StopsAt n ⟨loc, t ++ rest⟩ stop)
    (ht : LayoutPiece t rest) : StopsAt n ⟨loc.after t, rest⟩ stop := by
  obtain ⟨k, items, hk, hmany⟩ := h
  rw [skipLayout_piece ht] at hmany
  rw [List.length_append] at hk
  exact ⟨k, items, Nat.lt_of_le_of_lt (Nat.le_add_left _ _) hk, hmany⟩

theorem StopsAt.item (h : StopsAt n c stop) (hc : ReadsItem c c') (hn : c.rest.length < n) :
    StopsAt n c' stop := by
  obtain ⟨item, hitem⟩ := topLevel_of_readsItem hc hn
  obtain ⟨k, items, hk, hmany⟩ := h
  rw [skipLayout_topLevel hitem] at hmany
  obtain ⟨k, rfl⟩ := Nat.exists_eq_add_of_le' (Nat.le_trans (Nat.le_add_left 1 _) hk)
  have hround := seqLayout_eq_some_iff.mpr ⟨c', hitem, rfl⟩
  have hlt := length_lt_of_passes (consumes_topLevel n c item c' hitem)
  obtain ⟨_, _, items, hround', hmany, _⟩ | ⟨hnone, _⟩ := many_succ_eq_some hmany
  · obtain ⟨_, rfl⟩ := Prod.mk.inj (Option.some.inj (hround.symm.trans hround'))
    exact ⟨k, items, by omega, hmany⟩
  · rw [hround] at hnone
    cases hnone

theorem StopsAt.skipLayout (h : StopsAt n c stop) :
    skipLayout .code stop.loc stop.rest = stop := by
  obtain ⟨k, items, -, hmany⟩ := h
  have hskip := skipLayout_skipLayout c.loc c.rest
  generalize AttrCheck.skipLayout .code c.loc c.rest = d at hmany hskip
  induction k generalizing d items with
  | zero =>
    obtain ⟨_, rfl⟩ := pure_eq_some_iff.mp hmany
    exact hskip
  | succ k ih =>
    obtain ⟨_, _, items, hround, hmany, _⟩ | ⟨_, _, rfl⟩ := many_succ_eq_some hmany
    · obtain ⟨e, _, rfl⟩ := seqLayout_eq_some_iff.mp hround
      exact ih items _ hmany (skipLayout_skipLayout e.loc e.rest)
    · exact hskip

end Parser

namespace Cursor

variable {start c : Cursor}

theorem Runs.skipLayout (h : start.Runs c) : start.Runs (skipLayout .code c.loc c.rest) := by
  obtain ⟨loc, cs⟩ := c
  induction hn : cs.length using Nat.strongRecOn generalizing loc cs with
  | ind n ih =>
    obtain hstay | ⟨t, rest, rfl, ht⟩ := exists_piece loc cs
    · rwa [hstay]
    · have hpos := List.length_pos_of_ne_nil ht.ne_nil
      rw [skipLayout_piece ht]
      exact ih rest.length (by rw [← hn, List.length_append]; omega) _ _ (h.layout ht) rfl

theorem Runs.many {n k : Nat} {items : List TopLevel} {stop : Cursor} (h : start.Runs c)
    (hn : c.rest.length < n)
    (hmany : Parser.many (Parser.topLevel n <* Parser.layout) k c = some (items, stop)) :
    start.Runs stop := by
  induction k generalizing c items with
  | zero =>
    obtain ⟨_, rfl⟩ := Parser.pure_eq_some_iff.mp hmany
    exact h
  | succ k ih =>
    obtain ⟨item, _, items, hround, hmany, _⟩ | ⟨_, _, rfl⟩ := Parser.many_succ_eq_some hmany
    · obtain ⟨d, hitem, rfl⟩ := Parser.seqLayout_eq_some_iff.mp hround
      have hlt := Parser.length_lt_of_passes (Parser.consumes_topLevel n c item d hitem)
      have hle := Parser.length_le_of_reaches (Parser.advances_layout d () _ rfl)
      have hd := h.item (Parser.readsItem_of_topLevel hitem hn)
      exact ih hd.skipLayout (by omega) hmany
    · exact h

theorem Runs.of_stopsAt {n : Nat} {stop : Cursor} (h : Parser.StopsAt n start stop)
    (hn : start.rest.length < n) : start.Runs stop := by
  obtain ⟨k, items, _, hmany⟩ := h
  have hle := Parser.length_le_of_reaches (Parser.advances_layout start () _ rfl)
  exact Runs.refl.skipLayout.many (by omega) hmany

theorem Runs.stopsAt {n : Nat} {stop : Cursor} (h : start.Runs c)
    (hstop : Parser.StopsAt n start stop) (hn : start.rest.length < n) :
    start.Reaches c ∧ Parser.StopsAt n c stop := by
  induction h with
  | refl => exact ⟨.refl start, hstop⟩
  | @layout loc t rest _ ht ih =>
    exact ⟨ih.1.trans ⟨t, rfl, rfl⟩, ih.2.layout ht⟩
  | @item c c' _ hc ih =>
    have hlen := Parser.length_le_of_reaches ih.1
    obtain ⟨item, hitem⟩ := Parser.topLevel_of_readsItem hc (n := n) (by omega)
    exact ⟨ih.1.trans (Parser.consumes_topLevel n c item c' hitem).reaches,
      ih.2.item hc (by omega)⟩

theorem into_of_reaches {file text : String} (h : (ofText file text).Reaches c) :
    c = into file text.toList (text.toList.length - c.rest.length) := by
  have hloc := Loc.of_reaches h
  obtain ⟨t, htext, _⟩ := h
  change text.toList = t ++ c.rest at htext
  have hrest : text.toList.drop (text.toList.length - c.rest.length) = c.rest := by
    rw [htext, List.length_append, Nat.add_sub_cancel, List.drop_left]
  rw [into, hrest, ← hloc]

end Cursor

namespace SourceError

theorem near_atCursor (c : Cursor) : ∃ rest, c.rest = (atCursor c).near.toList ++ rest ∧
    '\n' ∉ (atCursor c).near.toList ∧ (atCursor c).near.length ≤ nearLength ∧
    ((atCursor c).near.length = nearLength ∨ ∀ d ∈ rest.head?, d = '\n') := by
  obtain ⟨t, rest, htext, ht, hrest⟩ := exists_lineEnd c.rest
  have hline : c.rest.takeWhile (· ≠ '\n') = t := by
    have hstop : rest.takeWhile (· ≠ '\n') = [] := by
      cases rest with
      | nil => rfl
      | cons d rest => exact List.takeWhile_cons_of_neg (by simp [hrest d rfl])
    have hline : ∀ d ∈ t, decide (d ≠ '\n') = true :=
      fun d hd => decide_eq_true fun hfeed => ht (hfeed ▸ hd)
    rw [htext, List.takeWhile_append_of_pos hline, hstop, List.append_nil]
  have hnear : (atCursor c).near.toList = t.take nearLength := by
    rw [atCursor, String.toList_ofList, ← List.take_takeWhile, hline]
  have hlength : (atCursor c).near.length = min nearLength t.length := by
    rw [← String.length_toList, hnear, List.length_take]
  refine ⟨t.drop nearLength ++ rest, ?_, ?_, ?_, ?_⟩
  · rw [hnear, ← List.append_assoc, List.take_append_drop, htext]
  · rw [hnear]
    exact fun h => ht (List.mem_of_mem_take h)
  · exact hlength ▸ Nat.min_le_left _ _
  · by_cases hlong : nearLength ≤ t.length
    · exact .inl (hlength.trans (Nat.min_eq_left hlong))
    · right
      rwa [List.drop_eq_nil_of_le (Nat.le_of_not_le hlong), List.nil_append]

theorem near_atCursor_ne {c : Cursor} {d : Char} {cs : List Char} (h : c.rest = d :: cs)
    (hd : d ≠ '\n') : (atCursor c).near ≠ "" := by
  intro hempty
  obtain ⟨rest, hrest, _, _, hlength | hhead⟩ := near_atCursor c
  · rw [hempty] at hlength
    exact absurd hlength (by decide)
  · rw [hempty, h] at hrest
    exact hd (hhead d (congrArg List.head? hrest.symm))

theorem message_of_near {e : SourceError} (h : e.near ≠ "") :
    e.message = s!"syntax error near '{e.near}'" := if_neg h

theorem message_ne {e : SourceError} (h : e.near ≠ "") : e.message ≠ "unexpected end of input" := by
  intro hmessage
  rw [message_of_near h] at hmessage
  have hhead := congrArg (fun s : String => s.toList.head?) hmessage
  simp [toString] at hhead

end SourceError

theorem exists_stop_of_parse {file text : String} {e : SourceError}
    (h : parse file text = .error e) : ∃ c : Cursor, c.rest ≠ [] ∧ e = .atCursor c ∧
      Parser.StopsAt (text.toList.length + 1) (.ofText file text) c := by
  unfold parse at h
  extract_lets start at h
  obtain ⟨items, c, hmany⟩ := Parser.exists_many
    (Parser.topLevel (start.rest.length + 1) <* Parser.layout) (start.rest.length + 1)
    (skipLayout .code start.loc start.rest)
  have hitems : Parser.items (start.rest.length + 1) start = some (items, c) :=
    Parser.bind_eq_some_iff.mpr ⟨(), _, rfl, hmany⟩
  rw [hitems] at h
  dsimp only at h
  split_ifs at h with hc
  exact ⟨c, fun hnil => hc (List.isEmpty_iff.mpr hnil), (Except.error.inj h).symm,
    _, items, Nat.lt_succ_self _, hmany⟩

/-- The error of a text that is not accepted stands where the longest run of layout, functions and
declarations ends. That is in front of a character which is not white space, so the error always
shows some text. -/
theorem rejected_at_longest_run {file text : String} {e : SourceError}
    (h : parse file text = .error e) :
    ∃ p, ∃ hp : p < text.toList.length,
      (Cursor.ofText file text).Runs (.into file text.toList p) ∧
      (∀ c, (Cursor.ofText file text).Runs c → ∃ q ≤ p, c = .into file text.toList q) ∧
      e.loc = Loc.ofOffset file text.toList p ∧
      Text.isBlank text.toList[p] = false ∧
      (∃ rest, text.toList.drop p = e.near.toList ++ rest ∧ e.near ≠ "" ∧
        '\n' ∉ e.near.toList ∧ e.near.length ≤ 20 ∧
        (e.near.length = 20 ∨ ∀ d ∈ rest.head?, d = '\n')) ∧
      e.message = s!"syntax error near '{e.near}'" ∧ e.message ≠ "unexpected end of input" := by
  obtain ⟨stop, hne, rfl, hstop⟩ := exists_stop_of_parse h
  have hinto := Cursor.into_of_reaches hstop.reaches
  generalize hp : text.toList.length - stop.rest.length = p at hinto
  obtain ⟨d, cs, hrest⟩ := List.exists_cons_of_ne_nil hne
  have hdrop : text.toList.drop p = d :: cs := by
    rw [← hrest, hinto]
    rfl
  have hlt : p < text.toList.length := by
    by_contra hge
    rw [List.drop_eq_nil_of_le (Nat.le_of_not_lt hge)] at hdrop
    cases hdrop
  have hchar : text.toList[p] = d := by
    rw [List.drop_eq_getElem_cons hlt] at hdrop
    exact (List.cons.inj hdrop).1
  have hblank : Text.isBlank d = false := by
    have hskip := hstop.skipLayout
    obtain ⟨loc, rest⟩ := stop
    obtain rfl : rest = d :: cs := hrest
    exact not_isBlank_of_skipLayout hskip
  have hnear : (SourceError.atCursor stop).near ≠ "" :=
    SourceError.near_atCursor_ne hrest fun hfeed => absurd (hfeed ▸ hblank) (by decide)
  obtain ⟨rest, htext, hline, hlength, hend⟩ := SourceError.near_atCursor stop
  rw [hrest, ← hdrop] at htext
  refine ⟨p, hlt, ?_, fun c hc => ?_, congrArg Cursor.loc hinto, hchar ▸ hblank,
    ⟨rest, htext, hnear, hline, hlength, hend⟩, SourceError.message_of_near hnear,
    SourceError.message_ne hnear⟩
  · exact hinto ▸ .of_stopsAt hstop (Nat.lt_succ_self _)
  · obtain ⟨hreaches, hstop'⟩ := hc.stopsAt hstop (Nat.lt_succ_self _)
    have hle := Parser.length_le_of_reaches hstop'.reaches
    exact ⟨_, by omega, Cursor.into_of_reaches hreaches⟩

def brokenText : String := "int a; // n\nvoid f() \x7b a = ; \x7d"

theorem rejected_at_longest_run_broken : ∃ e, parse "a.cc" brokenText = .error e ∧
    e.loc = ⟨"a.cc", 2, 1⟩ ∧ e.near = "void f() \x7b a = ; \x7d" ∧
    ∃ p, ∃ hp : p < brokenText.toList.length,
      (Cursor.ofText "a.cc" brokenText).Runs (.into "a.cc" brokenText.toList p) ∧
      (∀ c, (Cursor.ofText "a.cc" brokenText).Runs c →
        ∃ q ≤ p, c = .into "a.cc" brokenText.toList q) ∧
      e.loc = Loc.ofOffset "a.cc" brokenText.toList p ∧
      Text.isBlank brokenText.toList[p] = false ∧
      (∃ rest, brokenText.toList.drop p = e.near.toList ++ rest ∧ e.near ≠ "" ∧
        '\n' ∉ e.near.toList ∧ e.near.length ≤ 20 ∧
        (e.near.length = 20 ∨ ∀ d ∈ rest.head?, d = '\n')) ∧
      e.message = s!"syntax error near '{e.near}'" ∧ e.message ≠ "unexpected end of input" := by
  have hread : ((parse "a.cc" brokenText).map fun _ => ()).mapError (fun e => (e.loc, e.near)) =
      .error (⟨"a.cc", 2, 1⟩, "void f() \x7b a = ; \x7d") := by
    decide +kernel
  cases h : parse "a.cc" brokenText with
  | ok u =>
    rw [h] at hread
    cases hread
  | error e =>
    rw [h] at hread
    obtain ⟨hloc, hnear⟩ := Prod.mk.inj (Except.error.inj hread)
    exact ⟨e, rfl, hloc, hnear, rejected_at_longest_run h⟩

end AttrCheck
