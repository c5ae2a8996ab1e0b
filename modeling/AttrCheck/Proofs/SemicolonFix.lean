import AttrCheck.Proofs.ErrorFree
import AttrCheck.Proofs.SpliceUnit

/-! The edit that the note under a fallthrough offers. Applied to the text it gives an accepted one,
in which an empty statement carries the fallthrough, wherever the label that was in its place can
stand behind a statement of its own. -/

namespace AttrCheck

def insertAt (place : Loc) (new : List Char) (loc : Loc) : List Char → List Char
  | [] => if loc = place then new else []
  | c :: cs => if loc = place then new ++ c :: cs else c :: insertAt place new (loc.next c) cs

theorem insertAt_self (new cs : List Char) (loc : Loc) : insertAt loc new loc cs = new ++ cs := by
  cases cs with
  | nil => rw [insertAt, if_pos rfl, List.append_nil]
  | cons c cs => rw [insertAt, if_pos rfl]

theorem insertAt_append (new before cs : List Char) (loc : Loc) :
    insertAt (loc.after before) new loc (before ++ cs) = before ++ new ++ cs := by
  induction before generalizing loc with
  | nil => exact insertAt_self new cs loc
  | cons c before ih =>
    have hne : loc ≠ loc.after (c :: before) := (Loc.lt_after loc (List.cons_ne_nil c before)).ne
    rw [List.cons_append, insertAt, if_neg hne, Loc.after_cons, ih]
    rfl

def FixIt.applied (fix : FixIt) (file text : String) : String :=
  String.ofList (insertAt fix.loc fix.insertion.toList (Loc.start file) text.toList)

namespace Stmt

def continued : Stmt → List Stmt
  | doWhile body _ _ => [body]
  | ifElse _ yes (some _) _ => [yes]
  | _ => []

end Stmt

/-- Units in which a semicolon can be put in behind the specifiers that end at a place. It must not
be put into the line of a loop directive; and what the specifiers stand in front of becomes a
statement of its own, which the body of a `do` and a branch with an `else` have no room for. -/
structure SourceUnit.AdmitsSemicolon (u : SourceUnit) (l : Loc) : Prop where
  closing : ∀ s ∈ u.stmts, ∀ a ∈ s.written, a.spelling = .pragma → a.range.stop ≠ l
  ending : ∀ attrs sub range l', .annotated attrs sub range l' ∈ u.stmts → range.stop = l →
    ∀ s ∈ u.stmts, ∀ part ∈ s.continued, sub ∉ part.tails

namespace Parser

theorem front_of_label {n : Nat} {c c' : Cursor} {s : Stmt} (h : stmt n c = some (s, c'))
    (hs : s.isSwitchLabel = true) : front c.rest ∈ ["case", "default"] := by
  cases n with
  | zero => cases h
  | succ n =>
    obtain ⟨f, hf, h⟩ := exists_form_of_stmtWith h
    have hfront := begins_stmtForms f hf c s c' h
    have hgives {p : Parser Stmt} (hp : Gives p fun s => s.isSwitchLabel = false)
        (h : p c = some (s, c')) : front c.rest ∈ ["case", "default"] := by
      rw [hp c s c' h] at hs
      cases hs
    obtain hf | hf := List.mem_append.mp hf
    · obtain ⟨g, hg, rfl⟩ := List.mem_map.mp hf
      simp only [wordForms, List.mem_cons, List.not_mem_nil, or_false] at hg
      obtain rfl | rfl | rfl | rfl | rfl | rfl | rfl | rfl | rfl | rfl | rfl | rfl | rfl | rfl := hg
      case inr.inl => exact List.mem_append_left ["default"] hfront
      case inr.inr.inl => exact .tail _ hfront
      case inr.inr.inr.inr.inr.inr.inr.inr.inl =>
        obtain h | h := orElse_eq_some h
        all_goals
          refine hgives ?_ h
          repeat first | exact gives_pure rfl | refine gives_bind fun _ => ?_
      all_goals
        refine hgives ?_ h
        repeat first | exact gives_pure rfl | refine gives_bind fun _ => ?_
    · obtain rfl := List.mem_singleton.mp hf
      refine hgives ?_ h
      repeat first | exact gives_pure rfl | refine gives_bind fun _ => ?_

end Parser

theorem exists_labelSeam {file text : String} {u : SourceUnit} (h : parse file text = .ok u)
    {f : Function} (hf : f ∈ u.functions) {attrs : List RawAttr} {sub : Stmt} {range : Range}
    {l : Loc} (hs : .annotated attrs sub range l ∈ f.body.preorder)
    (hlabel : sub.isSwitchLabel = true)
    (hclosing : ∀ a ∈ attrs, a.spelling = .pragma → a.range.stop ≠ range.stop) :
    ∃ (σ : LabelSeam) (before : List Char), σ.loc = range.stop ∧ σ.sub = sub ∧ Closed before ∧
      (Loc.start file).after before = σ.loc ∧ text.toList = before ++ σ.rest := by
  obtain ⟨m, d, d', hd, hlen, hread⟩ := exists_read_of_parse h hf hs nofun
  obtain ⟨n, c, rfl, hspec, hsub⟩ := Parser.exists_specifiers_of_stmt hread
  obtain ⟨hend, hcloses⟩ | ⟨a, ha, hspelling, hstop⟩ :=
    (Parser.spans_specifiers (Parser.advances_expr _) hspec).ending
  · obtain ⟨before, hclosed, hrest, hloc⟩ := hd.trans_closes hcloses
    have hlt := Parser.length_lt_of_passes
      (Parser.consumes_specifiers (Parser.advances_expr _) d _ c hspec)
    have hle := Parser.length_le_of_reaches (Parser.advances_layout c () _ rfl)
    have hstmt : Parser.stmt n (skipLayout .code c.loc c.rest) = some (sub, d') := hsub
    refine ⟨⟨⟨c.loc, c.rest, Parser.front_of_label hstmt hlabel⟩, sub, d', fun k hk => ?_⟩, before,
      hend.symm, rfl, hclosed, hloc.symm, hrest⟩
    have halike : Parser.Alike True ((skipLayout .code c.loc c.rest).rest.length + 1)
        (Parser.stmt k) (Parser.stmt n) := Parser.alike_stmt hk (by omega)
    exact (halike.eq (Nat.lt_succ_self _)).trans hstmt
  · exact absurd hstop (hclosing a ha hspelling)

theorem notes_of_mem_scanHints {s : HintStates} {hs : List LoopHint} {r : Report}
    (h : r ∈ (scanHints s hs).1) : r.notes = [] := by
  obtain ⟨hint, s', h⟩ := exists_of_mem_scanHints h
  obtain ⟨_, _, _, _, _, rfl, _⟩ := exists_of_mem_hintReports h
  rfl

namespace RawAttr

theorem readHint_ne_notEmpty (a : RawAttr) (strict : Bool) :
    a.readHint strict ≠ .reject .notEmpty := by
  have hvalue (o : HintOption) (word : Ident) (value : Option Expr) :
      hintValue o word value ≠ .error .notEmpty := by
    unfold hintValue
    repeat' split
    all_goals nofun
  unfold readHint
  split
  · split
    · nofun
    · split
      · nofun
      next why hwhy => exact fun he => hvalue _ _ _ (hwhy.trans (Verdict.reject.inj he ▸ rfl))
  · nofun

theorem verdict_eq_notEmpty {a : RawAttr} {t : Target} {inSwitch strict : Bool}
    (h : a.verdict t inSwitch strict = .reject .notEmpty) :
    a.kind = .fallthrough ∧ t.kind ≠ .null := by
  unfold verdict at h
  split at h
  next => cases h
  next hk =>
    refine ⟨hk, fun hnull => ?_⟩
    rw [fallthroughVerdict, if_neg (not_not.mpr hnull)] at h
    split_ifs at h
    cases h
  next =>
    unfold loopHintVerdict at h
    split_ifs at h
    · exact absurd h (a.readHint_ne_notEmpty strict)
    · cases h
  next => cases h

end RawAttr

theorem Site.exists_of_notEmpty {s : Site} {r : Report} (hr : r ∈ s.reports)
    (h : r.id = .fallthroughTarget ∨ r.notes ≠ []) : ∃ a ∈ s.attrs, a.kind = .fallthrough ∧
      s.target.kind ≠ .null ∧ r = a.notEmptyReport s.target.loc
        (if s.target.kind.isSwitchLabel then [semicolonNote s.specifiers.stop] else []) := by
  obtain hr | hr := List.mem_append.mp hr
  · obtain ⟨b, hb, hr⟩ := List.mem_filterMap.mp hr
    obtain ⟨why, hwhy, rfl⟩ := Option.map_eq_some_iff.mp hr
    obtain ⟨a, ha, rfl⟩ := List.mem_map.mp hb
    rw [Verdict.rejection?_eq_some_iff] at hwhy
    cases why with
    | notEmpty =>
      obtain ⟨hkind, hnull⟩ := RawAttr.verdict_eq_notEmpty hwhy
      exact ⟨a, ha, hkind, hnull, rfl⟩
    | unknownKind =>
      simp only [Rejection.report, RawAttr.unknownReport] at h
      split_ifs at h <;> simp at h
    | _ => simp [Rejection.report, RawAttr.declarationReport] at h
  · have hid := id_of_mem_scanHints hr
    have hnotes := notes_of_mem_scanHints hr
    simp [hid, hnotes] at h

theorem SourceUnit.exists_report {u : SourceUnit} {config : Config} {d : Diagnostic}
    (hd : d ∈ (u.checked config).diagnostics) : ∃ s ∈ u.sites config.strictLoopOptions,
      ∃ r ∈ s.reports, d.id = r.id ∧ d.loc = r.loc ∧ d.notes = r.notes := by
  change d ∈ (config.engine.reportAll _).recorded at hd
  rw [Engine.recorded_reportAll] at hd
  obtain ⟨r, hr, hdiagnose⟩ := List.mem_filterMap.mp hd
  obtain ⟨s, hs, hr⟩ := List.mem_flatMap.mp hr
  obtain ⟨_, _, rfl⟩ := Option.map_eq_some_iff.mp hdiagnose
  exact ⟨s, hs, r, hr, rfl, rfl, rfl⟩

theorem SourceUnit.AsRead.loc_ne_of_null {u : SourceUnit} (h : u.AsRead) (config : Config)
    {f : Function} (hf : f ∈ u.functions) (hflat : f.body.Flat) {attrs : List RawAttr}
    {range : Range} {l l' : Loc} (hs : .annotated attrs (.null l) range l' ∈ f.body.preorder)
    {a : RawAttr} (ha : a ∈ attrs) {d : Diagnostic} (hd : d ∈ (u.checked config).diagnostics)
    (hid : d.id = .fallthroughTarget) : d.loc ≠ a.loc := by
  intro hloc
  obtain ⟨s, hs', r, hr, hid', hloc', _⟩ := exists_report hd
  obtain ⟨b, hb, _, hnull, rfl⟩ := Site.exists_of_notEmpty hr (.inl (hid'.symm.trans hid))
  obtain ⟨st, hsite, _⟩ := h.exists_site hf hflat hs ha config.strictLoopOptions
  obtain ⟨rfl, _⟩ := h.site_eq _ hs' hsite hb ha (hloc'.symm.trans hloc)
  exact hnull rfl

/-- An edit that a note offers stands behind the specifiers of a label, a mark of a fallthrough among
them. -/
theorem SourceUnit.AsRead.exists_label {u : SourceUnit} (h : u.AsRead)
    (hflat : ∀ f ∈ u.functions, f.body.Flat) {config : Config} {d : Diagnostic}
    (hd : d ∈ (u.checked config).diagnostics) {note : Note} (hnote : note ∈ d.notes) {fix : FixIt}
    (hfix : fix ∈ note.fixits) : ∃ f ∈ u.functions, ∃ attrs sub range l a,
      .annotated attrs sub range l ∈ f.body.preorder ∧ a ∈ attrs ∧ a.kind = .fallthrough ∧
      a.loc = d.loc ∧ sub.isSwitchLabel = true ∧ fix = ⟨range.stop, ";"⟩ := by
  obtain ⟨s, hs, r, hr, _, hloc, hnotes⟩ := exists_report hd
  obtain ⟨a, ha, hkind, _, rfl⟩ :=
    Site.exists_of_notEmpty hr (.inr (hnotes ▸ List.ne_nil_of_mem hnote))
  obtain ⟨sub, l, ht⟩ := exists_annotated_of_site hs
  obtain ⟨f, hf, ht⟩ := List.mem_flatMap.mp ht
  have ht := f.body.postorder_perm_preorder.mem_iff.mp ht
  obtain ⟨st, hsite, _⟩ := h.exists_site hf (hflat f hf) ht ha config.strictLoopOptions
  obtain ⟨heq, _⟩ := h.site_eq _ hs hsite ha ha rfl
  have htarget : s.target = sub.target := congrArg Site.target heq
  have hnotes : d.notes = if s.target.kind.isSwitchLabel then
    [semicolonNote s.specifiers.stop] else [] := hnotes
  rw [hnotes] at hnote
  split_ifs at hnote with hlabel
  · obtain rfl := List.mem_singleton.mp hnote
    obtain rfl := List.mem_singleton.mp hfix
    exact ⟨f, hf, s.attrs, sub, s.specifiers, l, a, ht, ha, hkind, hloc.symm,
      by rwa [htarget] at hlabel, rfl⟩
  · cases hnote

/-- The edit that a note offers, made in the text, gives an accepted one in which the mark of the
fallthrough is on an empty statement and not rejected for its target any more. The place must admit
a semicolon. -/
theorem semicolon_check {file text : String} {u : SourceUnit} (h : parse file text = .ok u)
    (config : Config) {result : CheckResult} (hresult : checkSource config file text = .ok result)
    {d : Diagnostic} (hd : d ∈ result.diagnostics) {note : Note} (hnote : note ∈ d.notes)
    {fix : FixIt} (hfix : fix ∈ note.fixits)
    (hadmits : u.AdmitsSemicolon fix.loc) :
    ∃ u' result', parse file (fix.applied file text) = .ok u' ∧
      checkSource config file (fix.applied file text) = .ok result' ∧
      (∃ f ∈ u'.functions, ∃ attrs range l a,
        .annotated attrs (.null fix.loc) range l ∈ f.body.preorder ∧ a ∈ attrs ∧
        a.kind = .fallthrough ∧ a.loc = d.loc) ∧
      ∀ d' ∈ result'.diagnostics, d'.id = .fallthroughTarget → d'.loc ≠ d.loc := by
  obtain rfl := Except.ok.inj ((checkSource_eq h config).symm.trans hresult)
  obtain ⟨f, hf, attrs, sub, range, l, a, hs, ha, hkind, hloc, hlabel, rfl⟩ :=
    (SourceUnit.asRead_of_parse h).exists_label (flat_of_parse h) hd hnote hfix
  obtain ⟨σ, before, hstop, hsub, hclosed, hbefore, htext⟩ := exists_labelSeam h hf hs hlabel
    (hadmits.closing _ (SourceUnit.mem_stmts hf hs))
  have hending : ∀ s ∈ u.stmts, ∀ part ∈ s.continued, σ.sub ∉ part.tails := hsub ▸
    hadmits.ending attrs sub range l (SourceUnit.mem_stmts hf hs) rfl
  have hfits : ∀ g ∈ u.functions, σ.Fits g.body := fun g hg =>
    { closing := fun attrs sub range l hs => hstop ▸ hadmits.closing _ (SourceUnit.mem_stmts hg hs)
      loop := fun body cond l hs => hending _ (SourceUnit.mem_stmts hg hs) body (.head _)
      branch := fun cond yes no l hs => hending _ (SourceUnit.mem_stmts hg hs) yes (.head _) }
  have happlied : (FixIt.applied ⟨range.stop, ";"⟩ file text).toList = before ++ ';' :: σ.rest := by
    have hchars : ";".toList = [';'] := by decide
    rw [FixIt.applied, String.toList_ofList, htext, hchars, ← hstop, ← hbefore, insertAt_append,
      List.append_assoc, List.singleton_append]
  obtain ⟨u', hu', hkeeps⟩ := SourceUnit.exists_parse hclosed hbefore htext happlied h hfits
  have hmem := hkeeps attrs sub range l (List.mem_flatMap_of_mem hf hs) hstop.symm
  obtain ⟨f', hf', hs'⟩ := List.mem_flatMap.mp hmem
  rw [hstop] at hs'
  refine ⟨u', _, hu', checkSource_eq hu' config,
    ⟨f', hf', attrs, range, l, a, hs', ha, hkind, hloc⟩, fun d' hd' hid => ?_⟩
  exact hloc ▸ (SourceUnit.asRead_of_parse hu').loc_ne_of_null config hf'
    (flat_of_parse hu' f' hf') hs' ha hd' hid

def mixedText (mark : String) : String :=
  "void f() \x7b switch (1)\n#pragma clang loop unroll(enable)\n" ++ mark ++ " case 1: ; \x7d"

theorem semicolon_check_mixed : ∃ u result d note fix u' result',
    parse "a.cc" (mixedText "[[fallthrough]]") = .ok u ∧
      checkSource {} "a.cc" (mixedText "[[fallthrough]]") = .ok result ∧
      d ∈ result.diagnostics ∧ note ∈ d.notes ∧ fix ∈ note.fixits ∧ u.AdmitsSemicolon fix.loc ∧
      parse "a.cc" (mixedText "[[fallthrough]];") = .ok u' ∧
      checkSource {} "a.cc" (mixedText "[[fallthrough]];") = .ok result' ∧
      ∀ d' ∈ result'.diagnostics, d'.id = .fallthroughTarget → d'.loc ≠ d.loc := by
  have hread : ∃ u ∈ (parse "a.cc" (mixedText "[[fallthrough]]")).toOption,
      (∀ s ∈ u.stmts, (∀ a ∈ s.written, a.spelling = .pragma → a.range.stop ≠ ⟨"a.cc", 3, 16⟩) ∧
        s.continued.isEmpty = true) ∧
      ∃ d ∈ (u.checked {}).diagnostics, ∃ note ∈ d.notes, ∃ fix ∈ note.fixits,
        fix.loc = ⟨"a.cc", 3, 16⟩ ∧
        fix.applied "a.cc" (mixedText "[[fallthrough]]") = mixedText "[[fallthrough]];" := by
    decide +kernel
  obtain ⟨u, hu, hstmts, d, hd, note, hnote, fix, hfix, hloc, happlied⟩ := hread
  have hp := ok_of_mem_toOption hu
  have hadmits : u.AdmitsSemicolon fix.loc :=
    { closing := fun s hs => hloc ▸ (hstmts s hs).1
      ending := fun _ _ _ _ _ _ s hs part hpart => by
        rw [List.isEmpty_iff.mp (hstmts s hs).2] at hpart
        cases hpart }
  obtain ⟨u', result', hu', hresult', _, hnone⟩ :=
    semicolon_check hp {} (checkSource_eq hp {}) hd hnote hfix hadmits
  rw [happlied] at hu' hresult'
  exact ⟨u, _, d, note, fix, u', result', hp, checkSource_eq hp {}, hd, hnote, hfix, hadmits, hu',
    hresult', hnone⟩

/-- A note on an accepted text offers an edit that spoils it. -/
def OffersSpoiling (file text : String) : Prop :=
  ∃ u result d note fix e, parse file text = .ok u ∧ checkSource {} file text = .ok result ∧
    d ∈ result.diagnostics ∧ note ∈ d.notes ∧ fix ∈ note.fixits ∧
    parse file (fix.applied file text) = .error e

theorem offersSpoiling_of_exists {file text : String} (h : ∃ u ∈ (parse file text).toOption,
    ∃ d ∈ (u.checked {}).diagnostics, ∃ note ∈ d.notes, ∃ fix ∈ note.fixits,
      (parse file (fix.applied file text)).toOption.isNone = true) : OffersSpoiling file text := by
  obtain ⟨u, hu, d, hd, note, hnote, fix, hfix, hnone⟩ := h
  have hp := ok_of_mem_toOption hu
  cases he : parse file (fix.applied file text) with
  | ok u' =>
    rw [he] at hnone
    cases hnone
  | error e => exact ⟨u, _, d, note, fix, e, hp, checkSource_eq hp {}, hd, hnote, hfix, he⟩

/-- The specifiers end with a loop directive, or the label ends the body of a `do` or a branch with
an `else` behind it. -/
theorem semicolon_check_spoils :
    OffersSpoiling "a.cc"
      "void f() \x7b switch (1) [[fallthrough]]\n#pragma clang loop unroll(enable)\ncase 1: ; \x7d" ∧
    OffersSpoiling "a.cc"
      "void f() \x7b switch (1) do [[fallthrough]] case 1: ; while (1); \x7d" ∧
    OffersSpoiling "a.cc"
      "void f() \x7b switch (1) if (1) [[fallthrough]] case 1: ; else ; \x7d" := by
  refine ⟨offersSpoiling_of_exists ?_, offersSpoiling_of_exists ?_, offersSpoiling_of_exists ?_⟩
  all_goals decide +kernel

end AttrCheck
