import AttrCheck.Proofs.ResultOrder

/-! What becomes of each attribute of a statement. It stays, or it is dropped for one cause and with
one diagnostic; the attributes of a list meet their fates one by one and in order, and only those
that stay are held against each other. -/

namespace AttrCheck

inductive Fate where
  | kept (attr : Attr)
  | dropped (diagnostic : Option Diagnostic)

namespace Fate

def kept? : Fate → Option Attr
  | kept attr => some attr
  | dropped _ => none

def diagnostic? : Fate → Option Diagnostic
  | kept _ => none
  | dropped d => d

def failed (id : DiagId) (loc : Loc) (args : List DiagArg) (ranges : List Range)
    (notes : List Note) : Fate := dropped (some ⟨id, .error, loc, args, ranges, notes⟩)

end Fate

namespace RawAttr

def unknownId (a : RawAttr) : DiagId :=
  if a.spelling = .declspec then .unsupportedDeclspec else .unknownAttribute

def StandsFor (a : RawAttr) (strict : Bool) (loc : Loc) (o : HintOption) : Prop :=
  ∃ name, a.ident? 0 = some ⟨loc, some name⟩ ∧
    (o.text = name ∨ strict = false ∧ (∀ o' : HintOption, o'.text ≠ name) ∧ o = .fallback)

end RawAttr

/-- The fate of an attribute on a statement, by the kind of the attribute, the statement, the open
`switch` statements and the arguments, in the order in which they are looked at. -/
inductive HasFate (c : Checker) (t : Target) (specifiers : Range) (a : RawAttr) : Fate → Prop
  | suppressed (hkind : a.kind = .unknown) (hs : c.engine.suppresses a.unknownId = true) :
    HasFate c t specifiers a (.dropped none)
  | unknown (hkind : a.kind = .unknown) (hs : c.engine.suppresses a.unknownId = false) :
    HasFate c t specifiers a (.dropped (some ⟨a.unknownId,
      if c.engine.promotes then .error else .warning, a.loc, [.text a.qualifiedName], [], []⟩))
  | declaration (hkind : a.kind ≠ .unknown) (hdecl : a.kind.annotatesStmt = false) :
    HasFate c t specifiers a
      (.failed .invalidOnStmt a.loc [.text a.qualifiedName] [.point t.loc] [])
  | notEmpty (hkind : a.kind = .fallthrough) (ht : t.kind ≠ .null) :
    HasFate c t specifiers a (.failed .fallthroughTarget a.loc [] [.point t.loc]
      (if t.kind.isSwitchLabel then [semicolonNote specifiers.stop] else []))
  | outsideSwitch (hkind : a.kind = .fallthrough) (ht : t.kind = .null)
      (hin : c.inSwitch = false) :
    HasFate c t specifiers a (.failed .fallthroughOutsideSwitch a.loc [] [] [])
  | fallthrough (hkind : a.kind = .fallthrough) (ht : t.kind = .null) (hin : c.inSwitch = true) :
    HasFate c t specifiers a (.kept (.fallthrough a.range))
  | notALoop (hkind : a.kind = .loopHint) (ht : t.kind.isLoop = false) :
    HasFate c t specifiers a (.failed .loopHintTarget t.loc [] [] [])
  | badOption {loc : Loc} {name : String} (hkind : a.kind = .loopHint) (ht : t.kind.isLoop = true)
      (hstrict : c.config.strictLoopOptions = true) (hname : a.ident? 0 = some ⟨loc, some name⟩)
      (hno : ∀ o : HintOption, o.text ≠ name) :
    HasFate c t specifiers a (.failed .hintOption loc [.text name] [] [])
  | badKeyword {loc : Loc} {o : HintOption} (hkind : a.kind = .loopHint)
      (ht : t.kind.isLoop = true) (ho : a.StandsFor c.config.strictLoopOptions loc o)
      (hform : o.optionClass = .boolean)
      (hword : ∀ on, (a.valueWord loc).name ≠ some (switchText on)) :
    HasFate c t specifiers a (.failed .hintKeyword (a.valueWord loc).loc [] [] [])
  | badValue {loc : Loc} {o : HintOption} (hkind : a.kind = .loopHint)
      (ht : t.kind.isLoop = true) (ho : a.StandsFor c.config.strictLoopOptions loc o)
      (hform : o.optionClass = .numeric)
      (hvalue : ∀ e n, a.expr? 2 = some e → e.constant? = some n → n < 1) :
    HasFate c t specifiers a (.failed .hintValue (a.valueWord loc).loc [] [] [])
  | switched {loc : Loc} {o : HintOption} {on : Bool} (hkind : a.kind = .loopHint)
      (ht : t.kind.isLoop = true) (ho : a.StandsFor c.config.strictLoopOptions loc o)
      (hform : o.optionClass = .boolean) (hword : (a.valueWord loc).name = some (switchText on)) :
    HasFate c t specifiers a (.kept (.hint ⟨o, if on then 1 else 0, a.range⟩))
  | counted {loc : Loc} {o : HintOption} {e : Expr} {n : Int} (hkind : a.kind = .loopHint)
      (ht : t.kind.isLoop = true) (ho : a.StandsFor c.config.strictLoopOptions loc o)
      (hform : o.optionClass = .numeric) (he : a.expr? 2 = some e) (hn : e.constant? = some n)
      (hpos : 1 ≤ n) :
    HasFate c t specifiers a (.kept (.hint ⟨o, n, a.range⟩))

def Checker.fate (c : Checker) (t : Target) (specifiers : Range) (a : RawAttr) : Fate :=
  match a.verdict t c.inSwitch c.config.strictLoopOptions with
  | .keep attr => .kept attr
  | .reject why => .dropped (c.engine.diagnose? (why.report t a specifiers))
  | .malformed => .dropped none

theorem HintOption.ofText?_eq_none {name : String} (h : ∀ o : HintOption, o.text ≠ name) :
    ofText? name = none :=
  List.find?_eq_none.mpr fun o _ => by simpa using h o

theorem hintValue_boolean {o : HintOption} (hform : o.optionClass = .boolean) (word : Ident)
    (value : Option Expr) (on : Bool) (hword : word.name = some (switchText on)) :
    hintValue o word value = .ok (if on then 1 else 0) := by
  rw [hintValue, hform]
  cases on <;> simp [hword, switchText]

theorem hintValue_badKeyword {o : HintOption} (hform : o.optionClass = .boolean) {word : Ident}
    (value : Option Expr) (hword : ∀ on, word.name ≠ some (switchText on)) :
    hintValue o word value = .error (.badKeyword word.loc) := by
  rw [hintValue, hform]
  exact (if_neg (hword false)).trans (if_neg (hword true))

theorem hintValue_numeric {o : HintOption} (hform : o.optionClass = .numeric) (word : Ident)
    {e : Expr} {n : Int} (hn : e.constant? = some n) (hpos : 1 ≤ n) :
    hintValue o word (some e) = .ok n := by
  rw [hintValue, hform]
  simp [hn, hpos]

theorem hintValue_badValue {o : HintOption} (hform : o.optionClass = .numeric) (word : Ident)
    {value : Option Expr} (h : ∀ e n, value = some e → e.constant? = some n → n < 1) :
    hintValue o word value = .error (.badValue word.loc) := by
  simp only [hintValue, hform]
  split
  next n hn =>
    obtain ⟨e, he, hn⟩ := Option.bind_eq_some_iff.mp hn
    exact if_neg (not_le.mpr (h e n he hn))
  next => rfl

namespace RawAttr

variable {a : RawAttr} {t : Target} {strict : Bool}

theorem readHint_of_standsFor {loc : Loc} {o : HintOption} (h : a.StandsFor strict loc o) :
    a.readHint strict =
      match hintValue o (a.valueWord loc) (a.expr? 2) with
      | .ok value => .keep (.hint ⟨o, value, a.range⟩)
      | .error why => .reject why := by
  obtain ⟨name, hname, ho⟩ := h
  have hresolve : HintOption.resolve? strict name = some o := by
    unfold HintOption.resolve?
    obtain rfl | ⟨rfl, hno, rfl⟩ := ho
    · rw [o.ofText?_text]
    · rw [HintOption.ofText?_eq_none hno]
      rfl
  rw [readHint, hname]
  dsimp only
  generalize HintOption.resolve? strict name = resolved at hresolve ⊢
  subst hresolve
  rfl

theorem verdict_declaration {inSwitch : Bool} (hkind : a.kind ≠ .unknown)
    (hdecl : a.kind.annotatesStmt = false) :
    a.verdict t inSwitch strict = .reject .declarationOnly := by
  unfold verdict
  split
  next hk => exact absurd hk hkind
  next hk => rw [hk] at hdecl; cases hdecl
  next hk => rw [hk] at hdecl; cases hdecl
  next => rfl

theorem verdict_fallthrough {inSwitch : Bool} (hkind : a.kind = .fallthrough) :
    a.verdict t inSwitch strict = a.fallthroughVerdict t inSwitch := by
  rw [verdict, hkind]

theorem verdict_notALoop {inSwitch : Bool} (hkind : a.kind = .loopHint)
    (ht : t.kind.isLoop = false) : a.verdict t inSwitch strict = .reject .notALoop := by
  rw [verdict, hkind]
  exact if_neg (by simp [ht])

theorem verdict_onLoop {inSwitch : Bool} (hkind : a.kind = .loopHint)
    (ht : t.kind.isLoop = true) : a.verdict t inSwitch strict = a.readHint strict := by
  rw [verdict, hkind]
  exact if_pos ht

theorem readHint_badOption {loc : Loc} {name : String} (hname : a.ident? 0 = some ⟨loc, some name⟩)
    (hno : ∀ o : HintOption, o.text ≠ name) : a.readHint true = .reject (.badOption name loc) := by
  rw [readHint, hname]
  simp only [HintOption.resolve?, HintOption.ofText?_eq_none hno, if_true]

theorem diagnose?_unknownReport (e : Engine) : e.diagnose? a.unknownReport =
    if e.suppresses a.unknownId then none
    else some ⟨a.unknownId, if e.promotes then .error else .warning, a.loc,
      [.text a.qualifiedName], [], []⟩ := by
  have hreport : a.unknownReport = ⟨a.unknownId, a.loc, [.text a.qualifiedName], [], []⟩ := by
    simp [unknownReport, unknownId, isDeclspec]
  have hsev : a.unknownId.severity = .warning := by
    unfold unknownId
    split <;> rfl
  rw [hreport, Engine.diagnose?, Engine.severity?, hsev]
  show Option.map _ (if e.suppresses a.unknownId then none else _) = _
  split_ifs <;> rfl

end RawAttr

namespace Checker

variable {c : Checker} {t : Target} {specifiers : Range} {a : RawAttr}

theorem fate_of_keep {attr : Attr}
    (h : a.verdict t c.inSwitch c.config.strictLoopOptions = .keep attr) :
    c.fate t specifiers a = .kept attr := by
  rw [fate, h]

theorem fate_of_reject {why : Rejection}
    (h : a.verdict t c.inSwitch c.config.strictLoopOptions = .reject why)
    (hwhy : why ≠ .unknownKind) :
    c.fate t specifiers a = .dropped (some (why.report t a specifiers).diagnostic) := by
  rw [fate, h]
  exact congrArg Fate.dropped (Engine.diagnose?_of_error (Rejection.report_severity.mpr hwhy) _)

theorem fate_of_unknown (h : a.kind = .unknown) :
    c.fate t specifiers a = .dropped (c.engine.diagnose? a.unknownReport) := by
  rw [fate, RawAttr.verdict_eq_unknownKind_iff.mpr h]
  rfl

end Checker

namespace HasFate

variable {c : Checker} {t : Target} {specifiers : Range} {a : RawAttr} {f : Fate}

theorem eq_fate (h : HasFate c t specifiers a f) : f = c.fate t specifiers a := by
  have hhint {o : HintOption} {loc : Loc} (hkind : a.kind = .loopHint) (ht : t.kind.isLoop = true)
      (ho : a.StandsFor c.config.strictLoopOptions loc o) :
      a.verdict t c.inSwitch c.config.strictLoopOptions = _ :=
    (RawAttr.verdict_onLoop hkind ht).trans (RawAttr.readHint_of_standsFor ho)
  cases h with
  | suppressed hkind hs =>
    rw [Checker.fate_of_unknown hkind, RawAttr.diagnose?_unknownReport, if_pos hs]
  | unknown hkind hs =>
    rw [Checker.fate_of_unknown hkind, RawAttr.diagnose?_unknownReport, hs]
    rfl
  | declaration hkind hdecl =>
    exact (Checker.fate_of_reject (RawAttr.verdict_declaration hkind hdecl) nofun).symm
  | notEmpty hkind ht =>
    have hv : a.fallthroughVerdict t c.inSwitch = .reject .notEmpty := if_pos ht
    exact (Checker.fate_of_reject ((RawAttr.verdict_fallthrough hkind).trans hv) nofun).symm
  | outsideSwitch hkind ht hin =>
    have hv : a.fallthroughVerdict t c.inSwitch = .reject .outsideSwitch := by
      rw [RawAttr.fallthroughVerdict, if_neg (not_not.mpr ht), hin]
      rfl
    exact (Checker.fate_of_reject ((RawAttr.verdict_fallthrough hkind).trans hv) nofun).symm
  | fallthrough hkind ht hin =>
    have hv : a.fallthroughVerdict t c.inSwitch = .keep (.fallthrough a.range) := by
      rw [RawAttr.fallthroughVerdict, if_neg (not_not.mpr ht), hin]
      rfl
    exact (Checker.fate_of_keep ((RawAttr.verdict_fallthrough hkind).trans hv)).symm
  | notALoop hkind ht =>
    exact (Checker.fate_of_reject (RawAttr.verdict_notALoop hkind ht) nofun).symm
  | badOption hkind ht hstrict hname hno =>
    have hv := RawAttr.readHint_badOption hname hno
    rw [← hstrict] at hv
    exact (Checker.fate_of_reject ((RawAttr.verdict_onLoop hkind ht).trans hv) nofun).symm
  | badKeyword hkind ht ho hform hword =>
    have hv := hhint hkind ht ho
    rw [hintValue_badKeyword hform _ hword] at hv
    exact (Checker.fate_of_reject hv nofun).symm
  | badValue hkind ht ho hform hvalue =>
    have hv := hhint hkind ht ho
    rw [hintValue_badValue hform _ hvalue] at hv
    exact (Checker.fate_of_reject hv nofun).symm
  | switched hkind ht ho hform hword =>
    have hv := hhint hkind ht ho
    rw [hintValue_boolean hform _ _ _ hword] at hv
    exact (Checker.fate_of_keep hv).symm
  | counted hkind ht ho hform he hn hpos =>
    have hv := hhint hkind ht ho
    rw [he, hintValue_numeric hform _ hn hpos] at hv
    exact (Checker.fate_of_keep hv).symm

theorem exists_of_loopHint (hkind : a.kind = .loopHint) (ht : t.kind.isLoop = true)
    (h : ∃ loc name, a.ident? 0 = some ⟨loc, some name⟩) : ∃ f, HasFate c t specifiers a f := by
  obtain ⟨loc, name, hname⟩ := h
  have hoption {o : HintOption} (ho : a.StandsFor c.config.strictLoopOptions loc o) :
      ∃ f, HasFate c t specifiers a f := by
    cases hform : o.optionClass with
    | boolean =>
      by_cases hword : ∃ on, (a.valueWord loc).name = some (switchText on)
      · obtain ⟨on, hword⟩ := hword
        exact ⟨_, .switched hkind ht ho hform hword⟩
      · exact ⟨_, .badKeyword hkind ht ho hform (not_exists.mp hword)⟩
    | numeric =>
      by_cases hvalue : ∃ e n, a.expr? 2 = some e ∧ e.constant? = some n ∧ 1 ≤ n
      · obtain ⟨e, n, he, hn, hpos⟩ := hvalue
        exact ⟨_, .counted hkind ht ho hform he hn hpos⟩
      · refine ⟨_, .badValue hkind ht ho hform fun e n he hn => ?_⟩
        exact not_le.mp fun hpos => hvalue ⟨e, n, he, hn, hpos⟩
  by_cases hno : ∀ o : HintOption, o.text ≠ name
  · cases hstrict : c.config.strictLoopOptions with
    | true => exact ⟨_, .badOption hkind ht hstrict hname hno⟩
    | false => exact hoption ⟨name, hname, .inr ⟨hstrict, hno, rfl⟩⟩
  · obtain ⟨o, ho⟩ := not_forall_not.mp hno
    exact hoption ⟨name, hname, .inl ho⟩

theorem exists_of_namesOption (h : a.NamesOption) : ∃ f, HasFate c t specifiers a f := by
  by_cases hunknown : a.kind = .unknown
  · cases hs : c.engine.suppresses a.unknownId with
    | true => exact ⟨_, .suppressed hunknown hs⟩
    | false => exact ⟨_, .unknown hunknown hs⟩
  cases hstmt : a.kind.annotatesStmt with
  | false => exact ⟨_, .declaration hunknown hstmt⟩
  | true =>
    have hkinds : a.kind = .fallthrough ∨ a.kind = .loopHint := by
      cases hk : a.kind <;> simp_all [AttrKind.annotatesStmt]
    obtain hkind | hkind := hkinds
    · by_cases ht : t.kind = .null
      · cases hin : c.inSwitch with
        | true => exact ⟨_, .fallthrough hkind ht hin⟩
        | false => exact ⟨_, .outsideSwitch hkind ht hin⟩
      · exact ⟨_, .notEmpty hkind ht⟩
    · cases ht : t.kind.isLoop with
      | true => exact exists_of_loopHint hkind ht (h hkind)
      | false => exact ⟨_, .notALoop hkind ht⟩

end HasFate

/-- An attribute that names an option, if it is a hint, meets one fate. -/
theorem hasFate_iff {c : Checker} {t : Target} {specifiers : Range} {a : RawAttr} {f : Fate}
    (h : a.NamesOption) : HasFate c t specifiers a f ↔ f = c.fate t specifiers a := by
  refine ⟨HasFate.eq_fate, ?_⟩
  rintro rfl
  obtain ⟨f, hf⟩ : ∃ f, HasFate c t specifiers a f := HasFate.exists_of_namesOption h
  rwa [← hf.eq_fate]

namespace Checker

theorem kept?_fate (c : Checker) (t : Target) (specifiers : Range) (a : RawAttr) :
    (c.fate t specifiers a).kept? = (a.verdict t c.inSwitch c.config.strictLoopOptions).kept? := by
  unfold fate
  split <;> simp_all [Fate.kept?, Verdict.kept?]

theorem diagnostic?_fate (c : Checker) (t : Target) (specifiers : Range) (a : RawAttr) :
    (c.fate t specifiers a).diagnostic? =
      ((a.verdict t c.inSwitch c.config.strictLoopOptions).rejection?.map fun why =>
        why.report t a specifiers).bind c.engine.diagnose? := by
  unfold fate
  split <;> simp_all [Fate.diagnostic?, Verdict.rejection?]

theorem filterMap_kept?_fate (c : Checker) (t : Target) (specifiers : Range)
    (attrs : List RawAttr) : (attrs.map (c.fate t specifiers)).filterMap Fate.kept? =
      attrs.filterMap fun a => (a.verdict t c.inSwitch c.config.strictLoopOptions).kept? := by
  rw [List.filterMap_map]
  exact List.filterMap_congr fun a _ => c.kept?_fate t specifiers a

theorem filterMap_diagnostic?_fate (c : Checker) (t : Target) (specifiers : Range)
    (attrs : List RawAttr) : (attrs.map (c.fate t specifiers)).filterMap Fate.diagnostic? =
      (attrs.filterMap fun a =>
        (a.verdict t c.inSwitch c.config.strictLoopOptions).rejection?.map fun why =>
          why.report t a specifiers).filterMap c.engine.diagnose? := by
  rw [List.filterMap_map, List.filterMap_filterMap]
  exact List.filterMap_congr fun a _ => c.diagnostic?_fate t specifiers a

end Checker

theorem Engine.reportAll_settings (e : Engine) (rs : List Report) :
    (e.reportAll rs).suppressed = e.suppressed ∧ (e.reportAll rs).promotes = e.promotes := by
  induction rs generalizing e with
  | nil => exact ⟨rfl, rfl⟩
  | cons r rs ih =>
    obtain ⟨hs, hp⟩ := ih (e.report r)
    have hr : (e.report r).suppressed = e.suppressed ∧ (e.report r).promotes = e.promotes := by
      unfold report
      split <;> exact ⟨rfl, rfl⟩
    exact ⟨hs.trans hr.1, hp.trans hr.2⟩

/-- Every attribute of a statement meets one fate. Those that stay are the result, in order; the
diagnostics on the others come first, in order, and then the conflicts between those that stay,
which remove none. Where none stays, the statement is left as it is. -/
theorem process_fates (c : Checker) (s : Stmt) (attrs : List RawAttr) (specifiers : Range)
    (h : ∀ a ∈ attrs, a.NamesOption) :
    ∃ fates c', List.Forall₂ (HasFate c s.target specifiers) attrs fates ∧
      (∀ fates', List.Forall₂ (HasFate c s.target specifiers) attrs fates' → fates' = fates) ∧
      let kept := fates.filterMap Fate.kept?
      c.process s.target attrs specifiers = (.ok kept, c') ∧
      c'.engine.recorded = c.engine.recorded ++ fates.filterMap Fate.diagnostic? ++
        (conflicts kept).map Report.diagnostic ∧
      c'.functions = c.functions ∧ c'.config = c.config ∧
      c'.engine.suppressed = c.engine.suppressed ∧ c'.engine.promotes = c.engine.promotes ∧
      s.withAttrs kept specifiers =
        if kept = [] then s else .attributed kept s specifiers specifiers.start := by
  have heach := Checker.checkEach_eq s.target specifiers h c rfl rfl
  have hkept := c.filterMap_kept?_fate s.target specifiers attrs
  have hdropped := c.filterMap_diagnostic?_fate s.target specifiers attrs
  -- The checker depends on the attributes through what is kept, reported and logged, and no more.
  generalize (attrs.filterMap fun a =>
    (a.verdict s.target c.inSwitch c.config.strictLoopOptions).kept?) = kept at heach hkept
  generalize (attrs.filterMap fun a =>
    (a.verdict s.target c.inSwitch c.config.strictLoopOptions).rejection?.map fun why =>
      why.report s.target a specifiers) = rejections at heach hdropped
  generalize (attrs.flatMap fun a => a.events s.target c.config.strictLoopOptions) = events at heach
  refine ⟨attrs.map (c.fate s.target specifiers),
    (c.hear events rejections).reportAll (conflicts kept), ?_, ?_, ?_⟩
  · rw [List.forall₂_map_right_iff, List.forall₂_same]
    exact fun a ha => (hasFate_iff (h a ha)).mpr rfl
  · intro fates' hfates
    have heq := List.forall₂_map_left_iff.mpr (hfates.imp fun a f hf => hf.eq_fate.symm)
    rw [List.forall₂_eq_eq_eq] at heq
    exact heq.symm
  · have hfirst := c.engine.reportAll_settings rejections
    have hlast := (c.engine.reportAll rejections).reportAll_settings (conflicts kept)
    rw [hkept, hdropped, Checker.process, heach]
    refine ⟨rfl, ?_, rfl, rfl, hlast.1.trans hfirst.1, hlast.2.trans hfirst.2, ?_⟩
    · show ((c.engine.reportAll rejections).reportAll (conflicts kept)).recorded = _
      rw [Engine.recorded_reportAll_conflicts, Engine.recorded_reportAll]
    · rw [Stmt.withAttrs]
      simp only [List.isEmpty_iff]

def mixedAttrs : List RawAttr :=
  let hint (option : String) (word : Option Arg) (value : Option Arg) : RawAttr :=
    ⟨"loop", .pragma, none, [some (.ident ⟨.unknown, some option⟩), word, value], .unknown⟩
  [⟨"nosuch", .cxx11, none, [], .unknown⟩,
    hint "unroll" (some (.ident ⟨.unknown, some "disable"⟩)) none,
    ⟨"nosuch", .declspec, none, [], .unknown⟩,
    ⟨"fallthrough", .cxx11, some "clang", [], .unknown⟩,
    hint "unroll_count" none (some (.expr (.int 4 "4" .unknown))),
    ⟨"packed", .gnu, none, [], .unknown⟩]

theorem process_fates_mixed :
    let c := Checker.new { suppressed := ["ATTR-1000"] }
    let s : Stmt := .whileLoop (.int 1 "1" .unknown) (.null .unknown) .unknown
    (∀ a ∈ mixedAttrs, a.NamesOption) ∧
      ∃ fates c', List.Forall₂ (HasFate c s.target .unknown) mixedAttrs fates ∧
        c.process s.target mixedAttrs .unknown = (.ok (fates.filterMap Fate.kept?), c') ∧
        fates.filterMap Fate.kept? =
          [.hint ⟨.unroll, 0, .unknown⟩, .hint ⟨.unrollCount, 4, .unknown⟩] ∧
        c'.engine.recorded.map Diagnostic.id =
          [.unsupportedDeclspec, .fallthroughTarget, .invalidOnStmt, .hintConflict] := by
  intro c s
  have hnames : ∀ a ∈ mixedAttrs, a.NamesOption := by
    intro a ha hkind
    simp only [mixedAttrs, List.mem_cons, List.not_mem_nil, or_false] at ha
    obtain rfl | rfl | rfl | rfl | rfl | rfl := ha
    · exact absurd hkind (by decide)
    · exact ⟨_, _, rfl⟩
    · exact absurd hkind (by decide)
    · exact absurd hkind (by decide)
    · exact ⟨_, _, rfl⟩
    · exact absurd hkind (by decide)
  obtain ⟨fates, c', hfates, _, hprocess, _⟩ := process_fates c s mixedAttrs .unknown hnames
  have hkept : (c.process s.target mixedAttrs .unknown).1.toOption =
      some [.hint ⟨.unroll, 0, .unknown⟩, .hint ⟨.unrollCount, 4, .unknown⟩] := by
    decide +kernel
  have hids : (c.process s.target mixedAttrs .unknown).2.engine.recorded.map Diagnostic.id =
      [.unsupportedDeclspec, .fallthroughTarget, .invalidOnStmt, .hintConflict] := by
    decide +kernel
  rw [hprocess] at hkept hids
  exact ⟨hnames, fates, c', hfates, hprocess, Option.some.inj hkept, hids⟩

end AttrCheck
