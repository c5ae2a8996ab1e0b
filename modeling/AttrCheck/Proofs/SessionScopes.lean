import AttrCheck.Proofs.SessionCalls

/-! Which scopes are open at any point of a session. They are those that its calls so far have
opened and not closed: each open function belongs to a call that no later one has undone, and its
open `switch` statements to those calls made while it was the innermost one that are not undone
either. So the innermost function has a `switch` open just when it has seen more of them opened than
closed. -/

namespace AttrCheck

structure Brackets where
  opens : Step → Bool
  closes : Step → Bool

namespace Brackets

def function : Brackets where
  opens
    | .pushFunction _ => true
    | _ => false
  closes
    | .popFunction => true
    | _ => false

def switch : Brackets where
  opens
    | .pushSwitch _ => true
    | _ => false
  closes
    | .popSwitch => true
    | _ => false

/-- Of some calls, latest first, the one that has opened the scope which `n` open scopes are inside
of, and the calls since then that were made in just that scope, latest first. -/
def unclosed (b : Brackets) : Nat → List Step → Option (Step × List Step)
  | _, [] => none
  | n, s :: done =>
    if b.closes s then b.unclosed (n + 1) done
    else
      match b.opens s, n with
      | true, 0 => some (s, [])
      | true, n + 1 => b.unclosed n done
      | false, 0 => (b.unclosed 0 done).map fun scope => (scope.1, s :: scope.2)
      | false, n + 1 => b.unclosed (n + 1) done

variable {α : Type} {b : Brackets} {R : α → Step × List Step → Prop} {x : α} {xs : List α}
  {s : Step} {done : List Step}

def Mirrors (b : Brackets) (R : α → Step × List Step → Prop) (xs : List α) (done : List Step) :
    Prop :=
  ∀ n, Option.Rel R xs[n]? (b.unclosed n done)

theorem mirrors_nil : b.Mirrors R [] [] := fun _ => .none

theorem Mirrors.unclosed_eq_none (h : b.Mirrors R [] done) : b.unclosed 0 done = none := by
  generalize hscope : b.unclosed 0 done = scope
  have hzero := hscope ▸ h 0
  cases hzero
  rfl

theorem Mirrors.exists_unclosed (h : b.Mirrors R (x :: xs) done) :
    ∃ scope, b.unclosed 0 done = some scope ∧ R x scope := by
  generalize hscope : b.unclosed 0 done = scope
  have hzero := hscope ▸ h 0
  cases hzero with
  | some hx => exact ⟨_, rfl, hx⟩

theorem Mirrors.opens (h : b.Mirrors R xs done) (hs : b.opens s) (hc : b.closes s = false)
    (hx : R x (s, [])) : b.Mirrors R (x :: xs) (s :: done) := by
  intro n
  cases n with
  | zero => simpa [unclosed, hs, hc] using hx
  | succ n => simpa [unclosed, hs, hc] using h n

theorem Mirrors.closes (h : b.Mirrors R (x :: xs) done) (hc : b.closes s) :
    b.Mirrors R xs (s :: done) := by
  intro n
  simpa [unclosed, hc] using h (n + 1)

theorem Mirrors.inside (h : b.Mirrors R xs done) (hs : b.opens s = false) (hc : b.closes s = false)
    {g : α → α} (hg : ∀ x ∈ xs.head?, ∀ opener calls,
      R x (opener, calls) → R (g x) (opener, s :: calls)) :
    b.Mirrors R (xs.modifyHead g) (s :: done) := by
  intro n
  cases n with
  | zero =>
    have hzero : b.unclosed 0 (s :: done) =
        (b.unclosed 0 done).map fun scope => (scope.1, s :: scope.2) := by
      simp [unclosed, hs, hc]
    rw [hzero]
    cases xs with
    | nil =>
      rw [h.unclosed_eq_none]
      exact .none
    | cons x xs =>
      obtain ⟨scope, hscope, hx⟩ := h.exists_unclosed
      rw [hscope]
      exact .some (hg x rfl scope.1 scope.2 hx)
  | succ n =>
    have hsucc : b.unclosed (n + 1) (s :: done) = b.unclosed (n + 1) done := by
      simp [unclosed, hs, hc]
    rw [hsucc]
    cases xs <;> exact h (n + 1)

end Brackets

namespace FunctionScope

structure Records (f : FunctionScope) (opened : Step × List Step) : Prop where
  opener : opened.1 = .pushFunction f.name
  switches :
    Brackets.switch.Mirrors (fun loc scope => scope.1 = .pushSwitch loc) f.switches opened.2
  count : opened.2.countP Brackets.switch.closes + f.switches.length =
    opened.2.countP Brackets.switch.opens

variable {f : FunctionScope} {opener s : Step} {calls : List Step}

theorem records_pushFunction (name : String) : Records ⟨name, []⟩ (.pushFunction name, []) where
  opener := rfl
  switches := Brackets.mirrors_nil
  count := rfl

theorem Records.pushSwitch (h : f.Records (opener, calls)) (loc : Loc) :
    Records { f with switches := loc :: f.switches } (opener, .pushSwitch loc :: calls) where
  opener := h.opener
  switches := h.switches.opens rfl rfl rfl
  count := by
    have hcount : calls.countP _ + f.switches.length = calls.countP _ := h.count
    rw [List.countP_cons_of_neg Bool.false_ne_true, List.countP_cons_of_pos rfl, ← hcount]
    rfl

theorem Records.popSwitch {name : String} {loc : Loc} {rest : List Loc}
    (h : Records ⟨name, loc :: rest⟩ (opener, calls)) :
    Records ⟨name, rest⟩ (opener, .popSwitch :: calls) where
  opener := h.opener
  switches := h.switches.closes rfl
  count := by
    have hcount : calls.countP _ + (rest.length + 1) = calls.countP _ := h.count
    rw [List.countP_cons_of_pos rfl, List.countP_cons_of_neg Bool.false_ne_true, ← hcount]
    exact Nat.add_right_comm _ 1 _

theorem Records.inside (h : f.Records (opener, calls)) (hs : Brackets.switch.opens s = false)
    (hc : Brackets.switch.closes s = false) : f.Records (opener, s :: calls) where
  opener := h.opener
  switches := by
    have hmirrors := h.switches.inside hs hc (g := id) fun _ _ _ _ hopener => hopener
    rwa [List.modifyHead_id] at hmirrors
  count := by
    rw [List.countP_cons_of_neg (by simp [hc]), List.countP_cons_of_neg (by simp [hs])]
    exact h.count

end FunctionScope

def Answer.isFailed : Answer → Bool
  | failed _ => true
  | _ => false

def Step.succeeded (c : Checker) : List Step → List Step
  | [] => []
  | s :: ss =>
    let later := succeeded (s.run c).2 ss
    if (s.run c).1.isFailed then later else s :: later

namespace Checker

def Remembers (c : Checker) (done : List Step) : Prop :=
  Brackets.function.Mirrors FunctionScope.Records c.functions done

variable {c : Checker} {done : List Step}

theorem remembers_new (config : Config) : (new config).Remembers [] := Brackets.mirrors_nil

theorem Remembers.check (h : c.Remembers done) {s : Step} (hs : s.isCheck) :
    (s.run c).2.Remembers (s :: done) := by
  rw [Remembers, Step.functions_run_of_isCheck hs]
  have hinside : Brackets.function.opens s = false ∧ Brackets.function.closes s = false ∧
      Brackets.switch.opens s = false ∧ Brackets.switch.closes s = false := by
    cases s <;> first | exact ⟨rfl, rfl, rfl, rfl⟩ | cases hs
  obtain ⟨hopens, hcloses, hopensSwitch, hclosesSwitch⟩ := hinside
  have hmirrors := Brackets.Mirrors.inside h hopens hcloses (g := id) fun f _ opener calls hf =>
    hf.inside hopensSwitch hclosesSwitch
  rwa [List.modifyHead_id] at hmirrors

theorem Remembers.run (h : c.Remembers done) {s : Step} (hs : s.isMove ∨ s.isCheck) :
    (s.run c).2.Remembers (if (s.run c).1.isFailed then done else s :: done) := by
  obtain hs | hs := hs
  · obtain ⟨config, engine, functions, events⟩ := c
    cases s with
    | pushFunction name => exact h.opens rfl rfl (FunctionScope.records_pushFunction name)
    | popFunction =>
      cases functions with
      | nil => exact h
      | cons f fs => exact Brackets.Mirrors.closes h rfl
    | pushSwitch loc =>
      cases functions with
      | nil => exact h
      | cons f fs =>
        exact Brackets.Mirrors.inside h rfl rfl
          (g := fun f => { f with switches := loc :: f.switches }) fun f _ _ _ hf =>
            hf.pushSwitch loc
    | popSwitch =>
      obtain _ | ⟨⟨name, _ | ⟨loc, rest⟩⟩, fs⟩ := functions
      · exact h
      · exact h
      · exact Brackets.Mirrors.inside h rfl rfl
          (g := fun _ => ⟨name, rest⟩) fun f hf _ _ hrecords => by
            obtain rfl : _ = f := Option.some.inj hf
            exact hrecords.popSwitch
    | _ => cases hs
  · by_cases hfailed : (s.run c).1.isFailed
    · rw [if_pos hfailed, Remembers, Step.functions_run_of_isCheck hs]
      exact h
    · rw [if_neg hfailed]
      exact h.check hs

theorem Remembers.runAll {calls : List Step} (h : c.Remembers done)
    (hcalls : ∀ s ∈ calls, s.isMove ∨ s.isCheck) :
    (Step.runAll c calls).2.Remembers ((Step.succeeded c calls).reverse ++ done) := by
  induction calls generalizing c done with
  | nil => exact h
  | cons s calls ih =>
    have hlater := ih (h.run (hcalls s (.head _))) fun t ht => hcalls t (.tail _ ht)
    rw [Step.succeeded]
    split_ifs at hlater ⊢
    · exact hlater
    · rw [List.reverse_cons, List.append_assoc]
      exact hlater

end Checker

def HoldsSwitch (done : List Step) : Prop :=
  ∃ opened ∈ Brackets.function.unclosed 0 done,
    opened.2.countP Brackets.switch.closes < opened.2.countP Brackets.switch.opens

instance (done : List Step) : Decidable (HoldsSwitch done) := by
  unfold HoldsSwitch
  infer_instance

/-- A function that is opened and closed again hides no `switch`; one that stays open hides those of
the function around it. -/
example :
    HoldsSwitch [.popFunction, .pushFunction "g", .pushSwitch .unknown, .pushFunction "f"] ∧
      ¬ HoldsSwitch [.pushFunction "g", .pushSwitch .unknown, .pushFunction "f"] := by
  decide

theorem Checker.Remembers.inSwitch_eq {c : Checker} {done : List Step} (h : c.Remembers done) :
    c.inSwitch = decide (HoldsSwitch done) := by
  rw [Bool.eq_iff_iff, decide_eq_true_iff, HoldsSwitch, inSwitch]
  obtain ⟨config, engine, functions, events⟩ := c
  cases functions with
  | nil => simp [Brackets.Mirrors.unclosed_eq_none h]
  | cons f fs =>
    obtain ⟨opened, hopened, hrecords⟩ := Brackets.Mirrors.exists_unclosed h
    have hcount := hrecords.count
    have hpos : f.switches ≠ [] ↔ 0 < f.switches.length := List.length_pos_iff.symm
    simp only [hopened, Option.mem_def, Option.some.injEq, exists_eq_left', Bool.not_eq_true',
      List.isEmpty_eq_false_iff, hpos]
    omega

theorem Answer.ofResult_of_ok {α : Type} {answer : α → Answer} {r : Except Defect α × Checker}
    {x : α} (h : r.1 = .ok x) : (Answer.ofResult answer r).1 = answer x := by
  obtain ⟨_, c⟩ := r
  obtain rfl := h
  rfl

section EmptyStmt

variable (a : RawAttr) (loc : Loc) (specifiers : Range)

def RawAttr.onEmpty (inSwitch : Bool) : Option Attr :=
  if a.kind = .fallthrough ∧ inSwitch then some (.fallthrough a.range) else none

theorem RawAttr.verdict_onEmpty (inSwitch strict : Bool) :
    a.verdict ⟨.null, loc⟩ inSwitch strict ≠ .malformed ∧
      (a.verdict ⟨.null, loc⟩ inSwitch strict).kept? = a.onEmpty inSwitch := by
  have hloop : StmtKind.null.isLoop = false := rfl
  unfold verdict onEmpty fallthroughVerdict loopHintVerdict
  cases a.kind <;> cases inSwitch <;> simp [Verdict.kept?, hloop]

namespace Checker

variable (c : Checker)

theorem checkFallthrough_onEmpty : (c.checkFallthrough ⟨.null, loc⟩ a specifiers).1 =
    .ok (if c.inSwitch then some (.fallthrough a.range) else none) := by
  rw [checkFallthrough, RawAttr.fallthroughVerdict, if_neg (by simp)]
  split_ifs <;> rfl

theorem checkOne_onEmpty :
    (c.checkOne ⟨.null, loc⟩ a specifiers).1 = .ok (a.onEmpty c.inSwitch) := by
  obtain ⟨hverdict, hkept⟩ := a.verdict_onEmpty loc c.inSwitch c.config.strictLoopOptions
  rw [checkOne, settle_eq hverdict, hkept]

theorem process_onEmpty (attrs : List RawAttr) : (c.process ⟨.null, loc⟩ attrs specifiers).1 =
    .ok (attrs.filterMap fun a => a.onEmpty c.inSwitch) := by
  have hverdict : ∀ a ∈ attrs,
      a.verdict ⟨.null, loc⟩ c.inSwitch c.config.strictLoopOptions ≠ .malformed := fun a _ =>
    (a.verdict_onEmpty loc c.inSwitch c.config.strictLoopOptions).1
  have heach := checkEach_eq_of_ne_malformed ⟨.null, loc⟩ specifiers hverdict c rfl rfl
  rw [process, heach]
  simp only [fun a : RawAttr => (a.verdict_onEmpty loc c.inSwitch c.config.strictLoopOptions).2]

end Checker

end EmptyStmt

namespace Checker

/-- What holds of a checker at a point of a session; the calls before it that did not fail are
`done`, latest first. -/
structure Scoped (c : Checker) (done : List Step) : Prop where
  /-- Opening or closing a scope changes nothing if it fails. -/
  move_failed : ∀ (s : Step) (d : Defect), s.isMove → (s.run c).1 = .failed d → (s.run c).2 = c
  /-- A check leaves all scopes as they are, whether or not it fails. -/
  check_functions : ∀ s : Step, s.isCheck → (s.run c).2.functions = c.functions
  /-- A `switch` that is closed is the last one that has been opened, and not closed, in the
  innermost function. -/
  popSwitch_place : ∀ loc, (Step.popSwitch.run c).1 = .place loc →
    ∃ name rest outer calls since, c.functions = ⟨name, loc :: rest⟩ :: outer ∧
      (Step.popSwitch.run c).2 = { c with functions := ⟨name, rest⟩ :: outer } ∧
      Brackets.function.unclosed 0 done = some (.pushFunction name, calls) ∧
      Brackets.switch.unclosed 0 calls = some (.pushSwitch loc, since)
  /-- A block with any body is the calls that open it, the body and the calls that close it, which
  are made also if the body fails. -/
  block_calls : ∀ {α : Type} function switches (body : Checker → Except Defect α × Checker),
    (c.within function switches body).2 =
      let opened := (Step.runAll c (c.openingCalls function switches)).2
      let left :=
        match (c.openScopes function switches).1 with
        | .ok () => (body opened).2
        | .error _ => opened
      (Step.runAll left (c.closingCalls function switches)).2
  /-- A block that cannot be opened changes nothing. -/
  block_not_opened : ∀ {α : Type} function switches d (body : Checker → Except Defect α × Checker),
    (c.openScopes function switches).1 = .error d →
      c.within function switches body = (.error d, c)
  /-- A block whose body leaves the scopes as it has found them leaves them as they were before, and
  it comes out as its body does, also if that fails. -/
  block_opened : ∀ {α : Type} function switches scopes opened
    (body : Checker → Except Defect α × Checker),
    c.openScopes function switches = (.ok (), scopes, opened) →
      (body opened).2.functions = opened.functions →
        c.within function switches body =
          ((body opened).1, { (body opened).2 with functions := c.functions })
  /-- A mark of a fallthrough stays on an empty statement just if the innermost function has a
  `switch` open. -/
  checkFallthrough_onEmpty : ∀ loc a specifiers,
    ((Step.checkFallthrough (.stmt ⟨.null, loc⟩) a specifiers).run c).1 =
      .attr (if HoldsSwitch done then some (.fallthrough a.range) else none)
  checkOne_onEmpty : ∀ loc a specifiers,
    ((Step.checkOne (.stmt ⟨.null, loc⟩) a specifiers).run c).1 =
      .attr (a.onEmpty (HoldsSwitch done))
  process_onEmpty : ∀ loc attrs specifiers,
    ((Step.process (.stmt ⟨.null, loc⟩) attrs specifiers).run c).1 =
      .kept (attrs.filterMap fun a => a.onEmpty (HoldsSwitch done))

variable {c : Checker} {done : List Step}

theorem Remembers.exists_pushSwitch {name : String} {loc : Loc} {rest : List Loc}
    {outer : List FunctionScope} (h : c.Remembers done)
    (hc : c.functions = ⟨name, loc :: rest⟩ :: outer) :
    ∃ calls since, Brackets.function.unclosed 0 done = some (.pushFunction name, calls) ∧
      Brackets.switch.unclosed 0 calls = some (.pushSwitch loc, since) := by
  rw [Remembers, hc] at h
  obtain ⟨⟨opener, calls⟩, hopened, hrecords⟩ := h.exists_unclosed
  obtain rfl : opener = .pushFunction name := hrecords.opener
  obtain ⟨⟨opener, since⟩, hsince, hopener⟩ := hrecords.switches.exists_unclosed
  obtain rfl : opener = .pushSwitch loc := hopener
  exact ⟨calls, since, hopened, hsince⟩

theorem Remembers.scoped (h : c.Remembers done) : c.Scoped done where
  move_failed s d hs hd := Step.run_of_isMove_of_failed hs hd
  check_functions s hs := Step.functions_run_of_isCheck hs c
  popSwitch_place loc hloc := by
    obtain ⟨config, engine, functions, events⟩ := c
    obtain _ | ⟨⟨name, _ | ⟨loc', rest⟩⟩, outer⟩ := functions
    · cases hloc
    · cases hloc
    obtain rfl : loc' = loc := Answer.place.inj hloc
    obtain ⟨calls, since, hopened, hsince⟩ := h.exists_pushSwitch rfl
    exact ⟨name, rest, outer, calls, since, rfl, rfl, hopened, hsince⟩
  block_calls := within_eq_runAll
  block_not_opened function switches d body hopen := within_of_not_opened hopen body
  block_opened function switches scopes opened body hopen hbody := within_of_opened hopen hbody
  checkFallthrough_onEmpty loc a specifiers := by
    have hresult := c.checkFallthrough_onEmpty a loc specifiers
    simp only [h.inSwitch_eq, decide_eq_true_eq] at hresult
    exact Answer.ofResult_of_ok hresult
  checkOne_onEmpty loc a specifiers :=
    Answer.ofResult_of_ok (h.inSwitch_eq ▸ c.checkOne_onEmpty a loc specifiers)
  process_onEmpty loc attrs specifiers :=
    Answer.ofResult_of_ok (h.inSwitch_eq ▸ c.process_onEmpty loc specifiers attrs)

/-- At every point of a session, inside of its blocks as well as between them, the scopes are what
the calls so far have made of them. -/
theorem scoped_callsAll (config : Config) (steps : List Step) :
    let start := Checker.new config
    let calls := Step.callsAll start steps
    (∀ s ∈ calls, s.isMove ∨ s.isCheck) ∧
      (Step.runAll start calls).2 = (Step.runAll start steps).2 ∧
      ∀ n, Checker.Scoped (Step.runAll start (calls.take n)).2
        (Step.succeeded start (calls.take n)).reverse := by
  intro start calls
  have hcalls : ∀ s ∈ calls, s.isMove ∨ s.isCheck := fun s =>
    Step.isMove_or_isCheck_of_mem_callsAll start steps
  refine ⟨hcalls, Step.runAll_callsAll start steps, fun n => ?_⟩
  have hsome : ∀ s ∈ calls.take n, s.isMove ∨ s.isCheck := fun s hs =>
    hcalls s (List.mem_of_mem_take hs)
  have hremembers := (remembers_new config).runAll hsome
  rw [List.append_nil] at hremembers
  exact hremembers.scoped

end Checker

end AttrCheck
