import AttrCheck.Checker.Session
import AttrCheck.Proofs.ResolverFrame

/-! Sessions as single calls. A block is the calls that open its scopes, what its body does, and the
calls that close them again, so that a session with blocks in it is a session without. What a block
opens it closes, if its body leaves the scopes as it has found them: then just those are open that
were open before, even where the body fails. -/

namespace AttrCheck

namespace Step

def isMove : Step → Bool
  | pushFunction _ | popFunction | pushSwitch _ | popSwitch => true
  | _ => false

def isCheck : Step → Bool
  | process _ _ _ | checkOne _ _ _ | checkFallthrough _ _ _ | checkLoopHint _ _ _ => true
  | _ => false

end Step

theorem Answer.ofResult_snd {α : Type} (answer : α → Answer) (r : Except Defect α × Checker) :
    (Answer.ofResult answer r).2 = r.2 := by
  obtain ⟨_ | _, _⟩ := r <;> rfl

theorem Checker.extends_log (c : Checker) (es : List Event) : c.Extends (c.log es) :=
  ⟨rfl, List.prefix_refl _⟩

namespace Subject

variable (s : Subject) (c : Checker) (a : RawAttr) (specifiers : Range)

theorem extends_checkFallthrough : c.Extends (s.checkFallthrough c a specifiers).2 := by
  cases s with
  | stmt t => exact c.extends_settle t a specifiers _
  | other loc => exact c.extends_reportAll _

theorem extends_checkLoopHint : c.Extends (s.checkLoopHint c a specifiers).2 := by
  cases s with
  | stmt t => exact (c.extends_log _).trans (Checker.extends_settle _ t a specifiers _)
  | other loc => exact .refl c

theorem extends_checkOne : c.Extends (s.checkOne c a specifiers).2 := by
  cases s with
  | stmt t => exact c.extends_checkOne t a specifiers
  | other loc =>
    show c.Extends (c.checkOther loc a).2
    unfold Checker.checkOther
    split
    · exact c.extends_reportAll [a.unknownReport]
    · exact (c.extends_log _).trans (Checker.extends_reportAll _ _)
    · exact c.extends_log _
    · exact c.extends_reportAll [a.declarationReport _]
    · exact .refl c

theorem extends_process (attrs : List RawAttr) : c.Extends (s.process c attrs specifiers).2 := by
  cases s with
  | stmt t => exact c.extends_process t attrs specifiers
  | other loc =>
    exact Checker.extends_checkEach (fun c a => (other loc).extends_checkOne c a specifiers) attrs c

end Subject

namespace Step

theorem functions_run_of_isCheck {s : Step} (h : s.isCheck) (c : Checker) :
    (s.run c).2.functions = c.functions := by
  cases s with
  | process s attrs specifiers =>
    rw [run, Answer.ofResult_snd]
    exact (s.extends_process c specifiers attrs).functions
  | checkOne s a specifiers =>
    rw [run, Answer.ofResult_snd]
    exact (s.extends_checkOne c a specifiers).functions
  | checkFallthrough s a specifiers =>
    rw [run, Answer.ofResult_snd]
    exact (s.extends_checkFallthrough c a specifiers).functions
  | checkLoopHint s a specifiers =>
    rw [run, Answer.ofResult_snd]
    exact (s.extends_checkLoopHint c a specifiers).functions
  | _ => cases h

theorem run_of_isMove_of_failed {s : Step} (h : s.isMove) {c : Checker} {d : Defect}
    (hd : (s.run c).1 = .failed d) : (s.run c).2 = c := by
  obtain ⟨config, engine, functions, events⟩ := c
  cases s with
  | pushFunction name => cases hd
  | popFunction | pushSwitch =>
    cases functions with
    | nil => rfl
    | cons f fs => cases hd
  | popSwitch =>
    obtain _ | ⟨⟨name, _ | ⟨loc, rest⟩⟩, outer⟩ := functions
    · rfl
    · rfl
    · cases hd
  | _ => cases h

theorem runAll_append (c : Checker) (ss ts : List Step) :
    (runAll c (ss ++ ts)).2 = (runAll (runAll c ss).2 ts).2 := by
  induction ss generalizing c with
  | nil => rfl
  | cons s ss ih => exact ih (s.run c).2

end Step

def OpenScope.closing : OpenScope → Step
  | function => .popFunction
  | switch => .popSwitch

theorem OpenScope.isMove_closing (scope : OpenScope) : scope.closing.isMove := by
  cases scope <;> rfl

inductive Closes : List OpenScope → List FunctionScope → List FunctionScope → Prop where
  | nil {fs : List FunctionScope} : Closes [] fs fs
  | function {scopes : List OpenScope} {f : FunctionScope} {fs base : List FunctionScope}
      (h : Closes scopes fs base) : Closes (.function :: scopes) (f :: fs) base
  | switch {scopes : List OpenScope} {f : FunctionScope} {fs base : List FunctionScope} {loc : Loc}
      (h : Closes scopes (f :: fs) base) :
      Closes (.switch :: scopes) ({ f with switches := loc :: f.switches } :: fs) base

theorem Closes.closeAll_eq {scopes : List OpenScope} {fs base : List FunctionScope}
    (h : Closes scopes fs base) {c : Checker} (hc : c.functions = fs) :
    c.closeAll scopes = (none, { c with functions := base }) := by
  obtain ⟨config, engine, functions, events⟩ := c
  obtain rfl : functions = fs := hc
  induction h with
  | nil => rfl
  | function _ ih => exact ih
  | switch _ ih => exact ih

namespace Checker

variable {α : Type} {c : Checker}

def switchCalls (c : Checker) : List Loc → List Step
  | [] => []
  | loc :: locs =>
    .pushSwitch loc :: match c.pushSwitch loc with
      | .error _ => []
      | .ok c => c.switchCalls locs

def openingCalls (c : Checker) (function : Option String) (switches : List Loc) : List Step :=
  match function with
  | none => c.switchCalls switches
  | some name => .pushFunction name :: (c.pushFunction name).switchCalls switches

def closingCalls (c : Checker) (function : Option String) (switches : List Loc) : List Step :=
  (c.openScopes function switches).2.1.map OpenScope.closing

theorem isMove_of_mem_switchCalls {locs : List Loc} {s : Step} (h : s ∈ c.switchCalls locs) :
    s.isMove := by
  induction locs generalizing c with
  | nil => cases h
  | cons loc locs ih =>
    rw [switchCalls] at h
    cases hpush : c.pushSwitch loc with
    | error d =>
      rw [hpush, List.mem_singleton] at h
      rw [h]
      rfl
    | ok c' =>
      rw [hpush, List.mem_cons] at h
      obtain rfl | h := h
      · rfl
      · exact ih h

theorem isMove_of_mem_openingCalls {function : Option String} {switches : List Loc} {s : Step}
    (h : s ∈ c.openingCalls function switches) : s.isMove := by
  cases function with
  | none => exact isMove_of_mem_switchCalls h
  | some name =>
    obtain rfl | h := List.mem_cons.mp h
    · rfl
    · exact isMove_of_mem_switchCalls h

theorem isMove_of_mem_closingCalls {function : Option String} {switches : List Loc} {s : Step}
    (h : s ∈ c.closingCalls function switches) : s.isMove := by
  obtain ⟨scope, -, rfl⟩ := List.mem_map.mp h
  exact scope.isMove_closing

theorem openSwitches_eq_runAll (opened : List OpenScope) (locs : List Loc) :
    (c.openSwitches opened locs).2.2 = (Step.runAll c (c.switchCalls locs)).2 := by
  induction locs generalizing c opened with
  | nil => rfl
  | cons loc locs ih =>
    rw [openSwitches, switchCalls, Step.runAll, Step.run]
    cases c.pushSwitch loc with
    | error d => rfl
    | ok c' => exact ih (.switch :: opened)

theorem openScopes_eq_runAll (function : Option String) (switches : List Loc) :
    (c.openScopes function switches).2.2 =
      (Step.runAll c (c.openingCalls function switches)).2 := by
  cases function with
  | none => exact openSwitches_eq_runAll [] switches
  | some name => exact openSwitches_eq_runAll [.function] switches

theorem closeAll_eq_runAll (scopes : List OpenScope) :
    (c.closeAll scopes).2 = (Step.runAll c (scopes.map OpenScope.closing)).2 := by
  induction scopes generalizing c with
  | nil => rfl
  | cons scope scopes ih =>
    have hstep : (scope.closing.run c).2 = (c.close scope).toOption.getD c := by
      cases scope with
      | function =>
        show (Answer.ofExcept c (c.popFunction.map _)).2 = _
        rw [close]
        cases c.popFunction <;> rfl
      | switch =>
        show (Answer.ofExcept c (c.popSwitch.map _)).2 = _
        rw [close]
        cases c.popSwitch <;> rfl
    rw [closeAll, List.map_cons, Step.runAll, hstep]
    cases c.close scope <;> exact ih

/-- A block does what its calls and its body do, and it makes all the calls that close it also if
the body fails. -/
theorem within_eq_runAll (function : Option String) (switches : List Loc)
    (body : Checker → Except Defect α × Checker) :
    (c.within function switches body).2 =
      let opened := (Step.runAll c (c.openingCalls function switches)).2
      let left :=
        match (c.openScopes function switches).1 with
        | .ok () => (body opened).2
        | .error _ => opened
      (Step.runAll left (c.closingCalls function switches)).2 := by
  rw [← openScopes_eq_runAll, within, closingCalls]
  obtain ⟨_ | _, opened, c'⟩ := c.openScopes function switches <;> exact closeAll_eq_runAll opened

/-- Where the body has left the function of its block, neither the `switch` nor the function is
there to close, and the last failure counts. -/
example (config : Config) (loc : Loc) :
    (Step.inScopes (some "f") [loc] [.popFunction]).run (new config) =
      (.failed .noFunction, new config) :=
  rfl

theorem openSwitches_eq {opened : List OpenScope} {base : List FunctionScope}
    (h : Closes opened c.functions base) (locs : List Loc) :
    ∃ r opened' fs, c.openSwitches opened locs = (r, opened', { c with functions := fs }) ∧
      Closes opened' fs base := by
  induction locs generalizing c opened with
  | nil => exact ⟨_, _, _, rfl, h⟩
  | cons loc locs ih =>
    obtain ⟨config, engine, functions, events⟩ := c
    cases functions with
    | nil => exact ⟨_, _, _, rfl, h⟩
    | cons f fs => exact ih (c := ⟨config, engine, { f with switches := _ } :: fs, events⟩) h.switch

theorem openScopes_eq (function : Option String) (switches : List Loc) :
    ∃ r opened fs, c.openScopes function switches = (r, opened, { c with functions := fs }) ∧
      Closes opened fs c.functions := by
  cases function with
  | none => exact openSwitches_eq .nil switches
  | some name => exact openSwitches_eq (c := c.pushFunction name) (.function .nil) switches

theorem within_of_not_opened {function : Option String} {switches : List Loc} {d : Defect}
    (h : (c.openScopes function switches).1 = .error d)
    (body : Checker → Except Defect α × Checker) :
    c.within function switches body = (.error d, c) := by
  obtain ⟨r, opened, fs, hopen, hcloses⟩ := c.openScopes_eq function switches
  rw [hopen] at h
  cases h
  rw [within, hopen]
  dsimp only
  rw [hcloses.closeAll_eq rfl]
  rfl

theorem within_of_opened {function : Option String} {switches : List Loc} {opened : Checker}
    {scopes : List OpenScope} (h : c.openScopes function switches = (.ok (), scopes, opened))
    {body : Checker → Except Defect α × Checker}
    (hbody : (body opened).2.functions = opened.functions) :
    c.within function switches body =
      ((body opened).1, { (body opened).2 with functions := c.functions }) := by
  obtain ⟨r, scopes', fs, hopen, hcloses⟩ := c.openScopes_eq function switches
  rw [hopen] at h
  cases h
  rw [within, hopen]
  dsimp only
  rw [hcloses.closeAll_eq hbody]
  rfl

end Checker

namespace Step

mutual

def calls (c : Checker) : Step → List Step
  | inScopes function switches steps =>
    c.openingCalls function switches ++
      (match c.openScopes function switches with
        | (.ok (), _, opened) => callsAll opened steps
        | (.error _, _) => []) ++
      c.closingCalls function switches
  | s => [s]

def callsAll (c : Checker) : List Step → List Step
  | [] => []
  | s :: ss => s.calls c ++ callsAll (s.run c).2 ss

end

mutual

theorem isMove_or_isCheck_of_mem_calls (c : Checker) (s : Step) {call : Step}
    (h : call ∈ s.calls c) : call.isMove ∨ call.isCheck := by
  cases s with
  | inScopes function switches steps =>
    obtain hopening | hbody | hclosing : _ ∨ _ ∨ _ := by
      rwa [calls, List.mem_append, List.mem_append, or_assoc] at h
    · exact .inl (Checker.isMove_of_mem_openingCalls hopening)
    · revert hbody
      obtain ⟨_ | _, _, opened⟩ := c.openScopes function switches
      · nofun
      · exact isMove_or_isCheck_of_mem_callsAll opened steps
    · exact .inl (Checker.isMove_of_mem_closingCalls hclosing)
  | pushFunction | popFunction | pushSwitch | popSwitch =>
    rw [List.mem_singleton.mp h]
    exact .inl rfl
  | process | checkOne | checkFallthrough | checkLoopHint =>
    rw [List.mem_singleton.mp h]
    exact .inr rfl

theorem isMove_or_isCheck_of_mem_callsAll (c : Checker) (ss : List Step) {call : Step}
    (h : call ∈ callsAll c ss) : call.isMove ∨ call.isCheck := by
  cases ss with
  | nil => cases h
  | cons s ss =>
    obtain h | h := List.mem_append.mp h
    · exact isMove_or_isCheck_of_mem_calls c s h
    · exact isMove_or_isCheck_of_mem_callsAll (s.run c).2 ss h

end

mutual

theorem runAll_calls (c : Checker) (s : Step) : (runAll c (s.calls c)).2 = (s.run c).2 := by
  cases s with
  | inScopes function switches steps =>
    have hwithin : ((inScopes function switches steps).run c).2 =
        (c.within function switches fun c =>
          (.ok (runAll c steps).1, (runAll c steps).2)).2 :=
      Answer.ofResult_snd .answers _
    rw [hwithin, Checker.within_eq_runAll, calls, runAll_append, runAll_append,
      ← Checker.openScopes_eq_runAll]
    obtain ⟨_ | _, _, opened⟩ := c.openScopes function switches
    · rfl
    · exact congrArg (fun c' => (runAll c' _).2) (runAll_callsAll opened steps)
  | _ => rfl

theorem runAll_callsAll (c : Checker) (ss : List Step) :
    (runAll c (callsAll c ss)).2 = (runAll c ss).2 := by
  cases ss with
  | nil => rfl
  | cons s ss =>
    rw [callsAll, runAll_append, runAll_calls c s]
    exact runAll_callsAll (s.run c).2 ss

end

end Step

end AttrCheck
