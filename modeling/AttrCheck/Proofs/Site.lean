import AttrCheck.Proofs.SourceOrder
import AttrCheck.Resolve

/-! The sites of a check: each is a statement with attributes as written, seen when its turn has
come. What stays of the attributes, what is reported and what is logged follow from the site alone,
and the checker does just that. -/

namespace AttrCheck

structure Setting where
  strict : Bool
  inSwitch : Bool
  scopes : Scopes

namespace Setting

def enter (st : Setting) (scope : Scope) : Setting := { st with scopes := scope :: st.scopes }

def enterSwitch (st : Setting) : Setting := { st with inSwitch := true }

end Setting

structure Site where
  attrs : List RawAttr
  specifiers : Range
  target : Target
  setting : Setting

namespace Verdict

def kept? : Verdict → Option Attr
  | keep attr => some attr
  | reject _ | malformed => none

def rejection? : Verdict → Option Rejection
  | reject why => some why
  | keep _ | malformed => none

end Verdict

namespace Site

def bound (s : Site) : List RawAttr := s.attrs.map (RawAttr.bound s.setting.scopes)

def verdict (s : Site) (a : RawAttr) : Verdict :=
  a.verdict s.target s.setting.inSwitch s.setting.strict

def kept (s : Site) : List Attr := s.bound.filterMap fun a => (s.verdict a).kept?

def rejections (s : Site) : List Report :=
  s.bound.filterMap fun a => (s.verdict a).rejection?.map fun why =>
    why.report s.target a s.specifiers

def reports (s : Site) : List Report := s.rejections ++ conflicts s.kept

def events (s : Site) : List Event := s.bound.flatMap fun a => a.events s.target s.setting.strict

end Site

namespace RawAttr

theorem ident?_bound (scopes : Scopes) (a : RawAttr) (i : Nat) :
    (a.bound scopes).ident? i = a.ident? i := by
  simp only [ident?, bound, List.getElem?_map]
  rcases a.args[i]? with _ | _ | ⟨i⟩ | ⟨e⟩ <;> rfl

theorem NamesOption.bound {a : RawAttr} (h : a.NamesOption) (scopes : Scopes) :
    (a.bound scopes).NamesOption := by
  intro hk
  rw [ident?_bound]
  exact h hk

theorem readHint_ne_malformed {a : RawAttr} {strict : Bool}
    (h : ∃ loc name, a.ident? 0 = some ⟨loc, some name⟩) : a.readHint strict ≠ .malformed := by
  obtain ⟨loc, name, h⟩ := h
  simp only [readHint, h]
  split
  · nofun
  · split <;> nofun

theorem verdict_ne_malformed {a : RawAttr} (h : a.NamesOption) (t : Target)
    (inSwitch strict : Bool) : a.verdict t inSwitch strict ≠ .malformed := by
  unfold verdict
  split
  · nofun
  · unfold fallthroughVerdict
    split_ifs <;> nofun
  next hk =>
    unfold loopHintVerdict
    split_ifs
    · exact readHint_ne_malformed (h hk)
    · nofun
  · nofun

end RawAttr

namespace Engine

theorem reportAll_append (e : Engine) (rs rs' : List Report) :
    e.reportAll (rs ++ rs') = (e.reportAll rs).reportAll rs' := List.foldl_append

end Engine

namespace Checker

def hear (c : Checker) (es : List Event) (rs : List Report) : Checker := (c.log es).reportAll rs

theorem hear_nil (c : Checker) : c.hear [] [] = c := by
  simp [hear, log, reportAll, Engine.reportAll]

theorem hear_hear (c : Checker) (es es' : List Event) (rs rs' : List Report) :
    (c.hear es rs).hear es' rs' = c.hear (es ++ es') (rs ++ rs') := by
  simp [hear, log, reportAll, Engine.reportAll_append]

theorem settle_eq {c : Checker} {t : Target} {a : RawAttr} {specifiers : Range} {v : Verdict}
    (h : v ≠ .malformed) : c.settle t a specifiers v = (.ok v.kept?,
      c.reportAll (v.rejection?.map fun why => why.report t a specifiers).toList) := by
  cases v with
  | keep attr => rfl
  | reject why => rfl
  | malformed => exact absurd rfl h

theorem checkEach_eq_of_ne_malformed (t : Target) (specifiers : Range) {inSwitch strict : Bool}
    {as : List RawAttr} (h : ∀ a ∈ as, a.verdict t inSwitch strict ≠ .malformed) (c : Checker)
    (hi : c.inSwitch = inSwitch) (hs : c.config.strictLoopOptions = strict) :
    checkEach (fun c a => c.checkOne t a specifiers) as c =
      (.ok (as.filterMap fun a => (a.verdict t inSwitch strict).kept?),
        c.hear (as.flatMap fun a => a.events t strict)
          (as.filterMap fun a => (a.verdict t inSwitch strict).rejection?.map
            fun why => why.report t a specifiers)) := by
  induction as generalizing c with
  | nil => rw [checkEach, List.filterMap_nil, List.flatMap_nil, List.filterMap_nil, hear_nil]
  | cons a as ih =>
    have hone : c.checkOne t a specifiers = (.ok (a.verdict t inSwitch strict).kept?,
        c.hear (a.events t strict) ((a.verdict t inSwitch strict).rejection?.map
          fun why => why.report t a specifiers).toList) := by
      have ha := h a List.mem_cons_self
      subst hi hs
      exact settle_eq ha
    have hrest := ih (fun a' ha' => h a' (List.mem_cons_of_mem a ha')) (c.hear (a.events t strict)
      ((a.verdict t inSwitch strict).rejection?.map
        fun why => why.report t a specifiers).toList) hi hs
    simp only [checkEach, hone, hrest, hear_hear, List.filterMap_eq_flatMap_toList,
      List.flatMap_cons]

theorem checkEach_eq (t : Target) (specifiers : Range) {inSwitch strict : Bool} {as : List RawAttr}
    (h : ∀ a ∈ as, a.NamesOption) (c : Checker) (hi : c.inSwitch = inSwitch)
    (hs : c.config.strictLoopOptions = strict) :
    checkEach (fun c a => c.checkOne t a specifiers) as c =
      (.ok (as.filterMap fun a => (a.verdict t inSwitch strict).kept?),
        c.hear (as.flatMap fun a => a.events t strict)
          (as.filterMap fun a => (a.verdict t inSwitch strict).rejection?.map
            fun why => why.report t a specifiers)) :=
  checkEach_eq_of_ne_malformed t specifiers
    (fun a ha => RawAttr.verdict_ne_malformed (h a ha) t inSwitch strict) c hi hs

/-- The check of a site keeps, reports and logs what the site says. -/
theorem process_eq (s : Site) (h : ∀ a ∈ s.attrs, a.NamesOption) (c : Checker)
    (hi : c.inSwitch = s.setting.inSwitch) (hs : c.config.strictLoopOptions = s.setting.strict) :
    c.process s.target s.bound s.specifiers = (.ok s.kept, c.hear s.events s.reports) := by
  have hb : ∀ a ∈ s.bound, a.NamesOption := by
    intro a ha
    obtain ⟨a', ha', rfl⟩ := List.mem_map.mp ha
    exact (h a' ha').bound s.setting.scopes
  have heach := checkEach_eq s.target s.specifiers hb c hi hs
  rw [process, heach]
  show (Except.ok s.kept, (c.hear s.events s.rejections).reportAll (conflicts s.kept)) = _
  rw [Site.reports, hear, hear, reportAll, reportAll, reportAll, Engine.reportAll_append]

end Checker

end AttrCheck
