import AttrCheck.Proofs.Attachment
import AttrCheck.Proofs.Building
import AttrCheck.Proofs.FunctionWise
import AttrCheck.Proofs.HintAgreement
import AttrCheck.Proofs.IntegerReading

/-! Every check comes to an end of one of three kinds: the text cannot be read, a literal in it is
too long, or there is a result that can be shown. No operator is looked up in vain, no scope is left
that was not entered, and no message lacks an argument. -/

namespace AttrCheck

section Except

variable {ε α β : Type}

theorem exists_bind_ok {x : Except ε α} {f : α → Except ε β} (hx : ∃ a, x = .ok a)
    (hf : ∀ a, ∃ b, f a = .ok b) : ∃ b, x >>= f = .ok b := by
  obtain ⟨a, rfl⟩ := hx
  exact hf a

theorem exists_mapM_ok {f : α → Except ε β} {as : List α} (h : ∀ a ∈ as, ∃ b, f a = .ok b) :
    ∃ bs, as.mapM f = .ok bs := by
  induction as with
  | nil => exact ⟨[], rfl⟩
  | cons a as ih =>
    have htail := ih fun a' ha' => h a' (.tail _ ha')
    rw [List.mapM_cons]
    exact exists_bind_ok (h a (.head _)) fun b => exists_bind_ok htail fun bs => ⟨b :: bs, rfl⟩

end Except

def Note.Fills (n : Note) : Prop := ∃ id s, n.id = some id ∧ id.message n.args = .ok s

structure Fills (id : DiagId) (args : List DiagArg) (notes : List Note) : Prop where
  message : ∃ s, id.message args = .ok s
  notes : ∀ n ∈ notes, n.Fills

def Report.Fills (r : Report) : Prop := AttrCheck.Fills r.id r.args r.notes

def Diagnostic.Fills (d : Diagnostic) : Prop := AttrCheck.Fills d.id d.args d.notes

namespace Note.Fills

variable {n : Note} (h : n.Fills)
include h

theorem exists_text : ∃ s, n.text = .ok s := by
  obtain ⟨id, message, hid, hmessage⟩ := h
  have hn : ∃ s, n.message = .ok s := ⟨message, by rw [Note.message, entry, hid]; exact hmessage⟩
  exact exists_bind_ok hn fun s => ⟨_, rfl⟩

theorem exists_json : ∃ j, n.json = .ok j := by
  obtain ⟨id, message, hid, hmessage⟩ := h
  rw [json, entry, hid]
  exact exists_bind_ok (x := id.message n.args) ⟨message, hmessage⟩ fun s => ⟨_, rfl⟩

end Note.Fills

namespace Diagnostic.Fills

variable {d : Diagnostic} (h : d.Fills)
include h

theorem exists_text : ∃ s, d.text = .ok s :=
  exists_bind_ok h.message fun _ => exists_bind_ok
    (exists_mapM_ok fun n hn => (h.notes n hn).exists_text) fun _ => ⟨_, rfl⟩

theorem exists_json : ∃ j, d.json = .ok j :=
  exists_bind_ok h.message fun _ => exists_bind_ok
    (exists_mapM_ok fun n hn => (h.notes n hn).exists_json) fun _ => ⟨_, rfl⟩

end Diagnostic.Fills

theorem DiagFormat.exists_render {ds : List Diagnostic} (h : ∀ d ∈ ds, d.Fills)
    (format : DiagFormat) : ∃ s, format.render ds = .ok s := by
  cases format with
  | gcc =>
    have htexts := exists_mapM_ok fun d hd => (h d hd).exists_text
    exact exists_bind_ok htexts fun texts => ⟨_, rfl⟩
  | json =>
    have hjsons := exists_mapM_ok fun d hd => (h d hd).exists_json
    exact exists_bind_ok hjsons fun jsons => ⟨_, rfl⟩

theorem semicolonNote_fills (loc : Loc) : (semicolonNote loc).Fills :=
  ⟨.insertSemicolon, _, rfl, rfl⟩

theorem Rejection.report_fills (why : Rejection) (t : Target) (a : RawAttr) (range : Range) :
    (why.report t a range).Fills := by
  cases why with
  | unknownKind =>
    simp only [report, RawAttr.unknownReport]
    split_ifs
    · exact ⟨⟨_, rfl⟩, nofun⟩
    · exact ⟨⟨_, rfl⟩, nofun⟩
  | notEmpty =>
    refine ⟨⟨_, rfl⟩, fun n hn => ?_⟩
    simp only [report, RawAttr.notEmptyReport] at hn
    split_ifs at hn
    · obtain rfl := List.mem_singleton.mp hn
      exact semicolonNote_fills range.stop
    · exact absurd hn List.not_mem_nil
  | _ => exact ⟨⟨_, rfl⟩, nofun⟩

theorem conflictReport_fills (loc : Loc) (isDuplicate : Bool) (option₁ option₂ : HintOption)
    (value₁ value₂ : DiagArg) :
    (conflictReport loc isDuplicate option₁ value₁ option₂ value₂).Fills := by
  cases isDuplicate <;> exact ⟨⟨_, rfl⟩, nofun⟩

theorem fills_of_mem_scanHints {s : HintStates} {hs : List LoopHint} {r : Report}
    (h : r ∈ (scanHints s hs).1) : r.Fills := by
  obtain ⟨hint, s', h⟩ := exists_of_mem_scanHints h
  obtain ⟨_, _, _, _, _, rfl, _⟩ := exists_of_mem_hintReports h
  exact conflictReport_fills _ _ _ _ _ _

theorem Site.fills_of_mem_reports {s : Site} {r : Report} (h : r ∈ s.reports) : r.Fills := by
  obtain h | h := List.mem_append.mp h
  · obtain ⟨a, _, hr⟩ := List.mem_filterMap.mp h
    obtain ⟨why, _, rfl⟩ := Option.map_eq_some_iff.mp hr
    exact why.report_fills s.target a s.specifiers
  · exact fills_of_mem_scanHints h

theorem Report.Fills.diagnose {e : Engine} {r : Report} (h : r.Fills) {d : Diagnostic}
    (hd : e.diagnose? r = some d) : d.Fills := by
  obtain ⟨severity, _, rfl⟩ := Option.map_eq_some_iff.mp hd
  exact h

theorem SourceUnit.fills_of_mem_diagnostics {u : SourceUnit} {config : Config} {d : Diagnostic}
    (h : d ∈ (u.checked config).diagnostics) : d.Fills := by
  rw [diagnostics_checked] at h
  obtain ⟨s, _, hd⟩ := List.mem_flatMap.mp h
  obtain ⟨r, hr, hd⟩ := List.mem_filterMap.mp hd
  exact (Site.fills_of_mem_reports hr).diagnose hd

/-- A check ends in one of three ways, whatever the text and the settings: the grammar does not
read the text, some decimal literal in it is longer than the host takes, or there is a result, and
what the result reports can be shown in every format. -/
theorem checkWithin_total (limit : DigitLimit) (config : Config) (file text : String) :
    (∃ e, parse file text = .error e ∧
      checkWithin limit config file text = .error (.unreadable e)) ∨
    (∃ u, parse file text = .ok u ∧ (∃ s ∈ u.literals, limit.converts s = false) ∧
      checkWithin limit config file text = .error (.unbuilt .tooManyDigits)) ∨
    ∃ u result, parse file text = .ok u ∧ (∀ s ∈ u.literals, limit.converts s) ∧
      checkWithin limit config file text = .ok result ∧ (∀ d ∈ result.diagnostics, d.Fills) ∧
      ∀ format, ∃ s, result.engine.render format = .ok s := by
  cases hparse : parse file text with
  | error e => exact .inl ⟨e, rfl, checkWithin_of_error hparse limit config⟩
  | ok u =>
    refine .inr ?_
    by_cases hall : ∀ s ∈ u.literals, limit.converts s
    · have hfills : ∀ d ∈ (u.checked config).diagnostics, d.Fills :=
        fun d => SourceUnit.fills_of_mem_diagnostics
      exact .inr ⟨u, _, rfl, hall, checkWithin_of_converts hparse hall config, hfills,
        DiagFormat.exists_render hfills⟩
    · push Not at hall
      have hlong : ∃ s ∈ u.literals, limit.converts s = false := by simpa using hall
      exact .inl ⟨u, rfl, hlong, checkWithin_of_not_converts hparse hlong config⟩

/-- With the limit that the host has unless it is told otherwise, a text that the grammar reads
comes to no result. -/
theorem checkWithin_long :
    let text := initializerText longSpelling.text
    (∃ u, parse "a.cc" text = .ok u) ∧
      ¬ ((∃ e, checkWithin .standard {} "a.cc" text = .error (.unreadable e)) ∨
        ∃ result, checkWithin .standard {} "a.cc" text = .ok result) := by
  intro text
  obtain ⟨u, hparse, _⟩ := (longSpelling.parse_text "a.cc").2
  have hrefused : parseSource .standard "a.cc" text = .error (.unbuilt .tooManyDigits) :=
    ((longSpelling.isRead .standard).refused not_converts_longSpelling "a.cc").2
  have hcheck : checkWithin .standard {} "a.cc" text = .error (.unbuilt .tooManyDigits) := by
    unfold checkWithin
    rw [hrefused]
    rfl
  refine ⟨⟨u, hparse⟩, ?_⟩
  rw [hcheck]
  rintro (⟨_, he⟩ | ⟨_, hok⟩)
  · cases he
  · cases hok

end AttrCheck
