import AttrCheck.CommandLine.Invocation
import Mathlib.Data.List.Basic

/-! Plain command lines read as they stand: the command, the source, a format behind `-f` and the
settings of the check. What is named there has to be told from an option by what it begins with. -/

namespace AttrCheck.CommandLine

variable {σ φ : Type}

def IsName (word : String) : Prop := word.toList.head? ≠ some '-' ∨ word.toList.tail = []

instance (word : String) : Decidable (IsName word) := inferInstanceAs (Decidable (_ ∨ _))

namespace IsName

variable {word : String} (h : IsName word)
include h

theorem mark? (opts : List (Opt σ)) : mark? opts word = some .operand := by
  unfold CommandLine.mark?
  split
  · next c cs hword =>
    rw [IsName, hword] at h
    exact h.elim (absurd rfl) nofun
  · rfl

theorem ne_separator : word ≠ "--" := by
  rintro rfl
  exact absurd h (by decide)

end IsName

theorem isSome_mark? {opts : List (Opt σ)} {word : String} {c : Char} {cs : List Char}
    (hword : word.toList = '-' :: c :: cs) (hname : opts.find? (Opt.hasName word) = none)
    (hvalue : (splitValue word).2 = none)
    (hbegins : (if c = '-' then longMatches opts word else shortMatches opts word) = []) :
    (mark? opts word).isSome := by
  unfold mark?
  rw [hword]
  simp only [hname, hvalue, hbegins]
  split <;> rfl

theorem exists_markAll {opts : List (Opt σ)} {words : List String}
    (h : ∀ word ∈ words, (mark? opts word).isSome) :
    ∃ marked, markAll opts words = .ok marked ∧ marked.map Prod.fst = words := by
  induction words with
  | nil => exact ⟨[], rfl, rfl⟩
  | cons word words ih =>
    by_cases hword : word = "--"
    · refine ⟨_, by rw [markAll, if_pos hword], ?_⟩
      rw [List.map_cons, List.map_map]
      exact congrArg _ (List.map_id' words)
    · obtain ⟨m, hm⟩ := Option.isSome_iff_exists.mp (h word (.head _))
      obtain ⟨marked, hmarked, hwords⟩ := ih fun word hmem => h word (.tail _ hmem)
      refine ⟨(word, m) :: marked, ?_, congrArg _ hwords⟩
      rw [markAll, if_neg hword, hm]
      simp only [hmarked]
      rfl

namespace Scan

/-- Words that lead a scan from one state to another, whatever stands behind them. -/
def Leads (opts : List (Opt σ)) (s : Scan σ) (words : List String) (s' : Scan σ) : Prop :=
  ∃ marked, (∀ more rest, markAll opts more = .ok rest →
      markAll opts (words ++ more) = .ok (marked ++ rest)) ∧
    marked.foldlM (step opts) s = .ok s'

namespace Leads

variable {opts : List (Opt σ)} {s s' t : Scan σ} {words more : List String} {word : String}

theorem nil : Leads opts s [] s := ⟨[], fun _ _ h => h, rfl⟩

theorem single {m : Mark σ} (hne : word ≠ "--") (hmark : mark? opts word = some m)
    (hstep : s.step opts (word, m) = .ok t) : Leads opts s [word] t := by
  refine ⟨[(word, m)], fun more rest h => ?_, ?_⟩
  · rw [List.singleton_append, markAll, if_neg hne, hmark]
    simp only [h]
    rfl
  · rw [List.foldlM_cons, hstep]
    rfl

theorem append (h : Leads opts s words s') (h' : Leads opts s' more t) :
    Leads opts s (words ++ more) t := by
  obtain ⟨ms, hms, hfold⟩ := h
  obtain ⟨ns, hns, hfold'⟩ := h'
  refine ⟨ms ++ ns, fun behind rest hrest => ?_, ?_⟩
  · rw [List.append_assoc, List.append_assoc]
    exact hms _ _ (hns _ _ hrest)
  · rw [List.foldlM_append, hfold]
    exact hfold'

theorem name (hword : IsName word) (hstep : s.takeOperand word = .ok t) :
    Leads opts s [word] t :=
  .single hword.ne_separator (hword.mark? opts) hstep

theorem values {p : Pending σ} (hp : s.pending = some p) (harity : p.opt.arity = .some)
    (hbehind : s.isBehindOperand = false) (hwords : ∀ word ∈ words, IsName word) :
    Leads opts s words { s with pending := some { p with values := p.values ++ words } } := by
  -- On the names, whatever values the option has by then.
  induction words generalizing s p with
  | nil =>
    rw [List.append_nil, ← hp]
    exact nil
  | cons word words ih =>
    have hfirst : s.takeOperand word =
        .ok { s with pending := some { p with values := p.values ++ [word] } } := by
      rw [takeOperand, hp]
      simp only [harity, reduceCtorEq, if_false]
      rw [← hbehind]
    have hrest := ih (s := { s with pending := some { p with values := p.values ++ [word] } }) rfl
      harity hbehind fun word hmem => hwords word (.tail _ hmem)
    rw [List.append_assoc] at hrest
    exact (name (hwords word (.head _)) hfirst).append hrest

theorem read {settings : σ} {source : String} (h : Leads opts (initial settings true) words s)
    (hflush : s.flush = .ok t) (hextra : t.hasExtra = false) (hsource : t.operand = some source) :
    Scan.read opts settings true words = .ok (t.settings, some source) := by
  obtain ⟨marked, hmarked, hfold⟩ := h
  have hall := hmarked [] [] rfl
  rw [List.append_nil, List.append_nil] at hall
  unfold Scan.read
  rw [hall]
  change (marked.foldlM (step opts) (initial settings true) >>= _) = _
  rw [hfold]
  change (s.flush >>= _) = _
  rw [hflush]
  simp [bind, Except.bind, hextra, hsource, pure, Except.pure]

end Leads

end Scan

def CheckOptions.words (o : CheckOptions) : List String :=
  (if o.warningsAsErrors then ["--Werror"] else []) ++
    ((if o.strictLoopOptions then ["--strict-loop-hints"] else []) ++
      if o.suppressed = [] then [] else "--suppress" :: o.suppressed)

def CheckFormat.word : CheckFormat → String
  | gcc => "gcc"
  | json => "json"
  | summary => "summary"

def DumpFormat.word : DumpFormat → String
  | sexp => "sexp"
  | record => "repr"

def plainLine (command source format : String) (o : CheckOptions) : List String :=
  command :: ([source] ++ (["-f"] ++ ([format] ++ o.words)))

section Words

variable {source : String} {o : CheckOptions}

def Scan.named (source : String) (s : Settings φ) : Scan (Settings φ) :=
  ⟨s, some source, true, false, false, none⟩

theorem Scan.exists_leads_suppress (formats : Formats φ) (source : String) (s : Settings φ)
    {ids : List String} (hne : ids ≠ []) (hids : ∀ id ∈ ids, IsName id) :
    ∃ t, Leads (fileOpts formats) (named source s) ("--suppress" :: ids) t ∧
      t.flush = .ok (named source { s with opts := { s.opts with suppressed := ids } }) := by
  have hwaits : Leads (fileOpts formats) (named source s) ["--suppress"]
      { named source s with pending := some ⟨[], _, []⟩ } := .single (by decide) rfl rfl
  refine ⟨_, hwaits.append (.values rfl rfl rfl hids), ?_⟩
  obtain ⟨id, ids, rfl⟩ := List.exists_cons_of_ne_nil hne
  rfl

theorem CheckOptions.exists_leads (hids : ∀ id ∈ o.suppressed, IsName id) (formats : Formats φ)
    (format : φ) : ∃ t, Scan.Leads (fileOpts formats) (.named source { format }) o.words t ∧
      t.flush = .ok (.named source { format, opts := o }) := by
  obtain ⟨promotes, ids, strict⟩ := o
  let behind (p q : Bool) : Settings φ := { format, opts := ⟨p, [], q⟩ }
  have hpromotes : Scan.Leads (fileOpts formats) (.named source (behind false false))
      (if promotes then ["--Werror"] else []) (.named source (behind promotes false)) := by
    cases promotes with
    | false => exact .nil
    | true => exact .single (by decide) rfl rfl
  have hstrict : Scan.Leads (fileOpts formats) (.named source (behind promotes false))
      (if strict then ["--strict-loop-hints"] else [])
      (.named source (behind promotes strict)) := by
    cases strict with
    | false => exact .nil
    | true => exact .single (by decide) rfl rfl
  by_cases hnone : ids = []
  · subst hnone
    exact ⟨_, hpromotes.append (hstrict.append .nil), rfl⟩
  · obtain ⟨t, hsuppress, hflush⟩ :=
      Scan.exists_leads_suppress formats source (behind promotes strict) hnone hids
    refine ⟨t, hpromotes.append (hstrict.append ?_), hflush⟩
    rw [if_neg hnone]
    exact hsuppress

theorem read_words {formats : Formats φ} {start format : φ} {name : String}
    (hsource : IsName source) (hname : IsName name)
    (hformat : formats.named.lookup name = some format) (hids : ∀ id ∈ o.suppressed, IsName id) :
    Scan.read (fileOpts formats) { format := start } true
      ([source] ++ (["-f"] ++ ([name] ++ o.words))) = .ok ({ format, opts := o }, some source) := by
  obtain ⟨t, hwords, hflush⟩ := CheckOptions.exists_leads hids formats format
  have hfirst : Scan.Leads (fileOpts formats) (.initial { format := start } true) [source]
      ⟨{ format := start }, some source, true, true, false, none⟩ := .name hsource rfl
  have hwaits : Scan.Leads (fileOpts formats)
      ⟨{ format := start }, some source, true, true, false, none⟩ ["-f"]
      { Scan.named source { format := start } with pending := some ⟨[], formatOpt formats, []⟩ } :=
    .single (by decide) rfl rfl
  have hact : (formatOpt formats).act [name] { format := start } = .ok { format } := by
    simp only [formatOpt, hformat]
  have hchosen : Scan.Leads (fileOpts formats)
      { Scan.named source { format := start } with pending := some ⟨[], formatOpt formats, []⟩ }
      [name] (.named source { format }) := by
    refine .name hname ?_
    change ((formatOpt formats).act [name] { format := start } >>= fun settings =>
      Except.ok (Scan.named source settings)) = _
    rw [hact]
    rfl
  exact (hfirst.append (hwaits.append (hchosen.append hwords))).read hflush rfl rfl

theorem CheckOptions.mem_words {word : String} (h : word ∈ o.words) :
    word ∈ ["--Werror", "--strict-loop-hints", "--suppress"] ∨ word ∈ o.suppressed := by
  simp only [words, List.mem_append] at h
  obtain h | h | h := h
  all_goals
    split_ifs at h
    all_goals grind

theorem isSome_mark?_frontOpts {name : String} (hsource : IsName source) (hname : IsName name)
    (hids : ∀ id ∈ o.suppressed, IsName id) {word : String}
    (h : word ∈ [source] ++ (["-f"] ++ ([name] ++ o.words))) : (mark? frontOpts word).isSome := by
  have hisName {word : String} (h : IsName word) : (mark? frontOpts word).isSome := by
    rw [h.mark?]
    rfl
  have hoption : ∀ word ∈ ["-f", "--Werror", "--strict-loop-hints", "--suppress"],
      (mark? frontOpts word).isSome := by
    simp only [List.forall_mem_cons]
    exact ⟨isSome_mark? rfl rfl rfl rfl, isSome_mark? rfl rfl rfl rfl, isSome_mark? rfl rfl rfl rfl,
      isSome_mark? rfl rfl rfl rfl, nofun⟩
  simp only [List.mem_append, List.mem_singleton] at h
  obtain rfl | rfl | rfl | h := h
  · exact hisName hsource
  · exact hoption _ (.head _)
  · exact hisName hname
  · obtain h | h := CheckOptions.mem_words h
    · exact hoption _ (.tail _ h)
    · exact hisName (hids _ h)

theorem Invocation.read_of_command {command : String} {words : List String} {c : Command}
    (hcommand : IsName command) (hmarks : ∀ word ∈ words, (mark? frontOpts word).isSome)
    (h : Command.read command words = .ok c) : Invocation.read (command :: words) = .ok ⟨0, c⟩ := by
  obtain ⟨marked, hmarked, rfl⟩ := exists_markAll hmarks
  unfold Invocation.read
  rw [markAll, if_neg hcommand.ne_separator, hcommand.mark?]
  simp only [hmarked]
  change (Command.read command (marked.map Prod.fst) >>= fun c =>
    Except.ok (Invocation.mk 0 c)) = _
  rw [h]
  rfl

section

variable (hsource : IsName source) (hids : ∀ id ∈ o.suppressed, IsName id)
include hsource hids

theorem read_plainLine_check (format : CheckFormat) :
    Invocation.read (plainLine "check" source format.word o) =
      .ok ⟨0, .check source format .console o⟩ := by
  have hname : IsName format.word := by cases format <;> decide
  have hformat : checkFormats.named.lookup format.word = some format := by cases format <;> rfl
  refine Invocation.read_of_command (by decide)
    (fun _ => isSome_mark?_frontOpts hsource hname hids) ?_
  unfold Command.read
  rw [read_words hsource hname hformat hids]
  rfl

theorem read_plainLine_dump (format : DumpFormat) :
    Invocation.read (plainLine "dump" source format.word o) =
      .ok ⟨0, .dump source format .console o⟩ := by
  have hname : IsName format.word := by cases format <;> decide
  have hformat : dumpFormats.named.lookup format.word = some format := by cases format <;> rfl
  refine Invocation.read_of_command (by decide)
    (fun _ => isSome_mark?_frontOpts hsource hname hids) ?_
  unfold Command.read
  rw [read_words hsource hname hformat hids]
  rfl

end

end Words

end AttrCheck.CommandLine
