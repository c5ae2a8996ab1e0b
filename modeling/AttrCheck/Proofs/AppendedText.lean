import AttrCheck.Proofs.FileNames
import AttrCheck.Proofs.ItemLexemes
import AttrCheck.Proofs.Nesting

/-! Text that is written behind an accepted text. It leaves all functions and variables in front as
they were read. But variables at file scope are declared before any function is checked, so what is
found in the functions in front depends on what is declared behind them, though only through the
names that they take from the file. -/

namespace AttrCheck

/-- Text that is written behind a text in which an item ends as `stop` says. Where none ends, what
would be read of longer texts is not known. -/
structure Extension where
  stop : Option (List Char)
  more : List Char
  more_eq_nil : stop = none → more = []

def Extension.pairing (e : Extension) (find : List Char → Option (List Char)) : Pairing where
  inStep c d := find c.rest = e.stop ∧ d = c.followedBy e.more
  apart _ _ := False
  settled c _ := Uncommented c.rest
  loc_eq h := h.2 ▸ rfl

namespace Parser

variable {α : Type} {e : Extension} {f g : List Char → Option (List Char)} {same bare : Prop}
  {k n m : Nat}

theorem Keeps.across {p : Parser α} (hp : Keeps f g bare p) (ha : Advances p) :
    Across (e.pairing f) (e.pairing g) same bare k p p := by
  rintro c d (⟨hs, hfound, rfl⟩ | hapart) hb _
  · have hextend : p (c.followedBy e.more) = (p c).map fun x => (x.1, x.2.followedBy e.more) := by
      by_cases hstop : e.stop = none
      · rw [e.more_eq_nil hstop, Cursor.followedBy_nil]
        cases p c with
        | none => rfl
        | some x => rw [Option.map_some, Cursor.followedBy_nil]
      · exact hp.extend c e.more hb (hfound ▸ hstop)
    rw [hextend]
    cases hx : p c with
    | none => exact .none
    | some x =>
      have hfound' := (hp.found c x.1 x.2 hb hx).trans hfound
      exact .some ⟨.inl ⟨hs, ⟨hfound', rfl⟩, rfl⟩, length_le_of_reaches (ha c x.1 x.2 hx)⟩
  · exact hapart.elim

theorem lawful_extension (e : Extension) (j : Nat) : (e.pairing (itemEnd .code j)).Lawful where
  layout := by
    rintro same c d (⟨hs, hfound, rfl⟩ | hapart)
    · have hcode : LayoutMode.code.Scans j e.stop c.rest := hfound
      obtain ⟨hfound', hbare, hextend⟩ := settles hcode c.loc
      refine ⟨.inl ⟨hs, hfound', ?_⟩, hbare⟩
      by_cases hstop : e.stop = none
      · rw [e.more_eq_nil hstop, Cursor.followedBy_nil, Cursor.followedBy_nil]
      · exact hextend hstop e.more
    · exact hapart.elim
  symbol s hs _ _ := by
    have hall : ∀ s ∈ Pairing.symbols, ∀ c ∈ s.toList, c ∉ scanMarks := by decide
    exact (steady_symbol (hall s hs)).across (advances_symbol s)
  mark s hs bad hbad _ _ := (steady_mark hs hbad).across (advances_symbolNotBefore s bad)
  word s hs _ _ := by
    have hall : ∀ s ∈ Pairing.words, ∀ c ∈ s.toList, c ∉ scanMarks := by decide
    exact (steady_keyword (hall s hs)).across (advances_keyword s)
  wordAndBlank s hs _ _ := by
    have hall : ∀ s ∈ ["const", "unsigned", "signed"], ∀ c ∈ s.toList, c ∉ scanMarks := by decide
    exact (steady_wordAndBlank (hall s hs)).across (advances_wordAndBlank s)
  blanks f hf _ _ :=
    (steady_run fun c hc => not_mem_scanMarks_of_isBlank (hf c hc)).across (advances_run f)
  name _ _ := steady_name.across consumes_name.advances
  number _ _ := steady_number.across consumes_number.advances
  stringLiteral _ _ := steady_stringLiteral.across advances_stringLiteral

theorem nested_extension (e : Extension) :
    Pairing.Nested fun j => e.pairing (itemEnd .code (j + 1)) where
  fluent j :=
    { lawful_extension e (j + 1) with
      stmtWord := fun s hs _ _ => by
        have hall : ∀ s ∈ Pairing.stmtWords, ∀ c ∈ s.toList, c ∉ scanMarks := by decide
        exact (steady_keyword (hall s hs)).across (advances_keyword s)
      semicolon := fun _ _ => steady_semicolon.across (advances_symbol _)
      directive := fun _ _ => steady_loopDirective.across consumes_loopDirective.advances
      lineEnd := fun _ _ => steady_lineEnd.across advances_lineEnd }
  opening _ _ _ := keeps_opening.across (advances_symbol _)
  closing _ _ _ := keeps_closing.across (advances_symbol _)

theorem across_item (e : Extension) (hn : k ≤ n) (hm : k ≤ m) :
    Across (e.pairing (itemEnd .code 0)) (e.pairing some) same False k (topLevel n)
      (topLevel m) := by
  refine across_topLevel (lawful_extension e 0) hn hm (fun s => ?_) fun s =>
    keeps_end.1.across (advances_symbol ";")
  have hstmt (s : Prop) : Agree (e.pairing (itemEnd .code 1)) s False k (stmt n) (stmt m) :=
    agree_stmt (nested_extension e) 0 hn hm
  have hbody : Across (e.pairing (itemEnd .code 0)) (e.pairing some) s False (k + 1)
      (compoundStmt n (stmt n)) (compoundStmt m (stmt m)) :=
    across_compoundStmt (lawful_extension e 1)
      (fun _ => keeps_opening.across (advances_symbol _))
      (fun _ => keeps_end.2.across (advances_symbol _)) hstmt (consumes_stmt n) hn hm
  exact fun c d hl hb hc => hbody c d hl hb (Nat.lt_succ_of_lt hc)

/-- What is read as an item ends where the scan says, and whatever is written behind the text, it is
read all the same. -/
theorem topLevel_followedBy {c c' : Cursor} {item : TopLevel}
    (h : topLevel n c = some (item, c')) (hn : c.rest.length < n) (hm : c.rest.length < m)
    (w : List Char) : itemEnd .code 0 c.rest = some c'.rest ∧
      topLevel m (c.followedBy w) = some (item, c'.followedBy w) := by
  have hread (e : Extension) (hstop : itemEnd .code 0 c.rest = e.stop) :
      some c'.rest = e.stop ∧
        topLevel m (c.followedBy e.more) = some (item, c'.followedBy e.more) := by
    have hlinked : (e.pairing (itemEnd .code 0)).Linked True c (c.followedBy e.more) :=
      .inl ⟨trivial, hstop, rfl⟩
    have hrel := across_item e hn hm c (c.followedBy e.more) hlinked nofun (Nat.lt_succ_self _)
    obtain ⟨⟨item', d'⟩, hread, hj, _⟩ := exists_of_rel hrel h
    obtain ⟨_, hin, hitem⟩ | hapart := hj
    · obtain ⟨hfound, hd⟩ : some c'.rest = e.stop ∧ d' = c'.followedBy e.more := hin
      obtain rfl : item = item' := hitem
      exact ⟨hfound, hd ▸ hread⟩
    · exact hapart.elim
  have hend := (hread ⟨itemEnd .code 0 c.rest, [], fun _ => rfl⟩ rfl).1
  exact ⟨hend.symm, (hread ⟨itemEnd .code 0 c.rest, w, fun hnone => nomatch hend.trans hnone⟩
    rfl).2⟩

theorem skipLayout_followedBy {c c' : Cursor} {item : TopLevel}
    (h : topLevel n (skipLayout .code c.loc c.rest) = some (item, c')) (hn : c.rest.length < n)
    (w : List Char) : skipLayout .code c.loc (c.rest ++ w) =
      (skipLayout .code c.loc c.rest).followedBy w := by
  have hlen := length_le_of_reaches (advances_layout c () _ rfl)
  have hcode : LayoutMode.code.Scans 0 (itemEnd .code 0 c.rest) c.rest := rfl
  obtain ⟨hfound, _, hextend⟩ := settles hcode c.loc
  obtain ⟨hend, _⟩ := topLevel_followedBy h (Nat.lt_of_le_of_lt hlen hn)
    (Nat.lt_of_le_of_lt hlen hn) w
  exact hextend (fun hnone => nomatch hend.symm.trans (hfound.trans hnone)) w

theorem exists_of_many_cons {α : Type} {p : Parser α} {j : Nat} {c c' : Cursor} {a : α}
    {as : List α} (h : many (p <* layout) j c = some (a :: as, c')) :
    ∃ c₁, p c = some (a, c₁) := by
  cases j with
  | zero => exact absurd (pure_eq_some_iff.mp h).1 nofun
  | succ j =>
    obtain ⟨_, _, _, hround, _, hcons⟩ | ⟨_, hnil, _⟩ := many_succ_eq_some h
    · obtain ⟨rfl, rfl⟩ := List.cons.inj hcons
      obtain ⟨c₁, hp, _⟩ := seqLayout_eq_some_iff.mp hround
      exact ⟨c₁, hp⟩
    · cases hnil

theorem items_followedBy {j j' : Nat} {c e e' : Cursor} {its its' : List TopLevel}
    (h : many (topLevel n <* layout) j c = some (its, e)) (hn : c.rest.length < n)
    (hm : c.rest.length < m) (w : List Char)
    (h' : many (topLevel m <* layout) j' (c.followedBy w) = some (its', e'))
    (hj : c.rest.length < j') : its <+: its' := by
  induction j generalizing j' c e' its its' with
  | zero =>
    obtain ⟨rfl, _⟩ := pure_eq_some_iff.mp h
    exact List.nil_prefix
  | succ j ih =>
    obtain ⟨j', rfl⟩ := Nat.exists_eq_add_of_le' (Nat.le_trans (Nat.le_add_left 1 _) hj)
    obtain ⟨item, c₁, its, hround, hmore, rfl⟩ | ⟨_, rfl, _⟩ := many_succ_eq_some h
    · obtain ⟨c₂, hitem, rfl⟩ := seqLayout_eq_some_iff.mp hround
      have hlt := length_lt_of_passes (consumes_topLevel n c item c₂ hitem)
      have hlen := length_le_of_reaches (advances_layout c₂ () _ rfl)
      obtain ⟨_, hitem'⟩ := topLevel_followedBy hitem hn hm w
      have hround' := seqLayout_eq_some_iff.mpr ⟨_, hitem', rfl⟩
      obtain ⟨its', e₁, hmore'⟩ := exists_many (topLevel m <* layout) j'
        (skipLayout .code c₂.loc (c₂.rest ++ w))
      obtain ⟨rfl, _⟩ := Prod.mk.inj
        (Option.some.inj ((many_of_some hround' hmore').symm.trans h'))
      refine List.cons_prefix_cons.mpr ⟨rfl, ?_⟩
      cases its with
      | nil => exact List.nil_prefix
      | cons next its =>
        obtain ⟨c₃, hnext⟩ := exists_of_many_cons hmore
        rw [skipLayout_followedBy (c := c₂) hnext (Nat.lt_trans hlt hn) w] at hmore'
        have hlt' : (skipLayout .code c₂.loc c₂.rest).rest.length < j' := by omega
        exact ih hmore (by omega) (by omega) hmore' hlt'
    · exact List.nil_prefix

end Parser

/-- All that is read of a text is read, in front, of the text with more behind it. -/
theorem prefix_of_parse {file text more : String} {u u' : SourceUnit}
    (h : parse file text = .ok u) (h' : parse file (text ++ more) = .ok u') :
    u.functions <+: u'.functions ∧ u.globals <+: u'.globals := by
  obtain ⟨its, c, hitems, _, rfl⟩ := exists_items_of_parse h
  obtain ⟨its', c', hitems', _, rfl⟩ := exists_items_of_parse h'
  suffices hfront : its <+: its' from ⟨hfront.filterMap _, hfront.filterMap _⟩
  have htext : Cursor.ofText file (text ++ more) =
      (Cursor.ofText file text).followedBy more.toList :=
    congrArg (Cursor.mk _) String.toList_append
  have hlen : text.toList.length ≤ (text ++ more).toList.length := by
    rw [String.toList_append, List.length_append]
    exact Nat.le_add_right _ _
  rw [htext] at hitems'
  generalize hn : text.toList.length + 1 = n at hitems
  generalize hm : (text ++ more).toList.length + 1 = m at hitems'
  generalize hstart : Cursor.ofText file text = start at hitems hitems'
  have hrest : start.rest.length < n := by
    rw [← hstart, ← hn]
    exact Nat.lt_succ_self _
  obtain ⟨_, c₁, hlayout, hmany⟩ := Parser.bind_eq_some_iff.mp hitems
  obtain ⟨_, c₂, hlayout', hmany'⟩ := Parser.bind_eq_some_iff.mp hitems'
  obtain ⟨_, rfl⟩ := Prod.mk.inj (Option.some.inj hlayout)
  obtain ⟨_, rfl⟩ := Prod.mk.inj (Option.some.inj hlayout')
  have hadvance := Parser.length_le_of_reaches (Parser.advances_layout start () _ rfl)
  cases its with
  | nil => exact List.nil_prefix
  | cons item its =>
    obtain ⟨_, hitem⟩ := Parser.exists_of_many_cons hmany
    have hskip := Parser.skipLayout_followedBy hitem hrest more.toList
    exact Parser.items_followedBy hmany (by omega) (by omega) more.toList (hskip ▸ hmany')
      (by omega)

theorem SourceUnit.checked_behind {u u' : SourceUnit} (hf : u.functions <+: u'.functions)
    (hnames : ∀ f ∈ u.functions, ∀ x ∈ f.fileNames, u'.scopes.meaning x = u.scopes.meaning x)
    (config : Config) :
    let behind := { u' with functions := u'.functions.drop u.functions.length }.checked config
    (u'.checked config).diagnostics = (u.checked config).diagnostics ++ behind.diagnostics ∧
      (u'.checked config).attributes = (u.checked config).attributes ++ behind.attributes ∧
      (u'.checked config).unit.functions =
        (u.checked config).unit.functions ++ behind.unit.functions := by
  obtain ⟨fs, hfs⟩ := hf
  rw [← hfs, List.drop_left]
  obtain ⟨hdiagnostics, hattributes, hfunctions⟩ := u'.checked_append config hfs.symm
  have hsame : { u' with functions := u.functions }.functions = u.functions := rfl
  have halike := checked_eq_of_fileNames config hsame hnames
  rw [halike.1] at hdiagnostics
  rw [halike.2.1] at hattributes
  rw [halike.2.2] at hfunctions
  exact ⟨hdiagnostics, hattributes, hfunctions⟩

theorem appended_check {file text more : String} {u u' : SourceUnit} (h : parse file text = .ok u)
    (h' : parse file (text ++ more) = .ok u')
    (hnames : ∀ f ∈ u.functions, ∀ x ∈ f.fileNames, u'.scopes.meaning x = u.scopes.meaning x)
    (config : Config) :
    u.functions <+: u'.functions ∧ u.globals <+: u'.globals ∧
      ∃ result result' behind, checkSource config file text = .ok result ∧
        checkSource config file (text ++ more) = .ok result' ∧
        { u' with functions := u'.functions.drop u.functions.length }.check config = .ok behind ∧
        result'.diagnostics = result.diagnostics ++ behind.diagnostics ∧
        result'.attributes = result.attributes ++ behind.attributes ∧
        result'.unit.functions = result.unit.functions ++ behind.unit.functions := by
  obtain ⟨hf, hglobals⟩ := prefix_of_parse h h'
  have hn := (SourceUnit.asRead_of_parse h').namesOptions
  have hbehind : ∀ f ∈ u'.functions.drop u.functions.length, f.body.NamesOptions :=
    fun f hf => hn f (List.mem_of_mem_drop hf)
  exact ⟨hf, hglobals, _, _, _, checkSource_eq h config, checkSource_eq h' config,
    SourceUnit.check_eq _ hbehind config, SourceUnit.checked_behind hf hnames config⟩

def fileCount : String :=
  "void f(int n) \x7b\n#pragma clang loop unroll_count(K)\nfor (;;) ;\n\x7d"

def countedText : String := "const int K = 4;\n" ++ fileCount

def unrelatedTail : String := "\nconst int M = K;\nvoid g() \x7b [[fallthrough]]; \x7d"

theorem appended_check_unrelated : ∃ u u' : SourceUnit, ∃ result result' behind : CheckResult,
    parse "a.cc" countedText = .ok u ∧
      parse "a.cc" (countedText ++ unrelatedTail) = .ok u' ∧
      (∀ f ∈ u.functions, ∀ x ∈ f.fileNames, u'.scopes.meaning x = u.scopes.meaning x) ∧
      checkSource {} "a.cc" countedText = .ok result ∧
      checkSource {} "a.cc" (countedText ++ unrelatedTail) = .ok result' ∧
      result'.diagnostics = result.diagnostics ++ behind.diagnostics := by
  have hread : ∃ u ∈ (parse "a.cc" countedText).toOption,
      ∃ u' ∈ (parse "a.cc" (countedText ++ unrelatedTail)).toOption,
      ∀ f ∈ u.functions, ∀ x ∈ f.fileNames, u'.scopes.meaning x = u.scopes.meaning x := by
    decide +kernel
  obtain ⟨u, hu, u', hu', hnames⟩ := hread
  have hp := ok_of_mem_toOption hu
  have hp' := ok_of_mem_toOption hu'
  obtain ⟨_, _, result, result', behind, hresult, hresult', _, hdiagnostics, _⟩ :=
    appended_check hp hp' hnames {}
  exact ⟨u, u', result, result', behind, hp, hp', hnames, hresult, hresult', hdiagnostics⟩

/-- A constant that is declared behind the function gives the loop in it its count. -/
theorem appended_check_declared : ∃ result result',
    checkSource {} "a.cc" fileCount = .ok result ∧
      checkSource {} "a.cc" (fileCount ++ "\nconst int K = 4;") = .ok result' ∧
      result.unit.functions.length = result'.unit.functions.length ∧
      result.diagnostics.map (·.id) = [.hintValue] ∧ result.attributes = [] ∧
      result'.diagnostics = [] ∧
      result'.attributes.map (fun a => a.hint?.map fun h => (h.option, h.value)) =
        [some (.unrollCount, 4)] := by
  have hall : ∃ result ∈ (checkSource {} "a.cc" fileCount).toOption,
      ∃ result' ∈ (checkSource {} "a.cc" (fileCount ++ "\nconst int K = 4;")).toOption,
      result.unit.functions.length = result'.unit.functions.length ∧
        result.diagnostics.map (·.id) = [.hintValue] ∧ result.attributes = [] ∧
        result'.diagnostics = [] ∧
        result'.attributes.map (fun a => a.hint?.map fun h => (h.option, h.value)) =
          [some (.unrollCount, 4)] := by
    decide +kernel
  obtain ⟨result, hresult, result', hresult', hfound⟩ := hall
  exact ⟨result, result', ok_of_mem_toOption hresult, ok_of_mem_toOption hresult', hfound⟩

end AttrCheck
