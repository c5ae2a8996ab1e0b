import AttrCheck.Proofs.BuiltTree
import AttrCheck.Proofs.HintRoundTrip
import AttrCheck.Proofs.StmtRoundTrip

/-! A text that is one function, or one variable, is read back from its tokens. -/

namespace AttrCheck

def Function.headTokens (type name : String) : List Token :=
  [.type type, .word name, .mark "(", .mark ")"]

section Function

variable {isConst : Bool} {type name : String} {body : List Stmt} {l : Loc} {n : Nat}
  {cs r : List Char}

theorem refuses_param (m : List Char) :
    Parser.Refuses (Parser.commaList (Parser.param n) n) ((Token.mark ")").text.toList ++ m) := by
  have hbegins : Parser.Begins (Parser.commaList (Parser.param n) n) (· ∈ Parser.typeFronts) :=
    (Parser.begins_typeName n).bind.bind
  have hfront : front ((Token.mark ")").text.toList ++ m) = ")" := front_cons (by decide)
  intro start
  cases hread : Parser.commaList (Parser.param n) n ⟨start, (Token.mark ")").text.toList ++ m⟩ with
  | none => rfl
  | some x =>
    have hmem := hbegins _ x.1 x.2 hread
    rw [hfront] at hmem
    exact absurd hmem (by decide)

theorem takes_function (htype : IsType isConst type) (hname : IsName name)
    (hbody : ∀ s ∈ body, s.Written)
    (h : Stands (Function.headTokens type name ++ (Stmt.compound body l).tokens) cs r)
    (hn : cs.length < n) :
    Parser.Takes (Parser.function n) cs r
      (·.bare = ⟨name, (Stmt.compound body l).bare, [], [], type, .unknown⟩) := by
  obtain ⟨m₁, hm₁, hlt₁, hreadtype⟩ := takes_type htype hname h hn
  obtain ⟨m₂, hm₂, hlt₂, hreadname⟩ := hm₁.takes (P := (· = name)) fun m hend =>
    Parser.takes_name hend hname
  obtain ⟨m₃, hfirst, hm₃⟩ : ∃ m₃, Spells Token.Ends [.mark "(", .mark ")"] m₂ m₃ ∧
      Spells Token.Ends (Stmt.compound body l).tokens m₃ r := hm₂.exists_of_append
  have hle₃ := hfirst.length_le
  have hparams : Parser.Takes (Parser.spaced (Parser.parens
      (Parser.orElse (Parser.commaList (Parser.param n) n) []))) m₂ m₃ (· = []) := by
    refine hfirst.spaced (List.cons_ne_nil _ _) fun cs' hcs' _ => ?_
    have hparens : Stands (.mark "(" :: ([] ++ [.mark ")"])) cs' m₃ := hcs'
    refine hparens.takes_parens fun m hm _ => ?_
    obtain ⟨m', hm', _, hread⟩ := hm.leaves fun m _ => (refuses_param m).orElse []
    exact ⟨m', hm', hread⟩
  have hreadbody : Parser.Takes (Parser.spaced (Parser.compoundStmt n (Parser.stmt n))) m₃ r
      (·.bare = (Stmt.compound body l).bare) := by
    refine hm₃.spaced (List.cons_ne_nil _ _) fun cs' hcs' hle => ?_
    exact Stmt.takes_compoundStmt hbody (fun s hs => (hbody s hs).reads) hcs' (by omega)
      (Nat.le_refl n)
  have htemplate : Parser.Refuses (Parser.templateHeader n) cs := by
    intro start
    obtain ⟨_, l', hread, _⟩ := hreadtype start
    have htypes : ∀ w ∈ Parser.typeFronts, w ≠ "template" := by decide
    have hhead : Parser.Begins (Parser.templateHeader n) (· = "template") :=
      (Parser.begins_keyword (by decide)).bind
    exact (Parser.begins_typeName n).eq_none hhead htypes hread
  refine .here fun start => (htemplate.orElse []).bind fun params' hp => hreadtype.bind fun _ ht =>
    hreadname.bind fun _ hv => hparams.bind fun _ hps => hreadbody.bind fun body' hb => .pure ?_
  subst hp ht hv hps
  simp only [Function.bare, hb, List.filterMap_nil]

end Function

section Parse

variable {file text : String} {isConst : Bool} {type name : String} {body : List Stmt} {l : Loc}

theorem exists_head_of_type {ts : List Token} {cs r : List Char} {s : String}
    (h : Stands (.type s :: ts) cs r) : ∃ c ∈ cs.head?, ¬ OpensLayout c := by
  obtain ⟨m, rfl, ⟨⟨_, w, hw, _, rfl⟩, _⟩, _⟩ := h.cons
  obtain ⟨c, hc, hstart⟩ := hw.exists_head
  refine ⟨c, ?_, not_opensLayout_of_isNamePart (isNamePart_of_isNameStart hstart)⟩
  have hhead : w.text.toList.head? = some c := hc
  rw [List.head?_append, Token.text, hhead]
  rfl

theorem parse_function (file : String) (htype : IsType isConst type) (hname : IsName name)
    (hbody : ∀ s ∈ body, s.Written)
    (h : Stands (Function.headTokens type name ++ (Stmt.compound body l).tokens) text.toList []) :
    ∃ u, parse file text = .ok u ∧
      u.bare = ⟨[⟨name, (Stmt.compound body l).bare, [], [], type, .unknown⟩], [], file⟩ := by
  obtain ⟨f, l', hf, hbare⟩ := takes_function htype hname hbody h
    (Nat.lt_succ_self text.toList.length) (Loc.start file)
  refine ⟨_, parse_of_function (exists_head_of_type h) hf, ?_⟩
  simp only [SourceUnit.bare, List.map_cons, List.map_nil, hbare]

theorem parse_variable (file : String) {d : VarDecl} (hd : d.Written)
    (h : Stands d.tokens text.toList []) :
    ∃ u, parse file text = .ok u ∧ u.bare = ⟨[], [d.bare], file⟩ := by
  obtain ⟨d', l', hread, hbare⟩ :=
    hd.takes h (Nat.lt_succ_self text.toList.length) (Loc.start file)
  have hitem : Parser.topLevel (text.toList.length + 1) (.ofText file text) =
      some (.global d', ⟨l', []⟩) :=
    (Parser.choice_of_none (Parser.map_of_eq_none (Parser.function_eq_none hread) _) _).trans
      (Parser.map_eq_some_iff.mpr ⟨d', hread, rfl⟩)
  refine ⟨_, parse_of_item (exists_head_of_type h) hitem, ?_⟩
  show SourceUnit.bare ⟨[], [d'], file⟩ = _
  simp only [SourceUnit.bare, List.map_cons, List.map_nil, hbare]

end Parse

theorem isType_of_mem {s : String} (h : s ∈ baseTypes) : IsType false s := by
  refine ⟨⟨false, none, s, []⟩, ⟨nofun, h, nofun⟩, rfl, ?_⟩
  simp [TypeWords.text]

def spacedFunction (body : List Stmt) : String :=
  Token.separated (Function.headTokens "void" "f" ++ (Stmt.compound body .unknown).tokens)

def functionUnit (file : String) (body : List Stmt) : SourceUnit :=
  ⟨[⟨"f", (Stmt.compound body .unknown).bare, [], [], "void", .unknown⟩], [], file⟩

def initialized (e : Expr) : VarDecl := ⟨"x", "int", some e, false, .unknown⟩

def variableUnit (file : String) (e : Expr) : SourceUnit := ⟨[], [(initialized e).bare], file⟩

theorem literals_functionUnit (file : String) (body : List Stmt) :
    (functionUnit file body).literals = body.flatMap Stmt.literals := by
  have hbody : (functionUnit file body).literals = (Stmt.compound body .unknown).bare.literals := by
    simp [functionUnit, SourceUnit.literals]
  rw [hbody, Stmt.literals_bare, Stmt.literals, Stmt.allLiterals_eq]

theorem literals_exprUnit (file : String) (e : Expr) :
    (functionUnit file [.expr e .unknown]).literals = e.literals := by
  rw [literals_functionUnit, List.flatMap_singleton]
  rfl

theorem literals_variableUnit (file : String) (e : Expr) :
    (variableUnit file e).literals = e.literals := by
  have hinit : (variableUnit file e).literals = (initialized e).bare.literals := by
    simp [variableUnit, SourceUnit.literals]
  rw [hinit, VarDecl.literals_bare]
  simp [VarDecl.literals, Expr.optLiterals, initialized]

theorem initialized_written {e : Expr} (he : e.Written) : (initialized e).Written where
  name := show IsName "x" by decide
  type := isType_of_mem (show "int" ∈ baseTypes by decide)
  init := by
    rintro _ ⟨⟩
    exact he

theorem stands_spacedFunction {body : List Stmt} (hbody : ∀ s ∈ body, s.Written) :
    Stands (Function.headTokens "void" "f" ++ (Stmt.compound body .unknown).tokens)
      (spacedFunction body).toList [] := by
  have hcompound : (Stmt.compound body .unknown).Written := .compound hbody
  have hvoid : IsType false "void" := isType_of_mem (by decide)
  refine stands_separated (List.forall_mem_cons.mpr ⟨⟨_, hvoid⟩, ?_⟩)
  exact Token.forall_valid_word (by decide) (Token.forall_valid_mark (by decide)
    (Token.forall_valid_mark (by decide) hcompound.valid))

theorem parse_separated (file : String) {e : Expr} (he : e.Written) :
    (∃ u, parse file (spacedFunction [.expr e .unknown]) = .ok u ∧
      u.bare = functionUnit file [.expr e .unknown]) ∧
    ∃ u, parse file (Token.separated (initialized e).tokens) = .ok u ∧
      u.bare = variableUnit file e := by
  have hbody : ∀ s ∈ [Stmt.expr e .unknown], s.Written := List.forall_mem_singleton.mpr (.expr he)
  have hvariable := initialized_written he
  exact ⟨parse_function file (isType_of_mem (by decide)) (by decide) hbody
      (stands_spacedFunction hbody),
    parse_variable file hvariable (stands_separated hvariable.valid)⟩

/-- An expression is read back from its tokens with single spaces between them, as a statement and
as an initializer. The host must convert the integers in it, as it does all of them without a limit
on their digits. -/
theorem parse_spacedExpr (limit : DigitLimit) (file : String) {e : Expr} (he : e.Written)
    (hlimit : ∀ s ∈ e.literals, limit.converts s) :
    (∃ u, parseSource limit file (spacedFunction [.expr e .unknown]) = .ok u ∧
      u.bare = functionUnit file [.expr e .unknown]) ∧
    ∃ u, parseSource limit file (Token.separated (initialized e).tokens) = .ok u ∧
      u.bare = variableUnit file e := by
  obtain ⟨hfunction, hvariable⟩ := parse_separated file he
  refine ⟨exists_parseSource_of_converts hfunction ?_,
    exists_parseSource_of_converts hvariable ?_⟩
  · rwa [literals_exprUnit]
  · rwa [literals_variableUnit]

def layeredExpr : Expr :=
  let a : Expr := .name "a" .runtime .unknown
  let number (n : Int) (s : String) : Expr := .int n s .unknown
  let sum : Expr := .paren (.binary .add a (number 1 "1") .unknown) .unknown
  let call : Expr := .call (.name "f" .runtime .unknown) [a, .string "s" .unknown] .unknown
  let product : Expr := .binary .mul (.unary .minus sum .unknown)
    (.unary .postInc call .unknown) .unknown
  let difference : Expr :=
    .binary .sub (.binary .sub a (number 3 "3") .unknown) (number 4 "4") .unknown
  .assign "=" a (.conditional (.binary .lt product a .unknown)
    (.assign "<<=" a (number 2 "2") .unknown) difference .unknown) .unknown

def layeredText : String := "a = - ( a + 1 ) * f ( a , \"s\" ) ++ < a ? a <<= 2 : a - 3 - 4"

theorem layeredExpr_written : layeredExpr.Written := by
  have hname (s : String) (hs : IsName s) : (Expr.name s .runtime .unknown).Written := .name hs
  have hnumber (n : Nat) (s : String) (hs : wordNumber? s.toList = some n) :
    (Expr.int n s .unknown).Written := .number hs
  have ha := hname "a" (by decide)
  refine .assign (by decide) ha
    (.conditional (.binary ?product ha (by decide) (by decide)) ?shift ?difference (by decide)
      (by decide)) (by decide)
  case product =>
    have hargs : ∀ e ∈ [.name "a" .runtime .unknown, Expr.string "s" .unknown], e.Written :=
      List.forall_mem_cons.mpr ⟨ha, List.forall_mem_singleton.mpr (.string (by decide))⟩
    refine .binary (.front rfl (.paren ?sum) (by decide))
      (.back rfl (.call (hname "f" (by decide)) hargs (by decide)) (by decide)) (by decide)
      (by decide)
    case sum => exact .binary ha (hnumber 1 "1" (by decide)) (by decide) (by decide)
  case shift => exact .assign (by decide) ha (hnumber 2 "2" (by decide)) (by decide)
  case difference =>
    refine .binary ?first (hnumber 4 "4" (by decide)) (by decide) (by decide)
    case first => exact .binary ha (hnumber 3 "3" (by decide)) (by decide) (by decide)

theorem parse_spacedExpr_layered :
    (∃ u, parseSource .standard "a.cc" ("void f ( ) \x7b " ++ layeredText ++ " ; \x7d") = .ok u ∧
      u.bare = functionUnit "a.cc" [.expr layeredExpr .unknown]) ∧
    ∃ u, parseSource .standard "a.cc" ("int x = " ++ layeredText ++ " ;") = .ok u ∧
      u.bare = variableUnit "a.cc" layeredExpr := by
  have hfunction : spacedFunction [.expr layeredExpr .unknown] =
      "void f ( ) \x7b " ++ layeredText ++ " ; \x7d" := by
    decide +kernel
  have hvariable : Token.separated (initialized layeredExpr).tokens =
      "int x = " ++ layeredText ++ " ;" := by
    decide +kernel
  have h := parse_spacedExpr .standard "a.cc" layeredExpr_written (by decide)
  rwa [hfunction, hvariable] at h

/-- A body is read back from its tokens with single spaces between them, if the host converts the
integers in it. -/
theorem parse_spacedFunction (limit : DigitLimit) (file : String) {body : List Stmt}
    (hbody : ∀ s ∈ body, s.Written)
    (hlimit : ∀ s ∈ body, ∀ text ∈ s.literals, limit.converts text) :
    ∃ u, parseSource limit file (spacedFunction body) = .ok u ∧
      u.bare = functionUnit file body := by
  have hparse := parse_function file (isType_of_mem (show "void" ∈ baseTypes by decide))
    (show IsName "f" by decide) hbody (stands_spacedFunction hbody)
  refine exists_parseSource_of_converts hparse fun text htext => ?_
  have hmem : text ∈ (functionUnit file body).literals := htext
  rw [literals_functionUnit] at hmem
  obtain ⟨s, hs, hmem⟩ := List.mem_flatMap.mp hmem
  exact hlimit s hs text hmem

def nestedBody : List Stmt :=
  let name (s : String) : Expr := .name s .runtime .unknown
  let counter : VarDecl := ⟨"i", "unsigned int", some (.int 0 "0" .unknown), false, .unknown⟩
  let loop : Stmt := .forLoop (some (.decl counter)) none
    (some (.unary .postInc (name "i") .unknown)) (.brk .unknown) .unknown
  let unlikely : RawAttr := ⟨"unlikely", .cxx11, some "gnu", [], .unknown⟩
  let cases : List Stmt :=
    [.caseLabel (.int 1 "1" .unknown) (.annotated [unlikely] loop .unknown .unknown) .unknown,
      .defaultLabel (.ret none .unknown) .unknown]
  [.ifElse (name "a")
    (.doWhile (.ifElse (name "b") (.null .unknown) none .unknown) (name "c") .unknown)
    (some (.switch (name "d") (.compound cases .unknown) .unknown)) .unknown]

def nestedText : String :=
  "if ( a ) do if ( b ) ; while ( c ) ; else switch ( d ) \x7b " ++
    "case 1 : [[ gnu :: unlikely ]] for ( unsigned int i = 0 ; ; i ++ ) break ; " ++
    "default : return ; \x7d"

theorem nestedBody_written : ∀ s ∈ nestedBody, s.Written := by
  have hname (s : String) (hs : IsName s) : (Expr.name s .runtime .unknown).Written := .name hs
  have hnumber (n : Nat) (s : String) (hs : wordNumber? s.toList = some n) :
    (Expr.int n s .unknown).Written := .number hs
  refine List.forall_mem_singleton.mpr (.ifElse (hname "a" (by decide))
    (.doWhile (.ifThen (hname "b" (by decide)) .null) (hname "c" (by decide)))
    (.switch (hname "d" (by decide)) (.compound (List.forall_mem_cons.mpr
      ⟨.caseLabel (hnumber 1 "1" (by decide)) (.annotated ?attrs (.forLoop ?init ?kind nofun ?step
        .brk) rfl), List.forall_mem_singleton.mpr (.defaultLabel (.ret nofun))⟩))) ?closed)
  case attrs =>
    refine List.forall_mem_singleton.mpr ⟨rfl, ?_, show IsName "unlikely" by decide, rfl, nofun⟩
    rintro _ ⟨⟩
    exact show IsName "gnu" by decide
  case init =>
    rintro _ ⟨⟩
    refine .decl ⟨show IsName "i" by decide, ?_, ?_⟩
    · refine ⟨⟨false, some "unsigned", "int", []⟩, ⟨?_, show "int" ∈ baseTypes by decide, nofun⟩,
        rfl, by decide⟩
      rintro _ ⟨⟩
      decide
    · rintro _ ⟨⟩
      exact hnumber 0 "0" (by decide)
  case kind =>
    rintro _ ⟨⟩
    trivial
  case step =>
    rintro _ ⟨⟩
    exact .back rfl (hname "i" (by decide)) (by decide)
  case closed =>
    rintro ⟨c, yes, l, hmem⟩
    simp [Stmt.tails] at hmem

theorem parse_spacedFunction_nested :
    ∃ u, parseSource .standard "a.cc" ("void f ( ) \x7b " ++ nestedText ++ " \x7d") = .ok u ∧
      u.bare = functionUnit "a.cc" nestedBody := by
  have htext : spacedFunction nestedBody = "void f ( ) \x7b " ++ nestedText ++ " \x7d" := by
    decide +kernel
  have h := parse_spacedFunction .standard "a.cc" nestedBody_written (by decide)
  rwa [htext] at h

end AttrCheck
