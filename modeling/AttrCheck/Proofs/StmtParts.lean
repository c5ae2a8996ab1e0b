import AttrCheck.Proofs.ExprRoundTrip
import AttrCheck.Proofs.TypeReading
import AttrCheck.Proofs.StmtTokens

/-! Variables and attribute specifiers are read back from their tokens. -/

namespace AttrCheck

namespace Parser

theorem refuses_symbol {s u : String} (hs : ∃ c ∈ s.toList.head?, ∃ d ∈ u.toList.head?, c ≠ d)
    (m : List Char) : Refuses (symbol s) (u.toList ++ m) := by
  obtain ⟨c, hc, d, hd, hne⟩ := hs
  obtain ⟨ds, hds⟩ := List.head?_eq_some_iff.mp hd
  intro l
  rw [hds, List.cons_append]
  exact symbol_eq_none ⟨c, hc, hne⟩

end Parser

variable {n k : Nat} {cs r : List Char} {t : Token} {ts : List Token}

theorem takes_type {isConst : Bool} {s v : String} (hs : IsType isConst s) (hv : IsName v)
    (h : Stands (.type s :: .word v :: ts) cs r) (hn : cs.length < n) :
    ∃ m, Spells Token.Ends (.word v :: ts) m r ∧ m.length < cs.length ∧
      Parser.Takes (Parser.typeName n) cs m (· = ⟨isConst, s⟩) := by
  obtain ⟨m, rfl, hend, hm⟩ := h.cons
  have hpos := List.length_pos_iff.mpr (Token.text_ne_nil hend.valid)
  have hends := Parser.endsType_of_next hend hm.next hv
  refine ⟨m, hm, by rw [List.length_append]; omega, ?_⟩
  obtain ⟨w, hw, rfl, rfl⟩ := hs
  exact hends.takes_typeName hw hn

section Variable

theorem takes_initializer {e : Expr} (he : e.Written)
    (h : Stands (.mark "=" :: (e.tokens ++ [.mark ";"])) cs r) (hn : cs.length ≤ n) :
    ∃ m, Stands [.mark ";"] m r ∧ Parser.Takes (Parser.initializer n) cs m (·.bare = e.bare) := by
  obtain ⟨m, rfl, hend, hm⟩ := h.cons
  have hpos := List.length_pos_iff.mpr (Token.text_ne_nil hend.valid)
  rw [List.length_append] at hn
  obtain ⟨u, us, hopener, hopens, _⟩ := he.exists_opener
  have hequals : ∀ c ∈ m.head?, c ≠ '=' := by
    rw [hopener] at hm
    exact hm.ne_equals hopens
  have hsymbol : Parser.Takes (Parser.symbolNotBefore "=" ['=']) ("=".toList ++ m) m fun _ => True :=
    fun l => ⟨(), _, Parser.symbolNotBefore_append "=" (by simpa using hequals) l, trivial⟩
  obtain ⟨m₁, hvalue, hm₁⟩ := hm.exists_of_append
  obtain ⟨m₂, hm₂, _, hlayout⟩ := hm₁.takes_layout (List.cons_ne_nil _ _)
  have hread := he.takes_spaced hm₁.next (by decide) hvalue (n := n) (by omega)
  exact ⟨m₂, hm₂, hsymbol.bind fun _ _ => hread.bind fun _ h => hlayout.bind fun _ _ => .pure h⟩

theorem VarDecl.Written.takes {d : VarDecl} (hd : d.Written) (h : Stands d.tokens cs r)
    (hn : cs.length < n) : Parser.Takes (Parser.variableDecl n) cs r (·.bare = d.bare) := by
  obtain ⟨m₁, hm₁, hlt₁, htype⟩ := takes_type hd.type hd.name h hn
  obtain ⟨m₂, hm₂, hlt₂, hname⟩ := hm₁.takes (P := (· = d.name)) fun m hend =>
    Parser.takes_name hend hd.name
  have hne : d.initTokens ++ [.mark ";"] ≠ [] := List.append_ne_nil_of_right_ne_nil _ nofun
  obtain ⟨m₃, hm₃, hle₃, hlayout⟩ := hm₂.takes_layout hne
  obtain ⟨m₄, hm₄, hinit⟩ : ∃ m₄, Stands [.mark ";"] m₄ r ∧
      Parser.Takes (Parser.maybe (Parser.initializer n)) m₃ m₄ fun init =>
        init.map Expr.bare = d.init.map Expr.bare := by
    cases hinit : d.init with
    | none =>
      rw [VarDecl.initTokens, hinit] at hm₃
      refine ⟨m₃, hm₃, ?_⟩
      obtain ⟨m, rfl, _⟩ := hm₃.cons
      have hrefuses : Parser.Refuses (Parser.initializer n) ((Token.mark ";").text.toList ++ m) :=
        Parser.Refuses.bind (Parser.Refuses.bind (Parser.refuses_symbol (by decide) m))
      exact hrefuses.maybe.mono fun _ h => by rw [h]
    | some e =>
      rw [VarDecl.initTokens, hinit] at hm₃
      obtain ⟨m₄, hm₄, hread⟩ := takes_initializer (hd.init e hinit) hm₃ (n := n) (by omega)
      refine ⟨m₄, hm₄, hread.maybe.mono ?_⟩
      rintro _ ⟨e', rfl, he'⟩
      rw [Option.map_some, Option.map_some, he']
  have hclose := hm₄.takes_single fun m _ => Parser.takes_symbol ";" m
  refine .here fun l => htype.bind fun _ ht => hname.bind fun _ hv => hlayout.bind fun _ _ =>
    hinit.bind fun init hi => hclose.bind fun _ _ => .pure ?_
  subst ht hv
  simp only [VarDecl.bare, hi]

end Variable

section Attribute

variable {a : RawAttr}

def IsAttrEnd (t : Token) : Prop := t = .mark "," ∨ t = .mark "]]"

theorem IsAttrEnd.refuses {s : String} (ht : IsAttrEnd t)
    (hs : ∀ u ∈ [",", "]]"], ∃ c ∈ s.toList.head?, ∃ d ∈ u.toList.head?, c ≠ d) (m : List Char) :
    Parser.Refuses (Parser.symbol s) (t.text.toList ++ m) := by
  obtain rfl | rfl := ht
  · exact Parser.refuses_symbol (hs "," (.head _)) m
  · exact Parser.refuses_symbol (hs "]]" (.tail _ (.head _))) m

theorem takes_plainName {s : String} (hs : IsName s) (h : Stands (.word s :: ts) cs r)
    (hcolon : ∀ m, Spells Token.Ends ts m r → Parser.Refuses (Parser.spaced (Parser.symbol "::")) m) :
    ∃ m, Spells Token.Ends ts m r ∧ m.length < cs.length ∧
      Parser.Takes Parser.scopedName cs m (· = (none, s)) := by
  obtain ⟨m, hm, hlt, hname⟩ := h.takes fun m hend => Parser.takes_name hend hs
  refine ⟨m, hm, hlt, hname.bind fun _ hv l => ⟨(none, s), l, ?_, rfl⟩⟩
  subst hv
  exact Parser.choice_of_none (Parser.bind_of_eq_none (hcolon m hm l) _) _

theorem takes_scopedName {scope s : String} (hscope : IsName scope) (hs : IsName s)
    (h : Stands (.word scope :: .mark "::" :: .word s :: ts) cs r) :
    ∃ m, Spells Token.Ends ts m r ∧ m.length < cs.length ∧
      Parser.Takes Parser.scopedName cs m (· = (some scope, s)) := by
  obtain ⟨m₁, hm₁, hlt₁, hfirst⟩ := h.takes fun m hend => Parser.takes_name hend hscope
  obtain ⟨m₂, hm₂, hlt₂, hcolon⟩ := hm₁.takes fun m _ => Parser.takes_symbol "::" m
  obtain ⟨m₃, hm₃, hlt₃, hsecond⟩ := hm₂.takes fun m hend => Parser.takes_name hend hs
  refine ⟨m₃, hm₃, by omega, hfirst.bind fun _ hv l => ?_⟩
  subst hv
  obtain ⟨_, l₁, hl₁, _⟩ := hcolon l
  obtain ⟨_, l₂, hl₂, rfl⟩ := hsecond l₁
  refine ⟨(some _, _), l₂, ?_, rfl⟩
  refine Parser.choice_of_some ?_ _
  rw [Parser.bind_of_eq_some hl₁, Parser.bind_of_eq_some hl₂]
  rfl

theorem RawAttr.Written.takes_name (ha : a.Written) (h : Stands (a.nameTokens ++ ts) cs r)
    (hcolon : ∀ m, Spells Token.Ends ts m r → Parser.Refuses (Parser.spaced (Parser.symbol "::")) m) :
    ∃ m, Spells Token.Ends ts m r ∧ m.length < cs.length ∧
      Parser.Takes Parser.scopedName cs m (· = (a.scope, a.name)) := by
  cases hscope : a.scope with
  | none =>
    rw [nameTokens, hscope] at h
    exact takes_plainName ha.name h hcolon
  | some s =>
    rw [nameTokens, hscope] at h
    exact takes_scopedName (ha.scope s hscope) ha.name h

theorem RawAttr.Written.takes_args (ha : a.Written) {m : List Char}
    (h : Spells Token.Ends a.argTokens m r) (hn : m.length < n) (hnext : Next t r)
    (ht : IsAttrEnd t) :
    Parser.Takes (Parser.orElse (Parser.spaced (Parser.arguments n (Parser.expr n))) []) m r
      fun args => Expr.bareAll args = Expr.bareAll a.exprs := by
  cases hexprs : a.exprs with
  | nil =>
    rw [argTokens, hexprs] at h
    cases h
    have hopen (m : List Char) : Parser.Refuses (Parser.symbol "(") (t.text.toList ++ m) :=
      ht.refuses (by decide) m
    have hrefuses : Parser.Refuses (Parser.spaced (Parser.arguments n (Parser.expr n))) r :=
      hnext.refuses fun m _ => (hopen m).bind
    exact (hrefuses.orElse []).mono fun _ h => by rw [h]
  | cons e es =>
    have hargs : ∀ e' ∈ e :: es, e'.Written ∧ e'.Readable := fun e' he' => by
      have hw := ha.exprs e' (hexprs ▸ he')
      exact ⟨hw, hw.readable⟩
    rw [argTokens, hexprs] at h
    exact .orElse (h.spaced (List.cons_ne_nil _ _) fun cs' hcs' hle =>
      Expr.takes_arguments hargs hcs' (n := n) (by omega) (Nat.le_refl n)) []

theorem RawAttr.Written.bare_eq (ha : a.Written) {args : List Expr} {range : Range}
    (h : Expr.bareAll args = Expr.bareAll a.exprs) :
    RawAttr.bare ⟨a.name, .cxx11, a.scope, args.map fun e => some (.expr e), range⟩ = a.bare := by
  have hargs (es : List Expr) : (es.map fun e => some (Arg.expr e)).map (·.map Arg.bare) =
      (Expr.bareAll es).map fun e => some (Arg.expr e) := by
    rw [Expr.bareAll_eq_map, List.map_map, List.map_map]
    rfl
  have hbare : a.args.map (·.map Arg.bare) =
      (Expr.bareAll a.exprs).map fun e => some (Arg.expr e) := by
    rw [← hargs, ← ha.args]
  rw [RawAttr.bare, RawAttr.bare, hargs, h, hbare, ha.spelling]

theorem RawAttr.Written.takes (ha : a.Written) (h : Stands a.tokens cs r) (hn : cs.length < n)
    (hnext : Next t r) (ht : IsAttrEnd t) :
    Parser.Takes (Parser.attributeWith n (Parser.expr n) .cxx11 Parser.scopedName) cs r
      (·.bare = a.bare) := by
  have hcolon (m : List Char) (hm : Spells Token.Ends a.argTokens m r) :
      Parser.Refuses (Parser.spaced (Parser.symbol "::")) m := by
    rw [argTokens] at hm
    split at hm
    · cases hm
      exact hnext.refuses fun m _ => ht.refuses (by decide) m
    · exact hm.next.refuses fun m _ => Parser.refuses_symbol (by decide) m
  obtain ⟨m, hm, hlt, hname⟩ := ha.takes_name h hcolon
  refine .here fun start => hname.bind fun _ hv =>
    (ha.takes_args hm (Nat.lt_trans hlt hn) hnext ht).bind fun args hargs => .here fun stop => .pure ?_
  subst hv
  exact ha.bare_eq hargs

end Attribute

section Specifier

variable {attrs : List RawAttr} (hattrs : ∀ a ∈ attrs, a.Written)
include hattrs

theorem takes_attributeList {m : List Char}
    (h : Spells Token.Ends (listed RawAttr.tokens attrs ++ .mark "]]" :: ts) m r)
    (hn : m.length < n) : ∃ m', Spells Token.Ends (.mark "]]" :: ts) m' r ∧ m'.length ≤ m.length ∧
      Parser.Takes (Parser.spaced (Parser.attributeList n (Parser.expr n) .cxx11)) m m'
        fun as => as.map RawAttr.bare = attrs.map RawAttr.bare := by
  cases attrs with
  | nil =>
    have hrefuses (m : List Char) : Parser.Refuses
        (Parser.attributeWith n (Parser.expr n) .cxx11 Parser.scopedName)
        ((Token.mark "]]").text.toList ++ m) := fun l => rfl
    obtain ⟨m', hm', hle, hread⟩ := h.leaves
      (p := Parser.attributeList n (Parser.expr n) .cxx11) (P := (· = []))
      fun m _ => (hrefuses m).bind.orElse []
    exact ⟨m', hm', hle, hread.mono fun _ h => by rw [h]⟩
  | cons a as =>
    obtain ⟨m', hlist, hrest⟩ := h.exists_of_append
    have hne : ∀ b ∈ a :: as, b.tokens ≠ [] := fun b _ => by
      rw [RawAttr.tokens, RawAttr.nameTokens]
      split <;> exact List.cons_ne_nil _ _
    have hread : ∀ b ∈ a :: as, ∀ t cs r, Stands b.tokens cs r → cs.length < n → Next t r →
        t = .mark "," ∨ t = .mark "]]" →
          Parser.Takes (Parser.attributeWith n (Parser.expr n) .cxx11 Parser.scopedName) cs r
            fun b' => b'.bare = b.bare :=
      fun b hb t cs r hstands hlt hnext ht => (hattrs b hb).takes hstands hlt hnext ht
    have hconsumes : Parser.Consumes
        (Parser.attributeWith n (Parser.expr n) .cxx11 Parser.scopedName) :=
      Parser.consumes_attributeWith (Parser.advances_expr n) _ Parser.consumes_scopedName
    have hlisted : listed RawAttr.tokens (a :: as) ≠ [] :=
      List.append_ne_nil_of_left_ne_nil (hne a (.head _)) _
    refine ⟨m', hrest, hlist.length_le, hlist.spaced hlisted fun cs' hcs' hle => .orElse ?_ []⟩
    refine (takes_commaList hconsumes hne hread (fun m _ => Parser.refuses_symbol (by decide) m)
      hrest.next (Nat.le_refl n) (List.cons_ne_nil a as) hcs' (by omega)).mono fun bs h => ?_
    exact map_eq_of_forall₂ h

theorem takes_bracketSpecifier
    (h : Stands (.mark "[[" :: (listed RawAttr.tokens attrs ++ .mark "]]" :: ts)) cs r)
    (hn : cs.length ≤ n) : ∃ m, Spells Token.Ends ts m r ∧ m.length < cs.length ∧
      Parser.Takes (Parser.bracketSpecifier n (Parser.expr n)) cs m
        fun spec => spec.attrs.map RawAttr.bare = attrs.map RawAttr.bare := by
  obtain ⟨m₁, hm₁, hlt₁, hopen⟩ := h.takes fun m _ => Parser.takes_symbol "[[" m
  obtain ⟨m₂, hm₂, hle₂, hlist⟩ := takes_attributeList hattrs hm₁ (n := n) (by omega)
  obtain ⟨m₃, hm₃, hlt₃, hclose⟩ := hm₂.takes fun m _ => Parser.takes_symbol "]]" m
  refine ⟨m₃, hm₃, by omega, .here fun start => .bind (hopen.bind fun _ _ => hlist.bind fun _ has =>
    hclose.bind fun _ _ => .pure has) fun _ has => .here fun stop => .pure has⟩

end Specifier

end AttrCheck
