import AttrCheck.Proofs.Agreement
import AttrCheck.Proofs.Lookahead

/-! Two readings that take lexemes off their texts together do so with expressions, types and
attributes, whatever allowances they have above the number of characters left. -/

namespace AttrCheck

namespace Parser

section Slash

variable {β : Type} {c : Cursor}

def uncommented (level : List (BinaryOp × List Char)) : List (BinaryOp × List Char) :=
  level.map fun (op, bad) => (op, if op = .div then '*' :: bad else bad)

theorem binaryOp_cons (op : BinaryOp) (bad : List Char) (level : List (BinaryOp × List Char)) :
    binaryOp ((op, bad) :: level) = (symbolNotBefore op.symbol bad *> pure op <|> binaryOp level) :=
  rfl

theorem binaryOp_uncommented_cons (op : BinaryOp) (bad : List Char)
    (level : List (BinaryOp × List Char)) : binaryOp (uncommented ((op, bad) :: level)) =
      (symbolNotBefore op.symbol (if op = .div then '*' :: bad else bad) *> pure op <|>
        binaryOp (uncommented level)) := rfl

theorem div_of_symbol {op : BinaryOp} {c' : Cursor} {u : Unit} {cs : List Char}
    (hc : c.rest = '/' :: cs) (h : symbol op.symbol c = some (u, c')) :
    op = .div ∧ c'.rest = cs := by
  have hrest := eq_append_of_symbol h
  rw [hc] at hrest
  cases op with
  | div => exact ⟨rfl, (List.cons.inj hrest).2.symm⟩
  | _ => exact absurd (List.cons.inj hrest).1 (by decide)

theorem exists_of_binaryOp {level : List (BinaryOp × List Char)} {op : BinaryOp} {c' : Cursor}
    (h : binaryOp level c = some (op, c')) : ∃ bad, (op, bad) ∈ level ∧
      symbol op.symbol c = some ((), c') ∧ ∀ d ∈ c'.rest.head?, bad.contains d = false := by
  obtain ⟨p, hp, h⟩ := firstOf_eq_some h
  obtain ⟨⟨op', bad⟩, hmem, rfl⟩ := List.mem_map.mp hp
  obtain ⟨_, c₂, hmark, h⟩ := bind_eq_some_iff.mp h
  obtain ⟨rfl, rfl⟩ := pure_eq_some_iff.mp h
  obtain ⟨_, c₁, hsymbol, hnot⟩ := bind_eq_some_iff.mp hmark
  obtain ⟨rfl, hhead⟩ := notBefore_eq_some hnot
  exact ⟨bad, hmem, hsymbol, hhead⟩

theorem binaryOp_uncommented_eq_none {cs : List Char} (hc : c.rest = '/' :: '*' :: cs)
    (level : List (BinaryOp × List Char)) : binaryOp (uncommented level) c = none := by
  refine Option.eq_none_iff_forall_ne_some.mpr fun x hx => ?_
  obtain ⟨bad, hmem, hsymbol, hhead⟩ := exists_of_binaryOp hx
  obtain ⟨hdiv, hrest⟩ := div_of_symbol hc hsymbol
  obtain ⟨⟨op, bad'⟩, _, heq⟩ := List.mem_map.mp hmem
  obtain ⟨rfl, rfl⟩ := Prod.mk.inj heq
  have hstar := hhead '*' (by rw [hrest]; rfl)
  simp [hdiv] at hstar

theorem head_of_binaryOp {cs : List Char} (hc : c.rest = '/' :: '*' :: cs)
    {level : List (BinaryOp × List Char)} {op : BinaryOp} {c' : Cursor}
    (h : binaryOp level c = some (op, c')) : c'.rest.head? = some '*' := by
  obtain ⟨_, _, hsymbol, _⟩ := exists_of_binaryOp h
  rw [(div_of_symbol hc hsymbol).2]
  rfl

theorem binaryOp_uncommented_eq (hc : ∀ cs, c.rest ≠ '/' :: '*' :: cs)
    (level : List (BinaryOp × List Char)) : binaryOp (uncommented level) c = binaryOp level c := by
  have hmark (bad : List Char) :
      symbolNotBefore "/" ('*' :: bad) c = symbolNotBefore "/" bad c := by
    show (symbol "/" c).bind _ = (symbol "/" c).bind _
    refine Option.bind_congr fun x hx => ?_
    have hrest := eq_append_of_symbol (Prod.eta x ▸ hx)
    show notBefore _ x.2 = notBefore _ x.2
    unfold notBefore
    split
    · rfl
    next d ds hds =>
      have hd : d ≠ '*' := fun hd => hc ds (by rw [hrest, hds, hd]; rfl)
      simp [hd]
  induction level with
  | nil => rfl
  | cons y level ih =>
    obtain ⟨op, bad⟩ := y
    have hfirst : (symbolNotBefore op.symbol (if op = .div then '*' :: bad else bad) *>
        pure op : Parser BinaryOp) c = (symbolNotBefore op.symbol bad *> pure op) c := by
      split
      next hop =>
        subst hop
        show (symbolNotBefore "/" ('*' :: bad) c).bind _ = (symbolNotBefore "/" bad c).bind _
        rw [hmark]
      next => rfl
    rw [binaryOp_cons, binaryOp_uncommented_cons]
    show ((_ : Parser BinaryOp) c <|> binaryOp (uncommented level) c) = (_ <|> binaryOp level c)
    rw [hfirst, ih]

theorem binaryOp_bind (level : List (BinaryOp × List Char)) {f : BinaryOp → Parser β}
    (hf : ∀ op c, c.rest.head? = some '*' → f op c = none) :
    (binaryOp level >>= f) = (binaryOp (uncommented level) >>= f) := by
  funext c
  show (binaryOp level c).bind _ = (binaryOp (uncommented level) c).bind _
  by_cases hc : ∃ cs, c.rest = '/' :: '*' :: cs
  · obtain ⟨cs, hc⟩ := hc
    rw [binaryOp_uncommented_eq_none hc]
    cases h : binaryOp level c with
    | none => rfl
    | some x => exact hf x.1 x.2 (head_of_binaryOp hc h)
  · rw [binaryOp_uncommented_eq (not_exists.mp hc)]

theorem unary_star (n : Nat) (inner : Parser Expr) (hc : c.rest.head? = some '*') :
    unary n inner c = none := by
  refine Option.eq_none_iff_forall_ne_some.mpr fun x hx => ?_
  obtain ⟨cs, hcs⟩ := List.head?_eq_some_iff.mp hc
  have hfront := begins_unary n c x.1 x.2 hx
  rw [hcs, front_cons (by decide)] at hfront
  obtain ⟨_, hd, hdigit⟩ | ⟨⟨_, hd, hstart⟩, _⟩ | hmem := hfront
  · obtain rfl := Option.some.inj hd
    cases hdigit
  · obtain rfl := Option.some.inj hd
    cases hstart
  · exact absurd hmem (by decide)

theorem chainFrom_cons (n : Nat) (inner : Parser Expr) (start : Loc) (first : Expr)
    (level : List (BinaryOp × List Char)) (tighter : List (List (BinaryOp × List Char))) :
    chainFrom n inner start first (level :: tighter) = (do
      let lhs ← chainFrom n inner start first tighter
      let rest ← many (do
        let op ← spaced (binaryOp (uncommented level))
        layout
        let loc ← here
        let operand ← unary n inner
        let rhs ← chainFrom n inner loc operand tighter
        return (op, rhs)) n
      return joinLeft start lhs rest) := by
  rw [chainFrom]
  have hround := binaryOp_bind level (f := fun op => (do
    layout
    let loc ← here
    let operand ← unary n inner
    let rhs ← chainFrom n inner loc operand tighter
    return (op, rhs) : Parser (BinaryOp × Expr))) fun op c hc => by
      obtain ⟨cs, hcs⟩ := List.head?_eq_some_iff.mp hc
      have hskip : skipLayout .code c.loc c.rest = c := by
        rw [hcs, skipLayout_stop (by decide), ← hcs]
      show ((unary n inner (skipLayout .code c.loc c.rest)).bind _) = none
      rw [hskip, unary_star n inner hc, Option.bind_none]
  simp only [spaced, bind_assoc, hround]

end Slash

variable {α : Type} {B : Pairing} {same bare : Prop} {k n m : Nat} (hB : B.Lawful)
include hB

theorem agree_layout : Agree B same bare k layout layout := by
  intro c d hl _ _
  exact .some ⟨(hB.layout hl).1.imp (fun h => ⟨h.1, h.2, rfl⟩) id,
    length_le_of_reaches (advances_layout c () _ rfl)⟩

theorem agree_symbol {s : String} (hs : s ∈ Pairing.symbols) :
    Agree B same bare k (symbol s) (symbol s) :=
  (hB.symbol s hs same k).settle nofun

theorem agree_word {s : String} (hs : s ∈ Pairing.words) :
    Agree B same bare k (keyword s) (keyword s) :=
  (hB.word s hs same k).settle nofun

theorem agree_name : Agree B same bare k name name := (hB.name same k).settle nofun

namespace Agree

variable {p q : Parser α}

theorem spaced (h : Agree B same True k p q) :
    Agree B same bare k (Parser.spaced p) (Parser.spaced q) := by
  intro c d hl _ hc
  have hlen := length_le_of_reaches (advances_layout c () _ rfl)
  obtain ⟨hl', hsettled⟩ := hB.layout hl
  exact rel_imp (h _ _ hl' (fun _ => hsettled) (Nat.lt_of_le_of_lt hlen hc)) fun _ _ h =>
    ⟨h.1, Nat.le_trans h.2 hlen⟩

theorem parens (h : Agree B same True k p q) :
    Agree B same bare (k + 1) (Parser.parens p) (Parser.parens q) :=
  (agree_symbol hB (by decide)).nextSeq (consumes_symbol (by decide)) <| (h.spaced hB).bind
    fun _ _ => ((agree_symbol hB (by decide)).spaced hB).seq (agree_pure fun hs => hs.2)

theorem commaList (h : ∀ s, Agree B s True k p q) (hp : Advances p) (hn : k ≤ n) (hm : k ≤ m) :
    Agree B same True k (Parser.commaList p n) (Parser.commaList q m) := by
  have hcomma : Consumes (Parser.spaced (symbol ",") *> Parser.spaced p) :=
    .seqRight (.spaced (consumes_symbol (by decide))) hp.spaced
  have hitem (s : Prop) : Agree B s False k (Parser.spaced (symbol ",") *> Parser.spaced p)
      (Parser.spaced (symbol ",") *> Parser.spaced q) :=
    ((agree_symbol hB (by decide)).spaced hB).seqRight ((h s).spaced hB)
  exact (h same).bind fun _ _ => (many hitem hcomma hn hm).bind fun _ _ =>
    agree_pure fun ⟨⟨_, hfirst⟩, hrest⟩ => by rw [hfirst, hrest]

end Agree

theorem agree_theWord {s : String} (hs : s ∈ Pairing.words) :
    Agree B same bare k (theWord s) (theWord s) :=
  (agree_word hB hs).seq (agree_pure fun _ => rfl)

theorem agree_oneWordOf {words : List String} (hw : ∀ s ∈ words, s ∈ Pairing.words) :
    Agree B same bare k (oneWordOf words) (oneWordOf words) := by
  refine .firstOf fun p hp => ?_
  obtain ⟨s, hs, rfl⟩ := List.mem_map.mp hp
  exact agree_theWord hB (hw s hs)

theorem agree_declarator : Agree B same bare k declarator declarator := by
  have hmark (s : String) (hs : s ∈ Pairing.symbols) (same : Prop) :
      Agree B same False k (symbol s *> pure s) (symbol s *> pure s) :=
    (agree_symbol hB hs).seqRight (agree_pure fun _ => rfl)
  refine ((hB.blanks _ (fun _ => id) same k).settle nofun).bind fun _ _ => Agree.bind
    ((hmark "*" (by decide) _).first (hmark "&" (by decide) _).last) fun _ _ =>
      agree_pure fun ⟨⟨_, hblanks⟩, hmark⟩ => ?_
  rw [hblanks, hmark]

theorem agree_typeName (hn : k ≤ n) (hm : k ≤ m) :
    Agree B same bare k (typeName n) (typeName m) := by
  have hblank (s : String) (hs : s ∈ ["const", "unsigned", "signed"]) (same : Prop) :
      Agree B same False k (wordAndBlank s) (wordAndBlank s) := hB.wordAndBlank s hs same k
  have hbase (same : Prop) : Agree B same False k (oneWordOf baseTypes) (oneWordOf baseTypes) :=
    agree_oneWordOf hB (by decide)
  have hsigned (same : Prop) := ((hblank "unsigned" (by decide) same).first
    (hblank "signed" (by decide) same).last).bind fun sign sign' => (hbase _).bind
      fun base base' => agree_pure (a := sign ++ base) (b := sign' ++ base')
        fun ⟨⟨_, hsign⟩, hbase⟩ => by rw [hsign, hbase]
  refine (((hblank "const" (by decide) same).maybe).settle nofun).bind fun const const' =>
    Agree.bind ((hsigned _).first (hbase _).last) fun base base' =>
      (Agree.many (fun _ => agree_declarator hB) consumes_declarator hn hm).bind fun marks marks' =>
        agree_pure fun ⟨⟨⟨_, hconst⟩, hbase⟩, hmarks⟩ => ?_
  rw [hconst, hbase, hmarks]

theorem agree_frontOp : Agree B same bare k frontOp frontOp := by
  have hs (s : String) (hs : s ∈ Pairing.symbols) (op : UnaryOp) :
      Agree B same bare k (symbol s *> pure op) (symbol s *> pure op) :=
    (agree_symbol hB hs).seqRight (agree_pure fun _ => rfl)
  have hb (s : String) (hs : s ∈ Pairing.marks) (hslash : '/' ∉ s.toList) (op : UnaryOp) :
      Agree B same bare k (symbolNotBefore s ['='] *> pure op)
        (symbolNotBefore s ['='] *> pure op) :=
    ((hB.mark s hs ['='] (fun h => absurd (h ▸ by decide) hslash) same k).settle
      fun h => absurd h hslash).seqRight (agree_pure fun _ => rfl)
  exact (hs "++" (by decide) _).first <| (hs "--" (by decide) _).first <|
    (hb "-" (by decide) (by decide) _).first <| (hb "+" (by decide) (by decide) _).first <|
    (hb "!" (by decide) (by decide) _).first (hb "~" (by decide) (by decide) _).last

theorem agree_binaryOp (level : List (BinaryOp × List Char)) :
    Agree B same True k (binaryOp (uncommented level)) (binaryOp (uncommented level)) := by
  refine .firstOf fun p hp => ?_
  obtain ⟨y, hy, rfl⟩ := List.mem_map.mp hp
  obtain ⟨⟨op, bad⟩, _, rfl⟩ := List.mem_map.mp hy
  have hop : op.symbol ∈ Pairing.marks ∧ (op.symbol = "/" → op = .div) := by cases op <;> decide
  have hstar (h : op.symbol = "/") : '*' ∈ if op = .div then '*' :: bad else bad := by
    simp [hop.2 h]
  exact ((hB.mark _ hop.1 _ hstar same k).settle fun _ => trivial).seqRight
    (agree_pure fun _ => rfl)

theorem agree_assignOp : Agree B same True k assignOp assignOp := by
  have hall : ∀ s ∈ assignSymbols, s ∈ Pairing.marks ∧ s ≠ "/" := by decide
  refine .firstOf fun p hp => ?_
  obtain ⟨s, hs, rfl⟩ := List.mem_map.mp hp
  obtain ⟨hmark, hne⟩ := hall s hs
  exact ((hB.mark s hmark ['='] (fun h => absurd h hne) same k).settle fun _ => trivial).seqRight
    (agree_pure fun _ => rfl)

theorem agree_boolWord : Agree B same bare k boolWord boolWord :=
  ((agree_theWord hB (by decide)).seqRight (agree_pure fun _ => rfl)).first
    ((agree_theWord hB (by decide)).seqRight (agree_pure fun _ => rfl)).last

section Expr

variable {inner inner' : Parser Expr} (h : ∀ s, Agree B s False k inner inner')
  (ha : Advances inner) (hn : k < n) (hm : k < m)
include h

theorem agree_primary : Agree B same bare (k + 1) (primary inner) (primary inner') := by
  refine agree_here.bind fun start start' => ?_
  have hname := (hB.name (same ∧ start = start') (k + 1)).bind fun a b =>
    agree_pure (a := Expr.name a .runtime start) (b := .name b .runtime start')
      fun ⟨⟨_, hstart⟩, hab⟩ => by rw [hab, hstart]
  have hparen := (Agree.parens hB ((h (same ∧ start = start')).settle nofun) :
    Agree B _ False _ _ _).bind fun a b => agree_pure (a := Expr.paren a start) (b := .paren b start')
      fun ⟨⟨_, hstart⟩, hab⟩ => by rw [hab, hstart]
  have hbool := (agree_boolWord hB : Agree B (same ∧ start = start') False (k + 1) _ _).bind
    fun a b => agree_pure (a := Expr.int a.1 a.2 start)
      (b := .int b.1 b.2 start') fun ⟨⟨_, hstart⟩, hab⟩ => by rw [hab, hstart]
  have hstring := (hB.stringLiteral (same ∧ start = start') (k + 1)).bind fun a b =>
    agree_pure (a := Expr.string a start) (b := .string b start')
      fun ⟨⟨_, hstart⟩, hab⟩ => by rw [hab, hstart]
  have hnumber := (hB.number (same ∧ start = start') (k + 1)).bind fun a b =>
    agree_pure (a := Expr.int a.1 a.2 start) (b := .int b.1 b.2 start')
      fun ⟨⟨_, hstart⟩, hab⟩ => by rw [hab, hstart]
  exact hnumber.first <| hstring.first <| hbool.first <| hparen.first hname.last

include ha hn hm

theorem agree_arguments : Agree B same bare (k + 1) (arguments n inner) (arguments m inner') :=
  Agree.parens hB ((Agree.commaList hB (fun s => (h s).settle nofun) ha (Nat.le_of_lt hn)
    (Nat.le_of_lt hm)).default [])

theorem agree_postfixOp : Agree B same bare (k + 1) (postfixOp n inner) (postfixOp m inner') := by
  have hstep (s : String) (hs : s ∈ Pairing.symbols) (op : UnaryOp) :
      Agree B same bare (k + 1) (symbol s *> pure (PostfixOp.step op))
        (symbol s *> pure (PostfixOp.step op)) :=
    (agree_symbol hB hs).seqRight (agree_pure fun _ => rfl)
  have hcall := (agree_arguments hB h ha hn hm : Agree B same bare _ _ _).bind fun a b =>
    agree_pure (a := PostfixOp.call a) (b := .call b) fun hs => by rw [hs.2]
  exact hcall.first <| (hstep "++" (by decide) _).first (hstep "--" (by decide) _).last

theorem agree_unary : Agree B same bare (k + 1) (unary n inner) (unary m inner') := by
  have hfront (s : Prop) := (agree_here : Agree B s False (k + 1) _ _).bind fun start start' =>
    (agree_frontOp hB).bind fun op op' => (agree_layout hB).seq <|
      agree_pure (a := (op, start)) (b := (op', start')) fun ⟨⟨_, hstart⟩, hop⟩ => by
        rw [hop, hstart]
  have hcons : Consumes (do
      let start ← here
      let op ← frontOp
      layout
      return (op, start)) :=
    advances_here.bind_consumes fun _ => consumes_frontOp.bind fun _ =>
      advances_layout.bind fun _ => advances_pure _
  have hop (s : Prop) : Agree B s False (k + 1) (Parser.spaced (postfixOp n inner))
      (Parser.spaced (postfixOp m inner')) := (agree_postfixOp hB h ha hn hm).spaced hB
  have hops (s : Prop) : Agree B s False (k + 1) (many (spaced (postfixOp n inner)) n)
      (many (spaced (postfixOp m inner')) m) := Agree.many hop (consumes_postfixOp ha).spaced hn hm
  refine (Agree.many hfront hcons hn hm).bind fun fronts fronts' => Agree.bind ?_ fun _ _ =>
    agree_pure fun ⟨⟨_, hfronts⟩, hab⟩ => by rw [hfronts, hab]
  exact agree_here.bind fun start start' => (agree_primary hB h).bind fun operand operand' =>
    (hops _).bind fun ops ops' => agree_pure fun ⟨⟨⟨_, hstart⟩, hoperand⟩, hops⟩ => by
      rw [hstart, hoperand, hops]

theorem agree_chainFrom (levels : List (List (BinaryOp × List Char))) :
    ∀ {same : Prop} {start start' first first'}, (same → start = start') →
      (same → first = first') → Agree B same False (k + 1) (chainFrom n inner start first levels)
        (chainFrom m inner' start' first' levels) := by
  induction levels with
  | nil => exact fun _ hfirst => agree_pure hfirst
  | cons level tighter ih =>
    intro same start start' first first' hstart hfirst
    have hround (s : Prop) := (Agree.spaced hB (agree_binaryOp hB level) :
      Agree B s False (k + 1) _ _).bind fun op op' =>
        (agree_layout hB).seq <| agree_here.bind fun loc loc' =>
          (agree_unary hB h ha hn hm).bind fun operand operand' =>
            (ih (fun hs => hs.1.2) (fun hs => hs.2)).bind fun rhs rhs' =>
              agree_pure (a := (op, rhs)) (b := (op', rhs'))
                fun ⟨⟨⟨⟨_, hop⟩, _⟩, _⟩, hrhs⟩ => by rw [hop, hrhs]
    have hcons : Consumes (do
        let op ← spaced (binaryOp (uncommented level))
        layout
        let loc ← here
        let operand ← unary n inner
        let rhs ← chainFrom n inner loc operand tighter
        return (op, rhs)) :=
      (consumes_binaryOp (uncommented level)).spaced.bind fun _ => advances_layout.bind fun _ =>
        advances_here.bind fun loc => (advances_unary ha).bind fun operand =>
          (advances_chainFrom ha tighter loc operand).bind fun _ => advances_pure _
    rw [chainFrom_cons, chainFrom_cons]
    exact (ih hstart hfirst).bind fun lhs lhs' => (Agree.many hround hcons hn hm).bind
      fun rest rest' => agree_pure fun ⟨⟨hs, hlhs⟩, hrest⟩ => by rw [hstart hs, hlhs, hrest]

theorem agree_conditionalFrom {start start' : Loc} {first first' : Expr}
    (hstart : same → start = start') (hfirst : same → first = first') :
    Agree B same False (k + 1) (conditionalFrom n inner start first)
      (conditionalFrom m inner' start' first') := by
  have hinner (s : Prop) : Agree B s False k (spaced inner) (spaced inner') :=
    ((h s).settle nofun).spaced hB
  have hround (s : Prop) := (Agree.spaced hB (agree_symbol hB (s := "?") (by decide)) :
    Agree B s False (k + 1) _ _).nextSeq
      (.spaced (consumes_symbol (by decide))) <| (hinner s).bind fun yes yes' =>
        (Agree.spaced hB (agree_symbol hB (s := ":") (by decide))).seq <|
          (agree_layout hB).seq <| agree_here.bind fun loc loc' =>
            ((agree_unary hB h ha hn hm).mono (Nat.le_succ k)).bind fun operand operand' =>
              ((agree_chainFrom hB h ha hn hm binaryLevels (fun hs => hs.1.2)
                fun hs => hs.2).mono (Nat.le_succ k)).bind fun next next' =>
                  agree_pure (a := (yes, next, loc)) (b := (yes', next', loc'))
                    fun ⟨⟨⟨⟨_, hyes⟩, hloc⟩, _⟩, hnext⟩ => by rw [hyes, hnext, hloc]
  have hcons : Consumes (do
      spaced (symbol "?")
      let yes ← spaced inner
      spaced (symbol ":")
      layout
      let loc ← here
      let operand ← unary n inner
      let next ← chainFrom n inner loc operand binaryLevels
      return (yes, next, loc)) :=
    (Consumes.spaced (consumes_symbol (by decide))).bind fun _ => ha.spaced.bind fun _ =>
      (advances_symbol _).spaced.bind fun _ => advances_layout.bind fun _ =>
        advances_here.bind fun loc => (advances_unary ha).bind fun operand =>
          (advances_chainFrom ha binaryLevels loc operand).bind fun _ => advances_pure _
  exact (agree_chainFrom hB h ha hn hm binaryLevels hstart hfirst).bind fun cond cond' =>
    (Agree.many hround hcons hn hm).bind fun arms arms' =>
      agree_pure fun ⟨⟨hs, hcond⟩, harms⟩ => by rw [hstart hs, hcond, harms]

omit ha hn hm in
theorem agree_assignFrom {start start' : Loc} {target target' : Expr}
    (hstart : same → start = start') (htarget : same → target = target') :
    Agree B same False (k + 1) (assignFrom inner start target)
      (assignFrom inner' start' target') :=
  (Agree.spaced hB (agree_assignOp hB)).next consumes_assignOp.spaced fun _ _ =>
    (Agree.spaced hB ((h _).settle nofun)).bind fun _ _ =>
      agree_pure fun ⟨⟨hs, hop⟩, hvalue⟩ => by rw [hop, htarget hs, hvalue, hstart hs]

theorem agree_exprWith : Agree B same False (k + 1) (exprWith n inner) (exprWith m inner') :=
  agree_here.bind fun _ _ => (agree_unary hB h ha hn hm).bind fun _ _ =>
    (agree_assignFrom hB h (fun hs => hs.1.2) fun hs => hs.2).orElse
      (agree_conditionalFrom hB h ha hn hm (fun hs => hs.1.2) fun hs => hs.2)

end Expr

theorem agree_expr (hn : k ≤ n) (hm : k ≤ m) : Agree B same bare k (expr n) (expr m) := by
  suffices h : ∀ s, Agree B s False k (expr n) (expr m) from (h same).settle nofun
  induction k generalizing n m with
  | zero => exact fun _ c _ _ _ hc => absurd hc (Nat.not_lt_zero _)
  | succ k ih =>
    obtain ⟨n, rfl⟩ := Nat.exists_eq_add_of_le' (Nat.le_trans (Nat.le_add_left 1 k) hn)
    obtain ⟨m, rfl⟩ := Nat.exists_eq_add_of_le' (Nat.le_trans (Nat.le_add_left 1 k) hm)
    have hinner := ih (Nat.le_of_succ_le_succ hn) (Nat.le_of_succ_le_succ hm)
    exact fun _ => agree_exprWith hB hinner (advances_expr n) hn hm

def openOption (inner : Parser Expr) : Parser (Loc × String × Option Expr × Loc) := do
  let _ ← run Text.isInlineBlank
  let start ← here
  let option ← name
  let _ ← run Text.isInlineBlank
  symbol "("
  let value ← spaced (maybe inner)
  layout
  let close ← here
  return (start, option, value, close)

omit hB in
theorem loopOption_eq (inner : Parser Expr) : loopOption inner = (do
    let (start, option, value, close) ← openOption inner
    symbol ")"
    let stop ← here
    return .ofLoopOption ⟨start, stop⟩ option value close) := by
  simp only [loopOption, openOption, bind_assoc, pure_bind]

section Specifier

variable {inner inner' : Parser Expr} (h : ∀ s, Agree B s False k inner inner')
  (ha : Advances inner) (hn : k < n) (hm : k < m)

theorem agree_scopedName : Agree B same bare k scopedName scopedName :=
  (agree_name hB).bind fun _ _ => Agree.orElse
    ((Agree.spaced hB (agree_symbol hB (by decide))).seq <|
      (Agree.spaced hB (agree_name hB)).bind fun _ _ =>
        agree_pure fun ⟨⟨_, hfirst⟩, hsecond⟩ => by rw [hfirst, hsecond])
    (agree_pure fun hs => by rw [hs.2])

omit hB in
theorem Agree.specifier {p q : Parser (List RawAttr)} (h : ∀ s, Agree B s False k p q) :
    Agree B same bare k (Parser.specifier p) (Parser.specifier q) :=
  agree_here.bind fun _ _ => (h _).bind fun _ _ => agree_here.bind fun _ _ =>
    agree_pure fun ⟨⟨⟨_, hstart⟩, hattrs⟩, hstop⟩ => by rw [hstart, hattrs, hstop]

include h

theorem agree_openOption : Agree B same bare k (openOption inner) (openOption inner') := by
  have hvalue (s : Prop) : Agree B s False k (spaced (maybe inner)) (spaced (maybe inner')) :=
    Agree.spaced hB ((h s).settle nofun).maybe
  have hblanks (s bare : Prop) :
      Agree B s bare k (run Text.isInlineBlank) (run Text.isInlineBlank) :=
    (hB.blanks _ (fun _ => Text.isBlank_of_isInlineBlank) s k).settle nofun
  exact (hblanks _ _).seq <| agree_here.bind fun _ _ => (agree_name hB).bind fun _ _ =>
    (hblanks _ _).seq <| (agree_symbol hB (s := "(") (by decide)).seq <|
      (hvalue _).bind fun _ _ => (agree_layout hB).seq <| agree_here.bind fun _ _ => agree_pure
        fun ⟨⟨⟨⟨_, hstart⟩, hoption⟩, hvalue⟩, hclose⟩ => by
          rw [hstart, hoption, hvalue, hclose]

theorem agree_loopOption : Agree B same bare k (loopOption inner) (loopOption inner') := by
  rw [loopOption_eq, loopOption_eq]
  exact (agree_openOption hB h).bind fun _ _ => (agree_symbol hB (s := ")") (by decide)).seq <|
    agree_here.bind fun _ _ => agree_pure fun ⟨⟨_, hopen⟩, hstop⟩ => by rw [hopen, hstop]

include ha hn hm

theorem agree_attributeWith (sp : Spelling) {named : Parser (Option String × String)}
    (hnamed : ∀ s, Agree B s False (k + 1) named named) :
    Agree B same bare (k + 1) (attributeWith n inner sp named)
      (attributeWith m inner' sp named) :=
  agree_here.bind fun _ _ => (hnamed _).bind fun _ _ =>
    ((Agree.spaced hB (agree_arguments hB h ha hn hm)).default []).bind fun _ _ =>
      agree_here.bind fun _ _ => agree_pure fun ⟨⟨⟨⟨_, hstart⟩, hname⟩, hargs⟩, hstop⟩ => by
        rw [hstart, hname, hargs, hstop]

theorem agree_attributeList (sp : Spelling) :
    Agree B same True (k + 1) (attributeList n inner sp) (attributeList m inner' sp) := by
  have hitem (s : Prop) : Agree B s True (k + 1) (attributeWith n inner sp scopedName)
      (attributeWith m inner' sp scopedName) :=
    agree_attributeWith hB h ha hn hm sp fun _ => agree_scopedName hB
  exact (Agree.commaList hB hitem (consumes_attributeWith ha sp consumes_scopedName).advances hn
    hm).default []

theorem agree_declspecList :
    Agree B same True (k + 1) (declspecList n inner) (declspecList m inner') := by
  have hnamed (s : Prop) := (hB.name s (k + 1)).bind fun a b =>
    agree_pure (a := ((none : Option String), a)) (b := (none, b)) fun hs => by rw [hs.2]
  have hentry (s bare : Prop) : Agree B s bare (k + 1) (declspecEntry n inner)
      (declspecEntry m inner') := agree_attributeWith hB h ha hn hm _ hnamed
  have hmore (s : Prop) : Agree B s False (k + 1) (spaced (declspecEntry n inner))
      (spaced (declspecEntry m inner')) := Agree.spaced hB (hentry s True)
  exact Agree.default ((hentry same True).bind fun _ _ =>
    (Agree.many hmore (consumes_declspecEntry ha).spaced hn hm).bind fun _ _ =>
      agree_pure fun ⟨⟨_, hfirst⟩, hrest⟩ => by rw [hfirst, hrest]) []

theorem agree_bracketSpecifier :
    Agree B same bare (k + 1) (bracketSpecifier n inner) (bracketSpecifier m inner') :=
  .specifier fun _ => (agree_symbol hB (by decide)).seq <|
    (Agree.spaced hB (agree_attributeList hB h ha hn hm _)).bind fun _ _ =>
      (Agree.spaced hB (agree_symbol hB (by decide))).seq (agree_pure fun hs => hs.2)

theorem agree_gnuSpecifier :
    Agree B same bare (k + 1) (gnuSpecifier n inner) (gnuSpecifier m inner') :=
  .specifier fun _ => (agree_word hB (by decide)).seq <| Agree.spaced hB <| .mono
    (.parens hB (.parens hB (agree_attributeList hB h ha hn hm _))) (Nat.le_add_right _ 2)

theorem agree_declspecSpecifier :
    Agree B same bare (k + 1) (declspecSpecifier n inner) (declspecSpecifier m inner') :=
  .specifier fun _ => (agree_word hB (by decide)).seq <| Agree.spaced hB <| .mono
    (.parens hB (agree_declspecList hB h ha hn hm)) (Nat.le_succ _)

end Specifier

section Head

variable (hn : k ≤ n) (hm : k ≤ m)
include hn hm

theorem agree_spacedExpr : Agree B same bare k (spacedExpr n) (spacedExpr m) :=
  Agree.spaced hB (agree_expr hB hn hm)

theorem agree_condition : Agree B same bare k (condition n) (condition m) :=
  Agree.spaced hB ((Agree.parens hB (agree_expr hB hn hm)).mono (Nat.le_succ k))

theorem agree_initializer : Agree B same bare k (initializer n) (initializer m) :=
  ((hB.mark "=" (by decide) ['='] (by decide) same k).settle fun h => absurd h (by decide)).seq <|
    (agree_spacedExpr hB hn hm).bind fun _ _ => (agree_layout hB).seq
      (agree_pure fun hs => hs.2)

end Head

end Parser

end AttrCheck
