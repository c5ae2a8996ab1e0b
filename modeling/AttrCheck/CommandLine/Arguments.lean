import AttrCheck.Text.Digit

/-!
Options and operands on a command line. An option may be written by a unique beginning of its long
name, with its value behind an equals sign, or, if its name is short, with the value right behind
it. Behind a separator `--` there are operands only, and a separator is never a value.
-/

namespace AttrCheck.CommandLine

inductive Stop where
  | usage | help | version
deriving DecidableEq

inductive Arity where
  | none | one | some
deriving DecidableEq

structure Opt (σ : Type) where
  names : List String
  arity : Arity
  act : List String → σ → Except Stop σ

inductive Mark (σ : Type) where
  | separator
  | operand
  /-- An option, unless its name is not known, with a value written in the same word. -/
  | option (known : Option (Opt σ)) (value : Option String)

variable {σ : Type}

def Opt.hasName (name : String) (o : Opt σ) : Bool := o.names.contains name

def splitValue (word : String) : String × Option String :=
  let cs := word.toList
  let name := String.ofList (cs.takeWhile (· ≠ '='))
  match cs.dropWhile (· ≠ '=') with
  | [] => (name, none)
  | _ :: value => (name, some (String.ofList value))

def isDecimal (c : Char) : Bool := (Text.digit? c).isSome

def isUnsigned (cs : List Char) : Bool :=
  match cs.dropWhile isDecimal with
  | [] => !cs.isEmpty
  | '.' :: ds => !ds.isEmpty && ds.all isDecimal
  | _ => false

/-- Whether a word writes a negative number, which may end in a line break. -/
def isNegativeNumber (word : String) : Bool :=
  match word.toList with
  | '-' :: cs => isUnsigned cs || cs.getLast? = some '\n' && isUnsigned cs.dropLast
  | _ => false

def longMatches (opts : List (Opt σ)) (word : String) : List (Opt σ × Option String) :=
  let (name, value) := splitValue word
  opts.flatMap fun o =>
    (o.names.filter fun n => name.toList.isPrefixOf n.toList).map fun _ => (o, value)

def shortMatches (opts : List (Opt σ)) (word : String) : List (Opt σ × Option String) :=
  let name := String.ofList (word.toList.take 2)
  opts.flatMap fun o => o.names.filterMap fun n =>
    if n = name then some (o, some (String.ofList (word.toList.drop 2)))
    else if word.toList.isPrefixOf n.toList then some (o, none)
    else none

def mark? (opts : List (Opt σ)) (word : String) : Option (Mark σ) :=
  match word.toList with
  | '-' :: c :: _ =>
    match opts.find? (Opt.hasName word) with
    | some o => some (.option (some o) none)
    | none =>
      let (name, value) := splitValue word
      match value, opts.find? (Opt.hasName name) with
      | some v, some o => some (.option (some o) (some v))
      | _, _ =>
        match if c = '-' then longMatches opts word else shortMatches opts word with
        | [(o, v)] => some (.option (some o) v)
        | _ :: _ :: _ => none
        | [] =>
          if isNegativeNumber word || word.contains ' ' then some .operand
          else some (.option none none)
  | _ => some .operand

def markAll (opts : List (Opt σ)) : List String → Except Stop (List (String × Mark σ))
  | [] => .ok []
  | word :: words =>
    if word = "--" then .ok ((word, .separator) :: words.map (·, .operand))
    else
      match mark? opts word with
      | none => .error .usage
      | some m => do return (word, m) :: (← markAll opts words)

/-- Splits what stands in a word behind a short option without a value into more short options:
those in front, the last one, and what is left of the word as its value. -/
def unfoldShort (opts : List (Opt σ)) (o : Opt σ) (before : List (Opt σ)) :
    List Char → Except Stop (List (Opt σ) × Opt σ × Option String)
  | [] => .error .usage
  | c :: cs =>
    match opts.find? (Opt.hasName (String.ofList ['-', c])) with
    | none => .error .usage
    | some next =>
      if cs.isEmpty then .ok (before ++ [o], next, none)
      else if next.arity ≠ .none then .ok (before ++ [o], next, some (String.ofList cs))
      else unfoldShort opts next (before ++ [o]) cs

/-- An option whose values are being read, with those that came. The options written before it in
the same word wait for it. -/
structure Pending (σ : Type) where
  before : List (Opt σ)
  opt : Opt σ
  values : List String

structure Scan (σ : Type) where
  settings : σ
  /-- The one operand that is asked for, if it is asked for and has come. -/
  operand : Option String
  takesOperand : Bool
  /-- Whether the word before was that operand. -/
  isBehindOperand : Bool
  hasExtra : Bool
  pending : Option (Pending σ)

namespace Scan

def initial (settings : σ) (takesOperand : Bool) : Scan σ :=
  ⟨settings, none, takesOperand, false, false, none⟩

def apply (s : Scan σ) (o : Opt σ) (values : List String) : Except Stop (Scan σ) := do
  return { s with settings := ← o.act values s.settings, pending := none }

def settle (s : Scan σ) (p : Pending σ) : Except Stop (Scan σ) := do
  let s ← p.before.foldlM (fun s o => s.apply o []) s
  s.apply p.opt p.values

def flush (s : Scan σ) : Except Stop (Scan σ) :=
  match s.pending with
  | none => .ok s
  | some p => if p.values.isEmpty then .error .usage else s.settle p

def takeOperand (s : Scan σ) (word : String) : Except Stop (Scan σ) :=
  match s.pending with
  | some p =>
    let p := { p with values := p.values ++ [word] }
    if p.opt.arity = .one then s.settle p
    else .ok { s with pending := some p, isBehindOperand := false }
  | none =>
    if s.takesOperand && s.operand.isNone then
      .ok { s with operand := some word, isBehindOperand := true }
    else .ok { s with hasExtra := true, isBehindOperand := false }

def takeSeparator (s : Scan σ) : Except Stop (Scan σ) := do
  let s ← s.flush
  let belongs := s.takesOperand && (s.operand.isNone || s.isBehindOperand)
  return { s with hasExtra := s.hasExtra || !belongs, isBehindOperand := false }

def begin (s : Scan σ) (before : List (Opt σ)) (o : Opt σ) (value : Option String) :
    Except Stop (Scan σ) :=
  match value with
  | some v => s.settle ⟨before, o, if v = "--" then [] else [v]⟩
  | none =>
    if o.arity = .none then s.settle ⟨before, o, []⟩
    else .ok { s with pending := some ⟨before, o, []⟩ }

def takeOption (opts : List (Opt σ)) (s : Scan σ) (word : String) (o : Opt σ)
    (value : Option String) : Except Stop (Scan σ) := do
  let s ← s.flush
  let s := { s with isBehindOperand := false }
  match value with
  | none => s.begin [] o none
  | some v =>
    if o.arity ≠ .none then s.begin [] o value
    else if word.startsWith "--" then .error .usage
    else
      let (before, last, rest) ← unfoldShort opts o [] v.toList
      s.begin before last rest

def step (opts : List (Opt σ)) (s : Scan σ) : String × Mark σ → Except Stop (Scan σ)
  | (_, .separator) => s.takeSeparator
  | (word, .operand) => s.takeOperand word
  | (word, .option (some o) value) => s.takeOption opts word o value
  | (_, .option none _) => do
    let s ← s.flush
    return { s with hasExtra := true, isBehindOperand := false }

def read (opts : List (Opt σ)) (settings : σ) (takesOperand : Bool) (words : List String) :
    Except Stop (σ × Option String) := do
  let marked ← markAll opts words
  let s ← marked.foldlM (step opts) (initial settings takesOperand)
  let s ← s.flush
  if s.hasExtra || (takesOperand && s.operand.isNone) then .error .usage
  else return (s.settings, s.operand)

end Scan

def readFront (opts : List (Opt σ)) (settings : σ) (hasExtra : Bool) :
    List (String × Mark σ) → Except Stop (σ × Bool × String × List String)
  | [] | (_, .separator) :: _ => .error .usage
  | (word, .operand) :: rest => .ok (settings, hasExtra, word, rest.map (·.1))
  | (_, .option none _) :: rest => readFront opts settings true rest
  | (word, .option (some o) value) :: rest => do
    let s ← (Scan.initial settings false).takeOption opts word o value
    let s ← s.flush
    readFront opts s.settings hasExtra rest

end AttrCheck.CommandLine
