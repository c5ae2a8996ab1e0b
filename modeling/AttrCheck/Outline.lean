import AttrCheck.Stmt
import AttrCheck.Text.Quoted

/-!
Outlines: trees of records with named fields, the same for nodes of every class. They show a tree
as text, and they hold trees that are not well formed, where a part is missing or of a wrong class.
-/

namespace AttrCheck

inductive NodeClass where
  | int | string | name | paren | unary | binary | conditional | call | assign
  | stmt (kind : StmtKind)
  | function | unit | ident | rawAttr | fallthrough | hint
deriving DecidableEq

inductive FieldKind where
  | loc | range | integer | optInteger | text | optText | flag
  | unaryOp | binaryOp | option | attrKind | spelling
  | node | nodes | texts
deriving DecidableEq

inductive Outline where
  | absent
  | text (s : String)
  | int (n : Int)
  | flag (b : Bool)
  | unaryOp (op : UnaryOp)
  | binaryOp (op : BinaryOp)
  | option (o : HintOption)
  | attrKind (k : AttrKind)
  | spelling (s : Spelling)
  | loc (l : Loc)
  | range (r : Range)
  | seq (items : List Outline)
  | record (c : NodeClass) (values : List Outline)

structure NodeField where
  name : String
  kind : FieldKind
  /-- What a record holds that was given no value; such fields may be left out. -/
  fallback : Option Outline := none
  /-- Whether the text of a record shows the field. -/
  isShown : Bool := true

namespace NodeField

def place : NodeField := ⟨"loc", .loc, some (.loc Loc.unknown), false⟩

def node (name : String) : NodeField := { name, kind := .node }

def optNode (name : String) : NodeField := { name, kind := .node, fallback := some .absent }

def nodes (name : String) : NodeField := { name, kind := .nodes, fallback := some (.seq []) }

def text (name : String) : NodeField := { name, kind := .text }

def textOr (name fallback : String) : NodeField :=
  { name, kind := .text, fallback := some (.text fallback) }

def flag (name : String) : NodeField := { name, kind := .flag, fallback := some (.flag false) }

def extent (isShown : Bool) : NodeField :=
  { name := "source_range", kind := .range, fallback := some (.range Range.unknown), isShown }

end NodeField

namespace NodeClass

def all : List NodeClass :=
  [int, string, name, paren, unary, binary, conditional, call, assign] ++
    StmtKind.all.map stmt ++ [function, unit, ident, rawAttr, fallthrough, hint]

def className : NodeClass → String
  | int => "IntegerLiteral"
  | string => "StringLiteral"
  | name => "DeclRefExpr"
  | paren => "ParenExpr"
  | unary => "UnaryOperator"
  | binary => "BinaryOperator"
  | conditional => "ConditionalOperator"
  | call => "CallExpr"
  | assign => "AssignExpr"
  | stmt kind => kind.className
  | function => "FunctionDecl"
  | unit => "TranslationUnit"
  | ident => "IdentifierLoc"
  | rawAttr => "RawAttribute"
  | fallthrough => "FallThroughAttr"
  | hint => "LoopHintAttr"

def ofName? (s : String) : Option NodeClass := all.find? (·.className = s)

open NodeField in
def fields : NodeClass → List NodeField
  | int => [{ name := "value", kind := .integer }, textOr "text" "", place]
  | string => [text "value", place]
  | name =>
    [text "name", { name := "constant", kind := .optInteger, fallback := some .absent },
      flag "is_template_param", place]
  | paren => [node "inner", place]
  | unary => [{ name := "op", kind := .unaryOp }, node "operand", place]
  | binary => [{ name := "op", kind := .binaryOp }, node "lhs", node "rhs", place]
  | conditional => [node "cond", node "then_expr", node "else_expr", place]
  | call => [node "callee", nodes "args", place]
  | assign => [text "op", node "target", node "value", place]
  | stmt .null | stmt .brk | stmt .cont => [place]
  | stmt .compound => [nodes "body", place]
  | stmt .expr => [node "expr", place]
  | stmt .decl =>
    [text "name", textOr "type_name" "int", optNode "init", flag "is_const", place]
  | stmt .ret => [optNode "value", place]
  | stmt .ifElse => [node "cond", node "then_stmt", optNode "else_stmt", place]
  | stmt .switch | stmt .whileLoop => [node "cond", node "body", place]
  | stmt .caseLabel => [node "value", node "sub_stmt", place]
  | stmt .defaultLabel => [node "sub_stmt", place]
  | stmt .forLoop => [node "init", node "cond", node "inc", node "body", place]
  | stmt .rangeFor =>
    [text "var_name", node "range_expr", node "body", textOr "type_name" "auto", place]
  | stmt .doWhile => [node "body", node "cond", place]
  | stmt .attributed | stmt .annotated =>
    [{ name := "attrs", kind := .nodes }, node "sub_stmt", extent true, place]
  | function =>
    [text "name", node "body", { name := "params", kind := .texts, fallback := some (.seq []) },
      { name := "template_params", kind := .texts, fallback := some (.seq []) },
      textOr "return_type" "void", place]
  | unit => [nodes "functions", nodes "globals", textOr "file" "<unknown>"]
  | ident =>
    [{ name := "loc", kind := .loc },
      { name := "ident", kind := .optText, fallback := some .absent }]
  | rawAttr =>
    [text "name", { name := "kind", kind := .attrKind }, { name := "syntax", kind := .spelling },
      extent true, nodes "args", { name := "scope", kind := .optText, fallback := some .absent }]
  | fallthrough => [extent false]
  | hint =>
    [{ name := "option", kind := .option }, { name := "value", kind := .integer }, extent false]

end NodeClass

namespace Outline

def memberText (type label value : String) : String := s!"<{type}.{label}: {value}>"

def ordinalText {α : Type} [BEq α] (all : List α) (a : α) : String :=
  toString (all.idxOf a + 1)

def callText (name : String) (arguments : List String) : String :=
  name ++ "(" ++ String.intercalate ", " arguments ++ ")"

def locText (l : Loc) : String :=
  callText "SourceLoc" [s!"file={Text.recordQuote l.file}", s!"line={l.line}", s!"col={l.col}"]

def tupleText : List String → String
  | [] => "()"
  | [item] => "(" ++ item ++ ",)"
  | items => "(" ++ String.intercalate ", " items ++ ")"

def shownFields (fields : List NodeField) (texts : List String) : List String :=
  ((fields.zip texts).filter (·.1.isShown)).map fun p => p.1.name ++ "=" ++ p.2

def shownNumbers (fields : List NodeField) (numbers : List (List Int)) : List Int :=
  ((fields.zip numbers).filter (·.1.isShown)).flatMap (·.2)

mutual

def shown : Outline → String
  | absent => "None"
  | text s => Text.recordQuote s
  | int n => toString n
  | flag b => if b then "True" else "False"
  | unaryOp op => memberText "UnaryOpKind" op.label (ordinalText UnaryOp.all op)
  | binaryOp op => memberText "BinaryOpKind" op.label (Text.recordQuote op.symbol)
  | option o => memberText "LoopHintOption" o.label (Text.recordQuote o.text)
  | attrKind k => memberText "AttributeKind" k.label (ordinalText AttrKind.all k)
  | spelling s => memberText "AttributeSyntax" s.label (Text.recordQuote s.text)
  | loc l => locText l
  | range r => callText "SourceRange" ["begin=" ++ locText r.start, "end=" ++ locText r.stop]
  | seq items => tupleText (allShown items)
  | record c values => callText c.className (shownFields c.fields (allShown values))

def allShown : List Outline → List String
  | [] => []
  | o :: os => o.shown :: allShown os

end

def locNumbers (l : Loc) : List Int := [l.line, l.col]

mutual

def numbers : Outline → List Int
  | int n => [n]
  | loc l => locNumbers l
  | range r => locNumbers r.start ++ locNumbers r.stop
  | seq items => (allNumbers items).flatten
  | record c values => shownNumbers c.fields (allNumbers values)
  | _ => []

def allNumbers : List Outline → List (List Int)
  | [] => []
  | o :: os => o.numbers :: allNumbers os

end

end Outline

end AttrCheck
