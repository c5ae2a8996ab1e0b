import AttrCheck.Attribute
import AttrCheck.Attribute.LoopHint
import AttrCheck.Attribute.Registry
import AttrCheck.Check
import AttrCheck.Checker
import AttrCheck.Checker.Session
import AttrCheck.Checker.Subject
import AttrCheck.CommandLine.Arguments
import AttrCheck.CommandLine.Invocation
import AttrCheck.CommandLine.Path
import AttrCheck.CommandLine.Run
import AttrCheck.Config
import AttrCheck.Diagnostic
import AttrCheck.Diagnostic.Catalog
import AttrCheck.Diagnostic.Engine
import AttrCheck.Diagnostic.History
import AttrCheck.Diagnostic.Template
import AttrCheck.Event
import AttrCheck.Expr
import AttrCheck.Expr.Constant
import AttrCheck.Grammar.Attribute
import AttrCheck.Grammar.Build
import AttrCheck.Grammar.Expr
import AttrCheck.Grammar.Layout
import AttrCheck.Grammar.Lexeme
import AttrCheck.Grammar.Parser
import AttrCheck.Grammar.Stmt
import AttrCheck.Grammar.Unit
import AttrCheck.HintConflict
import AttrCheck.Json
import AttrCheck.Loc
import AttrCheck.Main
import AttrCheck.Outline
import AttrCheck.Outline.Reading
import AttrCheck.Outline.SExp
import AttrCheck.Outline.Tree
import AttrCheck.Proofs.Allowance
import AttrCheck.Proofs.AppendedText
import AttrCheck.Proofs.AttributeFate
import AttrCheck.Proofs.AttributedShape
import AttrCheck.Proofs.Bracing
import AttrCheck.Proofs.Building
import AttrCheck.Proofs.BuiltTree
import AttrCheck.Proofs.CommandOutcome
import AttrCheck.Proofs.ConstantRange
import AttrCheck.Proofs.Containment
import AttrCheck.Proofs.Conversion
import AttrCheck.Proofs.DeclaredType
import AttrCheck.Proofs.Dependence
import AttrCheck.Proofs.DependentCount
import AttrCheck.Proofs.DirectiveReading
import AttrCheck.Proofs.EngineHistory
import AttrCheck.Proofs.Erasure
import AttrCheck.Proofs.ErrorFree
import AttrCheck.Proofs.ExprLayers
import AttrCheck.Proofs.ExprReading
import AttrCheck.Proofs.ExprRoundTrip
import AttrCheck.Proofs.ExprTokens
import AttrCheck.Proofs.Fallthrough
import AttrCheck.Proofs.FileNames
import AttrCheck.Proofs.FunctionWise
import AttrCheck.Proofs.GrammarAllowance
import AttrCheck.Proofs.HintHistory
import AttrCheck.Proofs.HintRoundTrip
import AttrCheck.Proofs.IntegerReading
import AttrCheck.Proofs.IntegerSpelling
import AttrCheck.Proofs.Isolation
import AttrCheck.Proofs.ItemEnd
import AttrCheck.Proofs.ItemLexemes
import AttrCheck.Proofs.LayoutPieces
import AttrCheck.Proofs.LexemeReading
import AttrCheck.Proofs.LinePlaces
import AttrCheck.Proofs.Locality
import AttrCheck.Proofs.LongestMatch
import AttrCheck.Proofs.NameConstant
import AttrCheck.Proofs.NameLookup
import AttrCheck.Proofs.Nesting
import AttrCheck.Proofs.NodePlaces
import AttrCheck.Proofs.OperandReading
import AttrCheck.Proofs.Progress
import AttrCheck.Proofs.Reading
import AttrCheck.Proofs.RejectedText
import AttrCheck.Proofs.Removal
import AttrCheck.Proofs.Replacement
import AttrCheck.Proofs.Resolution
import AttrCheck.Proofs.ResolverFrame
import AttrCheck.Proofs.ResultOrder
import AttrCheck.Proofs.SExpCore
import AttrCheck.Proofs.SExpEquality
import AttrCheck.Proofs.SExpReading
import AttrCheck.Proofs.ScopeAgreement
import AttrCheck.Proofs.Seam
import AttrCheck.Proofs.SeamLexeme
import AttrCheck.Proofs.SemicolonFix
import AttrCheck.Proofs.SessionCalls
import AttrCheck.Proofs.SessionScopes
import AttrCheck.Proofs.Site
import AttrCheck.Proofs.SourceOrder
import AttrCheck.Proofs.SpecifierEnd
import AttrCheck.Proofs.SpecifierOrder
import AttrCheck.Proofs.Spelling
import AttrCheck.Proofs.Splice
import AttrCheck.Proofs.SpliceBlock
import AttrCheck.Proofs.StmtParts
import AttrCheck.Proofs.StmtRoundTrip
import AttrCheck.Proofs.StmtTokens
import AttrCheck.Proofs.StrictOptions
import AttrCheck.Proofs.Suppressible
import AttrCheck.Proofs.Suppression
import AttrCheck.Proofs.TokenReading
import AttrCheck.Proofs.TokenSequence
import AttrCheck.Proofs.Totality
import AttrCheck.Proofs.TransformSharing
import AttrCheck.Proofs.TrappingMachine
import AttrCheck.Proofs.TruncatedDivision
import AttrCheck.Proofs.TypeReading
import AttrCheck.Proofs.UnitReading
import AttrCheck.Proofs.UnitRoundTrip
import AttrCheck.Proofs.WalkOrder
import AttrCheck.Resolve
import AttrCheck.SExp
import AttrCheck.Scope
import AttrCheck.Stmt
import AttrCheck.Text.Blank
import AttrCheck.Text.Digit
import AttrCheck.Text.Newline
import AttrCheck.Text.Number
import AttrCheck.Text.Quoted
import AttrCheck.Text.Visible
import AttrCheck.Text.Word
import AttrCheck.Transform
import AttrCheck.Verdict
import AttrCheck.Walk
