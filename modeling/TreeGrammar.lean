import TreeGrammar.Analysis.Code
import TreeGrammar.Analysis.Declarations
import TreeGrammar.Analysis.Options
import TreeGrammar.Analysis.Scope
import TreeGrammar.Analysis.Termination
import TreeGrammar.Analysis.Usage
import TreeGrammar.Analysis.Verdict
import TreeGrammar.Compilation
import TreeGrammar.Diagnostic
import TreeGrammar.Fixpoint
import TreeGrammar.Grammar.Basic
import TreeGrammar.Grammar.CallGraph
import TreeGrammar.Grammar.ByteScan
import TreeGrammar.Grammar.Lexical
import TreeGrammar.Grammar.Literal
import TreeGrammar.Grammar.Parser
import TreeGrammar.Grammar.Reader
import TreeGrammar.Grammar.Reference
import TreeGrammar.Grammar.SyntaxError
import TreeGrammar.Host.BasicForm
import TreeGrammar.Host.Check
import TreeGrammar.Host.ExpressionForm
import TreeGrammar.Host.ItemForm
import TreeGrammar.Host.Lexer
import TreeGrammar.Host.Literal
import TreeGrammar.Host.Pattern
import TreeGrammar.Host.PatternForm
import TreeGrammar.Host.Token
import TreeGrammar.Host.Trivia
import TreeGrammar.Host.TypeForm
import TreeGrammar.LabelSet
import TreeGrammar.Lookahead.Branch
import TreeGrammar.Lookahead.Decision
import TreeGrammar.Lookahead.First
import TreeGrammar.Lookahead.Follow
import TreeGrammar.Lookahead.Set
import TreeGrammar.Options
import TreeGrammar.Rounds
import TreeGrammar.Program.Basic
import TreeGrammar.Program.Binding
import TreeGrammar.Program.Build
import TreeGrammar.Program.Render
import TreeGrammar.Program.ScopeName
import TreeGrammar.Text.Alphabetic
import TreeGrammar.Text.Blank
import TreeGrammar.Text.IdentifierClass
import TreeGrammar.Text.Numeric
import TreeGrammar.Text.Printable
import TreeGrammar.Text.Quoted
import TreeGrammar.Text.Ranges
import TreeGrammar.Text.Slice
import TreeGrammar.Text.Span
import TreeGrammar.Text.Uppercase
import TreeGrammar.Text.UppercaseMapping
import TreeGrammar.Tree.Basic
import TreeGrammar.Tree.Notation
import TreeGrammar.Tree.Reader
import TreeGrammar.Walk.Cursor
import TreeGrammar.Walk.Failure
import TreeGrammar.Walk.Frame
import TreeGrammar.Walk.Session
import TreeGrammar.Walk.Walker
import TreeGrammar.Proofs.Analysis.Accepted
import TreeGrammar.Proofs.Analysis.Cycles
import TreeGrammar.Proofs.Analysis.Integrity
import TreeGrammar.Proofs.Analysis.Predictions
import TreeGrammar.Proofs.Analysis.Progress
import TreeGrammar.Proofs.Analysis.Scopes
import TreeGrammar.Proofs.Grammar.Consumption
import TreeGrammar.Proofs.Grammar.Derivation
import TreeGrammar.Proofs.Grammar.Elements
import TreeGrammar.Proofs.Grammar.Forest
import TreeGrammar.Proofs.Grammar.Membership
import TreeGrammar.Proofs.Grammar.Numbering
import TreeGrammar.Proofs.Grammar.ParserSteps
import TreeGrammar.Proofs.Grammar.Reachability
import TreeGrammar.Proofs.Lookahead.Disjoint
import TreeGrammar.Proofs.Lookahead.FixedPoint
import TreeGrammar.Proofs.Lookahead.Order
import TreeGrammar.Proofs.Lookahead.Prediction
import TreeGrammar.Proofs.Lookahead.Sites
import TreeGrammar.Proofs.Program.Attributes
import TreeGrammar.Proofs.Program.Bound
import TreeGrammar.Proofs.Program.Built
import TreeGrammar.Proofs.Program.Completeness
import TreeGrammar.Proofs.Program.Procedures
import TreeGrammar.Proofs.Program.Refinement
import TreeGrammar.Proofs.Program.Soundness
import TreeGrammar.Proofs.Program.Termination
import TreeGrammar.Proofs.Walk.Effects
import TreeGrammar.Proofs.Walk.Execution
import TreeGrammar.Proofs.Walk.Progress
import TreeGrammar.Proofs.Tree.Tokens
import TreeGrammar.Proofs.Tree.Language
import TreeGrammar.Proofs.Tree.Written
import TreeGrammar.Proofs.Tree.Refusal
import TreeGrammar.Proofs.Tree.Quotes
import TreeGrammar.Proofs.Tree.RoundTrip
import TreeGrammar.Passes
import TreeGrammar.Proofs.Analysis.Passes
import TreeGrammar.Proofs.Analysis.Verdict
import TreeGrammar.Proofs.Program.Compilation
import TreeGrammar.Proofs.Text.Position
import TreeGrammar.Proofs.Grammar.Location
import TreeGrammar.Proofs.Program.Location
import TreeGrammar.Proofs.Grammar.Outline
import TreeGrammar.Proofs.Grammar.Writing
import TreeGrammar.Proofs.Grammar.Words
import TreeGrammar.Proofs.Grammar.Reading
import TreeGrammar.Proofs.Grammar.Items
import TreeGrammar.Proofs.Grammar.Origin
import TreeGrammar.Proofs.Grammar.Texts
import TreeGrammar.Proofs.Program.Reports
import TreeGrammar.Proofs.Program.Functions
import TreeGrammar.Proofs.Grammar.Shift
import TreeGrammar.Proofs.Grammar.Literals
import TreeGrammar.Proofs.Grammar.LiteralForms
import TreeGrammar.Proofs.Grammar.Pieces
import TreeGrammar.Proofs.Grammar.Locality
import TreeGrammar.Proofs.Grammar.RuleLocality
import TreeGrammar.Proofs.Grammar.Recovery
import TreeGrammar.Proofs.Grammar.SkippedItems
import TreeGrammar.Proofs.Walk.Account
import TreeGrammar.Lookahead.InPlace
import TreeGrammar.Proofs.Lookahead.Least
import TreeGrammar.Proofs.Lookahead.Starts
import TreeGrammar.Proofs.Lookahead.InPlace
import TreeGrammar.Proofs.Lookahead.FirstInPlace
import TreeGrammar.Proofs.Lookahead.FollowEquations
import TreeGrammar.Proofs.Lookahead.FollowInPlace
import TreeGrammar.Proofs.Lookahead.Overlap
import TreeGrammar.Proofs.Program.Dispatch
import TreeGrammar.Proofs.Program.Selection
import TreeGrammar.Proofs.Program.Variants
import TreeGrammar.Proofs.Program.Signatures
import TreeGrammar.Proofs.Program.Fragments
import TreeGrammar.Proofs.Program.Statements
import TreeGrammar.Proofs.Program.Capture
import TreeGrammar.Proofs.Analysis.LeftCalls
import TreeGrammar.Proofs.Analysis.Recursion
import TreeGrammar.Proofs.Grammar.ShortestPaths
import TreeGrammar.Proofs.Analysis.Resolution
import TreeGrammar.Proofs.Program.Substitution
import TreeGrammar.Proofs.Grammar.Rereading
import TreeGrammar.Proofs.Host.Quoted
import TreeGrammar.Proofs.Host.Lexemes
import TreeGrammar.Proofs.Host.Marks
import TreeGrammar.Program.Emission
import TreeGrammar.Proofs.Program.Placement
import TreeGrammar.Proofs.Program.Emission
import TreeGrammar.Proofs.Analysis.Usage
import TreeGrammar.Proofs.Lookahead.Table
import TreeGrammar.Proofs.Program.Decisions
import TreeGrammar.Proofs.Walk.Frames
import TreeGrammar.Proofs.Grammar.Delimiters
import TreeGrammar.Proofs.Grammar.CodeEnds
import TreeGrammar.Proofs.Grammar.ByteScan
import TreeGrammar.Proofs.Text.Slice
import TreeGrammar.Proofs.Grammar.ByteRounds
import TreeGrammar.Proofs.Grammar.ByteLoops
import TreeGrammar.Proofs.Grammar.Resumption
import TreeGrammar.Grammar.LoopParser
import TreeGrammar.Proofs.Grammar.LoopSteps
import TreeGrammar.Proofs.Grammar.LoopAgreement
import TreeGrammar.Proofs.Grammar.LoopProgress
