import JavaInspect.Analysis.Document
import JavaInspect.Analysis.Error
import JavaInspect.Analysis.Files
import JavaInspect.Analysis.Report
import JavaInspect.Analysis.Runner
import JavaInspect.Binding.Basic
import JavaInspect.Binding.Chain
import JavaInspect.Binding.Listing
import JavaInspect.Binding.Lookup
import JavaInspect.Binding.Table
import JavaInspect.Check.BuilderEmptiness
import JavaInspect.Check.ForwardingOverride
import JavaInspect.Check.MethodName
import JavaInspect.Check.MissingConstructor
import JavaInspect.Check.OptionalParameter
import JavaInspect.Check.ParameterCount
import JavaInspect.Check.ServletField
import JavaInspect.Check.SessionAttributes
import JavaInspect.Configuration
import JavaInspect.Detector
import JavaInspect.Dispatcher
import JavaInspect.Document.Cursor
import JavaInspect.Document.Fields
import JavaInspect.Document.Flow
import JavaInspect.Document.Natural
import JavaInspect.Document.Scalar
import JavaInspect.Document.Value
import JavaInspect.Document.Yaml
import JavaInspect.Filter.Basic
import JavaInspect.Filter.Directive
import JavaInspect.Filter.Exclusions
import JavaInspect.Filter.Framework
import JavaInspect.Filter.InlineComments
import JavaInspect.Filter.SuppressWarnings
import JavaInspect.Java.Construct
import JavaInspect.Java.Erasure
import JavaInspect.Java.Frontend
import JavaInspect.Java.Grammar
import JavaInspect.Java.Grammar.Cursor
import JavaInspect.Java.Grammar.Declarations
import JavaInspect.Java.Grammar.Expressions
import JavaInspect.Java.Grammar.Nested
import JavaInspect.Java.Grammar.Operators
import JavaInspect.Java.Grammar.Statements
import JavaInspect.Java.Grammar.Types
import JavaInspect.Java.Header
import JavaInspect.Java.Lexer
import JavaInspect.Java.Lowering
import JavaInspect.Java.Lowering.Declarations
import JavaInspect.Java.Lowering.Expressions
import JavaInspect.Java.Lowering.Link
import JavaInspect.Java.Lowering.Members
import JavaInspect.Java.Lowering.Resolve
import JavaInspect.Java.Lowering.State
import JavaInspect.Java.Phrase
import JavaInspect.Java.Token
import JavaInspect.Library.ClassPath
import JavaInspect.Library.Description
import JavaInspect.Library.Jdk
import JavaInspect.Library.Loading
import JavaInspect.Library.Spring
import JavaInspect.Library.Type
import JavaInspect.Matcher
import JavaInspect.Outline
import JavaInspect.Pattern.Basic
import JavaInspect.Pattern.CharClass
import JavaInspect.Pattern.Reading
import JavaInspect.Proofs.Analysis.FaultedRules
import JavaInspect.Proofs.Analysis.Faults
import JavaInspect.Proofs.Analysis.Independence
import JavaInspect.Proofs.Analysis.Stepwise
import JavaInspect.Proofs.Analysis.Workers
import JavaInspect.Proofs.Binding.Assembling
import JavaInspect.Proofs.Binding.Building
import JavaInspect.Proofs.Binding.Calls
import JavaInspect.Proofs.Binding.Canonical
import JavaInspect.Proofs.Binding.Changes
import JavaInspect.Proofs.Binding.Grounded
import JavaInspect.Proofs.Binding.Growth
import JavaInspect.Proofs.Binding.Links
import JavaInspect.Proofs.Binding.Loading
import JavaInspect.Proofs.Binding.References
import JavaInspect.Proofs.Check.BuilderEmptiness
import JavaInspect.Proofs.Dispatch.CallSequences
import JavaInspect.Proofs.Dispatch.Cancellation
import JavaInspect.Proofs.Dispatch.Isolation
import JavaInspect.Proofs.Dispatch.Numbering
import JavaInspect.Proofs.Dispatch.Order
import JavaInspect.Proofs.Dispatch.Registration
import JavaInspect.Proofs.Dispatch.Solo
import JavaInspect.Proofs.Dispatch.Turns
import JavaInspect.Proofs.Filter.CommentForms
import JavaInspect.Proofs.Filter.Conventions
import JavaInspect.Proofs.Filter.Coverage
import JavaInspect.Proofs.Filter.DirectiveComments
import JavaInspect.Proofs.Filter.Directives
import JavaInspect.Proofs.Filter.LeadingComments
import JavaInspect.Proofs.Filter.Parting
import JavaInspect.Proofs.Filter.Scans
import JavaInspect.Proofs.Filter.Suppression
import JavaInspect.Proofs.Hierarchy.Lineage
import JavaInspect.Proofs.Hierarchy.Reach
import JavaInspect.Proofs.Hierarchy.SearchOrder
import JavaInspect.Proofs.Java.Classes
import JavaInspect.Proofs.Java.Consistency
import JavaInspect.Proofs.Java.Declarations
import JavaInspect.Proofs.Java.Declaring
import JavaInspect.Proofs.Java.Expressions
import JavaInspect.Proofs.Java.Filling
import JavaInspect.Proofs.Java.Handling
import JavaInspect.Proofs.Java.Introducing
import JavaInspect.Proofs.Java.Linking
import JavaInspect.Proofs.Java.Listing
import JavaInspect.Proofs.Java.Lookups
import JavaInspect.Proofs.Java.Lowered
import JavaInspect.Proofs.Java.Members
import JavaInspect.Proofs.Java.NodeBindings
import JavaInspect.Proofs.Java.Parameters
import JavaInspect.Proofs.Java.Phrases
import JavaInspect.Proofs.Java.Progress
import JavaInspect.Proofs.Java.Records
import JavaInspect.Proofs.Java.References
import JavaInspect.Proofs.Java.Separation
import JavaInspect.Proofs.Java.Soundness
import JavaInspect.Proofs.Java.Statements
import JavaInspect.Proofs.Java.Stepping
import JavaInspect.Proofs.Java.TypeLinking
import JavaInspect.Proofs.Java.Units
import JavaInspect.Proofs.Java.Values
import JavaInspect.Proofs.Library.Agreement
import JavaInspect.Proofs.Library.DefaultLinks
import JavaInspect.Proofs.Library.Described
import JavaInspect.Proofs.Library.Linking
import JavaInspect.Proofs.Library.Merging
import JavaInspect.Proofs.Matcher.Building
import JavaInspect.Proofs.Matcher.Subsumption
import JavaInspect.Proofs.Rule.Naming
import JavaInspect.Proofs.Semantics.Annotations
import JavaInspect.Proofs.Semantics.Circles
import JavaInspect.Proofs.Semantics.Coherence
import JavaInspect.Proofs.Semantics.Collecting
import JavaInspect.Proofs.Semantics.Consultations
import JavaInspect.Proofs.Semantics.Declarations
import JavaInspect.Proofs.Semantics.Degradation
import JavaInspect.Proofs.Semantics.Enclosing
import JavaInspect.Proofs.Semantics.Enclosures
import JavaInspect.Proofs.Semantics.Facades
import JavaInspect.Proofs.Semantics.Histories
import JavaInspect.Proofs.Semantics.Identity
import JavaInspect.Proofs.Semantics.Inheritance
import JavaInspect.Proofs.Semantics.Matching
import JavaInspect.Proofs.Semantics.Members
import JavaInspect.Proofs.Semantics.Moves
import JavaInspect.Proofs.Semantics.Outcome
import JavaInspect.Proofs.Semantics.OwnerWalks
import JavaInspect.Proofs.Semantics.Recollection
import JavaInspect.Proofs.Semantics.Requests
import JavaInspect.Proofs.Semantics.Runs
import JavaInspect.Proofs.Semantics.Search
import JavaInspect.Proofs.Semantics.SubtypeOrder
import JavaInspect.Proofs.Semantics.Subtyping
import JavaInspect.Proofs.Semantics.SuperTypes
import JavaInspect.Proofs.Semantics.Updates
import JavaInspect.Proofs.Semantics.Validity
import JavaInspect.Proofs.Semantics.Views
import JavaInspect.Proofs.Text.Cutting
import JavaInspect.Proofs.Text.Joining
import JavaInspect.Proofs.Text.Lines
import JavaInspect.Proofs.Tree.Building
import JavaInspect.Proofs.Tree.Opening
import JavaInspect.Proofs.Tree.Preorder
import JavaInspect.Proofs.Tree.Traversal
import JavaInspect.Proofs.Tree.Walks
import JavaInspect.Registry
import JavaInspect.Rule.Catalogue
import JavaInspect.Rule.Finding
import JavaInspect.Rule.Key
import JavaInspect.Semantics.Annotated
import JavaInspect.Semantics.Cache
import JavaInspect.Semantics.Describe
import JavaInspect.Semantics.Document
import JavaInspect.Semantics.Facade
import JavaInspect.Semantics.Fault
import JavaInspect.Semantics.Metadata
import JavaInspect.Semantics.Subtype
import JavaInspect.Semantics.Supertypes
import JavaInspect.Semantics.Symbol
import JavaInspect.SourceUnit
import JavaInspect.Span
import JavaInspect.Text.Affix
import JavaInspect.Text.Blank
import JavaInspect.Text.Bytes
import JavaInspect.Text.FileName
import JavaInspect.Text.Lines
import JavaInspect.Text.Quoted
import JavaInspect.Tree.Basic
import JavaInspect.Tree.Builder
import JavaInspect.Tree.Kind
import JavaInspect.Tree.Walk
