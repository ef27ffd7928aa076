import Shapes.CommandLine.Arguments
import Shapes.CommandLine.Logging
import Shapes.CommandLine.Respond
import Shapes.Definition
import Shapes.Distinct
import Shapes.Document.Basic
import Shapes.Document.Decode
import Shapes.Document.Elaborate
import Shapes.Failure
import Shapes.FieldType.Basic
import Shapes.FieldType.Meet
import Shapes.Json.Basic
import Shapes.Json.Draft
import Shapes.Json.Numeral
import Shapes.Json.Token
import Shapes.Json.Writer
import Shapes.Keyword
import Shapes.Limits
import Shapes.Literal
import Shapes.Main
import Shapes.Number.Binary64
import Shapes.Number.Layout
import Shapes.Number.Shortest
import Shapes.Proofs.Choices
import Shapes.Proofs.Distinct
import Shapes.Proofs.Document.Declaring
import Shapes.Proofs.Document.Independence
import Shapes.Proofs.Document.Order
import Shapes.Proofs.Document.Reading
import Shapes.Proofs.FieldType.Every
import Shapes.Proofs.FieldType.Identity
import Shapes.Proofs.FieldType.Joint
import Shapes.Proofs.FieldType.Normal
import Shapes.Proofs.FieldType.Points
import Shapes.Proofs.FieldType.Relabel
import Shapes.Proofs.FieldType.Sense
import Shapes.Proofs.FieldType.Shared
import Shapes.Proofs.Inheritance
import Shapes.Proofs.Matching.Access
import Shapes.Proofs.Matching.Checker
import Shapes.Proofs.Matching.Depth
import Shapes.Proofs.Matching.Derivation
import Shapes.Proofs.Matching.Fits
import Shapes.Proofs.Matching.Holds
import Shapes.Proofs.Matching.Identity
import Shapes.Proofs.Matching.Interpretation
import Shapes.Proofs.Matching.Literals
import Shapes.Proofs.Matching.Naming
import Shapes.Proofs.Matching.Resolved
import Shapes.Proofs.Matching.Standing
import Shapes.Proofs.Matching.Tower
import Shapes.Proofs.Matching.Unions
import Shapes.Proofs.Registry.Acceptance
import Shapes.Proofs.Registry.Again
import Shapes.Proofs.Registry.Arena
import Shapes.Proofs.Registry.ByName
import Shapes.Proofs.Registry.Canonical
import Shapes.Proofs.Registry.Contribution
import Shapes.Proofs.Registry.Correspondence
import Shapes.Proofs.Registry.Effort
import Shapes.Proofs.Registry.Exactness
import Shapes.Proofs.Registry.Faithful
import Shapes.Proofs.Registry.Flattening
import Shapes.Proofs.Registry.Gathering
import Shapes.Proofs.Registry.History
import Shapes.Proofs.Registry.Index
import Shapes.Proofs.Registry.Ladder
import Shapes.Proofs.Registry.Lifecycle
import Shapes.Proofs.Registry.Meaning
import Shapes.Proofs.Registry.Merging
import Shapes.Proofs.Registry.Names
import Shapes.Proofs.Registry.Passage
import Shapes.Proofs.Registry.Probe
import Shapes.Proofs.Registry.Progress
import Shapes.Proofs.Registry.Refusal
import Shapes.Proofs.Registry.Relabel
import Shapes.Proofs.Registry.Resolving
import Shapes.Proofs.Registry.Setback
import Shapes.Proofs.Registry.Trace
import Shapes.Proofs.Registry.Walk
import Shapes.Proofs.Report.Relabel
import Shapes.Proofs.Running
import Shapes.Proofs.Shape.Branches
import Shapes.Proofs.Shape.Every
import Shapes.Proofs.Shape.Failures
import Shapes.Proofs.Shape.Identity
import Shapes.Proofs.Shape.Joint
import Shapes.Proofs.Shape.KeyAlgebra
import Shapes.Proofs.Shape.Keys
import Shapes.Proofs.Shape.Normal
import Shapes.Proofs.Shape.Order
import Shapes.Proofs.Shape.Relabel
import Shapes.Proofs.Shape.Sense
import Shapes.Proofs.Shape.Shared
import Shapes.Proofs.Subtype.Completeness
import Shapes.Proofs.Subtype.Extension
import Shapes.Proofs.Subtype.Following
import Shapes.Proofs.Subtype.Identity
import Shapes.Proofs.Subtype.Justified
import Shapes.Proofs.Subtype.Recursion
import Shapes.Proofs.Subtype.Relabel
import Shapes.Proofs.Subtype.Reuse
import Shapes.Proofs.Subtype.Rules
import Shapes.Proofs.Subtype.Shows
import Shapes.Proofs.Subtype.Soundness
import Shapes.Proofs.Subtype.Termination
import Shapes.Proofs.SymbolTable
import Shapes.Proofs.Table
import Shapes.Proofs.Trail
import Shapes.Proofs.Trail.Calls
import Shapes.Registry.Basic
import Shapes.Registry.Declare
import Shapes.Registry.Matching
import Shapes.Registry.Render
import Shapes.Registry.Resolve
import Shapes.Registry.Subtype
import Shapes.Report.Basic
import Shapes.Report.Json
import Shapes.Report.Text
import Shapes.Shape.Basic
import Shapes.Shape.Combine
import Shapes.Shape.Keys
import Shapes.SymbolTable
import Shapes.Table
import Shapes.Text.Blank
import Shapes.Text.CodeRange
import Shapes.Text.Extending
import Shapes.Text.Ignorable
import Shapes.Text.Quoted
import Shapes.Text.Unprintable
import Shapes.Trail
