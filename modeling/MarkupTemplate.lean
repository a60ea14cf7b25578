import MarkupTemplate.Builtin.Argument
import MarkupTemplate.Builtin.Basic
import MarkupTemplate.Builtin.Branching
import MarkupTemplate.Builtin.Extension
import MarkupTemplate.Builtin.Odometer
import MarkupTemplate.Builtin.Repetition
import MarkupTemplate.Definition
import MarkupTemplate.Dictionary
import MarkupTemplate.Engine.Document
import MarkupTemplate.Engine.Firing
import MarkupTemplate.Engine.Notification
import MarkupTemplate.Engine.Parse
import MarkupTemplate.Engine.Resolution
import MarkupTemplate.Engine.Scan
import MarkupTemplate.Engine.Shaping
import MarkupTemplate.Engine.State
import MarkupTemplate.Engine.Tree
import MarkupTemplate.Engine.Values
import MarkupTemplate.Environment
import MarkupTemplate.Environment.Source
import MarkupTemplate.Equation.Evaluation
import MarkupTemplate.Equation.Operand
import MarkupTemplate.Equation.Operator
import MarkupTemplate.Equation.Standard
import MarkupTemplate.Equation.Token
import MarkupTemplate.Error.Diagnostics
import MarkupTemplate.Error.Fault
import MarkupTemplate.Host
import MarkupTemplate.Json.Basic
import MarkupTemplate.Json.Code
import MarkupTemplate.Json.Parser
import MarkupTemplate.Json.Printer
import MarkupTemplate.Json.Record
import MarkupTemplate.Markers
import MarkupTemplate.Markers.Comment
import MarkupTemplate.Markers.Piece
import MarkupTemplate.Markers.TopLevel
import MarkupTemplate.Node.Basic
import MarkupTemplate.Node.Widget
import MarkupTemplate.Number.Binary64
import MarkupTemplate.Number.FloatText
import MarkupTemplate.Number.Integer
import MarkupTemplate.Number.Shortest
import MarkupTemplate.Proofs.Attribute.Application
import MarkupTemplate.Proofs.Attribute.Chains
import MarkupTemplate.Proofs.Audience.Basic
import MarkupTemplate.Proofs.Audience.Builtin
import MarkupTemplate.Proofs.Audience.Fragment
import MarkupTemplate.Proofs.Audience.Resolution
import MarkupTemplate.Proofs.Audience.Scan
import MarkupTemplate.Proofs.Audience.Tree
import MarkupTemplate.Proofs.Body.Branches
import MarkupTemplate.Proofs.Body.Capture
import MarkupTemplate.Proofs.Body.Division
import MarkupTemplate.Proofs.Body.Inserted
import MarkupTemplate.Proofs.Body.Reading
import MarkupTemplate.Proofs.Body.Written
import MarkupTemplate.Proofs.Comment.Extent
import MarkupTemplate.Proofs.Comment.Scanning
import MarkupTemplate.Proofs.Control.Carrying
import MarkupTemplate.Proofs.Control.Choice
import MarkupTemplate.Proofs.Control.Enclosing
import MarkupTemplate.Proofs.Control.Flow
import MarkupTemplate.Proofs.Control.Meaning
import MarkupTemplate.Proofs.Control.Running
import MarkupTemplate.Proofs.Control.Scanning
import MarkupTemplate.Proofs.Control.Setting
import MarkupTemplate.Proofs.Control.Shape
import MarkupTemplate.Proofs.Control.Substitution
import MarkupTemplate.Proofs.Control.Term
import MarkupTemplate.Proofs.Definition.Calling
import MarkupTemplate.Proofs.Definition.Filling
import MarkupTemplate.Proofs.Engine.Failure
import MarkupTemplate.Proofs.Engine.Frame
import MarkupTemplate.Proofs.Engine.Hosts
import MarkupTemplate.Proofs.Engine.Keeping
import MarkupTemplate.Proofs.Engine.Location
import MarkupTemplate.Proofs.Engine.Macros
import MarkupTemplate.Proofs.Engine.Reading
import MarkupTemplate.Proofs.Engine.Resolution
import MarkupTemplate.Proofs.Engine.Run
import MarkupTemplate.Proofs.Engine.Turn
import MarkupTemplate.Proofs.Equation.Equality
import MarkupTemplate.Proofs.Equation.Integers
import MarkupTemplate.Proofs.Equation.Layout
import MarkupTemplate.Proofs.Equation.Ordering
import MarkupTemplate.Proofs.Equation.Outcome
import MarkupTemplate.Proofs.Equation.Parentheses
import MarkupTemplate.Proofs.Equation.Printed
import MarkupTemplate.Proofs.Equation.Reduction
import MarkupTemplate.Proofs.Equation.Rereading
import MarkupTemplate.Proofs.Equation.Tree
import MarkupTemplate.Proofs.Equation.Value
import MarkupTemplate.Proofs.Firing.Caching
import MarkupTemplate.Proofs.Forest.Document
import MarkupTemplate.Proofs.Forest.Elements
import MarkupTemplate.Proofs.Forest.Growing
import MarkupTemplate.Proofs.Forest.Listing
import MarkupTemplate.Proofs.Forest.Nesting
import MarkupTemplate.Proofs.Forest.Order
import MarkupTemplate.Proofs.Forest.Quoted
import MarkupTemplate.Proofs.Forest.Spelling
import MarkupTemplate.Proofs.Forest.Writing
import MarkupTemplate.Proofs.Lenient.Basic
import MarkupTemplate.Proofs.Lenient.Equation
import MarkupTemplate.Proofs.Lenient.Parsing
import MarkupTemplate.Proofs.Markers.Candidates
import MarkupTemplate.Proofs.Notification.Round
import MarkupTemplate.Proofs.Number.Literal
import MarkupTemplate.Proofs.Reader
import MarkupTemplate.Proofs.Reader.Excerpt
import MarkupTemplate.Proofs.Reader.Position
import MarkupTemplate.Proofs.Reader.Queue
import MarkupTemplate.Proofs.Registry.Lineage
import MarkupTemplate.Proofs.Repetition.Combinations
import MarkupTemplate.Proofs.Repetition.StoredLists
import MarkupTemplate.Proofs.Repetition.WhileLoop
import MarkupTemplate.Proofs.Resolution.Arrays
import MarkupTemplate.Proofs.Resolution.Decisions
import MarkupTemplate.Proofs.Resolution.Inlining
import MarkupTemplate.Proofs.Resolution.Ranges
import MarkupTemplate.Proofs.Resolution.References
import MarkupTemplate.Proofs.Resolution.Resolved
import MarkupTemplate.Proofs.Tag.Arguments
import MarkupTemplate.Proofs.Tag.Content
import MarkupTemplate.Proofs.Tag.Encoding
import MarkupTemplate.Proofs.Tag.Items
import MarkupTemplate.Proofs.Tag.Lookahead
import MarkupTemplate.Proofs.Tag.Opening
import MarkupTemplate.Proofs.Tag.Parts
import MarkupTemplate.Proofs.Tag.Phrase
import MarkupTemplate.Proofs.Tag.Quotes
import MarkupTemplate.Proofs.Tag.Setting
import MarkupTemplate.Proofs.Text.Enclosure
import MarkupTemplate.Proofs.Text.Nested
import MarkupTemplate.Proofs.Text.Parts
import MarkupTemplate.Proofs.Text.TopLevel
import MarkupTemplate.Proofs.Text.Words
import MarkupTemplate.Proofs.Twin.Basic
import MarkupTemplate.Proofs.Twin.Builtin
import MarkupTemplate.Proofs.Twin.Leniency
import MarkupTemplate.Proofs.Twin.Queueing
import MarkupTemplate.Proofs.Twin.Resolution
import MarkupTemplate.Proofs.Twin.Scan
import MarkupTemplate.Reader
import MarkupTemplate.Registry.Basic
import MarkupTemplate.Registry.Builtin
import MarkupTemplate.Registry.Lineage
import MarkupTemplate.Settings
import MarkupTemplate.Tag.Attributes
import MarkupTemplate.Tag.Basic
import MarkupTemplate.Tag.Body
import MarkupTemplate.Tag.Part
import MarkupTemplate.Tag.Pattern
import MarkupTemplate.Text.Basic
import MarkupTemplate.Text.Blank
import MarkupTemplate.Text.CodeRange
import MarkupTemplate.Text.LetterCase
import MarkupTemplate.Text.Letters
import MarkupTemplate.Text.Nested
import MarkupTemplate.Value
