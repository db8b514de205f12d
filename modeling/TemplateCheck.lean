import TemplateCheck.Main
import TemplateCheck.Proofs.Check.Contracts
import TemplateCheck.Proofs.Check.Places
import TemplateCheck.Proofs.Check.Stages
import TemplateCheck.Proofs.Distinct
import TemplateCheck.Proofs.Markup.Document
import TemplateCheck.Proofs.Markup.Passing
import TemplateCheck.Proofs.Markup.Placeholders
import TemplateCheck.Proofs.Markup.RoundTrip
import TemplateCheck.Proofs.Markup.Settings
import TemplateCheck.Proofs.Markup.Usages
import TemplateCheck.Proofs.Markup.Written
import TemplateCheck.Proofs.OrderedMap
import TemplateCheck.Proofs.OrderedMap.History
import TemplateCheck.Proofs.Path
import TemplateCheck.Proofs.Pattern
import TemplateCheck.Proofs.Program
import TemplateCheck.Proofs.Registry
import TemplateCheck.Proofs.Registry.History
import TemplateCheck.Proofs.Service.Agreement
import TemplateCheck.Proofs.Service.Edits
import TemplateCheck.Proofs.Service.InStep
import TemplateCheck.Proofs.Source.Lexing
import TemplateCheck.Proofs.Source.Mask
import TemplateCheck.Proofs.Source.Nesting
import TemplateCheck.Proofs.Source.Printing
import TemplateCheck.Proofs.Source.Templates
import TemplateCheck.Proofs.Text.Classes
import TemplateCheck.Proofs.Text.Slice
import TemplateCheck.Proofs.TypeText.Dependence
import TemplateCheck.Service.Fix
import TemplateCheck.Proofs.Check.Locality
import TemplateCheck.Proofs.Check.Order
import TemplateCheck.Proofs.Check.Isolation
import TemplateCheck.Proofs.Text.Blank
import TemplateCheck.Proofs.Text.Occurrence
import TemplateCheck.Proofs.Text.Bracket
import TemplateCheck.Proofs.Text.Parts
import TemplateCheck.Proofs.Text.Group
import TemplateCheck.Proofs.Text.Collapse
import TemplateCheck.Proofs.Pattern.Replace
import TemplateCheck.Proofs.TypeText.Resolution
import TemplateCheck.Proofs.TypeText.Shape
import TemplateCheck.Proofs.TypeText.Spelling
import TemplateCheck.Proofs.TypeText.Literal
import TemplateCheck.Proofs.TypeText.Settled
import TemplateCheck.Proofs.TypeText.ClosedType
import TemplateCheck.Proofs.TypeText.UnionArray
import TemplateCheck.Proofs.TypeText.Layout
import TemplateCheck.Proofs.TypeText.Entry
import TemplateCheck.Proofs.TypeText.Members
import TemplateCheck.Proofs.TypeText.Comparison
import TemplateCheck.Proofs.TypeText.Name
import TemplateCheck.Proofs.TypeText.Union
import TemplateCheck.Proofs.TypeText.Alias
import TemplateCheck.Proofs.TypeText.Signature
import TemplateCheck.Proofs.TypeText.Intersection
import TemplateCheck.Proofs.TypeText.Property
import TemplateCheck.Proofs.TypeText.Inheritance
import TemplateCheck.Proofs.Check.Unresolved
import TemplateCheck.Proofs.Source.Interface
import TemplateCheck.Proofs.Pattern.Run
import TemplateCheck.Proofs.Source.Hiding
import TemplateCheck.Proofs.TypeText.StringExpression
import TemplateCheck.Proofs.Source.Imports
import TemplateCheck.Proofs.Source.CommentedImports
import TemplateCheck.Proofs.Source.Passage
import TemplateCheck.Proofs.Source.Strings
import TemplateCheck.Proofs.Path.Relative
import TemplateCheck.Proofs.Program.Specifier
import TemplateCheck.Proofs.Markup.Visits
import TemplateCheck.Proofs.Markup.Cursor
import TemplateCheck.Proofs.Source.ImportFront
import TemplateCheck.Proofs.Source.ImportShown
import TemplateCheck.Proofs.Path.Characters
import TemplateCheck.Proofs.Service.ImportLine
import TemplateCheck.Proofs.Service.Fix
import TemplateCheck.Proofs.Service.TemplateAt
import TemplateCheck.Proofs.Markup.Bindings
import TemplateCheck.Proofs.Check.Attributes
import TemplateCheck.Proofs.OrderedMap.Groups
import TemplateCheck.Proofs.Check.UnusedImports
import TemplateCheck.Proofs.Source.Lines
import TemplateCheck.Proofs.Source.ClassBody
import TemplateCheck.Proofs.Source.Variables
import TemplateCheck.Proofs.Source.Fields
import TemplateCheck.Proofs.Program.History
import TemplateCheck.Proofs.Markup.Rounds
import TemplateCheck.Proofs.Text.Cuts
import TemplateCheck.Proofs.Source.Angles
