import Walkthrough.Expression.Tree
import Walkthrough.Simulation.Basic
import Walkthrough.Settings
import Walkthrough.Workflow.MockPayload
import Walkthrough.Workflow.Usage
import Walkthrough.Workflow.Form
import Walkthrough.Workflow.Written
import Walkthrough.Workflow.Localized
import Walkthrough.Workflow.Document
import Walkthrough.Expression.Template
import Walkthrough.Json.Reader
import Walkthrough.Json.Writer
import Walkthrough.Value.Listing
import Walkthrough.Value.Equality
import Walkthrough.Calendar.Reading
import Walkthrough.Text.Lowercase
import Walkthrough.Text.Printable
import Walkthrough.Markup.Block
import Walkthrough.Markup.Plain
import Walkthrough.Service.Parameter
import Walkthrough.Service.Store
import Walkthrough.Markup.Layout
import Walkthrough.Markup.Implicit
import Walkthrough.Markup.Reader
import Walkthrough.Workflow.Folder
import Walkthrough.Workflow.Loading
import Walkthrough.Service.Basic
import Walkthrough.Proofs.Simulation.Undo
import Walkthrough.Proofs.Simulation.Escape
import Walkthrough.Proofs.Program.Agreement
import Walkthrough.Proofs.Expression.Expansion
import Walkthrough.Proofs.Expression.Compound
import Walkthrough.Proofs.Expression.Printing
import Walkthrough.Proofs.Workflow.Writing
import Walkthrough.Proofs.Workflow.Jam
import Walkthrough.Proofs.Simulation.Memory
import Walkthrough.Proofs.Service.Recency
import Walkthrough.Proofs.Service.Isolation
import Walkthrough.Proofs.Simulation.Work
import Walkthrough.Proofs.Simulation.Cutoff
import Walkthrough.Proofs.Expression.Roots
import Walkthrough.Proofs.Expression.Mapping
import Walkthrough.Proofs.Expression.Literal
import Walkthrough.Proofs.Expression.Tiling
import Walkthrough.Proofs.Expression.Resolution
import Walkthrough.Proofs.Expression.Brackets
import Walkthrough.Proofs.Expression.Position
import Walkthrough.Proofs.Workflow.Mention
import Walkthrough.Proofs.Service.Payload
import Walkthrough.Proofs.Service.Conversion
import Walkthrough.Proofs.Expression.Separator
import Walkthrough.Proofs.Value.Turn
import Walkthrough.Proofs.Value.Order
import Walkthrough.Proofs.Number.Grammar
import Walkthrough.Proofs.Expression.SelfEquality
import Walkthrough.Proofs.Workflow.Options
import Walkthrough.Proofs.Workflow.Identity
import Walkthrough.Proofs.Span.Bounds
import Walkthrough.Proofs.Expression.Placeholder
