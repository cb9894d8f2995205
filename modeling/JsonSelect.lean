import JsonSelect.Main
import JsonSelect.Program.Run
import JsonSelect.Proofs.Written.Form
import JsonSelect.Proofs.Reading.Numbers
import JsonSelect.Proofs.Reading.Lists
import JsonSelect.Proofs.Reading.Scalars
import JsonSelect.Proofs.Written.Entries
import JsonSelect.Proofs.Reading.Entries
import JsonSelect.Proofs.Reading.Depth
import JsonSelect.Proofs.Written.Nodes
import JsonSelect.Proofs.Document
import JsonSelect.Proofs.Tree.Paths
import JsonSelect.Proofs.Session
import JsonSelect.Proofs.Written.Layout
import JsonSelect.Proofs.Tree.Spans
import JsonSelect.Proofs.Access.Expression
import JsonSelect.Proofs.Access.Following
import JsonSelect.Proofs.Location
import JsonSelect.Proofs.Written.Tokens
import JsonSelect.Proofs.Selecting
import JsonSelect.Proofs.Tree.Correspondence
import JsonSelect.Proofs.Values
import JsonSelect.Proofs.Tree.Scalars
import JsonSelect.Proofs.Tree.Displayed
import JsonSelect.Proofs.Reading.Agreement
import JsonSelect.Proofs.Reading.Recursion
import JsonSelect.Proofs.Tree.Slices
import JsonSelect.Proofs.Written.Parts
import JsonSelect.Proofs.Access.Unambiguous
import JsonSelect.Proofs.Runs
import JsonSelect.Proofs.Tree.Printed
import JsonSelect.Proofs.Text.Parts
import JsonSelect.Proofs.Tree.Extent
import JsonSelect.Proofs.Rendering
import JsonSelect.Proofs.Shell.Lines
import JsonSelect.Proofs.Shell.Runs
import JsonSelect.Proofs.Text.Words
import JsonSelect.Proofs.Text.Counts
import JsonSelect.Proofs.Shell.Typed
import JsonSelect.Proofs.Modes
import JsonSelect.Proofs.Painting
import JsonSelect.Proofs.Text.Returns
import JsonSelect.Proofs.Written.Returns
import JsonSelect.Proofs.LineBreaks
import JsonSelect.Proofs.Diagnostic
import JsonSelect.Proofs.Unreadable
import JsonSelect.Proofs.Outcomes
import JsonSelect.Proofs.Numbering
import JsonSelect.Proofs.Reading.Faults
import JsonSelect.Proofs.Tree.Composition
import JsonSelect.Proofs.Access.Characters
import JsonSelect.Proofs.Report
import JsonSelect.Proofs.Files
import JsonSelect.Proofs.Config
