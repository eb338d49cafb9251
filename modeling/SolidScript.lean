import SolidScript.Text.Quoted
import SolidScript.Text.Line
import SolidScript.Number.Layout
import SolidScript.Number.Reading
import SolidScript.Token.Scan
import SolidScript.Program.Parse
import SolidScript.Scope.Tree
import SolidScript.Evaluation.Statement
import SolidScript.Mesh.Stl
import SolidScript.Settings.File
import SolidScript.Inspection
import SolidScript.Template.File
import SolidScript.Files.Directory
import SolidScript.Command.Outcome
import SolidScript.Main
import SolidScript.Proofs.Parsing.FirstFault
import SolidScript.Proofs.Mesh.Closed
import SolidScript.Proofs.Scanning.Correspondence
import SolidScript.Proofs.Template.Resolved
import SolidScript.Proofs.Evaluation.DrawList
import SolidScript.Proofs.Printing.RoundTrip
import SolidScript.Proofs.Evaluation.FreeNames
import SolidScript.Proofs.Evaluation.Trace
import SolidScript.Proofs.Evaluation.Budget
import SolidScript.Proofs.Template.Loading
import SolidScript.Proofs.Template.Inspection
import SolidScript.Proofs.Mesh.Bounds
import SolidScript.Proofs.Template.Payload
import SolidScript.Proofs.Evaluation.Unrolling
import SolidScript.Proofs.Evaluation.Counting
import SolidScript.Proofs.Evaluation.Progress
import SolidScript.Proofs.Evaluation.ScopeEffect
import SolidScript.Proofs.Scope.History
import SolidScript.Proofs.Command.Arguments
import SolidScript.Proofs.Command.ErrorLine
import SolidScript.Proofs.Command.Session
import SolidScript.Proofs.Files.Writing
import SolidScript.Proofs.Command.Effects
import SolidScript.Proofs.Evaluation.DeadParts
import SolidScript.Proofs.Parsing.Composition
import SolidScript.Proofs.Template.LineEndings
import SolidScript.Proofs.Parsing.Relayout
import SolidScript.Proofs.Metadata.Directives
import SolidScript.Proofs.Template.Parameters
import SolidScript.Proofs.Mesh.Stl
import SolidScript.Proofs.Mesh.Volume
import SolidScript.Proofs.Mesh.Extremes
import SolidScript.Proofs.Mesh.Coordinate
import SolidScript.Proofs.Number.Readers
import SolidScript.Proofs.Parsing.Advance
