import Retrace.Table.Basic
import Retrace.Text.Lines
import Retrace.Text.Identifier
import Retrace.Text.Quoted
import Retrace.Edit.Log
import Retrace.Edit.Marks
import Retrace.Document.Store
import Retrace.Tracer.Registry
import Retrace.Json.Reader
import Retrace.Completion.Config
import Retrace.Completion.Call
import Retrace.Proofs.Text.Cut
import Retrace.Proofs.Document.Store
import Retrace.Proofs.Tracer.Registry
import Retrace.Proofs.Completion.History
import Retrace.Proofs.Completion.Explanation
import Retrace.Proofs.Completion.Answers
import Retrace.Proofs.Completion.Merge
import Retrace.Proofs.Completion.Window
import Retrace.Proofs.Completion.Failure
import Retrace.Proofs.Completion.Agreement
import Retrace.Proofs.Completion.Lifetime
import Retrace.Proofs.Completion.Uncommitted
import Retrace.Proofs.Completion.Schedule
import Retrace.Proofs.Completion.Places
import Retrace.Proofs.Completion.Lockstep
import Retrace.Proofs.Completion.Frame
import Retrace.Proofs.Completion.Reuse
import Retrace.Proofs.Tracer.Age
import Retrace.Proofs.Completion.Supersession
import Retrace.Proofs.Document.Numbers
import Retrace.Proofs.Document.History
import Retrace.Proofs.Completion.Range
import Retrace.Proofs.Completion.Leftover
import Retrace.Proofs.Document.Replacement
import Retrace.Proofs.Document.Undo
import Retrace.Proofs.Completion.Replacement
import Retrace.Proofs.Text.LineFeeds
import Retrace.Proofs.Text.Lines
import Retrace.Proofs.Edit.Inverse
import Retrace.Proofs.Edit.Marks
import Retrace.Proofs.Completion.Caret
import Retrace.Proofs.Edit.Lines
import Retrace.Proofs.Completion.Positions
import Retrace.Proofs.Table.Same
import Retrace.Proofs.Tracer.Lifetime
import Retrace.Proofs.Edit.MarkRuns
import Retrace.Proofs.Completion.Moves
import Retrace.Proofs.Edit.Order
