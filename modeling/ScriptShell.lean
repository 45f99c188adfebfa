import ScriptShell.Directory
import ScriptShell.Host.Recording
import ScriptShell.Main
import ScriptShell.Text.Units.Lemmas
import ScriptShell.Proofs.Evaluation.Step
import ScriptShell.Proofs.Evaluation.Ending
import ScriptShell.Proofs.Evaluation.Likeness
import ScriptShell.Proofs.Library.Likeness
import ScriptShell.Proofs.Evaluation.Alike
import ScriptShell.Proofs.Evaluation.Contract
import ScriptShell.Proofs.Evaluation.Execution
import ScriptShell.Proofs.Host.Trace
import ScriptShell.Proofs.Evaluation.Restoration
import ScriptShell.Proofs.Evaluation.Abort
import ScriptShell.Proofs.Evaluation.Simulation
import ScriptShell.Proofs.Program.Size
import ScriptShell.Proofs.Host.Patience
import ScriptShell.Proofs.Evaluation.Budget
import ScriptShell.Proofs.Evaluation.Fuel
import ScriptShell.Proofs.Evaluation.Termination
import ScriptShell.Proofs.Program.Parsing
import ScriptShell.Proofs.Program.Accepted
import ScriptShell.Proofs.Program.Recorded
import ScriptShell.Proofs.Evaluation.Jumps
import ScriptShell.Proofs.Prompt.CutCharacter
import ScriptShell.Proofs.Prompt.Deeds
import ScriptShell.Proofs.Parser.Extension
import ScriptShell.Proofs.Parser.Precedence
import ScriptShell.Proofs.Program.Reparsing
import ScriptShell.Proofs.Program.Definite
import ScriptShell.Proofs.Program.Completable
import ScriptShell.Proofs.Token.Lines
import ScriptShell.Proofs.Evaluation.Strictness
import ScriptShell.Proofs.Evaluation.Collection
import ScriptShell.Proofs.Evaluation.Failure
import ScriptShell.Proofs.Evaluation.Position
import ScriptShell.Proofs.Heap.Registry
import ScriptShell.Proofs.Heap.Writing
import ScriptShell.Proofs.Heap.Endless
import ScriptShell.Proofs.Heap.Properties
import ScriptShell.Proofs.Heap.Comparison
import ScriptShell.Proofs.Scopes
import ScriptShell.Proofs.Evaluation.Assignment
import ScriptShell.Proofs.Evaluation.Sealing
import ScriptShell.Proofs.Evaluation.Declaration
import ScriptShell.Proofs.Evaluation.FreeAccess
import ScriptShell.Proofs.Invocation
import ScriptShell.Proofs.Guard
import ScriptShell.Proofs.Report.Rendering
import ScriptShell.Proofs.Input.Source
import ScriptShell.Proofs.Token.Numbers
import ScriptShell.Proofs.Token.LineEnding
import ScriptShell.Proofs.Library.Parts
import ScriptShell.Proofs.Library.Access
import ScriptShell.Proofs.Parser.Progress
import ScriptShell.Proofs.Parser.Lookahead
import ScriptShell.Proofs.Token.Segments
import ScriptShell.Proofs.Number.Offsets
import ScriptShell.Proofs.Invocation.Saturation
