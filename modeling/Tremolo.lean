import Tremolo.Text.Case
import Tremolo.Text.Quoted
import Tremolo.Value.Operation
import Tremolo.Table
import Tremolo.Symbol.Basic
import Tremolo.Token.Scanner
import Tremolo.Syntax.Parser.Program
import Tremolo.Syntax.Interchange
import Tremolo.Token.Interchange
import Tremolo.Native.Host
import Tremolo.Scope.Store
import Tremolo.Main
import Tremolo.Scope.Archive
import Tremolo.Syntax.Grammar
import Tremolo.Syntax.Printer
import Tremolo.Syntax.Writable
import Tremolo.Proofs.Scope.Discipline
import Tremolo.Proofs.Scope.Holdings
import Tremolo.Proofs.Run.Agreement
import Tremolo.Proofs.Run.Simulation
import Tremolo.Proofs.Scope.Correspondence
import Tremolo.Proofs.Scope.Chronicle
import Tremolo.Proofs.Run.Discipline
import Tremolo.Proofs.Run.Reuse
import Tremolo.Proofs.Run.Lexical
import Tremolo.Proofs.Value.Sound
import Tremolo.Proofs.Run.Ensures
import Tremolo.Proofs.Run.Lawful
import Tremolo.Proofs.Run.LawfulRuns
import Tremolo.Proofs.Run.Typing
import Tremolo.Proofs.Syntax.Grammar
import Tremolo.Proofs.Syntax.Reading
import Tremolo.Proofs.Syntax.Expressions
import Tremolo.Proofs.Syntax.Statements
import Tremolo.Proofs.Syntax.Programs
import Tremolo.Proofs.Run.Boundary
import Tremolo.Proofs.Syntax.Printing
import Tremolo.Proofs.Token.Scanning
import Tremolo.Proofs.Syntax.RoundTrip
import Tremolo.Proofs.Token.Items
import Tremolo.Proofs.Token.Factoring
import Tremolo.Proofs.Run.Isolation
import Tremolo.Proofs.Syntax.Completion
import Tremolo.Proofs.Syntax.Persistence
import Tremolo.Proofs.Syntax.Diagnosis
import Tremolo.Proofs.Run.Journal
import Tremolo.Proofs.Run.Upholds
import Tremolo.Proofs.Run.Sited
import Tremolo.Proofs.Run.Returns
import Tremolo.Proofs.Scope.Operations
import Tremolo.Proofs.Run.Observation
import Tremolo.Proofs.Run.Truncation
import Tremolo.Proofs.Json.Rendering
import Tremolo.Proofs.Json.Decoding
import Tremolo.Proofs.Syntax.Interchange
import Tremolo.Proofs.Token.Lines
import Tremolo.Proofs.Scope.Frame
import Tremolo.Proofs.Run.Frame
import Tremolo.Proofs.Run.Shape
import Tremolo.Proofs.Scope.Relabeling
import Tremolo.Proofs.Value.Renaming
import Tremolo.Proofs.Syntax.Renaming
import Tremolo.Proofs.Scope.Renaming
import Tremolo.Proofs.Run.Equivariance
import Tremolo.Proofs.Run.Renaming
import Tremolo.Proofs.Run.Arithmetic
import Tremolo.Proofs.Run.Consistency
import Tremolo.Proofs.Run.Fuel
import Tremolo.Proofs.Run.Independence
import Tremolo.Proofs.Run.Upkeep
import Tremolo.Proofs.Run.Accounting
import Tremolo.Proofs.Token.Literals
import Tremolo.Proofs.Token.Places
import Tremolo.Proofs.Syntax.Reader
import Tremolo.Proofs.Syntax.Advance
import Tremolo.Proofs.Syntax.Requests
import Tremolo.Proofs.Run.Integers
import Tremolo.Proofs.Decimal.Order
import Tremolo.Proofs.Decimal.Rounding
import Tremolo.Proofs.Value.Comparison
import Tremolo.Proofs.Scope.Resolution
import Tremolo.Proofs.Token.Cursor
import Tremolo.Proofs.Token.Requests
