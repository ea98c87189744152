import Calculator.Json.Codec
import Calculator.Proofs.Evaluation.Composition
import Calculator.Proofs.Evaluation.MaximalMunch
import Calculator.Proofs.Evaluation.Order
import Calculator.Proofs.Evaluation.Spacing
import Calculator.Proofs.Evaluation.Trailing
import Calculator.Proofs.Numeral.Language
import Calculator.Proofs.Numeral.PendingSign
import Calculator.Proofs.Run.Absence
import Calculator.Proofs.Run.Causes
import Calculator.Proofs.Run.Termination
import Calculator.Proofs.Standard.Language
import Calculator.Proofs.Standard.Signs
import Calculator.Proofs.Vocabulary.Copies
import Calculator.Proofs.Vocabulary.Storage
import Calculator.Proofs.Workspace.History
import Calculator.Proofs.Standard.SignRuns
import Calculator.Proofs.Run.Constants
import Calculator.Proofs.Number.Arithmetic
import Calculator.Proofs.Number.Conversion
import Calculator.Proofs.Standard.Words
import Calculator.Proofs.Run.Trace
import Calculator.Proofs.Evaluation.Progress
