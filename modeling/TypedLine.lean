import TypedLine.Json.Codec
import TypedLine.Main
import TypedLine.Proofs.ArgumentFailure
import TypedLine.Proofs.BinaryFloat.NearestNumber
import TypedLine.Proofs.Callable
import TypedLine.Proofs.CommandLine.Debug
import TypedLine.Proofs.CommandLine.OptionOrder
import TypedLine.Proofs.CommandLine.Run
import TypedLine.Proofs.Comment
import TypedLine.Proofs.ExactSum
import TypedLine.Proofs.FailedOperation
import TypedLine.Proofs.Json.StoredForm
import TypedLine.Proofs.LetterCase
import TypedLine.Proofs.Listing
import TypedLine.Proofs.LookAhead
import TypedLine.Proofs.QuotedForm
import TypedLine.Proofs.Remaining
import TypedLine.Proofs.Rereading
import TypedLine.Proofs.Respacing
import TypedLine.Proofs.Scan
import TypedLine.Proofs.Script
import TypedLine.Proofs.Sequence
import TypedLine.Proofs.Tokenizer
import TypedLine.Proofs.Unread
import TypedLine.Proofs.Widening
