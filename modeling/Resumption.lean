import Resumption.Script.EitherSteps
import Resumption.Script.DeferredSteps
import Resumption.Script.TrampolineSteps
import Resumption.Script.ConsoleSteps
import Resumption.Script.FilesSteps
import Resumption.Script.ProcessRun
import Resumption.Proofs.Trampoline.Drive
import Resumption.Proofs.Trampoline.PlainList
import Resumption.Proofs.Effect.SequencesBinds
import Resumption.Proofs.Trampoline.Erasing
import Resumption.Proofs.Effect.Erasing
import Resumption.Proofs.Sequencers
import Resumption.Proofs.Console.UnreadInput
import Resumption.Proofs.Console.Double
import Resumption.Proofs.TrueRecords
import Resumption.Proofs.Files.Independence
import Resumption.Proofs.Console.Reading
import Resumption.Proofs.Files.Appending
import Resumption.Proofs.LineReaders
import Resumption.Proofs.Queue.Shelf
import Resumption.Proofs.CompactQueues
import Resumption.Proofs.Effect.StoredNode
import Resumption.Proofs.Wrapped
