import BirdBoard.Main
import BirdBoard.Proofs.FirstComer
import BirdBoard.Proofs.Legal
import BirdBoard.Proofs.Labels
import BirdBoard.Proofs.VisibleContent
import BirdBoard.Proofs.Selection
import BirdBoard.Proofs.Runs
import BirdBoard.Proofs.Rollback
import BirdBoard.Proofs.Replay.Reading
import BirdBoard.Proofs.Replay.Checks
import BirdBoard.Proofs.Replay.Stop
import BirdBoard.Proofs.Replay.Fixpoint
import BirdBoard.Proofs.Replay.Snapshot
import BirdBoard.Proofs.Replay.Order
import BirdBoard.Proofs.History
import BirdBoard.Proofs.Json.Members
import BirdBoard.Proofs.Json.Reader
import BirdBoard.Proofs.Json.Written
import BirdBoard.Proofs.Json.RoundTrip
import BirdBoard.Proofs.KeyTexts
import BirdBoard.Proofs.CommandLine.Delivery
import BirdBoard.Proofs.Removal
import BirdBoard.Proofs.Refusals
import BirdBoard.Proofs.Census
import BirdBoard.Proofs.LastWriter
import BirdBoard.Proofs.GridBatch
import BirdBoard.Proofs.SwitchNotes
import BirdBoard.Proofs.CommentsAndBraces
import BirdBoard.Proofs.Json.Strictness
import BirdBoard.Proofs.CommandLine.Listings
import BirdBoard.Proofs.CommandLine.EdgeTable
import BirdBoard.Proofs.CommandLine.TableColumns
