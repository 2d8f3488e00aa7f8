import RowEngine.Proofs.Query.Copying
import RowEngine.Proofs.Query.Feeding
import RowEngine.Proofs.Cursor.Tally
import RowEngine.Proofs.Storage.Books
import RowEngine.Codec
import RowEngine.Json.Reader
import RowEngine.Query.Children
import RowEngine.Query.Explain
import RowEngine.Query.Layers
import RowEngine.Script.Run
import RowEngine.Proofs.Storage.History
import RowEngine.Proofs.Storage.Capacity
import RowEngine.Proofs.Storage.Atomicity
import RowEngine.Proofs.Storage.Appending
import RowEngine.Proofs.Query.Agreement
import RowEngine.Proofs.Storage.Registration
import RowEngine.Proofs.Query.Intact
import RowEngine.Proofs.Query.Snapshot
import RowEngine.Proofs.Query.Recovery
import RowEngine.Proofs.Query.Halting
import RowEngine.Proofs.Storage.Freshness
import RowEngine.Proofs.Query.Loading
import RowEngine.Proofs.Storage.Exchange
import RowEngine.Proofs.Storage.Containment
import RowEngine.Proofs.Query.Scannable
import RowEngine.Proofs.Query.Rewriting
import RowEngine.Proofs.Query.Replacing
import RowEngine.Proofs.Json.Preimage
import RowEngine.Proofs.Storage.Occupancy
import RowEngine.Proofs.Query.Origins
import RowEngine.Proofs.Storage.Statistics
import RowEngine.Proofs.Row.Storing
import RowEngine.Proofs.Query.Rendering
