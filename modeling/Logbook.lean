import Logbook.Hub.Routes
import Logbook.Journal.Session
import Logbook.Laws
import Logbook.Main
import Logbook.Proofs.Journal.Crash
import Logbook.Proofs.Query.DrillDown
import Logbook.Proofs.Query.Grammar
import Logbook.Proofs.Query.Wire
import Logbook.Proofs.Value.Canonical
import Logbook.Proofs.Hub.Verdict
import Logbook.Proofs.Json.Soundness
import Logbook.Proofs.Query.Reading
import Logbook.Proofs.Journal.Checksum
import Logbook.Proofs.Journal.Damage
import Logbook.Proofs.Hub.Stored
import Logbook.Proofs.Query.Congruence
import Logbook.Proofs.Query.Projection
import Logbook.Proofs.Journal.Peek
import Logbook.Proofs.Query.Missing
import Logbook.Proofs.Query.Pages
import Logbook.Proofs.Query.Stability
import Logbook.Proofs.Query.Comparison
import Logbook.Proofs.Number.Exact
import Logbook.Journal.Source
import Logbook.Proofs.Journal.Decision
import Logbook.Proofs.Journal.Detection
import Logbook.Proofs.Query.Placement
import Logbook.Proofs.Store.Batches
import Logbook.Proofs.Query.Shape
import Logbook.Proofs.Query.Location
import Logbook.Proofs.Value.Lookup
import Logbook.Proofs.Ingest.Acceptance
import Logbook.Proofs.Value.Equality
import Logbook.Proofs.Value.Ties
import Logbook.Proofs.Text.Lines
import Logbook.Proofs.Json.Lines
