import CacheAside.Text.Blank
import CacheAside.Text.Hex
import CacheAside.Ident
import CacheAside.Decimal.Notation
import CacheAside.Time.Timestamp
import CacheAside.Time.Rfc3339
import CacheAside.Json.Reader
import CacheAside.Json.Printer
import CacheAside.Wire.Counts
import CacheAside.Wire.Event
import CacheAside.Wire.Page
import CacheAside.Config
import CacheAside.ServiceError
import CacheAside.Ident.Generator
import CacheAside.Backend
import CacheAside.Service.Refresh
import CacheAside.Service.Assembly
import CacheAside.Simulation.Schedule
import CacheAside.Demo
import CacheAside.Main
import CacheAside.Proofs.Transparency
import CacheAside.Proofs.Interleaving.Coherence
import CacheAside.Proofs.Interleaving.Outdated
import CacheAside.Proofs.Interleaving.Polling
import CacheAside.Proofs.Interleaving.Validity
import CacheAside.Proofs.Interleaving.Reports
import CacheAside.Proofs.Interleaving.Stream
import CacheAside.Proofs.Staleness
import CacheAside.Proofs.Expiry
import CacheAside.Proofs.Recall
import CacheAside.Proofs.Indifference
import CacheAside.Proofs.Interleaving.Interruption
import CacheAside.Proofs.Interleaving.Lifecycle
import CacheAside.Proofs.Interleaving.Tracking
import CacheAside.Proofs.RoundTrip.Values
import CacheAside.Proofs.RoundTrip.Pages
import CacheAside.Proofs.Paging
import CacheAside.Proofs.Separation
import CacheAside.Proofs.Views
import CacheAside.Proofs.Edits
import CacheAside.Proofs.RoundTrip.Tags
import CacheAside.Proofs.RoundTrip.Presence
import CacheAside.Proofs.RoundTrip.Rearranged
import CacheAside.Proofs.RoundTrip.Identifiers
import CacheAside.Proofs.CreationOrder
import CacheAside.Proofs.Configuration
import CacheAside.Proofs.Rules
