import Switchyard.Main
import Switchyard.Logging
import Switchyard.Value.Compact
import Switchyard.Regex.Spans
import Switchyard.Proofs.Dispatch.Calls
import Switchyard.Proofs.Dispatch.Phases
import Switchyard.Proofs.Dispatch.Protocol
import Switchyard.Proofs.Dispatch.Suspension
import Switchyard.Proofs.Dispatch.Shielding
import Switchyard.Proofs.Pattern.Matching
import Switchyard.Proofs.Pattern.Subtree
import Switchyard.Proofs.Dispatch.Coverage
import Switchyard.Proofs.Pattern.Meaning
import Switchyard.Proofs.Cors.Combining
import Switchyard.Proofs.Dispatch.Assembly
import Switchyard.Proofs.Cors.Announcing
import Switchyard.Proofs.Dispatch.Preflight
import Switchyard.Proofs.View.Selection
import Switchyard.Proofs.Media.Compatibility
import Switchyard.Proofs.View.Acceptance
import Switchyard.Proofs.Cors.Union
import Switchyard.Proofs.Cors.Laws
import Switchyard.Proofs.Dispatch.Readiness
import Switchyard.Proofs.Config.Readiness
import Switchyard.Proofs.Media.RoundTrip
import Switchyard.Proofs.Pattern.Filling
import Switchyard.Proofs.Dispatch.Visits
import Switchyard.Proofs.Dispatch.Metering
import Switchyard.Proofs.Dispatch.Traffic
import Switchyard.Proofs.Dispatch.Twins
import Switchyard.Proofs.Dispatch.Agreement
import Switchyard.Proofs.Cors.Credentials
import Switchyard.Proofs.Dispatch.Completion
import Switchyard.Proofs.Routing.Choice
import Switchyard.Proofs.Routing.Head
import Switchyard.Proofs.Media.Inclusion
import Switchyard.Proofs.Media.Displacement
import Switchyard.Proofs.View.Negotiated
import Switchyard.Proofs.Negotiation.AcceptHeader
import Switchyard.Proofs.Cors.Framing
import Switchyard.Proofs.View.Refusal
import Switchyard.Proofs.Pattern.Verdict
import Switchyard.Proofs.Pattern.Writing
import Switchyard.Proofs.Cors.Globs
import Switchyard.Proofs.Pattern.TrailingSlash
import Switchyard.Proofs.Routing.Containment
import Switchyard.Proofs.Pattern.Confinement
import Switchyard.Proofs.View.Caching
import Switchyard.Proofs.Dispatch.Publishing
import Switchyard.Proofs.Http.Updates
import Switchyard.Proofs.Dispatch.Passing
import Switchyard.Proofs.Config.Likeness
import Switchyard.Proofs.CommandLine.Prediction
import Switchyard.Proofs.Negotiation.Extensions
import Switchyard.Proofs.Text.Cuts
import Switchyard.Proofs.Dispatch.HandOff
