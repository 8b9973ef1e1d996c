import SctpStack.SendWindow
import SctpStack.Stall
import SctpStack.ExactlyOnce
import SctpStack.Buffered
import SctpStack.CookieLife
import SctpStack.AddressIndex
import SctpStack.Openings
import SctpStack.Negotiation
import SctpStack.Tags
import SctpStack.Probing
import SctpStack.Teardown
import SctpStack.Routing
import SctpStack.Polling
import SctpStack.ReadStream
import SctpStack.Scheduling
import SctpStack.Parameters
import SctpStack.Effort
import SctpStack.FastRetransmit
import SctpStack.Confirmation
import SctpStack.Checksum
import SctpStack.HashFraming
import SctpStack.SendStream
import SctpStack.Reporting
import SctpStack.GapBlocks
import SctpStack.PathMtu
import SctpStack.CumulativeAcks
import SctpStack.SingleCopies
import SctpStack.GracefulClose
import SctpStack.ShutdownGuard
import SctpStack.Completion
import SctpStack.Lifecycle
import SctpStack.Upkeep
import SctpStack.UpkeepHandlers
import SctpStack.UpkeepSteps
import SctpStack.Health
import SctpStack.RoundTrips
import SctpStack.DelayedSacks
import SctpStack.Continuity
import SctpStack.Ends
import SctpStack.Provenance
import SctpStack.Conversation
import SctpStack.Assurance
