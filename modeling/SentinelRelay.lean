import SentinelRelay.Python
import SentinelRelay.Utf8
import SentinelRelay.Wire
import SentinelRelay.Payload
import SentinelRelay.Peer
import SentinelRelay.Registry
import SentinelRelay.Server
import SentinelRelay.Consistency
import SentinelRelay.Delivery
import SentinelRelay.Lifecycle
import SentinelRelay.Rejection
import SentinelRelay.Relay
import SentinelRelay.PeerList
import SentinelRelay.Effects
import SentinelRelay.Provenance
import SentinelRelay.Statistics
import SentinelRelay.Framing
import SentinelRelay.Isolation
import SentinelRelay.Unregistered
import SentinelRelay.Reading
