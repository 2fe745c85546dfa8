import Trellis.Auth.ScopeCompleteness
import Trellis.Auth.Replay
import Trellis.Operation.Lifecycle
import Trellis.Operation.Encoding
import Trellis.Operation.Retirement
import Trellis.Jobs.Agreement
import Trellis.Runtime.Leases
import Trellis.Runtime.Health
import Trellis.Live.Draining
import Trellis.Live.Delivery
import Trellis.Events.Journal
import Trellis.Events.Projector
import Trellis.Deployments.Escalation
import Trellis.Deployments.Reattachment
import Trellis.Deployments.Evolution
import Trellis.Jobs.Lifecycle
import Trellis.Transfer.Peers
import Trellis.Transfer.Download
import Trellis.Transfer.DownloadEndpoint
import Trellis.Jobs.KeyBounds
import Trellis.Jobs.KeyFence
import Trellis.Jobs.KeyLease
import Trellis.Jobs.Metrics
import Trellis.Deployments.Destruction
import Trellis.Client.Revocations
import Trellis.Client.Reaping
import Trellis.Live.Closing
import Trellis.Live.Record
import Trellis.Live.Admission
import Trellis.Protocol.Timestamps
import Trellis.Idl.Lock
