import PqMsg.Session.PingPong
import PqMsg.Session.RootAgreement
import PqMsg.Handshake.SafetyNumber
import PqMsg.Transparency.WebAgreement
import PqMsg.Client.FailedSends
import PqMsg.Server.Realtime
import PqMsg.Client.Interleaving
import PqMsg.Client.Replays
import PqMsg.Server.RotationChain
import PqMsg.Server.ServedBundles
import PqMsg.Server.OneTimePrekeys
import PqMsg.Server.RealtimeRouting
import PqMsg.Server.RelayDedup
import PqMsg.Server.ServedProofs
import PqMsg.Server.Ephemeral
import PqMsg.Server.PrimaryDevice
import PqMsg.Client.FirstContact
import PqMsg.Core.TlvCursor
import PqMsg.Sealed.Codecs
import PqMsg.Server.GroupInvites
import PqMsg.Discovery.Tickets
import PqMsg.Server.ContactInvites
import PqMsg.Server.StoredBlobs
import PqMsg.Client.GroupThread
import PqMsg.Session.HeaderKeys
import PqMsg.Server.RateLimiter
import PqMsg.Discovery.Manifest
import PqMsg.Server.TimeWindows
import PqMsg.Server.AuditLog
