import Abyssal.Rooms.Chain
import Abyssal.Rooms.StateBudget
import Abyssal.Rooms.Isolation
import Abyssal.Mls.Rollback
import Abyssal.Mls.Rosters
import Abyssal.Direct.AllOrNothing
import Abyssal.Direct.Once
import Abyssal.Rooms.ReplayWindow
import Abyssal.Rooms.ExpiryRuns
import Abyssal.Transport.Channel
import Abyssal.Transport.StreamRuns
import Abyssal.Client.PoolRelay
import Abyssal.Client.Recovery
import Abyssal.Client.Padding
import Abyssal.Relay.BootstrapReceipts
import Abyssal.Transport.HttpSessions
import Abyssal.Relay.Handles
import Abyssal.Relay.AttachmentDownloads
import Abyssal.Transport.MessagePadding
import Abyssal.Mls.Credentials
import Abyssal.Direct.ReceiptRuns
