import Komms.Attachment.Equiv.Chunks
import Komms.Attachment.Equiv.Collection
import Komms.Calls.Equiv.Refusals
import Komms.Crypto.Equiv.Base32
import Komms.DeviceAuthority.Equiv.Relation
import Komms.DeviceAuthority.Equiv.SigningBytes
import Komms.Group.Equiv.StaleRequest
import Komms.Group.Equiv.Wedge
import Komms.GroupState.Equiv.Commit
import Komms.Handshake.Equiv.Convergence
import Komms.Handshake.Equiv.Replay
import Komms.Handshake.Equiv.Suppression
import Komms.Mailbox.Equiv.Custody
import Komms.Mailbox.Equiv.Leases
import Komms.Mailbox.Equiv.RateBudget
import Komms.Mailbox.Equiv.Reopen
import Komms.Pqxdh.Equiv.Binding
import Komms.Protocol.Equiv.DeviceSync
import Komms.Protocol.Equiv.Padding
import Komms.Provider.Equiv.Calls
import Komms.Rendezvous.Equiv.SlotRate
import Komms.Sneakernet.Equiv.Recv
import Komms.Store.Equiv.Record
import Komms.Transport.Equiv.Airtime
import Komms.Wake.Equiv.Budget
