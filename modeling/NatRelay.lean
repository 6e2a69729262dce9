import NatRelay.Allocation.Run
import NatRelay.Event.Text
import NatRelay.Main
import NatRelay.Nonce.Run
import NatRelay.Proofs.Allocation.Accounting
import NatRelay.Proofs.Allocation.Channel
import NatRelay.Proofs.Allocation.Creation
import NatRelay.Proofs.Allocation.Entries
import NatRelay.Proofs.Allocation.Permission
import NatRelay.Proofs.Allocation.Pruning
import NatRelay.Proofs.Allocation.Quota
import NatRelay.Proofs.Allocation.Routing
import NatRelay.Proofs.Allocation.Tenure
import NatRelay.Proofs.Event.RoundTrip
import NatRelay.Proofs.Host.Reconciliation
import NatRelay.Proofs.Host.Waiting
import NatRelay.Proofs.JsonText.Nested
import NatRelay.Proofs.JsonText.Scalar
import NatRelay.Proofs.Latest
import NatRelay.Proofs.Net.EndpointText
import NatRelay.Proofs.Nonce.Room
import NatRelay.Proofs.Nonce.Window
import NatRelay.Proofs.Number.Plain
import NatRelay.Proofs.Number.Reading
import NatRelay.Proofs.Number.Shortest
import NatRelay.Proofs.Numeral
import NatRelay.Proofs.Service.Admission
import NatRelay.Proofs.Service.Announcement
import NatRelay.Proofs.Service.Answer
import NatRelay.Proofs.Service.Calls
import NatRelay.Proofs.Service.Clock
import NatRelay.Proofs.Service.Destination
import NatRelay.Proofs.Service.Failure
import NatRelay.Proofs.Service.Feedback
import NatRelay.Proofs.Service.Gate
import NatRelay.Proofs.Service.Isolation
import NatRelay.Proofs.Service.Lifetime
import NatRelay.Proofs.Service.Lockout
import NatRelay.Proofs.Service.Nonces
import NatRelay.Proofs.Service.Refreshing
import NatRelay.Proofs.Service.Rejection
import NatRelay.Proofs.Service.Relaying
import NatRelay.Proofs.Service.Retransmission
import NatRelay.Proofs.Service.Rotation
import NatRelay.Proofs.Service.Standing
import NatRelay.Proofs.Settings.Checked
import NatRelay.Proofs.Settings.Secrecy
import NatRelay.Proofs.Settings.Texts
import NatRelay.Proofs.Settings.Usable
import NatRelay.Proofs.Settings.Users
import NatRelay.Proofs.Settings.Value
import NatRelay.Proofs.Settings.Variables
import NatRelay.Proofs.Stun.Canonical
import NatRelay.Proofs.Stun.Coverage
import NatRelay.Proofs.Stun.Demultiplexing
import NatRelay.Proofs.Stun.Frame
import NatRelay.Proofs.Stun.Grammar
import NatRelay.Proofs.Stun.Growing
import NatRelay.Proofs.Stun.Packet
import NatRelay.Proofs.Stun.Plain
import NatRelay.Proofs.Stun.Representable
import NatRelay.Proofs.Stun.RoundTrip
import NatRelay.Proofs.Stun.Sealed
import NatRelay.Proofs.Stun.Signed
import NatRelay.Proofs.Text.Pieces
