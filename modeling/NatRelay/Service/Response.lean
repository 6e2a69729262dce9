import NatRelay.Service.Refusal
import NatRelay.Stun.Datagram

/-! What a listening socket is to its clients, and the packets that the service sends. -/
namespace NatRelay
open Stun (Attribute Key Message)

/-- A listening socket and the address that clients know it by. -/
structure Interface where
  listening : Endpoint
  external : Endpoint
  deriving DecidableEq

/-- How data from a peer is framed for a client. -/
inductive Framing where
  | dataIndication
  | channelData
  deriving DecidableEq

/-- A packet to send, and from where to where. -/
inductive Response where
  /-- An answer to the client whose request came in on the interface. A granted allocation's relayed
  address goes with it. -/
  | reply (interface : Endpoint) (relay? : Option Endpoint) (data : Bytes)
  /-- Data from a client to a peer, by way of the relayed address. -/
  | toPeer (relay peer : Endpoint) (data : Bytes)
  /-- Data from a peer to the client behind the relayed address. -/
  | toClient (relay interface client : Endpoint) (framing : Framing) (data : Bytes)
  deriving DecidableEq

def Response.data : Response → Bytes
  | reply _ _ data | toPeer _ _ data | toClient _ _ _ _ data => data

/-- The outcome of a request before it is put into bytes. -/
inductive Verdict where
  | success (attributes : List Attribute) (relay? : Option Endpoint)
  | refusal (why : Refusal) (attributes : List Attribute)
  deriving DecidableEq

namespace Verdict

def refuse (why : Refusal) : Verdict := refusal why []

/-- The message that tells the client. -/
def message (request : Message) (software : String) : Verdict → Message
  | success attributes _ =>
    { request.reply .success with attributes := attributes ++ [.software software] }
  | refusal why attributes =>
    { request.reply .error with
      attributes := .errorCode why.errorCode :: attributes ++ [.software software] }

/-- The answer as a packet, with a fingerprint. A success is signed with the key, if there is one; a
refusal never is. -/
def respond (v : Verdict) (request : Message) (software : String) (interface : Endpoint)
    (key? : Option Key) : Except Stun.Error Response :=
  match v with
  | success _ relay? => do
    return .reply interface relay? (← (v.message request software).encode key? true)
  | refusal .. => do
    return .reply interface none (← (v.message request software).encode none true)

end Verdict
end NatRelay
