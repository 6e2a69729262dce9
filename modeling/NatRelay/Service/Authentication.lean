import NatRelay.Service.Basic

/-! Who sent a request. A request without a good nonce is challenged; the password of the user that
it names is looked up, and its code is verified with it. Rejected credentials cost the client its
nonce. -/
namespace NatRelay
open Stun (Message Wire Credential Key)

/-- A request of which the password is not known yet. -/
structure PendingRequest where
  message : Message
  wire : Wire
  addr : Endpoint
  interface : Interface
  username : String
  realm : String
  deriving DecidableEq

namespace Service

/-- A refusal that carries the realm and a nonce. -/
def challenge (s : Service) (why : Refusal) (nonce : String) (nonces : NonceTable) :
    Verdict × Service :=
  (.refusal why [.realm s.realm, .nonce nonce], { s with nonces })

/-- A challenge that leaves a good nonce in force. -/
def remind (s : Service) (addr : Endpoint) (why : Refusal) (draw : NonceDraw) (now : Time) :
    Verdict × Service :=
  let (nonce, nonces) := s.nonces.getOrIssue addr draw now
  s.challenge why nonce nonces

/-- A challenge that takes the client's nonce out of force. -/
def rotate (s : Service) (addr : Endpoint) (draw : NonceDraw) (now : Time) : Verdict × Service :=
  let (nonce, nonces) := s.nonces.issue addr draw now
  s.challenge .unauthorized nonce nonces

/-- What is known of the sender before a password is looked up. -/
inductive Claimant where
  | rejected (verdict : Verdict) (service : Service)
  | named (username realm : String)

/-- Judge a request by its texts. -/
def identify (s : Service) (m : Message) (addr : Endpoint) (draw : NonceDraw) (now : Time) :
    Claimant :=
  let reject (v : Verdict × Service) : Claimant := .rejected v.1 v.2
  if !m.hasIntegrity then reject (s.remind addr .unauthorized draw now)
  else
    match m.username, m.realm, m.nonce with
    | some username, some realm, some nonce =>
      if realm ≠ s.realm then reject (s.remind addr .unauthorized draw now)
      else if !s.nonces.verify addr nonce now then reject (s.remind addr .staleNonce draw now)
      else .named username realm
    | _, _, _ => .rejected (.refuse .badRequest) s

/-- What a password proves. -/
inductive Proof where
  | accepted (key : Key)
  | rejected (verdict : Verdict) (service : Service)
  | failed (error : Stun.Error)

/-- Judge a request by the password of the user that it names. -/
def authenticate (s : Service) (p : PendingRequest) (password? : Option String) (draw : NonceDraw)
    (now : Time) : Proof :=
  let rotated := s.rotate p.addr draw now
  match password? with
  | none => .rejected rotated.1 rotated.2
  | some password =>
    let credential : Credential := ⟨p.username, p.realm, password⟩
    match Stun.validate p.message (some p.wire) credential with
    | .ok mechanism => .accepted (credential.key mechanism)
    | .error .integrityFailed | .error .notIntegrity => .rejected rotated.1 rotated.2
    | .error .invalidInput => .rejected (.refuse .badRequest) s
    | .error e => .failed e

end Service
end NatRelay
