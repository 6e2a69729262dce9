import NatRelay.Allocation.Basic

/-! The nonces that clients must repeat in their requests: one per client address, good for a fixed
time after issue. Fresh values and the choice of whom to evict are given from outside. -/
namespace NatRelay

/-- A value and when it stops being good. -/
structure IssuedNonce where
  value : String
  expiresAt : Time
  deriving DecidableEq

structure NonceTable where
  ttl : Duration
  /-- Bound on the client addresses; zero is no bound. -/
  capacity : Nat := 65536
  nonces : Assoc Endpoint IssuedNonce := []

/-- What an issue takes from chance. -/
structure NonceDraw where
  /-- The fresh value. -/
  value : String
  /-- Chooses the client to evict from a full table. -/
  victim : Nat := 0

namespace NonceTable

def size (t : NonceTable) : Nat := t.nonces.length

/-- The nonces that are still good. -/
def live (t : NonceTable) (now : Time) : Assoc Endpoint IssuedNonce :=
  t.nonces.filter fun (_, n) => n.expiresAt > now

/-- Make room for one more client: a full table drops what expired, then one nonce. -/
def makeRoom (t : NonceTable) (addr : Endpoint) (victim : Nat) (now : Time) : NonceTable :=
  if t.capacity = 0 ∨ t.size < t.capacity ∨ (t.nonces.lookup addr).isSome then t
  else
    let live := t.live now
    { t with nonces :=
        if live.length < t.capacity then live else live.eraseIdx (victim % live.length) }

/-- Give the client a fresh nonce in place of any other. -/
def issue (t : NonceTable) (addr : Endpoint) (draw : NonceDraw) (now : Time) :
    String × NonceTable :=
  let t := t.makeRoom addr draw.victim now
  (draw.value, { t with nonces := t.nonces.put addr ⟨draw.value, now + t.ttl⟩ })

/-- The client's nonce if it is still good, else a fresh one. -/
def getOrIssue (t : NonceTable) (addr : Endpoint) (draw : NonceDraw) (now : Time) :
    String × NonceTable :=
  match t.nonces.lookup addr with
  | some n => if n.expiresAt > now then (n.value, t) else t.issue addr draw now
  | none => t.issue addr draw now

/-- Whether the value is the client's nonce and still good. -/
def verify (t : NonceTable) (addr : Endpoint) (value : String) (now : Time) : Bool :=
  (t.nonces.lookup addr).any fun n => n.value = value && n.expiresAt > now

/-- Drop what expired; tells how many. -/
def sweep (t : NonceTable) (now : Time) : Nat × NonceTable :=
  (t.size - (t.live now).length, { t with nonces := t.live now })

end NonceTable
end NatRelay
