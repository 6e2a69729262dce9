import NatRelay.Nonce

/-! Operations on the nonce table as data, and what a sequence of them does. -/
namespace NatRelay.NonceTable

inductive Op where
  | getOrIssue (addr : Endpoint) (draw : NonceDraw)
  | issue (addr : Endpoint) (draw : NonceDraw)
  | verify (addr : Endpoint) (value : String)
  | sweep

/-- What an operation answers. -/
inductive Reply where
  | nonce (value : String)
  | verified (isGood : Bool)
  | removed (count : Nat)
  deriving DecidableEq

/-- One operation at a time. -/
def step (t : NonceTable) (op : Op) (now : Time) : Reply × NonceTable :=
  match op with
  | .getOrIssue addr draw =>
    let (value, t) := t.getOrIssue addr draw now
    (.nonce value, t)
  | .issue addr draw =>
    let (value, t) := t.issue addr draw now
    (.nonce value, t)
  | .verify addr value => (.verified (t.verify addr value now), t)
  | .sweep =>
    let (count, t) := t.sweep now
    (.removed count, t)

/-- Operations one after the other, each at its time. -/
def run (t : NonceTable) : List (Op × Time) → List Reply × NonceTable
  | [] => ([], t)
  | (op, now) :: rest =>
    let (reply, t) := t.step op now
    let (replies, t) := run t rest
    (reply :: replies, t)

end NatRelay.NonceTable
