import NatRelay.Net.EndpointText

/-! What the relay tells its host about, and the bounded mailbox that carries it. -/
namespace NatRelay

/-- What happened, with the client's address in front. -/
inductive Event where
  /-- A password is about to be looked up. -/
  | passwordRequested (addr : Endpoint) (username : String)
  | allocationCreated (addr : Endpoint) (username : String) (port : UInt16) (relay : Endpoint)
  /-- A Binding request came in. -/
  | bindingObserved (addr : Endpoint)
  /-- A channel was bound or its binding extended. -/
  | channelBound (addr : Endpoint) (username : String) (channel : UInt16)
  /-- A peer got a permission that had none. -/
  | permissionCreated (addr : Endpoint) (username : String) (peer : Endpoint)
  /-- The lifetime in seconds that an allocation starts anew. -/
  | allocationRefreshed (addr : Endpoint) (username : String) (lifetime : UInt32)
  /-- An allocation was deleted or expired. -/
  | allocationAborted (addr : Endpoint) (username : String) (relay : Endpoint)
  deriving DecidableEq

/-- Events on their way to the host, oldest first. A full or closed mailbox drops what is put into
it: nobody waits for the host. -/
structure Mailbox where
  capacity : Nat
  events : List Event := []
  isOpen : Bool := true

namespace Mailbox

/-- An empty mailbox; it holds at least one event. -/
def make (capacity : Nat) : Mailbox := { capacity := max 1 capacity }

def post (m : Mailbox) (e : Event) : Mailbox :=
  if m.isOpen ∧ m.events.length < m.capacity then { m with events := m.events ++ [e] } else m

def postAll (m : Mailbox) (es : List Event) : Mailbox := es.foldl post m

/-- Take the oldest event out. -/
def take? (m : Mailbox) : Option (Event × Mailbox) :=
  match m.events with
  | [] => none
  | e :: es => some (e, { m with events := es })

/-- Stop taking events, and drop those inside. -/
def close (m : Mailbox) : Mailbox := { m with events := [], isOpen := false }

theorem length_post_le (m : Mailbox) (e : Event) (h : m.events.length ≤ m.capacity) :
    (m.post e).events.length ≤ (m.post e).capacity := by
  unfold post
  split
  · simp only [List.length_append, List.length_singleton]
    omega
  · exact h

theorem postAll_of_fits (m : Mailbox) (es : List Event) (ho : m.isOpen = true)
    (h : m.events.length + es.length ≤ m.capacity) : (m.postAll es).events = m.events ++ es := by
  induction es generalizing m with
  | nil => simp [postAll]
  | cons e es ih =>
    simp only [List.length_cons] at h
    have hp : m.post e = { m with events := m.events ++ [e] } := by
      simp [post, ho, show m.events.length < m.capacity by omega]
    have := ih (m.post e) (by simp [hp, ho]) (by simp [hp]; omega)
    simp only [postAll, List.foldl_cons] at this ⊢
    rw [this, hp, List.append_assoc, List.singleton_append]

end Mailbox
end NatRelay
