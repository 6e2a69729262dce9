import NatRelay.Service.Process

/-! What happens to a service as data, and what a sequence of it does. Between the two halves of a
request other operations may come. -/
namespace NatRelay

/-- The same step with another answer. -/
def Outcome.map {α β : Type} (f : α → β) (o : Outcome α) : Outcome β :=
  { answer := f o.answer, events := o.events, service := o.service }

namespace Service

inductive Op where
  /-- A datagram from a client, from start to end. -/
  | process (login : Login) (i : Interface) (bytes : Bytes) (addr : Endpoint) (draw draw' : Draw)
  /-- A datagram from a client, up to the lookup of a password. -/
  | receive (i : Interface) (bytes : Bytes) (addr : Endpoint) (draw : Draw)
  /-- The end of a lookup. -/
  | resume (request : PendingRequest) (password? : Option String) (draw : Draw)
  /-- Data from a peer. -/
  | relayInbound (relay peer : Endpoint) (payload : Bytes) (draw : Draw)
  | sweep
  | removeUser (username : String)

/-- What an operation answers. -/
inductive Reply where
  | progress (p : Progress)
  | result (r : Except Stun.Error (Option Response))
  | relayed (response? : Option Response)
  | removed (count : Nat)

/-- One operation at a time. -/
def step (s : Service) (op : Op) (now : Time) : Outcome Reply :=
  match op with
  | .process login i bytes addr draw draw' =>
    (s.process login i bytes addr draw draw' now).map .result
  | .receive i bytes addr draw => (s.receive i bytes addr draw now).map .progress
  | .resume p password? draw => (s.resume p password? draw now).map .result
  | .relayInbound relay peer payload draw =>
    { answer := .relayed (s.relayInbound relay peer payload draw now), service := s }
  | .sweep => (s.sweep now).map .removed
  | .removeUser username => (s.removeUser username).map .removed

/-- Operations one after the other, each at its time; the events of all of them in order. -/
def run (s : Service) : List (Op × Time) → Outcome (List Reply)
  | [] => { answer := [], service := s }
  | (op, now) :: rest =>
    let o := s.step op now
    let more := o.service.run rest
    { answer := o.answer :: more.answer, events := o.events ++ more.events
      service := more.service }

end Service
end NatRelay
