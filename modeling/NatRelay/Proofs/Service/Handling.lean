import NatRelay.Proofs.Service.Failure

/-! Requests that a password has proved, and the steps that hand them to their handlers: the end of
a lookup, or a datagram dealt with from start to end. Main statement: `step_of_handed`, that such a
step does what the request does to the table of its own time, whenever the request came in. -/
namespace NatRelay
open Stun (Attribute Message)

/-- Who asks for what. -/
def PendingRequest.request (p : PendingRequest) : Request :=
  ⟨p.message, p.addr, p.interface, p.username⟩

namespace Verdict
variable {why : Refusal} {attributes : List Attribute} {m : Message} {software : String}
  {interface : Endpoint} {key? : Option Stun.Key}

/-- Bytes of a refusal, behind its header. -/
def refusalLength (tid : Stun.TransactionId) (why : Refusal) (attributes : List Attribute)
    (software : String) : Nat :=
  4 + Bytes.paddedLength ((Bytes.ofText why.reason).length + 4) +
    Stun.recordsLength tid attributes + (4 + Bytes.paddedLength (Bytes.ofText software).length) + 8

theorem recordsLength_refusal (hplain : ∀ a ∈ attributes, a.isProtection = false) :
    let answer := (refusal why attributes).message m software
    Stun.recordsLength answer.tid (answer.attributes.filter (!·.isProtection)) +
        Message.codeLength none + 8 = refusalLength m.tid why attributes software := by
  intro answer
  have hattributes : answer.attributes =
      [.errorCode why.errorCode] ++ attributes ++ [.software software] := rfl
  have hall : attributes.filter (!·.isProtection) = attributes := by
    rw [List.filter_eq_self]
    intro a ha
    simp [hplain a ha]
  rw [hattributes, List.filter_append, List.filter_append, hall, Stun.recordsLength_append,
    Stun.recordsLength_append]
  rfl

/-- A refusal is written just if there is room for it. It is signed with no key. -/
theorem respond_refusal_isOk (hplain : ∀ a ∈ attributes, a.isProtection = false) :
    (∃ response, (refusal why attributes).respond m software interface key? = .ok response) ↔
      refusalLength m.tid why attributes software ≤ 65535 := by
  rw [← recordsLength_refusal hplain]
  constructor
  · rintro ⟨response, h⟩
    obtain ⟨bytes, hencode, -⟩ := Stun.bind_eq_ok.1 h
    exact Message.room_of_encode hencode
  · intro hroom
    obtain ⟨bytes, hencode⟩ := Message.encode_of_fits hroom
    exact ⟨_, Stun.bind_eq_ok.2 ⟨bytes, hencode, rfl⟩⟩

end Verdict

namespace Service
variable {s : Service} {op : Op} {now : Time}

/-- A request that a password has proved, the key for its answer, and the draw that serves it. -/
structure Handed where
  pending : PendingRequest
  key : Stun.Key
  draw : Draw

namespace Handed

def request (x : Handed) : Request := x.pending.request

def message (x : Handed) : Message := x.pending.message

/-- What the request does to a table. -/
def decide (x : Handed) (t : Table) (now : Time) : Decision :=
  x.request.decide t x.draw.portOffset now

/-- What a service answers that has come to a verdict. -/
def answer (x : Handed) (s : Service) (v : Verdict) : Reply :=
  .result (some <$> v.respond x.message s.software x.pending.interface.listening (some x.key))

end Handed

/-- The request if the password proves it. -/
def proven? (s : Service) (p : PendingRequest) (password? : Option String) (draw : Draw)
    (now : Time) : Option Handed :=
  match s.authenticate p password? draw.nonce now with
  | .accepted key => some ⟨p, key, draw⟩
  | .rejected .. | .failed _ => none

/-- The request that an operation hands to its handler. -/
def Op.handed? (s : Service) (now : Time) : Op → Option Handed
  | process login i bytes addr draw draw' =>
    match (s.receive i bytes addr draw now).answer with
    | .asks p =>
      let found := login.find addr p.username
      s.proven? p found.password? draw' (now + found.elapsed)
    | .done _ => none
  | resume p password? draw => s.proven? p password? draw now
  | _ => none

/-- What the host hears of a request before it is handled. -/
def Op.announces : Op → Handed → List Event
  | process .., x => [.passwordRequested x.request.addr x.request.username]
  | _, _ => []

theorem resume_of_proven {p : PendingRequest} {password? : Option String} {draw : Draw} {x : Handed}
    (h : s.proven? p password? draw now = some x) :
    x.pending = p ∧ s.resume p password? draw now = s.handle x.pending x.key x.draw now := by
  rw [proven?] at h
  cases hproof : s.authenticate p password? draw.nonce now with
  | accepted key =>
    rw [hproof] at h
    obtain rfl := Option.some.inj h
    exact ⟨rfl, by rw [resume, hproof]; rfl⟩
  | rejected | failed =>
    rw [hproof] at h
    cases h

/-- A step that hands a request on does what the request does when the step ends, to the table that
is there by then, and nothing else. -/
theorem step_of_handed {x : Handed} (h : op.handed? s now = some x) :
    s.step op now =
      let d := x.decide s.table (op.ends s now)
      { answer := x.answer s d.verdict, events := op.announces x ++ d.events
        service := { s with table := d.table } } := by
  cases op with
  | resume p password? draw =>
    rw [step, (resume_of_proven h).2]
    rfl
  | process login i bytes addr draw draw' =>
    rw [Op.handed?] at h
    rw [step, process, Op.ends]
    cases hanswer : (s.receive i bytes addr draw now).answer with
    | done => simp [hanswer] at h
    | asks p =>
      simp only [hanswer] at h ⊢
      obtain ⟨hservice, hevents⟩ := receive_asks hanswer
      obtain ⟨_, hasked⟩ := asked_of_asks hanswer
      obtain ⟨hp, hresume⟩ := resume_of_proven h
      have haddr : x.request.addr = addr := by rw [Handed.request, hp, hasked.pending]; rfl
      have hname : x.request.username = p.username := by rw [Handed.request, hp]; rfl
      rw [hservice, hevents, hresume, Op.announces, haddr, hname]
      rfl
  | receive | relayInbound | sweep | removeUser => cases h

/-- A service that gave the client its nonce hands on what the client signed. -/
theorem Conveys.handed {m : Message} (h : Conveys op m)
    (hready : s.realm = "r" ∧ s.nonces.verify sampleClient "n" now) :
    ∃ x, op.handed? s now = some x ∧ x.request = sampleRequest m := by
  obtain ⟨bytes, offset, rfl, hattests⟩ := h
  let p : PendingRequest :=
    ⟨m, ⟨bytes, { sha1 := some offset }⟩, sampleClient, sampleInterface, "u", "r"⟩
  refine ⟨⟨p, Stun.Credential.key ⟨"u", "r", "p"⟩ .sha1, { nonce := { value := "n" } }⟩, ?_, rfl⟩
  rw [sampleDatagram, Op.handed?, hattests.receive hready.1 hready.2]
  change s.proven? p (some "p") _ now = _
  rw [proven?, authenticate_of_validate hattests.valid]

/-! ### What is decided is told -/

/-- A plain refusal takes little room beside the software text. -/
theorem refuse_of_room (h : 52 + Bytes.paddedLength (Bytes.ofText s.software).length ≤ 65535)
    (m : Message) (why : Refusal) (interface : Endpoint) (key? : Option Stun.Key) :
    ∃ response, (Verdict.refuse why).respond m s.software interface key? = .ok response := by
  have hreason : (Bytes.ofText why.reason).length ≤ 30 := by cases why <;> decide
  refine (Verdict.respond_refusal_isOk (List.forall_mem_nil _)).2 ?_
  rw [Bytes.paddedLength] at h
  simp only [Verdict.refusalLength, Stun.recordsLength, Bytes.paddedLength]
  omega

theorem HasRoom.refuse (h : s.HasRoom) (m : Message) (why : Refusal) (interface : Endpoint)
    (key? : Option Stun.Key) :
    ∃ response, (Verdict.refuse why).respond m s.software interface key? = .ok response := by
  have htext : (Bytes.ofText s.software).length ≤ 65428 := h
  refine refuse_of_room ?_ m why interface key?
  rw [Bytes.paddedLength]
  omega

/-- Whatever a handler decides, the client is sent an answer that says so. -/
theorem HasRoom.answer (h : s.HasRoom) (x : Handed) (t : Table) (now : Time) :
    ∃ response, x.answer s (x.decide t now).verdict = .result (.ok (some response)) := by
  have heffect := x.request.decide_effect t x.draw.portOffset now
  obtain ⟨response, hresponse⟩ : ∃ response, (x.decide t now).verdict.respond x.message s.software
      x.pending.interface.listening (some x.key) = .ok response := by
    rcases heffect.grants x.message.tid with
      ⟨why, hrefused⟩ | ⟨attributes, relay?, hverdict, hplain, hgrant⟩
    · rw [Handed.decide, hrefused]
      exact h.refuse x.message why _ _
    · rw [Handed.decide, hverdict]
      exact h.respond hplain hgrant relay? _ _
  exact ⟨response, by rw [Handed.answer, hresponse]; rfl⟩

/-- The nonce can be told: a challenge that bears it is written. -/
def CanTell (s : Service) (nonce : String) : Prop :=
  ∃ m interface response, (Verdict.refusal .unauthorized [.realm s.realm, .nonce nonce]).respond m
    s.software interface none = .ok response

/-- A challenge of either kind takes as much room. -/
theorem respond_challenge_isOk {why : Refusal} (hwhy : why = .unauthorized ∨ why = .staleNonce)
    {nonce : String} {m : Message} {interface : Endpoint} {key? : Option Stun.Key} :
    (∃ response, (Verdict.refusal why [.realm s.realm, .nonce nonce]).respond m s.software interface
        key? = .ok response) ↔
      40 + Bytes.paddedLength (Bytes.ofText s.realm).length +
        Bytes.paddedLength (Bytes.ofText nonce).length +
        Bytes.paddedLength (Bytes.ofText s.software).length ≤ 65535 := by
  have hreason : Bytes.paddedLength ((Bytes.ofText why.reason).length + 4) = 16 := by
    rcases hwhy with rfl | rfl <;> decide
  rw [Verdict.respond_refusal_isOk (by simp [Attribute.isProtection]),
    Verdict.refusalLength, hreason]
  simp only [Stun.recordsLength, Attribute.value]
  omega

theorem canTell_iff {nonce : String} : s.CanTell nonce ↔
    40 + Bytes.paddedLength (Bytes.ofText s.realm).length +
      Bytes.paddedLength (Bytes.ofText nonce).length +
      Bytes.paddedLength (Bytes.ofText s.software).length ≤ 65535 := by
  constructor
  · rintro ⟨m, interface, response, h⟩
    exact (respond_challenge_isOk (.inl rfl)).1 ⟨response, h⟩
  · intro hroom
    exact ⟨⟨.allocate, .request, 0, []⟩, .v4 0 0, (respond_challenge_isOk (.inl rfl)).2 hroom⟩

end Service
end NatRelay
