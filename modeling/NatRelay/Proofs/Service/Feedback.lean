import NatRelay.Proofs.Service.Destination

/-! Nothing goes round in circles. Only requests are answered, and no STUN message that the service
sends is a request or a Send indication. Main statement: `run_feedback`. -/
namespace NatRelay
open Stun (Datagram Message Received)

/-- Bytes of a message that asks for nothing: a response or a Data indication. -/
def Stun.IsInert (bytes : Bytes) : Prop :=
  ∃ (m : Message) (key? : Option Stun.Key) (fingerprint : Bool),
    m.encode key? fingerprint = .ok bytes ∧
      (m.cls = .success ∨ m.cls = .error ∨ m.cls = .indication ∧ m.method = .data)

/-- Whether a packet is a STUN message: an answer or a Data indication. -/
def Response.isMessage : Response → Bool
  | reply .. | toClient _ _ _ .dataIndication _ => true
  | toPeer .. | toClient _ _ _ .channelData _ => false

theorem Verdict.inert_of_respond {v : Verdict} {m : Message} {software : String}
    {interface : Endpoint} {key? : Option Stun.Key} {response : Response}
    (h : some <$> v.respond m software interface key? = .ok (some response)) :
    Stun.IsInert response.data := by
  obtain ⟨relay?, key?', data, rfl, hdata⟩ := respond_eq_ok (Stun.some_map_eq_ok.1 h)
  refine ⟨_, key?', true, hdata, ?_⟩
  cases v with
  | success => exact .inl rfl
  | refusal => exact .inr (.inl rfl)

namespace Service
variable {s : Service} {i : Interface} {bytes : Bytes} {addr : Endpoint} {now : Time}
  {draw : Draw} {response : Response}

/-! ### What is sent -/

theorem Receipt.inert {o : Outcome Progress} (h : s.Receipt i bytes addr draw now o)
    (hsent : o.answer = .done (.ok (some response))) (hmessage : response.isMessage) :
    Stun.IsInert response.data := by
  cases h with
  | malformed | unanswered | asks => cases hsent
  | misunderstood | observed | refused => exact Verdict.inert_of_respond (Progress.done.inj hsent)
  | sent | sentOnChannel =>
    obtain rfl := Option.some.inj (Except.ok.inj (Progress.done.inj hsent))
    cases hmessage

theorem Settlement.inert {p : PendingRequest} {password? : Option String}
    {o : Outcome (Except Stun.Error (Option Response))} (h : s.Settlement p password? draw now o)
    (hsent : o.answer = .ok (some response)) : Stun.IsInert response.data := by
  cases h with
  | refused | accepted => exact Verdict.inert_of_respond hsent

theorem relayInbound_inert {relay peer : Endpoint} {payload : Bytes}
    (h : s.relayInbound relay peer payload draw now = some response)
    (hmessage : response.isMessage) : Stun.IsInert response.data := by
  rw [relayInbound] at h
  split at h
  · cases h
  rename_i route _
  cases hchannel : route.channel with
  | none =>
    rw [hchannel, wrap] at h
    split at h
    · rename_i hwrapped
      obtain ⟨-, hdata⟩ := Prod.mk.inj hwrapped
      obtain rfl := Option.some.inj h
      exact ⟨_, none, false, hdata, .inr (.inr ⟨rfl, rfl⟩)⟩
    · cases h
  | some number =>
    rw [hchannel, wrap] at h
    split at h
    · rename_i hwrapped
      obtain ⟨rfl, -⟩ := Prod.mk.inj hwrapped
      obtain rfl := Option.some.inj h
      cases hmessage
    · cases h

theorem process_inert {login : Login} {draw' : Draw}
    (h : (s.process login i bytes addr draw draw' now).answer = .ok (some response))
    (hmessage : response.isMessage) : Stun.IsInert response.data := by
  have hreceipt := s.receive_receipt i bytes addr draw now
  rw [process] at h
  split at h
  · rename_i hanswer
    obtain rfl := h
    exact hreceipt.inert hanswer hmessage
  · exact (resume_settlement ..).inert h

/-- One operation sends no STUN message that asks for anything. -/
theorem step_inert {op : Op} (h : (s.step op now).answer.Sends response)
    (hmessage : response.isMessage) : Stun.IsInert response.data := by
  cases op with
  | process => exact process_inert (Reply.sends_result.1 h) hmessage
  | receive => exact (s.receive_receipt ..).inert (Reply.sends_progress.1 h) hmessage
  | resume => exact (s.resume_settlement ..).inert (Reply.sends_result.1 h)
  | relayInbound => exact relayInbound_inert (Reply.sends_relayed.1 h) hmessage
  | sweep | removeUser => cases h

theorem run_inert (s : Service) (ops : List (Op × Time)) :
    ∀ reply ∈ (s.run ops).answer, ∀ response, reply.Sends response → response.isMessage →
      Stun.IsInert response.data := by
  induction ops generalizing s with
  | nil => simp [run]
  | cons o ops ih => exact List.forall_mem_cons.2 ⟨fun response => step_inert, ih _⟩

/-! ### What becomes of what is no request -/

/-- The data of a Send indication goes out, from the sender's own relayed address to the peer that
the message names, which has a permission. -/
structure Forwards (s : Service) (i : Interface) (m : Message) (addr : Endpoint) (now : Time)
    (relay peer : Endpoint) (data : Bytes) (t' : Table) : Prop where
  cls : m.cls = .indication
  method : m.method = .send
  names : m.peerAddresses.head? = some peer
  holds : m.data = some data
  owner : ∃ a, s.table.find? (.udp addr i.listening) now = some a ∧ a.relay = relay ∧
    a.isPermitted peer.ip now ∧
    t' = s.table.update (.udp addr i.listening)
      (·.permit peer.ip (now + s.table.options.permissionLifetime))

/-- A message that is no request is passed over, or it is a Send indication. -/
theorem process_of_not_request {r : Received} (login : Login) (draw' : Draw)
    (hdecoded : Datagram.decode bytes = .ok (.message r)) (hcls : r.message.cls ≠ .request) :
    s.process login i bytes addr draw draw' now = { answer := .ok none, service := s } ∨
      ∃ relay peer data t', s.Forwards i r.message addr now relay peer data t' ∧
        s.process login i bytes addr draw draw' now =
          { answer := .ok (some (.toPeer relay peer data))
            service := { s with table := t' } } := by
  have hreceipt := s.receive_receipt i bytes addr draw now
  rw [process]
  generalize s.receive i bytes addr draw now = o at hreceipt ⊢
  cases hreceipt with
  | malformed herror =>
    rw [hdecoded] at herror
    cases herror
  | unanswered => exact .inl rfl
  | sent hdecoded' hindication hmethod hpeer hdata hsend =>
    obtain rfl := Datagram.message_unique hdecoded hdecoded'
    obtain ⟨a, ha, hpermitted, hrelay, ht'⟩ := Table.permitSend_eq_some.1 hsend
    exact .inr ⟨_, _, _, _,
      ⟨hindication, hmethod, hpeer, hdata, a, ha, hrelay, hpermitted, ht'⟩, rfl⟩
  | sentOnChannel hframe =>
    rw [hdecoded] at hframe
    cases hframe
  | misunderstood hdecoded' hrequest
  | observed hdecoded' hrequest
  | refused hdecoded' hrequest
  | asks hdecoded' hrequest =>
    obtain rfl := Datagram.message_unique hdecoded hdecoded'
    exact absurd hrequest hcls

/-- Nothing is sent, nothing is announced, and nothing changes. -/
structure Silent (s : Service) (o : Outcome (Except Stun.Error (Option Response))) : Prop where
  unanswered : ∀ response, o.answer ≠ .ok (some response)
  events : o.events = []
  service : o.service = s

theorem silent_none (s : Service) : s.Silent { answer := .ok none, service := s } :=
  ⟨nofun, rfl, rfl⟩

theorem silent_error (s : Service) (e : Stun.Error) :
    s.Silent { answer := .error e, service := s } :=
  ⟨nofun, rfl, rfl⟩

theorem process_of_malformed {e : Stun.Error} (login : Login) (draw' : Draw)
    (hdecoded : Datagram.decode bytes = .error e) :
    s.process login i bytes addr draw draw' now = { answer := .error e, service := s } := by
  rw [process, receive, hdecoded]

/-- What asks for nothing comes to nothing. -/
theorem process_of_inert (h : Stun.IsInert bytes) (login : Login) (draw' : Draw) :
    s.Silent (s.process login i bytes addr draw draw' now) := by
  obtain ⟨m, key?, fingerprint, hencode, hkind⟩ := h
  cases hdecoded : Datagram.decode bytes with
  | error e =>
    rw [process_of_malformed login draw' hdecoded]
    exact s.silent_error e
  | ok d =>
    obtain ⟨r, rfl, hmethod, hcls⟩ := Message.head_of_encode hencode hdecoded
    have hrequest : r.message.cls ≠ .request := by
      rintro hrequest
      rw [← hcls, hrequest] at hkind
      rcases hkind with h | h | ⟨h, -⟩ <;> cases h
    rcases process_of_not_request login draw' hdecoded hrequest with heq | ⟨_, _, _, _, hsent, -⟩
    · rw [heq]
      exact s.silent_none
    · rw [← hcls, ← hmethod, hsent.cls, hsent.method] at hkind
      rcases hkind with h | h | ⟨-, h⟩ <;> cases h

/-- A response is passed over and changes nothing. An indication is never answered: it is passed
over, or its data goes to a peer. So no STUN message that a service ever sends makes a service do
anything, wherever it comes from. -/
theorem run_feedback (s : Service) (ops : List (Op × Time)) (s' : Service) (login : Login)
    (i : Interface) (addr : Endpoint) (draw draw' : Draw) (now : Time) :
    (∀ bytes r, Datagram.decode bytes = .ok (.message r) →
      (r.message.cls = .success ∨ r.message.cls = .error →
        s'.process login i bytes addr draw draw' now = { answer := .ok none, service := s' }) ∧
      (r.message.cls = .indication →
        s'.process login i bytes addr draw draw' now = { answer := .ok none, service := s' } ∨
          ∃ relay peer data t', s'.Forwards i r.message addr now relay peer data t' ∧
            s'.process login i bytes addr draw draw' now =
              { answer := .ok (some (.toPeer relay peer data))
                service := { s' with table := t' } })) ∧
    ∀ reply ∈ (s.run ops).answer, ∀ response, reply.Sends response → response.isMessage →
      s'.Silent (s'.process login i response.data addr draw draw' now) := by
  refine ⟨fun bytes r hdecoded => ⟨fun hcls => ?_, fun hcls => ?_⟩, ?_⟩
  · rcases process_of_not_request login draw' hdecoded
      (by rcases hcls with h | h <;> simp [h]) with heq | ⟨_, _, _, _, hsent, -⟩
    · exact heq
    · rw [hsent.cls] at hcls
      rcases hcls with h | h <;> cases h
  · exact process_of_not_request login draw' hdecoded (by simp [hcls])
  · intro reply hreply response hsends hmessage
    exact process_of_inert (run_inert s ops reply hreply response hsends hmessage) login draw'

end Service
end NatRelay
