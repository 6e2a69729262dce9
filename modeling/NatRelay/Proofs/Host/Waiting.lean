import NatRelay.Host.Basic
import NatRelay.Proofs.Service.Process
import NatRelay.Proofs.Stun.Demultiplexing

/-! Which datagrams make the host wait. A listening socket looks at two bytes to tell requests from
the rest, and it is right: whatever does not show as a request is dealt with at once, by the table
alone (`receive_of_peeked`), so that it neither waits for a password nor takes the place of a
request that does (`waiting_receive`). Main statement: `peek_decides`. -/
namespace NatRelay
open Stun (ChannelData Datagram Message Positional peekClass peekClassAt splitMessageType splitType)

/-- Channel data shows no class. -/
theorem Stun.peekClass_of_channelData {bytes : Bytes} {c : ChannelData}
    (h : Datagram.decode bytes = .ok (.channelData c)) : peekClass bytes = none := by
  obtain ⟨hleast, hgreatest, -, tail, rfl, -⟩ := Datagram.decode_eq_channelData.1 h
  obtain ⟨n₁, n₀, hnumber, -, hhigh⟩ := Bytes.be16_eq c.number
  have htop : n₁.toNat / 64 ≠ 0 := by
    have hone := ChannelData.div_eq_one_iff.2 ⟨hleast, hgreatest⟩
    omega
  simp only [ChannelData.bare, hnumber, List.cons_append, List.nil_append, peekClass, htop,
    if_false]

/-- The class that shows is the class that is read. -/
theorem Stun.peekClass_of_message {bytes : Bytes} {r : Stun.Received}
    (h : Datagram.decode bytes = .ok (.message r)) : peekClass bytes = some r.message.cls := by
  rw [Datagram.decode.eq_def] at h
  repeat' split at h
  · obtain ⟨r', hr', heq⟩ := Stun.map_eq_ok.1 h
    rw [← Datagram.message.inj heq]
    exact Message.peekClass_of_decode hr'
  · obtain ⟨c, -, heq⟩ := Stun.map_eq_ok.1 h
    cases heq
  · cases h
  · cases h

namespace Service
variable {s : Service} {bytes : Bytes} {now : Time}

/-- Data under a permission is sent by the table alone. -/
theorem sendIndication_table (s : Service) (i : Interface) (m : Message) (addr : Endpoint)
    (now : Time) : ∃ response? t', ∀ nonces : NonceTable,
      { s with nonces }.sendIndication i m addr now =
        (response?, { s with nonces, table := t' }) := by
  refine ⟨(s.sendIndication i m addr now).1, (s.sendIndication i m addr now).2.table,
    fun nonces => ?_⟩
  simp only [sendIndication]
  split
  · split <;> rfl
  · rfl

/-- Data on a channel is sent by the table alone. -/
theorem sendChannelData_table (s : Service) (i : Interface) (c : ChannelData) (addr : Endpoint)
    (now : Time) : ∃ response? t', ∀ nonces : NonceTable,
      { s with nonces }.sendChannelData i c addr now =
        (response?, { s with nonces, table := t' }) := by
  refine ⟨(s.sendChannelData i c addr now).1, (s.sendChannelData i c addr now).2.table,
    fun nonces => ?_⟩
  simp only [sendChannelData]
  split <;> rfl

/-- What does not show as a request is dealt with at once: neither nonces nor passwords nor chance
have a part in it, and nothing is announced. -/
theorem receive_of_peeked (s : Service) (h : peekClass bytes ≠ some .request) (i : Interface)
    (addr : Endpoint) (now : Time) : ∃ answer t', ∀ (nonces : NonceTable) (draw : Draw),
      { s with nonces }.receive i bytes addr draw now =
        { answer := .done answer, service := { s with nonces, table := t' } } := by
  cases hdecoded : Datagram.decode bytes with
  | error e => exact ⟨.error e, s.table, fun nonces draw => by rw [receive, hdecoded]⟩
  | ok d =>
    cases d with
    | channelData c =>
      obtain ⟨response?, t', hsend⟩ := s.sendChannelData_table i c addr now
      exact ⟨.ok response?, t', fun nonces draw => by simp only [receive, hdecoded, hsend]⟩
    | message r =>
      rw [Stun.peekClass_of_message hdecoded] at h
      cases hcls : r.message.cls with
      | request => exact absurd (congrArg some hcls) h
      | indication =>
        obtain ⟨response?, t', hsend⟩ := s.sendIndication_table i r.message addr now
        refine ⟨.ok response?, t', fun nonces draw => ?_⟩
        simp only [receive, hdecoded, hcls, hsend]
      | success | error =>
        exact ⟨.ok none, s.table, fun nonces draw => by simp only [receive, hdecoded, hcls]⟩

end Service

namespace Host
variable {h : Host} {n : Network} {i : Interface} {client : Endpoint} {data : Bytes} {draw : Draw}
  {now : Time}

theorem waiting_deliver (h : Host) (n : Network) (client : Endpoint) (response : Response) :
    (h.deliver n client response).1.waiting = h.waiting := by
  cases response with
  | reply | toClient => rfl
  | toPeer relay peer data =>
    rw [deliver]
    dsimp only
    split <;> rfl

theorem waiting_conclude (h : Host) (n : Network) (client : Endpoint)
    (o : Outcome (Except Stun.Error (Option Response))) :
    (h.conclude n client o).1.waiting = h.waiting := by
  rw [conclude]
  split
  · exact waiting_deliver ..
  · rfl

theorem waiting_ask (h : Host) (n : Network) (p : PendingRequest) (draw : Draw) (now : Time) :
    (h.ask n p draw now).1.waiting.length ≤ h.waiting.length + 1 := by
  rw [ask]
  split
  · rw [resume, waiting_conclude]
    exact Nat.le_succ _
  · rw [resume, waiting_conclude]
    exact Nat.le_succ _
  · simp

/-- What does not show as a request takes no place among those that wait. -/
theorem waiting_receive (hpeek : peekClass data ≠ some .request) :
    (h.receive n i client data draw now).1.waiting = h.waiting := by
  obtain ⟨answer, t', hreceive⟩ := h.service.receive_of_peeked hpeek i client now
  have hreceive : h.service.receive i data client draw now = _ := hreceive h.service.nonces draw
  rw [receive, if_neg (fun hfull => hpeek hfull.1), hreceive]
  exact waiting_conclude ..

/-- However the datagrams are made, no more requests wait than may. -/
theorem length_waiting_receive (hroom : h.waiting.length ≤ h.maxPending) :
    (h.receive n i client data draw now).1.waiting.length ≤ h.maxPending := by
  by_cases hpeek : peekClass data = some .request
  · rw [receive]
    split
    · exact hroom
    rename_i hfree
    have hfree : h.waiting.length < h.maxPending :=
      Nat.not_le.1 fun hfull => hfree ⟨hpeek, hfull⟩
    dsimp only
    split
    · rw [waiting_conclude]
      exact hroom
    · exact Nat.le_trans (waiting_ask ..) hfree
  · rw [waiting_receive hpeek]
    exact hroom

end Host

/-- Two bytes show what the whole datagram says: a message its class and channel data none, whether
they are read by pattern or by position, and the bits of the type by sums or by masks. What does not
show as a request is answered at once and by the table alone. Whatever the nonces, the passwords and
chance, the answer is the same, nothing is announced and the nonces stay; on the host it takes no
place among the requests that wait, of which there are never more than may be. -/
theorem peek_decides :
    (∀ bytes r, Datagram.decode bytes = .ok (.message r) →
      peekClass bytes = some r.message.cls) ∧
    (∀ bytes c, Datagram.decode bytes = .ok (.channelData c) → peekClass bytes = none) ∧
    (∀ bytes, Datagram.decodeAt bytes = Positional.settled (Datagram.decode bytes) ∧
      peekClassAt bytes = pure (peekClass bytes)) ∧
    (∀ type, splitType type = splitMessageType type) ∧
    (∀ (s : Service) (i : Interface) (bytes : Bytes) (addr : Endpoint) (now : Time),
      peekClass bytes ≠ some .request →
      ∃ answer t', ∀ (nonces : NonceTable) (login : Login) (draw draw' : Draw),
        { s with nonces }.receive i bytes addr draw now =
          { answer := .done answer, events := [], service := { s with nonces, table := t' } } ∧
        { s with nonces }.process login i bytes addr draw draw' now =
          { answer, events := [], service := { s with nonces, table := t' } }) ∧
    (∀ (h : Host) (n : Network) (i : Interface) (client : Endpoint) (bytes : Bytes) (draw : Draw)
      (now : Time), peekClass bytes ≠ some .request →
      (h.receive n i client bytes draw now).1.waiting = h.waiting) ∧
    (∀ (h : Host) (n : Network) (i : Interface) (client : Endpoint) (bytes : Bytes) (draw : Draw)
      (now : Time), h.waiting.length ≤ h.maxPending →
      (h.receive n i client bytes draw now).1.waiting.length ≤ h.maxPending) := by
  refine ⟨fun _ _ => Stun.peekClass_of_message, fun _ _ => Stun.peekClass_of_channelData,
    fun bytes => ⟨Datagram.decodeAt_eq bytes, Stun.peekClassAt_eq bytes⟩, Stun.splitType_eq, ?_,
    fun h n i client bytes draw now => Host.waiting_receive,
    fun h n i client bytes draw now => Host.length_waiting_receive⟩
  intro s i bytes addr now hpeek
  obtain ⟨answer, t', hreceive⟩ := s.receive_of_peeked hpeek i addr now
  refine ⟨answer, t', fun nonces login draw draw' => ⟨hreceive nonces draw, ?_⟩⟩
  rw [Service.process, hreceive nonces draw]

end NatRelay
