import Mathlib.Data.String.Basic
import NatRelay.Proofs.Service.Answer
import NatRelay.Proofs.Service.Lifetime

/-! Answers that cannot be written. A handler changes the table before its answer is put into bytes,
and the answer bears the service's software text. Main statement: `process_failure`, that with a
text that leaves room for every grant a failure leaves no trace. With a longer one every allocation
is made behind a failure (`resume_created`). -/
namespace NatRelay
open Stun (Attribute Datagram Kind Message Received)

theorem Bytes.length_ofText (text : String) : (Bytes.ofText text).length = text.utf8ByteSize := by
  rw [ofText, Array.length_toList, ← String.size_toByteArray]
  rfl

theorem Bytes.length_ofText_replicate (n : Nat) {c : Char} (hc : c.utf8Size = 1) :
    (Bytes.ofText (String.ofList (List.replicate n c))).length = n := by
  rw [length_ofText, String.utf8ByteSize_ofList]
  induction n with
  | zero => rfl
  | succ n ih => rw [List.replicate_succ, String.utf8Len_cons, ih, hc]

/-! ### Room for what a handler grants -/

theorem Stun.Attribute.le_length_plainValue (e : Endpoint) : 8 ≤ (plainValue e).length := by
  cases e <;> simp [plainValue, Endpoint.ip, Ip.bytes]

namespace Verdict
variable {m : Message} {software : String} {interface : Endpoint} {attributes : List Attribute}
  {relay? : Option Endpoint} {key : Stun.Key} {response : Response}

/-- Bytes of a signed success, behind its header. -/
def successLength (tid : Stun.TransactionId) (attributes : List Attribute) (software : String)
    (key : Stun.Key) : Nat :=
  Stun.recordsLength tid attributes + (4 + Bytes.paddedLength (Bytes.ofText software).length) +
    (4 + key.mechanism.macLength) + 8

theorem recordsLength_success (relay? : Option Endpoint)
    (hplain : ∀ a ∈ attributes, a.isProtection = false) :
    let answer := (success attributes relay?).message m software
    Stun.recordsLength answer.tid (answer.attributes.filter (!·.isProtection)) +
        Message.codeLength (some key) + 8 = successLength m.tid attributes software key := by
  intro answer
  have hall : (attributes ++ [Attribute.software software]).filter (!·.isProtection) =
      attributes ++ [.software software] := by
    rw [List.filter_eq_self]
    intro a ha
    rcases List.mem_append.1 ha with ha | ha
    · simp [hplain a ha]
    · obtain rfl := List.mem_singleton.1 ha
      rfl
  have hattributes : answer.attributes = attributes ++ [.software software] := rfl
  rw [hattributes, hall, Stun.recordsLength_append]
  rfl

/-- A success is written if there is room for it. -/
theorem respond_of_room (hplain : ∀ a ∈ attributes, a.isProtection = false)
    (hroom : successLength m.tid attributes software key ≤ 65535) :
    ∃ response, (success attributes relay?).respond m software interface (some key) =
      .ok response := by
  rw [← recordsLength_success relay? hplain] at hroom
  obtain ⟨bytes, hencode⟩ := Message.encode_of_fits hroom
  exact ⟨_, Stun.bind_eq_ok.2 ⟨bytes, hencode, rfl⟩⟩

/-- It is not written if there is none. -/
theorem room_of_respond (hplain : ∀ a ∈ attributes, a.isProtection = false)
    (h : (success attributes relay?).respond m software interface (some key) = .ok response) :
    successLength m.tid attributes software key ≤ 65535 := by
  obtain ⟨bytes, hencode, -⟩ := Stun.bind_eq_ok.1 h
  rw [← recordsLength_success relay? hplain]
  exact Message.room_of_encode hencode

/-- Bytes of a challenge, behind its header and but for the fingerprint. -/
theorem recordsLength_challenge (m : Message) (realm nonce software : String) :
    let answer := (refusal .unauthorized [.realm realm, .nonce nonce]).message m software
    Stun.recordsLength answer.tid (answer.attributes.filter (!·.isProtection)) =
      32 + Bytes.paddedLength (Bytes.ofText realm).length +
        Bytes.paddedLength (Bytes.ofText nonce).length +
        Bytes.paddedLength (Bytes.ofText software).length := by
  intro answer
  have hreason : (Bytes.ofText Refusal.unauthorized.reason).length = 12 := by decide
  have hattributes : answer.attributes.filter (!·.isProtection) =
      [.errorCode Refusal.unauthorized.errorCode, .realm realm, .nonce nonce,
        .software software] := rfl
  rw [hattributes]
  simp only [Stun.recordsLength, Attribute.value, Refusal.errorCode, List.length_cons, hreason]
  have hhead : Bytes.paddedLength (12 + 1 + 1 + 1 + 1) = 16 := rfl
  omega

end Verdict

namespace Request
variable {r : Request} {t : Table} {offset : Nat} {now : Time} {d : Decision}

theorem recordsLength_granted (tid : Stun.TransactionId) (r : Request) (a : Allocation)
    (now : Time) :
    32 ≤ Stun.recordsLength tid (r.granted a now).attributes ∧
      Stun.recordsLength tid (r.granted a now).attributes ≤ 56 := by
  have hrelay := Attribute.length_plainValue_le (Stun.obfuscate tid a.relay)
  have hrelay' := Attribute.le_length_plainValue (Stun.obfuscate tid a.relay)
  have haddr := Attribute.length_plainValue_le (Stun.obfuscate tid r.addr)
  have haddr' := Attribute.le_length_plainValue (Stun.obfuscate tid r.addr)
  simp only [granted, Verdict.attributes, Stun.recordsLength, Attribute.value, Stun.addressValue,
    Bytes.length_be32, Bytes.paddedLength]
  omega

/-- A handler refuses and changes nothing, or what it grants takes little room. -/
theorem Effect.grants (h : r.Effect t offset now d) (tid : Stun.TransactionId) :
    (∃ why, d = Request.refused t why) ∨
      ∃ attributes relay?, d.verdict = .success attributes relay? ∧
        (∀ a ∈ attributes, a.isProtection = false) ∧ Stun.recordsLength tid attributes ≤ 56 := by
  cases h with
  | refused why => exact .inl ⟨why, rfl⟩
  | @repeated a | @created _ a =>
    exact .inr ⟨_, _, rfl, by simp [Attribute.isProtection], (recordsLength_granted tid r a now).2⟩
  | gone | released | extended =>
    refine .inr ⟨_, _, rfl, by simp [Attribute.isProtection], ?_⟩
    simp only [Stun.recordsLength, Attribute.value, Bytes.length_be32, Bytes.paddedLength]
    decide
  | permitted | bound => exact .inr ⟨[], none, rfl, by simp, Nat.zero_le _⟩

end Request

namespace Service
variable {s : Service} {i : Interface} {bytes : Bytes} {addr : Endpoint} {now : Time}
  {draw : Draw} {e : Stun.Error}

/-- The text leaves room for every grant: both addresses of IPv6 and the longer code. -/
def HasRoom (s : Service) : Prop := (Bytes.ofText s.software).length ≤ 65428

instance (s : Service) : Decidable s.HasRoom := inferInstanceAs (Decidable (_ ≤ _))

theorem HasRoom.respond (h : s.HasRoom) {m : Message} {attributes : List Attribute}
    (hplain : ∀ a ∈ attributes, a.isProtection = false)
    (hgrant : Stun.recordsLength m.tid attributes ≤ 56) (relay? : Option Endpoint)
    (interface : Endpoint) (key : Stun.Key) :
    ∃ response, (Verdict.success attributes relay?).respond m s.software interface (some key) =
      .ok response := by
  refine Verdict.respond_of_room hplain ?_
  have hcode : key.mechanism.macLength ≤ 32 := by cases key.mechanism <;> decide
  have htext : Bytes.paddedLength (Bytes.ofText s.software).length ≤ 65428 := by
    have hlength : (Bytes.ofText s.software).length ≤ 65428 := h
    rw [Bytes.paddedLength]
    omega
  rw [Verdict.successLength]
  omega

theorem receive_failure (h : (s.receive i bytes addr draw now).answer = .done (.error e)) :
    (s.receive i bytes addr draw now).service.table = s.table ∧
      ∀ event ∈ (s.receive i bytes addr draw now).events, event.kind = .bindingObserved := by
  have hreceipt := s.receive_receipt i bytes addr draw now
  generalize s.receive i bytes addr draw now = o at h hreceipt ⊢
  cases hreceipt with
  | malformed | misunderstood | refused => exact ⟨rfl, List.forall_mem_nil _⟩
  | observed => exact ⟨rfl, by simp [conclude, Event.kind]⟩
  | unanswered | sent | sentOnChannel | asks => cases h

theorem resume_failure {p : PendingRequest} {password? : Option String} (hroom : s.HasRoom)
    (h : (s.resume p password? draw now).answer = .error e) :
    (s.resume p password? draw now).service.table = s.table ∧
      (s.resume p password? draw now).events = [] := by
  have hsettled := s.resume_settlement p password? draw now
  generalize s.resume p password? draw now = o at h hsettled ⊢
  cases hsettled with
  | refused => exact ⟨rfl, rfl⟩
  | accepted _ _ heffect =>
    rcases heffect.grants p.message.tid with
      ⟨why, rfl⟩ | ⟨attributes, relay?, hverdict, hplain, hgrant⟩
    · exact ⟨rfl, rfl⟩
    -- What is granted is told, so this is no failure.
    · obtain ⟨response, hresponse⟩ := hroom.respond hplain hgrant relay? p.interface.listening _
      dsimp only at h
      rw [hverdict, hresponse] at h
      cases h

/-- Where a datagram ends in a failure, the table is what it was, and the host heard of no more than
a lookup or a Binding. So it is with a lookup that takes long, whatever happened to the service in
between. -/
theorem process_failure (s : Service) (hroom : s.HasRoom) (login : Login) (i : Interface)
    (bytes : Bytes) (addr : Endpoint) (draw draw' : Draw) (now : Time) :
    let o := s.process login i bytes addr draw draw' now
    (∀ e, o.answer = .error e → o.service.table = s.table ∧
      ∀ event ∈ o.events, event.kind = .passwordRequested ∨ event.kind = .bindingObserved) ∧
    ∀ p, (s.receive i bytes addr draw now).answer = .asks p →
      ∀ (mid : Service) (password? : Option String) (later : Time), mid.HasRoom →
        let second := mid.resume p password? draw' later
        ∀ e, second.answer = .error e → second.service.table = mid.table ∧ second.events = [] := by
  intro o
  refine ⟨fun e hfailed => ?_, fun p _ mid password? later hmid e => resume_failure hmid⟩
  cases hanswer : (s.receive i bytes addr draw now).answer with
  | done result =>
    simp only [o, process, hanswer] at hfailed ⊢
    obtain rfl : result = .error e := hfailed
    obtain ⟨htable, hevents⟩ := receive_failure hanswer
    exact ⟨htable, fun event hevent => .inr (hevents event hevent)⟩
  | asks p =>
    simp only [o, process, hanswer] at hfailed ⊢
    obtain ⟨hservice, hevents⟩ := receive_asks hanswer
    rw [hservice] at hfailed ⊢
    obtain ⟨htable, hevents'⟩ := resume_failure hroom hfailed
    rw [hevents, hevents']
    exact ⟨htable, by simp [Event.kind]⟩

/-- A realm that is too long for a record: a request cannot even be refused, and fails without a
trace. -/
theorem process_failure_of_long_realm :
    let o : ServiceOptions :=
      { sampleOptions (seconds 600) with realm := .ofList (List.replicate 65536 'r') }
    let draw : Draw := { nonce := { value := "n" } }
    let out := (make o).process (.ofUsers [] 0) sampleInterface inquiry sampleClient draw draw 0
    (make o).HasRoom ∧ (∃ e, out.answer = .error e) ∧ out.service.table = (make o).table ∧
      ∀ event ∈ out.events, event.kind = .passwordRequested ∨ event.kind = .bindingObserved := by
  intro o draw out
  have hroom : (make o).HasRoom := by decide
  have hout : out = _ :=
    process_of_unsigned (.ofUsers [] 0) draw decode_inquiry rfl rfl (.inl rfl) rfl
  have hfailed : ∃ e, out.answer = .error e := by
    cases hanswer : out.answer with
    | error e => exact ⟨e, rfl⟩
    | ok response? =>
      rw [hout] at hanswer
      obtain ⟨response, hresponse, -⟩ := Stun.map_eq_ok.1 hanswer
      obtain ⟨_, _, _, -, hencode⟩ := Verdict.respond_eq_ok hresponse
      have hroom := Message.room_of_encode hencode
      have hrealm : (Bytes.ofText o.realm).length = 65536 :=
        Bytes.length_ofText_replicate 65536 rfl
      have hle := Bytes.le_paddedLength (Bytes.ofText o.realm).length
      rw [Verdict.recordsLength_challenge] at hroom
      change 32 + Bytes.paddedLength (Bytes.ofText o.realm).length + _ + _ + _ + 8 ≤ _ at hroom
      omega
  obtain ⟨e, he⟩ := hfailed
  exact ⟨hroom, ⟨e, he⟩, (process_failure (make o) hroom (.ofUsers [] 0) sampleInterface inquiry
    sampleClient draw draw 0).1 e he⟩

/-! ### Without room -/

/-- With a text that takes the room of a grant, whoever is given an allocation is not told, and the
host gets a failure. -/
theorem resume_created {p : PendingRequest} {password? : Option String}
    (hlong : 65464 < (Bytes.ofText s.software).length)
    (hcreated : ∃ event ∈ (s.resume p password? draw now).events,
      event.kind = .allocationCreated) :
    ∃ e, (s.resume p password? draw now).answer = .error e := by
  have hsettled := s.resume_settlement p password? draw now
  generalize s.resume p password? draw now = o at hcreated hsettled ⊢
  obtain ⟨event, hevent, hkind⟩ := hcreated
  cases hsettled with
  | refused => cases hevent
  | @accepted password mechanism _ hpassword _ heffect =>
    cases heffect with
    | refused | repeated | gone => cases hevent
    | released | extended | bound =>
      obtain rfl := List.mem_singleton.1 hevent
      cases hkind
    | permitted =>
      obtain ⟨peer, -, rfl⟩ := List.mem_map.1 hevent
      cases hkind
    | @created _ a =>
      dsimp only
      cases hrespond : (Request.granted _ a now).respond p.message s.software
          p.interface.listening (some (Stun.Credential.key ⟨p.username, p.realm, password⟩
            mechanism)) with
      | error e => exact ⟨e, rfl⟩
      | ok response =>
        have hroom := Verdict.room_of_respond (by simp [Attribute.isProtection]) hrespond
        have hgrant := (Request.recordsLength_granted p.message.tid
          ⟨p.message, p.addr, p.interface, p.username⟩ a now).1
        have htext := Bytes.le_paddedLength (Bytes.ofText s.software).length
        have hwords := Bytes.paddedLength_mod (Bytes.ofText s.software).length
        have hcode : 20 ≤ mechanism.macLength := by cases mechanism <;> decide
        rw [Verdict.successLength, Stun.Credential.mechanism_key] at hroom
        rw [Request.granted, Verdict.attributes] at hgrant
        omega

theorem process_created {login : Login} {draw' : Draw}
    (hlong : 65464 < (Bytes.ofText s.software).length)
    (hcreated : ∃ event ∈ (s.process login i bytes addr draw draw' now).events,
      event.kind = .allocationCreated) :
    ∃ e, (s.process login i bytes addr draw draw' now).answer = .error e := by
  rw [process] at hcreated ⊢
  cases hanswer : (s.receive i bytes addr draw now).answer with
  | done result =>
    have hreceipt := s.receive_receipt i bytes addr draw now
    simp only [hanswer] at hcreated
    generalize s.receive i bytes addr draw now = o at hcreated hreceipt
    obtain ⟨event, hevent, hkind⟩ := hcreated
    cases hreceipt with
    | asks | observed =>
      obtain rfl := List.mem_singleton.1 hevent
      cases hkind
    | _ => cases hevent
  | asks p =>
    obtain ⟨hservice, hevents⟩ := receive_asks hanswer
    simp only [hanswer, hservice, hevents] at hcreated ⊢
    obtain ⟨event, hevent, hkind⟩ := hcreated
    rcases List.mem_cons.1 hevent with rfl | hevent
    · cases hkind
    · exact resume_created hlong ⟨event, hevent, hkind⟩

theorem service_step_process (s : Service) (login : Login) (i : Interface) (bytes : Bytes)
    (addr : Endpoint) (draw draw' : Draw) (now : Time) :
    (s.step (.process login i bytes addr draw draw') now).service =
      (s.process login i bytes addr draw draw' now).service := rfl

/-- The inquiry is answered if the challenge finds room, and the nonce stands in its bytes. -/
theorem sends_inquiry (o : ServiceOptions)
    (hroom : 44 + Bytes.paddedLength (Bytes.ofText o.realm).length +
      Bytes.paddedLength (Bytes.ofText o.software).length ≤ 65535) :
    ∃ response, ((make o).step sampleInquiry 0).answer.Sends response ∧
      ((Stun.plainRecords response.data).filter (·.code = Kind.nonce.code)).map (·.value) =
        [Bytes.ofText "n"] := by
  let challenge : Message :=
    (Verdict.refusal .unauthorized [.realm o.realm, .nonce "n"]).message
      ⟨.allocate, .request, 1, []⟩ o.software
  have hanswer : ((make o).step sampleInquiry 0).answer = .result ((make o).reply
      ⟨.allocate, .request, 1, []⟩ sampleInterface
      (.refusal .unauthorized [.realm o.realm, .nonce "n"])) :=
    congrArg (Reply.result ∘ Outcome.answer)
      (process_of_unsigned _ _ decode_inquiry rfl rfl (.inl rfl) rfl)
  have hlength :=
    Verdict.recordsLength_challenge ⟨.allocate, .request, 1, []⟩ o.realm "n" o.software
  have hnonce : Bytes.paddedLength (Bytes.ofText "n").length = 4 := by decide
  have hfits : _ + Message.codeLength none + 8 ≤ 65535 :=
    Nat.le_trans (Nat.le_of_eq (congrArg (· + 0 + 8) hlength)) (by omega)
  obtain ⟨bytes, hencode⟩ := Message.encode_of_fits hfits
  have hplain : ∀ a ∈ challenge.attributes,
      (Kind.ofCode? a.code).any Kind.isProtection = false := by
    change ∀ a ∈ [_, _, _, _], _
    simp only [List.forall_mem_cons]
    exact ⟨rfl, rfl, rfl, rfl, List.forall_mem_nil _⟩
  rw [hanswer]
  refine ⟨_, Reply.sends_result.2 (Stun.some_map_eq_ok.2 (Stun.bind_eq_ok.2 ⟨bytes, hencode, rfl⟩)),
    ?_⟩
  change ((Stun.plainRecords bytes).filter (·.code = Kind.nonce.code)).map (·.value) = _
  rw [Stun.plainRecords_of_encode hplain hencode, Stun.filter_layOut]
  rfl

/-- A text of 65472 bytes: the inquiry is answered, and the Allocate behind it makes an allocation
of which its client never hears. A text of that length cannot be read in a message, so the client
reads the nonce off the bytes of the answer. -/
theorem process_failure_of_long_software :
    let o : ServiceOptions :=
      { sampleOptions (seconds 600) with software := .ofList (List.replicate 65472 's') }
    let s := ((make o).run [(sampleInquiry, 0)]).service
    let out := s.step sampleAllocate 1000
    (∃ response, ((make o).step sampleInquiry 0).answer.Sends response ∧
        ((Stun.plainRecords response.data).filter (·.code = Kind.nonce.code)).map (·.value) =
          [Bytes.ofText "n"]) ∧
      (∃ e, out.answer = .result (.error e)) ∧ s.table.size = 0 ∧ out.service.table.size = 1 ∧
      out.events.map Event.kind = [.passwordRequested, .allocationCreated] ∧
      ¬ ∀ (o : ServiceOptions) (ops : List (Op × Time)) (login : Login) (i : Interface)
        (bytes : Bytes) (addr : Endpoint) (draw draw' : Draw) (now : Time),
        let s := ((make o).run ops).service
        let out := s.process login i bytes addr draw draw' now
        ∀ e, out.answer = .error e → out.service.table = s.table ∧ ∀ event ∈ out.events,
          event.kind = .passwordRequested ∨ event.kind = .bindingObserved := by
  intro o s out
  have hlength : (Bytes.ofText o.software).length = 65472 :=
    Bytes.length_ofText_replicate 65472 rfl
  have hdraws : ∀ call ∈ [(sampleInquiry, 0)], ∀ draw ∈ call.1.nonceDraws, draw.Fits := by
    have hdraw : NonceDraw.Fits { value := "n" } := by decide
    simpa [sampleInquiry, sampleDatagram, Op.nonceDraws] using hdraw
  have hsoftware : s.software = o.software :=
    (run_conforms (make_conforms o) hdraws).software
  have hout : out = _ := (conveys_allocate.step (by decide +kernel)).2
  have hran : s.table.size = 0 ∧ out.service.table.size = 1 ∧
      out.events.map Event.kind = [.passwordRequested, .allocationCreated] := by
    rw [hout]
    decide +kernel
  obtain ⟨hbefore, hafter, hevents⟩ := hran
  have hcreated : ∃ event ∈ out.events, event.kind = .allocationCreated := by
    rw [← List.mem_map, hevents]
    simp
  have hlong : 65464 < (Bytes.ofText s.software).length := by
    rw [hsoftware, hlength]
    decide
  obtain ⟨e, he⟩ := process_created hlong hcreated
  refine ⟨?_, ⟨e, congrArg Reply.result he⟩, hbefore, hafter, hevents, fun hclaim => ?_⟩
  · refine sends_inquiry o ?_
    rw [hlength]
    decide
  · have hsame := (hclaim o [(sampleInquiry, 0)] _ _ _ _ _ _ _ e he).1
    have hservice : out.service = _ := service_step_process ..
    rw [hservice, hsame, hbefore] at hafter
    cases hafter

end Service
end NatRelay
