import NatRelay.Proofs.Service.Admission
import NatRelay.Proofs.Service.Standing

/-! Every request is answered. Main statement: `process_answers`, that the sender of a request gets
one message which it can read, an error that says all that its number promises or a success that is
signed as the request was. -/
namespace NatRelay
open Stun (Attribute Credential Datagram Kind Mechanism Message Received)

namespace Stun
variable {bytes : Bytes} {r : Received}

theorem received_of_decode (h : Datagram.decode bytes = .ok (.message r)) :
    Received.decode bytes = .ok r := by
  unfold Datagram.decode at h
  split at h
  · split at h
    · obtain ⟨r', hr', heq⟩ := map_eq_ok.1 h
      obtain rfl := Datagram.message.inj heq
      exact hr'
    · obtain ⟨c, -, heq⟩ := map_eq_ok.1 h
      cases heq
    · cases h
  · cases h

theorem length_unknownRequired_le (h : Datagram.decode bytes = .ok (.message r)) :
    r.message.unknownRequired.length ≤ 16383 := by
  have hall := length_attributes (received_of_decode h)
  have hsome : r.message.unknownRequired.length ≤ r.message.attributes.length :=
    List.length_filterMap_le ..
  omega

end Stun

/-! ### Room for every verdict -/

theorem Refusal.representable (why : Refusal) :
    (Attribute.errorCode why.errorCode).Representable := by
  cases why <;> refine ⟨?_, ?_, ?_⟩ <;> decide

namespace Verdict
variable {v : Verdict} {m : Message} {software : String}

/-- What a verdict has to tell besides its number. -/
def attributes : Verdict → List Attribute
  | success attributes _ | refusal _ attributes => attributes

/-- A verdict that tells a few short things. -/
structure IsBrief (v : Verdict) : Prop where
  few : v.attributes.length ≤ 8
  short : ∀ a ∈ v.attributes, a.isShort ∧ a.bare.Representable

theorem IsBrief.fits (h : v.IsBrief) (hsoftware : (Bytes.ofText software).length ≤ 763) :
    (v.message m software).Fits := by
  have htail : ∀ a ∈ v.attributes ++ [.software software], a.isShort ∧ a.bare.Representable := by
    intro a ha
    rcases List.mem_append.1 ha with ha | ha
    · exact h.short a ha
    · obtain rfl := List.mem_singleton.1 ha
      exact ⟨rfl, hsoftware⟩
  cases v with
  | success attributes relay? =>
    have hfew : attributes.length ≤ 8 := h.few
    refine .of_isShort htail ?_
    simp only [message, List.length_append, List.length_singleton]
    omega
  | refusal why attributes =>
    have hfew : attributes.length ≤ 8 := h.few
    refine .of_isShort (List.forall_mem_cons.2 ⟨⟨rfl, why.representable⟩, htail⟩) ?_
    simp only [message, List.length_append, List.length_cons, List.length_nil]
    omega

theorem isBrief_refuse (why : Refusal) : (refuse why).IsBrief :=
  ⟨Nat.zero_le _, List.forall_mem_nil _⟩

theorem isBrief_challenge (why : Refusal) {realm nonce : String}
    (hrealm : (Bytes.ofText realm).length ≤ 763) (hnonce : (Bytes.ofText nonce).length ≤ 763) :
    (refusal why [.realm realm, .nonce nonce]).IsBrief := by
  refine ⟨by simp [attributes], ?_⟩
  simp only [attributes, List.forall_mem_cons]
  exact ⟨⟨rfl, hrealm⟩, ⟨rfl, hnonce⟩, List.forall_mem_nil _⟩

theorem isBrief_observed (i : Interface) (addr : Endpoint) :
    (Service.observed i addr).IsBrief := by
  refine ⟨by simp [attributes, Service.observed], ?_⟩
  simp only [attributes, Service.observed, List.forall_mem_cons]
  exact ⟨⟨rfl, Endpoint.isBare_ofIp ..⟩, ⟨rfl, Endpoint.isBare_ofIp ..⟩,
    ⟨rfl, Endpoint.isBare_ofIp ..⟩, List.forall_mem_nil _⟩

theorem isBrief_granted (r : Request) (a : Allocation) (now : Time) :
    (r.granted a now).IsBrief := by
  refine ⟨by simp [attributes, Request.granted], ?_⟩
  simp only [attributes, Request.granted, List.forall_mem_cons]
  exact ⟨⟨rfl, Endpoint.isBare_ofIp ..⟩, ⟨rfl, Endpoint.isBare_ofIp ..⟩, ⟨rfl, trivial⟩,
    List.forall_mem_nil _⟩

theorem isBrief_lifetimeIs (n : UInt32) : (Request.lifetimeIs n).IsBrief := by
  refine ⟨by simp [attributes, Request.lifetimeIs], ?_⟩
  simp only [attributes, Request.lifetimeIs, List.forall_mem_cons]
  exact ⟨⟨rfl, trivial⟩, List.forall_mem_nil _⟩

/-- All kinds that a request can bear find room. -/
theorem fits_unknown {codes : List UInt16} (hcodes : codes.length ≤ 16383)
    (hsoftware : (Bytes.ofText software).length ≤ 763) :
    ((refusal .unknownAttribute [.unknownAttributes codes]).message m software).Fits where
  plain := by simp [message, Attribute.isProtection]
  representable := by
    simp only [message, List.cons_append, List.nil_append, List.forall_mem_cons]
    exact ⟨Refusal.unknownAttribute.representable, trivial, hsoftware, List.forall_mem_nil _⟩
  room := by
    have hcode := Refusal.unknownAttribute.representable.2.2
    have hvalue : (codes.flatMap Bytes.be16).length = codes.length * 2 := by
      simp [List.length_flatMap]
    simp only [message, List.cons_append, List.nil_append, Stun.recordsLength, Attribute.value,
      List.length_cons, Bytes.paddedLength, hvalue]
    omega

end Verdict

/-- A handler refuses for a reason of its own and changes nothing, or it grants something brief. -/
theorem Request.Effect.verdict_cases {r : Request} {t : Table} {offset : Nat} {now : Time}
    {d : Decision} (h : r.Effect t offset now d) :
    (∃ why, why.isPlain ∧ d = Request.refused t why) ∨
      ∃ attributes relay?, d.verdict = .success attributes relay? ∧ d.verdict.IsBrief := by
  cases h with
  | refused why hplain => exact .inl ⟨why, hplain, rfl⟩
  | repeated | created => exact .inr ⟨_, _, rfl, Verdict.isBrief_granted ..⟩
  | gone | released | extended => exact .inr ⟨_, _, rfl, Verdict.isBrief_lifetimeIs _⟩
  | permitted | bound => exact .inr ⟨[], none, rfl, Nat.zero_le _, List.forall_mem_nil _⟩

namespace Service
variable {o : ServiceOptions} {s : Service} {i : Interface} {addr : Endpoint} {now : Time}
  {login : Login}

/-! ### What a client reads -/

/-- An answer to the request, with a fingerprint that is right. -/
structure Reads (request : Message) (data : Bytes) (answer : Received) : Prop where
  decoded : Datagram.decode data = .ok (.message answer)
  method : answer.message.method = request.method
  tid : answer.message.tid = request.tid
  stamped : answer.message.attributes.getLast? = some (.stamp data)

/-- An error, unsigned and with one number. A challenge bears the realm and the nonce that the table
now has for the client. The error for unknown kinds lists them; it is sent just if there are some,
and to a Binding none but this. -/
structure Declines (realm : String) (nonces : NonceTable) (addr : Endpoint)
    (request answer : Message) : Prop where
  cls : answer.cls = .error
  unsigned : answer.hasIntegrity = false
  code : ∃ e, answer.getAll Kind.errorCode.code = [.errorCode e] ∧
    (e.code = 401 ∨ e.code = 438 → answer.getAll Kind.realm.code = [.realm realm] ∧
      ∃ nonce, nonces.Holds addr nonce ∧ answer.getAll Kind.nonce.code = [.nonce nonce]) ∧
    (e.code = 420 →
      answer.getAll Kind.unknownAttributes.code = [.unknownAttributes request.unknownRequired]) ∧
    (e.code = 420 ↔ request.unknownRequired ≠ [])
  binding : request.method = .binding → request.unknownRequired ≠ []

/-- A success of a request that is understood: of a Binding, which tells the client its own address,
or of a guarded method, which verifies as the request did under the credential of the user. -/
structure Grants (realm : String) (login : Login) (addr : Endpoint)
    (request answer : Received) : Prop where
  cls : answer.message.cls = .success
  known : request.message.unknownRequired = []
  method : request.message.method = .binding ∨ request.message.method.requiresAuth
  mapped : request.message.method = .binding →
    answer.message.xorMappedAddress = some (.ofIp addr.ip addr.port)
  signed : request.message.method.requiresAuth → ∃ username password mechanism,
    request.message.username = some username ∧ request.message.realm = some realm ∧
    (login.find addr username).password? = some password ∧
    Stun.checkIntegrity request.message (some request.wire) ⟨username, realm, password⟩ =
      .ok mechanism ∧
    Stun.checkIntegrity answer.message (some answer.wire) ⟨username, realm, password⟩ =
      .ok mechanism

/-- The client is sent one such answer, from where it sent its request to. -/
def Answered (o : ServiceOptions) (login : Login) (i : Interface) (addr : Endpoint)
    (request : Received) (out : Outcome (Except Stun.Error (Option Response))) : Prop :=
  ∃ relay? data answer, out.answer = .ok (some (.reply i.listening relay? data)) ∧
    Reads request.message data answer ∧
    (Declines o.realm out.service.nonces addr request.message answer.message ∨
      Grants o.realm login addr request answer)

/-! ### Refusals -/

theorem respond_refusal {m : Message} {software : String} {why : Refusal}
    {attributes : List Attribute}
    (h : ((Verdict.refusal why attributes).message m software).Fits) (interface : Endpoint)
    (key? : Option Stun.Key) :
    ∃ data answer, (Verdict.refusal why attributes).respond m software interface key? =
        .ok (.reply interface none data) ∧ Reads m data answer ∧
      ((Verdict.refusal why attributes).message m software).bare.Seals answer.message ∧
      answer.message.hasIntegrity = false := by
  obtain ⟨data, answer, hencode, hdecoded, hseals, hunsigned, hlast⟩ := h.sent
  refine ⟨data, answer, ?_, ⟨hdecoded, hseals.method, hseals.tid, hlast⟩, hseals, hunsigned⟩
  rw [Verdict.respond, hencode]
  rfl

/-- A request that is not understood is told what is not. -/
theorem answered_of_unknown {r : Received} (hcount : r.message.unknownRequired.length ≤ 16383)
    (hunknown : r.message.unknownRequired ≠ []) (hs : Conforms o s) (ho : o.Fits)
    {out : Outcome (Except Stun.Error (Option Response))}
    (hanswer : out.answer = s.reply r.message i
      (.refusal .unknownAttribute [.unknownAttributes r.message.unknownRequired])) :
    Answered o login i addr r out := by
  have hfits := Verdict.fits_unknown (m := r.message) hcount (hs.length_software ho)
  obtain ⟨data, answer, hrespond, hreads, hseals, hunsigned⟩ :=
    respond_refusal hfits i.listening none
  refine ⟨none, data, answer, ?_, hreads, .inl ⟨hseals.cls, hunsigned, ?_, fun _ => hunknown⟩⟩
  · rw [hanswer, reply, hrespond]
    rfl
  · refine ⟨Refusal.unknownAttribute.errorCode, hseals.getAll_eq rfl, fun hcode => ?_, fun _ => ?_,
      iff_of_true rfl hunknown⟩
    · exact absurd hcode (by decide)
    · exact hseals.getAll_eq rfl

theorem Dismissal.fits_message {m : Message} {draw : NonceDraw} {why : Refusal}
    {attributes : List Attribute} {nonces : NonceTable}
    (h : s.Dismissal addr draw now why attributes nonces) (hs : Conforms o s) (ho : o.Fits)
    (hdraw : draw.Fits) : ((Verdict.refusal why attributes).message m s.software).Fits := by
  have hrealm := hs.length_realm ho
  have hsoftware := hs.length_software ho
  cases h with
  | plain => exact (Verdict.isBrief_refuse why).fits hsoftware
  | reminded =>
    exact (Verdict.isBrief_challenge why hrealm (hs.nonces.length_getOrIssue hdraw)).fits hsoftware
  | rotated => exact (Verdict.isBrief_challenge _ hrealm hdraw).fits hsoftware

theorem Dismissal.code_ne {draw : NonceDraw} {why : Refusal} {attributes : List Attribute}
    {nonces : NonceTable} (h : s.Dismissal addr draw now why attributes nonces) :
    why.code ≠ 420 := by
  cases h with
  | plain hplain => exact (Refusal.code_of_isPlain hplain).2.1
  | reminded hwhy => rcases hwhy with rfl | rfl <;> decide
  | rotated => decide

/-- A request that is turned away is told why. -/
theorem Dismissal.declines {m : Message} {draw : NonceDraw} {why : Refusal}
    {attributes : List Attribute} {nonces : NonceTable} {answer : Message}
    (h : s.Dismissal addr draw now why attributes nonces) (hmethod : m.method ≠ .binding)
    (hknown : m.unknownRequired = [])
    (hseals : ((Verdict.refusal why attributes).message m s.software).bare.Seals answer)
    (hunsigned : answer.hasIntegrity = false) : Declines s.realm nonces addr m answer := by
  -- What is read of a kind is what was written, as only what protects is added.
  have hall {kind : Kind} (hkind : kind.isProtection = false) := hseals.getAll_eq hkind
  have hsaid : answer.getAll Kind.errorCode.code = [.errorCode why.errorCode] ∧
      (why.code = 401 ∨ why.code = 438 → answer.getAll Kind.realm.code = [.realm s.realm] ∧
        ∃ nonce, nonces.Holds addr nonce ∧ answer.getAll Kind.nonce.code = [.nonce nonce]) := by
    cases h with
    | plain hplain =>
      obtain ⟨h401, -, h438⟩ := Refusal.code_of_isPlain hplain
      exact ⟨hall rfl, fun hcode => absurd hcode (not_or.2 ⟨h401, h438⟩)⟩
    | reminded => exact ⟨hall rfl, fun _ => ⟨hall rfl, _, NonceTable.holds_getOrIssue, hall rfl⟩⟩
    | rotated => exact ⟨hall rfl, fun _ => ⟨hall rfl, _, NonceTable.holds_issue, hall rfl⟩⟩
  have hcode := h.code_ne
  refine ⟨hseals.cls, hunsigned, ⟨why.errorCode, hsaid.1, hsaid.2, fun heq => absurd heq hcode, ?_⟩,
    fun hbinding => absurd hbinding hmethod⟩
  exact iff_of_false hcode (not_not.2 hknown)

/-- The answer to a request that is turned away, with a key at hand or without. -/
theorem Dismissal.answered {r : Received} {draw : NonceDraw} {why : Refusal}
    {attributes : List Attribute} {nonces : NonceTable}
    (h : s.Dismissal addr draw now why attributes nonces) (hmethod : r.message.method ≠ .binding)
    (hknown : r.message.unknownRequired = []) (hs : Conforms o s) (ho : o.Fits)
    (hdraw : draw.Fits) (key? : Option Stun.Key)
    {out : Outcome (Except Stun.Error (Option Response))} (hnonces : out.service.nonces = nonces)
    (hanswer : out.answer =
      some <$> (Verdict.refusal why attributes).respond r.message s.software i.listening key?) :
    Answered o login i addr r out := by
  obtain ⟨data, answer, hrespond, hreads, hseals, hunsigned⟩ :=
    respond_refusal (h.fits_message hs ho hdraw) i.listening key?
  refine ⟨none, data, answer, ?_, hreads, .inl ?_⟩
  · rw [hanswer, hrespond]
    rfl
  · rw [hnonces, ← hs.realm]
    exact h.declines hmethod hknown hseals hunsigned

/-! ### Successes -/

/-- A Binding is answered without a password. -/
theorem answered_of_observed {r : Received} (hmethod : r.message.method = .binding)
    (hknown : r.message.unknownRequired = []) (hs : Conforms o s) (ho : o.Fits)
    {out : Outcome (Except Stun.Error (Option Response))}
    (hanswer : out.answer = s.reply r.message i (observed i addr)) :
    Answered o login i addr r out := by
  have hfits : ((observed i addr).message r.message s.software).Fits :=
    (Verdict.isBrief_observed i addr).fits (hs.length_software ho)
  obtain ⟨data, answer, hencode, hdecoded, hseals, -, hlast⟩ := hfits.sent
  refine ⟨none, data, answer, ?_, ⟨hdecoded, hseals.method, hseals.tid, hlast⟩, .inr ?_⟩
  · rw [hanswer]
    unfold reply observed Verdict.respond
    dsimp only
    rw [← observed, hencode]
    rfl
  · refine ⟨hseals.cls, hknown, .inl hmethod, fun _ => ?_, ?_⟩
    · rw [Message.xorMappedAddress, hseals.get?_eq rfl]
      rfl
    · rw [hmethod]
      exact fun h => by cases h

/-- What a handler grants is signed with the key of the request. -/
theorem respond_success {m : Message} {software : String} {attributes : List Attribute}
    {relay? : Option Endpoint} (h : ((Verdict.success attributes relay?).message m software).Fits)
    (interface : Endpoint) (c : Credential) (k : Mechanism) :
    ∃ data answer, (Verdict.success attributes relay?).respond m software interface
        (some (c.key k)) = .ok (.reply interface relay? data) ∧ Reads m data answer ∧
      ((Verdict.success attributes relay?).message m software).bare.Seals answer.message ∧
      Stun.checkIntegrity answer.message (some answer.wire) c = .ok k := by
  obtain ⟨data, answer, hencode, hdecoded, hseals, hverified, hlast⟩ := h.sent_signed c k
  refine ⟨data, answer, ?_, ⟨hdecoded, hseals.method, hseals.tid, hlast⟩, hseals, hverified⟩
  rw [Verdict.respond, hencode]
  rfl

/-! ### Requests -/

theorem Settlement.answered {r : Received} {username : String} {password? : Option String}
    {draw : Draw} {out : Outcome (Except Stun.Error (Option Response))}
    (h : s.Settlement ⟨r.message, r.wire, addr, i, username, o.realm⟩ password? draw now out)
    (hs : Conforms o s) (ho : o.Fits) (hdraw : draw.nonce.Fits)
    (hknown : r.message.unknownRequired = [])
    (hmethod : r.message.method.requiresAuth) (husername : r.message.username = some username)
    (hrealm : r.message.realm = some o.realm)
    (hlogin : (login.find addr username).password? = password?) :
    Answered o login i addr r out := by
  have hbinding : r.message.method ≠ .binding := by
    intro hbinding
    rw [hbinding] at hmethod
    cases hmethod
  cases h with
  | refused why attributes nonces hdismissed =>
    exact hdismissed.answered hbinding hknown hs ho hdraw none rfl rfl
  | accepted hpassword hchecked heffect =>
    rcases heffect.verdict_cases with ⟨why, hplain, rfl⟩ | ⟨attributes, relay?, hverdict, hbrief⟩
    · have hdismissed : s.Dismissal addr draw.nonce now why [] s.nonces := .plain hplain
      exact hdismissed.answered hbinding hknown hs ho hdraw _ rfl rfl
    · rw [hverdict] at hbrief
      obtain ⟨data, answer, hrespond, hreads, hseals, hverified⟩ :=
        respond_success (hbrief.fits (hs.length_software ho) (m := r.message)) i.listening _ _
      refine ⟨relay?, data, answer, ?_, hreads,
        .inr ⟨hseals.cls, hknown, .inr hmethod, fun heq => absurd heq hbinding, fun _ => ?_⟩⟩
      · dsimp only
        rw [hverdict, hrespond]
        rfl
      · exact ⟨username, _, _, husername, hrealm, hlogin.trans hpassword, hchecked, hverified⟩

/-- A request that does not wait for a password is answered at once. -/
theorem Receipt.answered {bytes : Bytes} {draw : Draw} {received : Outcome Progress} {r : Received}
    {result : Except Stun.Error (Option Response)}
    (h : s.Receipt i bytes addr draw now received) (hs : Conforms o s) (ho : o.Fits)
    (hdraw : draw.nonce.Fits) (hdecoded : Datagram.decode bytes = .ok (.message r))
    (hcls : r.message.cls = .request) (hdone : received.answer = .done result) :
    Answered o login i addr r
      { answer := result, events := received.events, service := received.service } := by
  have hsame {d : Datagram} (hd : Datagram.decode bytes = .ok d) : d = .message r :=
    Except.ok.inj (hd.symm.trans hdecoded)
  cases h with
  | malformed hfailed =>
    rw [hdecoded] at hfailed
    cases hfailed
  | unanswered hd hquiet => exact absurd hcls (hquiet r (hsame hd))
  | sent hd hindication =>
    obtain rfl := Datagram.message.inj (hsame hd)
    rw [hcls] at hindication
    cases hindication
  | sentOnChannel hd => cases hsame hd
  | misunderstood hd _ hunknown =>
    obtain rfl := Datagram.message.inj (hsame hd)
    exact answered_of_unknown (Stun.length_unknownRequired_le hdecoded) hunknown hs ho
      (Progress.done.inj hdone).symm
  | observed hd _ hmethod hknown =>
    obtain rfl := Datagram.message.inj (hsame hd)
    exact answered_of_observed hmethod hknown hs ho (Progress.done.inj hdone).symm
  | refused hd _ why attributes nonces hdismissed hmethod hknown =>
    obtain rfl := Datagram.message.inj (hsame hd)
    exact hdismissed.answered hmethod hknown hs ho hdraw none rfl (Progress.done.inj hdone).symm
  | asks => cases hdone

/-- So is one that waits, once the lookup has ended, in whatever state the service then is. -/
theorem resume_answered {mid : Service} {bytes : Bytes} {draw draw' : Draw} {r : Received}
    {p : PendingRequest} {later : Time} (hs : Conforms o s) (hmid : Conforms o mid) (ho : o.Fits)
    (hdraw' : draw'.nonce.Fits) (hdecoded : Datagram.decode bytes = .ok (.message r))
    (hasks : (s.receive i bytes addr draw now).answer = .asks p) :
    Answered o login i addr r
      (mid.resume p (login.find addr p.username).password? draw' later) := by
  obtain ⟨-, r', hclaims, hp⟩ := receive_eq_asks hasks
  obtain rfl := Datagram.message_unique hclaims.decoded hdecoded
  obtain ⟨_, hasked⟩ := asked_of_asks hasks
  obtain rfl := Datagram.message_unique hdecoded hasked.decoded
  have hsettled := mid.resume_settlement p (login.find addr p.username).password? draw' later
  generalize mid.resume p (login.find addr p.username).password? draw' later = out at hsettled ⊢
  have hauth : r'.message.method.requiresAuth := by
    rcases hclaims.method with hmethod | hmethod | hmethod | hmethod <;> rw [hmethod] <;> rfl
  have hrealm : r'.message.realm = some o.realm := hs.realm ▸ hclaims.realm
  have hnames := hclaims.names
  have hknown := hasked.known
  rw [hs.realm] at hp
  generalize p.username = username at hp hnames hsettled
  subst hp
  exact hsettled.answered hmid ho hdraw' hknown hauth hnames hrealm rfl

/-- Every request is answered with one message that its sender can read, in whatever state it finds
the service: an error or, if it is understood and a Binding or verifies, a success. The second part
is the same for a password that comes late, whatever happened to the service in between. -/
theorem process_answers (o : ServiceOptions) (ho : o.Fits) (ops : List (Op × Time))
    (hops : ∀ call ∈ ops, ∀ draw ∈ call.1.nonceDraws, draw.Fits) (login : Login) (i : Interface)
    (bytes : Bytes) (addr : Endpoint) (draw draw' : Draw) (now : Time) (hdraw : draw.nonce.Fits)
    (hdraw' : draw'.nonce.Fits) {r : Received}
    (hdecoded : Datagram.decode bytes = .ok (.message r)) (hcls : r.message.cls = .request) :
    let s := ((make o).run ops).service
    Answered o login i addr r (s.process login i bytes addr draw draw' now) ∧
      ∀ p, (s.receive i bytes addr draw now).answer = .asks p →
        ∀ ops' : List (Op × Time), (∀ call ∈ ops', ∀ draw ∈ call.1.nonceDraws, draw.Fits) →
          ∀ later, Answered o login i addr r (((make o).run ops').service.resume p
            (login.find addr p.username).password? draw' later) := by
  intro s
  have hs : Conforms o s := run_conforms (make_conforms o) hops
  constructor
  · cases hanswer : (s.receive i bytes addr draw now).answer with
    | done result =>
      rw [process, hanswer]
      exact (s.receive_receipt i bytes addr draw now).answered hs ho hdraw hdecoded hcls hanswer
    | asks p =>
      have hanswered : Answered o login i addr r (s.resume p (login.find addr p.username).password?
          draw' (now + (login.find addr p.username).elapsed)) :=
        resume_answered hs hs ho hdraw' hdecoded hanswer
      rw [process, hanswer, (receive_asks hanswer).1]
      exact hanswered
  · intro p hasks ops' hops' later
    exact resume_answered hs (run_conforms (make_conforms o) hops') ho hdraw' hdecoded hasks

/-- An Allocate request without a code, from a client that asked before. -/
theorem process_answers_allocate :
    let o : ServiceOptions := {}
    let i : Interface := ⟨.v4 0xc0000202 3478, .v4 0xc0000202 3478⟩
    let addr : Endpoint := .v6 0x20010db8000000000000000000000001 4000 0 2
    let login : Login := .ofUsers [] 0
    let draw : Draw := { nonce := { value := "q1w2e3r4t5y6u7i8" } }
    let bytes : Bytes := [0, 3, 0, 0, 33, 18, 164, 66, 0, 0, 0, 0, 0, 0, 0, 0, 0, 0, 0, 7]
    let r : Received := ⟨⟨.allocate, .request, 7, []⟩, ⟨bytes, {}⟩⟩
    o.Fits ∧ draw.nonce.Fits ∧ Datagram.decode bytes = .ok (.message r) ∧
      Answered o login i addr r (((make o).run [(.receive i bytes addr draw, 5)]).service.process
        login i bytes addr draw draw 9) := by
  intro o i addr login draw bytes r
  have ho : o.Fits := ⟨by decide, by decide⟩
  have hdraw : draw.nonce.Fits := by decide
  have hdecoded : Datagram.decode bytes = .ok (.message r) := by decide +kernel
  have hops : ∀ call ∈ [(Op.receive i bytes addr draw, 5)], ∀ draw ∈ call.1.nonceDraws,
      draw.Fits := by
    simpa [Op.nonceDraws] using hdraw
  have hanswers :=
    process_answers o ho _ hops login i bytes addr draw draw 9 hdraw hdraw hdecoded rfl
  exact ⟨ho, hdraw, hdecoded, hanswers.1⟩

end Service
end NatRelay
