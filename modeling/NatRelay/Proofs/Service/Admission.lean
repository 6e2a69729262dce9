import NatRelay.Proofs.Service.Process
import NatRelay.Proofs.Stun.Sealed

/-! Honest clients are let in. Main statement: `process_admits`, that a request which names its
user, the service's realm and a nonce in force, and is signed with the user's password, reaches its
handler. -/
namespace NatRelay
open Stun (Attribute Credential Datagram Mechanism Message Received)

/-- A handler refuses for reasons of its own. -/
theorem Request.Effect.isPlain {r : Request} {t : Table} {offset : Nat} {now : Time} {d : Decision}
    (h : r.Effect t offset now d) {why : Refusal} {attributes : List Attribute}
    (hverdict : d.verdict = .refusal why attributes) : why.isPlain := by
  cases h with
  | refused _ hplain =>
    obtain ⟨rfl, -⟩ := Verdict.refusal.inj hverdict
    exact hplain
  | _ => cases hverdict

theorem Refusal.code_of_isPlain {why : Refusal} (h : why.isPlain) :
    why.code ≠ 401 ∧ why.code ≠ 420 ∧ why.code ≠ 438 := by
  cases why with
  | unauthorized | unknownAttribute | staleNonce => cases h
  | _ => decide

namespace Service
variable {s : Service} {i : Interface} {addr : Endpoint} {now : Time}

theorem identify_of_names {m : Message} {username nonce : String} (hsigned : m.hasIntegrity)
    (husername : m.username = some username) (hrealm : m.realm = some s.realm)
    (hnonce : m.nonce = some nonce) (hverify : s.nonces.verify addr nonce now)
    (draw : NonceDraw) : s.identify m addr draw now = .named username s.realm := by
  simp [identify, hsigned, husername, hrealm, hnonce, hverify]

/-- A request that is understood and identified stops for the password of its user. -/
theorem receive_of_named {bytes : Bytes} {r : Received} {username realm : String} {draw : Draw}
    (hdecoded : Datagram.decode bytes = .ok (.message r)) (hcls : r.message.cls = .request)
    (hknown : r.message.unknownRequired = [])
    (hmethod : r.message.method = .allocate ∨ r.message.method = .refresh ∨
      r.message.method = .createPermission ∨ r.message.method = .channelBind)
    (hnamed : s.identify r.message addr draw.nonce now = .named username realm) :
    s.receive i bytes addr draw now =
      { answer := .asks ⟨r.message, r.wire, addr, i, username, realm⟩
        events := [.passwordRequested addr username], service := s } := by
  simp only [receive, hdecoded, hcls, receiveRequest, hknown, ne_eq, not_true_eq_false, if_false]
  rcases hmethod with hmethod | hmethod | hmethod | hmethod <;> simp only [hmethod, hnamed] <;> rfl

/-- A request that is understood and not identified is answered at once. -/
theorem receive_of_rejected {bytes : Bytes} {r : Received} {v : Verdict} {s' : Service} {draw : Draw}
    (hdecoded : Datagram.decode bytes = .ok (.message r)) (hcls : r.message.cls = .request)
    (hknown : r.message.unknownRequired = [])
    (hmethod : r.message.method = .allocate ∨ r.message.method = .refresh ∨
      r.message.method = .createPermission ∨ r.message.method = .channelBind)
    (hrejected : s.identify r.message addr draw.nonce now = .rejected v s') :
    s.receive i bytes addr draw now = s'.conclude r.message i v [] := by
  simp only [receive, hdecoded, hcls, receiveRequest, hknown, ne_eq, not_true_eq_false, if_false]
  rcases hmethod with hmethod | hmethod | hmethod | hmethod <;> simp only [hmethod, hrejected]

/-- A request without a code is told the realm and a nonce. -/
theorem receive_of_unsigned {bytes : Bytes} {r : Received} {draw : Draw}
    (hdecoded : Datagram.decode bytes = .ok (.message r))
    (hcls : r.message.cls = .request) (hknown : r.message.unknownRequired = [])
    (hmethod : r.message.method = .allocate ∨ r.message.method = .refresh ∨
      r.message.method = .createPermission ∨ r.message.method = .channelBind)
    (hunsigned : r.message.hasIntegrity = false) :
    let issued := s.nonces.getOrIssue addr draw.nonce now
    s.receive i bytes addr draw now =
      { answer := .done (s.reply r.message i
          (.refusal .unauthorized [.realm s.realm, .nonce issued.1]))
        service := { s with nonces := issued.2 } } := by
  have hidentify : s.identify r.message addr draw.nonce now =
      .rejected (s.remind addr .unauthorized draw.nonce now).1
        (s.remind addr .unauthorized draw.nonce now).2 := by
    simp [identify, hunsigned]
  rw [receive_of_rejected hdecoded hcls hknown hmethod hidentify]
  rfl

/-- So it is when the datagram is dealt with from start to end. -/
theorem process_of_unsigned {bytes : Bytes} {r : Received} (login : Login) {draw : Draw}
    (draw' : Draw) (hdecoded : Datagram.decode bytes = .ok (.message r))
    (hcls : r.message.cls = .request) (hknown : r.message.unknownRequired = [])
    (hmethod : r.message.method = .allocate ∨ r.message.method = .refresh ∨
      r.message.method = .createPermission ∨ r.message.method = .channelBind)
    (hunsigned : r.message.hasIntegrity = false) :
    let issued := s.nonces.getOrIssue addr draw.nonce now
    s.process login i bytes addr draw draw' now =
      { answer := s.reply r.message i (.refusal .unauthorized [.realm s.realm, .nonce issued.1])
        service := { s with nonces := issued.2 } } := by
  rw [process, receive_of_unsigned hdecoded hcls hknown hmethod hunsigned]

/-- What its handler makes of a request whose user and key are known. -/
def handle (s : Service) (p : PendingRequest) (key : Stun.Key) (draw : Draw) (now : Time) :
    Outcome (Except Stun.Error (Option Response)) :=
  let d := Request.decide ⟨p.message, p.addr, p.interface, p.username⟩ s.table draw.portOffset now
  { answer := some <$> d.verdict.respond p.message s.software p.interface.listening (some key)
    events := d.events
    service := { s with table := d.table } }

theorem authenticate_of_validate {p : PendingRequest} {password : String} {k : Mechanism}
    (h : Stun.validate p.message (some p.wire) ⟨p.username, p.realm, password⟩ = .ok k)
    (s : Service) (draw : NonceDraw) (now : Time) : s.authenticate p (some password) draw now =
      .accepted (Credential.key ⟨p.username, p.realm, password⟩ k) := by
  simp only [authenticate, h]

theorem resume_of_validate {p : PendingRequest} {password : String} {k : Mechanism}
    (h : Stun.validate p.message (some p.wire) ⟨p.username, p.realm, password⟩ = .ok k)
    (s : Service) (draw : Draw) (now : Time) : s.resume p (some password) draw now =
      s.handle p (Credential.key ⟨p.username, p.realm, password⟩ k) draw now := by
  simp only [resume, authenticate_of_validate h, handle]

/-- The lookup of the password and the handler follow each other. -/
theorem process_of_asks {login : Login} {bytes : Bytes} {draw : Draw} {p : PendingRequest}
    {events : List Event} (h : s.receive i bytes addr draw now =
      { answer := .asks p, events, service := s }) (draw' : Draw) :
    s.process login i bytes addr draw draw' now =
      let found := login.find addr p.username
      let second := s.resume p found.password? draw' (now + found.elapsed)
      { second with events := events ++ second.events } := by
  rw [process, h]

/-- The bytes hold a request for a handler, with the nonce and signed with the credential that it
names. -/
structure Attests (bytes : Bytes) (r : Received) (c : Credential) (nonce : String) (k : Mechanism) :
    Prop where
  decoded : Datagram.decode bytes = .ok (.message r)
  cls : r.message.cls = .request
  known : r.message.unknownRequired = []
  method : r.message.method = .allocate ∨ r.message.method = .refresh ∨
    r.message.method = .createPermission ∨ r.message.method = .channelBind
  signed : r.message.hasIntegrity
  username : r.message.username = some c.username
  realm : r.message.realm = some c.realm
  nonce : r.message.nonce = some nonce
  valid : Stun.validate r.message (some r.wire) c = .ok k

theorem Attests.receive {bytes : Bytes} {r : Received} {c : Credential} {nonce : String}
    {k : Mechanism} (h : Attests bytes r c nonce k) (hrealm : s.realm = c.realm)
    (hverify : s.nonces.verify addr nonce now) (draw : Draw) :
    s.receive i bytes addr draw now =
      { answer := .asks ⟨r.message, r.wire, addr, i, c.username, c.realm⟩
        events := [.passwordRequested addr c.username], service := s } := by
  refine receive_of_named h.decoded h.cls h.known h.method ?_
  rw [← hrealm]
  exact identify_of_names h.signed h.username (hrealm ▸ h.realm) h.nonce hverify _

/-- What is proved with the password that the lookup finds is handled, whatever the state of the
service: no digest has to be worked out again. -/
theorem Attests.process {login : Login} {bytes : Bytes} {r : Received} {c : Credential}
    {nonce : String} {k : Mechanism} (h : Attests bytes r c nonce k) (hrealm : s.realm = c.realm)
    (hverify : s.nonces.verify addr nonce now)
    (hpassword : (login.find addr c.username).password? = some c.password) (draw draw' : Draw) :
    s.process login i bytes addr draw draw' now =
      let handled := s.handle ⟨r.message, r.wire, addr, i, c.username, c.realm⟩ (c.key k) draw'
        (now + (login.find addr c.username).elapsed)
      { handled with events := .passwordRequested addr c.username :: handled.events } := by
  rw [process_of_asks (h.receive hrealm hverify draw)]
  dsimp only
  rw [hpassword, resume_of_validate h.valid]
  rfl

/-- A request that is signed, by a client that has a nonce of the service in force, stops for the
password of its user, which verifies it. -/
theorem receive_of_signed (s : Service) (i : Interface) (addr : Endpoint) (draw : Draw)
    (now : Time) {m : Message} {username nonce password : String} {k : Mechanism}
    {fingerprint : Bool} {bytes : Bytes} (hcls : m.cls = .request)
    (hmethod : m.method = .allocate ∨ m.method = .refresh ∨ m.method = .createPermission ∨
      m.method = .channelBind)
    (hrep : ∀ a ∈ m.attributes, a.isProtection = false → a.Representable)
    (hknown : m.unknownRequired = []) (husername : m.username = some username)
    (hrealm : m.realm = some s.realm) (hnonce : m.nonce = some nonce)
    (hverify : s.nonces.verify addr nonce now)
    (hencode : m.encode (some (Credential.key ⟨username, s.realm, password⟩ k)) fingerprint =
      .ok bytes) :
    ∃ r, Datagram.decode bytes = .ok (.message r) ∧ m.Seals r.message ∧
      s.receive i bytes addr draw now =
        { answer := .asks ⟨r.message, r.wire, addr, i, username, s.realm⟩
          events := [.passwordRequested addr username], service := s } ∧
      Stun.validate r.message (some r.wire) ⟨username, s.realm, password⟩ = .ok k := by
  obtain ⟨r, hdecode, hseals, hsigned, hverified, -⟩ := Message.decode_verified hrep hencode
  have hdecoded : Datagram.decode bytes = .ok (.message r) :=
    Message.datagram_of_encode hencode hdecode
  have husername' : r.message.username = some username := hseals.username_eq.trans husername
  have hrealm' : r.message.realm = some s.realm := hseals.realm_eq.trans hrealm
  have hnamed : s.identify r.message addr draw.nonce now = .named username s.realm :=
    identify_of_names hsigned husername' hrealm' (hseals.nonce_eq.trans hnonce) hverify _
  refine ⟨r, hdecoded, hseals, ?_, ?_⟩
  · refine receive_of_named hdecoded (hseals.cls.trans hcls)
      (hseals.unknownRequired_eq.trans hknown) ?_ hnamed
    rw [hseals.method]
    exact hmethod
  · rw [Message.validate_eq_checkIntegrity hsigned (by rw [husername']; rfl)
      (by rw [hrealm']; rfl), hverified]

/-- A request of which a signed copy arrives, from a client that has the service's nonce and its
user's password, in whatever state the service is: it is asked for the password and, whenever it is
there, handled for the user with the user's key, and refused at most by its handler. -/
theorem process_admits (s : Service) (login : Login) (i : Interface) (addr : Endpoint)
    (draw draw' : Draw) (now : Time) {m : Message} {username nonce password : String}
    {k : Mechanism} {fingerprint : Bool} {bytes : Bytes} (hcls : m.cls = .request)
    (hmethod : m.method = .allocate ∨ m.method = .refresh ∨ m.method = .createPermission ∨
      m.method = .channelBind)
    (hrep : ∀ a ∈ m.attributes, a.isProtection = false → a.Representable)
    (hknown : m.unknownRequired = []) (husername : m.username = some username)
    (hrealm : m.realm = some s.realm) (hnonce : m.nonce = some nonce)
    (hverify : s.nonces.verify addr nonce now)
    (hpassword : (login.find addr username).password? = some password)
    (hencode : m.encode (some (Credential.key ⟨username, s.realm, password⟩ k)) fingerprint =
      .ok bytes) :
    ∃ r, Datagram.decode bytes = .ok (.message r) ∧ m.Seals r.message ∧
      let p : PendingRequest := ⟨r.message, r.wire, addr, i, username, s.realm⟩
      let key : Stun.Key := Credential.key ⟨username, s.realm, password⟩ k
      let request : Request := ⟨r.message, addr, i, username⟩
      let handled := s.handle p key draw' (now + (login.find addr username).elapsed)
      s.receive i bytes addr draw now =
        { answer := .asks p, events := [.passwordRequested addr username], service := s } ∧
      (∀ (mid : Service) (draw : Draw) (later : Time),
        mid.resume p (some password) draw later = mid.handle p key draw later) ∧
      s.process login i bytes addr draw draw' now =
        { handled with events := .passwordRequested addr username :: handled.events } ∧
      ∀ t offset later why attributes,
        (request.decide t offset later).verdict = .refusal why attributes →
          why.code ≠ 401 ∧ why.code ≠ 420 ∧ why.code ≠ 438 := by
  obtain ⟨r, hdecoded, hseals, hasks, hvalid⟩ := s.receive_of_signed i addr draw now hcls hmethod
    hrep hknown husername hrealm hnonce hverify hencode
  refine ⟨r, hdecoded, hseals, hasks, fun mid => resume_of_validate hvalid mid, ?_, ?_⟩
  · rw [process_of_asks hasks]
    dsimp only
    rw [hpassword, resume_of_validate hvalid]
    rfl
  · intro t offset later why attributes hverdict
    exact Refusal.code_of_isPlain
      ((Request.decide_effect _ t offset later).isPlain hverdict)

/-- A Refresh request, signed and with the client's nonce, is refused by its handler alone. -/
theorem process_admits_refresh :
    let addr : Endpoint := .v4 0xc0000201 4000
    let nonces : NonceTable := { ttl := 0, nonces := [(addr, ⟨"n", 100⟩)] }
    let s : Service := { make { realm := "r" } with nonces }
    let login : Login := .ofUsers [("bob", "secret")] 0
    let i : Interface := ⟨.v4 0xc0000202 3478, .v4 0xc0000202 3478⟩
    let draw : Draw := { nonce := { value := "x" } }
    let m : Message := ⟨.refresh, .request, 7, [.username "bob", .realm "r", .nonce "n"]⟩
    let key : Stun.Key := Credential.key ⟨"bob", "r", "secret"⟩ .sha1
    let header : Bytes := [0, 4, 0, 48, 33, 18, 164, 66, 0, 0, 0, 0, 0, 0, 0, 0, 0, 0, 0, 7]
    let plain : Bytes := [0, 6, 0, 3, 98, 111, 98, 0, 0, 20, 0, 1, 114, 0, 0, 0, 0, 21, 0, 1, 110,
      0, 0, 0]
    let code : Bytes := [0, 8, 0, 20, 208, 189, 84, 53, 30, 80, 153, 126, 203, 180, 15, 141, 172,
      167, 163, 123, 198, 138, 95, 24]
    let bytes := header ++ plain ++ code
    m.encode (some key) false = .ok bytes ∧ s.nonces.verify addr "n" 99 ∧
      (login.find addr "bob").password? = some "secret" ∧
      ∃ r, Datagram.decode bytes = .ok (.message r) ∧ m.Seals r.message ∧
        let p : PendingRequest := ⟨r.message, r.wire, addr, i, "bob", "r"⟩
        let handled := s.handle p key draw 99
        s.process login i bytes addr draw draw 99 =
          { handled with events := .passwordRequested addr "bob" :: handled.events } := by
  intro addr nonces s login i draw m key header plain code bytes
  have hrep : ∀ a ∈ m.attributes, a.isProtection = false → a.Representable := by
    intro a ha _
    simp only [m, List.mem_cons, List.not_mem_nil, or_false] at ha
    rcases ha with rfl | rfl | rfl
    · change (Bytes.ofText "bob").length ≤ 513
      decide
    · change (Bytes.ofText "r").length ≤ 763
      decide
    · change (Bytes.ofText "n").length ≤ 763
      decide
  have hbody : m.body = .ok plain := by decide +kernel
  have hsigned : m.protect plain key = .ok (plain ++ code) := by decide +kernel
  have hframe : m.frame (plain ++ code) 0 = .ok bytes := by decide +kernel
  have hencode : m.encode (some key) false = .ok bytes :=
    Stun.bind_eq_ok.2 ⟨_, hbody, Stun.bind_eq_ok.2 ⟨_, hsigned, hframe⟩⟩
  have hverify : s.nonces.verify addr "n" 99 := by decide +kernel
  have hpassword : (login.find addr "bob").password? = some "secret" := rfl
  have husername : m.username = some "bob" := rfl
  have hnonce : m.nonce = some "n" := rfl
  obtain ⟨r, hdecoded, hseals, -, -, hprocess, -⟩ := process_admits s login i addr draw draw 99
    (m := m) rfl (.inr (.inl rfl)) hrep rfl husername rfl hnonce hverify hpassword hencode
  exact ⟨hencode, hverify, hpassword, r, hdecoded, hseals, hprocess⟩

end Service
end NatRelay
