import NatRelay.Proofs.Service.Answer
import NatRelay.Proofs.Service.Lockout
import NatRelay.Proofs.Settings.Checked

/-! Settings that clients can be served with. Main statement: `load_serves`, that whoever asks for
the realm and a nonce is granted an allocation with them, and that the host's clock can show when it
ends. The checks let pass settings that nobody can be served with: nonces for no time, and such as
outlast the clock (`load_serves_of_unchecked_ttl`). -/
namespace NatRelay
open Stun (Attribute Credential Datagram Message)

/-! ### The first allocation -/

/-- What the first client of a table is granted. -/
theorem Request.decide_of_unleased {r : Request} {t : Table}
    (hmethod : r.message.method = .allocate)
    (htransport : r.message.requestedTransport = some .udp) (hentries : t.entries = [])
    (hslots : t.slots = 0) (hleased : t.pool.leased = [])
    (hports : t.pool.firstPort ≤ t.pool.lastPort)
    (hasked : ∀ f, r.message.requestedFamily = some f → t.hasFamily f)
    (hown : t.hasFamily r.interface.external.family) (offset : Nat) (now : Time) :
    ∃ a, (r.decide t offset now).verdict = r.granted a now ∧
      a.remaining now = t.grantedLifetime r.message.lifetime := by
  have hnone : t.find? r.fiveTuple now = none := by
    rw [Table.find?, hentries]
    rfl
  have hknown : ¬ (r.message.requestedFamily.any (!t.hasFamily ·)) := by
    intro hany
    obtain ⟨f, hf, hmissing⟩ := (Option.any_eq_true ..).1 hany
    simp [hasked f hf] at hmissing
  have hfamily : t.hasFamily (r.message.requestedFamily.getD r.interface.external.family) := by
    cases hf : r.message.requestedFamily with
    | none => exact hown
    | some f => exact hasked f hf
  obtain ⟨a, t', hcreate⟩ := Table.create_of_unleased
    (r := ⟨r.fiveTuple, r.username, r.message.tid,
      r.message.requestedFamily.getD r.interface.external.family, r.message.lifetime⟩)
    hentries hslots hleased hfamily hports offset now
  obtain ⟨relay, pool, -, hbuilt, -⟩ := Table.create_eq_ok hcreate
  refine ⟨a, ?_, ?_⟩
  · simp [decide, hmethod, allocate, hnone, allocateNew, htransport, hknown, hcreate]
  · rw [hbuilt]
    exact Nat.add_sub_cancel_left ..

/-! ### What a client asks and reads -/

namespace Stun.Message

/-- An Allocate without a code, to be told the realm and a nonce. -/
structure IsInquiry (m : Message) : Prop where
  cls : m.cls = .request
  method : m.method = .allocate
  known : m.unknownRequired = []
  unsigned : m.hasIntegrity = false

/-- An Allocate for UDP under a user's name, with the realm and the nonce that were told. But for
the name, it bears nothing that a packet cannot carry. -/
structure Wants (m : Message) (username realm nonce : String) : Prop where
  cls : m.cls = .request
  method : m.method = .allocate
  known : m.unknownRequired = []
  transport : m.requestedTransport = some .udp
  username_eq : m.username = some username
  realm_eq : m.realm = some realm
  nonce_eq : m.nonce = some nonce
  representable : ∀ a ∈ m.attributes, a.isProtection = false →
    a = .username username ∨ a.Representable

/-- A request that bears no more than it must. -/
def bareRequest (username realm nonce : String) : Message :=
  ⟨.allocate, .request, 2,
    [.requestedTransport .udp, .username username, .realm realm, .nonce nonce]⟩

theorem representable_udp : (Attribute.requestedTransport .udp).Representable := by
  rintro _ ⟨⟩

theorem wants_bareRequest (username : String) {realm nonce : String}
    (hrealm : (Bytes.ofText realm).length ≤ 763) (hnonce : (Bytes.ofText nonce).length ≤ 763) :
    (bareRequest username realm nonce).Wants username realm nonce := by
  refine ⟨rfl, rfl, rfl, rfl, rfl, rfl, rfl, ?_⟩
  simp only [bareRequest, List.forall_mem_cons]
  exact ⟨fun _ => .inr representable_udp, fun _ => .inl trivial, fun _ => .inr hrealm,
    fun _ => .inr hnonce, List.forall_mem_nil _⟩

theorem fits_bareRequest {username realm nonce : String}
    (hname : (Bytes.ofText username).length ≤ 513) (hrealm : (Bytes.ofText realm).length ≤ 763)
    (hnonce : (Bytes.ofText nonce).length ≤ 763) : (bareRequest username realm nonce).Fits := by
  refine .of_isShort ?_ (Nat.le_add_left 4 6)
  simp only [bareRequest, List.forall_mem_cons]
  exact ⟨⟨rfl, representable_udp⟩, ⟨rfl, hname⟩, ⟨rfl, hrealm⟩, ⟨rfl, hnonce⟩,
    List.forall_mem_nil _⟩

end Stun.Message

namespace Settings

/-- A packet that tells the realm and a nonce to whoever came without a code. -/
def IsChallenge (data : Bytes) (realm nonce : String) : Prop :=
  ∃ r, Datagram.decode data = .ok (.message r) ∧ r.message.cls = .error ∧
    r.message.errorCode.map (·.code) = some 401 ∧ r.message.realm = some realm ∧
    r.message.nonce = some nonce

/-- A packet that tells for how many seconds an allocation is granted. -/
def IsGrant (data : Bytes) (lifetime : UInt32) : Prop :=
  ∃ r, Datagram.decode data = .ok (.message r) ∧ r.message.cls = .success ∧
    r.message.lifetime = some lifetime

/-- A user with its password, at an interface, is told the realm and a nonce, and with them is
granted an allocation at the same time. -/
def Serves (st : Settings) : Prop :=
  ∀ i ∈ st.interfaces, ∀ username password, st.users.lookup username = some password →
    ∀ (addr : Endpoint) (now : Time) (draw₁ draw₂ draw₃ draw₄ : Draw), draw₁.nonce.Fits →
      ∀ bytes r, Datagram.decode bytes = .ok (.message r) → r.message.IsInquiry →
        let login := Login.ofUsers st.users st.authTimeout
        let first := (Service.make st.serviceOptions).process login i bytes addr draw₁ draw₂ now
        ∃ challenge realm nonce, first.answer = .ok (some (.reply i.listening none challenge)) ∧
          IsChallenge challenge realm nonce ∧
          ∀ (m : Message) (k : Stun.Mechanism) (fingerprint : Bool) (signed : Bytes),
            m.Wants username realm nonce →
            (∀ f, m.requestedFamily = some f → ∃ i ∈ st.interfaces, i.external.family = f) →
            m.encode (some (Credential.key ⟨username, realm, password⟩ k)) fingerprint =
              .ok signed →
            let second := first.service.process login i signed addr draw₃ draw₄ now
            ∃ relay data n, second.answer = .ok (some (.reply i.listening (some relay) data)) ∧
              IsGrant data n ∧ st.defaultLifetime ≤ seconds n.toNat ∧
              seconds n.toNat ≤ st.maxLifetime

/-- Whatever happens to the service in the first half of the clock's time, the clock can show when
its allocations and its nonces end. -/
def KeepsTime (st : Settings) : Prop :=
  ∀ (ops : List (Service.Op × Time)) (now : Time),
    (Service.make st.serviceOptions).Timely 0 ops now → now < clockHalf →
      ((Service.make st.serviceOptions).run ops).service.EndsBefore clockEnd

/-- What no check asks for: a nonce is good for some time, but for no more than half the clock's, the
texts fit the packets of the service, the names those of the clients, and the shortest lifetime can
be told. -/
structure IsUsable (st : Settings) : Prop where
  nonceTtl_pos : 0 < st.nonceTtl
  nonceTtl_le : st.nonceTtl ≤ clockHalf
  realm : (Bytes.ofText st.realm).length ≤ 763
  software : (Bytes.ofText st.software).length ≤ 763
  names : ∀ user ∈ st.users, (Bytes.ofText user.1).length ≤ 513
  defaultLifetime : st.defaultLifetime < seconds UInt32.size

instance (st : Settings) : Decidable st.IsUsable :=
  decidable_of_iff (0 < st.nonceTtl ∧ st.nonceTtl ≤ clockHalf ∧
      (Bytes.ofText st.realm).length ≤ 763 ∧ (Bytes.ofText st.software).length ≤ 763 ∧
      (∀ user ∈ st.users, (Bytes.ofText user.1).length ≤ 513) ∧
      st.defaultLifetime < seconds UInt32.size)
    ⟨fun ⟨h₁, h₂, h₃, h₄, h₅, h₆⟩ => ⟨h₁, h₂, h₃, h₄, h₅, h₆⟩,
      fun ⟨h₁, h₂, h₃, h₄, h₅, h₆⟩ => ⟨h₁, h₂, h₃, h₄, h₅, h₆⟩⟩

/-- The first request of a client is answered with a challenge. -/
theorem inquiry_challenged {st : Settings} (hrealm : (Bytes.ofText st.realm).length ≤ 763)
    (hsoftware : (Bytes.ofText st.software).length ≤ 763) (login : Login) (i : Interface)
    {addr : Endpoint} {now : Time} {draw : Draw} (draw' : Draw) (hdraw : draw.nonce.Fits)
    {bytes : Bytes} {r : Stun.Received} (hdecoded : Datagram.decode bytes = .ok (.message r))
    (hinquiry : r.message.IsInquiry) :
    let s := Service.make st.serviceOptions
    let issued := s.nonces.getOrIssue addr draw.nonce now
    ∃ data, s.process login i bytes addr draw draw' now =
        { answer := .ok (some (.reply i.listening none data))
          service := { s with nonces := issued.2 } } ∧
      IsChallenge data st.realm issued.1 := by
  intro s issued
  have hnone : s.nonces.Fits := List.forall_mem_nil _
  have hnonce : (Bytes.ofText issued.1).length ≤ 763 := hnone.length_getOrIssue hdraw
  have hbrief := Verdict.isBrief_challenge .unauthorized hrealm hnonce
  obtain ⟨data, answer, hrespond, hreads, hseals, -⟩ :=
    Service.respond_refusal (hbrief.fits hsoftware (m := r.message)) i.listening none
  refine ⟨data, ?_, answer, hreads.decoded, hseals.cls, ?_, ?_, ?_⟩
  · rw [Service.process_of_unsigned login draw' hdecoded hinquiry.cls hinquiry.known
      (.inl hinquiry.method) hinquiry.unsigned]
    exact congrArg (Outcome.mk · [] { s with nonces := issued.2 })
      (congrArg (some <$> ·) hrespond)
  · rw [hseals.errorCode_eq]
    rfl
  · rw [hseals.realm_eq]
    rfl
  · rw [hseals.nonce_eq]
    rfl

theorem hasFamily_of_mem {st : Settings} {i : Interface} (h : i ∈ st.interfaces) :
    (Service.make st.serviceOptions).table.hasFamily i.external.family := by
  refine List.any_eq_true.2 ⟨i.external.ip, ?_, decide_eq_true rfl⟩
  exact List.mem_eraseDups.2 (List.mem_eraseDups.2 (List.mem_map_of_mem h))

/-- The longest lifetime that can be granted can be told in whole seconds. -/
theorem IsUsable.longest_lt {st : Settings} (h : st.IsUsable) :
    st.serviceOptions.allocation.longest < seconds UInt32.size :=
  Nat.max_lt.2 ⟨by decide, h.defaultLifetime⟩

/-- What is told of a lifetime that is granted lies within the bounds. -/
theorem told_bounds {st : Settings} (hchecked : st.Checked) (husable : st.IsUsable)
    (requested : Option UInt32) :
    let told := Request.wholeSeconds
      ((Service.make st.serviceOptions).table.grantedLifetime requested)
    st.defaultLifetime ≤ seconds told.toNat ∧ seconds told.toNat ≤ st.maxLifetime := by
  intro told
  let t := (Service.make st.serviceOptions).table
  have hleast : st.defaultLifetime ≤ t.grantedLifetime requested :=
    t.default_le_grantedLifetime requested
  have hmost : t.grantedLifetime requested ≤ st.maxLifetime :=
    t.grantedLifetime_le_max hchecked.default_le requested
  have hbits : t.grantedLifetime requested < seconds UInt32.size :=
    Nat.lt_of_le_of_lt (t.grantedLifetime_le requested) husable.longest_lt
  have htold : told.toNat = t.grantedLifetime requested / 1000 :=
    UInt32.toNat_ofNat_of_lt' (Nat.div_lt_of_lt_mul (Nat.mul_comm .. ▸ hbits))
  -- The default is told in whole seconds, so that none of them is lost.
  obtain ⟨n, hn⟩ := hchecked.default_seconds
  rw [hn, seconds] at hleast ⊢
  have hwhole : n ≤ t.grantedLifetime requested / 1000 :=
    (Nat.le_div_iff_mul_le (by decide)).2 hleast
  rw [htold]
  exact ⟨Nat.mul_le_mul_right 1000 hwhole, Nat.le_trans (Nat.div_mul_le_self _ _) hmost⟩

/-- What is granted can be read. -/
theorem respond_granted {software : String} (hsoftware : (Bytes.ofText software).length ≤ 763)
    (r : Request) (a : Allocation) (now : Time) (c : Credential) (k : Stun.Mechanism) :
    ∃ data, (r.granted a now).respond r.message software r.interface.listening (some (c.key k)) =
        .ok (.reply r.interface.listening (some a.relay) data) ∧
      IsGrant data (Request.wholeSeconds (a.remaining now)) := by
  have hfits := (Verdict.isBrief_granted r a now).fits hsoftware (m := r.message)
  obtain ⟨data, answer, hrespond, hreads, hseals, -⟩ :=
    Service.respond_success hfits r.interface.listening c k
  exact ⟨data, hrespond, answer, hreads.decoded, hseals.cls, hseals.lifetime_eq⟩

/-- The first Allocate for UDP that gets to its handler is granted. -/
theorem handle_granted {st : Settings} (hchecked : st.Checked) (husable : st.IsUsable)
    (nonces : NonceTable) {p : PendingRequest} (hi : p.interface ∈ st.interfaces)
    (hmethod : p.message.method = .allocate)
    (htransport : p.message.requestedTransport = some .udp)
    (hfamily : ∀ f, p.message.requestedFamily = some f →
      ∃ i ∈ st.interfaces, i.external.family = f)
    (c : Credential) (k : Stun.Mechanism) (draw : Draw) (now : Time) :
    let handled := { Service.make st.serviceOptions with nonces }.handle p (c.key k) draw now
    ∃ relay data n,
      handled.answer = .ok (some (.reply p.interface.listening (some relay) data)) ∧
      IsGrant data n ∧ st.defaultLifetime ≤ seconds n.toNat ∧ seconds n.toNat ≤ st.maxLifetime := by
  intro handled
  let t := (Service.make st.serviceOptions).table
  let request : Request := ⟨p.message, p.addr, p.interface, p.username⟩
  obtain ⟨a, hverdict, hleft⟩ := Request.decide_of_unleased (r := request) (t := t) hmethod
    htransport rfl rfl rfl hchecked.ports
    (fun f hf => by
      obtain ⟨i, hi, rfl⟩ := hfamily f hf
      exact hasFamily_of_mem hi)
    (hasFamily_of_mem hi) draw.portOffset now
  obtain ⟨data, hrespond, hgrant⟩ := respond_granted husable.software request a now c k
  refine ⟨a.relay, data, _, ?_, hgrant, ?_⟩
  · change some <$> Verdict.respond (request.decide t draw.portOffset now).verdict p.message
      st.software p.interface.listening _ = _
    rw [hverdict]
    exact congrArg (some <$> ·) hrespond
  · rw [hleft]
    exact told_bounds hchecked husable p.message.lifetime

/-- The second request is answered with a grant. -/
theorem request_granted {st : Settings} (hchecked : st.Checked) (husable : st.IsUsable)
    {i : Interface} (hi : i ∈ st.interfaces) {username password : String}
    (huser : st.users.lookup username = some password) {addr : Endpoint} {now : Time}
    {draw : NonceDraw} (draw₃ draw₄ : Draw) {m : Message} {k : Stun.Mechanism}
    {fingerprint : Bool} {signed : Bytes} :
    let login := Login.ofUsers st.users st.authTimeout
    let s := Service.make st.serviceOptions
    let issued := s.nonces.getOrIssue addr draw now
    m.Wants username st.realm issued.1 →
    (∀ f, m.requestedFamily = some f → ∃ i ∈ st.interfaces, i.external.family = f) →
    m.encode (some (Credential.key ⟨username, st.realm, password⟩ k)) fingerprint = .ok signed →
    ∃ relay data n, ({ s with nonces := issued.2 }.process login i signed addr draw₃ draw₄
        now).answer = .ok (some (.reply i.listening (some relay) data)) ∧
      IsGrant data n ∧ st.defaultLifetime ≤ seconds n.toNat ∧ seconds n.toNat ≤ st.maxLifetime := by
  intro login s issued hwants hfamily hencode
  have hverify : issued.2.verify addr issued.1 now :=
    NonceTable.verify_getOrIssue husable.nonceTtl_pos
  have hrep : ∀ a ∈ m.attributes, a.isProtection = false → a.Representable := by
    intro a ha hplain
    rcases hwants.representable a ha hplain with rfl | hrep
    · exact husable.names (username, password) (Assoc.mem_of_lookup huser)
    · exact hrep
  obtain ⟨r, hdecoded, hseals, hasks, hvalid⟩ :=
    Service.receive_of_signed { s with nonces := issued.2 } i addr draw₃ now hwants.cls
      (.inl hwants.method) hrep hwants.known hwants.username_eq hwants.realm_eq hwants.nonce_eq
      hverify hencode
  let p : PendingRequest := ⟨r.message, r.wire, addr, i, username, st.realm⟩
  let c : Credential := ⟨username, st.realm, password⟩
  have hhandled : ({ s with nonces := issued.2 }.process login i signed addr draw₃ draw₄
      now).answer = ({ s with nonces := issued.2 }.handle p (c.key k) draw₄ now).answer := by
    have hfound : (login.find addr username).password? = some password := huser
    rw [Service.process_of_asks hasks]
    dsimp only
    rw [hfound, Service.resume_of_validate hvalid]
    rfl
  rw [hhandled]
  exact handle_granted hchecked husable issued.2 (p := p) hi
    (hseals.method.trans hwants.method) (hseals.requestedTransport_eq.trans hwants.transport)
    (fun f hf => hfamily f (hseals.requestedFamily_eq.symm.trans hf)) c k draw₄ now

/-- The ends of nonces and allocations are never out of the clock's time. -/
theorem IsUsable.keepsTime {st : Settings} (h : st.IsUsable) : st.KeepsTime := by
  intro ops now htimely hearly
  have hlongest : st.serviceOptions.allocation.longest ≤ clockHalf :=
    Nat.le_of_lt (Nat.lt_of_lt_of_le h.longest_lt (by decide))
  exact Service.run_endsBefore htimely hearly hlongest h.nonceTtl_le

theorem exists_of_any (vars : List (String × String)) (p : Settings → Prop) [DecidablePred p]
    (h : (load vars).toOption.any (decide <| p ·) = true) : ∃ st, load vars = .ok st ∧ p st := by
  cases hload : load vars with
  | error e =>
    rw [hload] at h
    cases h
  | ok st =>
    rw [hload] at h
    exact ⟨st, rfl, of_decide_eq_true h⟩

/-- A relay with one user, "u" with the password "p", and nonces for some seconds. -/
def sampleVars (nonceTtl : String) : List (String × String) :=
  [("TURN_REALM", "r"), ("TURN_SOFTWARE", "s"), ("TURN_USERS", "u:p"), ("TURN_NONCE_TTL", nonceTtl)]

/-- Settings that pass the checks serve every client if they are usable, too, and keep to the time of
the clock. -/
theorem load_serves {vars : List (String × String)} {st : Settings} (h : load vars = .ok st)
    (husable : st.IsUsable) : st.Serves ∧ st.KeepsTime := by
  refine ⟨?_, husable.keepsTime⟩
  intro i hi username password huser addr now draw₁ draw₂ draw₃ draw₄ hdraw bytes r hdecoded
    hinquiry login first
  obtain ⟨challenge, hfirst, hchallenge⟩ :=
    inquiry_challenged husable.realm husable.software login i draw₂ hdraw hdecoded hinquiry
  have hfirst : first = _ := hfirst
  rw [hfirst]
  exact ⟨challenge, st.realm, _, rfl, hchallenge, fun m k fingerprint signed =>
    request_granted (load_checked h) husable hi huser draw₃ draw₄⟩

/-- Nonces for an hour. -/
theorem load_serves_of_an_hour : ∃ st, load (sampleVars "3600") = .ok st ∧ st.IsUsable ∧
    st.interfaces ≠ [] ∧ st.users.lookup "u" = some "p" ∧ st.Serves ∧ st.KeepsTime := by
  obtain ⟨st, hload, husable, hinterfaces, huser⟩ := exists_of_any (sampleVars "3600")
    (fun st => st.IsUsable ∧ st.interfaces ≠ [] ∧ st.users.lookup "u" = some "p")
    (by decide +kernel)
  exact ⟨st, hload, husable, hinterfaces, huser, load_serves hload husable⟩

/-! ### Nonces for no time, or for all time -/

theorem IsChallenge.unique {data : Bytes} {realm realm' nonce nonce' : String}
    (h : IsChallenge data realm nonce) (h' : IsChallenge data realm' nonce') :
    realm' = realm ∧ nonce' = nonce := by
  obtain ⟨r, hdecoded, -, -, hrealm, hnonce⟩ := h
  obtain ⟨r', hdecoded', -, -, hrealm', hnonce'⟩ := h'
  obtain rfl := Datagram.message_unique hdecoded' hdecoded
  exact ⟨Option.some.inj (hrealm'.symm.trans hrealm), Option.some.inj (hnonce'.symm.trans hnonce)⟩

theorem not_isGrant_of_zero {s : Service} {login : Login} {i : Interface} {bytes data : Bytes}
    {addr : Endpoint} {draw draw' : Draw} {now : Time} {r : Stun.Received} {relay? : Option Endpoint}
    {n : UInt32} (hends : s.nonces.EndsWithin now) (hzero : s.nonces.ttl = 0)
    (hdecoded : Datagram.decode bytes = .ok (.message r)) (hmethod : r.message.method = .allocate)
    (hanswer : (s.process login i bytes addr draw draw' now).answer =
      .ok (some (.reply i.listening relay? data))) : ¬ IsGrant data n := by
  rintro ⟨answer, hread, hcls, -⟩
  have hrefused := Service.process_not_success hends hzero hdecoded (.inl hmethod) hanswer
  have hpeek := Message.peekClass_of_decode (Stun.received_of_decode hread)
  rw [hcls] at hpeek
  simp [Response.isSuccess, hpeek] at hrefused

/-- Where there is a user, whose name and what it is told fit the packets, the nonces must be good
for some time. -/
theorem Serves.nonceTtl_pos {st : Settings} (h : st.Serves)
    (hrealm : (Bytes.ofText st.realm).length ≤ 763)
    (hsoftware : (Bytes.ofText st.software).length ≤ 763) {i : Interface}
    (hi : i ∈ st.interfaces) {username password : String}
    (huser : st.users.lookup username = some password)
    (hname : (Bytes.ofText username).length ≤ 513) : 0 < st.nonceTtl := by
  by_contra hnever
  have hzero : st.nonceTtl = 0 := Nat.eq_zero_of_not_pos hnever
  let draw : Draw := { nonce := { value := "n" } }
  have hdraw : draw.nonce.Fits := by decide
  obtain ⟨challenge, realm, nonce, hanswer, hchallenge, hgranted⟩ :=
    h i hi username password huser Service.sampleClient 0 draw draw draw draw hdraw Service.inquiry
      _ Service.decode_inquiry ⟨rfl, rfl, rfl, rfl⟩
  obtain ⟨data, hfirst, hissued⟩ := inquiry_challenged hrealm hsoftware
    (.ofUsers st.users st.authTimeout) i draw hdraw Service.decode_inquiry ⟨rfl, rfl, rfl, rfl⟩
  rw [hfirst] at hanswer hgranted
  obtain rfl : data = challenge := by simpa using hanswer
  obtain ⟨rfl, rfl⟩ := hissued.unique hchallenge
  let s := Service.make st.serviceOptions
  let issued := s.nonces.getOrIssue Service.sampleClient draw.nonce 0
  have hnone : s.nonces.Fits := List.forall_mem_nil _
  have hnonce : (Bytes.ofText issued.1).length ≤ 763 := hnone.length_getOrIssue hdraw
  have hfits := Message.fits_bareRequest hname hrealm hnonce
  have hwants := Message.wants_bareRequest username hrealm hnonce
  obtain ⟨signed, r, hencode, hdecoded, hseals, -⟩ :=
    hfits.sent_signed ⟨username, st.realm, password⟩ .sha1
  obtain ⟨relay, grant, n, hsecond, hgrant, -⟩ :=
    hgranted _ .sha1 true signed hwants (fun f hf => by cases hf) hencode
  have hturn := NonceTable.Turn.getOrIssue s.nonces Service.sampleClient draw.nonce 0
  have hends : s.nonces.EndsWithin 0 := List.forall_mem_nil _
  exact not_isGrant_of_zero (s := { s with nonces := issued.2 }) (hends.turn hturn (Nat.le_refl 0))
    (hturn.ttl.trans hzero) hdecoded hseals.method hsecond hgrant

/-- No nonce may outlast the clock: the first challenge of a client notes when it ends. -/
theorem KeepsTime.nonceTtl_le {st : Settings} (h : st.KeepsTime) : st.nonceTtl ≤ clockHalf := by
  let s := Service.make st.serviceOptions
  let draw : Draw := { nonce := { value := "n" } }
  let now : Time := clockHalf - 1
  let op : Service.Op :=
    .receive Service.sampleInterface Service.inquiry Service.sampleClient draw
  have hchallenged : (s.run [(op, now)]).service =
      { s with nonces := (s.nonces.getOrIssue Service.sampleClient draw.nonce now).2 } :=
    congrArg Outcome.service
      (Service.receive_of_unsigned Service.decode_inquiry rfl rfl (.inl rfl) rfl)
  have hissued : s.nonces.getOrIssue Service.sampleClient draw.nonce now =
      s.nonces.issue Service.sampleClient draw.nonce now := NonceTable.getOrIssue_of_not_good rfl
  have hnoted : (Service.sampleClient, ⟨"n", now + st.nonceTtl⟩) ∈
      (s.run [(op, now)]).service.nonces.nonces := by
    rw [hchallenged, hissued]
    exact Assoc.mem_of_lookup NonceTable.lookup_issue_self
  have htimely : s.Timely 0 [(op, now)] now := ⟨Nat.zero_le now, Nat.le_refl now⟩
  have hlast : now + st.nonceTtl < clockEnd := (h _ now htimely (by decide)).nonces _ hnoted
  refine Nat.le_of_add_le_add_left (a := clockHalf) ?_
  calc
    clockHalf + st.nonceTtl = now + 1 + st.nonceTtl := congrArg (· + st.nonceTtl) (by decide)
    _ = now + st.nonceTtl + 1 := Nat.add_right_comm now 1 st.nonceTtl
    _ ≤ clockEnd := hlast
    _ = clockHalf + clockHalf := clockHalf_add_clockHalf.symm

/-- Nonces for no time pass the checks, too, and lock out the user that there is; and so do such as
the clock cannot time. -/
theorem load_serves_of_unchecked_ttl :
    (∃ st, load (sampleVars "0") = .ok st ∧ st.nonceTtl = 0 ∧
      st.users.lookup "u" = some "p" ∧ ¬ st.Serves) ∧
    (∃ st, load (sampleVars "9223372036854775807") = .ok st ∧
      st.nonceTtl = seconds 9223372036854775807 ∧ ¬ st.KeepsTime) ∧
    ¬ ∀ vars st, load vars = .ok st → st.Serves := by
  obtain ⟨st, hload, hzero, huser, hrealm, hsoftware⟩ := exists_of_any (sampleVars "0")
    (fun st => st.nonceTtl = 0 ∧ st.users.lookup "u" = some "p" ∧
      (Bytes.ofText st.realm).length ≤ 763 ∧ (Bytes.ofText st.software).length ≤ 763)
    (by decide +kernel)
  obtain ⟨i, hi⟩ := List.exists_mem_of_ne_nil _ (load_checked hload).interfaces
  have hnot : ¬ st.Serves := by
    intro hserves
    have hpos := hserves.nonceTtl_pos hrealm hsoftware hi huser (by decide)
    exact Nat.lt_irrefl 0 (hzero ▸ hpos)
  obtain ⟨st', hload', htoolong⟩ := exists_of_any (sampleVars "9223372036854775807")
    (fun st => st.nonceTtl = seconds 9223372036854775807) (by decide +kernel)
  have hnot' : ¬ st'.KeepsTime := by
    intro hkeeps
    have hle := hkeeps.nonceTtl_le
    rw [htoolong] at hle
    exact absurd hle (by decide)
  exact ⟨⟨st, hload, hzero, huser, hnot⟩, ⟨st', hload', htoolong, hnot'⟩,
    fun h => hnot (h _ st hload)⟩

end Settings
end NatRelay
