import NatRelay.Proofs.Service.Handling

/-! What becomes of a client's nonce. Main statement: `run_rotates`, that a login that fails takes
the client's nonce out of force for good and gives it another, and that nothing else a client sends
takes a good nonce out of force: a challenge repeats it. -/
namespace NatRelay
open Stun (Datagram Message Received)

namespace NonceTable
variable {t t' : NonceTable} {draws : List NonceDraw} {draw : NonceDraw} {addr : Endpoint}
  {value : String} {last now : Time}

/-- A value that is not the client's does not become so unless it is drawn. -/
theorem Turn.not_holds (h : t.Turn draws last t') (nodup : t.nonces.keys.Nodup)
    (hdraws : ∀ draw ∈ draws, draw.value ≠ value) (hlacks : ¬ t.Holds addr value) :
    ¬ t'.Holds addr value := by
  rintro ⟨n, hfound, rfl⟩
  cases h with
  | kept => exact hlacks ⟨n, hfound, rfl⟩
  | @issued draw now addr' hdraw =>
    by_cases haddr : addr = addr'
    · subst haddr
      rw [lookup_issue_self] at hfound
      obtain rfl := Option.some.inj hfound
      exact hdraws draw hdraw rfl
    · rw [lookup_issue_ne haddr] at hfound
      rcases Assoc.lookup_of_sublist nodup (t.makeRoom_sublist addr' draw.victim now) addr with
        hsame | hnone
      · exact hlacks ⟨n, hsame.symm.trans hfound, rfl⟩
      · cases hnone.symm.trans hfound
  | swept now =>
    rcases Assoc.lookup_of_sublist nodup (t.live_sublist now) addr with hsame | hnone
    · exact hlacks ⟨n, hsame.symm.trans hfound, rfl⟩
    · cases hnone.symm.trans hfound

theorem not_verify_of_not_holds (h : ¬ t.Holds addr value) (now : Time) :
    ¬ t.verify addr value now := by
  intro hverify
  obtain ⟨n, hgood, hvalue⟩ := verify_iff.1 hverify
  exact h ⟨n, (good?_eq_some.1 hgood).1, hvalue⟩

/-- Behind an issue the client has the fresh value and no other. -/
theorem not_holds_issue (hother : value ≠ draw.value) :
    ¬ (t.issue addr draw now).2.Holds addr value := by
  rintro ⟨n, hfound, rfl⟩
  rw [lookup_issue_self] at hfound
  obtain rfl := Option.some.inj hfound
  exact hother rfl

/-- A fresh nonce is good for as long as nonces are. -/
theorem verify_issue_of_lt {later : Time} (hlater : later < now + t.ttl) :
    (t.issue addr draw now).2.verify addr draw.value later :=
  verify_iff.2 ⟨_, good?_eq_some.2 ⟨lookup_issue_self, hlater⟩, rfl⟩

end NonceTable

theorem Service.hasIntegrity_of_named {s : Service} {m : Message} {addr : Endpoint}
    {draw : NonceDraw} {now : Time} {username realm : String}
    (h : s.identify m addr draw now = .named username realm) : m.hasIntegrity := by
  rw [identify] at h
  split at h
  · cases h
  · rename_i hsigned
    simpa using hsigned

/-- A request that a datagram was and that stopped for the password of its user. -/
def PendingRequest.Stopped (p : PendingRequest) : Prop :=
  ∃ (s : Service) (i : Interface) (bytes : Bytes) (addr : Endpoint) (draw : Draw) (now : Time),
    (s.receive i bytes addr draw now).answer = .asks p

/-- What stopped for a password names what it takes to check it. -/
theorem PendingRequest.Stopped.validate {p : PendingRequest} (h : p.Stopped) (password : String) :
    Stun.validate p.message (some p.wire) ⟨p.username, p.realm, password⟩ =
        Stun.checkIntegrity p.message (some p.wire) ⟨p.username, p.realm, password⟩ ∧
      Stun.checkIntegrity p.message (some p.wire) ⟨p.username, p.realm, password⟩ ≠
        .error .invalidInput := by
  obtain ⟨s, i, bytes, addr, draw, now, hasks⟩ := h
  obtain ⟨r, hasked⟩ := Service.asked_of_asks hasks
  obtain ⟨hname, hrealm, -⟩ := Service.identify_eq_named hasked.named
  have hsigned := Service.hasIntegrity_of_named hasked.named
  rw [hasked.pending]
  refine ⟨Message.validate_eq_checkIntegrity hsigned (by rw [hname]; rfl) (by rw [hrealm]; rfl), ?_⟩
  exact Stun.checkIntegrity_ne_invalidInput (Stun.received_of_decode hasked.decoded) _

namespace Service
variable {s : Service} {op : Op} {i : Interface} {bytes : Bytes} {addr : Endpoint} {now : Time}

/-- A value that is not the client's stays so for as long as it is not drawn. -/
theorem run_not_holds {value : String} (h : s.Sound) (hlacks : ¬ s.nonces.Holds addr value)
    {ops : List (Op × Time)}
    (hdraws : ∀ call ∈ ops, ∀ draw ∈ call.1.nonceDraws, draw.value ≠ value) :
    ¬ (s.run ops).service.nonces.Holds addr value := by
  induction ops generalizing s with
  | nil => exact hlacks
  | cons call ops ih =>
    obtain ⟨hcall, hops⟩ := List.forall_mem_cons.1 hdraws
    have hlacks' := (s.step_turns call.1 call.2).nonces.not_holds h.nonces hcall hlacks
    exact ih (step_sound h call.1 call.2) hlacks' hops

/-! ### Logins that fail -/

/-- A request whose lookup has ended, the password that was found, and the draw that serves it. -/
structure Attempt where
  pending : PendingRequest
  password? : Option String
  draw : Draw

/-- No password was found in time, or the one that was does not verify the request. -/
def Attempt.Fails (x : Attempt) : Prop :=
  ∀ password, x.password? = some password → ∀ k,
    Stun.checkIntegrity x.pending.message (some x.pending.wire)
      ⟨x.pending.username, x.pending.realm, password⟩ ≠ .ok k

/-- The request that an operation judges by its password. -/
def Op.attempt? (s : Service) (now : Time) : Op → Option Attempt
  | process login i bytes addr draw draw' =>
    match (s.receive i bytes addr draw now).answer with
    | .asks p => some ⟨p, (login.find addr p.username).password?, draw'⟩
    | .done _ => none
  | resume p password? draw => some ⟨p, password?, draw⟩
  | _ => none

theorem authenticate_of_fails {x : Attempt} (hp : x.pending.Stopped) (hfails : x.Fails) :
    s.authenticate x.pending x.password? x.draw.nonce now =
      .rejected (s.rotate x.pending.addr x.draw.nonce now).1
        (s.rotate x.pending.addr x.draw.nonce now).2 := by
  unfold authenticate
  cases hpassword : x.password? with
  | none => rfl
  | some password =>
    obtain ⟨hvalid, hinput⟩ := hp.validate password
    dsimp only
    rw [hvalid]
    cases hchecked : Stun.checkIntegrity x.pending.message (some x.pending.wire)
        ⟨x.pending.username, x.pending.realm, password⟩ with
    | ok k => exact absurd hchecked (hfails password hpassword k)
    | error e =>
      rw [hchecked] at hinput
      rcases Stun.checkIntegrity_eq_error hchecked with rfl | rfl | rfl
      · rfl
      · exact absurd rfl hinput
      · rfl

/-- A login that fails is answered with a fresh nonce, which takes the place of any other. -/
theorem resume_of_fails {x : Attempt} (hp : x.pending.Stopped) (hfails : x.Fails) :
    s.resume x.pending x.password? x.draw now =
      { answer := s.reply x.pending.message x.pending.interface
          (.refusal .unauthorized [.realm s.realm, .nonce x.draw.nonce.value])
        service := { s with nonces := (s.nonces.issue x.pending.addr x.draw.nonce now).2 } } := by
  rw [resume, authenticate_of_fails hp hfails]
  rfl

theorem step_of_fails {x : Attempt} (h : op.attempt? s now = some x) (hp : x.pending.Stopped)
    (hfails : x.Fails) :
    (s.step op now).answer = .result (s.reply x.pending.message x.pending.interface
      (.refusal .unauthorized [.realm s.realm, .nonce x.draw.nonce.value])) ∧
    (s.step op now).service =
      { s with nonces := (s.nonces.issue x.pending.addr x.draw.nonce (op.ends s now)).2 } := by
  cases op with
  | resume p password? draw =>
    obtain rfl := Option.some.inj h
    rw [step, resume_of_fails hp hfails]
    exact ⟨rfl, rfl⟩
  | process login i bytes addr draw draw' =>
    rw [Op.attempt?] at h
    rw [step, process, Op.ends]
    cases hanswer : (s.receive i bytes addr draw now).answer with
    | done => simp [hanswer] at h
    | asks p =>
      simp only [hanswer, Option.some.injEq] at h ⊢
      subst h
      obtain ⟨r, hasked⟩ := asked_of_asks hanswer
      have haddr : p.addr = addr := by rw [hasked.pending]
      rw [(receive_asks hanswer).1, resume_of_fails hp hfails, haddr]
      exact ⟨rfl, rfl⟩
  | receive | relayInbound | sweep | removeUser => cases h

/-- A login that fails takes the client's nonce out of force. -/
structure Rotates (s : Service) (op : Op) (now : Time) (x : Attempt) (out : Outcome Reply) :
    Prop where
  answer : out.answer = .result (s.reply x.pending.message x.pending.interface
    (.refusal .unauthorized [.realm s.realm, .nonce x.draw.nonce.value]))
  service : out.service = { s with nonces := out.service.nonces }
  /-- The client is told a nonce that is good for as long as nonces are. -/
  good : ∀ later, later < op.ends s now + s.nonces.ttl →
    out.service.nonces.verify x.pending.addr x.draw.nonce.value later
  /-- Any other is never good again, unless it is drawn once more: no request that bears it comes
  as far as a password. -/
  spoilt : ∀ value, value ≠ x.draw.nonce.value → ∀ rest : List (Op × Time),
    (∀ call ∈ rest, ∀ draw ∈ call.1.nonceDraws, draw.value ≠ value) →
      let s' := (out.service.run rest).service
      ∀ later, ¬ s'.nonces.verify x.pending.addr value later ∧
        ∀ i bytes draw p, (s'.receive i bytes x.pending.addr draw later).answer = .asks p →
          p.message.nonce ≠ some value
  /-- A nonce no longer than one that a client can be told can be told. -/
  sent : ∀ value, (Bytes.ofText x.draw.nonce.value).length ≤ (Bytes.ofText value).length →
    s.CanTell value → ∃ response, out.answer = .result (.ok (some response))

/-- A challenge of either kind takes the same room. -/
theorem exists_reply_challenge {why : Refusal} (hwhy : why = .unauthorized ∨ why = .staleNonce)
    {nonce value : String} (hle : (Bytes.ofText nonce).length ≤ (Bytes.ofText value).length)
    (htold : s.CanTell value) (m : Message) (i : Interface) :
    ∃ response, s.reply m i (.refusal why [.realm s.realm, .nonce nonce]) =
      .ok (some response) := by
  have hroom := canTell_iff.1 htold
  have hfits : 40 + Bytes.paddedLength (Bytes.ofText s.realm).length +
      Bytes.paddedLength (Bytes.ofText nonce).length +
      Bytes.paddedLength (Bytes.ofText s.software).length ≤ 65535 := by
    simp only [Bytes.paddedLength] at hroom ⊢
    omega
  obtain ⟨response, hresponse⟩ : ∃ response, (Verdict.refusal why
      [.realm s.realm, .nonce nonce]).respond m s.software i.listening none = .ok response :=
    (respond_challenge_isOk hwhy).2 hfits
  exact ⟨response, Stun.some_map_eq_ok.2 hresponse⟩

theorem rotates_of_fails {x : Attempt} (hs : s.Sound) (h : op.attempt? s now = some x)
    (hp : x.pending.Stopped) (hfails : x.Fails) : s.Rotates op now x (s.step op now) := by
  obtain ⟨hanswer, hservice⟩ := step_of_fails h hp hfails
  refine ⟨hanswer, by rw [hservice], fun later hlater => ?_, fun value hother rest hdraws => ?_,
    fun value hle htold => ?_⟩
  · rw [hservice]
    exact NonceTable.verify_issue_of_lt hlater
  · intro s' later
    have hlacks : ¬ (s.step op now).service.nonces.Holds x.pending.addr value := by
      rw [hservice]
      exact NonceTable.not_holds_issue hother
    have hverify := NonceTable.not_verify_of_not_holds
      (run_not_holds (step_sound hs op now) hlacks hdraws) later
    refine ⟨hverify, fun i bytes draw p hasks hnonce => ?_⟩
    obtain ⟨-, r, hclaims, hpending⟩ := receive_eq_asks hasks
    obtain ⟨nonce, hbears, hgood⟩ := hclaims.nonce
    rw [hpending] at hnonce
    obtain rfl := Option.some.inj (hbears.symm.trans hnonce)
    exact hverify hgood
  · obtain ⟨response, hreply⟩ := exists_reply_challenge (.inl rfl) hle htold x.pending.message
      x.pending.interface
    exact ⟨response, by rw [hanswer, hreply]⟩

/-! ### Whatever else a client sends -/

theorem remind_of_good {n : IssuedNonce} (h : s.nonces.good? addr now = some n) (why : Refusal)
    (draw : NonceDraw) :
    s.remind addr why draw now = (.refusal why [.realm s.realm, .nonce n.value], s) := by
  rw [remind, NonceTable.getOrIssue_of_good h]
  rfl

/-- Whom nobody knows yet keeps a good nonce. -/
theorem identify_of_good {n : IssuedNonce} (h : s.nonces.good? addr now = some n) {m : Message}
    {draw : NonceDraw} {v : Verdict} {s' : Service}
    (hrejected : s.identify m addr draw now = .rejected v s') : s' = s := by
  simp only [identify, remind_of_good h] at hrejected
  split at hrejected
  · exact (Claimant.rejected.inj hrejected).2.symm
  split at hrejected
  · split at hrejected
    · exact (Claimant.rejected.inj hrejected).2.symm
    split at hrejected
    · exact (Claimant.rejected.inj hrejected).2.symm
    · cases hrejected
  · exact (Claimant.rejected.inj hrejected).2.symm

theorem receive_of_good {n : IssuedNonce} (h : s.nonces.good? addr now = some n) (i : Interface)
    (bytes : Bytes) (draw : Draw) :
    (s.receive i bytes addr draw now).service.nonces = s.nonces := by
  rw [receive]
  dsimp only
  split
  · rfl
  · rw [sendChannelData]
    split <;> rfl
  split
  · rw [receiveRequest]
    split
    · rfl
    split
    · rfl
    · rfl
    · rfl
    split
    · rename_i hrejected
      rw [identify_of_good h hrejected]
      rfl
    · rfl
  · rw [sendIndication]
    split
    · split <;> rfl
    · rfl
  · rfl
  · rfl

/-- A login that does not fail is handed to its handler, which has nothing to do with nonces. -/
theorem resume_of_not_fails {x : Attempt} (hp : x.pending.Stopped) (h : ¬ x.Fails) :
    (s.resume x.pending x.password? x.draw now).service.nonces = s.nonces := by
  simp only [Attempt.Fails, not_forall, not_not] at h
  obtain ⟨password, hpassword, k, hchecked⟩ := h
  rw [hpassword, resume_of_validate ((hp.validate password).1.trans hchecked)]
  rfl

/-- What an operation resumes has stopped for a password before. -/
def Op.IsDue : Op → Prop
  | resume p _ _ => p.Stopped
  | _ => True

theorem Op.IsDue.stopped (h : op.IsDue) {x : Attempt} (hx : op.attempt? s now = some x) :
    x.pending.Stopped := by
  cases op with
  | resume p password? draw =>
    obtain rfl := Option.some.inj hx
    exact h
  | process login i bytes addr draw draw' =>
    rw [attempt?] at hx
    cases hanswer : (s.receive i bytes addr draw now).answer with
    | done => simp [hanswer] at hx
    | asks p =>
      simp only [hanswer, Option.some.injEq] at hx
      subst hx
      exact ⟨s, i, bytes, addr, draw, now, hanswer⟩
  | receive | relayInbound | sweep | removeUser => cases hx

theorem step_of_good {m : Message} {n : IssuedNonce} (hdue : op.IsDue)
    (hrequest : op.request? = some (m, addr, i)) (hgood : s.nonces.good? addr now = some n)
    (hnot : ∀ x, op.attempt? s now = some x → ¬ x.Fails) :
    (s.step op now).service.nonces = s.nonces := by
  cases op with
  | process login i' bytes addr' draw draw' =>
    obtain ⟨_, -, heq⟩ := Option.map_eq_some_iff.1 hrequest
    obtain ⟨-, rfl, rfl⟩ : _ ∧ addr' = addr ∧ i' = i := by simpa using heq
    rw [service_step_process, process]
    cases hanswer : (s.receive i' bytes addr' draw now).answer with
    | done result => exact receive_of_good hgood i' bytes draw
    | asks p =>
      dsimp only
      have hattempt : Op.attempt? s now (.process login i' bytes addr' draw draw') =
          some ⟨p, (login.find addr' p.username).password?, draw'⟩ := by
        simp only [Op.attempt?, hanswer]
      rw [(receive_asks hanswer).1]
      exact resume_of_not_fails (hdue.stopped hattempt) (hnot _ hattempt)
  | receive i' bytes addr' draw =>
    obtain ⟨_, -, heq⟩ := Option.map_eq_some_iff.1 hrequest
    obtain ⟨-, rfl, rfl⟩ : _ ∧ addr' = addr ∧ i' = i := by simpa using heq
    exact receive_of_good hgood i' bytes draw
  | resume p password? draw =>
    exact resume_of_not_fails (x := ⟨p, password?, draw⟩) hdue (hnot _ rfl)
  | relayInbound | sweep | removeUser => cases hrequest

/-- Why a request is challenged that has not come as far as a password. -/
inductive Challenges (s : Service) (m : Message) (addr : Endpoint) (now : Time) : Refusal → Prop
  | unsigned (hunsigned : m.hasIntegrity = false) : Challenges s m addr now .unauthorized
  | foreign {username realm nonce : String} (hsigned : m.hasIntegrity)
    (husername : m.username = some username) (hrealm : m.realm = some realm)
    (hnonce : m.nonce = some nonce) (hforeign : realm ≠ s.realm) :
    Challenges s m addr now .unauthorized
  | stale {username nonce : String} (hsigned : m.hasIntegrity)
    (husername : m.username = some username) (hrealm : m.realm = some s.realm)
    (hnonce : m.nonce = some nonce) (hstale : ¬ s.nonces.verify addr nonce now) :
    Challenges s m addr now .staleNonce

namespace Challenges
variable {m : Message} {why : Refusal}

theorem why_eq (h : s.Challenges m addr now why) : why = .unauthorized ∨ why = .staleNonce := by
  cases h with
  | unsigned | foreign => exact .inl rfl
  | stale => exact .inr rfl

theorem identify (h : s.Challenges m addr now why) (draw : NonceDraw) :
    s.identify m addr draw now =
      .rejected (s.remind addr why draw now).1 (s.remind addr why draw now).2 := by
  cases h with
  | unsigned hunsigned => simp [Service.identify, hunsigned]
  | foreign hsigned husername hrealm hnonce hforeign =>
    simp [Service.identify, hsigned, husername, hrealm, hnonce, hforeign]
  | stale hsigned husername hrealm hnonce hstale =>
    simp [Service.identify, hsigned, husername, hrealm, hnonce, hstale]

end Challenges

/-- A signed request that lacks one of its texts is rejected without a challenge. -/
theorem identify_of_lacking {m : Message} (hsigned : m.hasIntegrity)
    (hlacks : m.username = none ∨ m.realm = none ∨ m.nonce = none) (draw : NonceDraw) :
    s.identify m addr draw now = .rejected (.refuse .badRequest) s := by
  rw [identify]
  rcases hlacks with hlacks | hlacks | hlacks <;> simp [hsigned, hlacks]

/-- A datagram is a request that takes a password, and is understood. -/
structure IsGuarded (bytes : Bytes) (r : Received) : Prop where
  decoded : Datagram.decode bytes = .ok (.message r)
  request : r.message.cls = .request
  method : r.message.method = .allocate ∨ r.message.method = .refresh ∨
    r.message.method = .createPermission ∨ r.message.method = .channelBind
  known : r.message.unknownRequired = []

theorem IsGuarded.process_of_rejected {r : Received} (h : IsGuarded bytes r) {v : Verdict}
    {s' : Service} {draw : Draw}
    (hrejected : s.identify r.message addr draw.nonce now = .rejected v s') (login : Login)
    (i : Interface) (draw' : Draw) :
    s.process login i bytes addr draw draw' now =
      { answer := s'.reply r.message i v, service := s' } := by
  rw [process, receive_of_rejected h.decoded h.request h.known h.method hrejected]
  rfl

/-- Where nonces are good for some time, behind every run, a login that fails costs the client its
nonce, however long the lookup took and whatever happened meanwhile. No other request does: a good
nonce stays, a challenge before the password repeats it, and a request that lacks a text is
rejected without one. -/
theorem run_rotates {o : ServiceOptions} (hpos : 0 < o.nonceTtl) (ops : List (Op × Time)) :
    let s := ((make o).run ops).service
    (∀ op now x, op.IsDue → op.attempt? s now = some x → x.Fails →
      s.Rotates op now x (s.step op now) ∧
      (s.step op now).service.nonces.verify x.pending.addr x.draw.nonce.value (op.ends s now)) ∧
    (∀ op now m addr i n, op.IsDue → op.request? = some (m, addr, i) →
      s.nonces.good? addr now = some n → (∀ x, op.attempt? s now = some x → ¬ x.Fails) →
      (s.step op now).service.nonces = s.nonces) ∧
    ∀ login i bytes addr draw draw' now r n, IsGuarded bytes r →
      s.nonces.good? addr now = some n →
      (∀ why, s.Challenges r.message addr now why →
        s.process login i bytes addr draw draw' now =
          { answer := s.reply r.message i (.refusal why [.realm s.realm, .nonce n.value])
            service := s } ∧
        (s.CanTell n.value → ∃ response,
          (s.process login i bytes addr draw draw' now).answer = .ok (some response))) ∧
      (r.message.hasIntegrity →
        r.message.username = none ∨ r.message.realm = none ∨ r.message.nonce = none →
        s.process login i bytes addr draw draw' now =
          { answer := s.reply r.message i (.refuse .badRequest), service := s }) := by
  intro s
  have hs : s.Sound := run_sound (make_sound o) ops
  have httl : s.nonces.ttl = o.nonceTtl := run_ttl (make o) ops
  refine ⟨fun op now x hdue hx hfails => ?_,
    fun op now m addr i n hdue hrequest hgood hnot => step_of_good hdue hrequest hgood hnot,
    fun login i bytes addr draw draw' now r n hguarded hgood =>
      ⟨fun why hwhy => ?_, fun hsigned hlacks => ?_⟩⟩
  · have hrotates := rotates_of_fails hs hx (hdue.stopped hx) hfails
    exact ⟨hrotates, hrotates.good _ (Nat.lt_add_of_pos_right (httl ▸ hpos))⟩
  · have hprocess := hguarded.process_of_rejected (hwhy.identify draw.nonce) login i draw'
    rw [remind_of_good hgood] at hprocess
    refine ⟨hprocess, fun htold => ?_⟩
    rw [hprocess]
    exact exists_reply_challenge hwhy.why_eq (Nat.le_refl _) htold r.message i
  · exact hguarded.process_of_rejected (identify_of_lacking hsigned hlacks draw.nonce) login i draw'

/-- A Refresh of a user that nobody knows, who has the client's nonce. -/
def sampleIntrusion : Op :=
  .process (.ofUsers [] 5000) sampleInterface [0, 4, 0, 48, 33, 18, 164, 66,
    0, 0, 0, 0, 0, 0, 0, 0, 0, 0, 0, 7, 0, 6, 0, 1, 118, 0, 0, 0, 0, 20, 0, 1, 114, 0, 0, 0,
    0, 21, 0, 1, 110, 0, 0, 0, 0, 8, 0, 20, 1, 2, 3, 4, 5, 6, 7, 8, 9, 10, 11, 12, 13, 14, 15, 16,
    17, 18, 19, 20] sampleClient { nonce := { value := "l" } } { nonce := { value := "k" } }

/-- The nonce of the client is "n" until somebody fails to log in with it, and "k" from then on. -/
theorem run_rotates_intrusion :
    let o := sampleOptions (seconds 600)
    let s := ((make o).run [(sampleInquiry, 0)]).service
    let out := s.step sampleIntrusion 1000
    0 < o.nonceTtl ∧ s.nonces.verify sampleClient "n" 1000 ∧
      ∃ x, sampleIntrusion.IsDue ∧ sampleIntrusion.attempt? s 1000 = some x ∧ x.Fails ∧
        s.Rotates sampleIntrusion 1000 x out ∧
        out.service.nonces.verify sampleClient "k" 1000 ∧
        ∀ later, ¬ out.service.nonces.verify sampleClient "n" later := by
  intro o s out
  obtain ⟨hgood, hattempt, hends⟩ : s.nonces.verify sampleClient "n" 1000 ∧
      (sampleIntrusion.attempt? s 1000).any (fun x => decide (x.password? = none ∧
        x.pending.addr = sampleClient ∧ x.draw.nonce.value = "k")) ∧
      sampleIntrusion.ends s 1000 = 1000 := by
    decide +kernel
  obtain ⟨x, h, hx⟩ := (Option.any_eq_true ..).1 hattempt
  obtain ⟨hunknown, haddr, hvalue⟩ := of_decide_eq_true hx
  have hfails : x.Fails := by
    intro password hpassword
    rw [hunknown] at hpassword
    cases hpassword
  have hpos : 0 < o.nonceTtl := by decide
  obtain ⟨hrotates, hfresh⟩ :=
    (run_rotates hpos [(sampleInquiry, 0)]).1 sampleIntrusion 1000 x trivial h hfails
  have hspoilt := hrotates.spoilt "n" (by simp [hvalue]) [] (List.forall_mem_nil _)
  have hs : ((make o).run [(sampleInquiry, 0)]).service = s := rfl
  rw [hs, hends, haddr, hvalue] at hfresh
  rw [haddr] at hspoilt
  exact ⟨hpos, hgood, x, trivial, h, hfails, hrotates, hfresh, fun later => (hspoilt later).1⟩

end Service
end NatRelay
