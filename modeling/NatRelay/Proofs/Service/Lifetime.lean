import NatRelay.Proofs.Service.Admission
import NatRelay.Proofs.Service.Clock
import NatRelay.Proofs.Service.Destination
import NatRelay.Proofs.Stun.Plain

/-! What a client is told of the time that is left to it. Main statement: `lifetime_told`, that the
answer to an Allocate or a Refresh tells the whole seconds until the end of the allocation in the
table, of which 32 bits are told. All seconds are told unless the default lifetime takes more bits;
`lifetime_told_wrapped` shows what happens then. -/
namespace NatRelay
open Stun (Attribute Datagram Kind Message Received)

/-- Whether a packet tells a client that its request was granted. -/
def Response.isSuccess : Response → Bool
  | reply _ _ data => Stun.peekClass data = some .success
  | toPeer .. | toClient .. => false

/-- A packet tells one lifetime: in its bytes, in front of what protects them, and to whoever reads
them as a message. -/
structure Response.Tells (response : Response) (lifetime : UInt32) : Prop where
  written : ((Stun.plainRecords response.data).filter (·.code = Kind.lifetime.code)).map (·.value) =
    [Bytes.be32 lifetime]
  read : ∀ r, Received.decode response.data = .ok r →
    r.message.getAll Kind.lifetime.code = [.lifetime lifetime]

theorem Response.Tells.unique {response : Response} {n k : UInt32} (hn : response.Tells n)
    (hk : response.Tells k) : n = k := by
  have hvalue := List.singleton_inj.1 (hn.written.symm.trans hk.written)
  rw [← Bytes.word32_be32 n, hvalue, Bytes.word32_be32]

/-- The client and the seconds that a refresh is told of with. -/
def Event.refreshed? : Event → Option (Endpoint × UInt32)
  | allocationRefreshed addr _ lifetime => some (addr, lifetime)
  | _ => none

/-- The message of a datagram. -/
def Stun.Datagram.message? (bytes : Bytes) : Option Message :=
  match Datagram.decode bytes with
  | .ok (.message r) => some r.message
  | _ => none

theorem Stun.Datagram.message?_eq_some {bytes : Bytes} {m : Message}
    (h : message? bytes = some m) : ∃ r, decode bytes = .ok (.message r) ∧ r.message = m := by
  rw [message?] at h
  split at h
  · rename_i r hdecoded
    exact ⟨r, hdecoded, Option.some.inj h⟩
  · cases h

namespace Verdict
variable {v : Verdict} {m : Message} {software : String} {interface : Endpoint}
  {key? : Option Stun.Key} {response : Response}

theorem isSuccess_of_respond (h : v.respond m software interface key? = .ok response) :
    response.isSuccess = !v.isRefusal := by
  obtain ⟨relay?, key?', data, rfl, hdata⟩ := respond_eq_ok h
  rw [Response.isSuccess, Message.peekClass_of_encode hdata]
  cases v <;> rfl

/-- What a success tells of a lifetime stands in its packet. -/
theorem tells_of_respond {attributes : List Attribute} {relay? : Option Endpoint}
    {lifetime : UInt32}
    (hplain : ∀ a ∈ attributes, (Kind.ofCode? a.code).any Kind.isProtection = false)
    (hone : attributes.filter (·.code = Kind.lifetime.code) = [.lifetime lifetime])
    (h : (success attributes relay?).respond m software interface key? = .ok response) :
    response.Tells lifetime := by
  obtain ⟨_, key?', data, rfl, hdata⟩ := respond_eq_ok h
  have hwritten : ((Stun.plainRecords data).filter (·.code = Kind.lifetime.code)).map (·.value) =
      [Bytes.be32 lifetime] := by
    rw [Stun.plainRecords_of_encode ?_ hdata, Stun.filter_layOut]
    · simp only [message, List.filter_append, hone]
      rfl
    · intro a ha
      rcases List.mem_append.1 ha with ha | ha
      · exact hplain a ha
      · obtain rfl := List.mem_singleton.1 ha
        rfl
  refine ⟨hwritten, fun r hr => ?_⟩
  have hread := @Stun.getAll_of_decode data r hr .lifetime rfl
  rw [hwritten, List.mapM_cons, List.mapM_nil, Attribute.ofKind, Stun.readWord_be32] at hread
  exact (Except.ok.inj hread).symm

end Verdict

/-- What was made is there, as every lifetime takes time. -/
theorem Table.Created.find? {t t' : Table} {r : Table.Request} {now : Time} {a : Allocation}
    (h : t.Created r now a t') (hdefault : 0 < t.options.defaultLifetime) :
    t'.find? r.fiveTuple now = some a := by
  have hends : a.expiresAt = now + t.grantedLifetime r.lifetime := by rw [h.built]; rfl
  have hpos := t.grantedLifetime_pos hdefault r.lifetime
  exact find?_eq_some.2 ⟨by rw [h.lookup, if_pos rfl], hends ▸ Nat.lt_add_of_pos_right hpos⟩

/-- A refreshed allocation is there with the lifetime it was refreshed with. -/
theorem Table.find?_renew {t : Table} {ft : FiveTuple} {lifetime : Duration} {now : Time}
    {a : Allocation} (h : t.find? ft now = some a) (hpos : 0 < lifetime) :
    (t.update ft (·.renew lifetime now)).find? ft now = some (a.renew lifetime now) := by
  refine find?_eq_some.2 ⟨?_, Nat.lt_add_of_pos_right hpos⟩
  rw [lookup_update, if_pos rfl, (find?_eq_some.1 h).1, Option.map_some]

namespace Request
variable {r : Request} {t : Table} {offset : Nat} {now : Time} {d : Decision}

/-- A request is decided by lending time: the client has the allocation, and is told what is left
of it. The host is told the same of a refresh. -/
structure Lends (r : Request) (now : Time) (d : Decision) (a : Allocation) : Prop where
  found : d.table.find? r.fiveTuple now = some a
  told : d.verdict = r.granted a now ∨ d.verdict = lifetimeIs (wholeSeconds (a.remaining now))
  heard : r.message.method = .refresh →
    d.events = [.allocationRefreshed r.addr r.username (wholeSeconds (a.remaining now))]

/-- A request for time that is granted is lent time. -/
theorem Effect.lends (h : r.Effect t offset now d) (hdefault : 0 < t.options.defaultLifetime)
    (c : t.Consistent) (htime : r.message.IsForTime t.options)
    (hgranted : d.verdict.isRefusal = false) : ∃ a, r.Lends now d a := by
  cases h with
  | refused => cases hgranted
  | gone hother | released _ _ hother | permitted _ _ _ hother | bound _ _ _ _ hother =>
    exact absurd htime hother
  | @repeated a hfound hmethod =>
    exact ⟨a, hfound, .inl rfl, fun hrefresh => by cases hmethod.symm.trans hrefresh⟩
  | @created _ a _ _ hcreate hmethod =>
    exact ⟨a, (c.created hcreate).find? hdefault, .inl rfl,
      fun hrefresh => by cases hmethod.symm.trans hrefresh⟩
  | @extended _ lifetime _ _ hrefresh _ _ hpos =>
    obtain ⟨a, ha, rfl⟩ := Table.refresh_eq_ok.1 hrefresh
    have hleft : (a.renew lifetime now).remaining now = lifetime := Nat.add_sub_cancel_left ..
    refine ⟨a.renew lifetime now, Table.find?_renew ha hpos, .inr ?_, fun _ => ?_⟩
    · rw [hleft]
    · rw [hleft]

/-- What is left of the allocation is told in the packet. -/
theorem Lends.tells {a : Allocation} (h : r.Lends now d a) {m : Message} {software : String}
    {interface : Endpoint} {key? : Option Stun.Key} {response : Response}
    (hrespond : d.verdict.respond m software interface key? = .ok response) :
    response.Tells (wholeSeconds (a.remaining now)) := by
  rcases h.told with htold | htold
  · rw [htold] at hrespond
    refine Verdict.tells_of_respond ?_ rfl hrespond
    simp only [List.forall_mem_cons]
    exact ⟨rfl, rfl, rfl, List.forall_mem_nil _⟩
  · rw [htold] at hrespond
    refine Verdict.tells_of_respond ?_ rfl hrespond
    simp only [List.forall_mem_cons]
    exact ⟨rfl, List.forall_mem_nil _⟩

end Request

namespace Service
variable {s : Service} {i : Interface} {bytes : Bytes} {addr : Endpoint} {now : Time}
  {response : Response}

/-- The request that an operation has to answer, with who sent it and where to. -/
def Op.request? : Op → Option (Message × Endpoint × Interface)
  | process _ i bytes addr _ _ | receive i bytes addr _ =>
    (Datagram.message? bytes).map fun m => (m, addr, i)
  | resume p _ _ => some (p.message, p.addr, p.interface)
  | _ => none

/-- Whether what an operation sends tells a client that its request was granted. -/
def Reply.isSuccess : Reply → Bool
  | progress (.done (.ok (some response))) => response.isSuccess
  | result (.ok (some response)) => response.isSuccess
  | relayed (some response) => response.isSuccess
  | _ => false

theorem Reply.exists_of_isSuccess {reply : Reply} (h : reply.isSuccess) :
    ∃ response, reply.Sends response ∧ response.isSuccess := by
  rw [isSuccess.eq_def] at h
  split at h
  · exact ⟨_, .progress _, h⟩
  · exact ⟨_, .result _, h⟩
  · exact ⟨_, .relayed _, h⟩
  · cases h

/-- The client of a request has an allocation, and is told of the whole seconds until its end what
32 bits can tell. The host is told the same of a refresh. -/
structure Told {α : Type} (out : Outcome α) (now : Time) (m : Message) (addr : Endpoint)
    (i : Interface) (response : Response) (a : Allocation) (lifetime : UInt32) : Prop where
  found : out.service.table.find? (.udp addr i.listening) now = some a
  wraps : lifetime.toNat = (a.expiresAt - now) / 1000 % UInt32.size
  tells : response.Tells lifetime
  heard : m.method = .refresh → out.events.filterMap Event.refreshed? = [(addr, lifetime)]

/-- Without a password no request for time is granted. -/
theorem receive_not_success {draw : Draw} {r : Received} {options : AllocationOptions}
    (h : (s.receive i bytes addr draw now).answer = .done (.ok (some response)))
    (hdecoded : Datagram.decode bytes = .ok (.message r)) (htime : r.message.IsForTime options) :
    response.isSuccess = false := by
  have hreceipt := s.receive_receipt i bytes addr draw now
  generalize s.receive i bytes addr draw now = o at h hreceipt
  cases hreceipt with
  | malformed | unanswered | asks => cases h
  | sent | sentOnChannel =>
    obtain rfl := Option.some.inj (Except.ok.inj (Progress.done.inj h))
    rfl
  | misunderstood | refused =>
    exact Verdict.isSuccess_of_respond (Stun.some_map_eq_ok.1 (Progress.done.inj h))
  | observed hdecoded' _ hmethod =>
    obtain rfl := Datagram.message_unique hdecoded hdecoded'
    rcases htime with htime | ⟨htime, -⟩ <;> rw [hmethod] at htime <;> cases htime

theorem resume_told {p : PendingRequest} {password? : Option String} {draw : Draw}
    (hdefault : 0 < s.table.options.defaultLifetime) (c : s.table.Consistent)
    (h : (s.resume p password? draw now).answer = .ok (some response))
    (hsuccess : response.isSuccess) (htime : p.message.IsForTime s.table.options) :
    ∃ a lifetime, Told (s.resume p password? draw now) now p.message p.addr p.interface response a
      lifetime := by
  have hsettled := s.resume_settlement p password? draw now
  generalize s.resume p password? draw now = out at h hsettled ⊢
  cases hsettled with
  | refused =>
    rw [Verdict.isSuccess_of_respond (Stun.some_map_eq_ok.1 h)] at hsuccess
    cases hsuccess
  | @accepted _ _ d _ _ heffect =>
    have hrespond := Stun.some_map_eq_ok.1 h
    rw [Verdict.isSuccess_of_respond hrespond] at hsuccess
    have hgranted : d.verdict.isRefusal = false := by simpa using hsuccess
    obtain ⟨a, hlends⟩ := heffect.lends hdefault c htime hgranted
    refine ⟨a, _, hlends.found, ?_, hlends.tells hrespond, fun hmethod => ?_⟩
    · rw [Request.wholeSeconds, UInt32.toNat_ofNat']
      rfl
    · rw [hlends.heard hmethod]
      rfl

theorem process_told {login : Login} {draw draw' : Draw} {r : Received}
    (hdefault : 0 < s.table.options.defaultLifetime) (c : s.table.Consistent)
    (hdecoded : Datagram.decode bytes = .ok (.message r))
    (h : (s.process login i bytes addr draw draw' now).answer = .ok (some response))
    (hsuccess : response.isSuccess) (htime : r.message.IsForTime s.table.options) :
    ∃ a lifetime, Told (s.process login i bytes addr draw draw' now)
      ((Op.process login i bytes addr draw draw').ends s now) r.message addr i response a
      lifetime := by
  rw [process] at h ⊢
  rw [Op.ends]
  cases hanswer : (s.receive i bytes addr draw now).answer with
  | done result =>
    rw [hanswer] at h
    obtain rfl : result = .ok (some response) := h
    rw [receive_not_success hanswer hdecoded htime] at hsuccess
    cases hsuccess
  | asks p =>
    simp only [hanswer] at h ⊢
    obtain ⟨hservice, hevents⟩ := receive_asks hanswer
    obtain ⟨_, hasked⟩ := asked_of_asks hanswer
    obtain rfl := Datagram.message_unique hdecoded hasked.decoded
    have hmessage : p.message = r.message := by rw [hasked.pending]
    have haddr : p.addr = addr := by rw [hasked.pending]
    have hinterface : p.interface = i := by rw [hasked.pending]
    rw [hservice] at h ⊢
    obtain ⟨a, lifetime, htold⟩ := resume_told hdefault c h hsuccess (hmessage ▸ htime)
    rw [hmessage, haddr, hinterface] at htold
    refine ⟨a, lifetime, htold.found, htold.wraps, htold.tells, fun hmethod => ?_⟩
    rw [hevents]
    exact htold.heard hmethod

/-- However a request for time comes to be granted, its sender is told of the time. -/
theorem step_told {op : Op} {m : Message} (hdefault : 0 < s.table.options.defaultLifetime)
    (c : s.table.Consistent) (hrequest : op.request? = some (m, addr, i))
    (hsends : (s.step op now).answer.Sends response) (hsuccess : response.isSuccess)
    (htime : m.IsForTime s.table.options) :
    ∃ a lifetime, Told (s.step op now) (op.ends s now) m addr i response a lifetime := by
  cases op with
  | process login i' bytes addr' draw draw' =>
    obtain ⟨_, hmessage, heq⟩ := Option.map_eq_some_iff.1 hrequest
    obtain ⟨rfl, rfl, rfl⟩ : _ = m ∧ _ = addr ∧ _ = i := by simpa using heq
    obtain ⟨r, hdecoded, rfl⟩ := Datagram.message?_eq_some hmessage
    obtain ⟨a, lifetime, htold⟩ :=
      process_told hdefault c hdecoded (Reply.sends_result.1 hsends) hsuccess htime
    exact ⟨a, lifetime, htold.found, htold.wraps, htold.tells, htold.heard⟩
  | receive i' bytes addr' draw =>
    obtain ⟨_, hmessage, heq⟩ := Option.map_eq_some_iff.1 hrequest
    obtain ⟨rfl, rfl, rfl⟩ : _ = m ∧ _ = addr ∧ _ = i := by simpa using heq
    obtain ⟨r, hdecoded, rfl⟩ := Datagram.message?_eq_some hmessage
    rw [receive_not_success (Reply.sends_progress.1 hsends) hdecoded htime] at hsuccess
    cases hsuccess
  | resume p password? draw =>
    obtain ⟨rfl, rfl, rfl⟩ : p.message = m ∧ p.addr = addr ∧ p.interface = i := by
      simpa [Op.request?] using hrequest
    obtain ⟨a, lifetime, htold⟩ :=
      resume_told hdefault c (Reply.sends_result.1 hsends) hsuccess htime
    exact ⟨a, lifetime, htold.found, htold.wraps, htold.tells, htold.heard⟩
  | relayInbound | sweep | removeUser => cases hrequest

/-! ### A client that is granted time -/

/-- A relay that grants every request the same lifetime. -/
def sampleOptions (lifetime : Duration) : ServiceOptions :=
  { realm := "r", software := "s", relayAddresses := [.v4 0x0A000001]
    firstPort := 50000, lastPort := 50000
    allocation := { defaultLifetime := lifetime, maxLifetime := lifetime } }

def refreshMac : Bytes :=
  [162, 55, 205, 85, 76, 99, 139, 140, 160, 168, 164, 6, 152, 190, 48, 202, 85, 234, 123, 242]

/-- A Refresh for twenty minutes. -/
def sampleRefresh : Op :=
  sampleDatagram (sampleBytes 4 3 [0, 13, 0, 4, 0, 0, 4, 176] refreshMac)

/-- Behind the first two datagrams of the client nothing but the table has changed since the client
was told the nonce. -/
theorem run_allocate {o : ServiceOptions} :
    let s := ((make o).run [(sampleInquiry, 0)]).service
    s.realm = "r" ∧ s.nonces.verify sampleClient "n" 0 →
      ((make o).run [(sampleInquiry, 0), (sampleAllocate, 0)]).service =
        { s with table := ((sampleRequest (allocateMessage 2 firstMac)).decide s.table 0 0).table } :=
  fun hready => congrArg Outcome.service (conveys_allocate.step hready).2

theorem conveys_refresh :
    Conveys sampleRefresh (sampleMessage .refresh 3 [.lifetime 1200] refreshMac) :=
  ⟨_, 52, rfl, by decide +kernel, rfl, rfl, .inr (.inl rfl), rfl, rfl, rfl, rfl, by decide +kernel⟩

/-! ### What is told -/

/-- Behind every run whose clock never goes back, what a client is told that is granted time are the
seconds that are left to its allocation, to 32 bits. These are all seconds if the default lifetime
takes no more bits, whatever the maximum. -/
theorem lifetime_told {o : ServiceOptions} {ops : List (Op × Time)} {time : Time}
    (hdefault : 0 < o.allocation.defaultLifetime) (htimely : (make o).Timely 0 ops time) :
    let s := ((make o).run ops).service
    ∀ op m addr i, op.request? = some (m, addr, i) → m.IsForTime o.allocation →
      (s.step op time).answer.isSuccess →
      ∃ response a lifetime, (s.step op time).answer.Sends response ∧
        Told (s.step op time) (op.ends s time) m addr i response a lifetime ∧
        (o.allocation.defaultLifetime < seconds UInt32.size →
          lifetime.toNat = (a.expiresAt - op.ends s time) / 1000) := by
  intro s op m addr i hrequest htime hgranted
  have hs : s.Ahead o.allocation time := run_endsWithin htimely
  rw [← hs.options] at hdefault htime
  obtain ⟨response, hsends, hsuccess⟩ := Reply.exists_of_isSuccess hgranted
  obtain ⟨a, lifetime, htold⟩ := step_told hdefault hs.consistent hrequest hsends hsuccess htime
  refine ⟨response, a, lifetime, hsends, htold, fun hbits => ?_⟩
  have hnext := hs.step op
  have hleft : a.expiresAt - op.ends s time ≤ o.allocation.longest :=
    hnext.options ▸ hnext.endsWithin.remaining_le htold.found
  have hlongest : o.allocation.longest < seconds UInt32.size :=
    Nat.max_lt.2 ⟨by decide, hbits⟩
  rw [htold.wraps]
  exact Nat.mod_eq_of_lt (Nat.div_lt_of_lt_mul (Nat.mul_comm .. ▸ Nat.lt_of_le_of_lt hleft hlongest))

/-- An Allocate is granted the default of ten minutes, and that is what the client is told. -/
theorem lifetime_told_allocate :
    let o := sampleOptions (seconds 600)
    let s := ((make o).run [(sampleInquiry, 0)]).service
    let out := s.step sampleAllocate 1000
    0 < o.allocation.defaultLifetime ∧ o.allocation.defaultLifetime < seconds UInt32.size ∧
      (make o).Timely 0 [(sampleInquiry, 0)] 1000 ∧ sampleAllocate.ends s 1000 = 1000 ∧
      out.answer.isSuccess ∧
      ∃ m response a lifetime, sampleAllocate.request? = some (m, sampleClient, sampleInterface) ∧
        m.IsForTime o.allocation ∧ out.answer.Sends response ∧
        Told out 1000 m sampleClient sampleInterface response a lifetime ∧
        lifetime.toNat = (a.expiresAt - 1000) / 1000 := by
  intro o s out
  have hdefault : 0 < o.allocation.defaultLifetime := by decide
  have hbits : o.allocation.defaultLifetime < seconds UInt32.size := by decide
  have hasks : (sampleAllocate.request?.any fun request =>
      request.1.IsForTime o.allocation ∧ request.2 = (sampleClient, sampleInterface)) = true := by
    decide +kernel
  obtain ⟨htimely, hready⟩ : (make o).Timely 0 [(sampleInquiry, 0)] 1000 ∧
      s.realm = "r" ∧ s.nonces.verify sampleClient "n" 1000 := by
    decide +kernel
  obtain ⟨hends, hout⟩ : _ ∧ out = _ := conveys_allocate.step hready
  have hgranted : out.answer.isSuccess := by
    rw [hout]
    decide +kernel
  obtain ⟨⟨m, _⟩, hrequest, hasks⟩ := (Option.any_eq_true ..).1 hasks
  obtain ⟨htime, rfl⟩ := of_decide_eq_true hasks
  obtain ⟨response, a, lifetime, hsends, htold, hexact⟩ :=
    lifetime_told hdefault htimely sampleAllocate m _ _ hrequest htime hgranted
  rw [hends] at htold hexact
  exact ⟨hdefault, hbits, htimely, hends, hgranted, m, response, a, lifetime, hrequest, htime,
    hsends, htold, hexact hbits⟩

/-- Where the default is 2 to the 32 seconds, a Refresh is granted as many, and the client and the
host are told of none, as if the allocation had been deleted. -/
theorem lifetime_told_wrapped :
    let o := sampleOptions (seconds UInt32.size)
    let s := ((make o).run [(sampleInquiry, 0), (sampleAllocate, 0)]).service
    let out := s.step sampleRefresh 1000
    0 < o.allocation.defaultLifetime ∧
      o.allocation.defaultLifetime ≤ o.allocation.maxLifetime ∧
      (make o).Timely 0 [(sampleInquiry, 0), (sampleAllocate, 0)] 1000 ∧
      sampleRefresh.ends s 1000 = 1000 ∧
      out.answer.isSuccess ∧
      ∃ m response a, sampleRefresh.request? = some (m, sampleClient, sampleInterface) ∧
        m.IsForTime o.allocation ∧ out.answer.Sends response ∧
        out.service.table.find? (.udp sampleClient sampleInterface.listening) 1000 = some a ∧
        response.Tells 0 ∧ out.events.filterMap Event.refreshed? = [(sampleClient, 0)] ∧
        (a.expiresAt - 1000) / 1000 = 4294967296 ∧
        ¬ ∃ lifetime, response.Tells lifetime ∧ lifetime.toNat = (a.expiresAt - 1000) / 1000 := by
  intro o s out
  have hdefault : 0 < o.allocation.defaultLifetime := by decide
  have hasks : (sampleRefresh.request?.any fun request =>
      request.1.method = .refresh ∧ request.1.IsForTime o.allocation ∧
        request.2 = (sampleClient, sampleInterface)) = true := by
    decide +kernel
  have htimely : (make o).Timely 0 [(sampleInquiry, 0), (sampleAllocate, 0)] 1000 := by
    decide +kernel
  have hrun : s = _ := run_allocate (by decide +kernel)
  have hready : s.realm = "r" ∧ s.nonces.verify sampleClient "n" 1000 := by
    rw [hrun]
    decide +kernel
  obtain ⟨hends, hout⟩ : _ ∧ out = _ := conveys_refresh.step hready
  obtain ⟨hgranted, hexpires⟩ : out.answer.isSuccess ∧
      (out.service.table.find? (.udp sampleClient sampleInterface.listening) 1000).map
        (·.expiresAt) = some 4294967297000 := by
    rw [hout, hrun]
    decide +kernel
  obtain ⟨⟨m, _⟩, hrequest, hasks⟩ := (Option.any_eq_true ..).1 hasks
  obtain ⟨hmethod, htime, rfl⟩ := of_decide_eq_true hasks
  obtain ⟨response, hsends, hsuccess⟩ := Reply.exists_of_isSuccess hgranted
  have hs : s.Ahead o.allocation 1000 := run_endsWithin htimely
  obtain ⟨a, lifetime, htold⟩ := step_told (hs.options ▸ hdefault) hs.consistent hrequest hsends
    hsuccess (hs.options ▸ htime)
  rw [hends] at htold
  rw [htold.found] at hexpires
  have hexpires : a.expiresAt = 4294967297000 := Option.some.inj hexpires
  obtain rfl : lifetime = 0 := by
    apply UInt32.toNat_inj.1
    rw [htold.wraps, hexpires]
    rfl
  refine ⟨hdefault, Nat.le_refl _, htimely, hends, hgranted, m, response, a, hrequest, htime, hsends,
    htold.found, htold.tells, htold.heard hmethod, by rw [hexpires], ?_⟩
  rintro ⟨lifetime, htells, hlifetime⟩
  rw [htells.unique htold.tells, hexpires] at hlifetime
  exact absurd hlifetime (by decide)

end Service
end NatRelay
