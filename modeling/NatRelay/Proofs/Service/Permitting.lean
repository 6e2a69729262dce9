import NatRelay.Proofs.Allocation.Lease
import NatRelay.Proofs.Service.Handling

/-! A CreatePermission permits all of its peers or none. Main statement: `step_permits`, that the
first peer to object to decides the refusal, and that where there is none every listed IP is
permitted and the host hears of each that was not, by the address that came first. -/
namespace NatRelay

/-- What is left of a list whose members are told apart by `f`. -/
theorem map_eraseDupsBy {α β : Type} [DecidableEq β] (f : α → β) (l : List α) :
    (l.eraseDupsBy fun a b => f a = f b).map f = (l.map f).eraseDups := by
  match l with
  | [] => rfl
  | a :: l =>
    have hother (b : α) : decide (decide (f b = f a) = false) = (!f b == f a) := by
      by_cases h : f b = f a <;> simp [h]
    rw [List.eraseDupsBy_cons, List.map_cons, List.map_cons, List.eraseDups_cons, List.filter_map]
    simp only [Function.comp_def, ← hother]
    exact congrArg (f a :: ·) (map_eraseDupsBy f _)
termination_by l.length
decreasing_by exact Nat.lt_succ_of_le (List.length_filter_le _ _)

namespace Allocation
variable {a : Allocation} {ip : Ip} {until_ : Time}

/-- When a permission ends that is granted until some time: one that ends later stays. -/
def lasting (old : Option Time) (until_ : Time) : Time := old.elim until_ (max · until_)

theorem lasting_lasting (old : Option Time) (until_ : Time) :
    lasting (some (lasting old until_)) until_ = lasting old until_ := by
  cases old with
  | none => exact Nat.max_self until_
  | some ends => exact Nat.max_eq_left (Nat.le_max_right ends until_)

theorem lookup_permit (a : Allocation) (ip ip' : Ip) (until_ : Time) :
    (a.permit ip until_).permissions.lookup ip' =
      if ip' = ip then some (lasting (a.permissions.lookup ip') until_)
      else a.permissions.lookup ip' := by
  by_cases h : ip' = ip
  · subst h
    rw [if_pos rfl, permit]
    dsimp only
    rw [Assoc.lookup_put_self]
    cases a.permissions.lookup ip' <;> rfl
  · rw [if_neg h]
    exact Assoc.lookup_put_ne _ _ h

/-- Several permissions, one after the other. -/
def permitEach (a : Allocation) (ips : List Ip) (until_ : Time) : Allocation :=
  ips.foldl (·.permit · until_) a

/-- Nothing changes but the permissions. -/
theorem permitEach_eq (a : Allocation) (ips : List Ip) (until_ : Time) :
    a.permitEach ips until_ = { a with permissions := (a.permitEach ips until_).permissions } := by
  induction ips generalizing a with
  | nil => rfl
  | cons ip ips ih => exact ih (a.permit ip until_)

theorem lookup_permitEach (a : Allocation) (ips : List Ip) (ip : Ip) (until_ : Time) :
    (a.permitEach ips until_).permissions.lookup ip =
      if ip ∈ ips then some (lasting (a.permissions.lookup ip) until_)
      else a.permissions.lookup ip := by
  induction ips generalizing a with
  | nil => rfl
  | cons ip' ips ih =>
    change ((a.permit ip' until_).permitEach ips until_).permissions.lookup ip = _
    rw [ih, lookup_permit]
    by_cases h : ip = ip'
    · simp [h, lasting_lasting]
    · simp [h]

/-- A permission says nothing of another peer. -/
theorem isPermitted_permit_ne (a : Allocation) {ip ip' : Ip} (h : ip' ≠ ip) (until_ now : Time) :
    (a.permit ip until_).isPermitted ip' now = a.isPermitted ip' now := by
  rw [isPermitted, isPermitted, lookup_permit, if_neg h]

end Allocation

theorem Table.update_update (t : Table) (ft : FiveTuple) (f g : Allocation → Allocation) :
    (t.update ft f).update ft g = t.update ft (g ∘ f) := by
  simp only [update, Assoc.mapAt, List.map_map]
  congr 1
  apply List.map_congr_left
  intro e _
  by_cases h : e.1 = ft <;> simp [h]

theorem Table.update_id (t : Table) (ft : FiveTuple) : t.update ft id = t := by
  simp [update, Assoc.mapAt]

namespace Request
variable {t : Table} {now : Time} {a : Allocation}

/-- Peers with different IPs are permitted in one go, none of them in another's way. -/
theorem permitAll_eq {ft : FiveTuple} {peers : List Endpoint} (ha : t.find? ft now = some a)
    (hfamily : ∀ peer ∈ peers, peer.family = a.family) (hnodup : (peers.map (·.ip)).Nodup) :
    permitAll t ft now peers =
      (.ok (peers.filter fun peer => !a.isPermitted peer.ip now),
        t.update ft (·.permitEach (peers.map (·.ip)) (now + t.options.permissionLifetime))) := by
  induction peers generalizing t a with
  | nil => rw [permitAll]; exact congrArg (Prod.mk _) (t.update_id ft).symm
  | cons peer peers ih =>
    obtain ⟨hpeer, hpeers⟩ := List.forall_mem_cons.1 hfamily
    obtain ⟨hfirst, hnodup⟩ := List.nodup_cons.1 hnodup
    have hpermit := Table.createPermission_eq_ok.2 ⟨a, ha, hpeer, rfl, rfl⟩
    have hkept := Table.find?_update ha (f := (·.permit peer.ip
      (now + t.options.permissionLifetime))) rfl
    have hothers : ∀ other ∈ peers, (a.permit peer.ip
        (now + t.options.permissionLifetime)).isPermitted other.ip now =
          a.isPermitted other.ip now := by
      intro other hother
      refine a.isPermitted_permit_ne ?_ _ _
      rintro heq
      exact hfirst (List.mem_map.2 ⟨other, hother, heq⟩)
    rw [permitAll, hpermit]
    dsimp only
    rw [ih hkept hpeers hnodup, Table.update_update]
    refine Prod.ext ?_ rfl
    rw [List.filter_congr fun other hother => congrArg (!·) (hothers other hother),
      List.filter_cons]
    rfl

/-! ### Who comes first -/

/-- The peers whose IP is none of those that came before, among them those in front of the list. -/
def firstsBehind (front peers : List Endpoint) : List Endpoint :=
  (peers.zipIdx.filter fun e => (front ++ peers.take e.2).all (·.ip ≠ e.1.ip)).map (·.1)

/-- The peers of a list that come before every other one of their IP. -/
def firsts (peers : List Endpoint) : List Endpoint := firstsBehind [] peers

theorem firstsBehind_cons (front : List Endpoint) (peer : Endpoint) (peers : List Endpoint) :
    firstsBehind front (peer :: peers) =
      if front.all (·.ip ≠ peer.ip) then peer :: firstsBehind (front ++ [peer]) peers
      else firstsBehind (front ++ [peer]) peers := by
  have htail : (peers.zipIdx 1).filter
      (fun e => (front ++ (peer :: peers).take e.2).all (·.ip ≠ e.1.ip)) =
        (peers.zipIdx.filter fun e => (front ++ [peer] ++ peers.take e.2).all (·.ip ≠ e.1.ip)).map
          fun e => (e.1, e.2 + 1) := by
    rw [List.zipIdx_succ, List.filter_map]
    simp [Function.comp_def]
  rw [firstsBehind, List.zipIdx_cons, List.filter_cons, htail]
  simp only [List.take_zero, List.append_nil]
  split
  · rw [List.map_cons, List.map_map]
    rfl
  · rw [List.map_map]
    rfl

theorem distinctPeers_filter (front peers : List Endpoint) :
    distinctPeers (peers.filter fun peer => front.all (·.ip ≠ peer.ip)) =
      firstsBehind front peers := by
  induction peers generalizing front with
  | nil => rfl
  | cons peer peers ih =>
    rw [firstsBehind_cons, ← ih, List.filter_cons]
    by_cases hnew : front.all (·.ip ≠ peer.ip) = true
    · rw [if_pos hnew, if_pos hnew, distinctPeers, List.eraseDupsBy_cons, List.filter_filter]
      refine congrArg (peer :: distinctPeers ·) (List.filter_congr fun other _ => ?_)
      simp [Bool.and_comm, eq_comm]
    -- Whom the front keeps out it keeps out without this peer.
    · rw [if_neg hnew, if_neg hnew]
      refine congrArg distinctPeers (List.filter_congr fun other _ => ?_)
      rw [List.all_append, Bool.eq_iff_iff, Bool.and_eq_true, iff_self_and]
      intro hothers
      simp only [List.all_cons, List.all_nil, Bool.and_true, decide_eq_true_eq]
      rintro heq
      rw [← heq] at hothers
      exact hnew hothers

theorem distinctPeers_eq (peers : List Endpoint) : distinctPeers peers = firsts peers := by
  rw [firsts, ← distinctPeers_filter]
  simp

theorem map_ip_firsts (peers : List Endpoint) :
    (firsts peers).map (·.ip) = (peers.map (·.ip)).eraseDups := by
  rw [← distinctPeers_eq]
  exact map_eraseDupsBy Endpoint.ip peers

theorem nodup_firsts (peers : List Endpoint) : ((firsts peers).map (·.ip)).Nodup := by
  rw [map_ip_firsts]
  exact nodup_eraseDups _

theorem mem_firsts {peers : List Endpoint} {ip : Ip} :
    ip ∈ (firsts peers).map (·.ip) ↔ ip ∈ peers.map (·.ip) := by
  rw [map_ip_firsts, List.mem_eraseDups]

/-! ### Who may be permitted -/

/-- A peer that may have a permission under an allocation of the family. -/
def Eligible (family : Family) (peer : Endpoint) : Prop :=
  isForbidden peer.ip = false ∧ peer.family = family

theorem objection?_eq_none {family : Family} {peer : Endpoint} :
    objection? family peer = none ↔ Eligible family peer := by
  rw [objection?, Eligible]
  cases isForbidden peer.ip <;> simp

/-- A peer is judged by its IP before its family. -/
theorem objection?_of_not_eligible {family : Family} {peer : Endpoint}
    (h : ¬ Eligible family peer) : objection? family peer =
      some (if isForbidden peer.ip then .forbidden else .peerAddressFamilyMismatch) := by
  rw [Eligible] at h
  rw [objection?]
  cases hforbidden : isForbidden peer.ip with
  | true => rfl
  | false =>
    rw [hforbidden] at h
    simpa using h

variable {r : Request}

theorem createPermission_of_bad (howned : r.owned t now = .ok a) {before after : List Endpoint}
    {peer : Endpoint} (hpeers : r.message.peerAddresses = before ++ peer :: after)
    (hbefore : ∀ other ∈ before, Eligible a.family other) (hpeer : ¬ Eligible a.family peer) :
    r.createPermission t now =
      refused t (if isForbidden peer.ip then .forbidden else .peerAddressFamilyMismatch) := by
  have hnone : before.findSome? (objection? a.family) = none :=
    List.findSome?_eq_none_iff.2 fun other hother => objection?_eq_none.2 (hbefore other hother)
  have hfirst := objection?_of_not_eligible hpeer
  rw [createPermission, hpeers, if_neg (by simp), howned]
  dsimp only
  rw [List.findSome?_append, hnone, List.findSome?_cons, hfirst]
  rfl

/-- Eligible peers are permitted, and those are told of that had no permission. -/
theorem permitAll_of_eligible {ft : FiveTuple} {peers : List Endpoint}
    (ha : t.find? ft now = some a) (heligible : ∀ peer ∈ peers, Eligible a.family peer) :
    permitAll t ft now (distinctPeers peers) =
      (.ok ((firsts peers).filter fun peer => !a.isPermitted peer.ip now),
        t.update ft (·.permitEach ((firsts peers).map (·.ip))
          (now + t.options.permissionLifetime))) := by
  have hfamily : ∀ peer ∈ firsts peers, peer.family = a.family := by
    intro peer hpeer
    rw [← distinctPeers_eq] at hpeer
    exact (heligible peer (distinctPeers_subset _ hpeer)).2
  rw [distinctPeers_eq]
  exact permitAll_eq ha hfamily (nodup_firsts peers)

theorem createPermission_of_eligible (howned : r.owned t now = .ok a)
    (hnonempty : r.message.peerAddresses ≠ [])
    (heligible : ∀ peer ∈ r.message.peerAddresses, Eligible a.family peer) :
    r.createPermission t now =
      { verdict := .success [] none
        events := ((firsts r.message.peerAddresses).filter fun peer =>
          !a.isPermitted peer.ip now).map (.permissionCreated r.addr r.username ·)
        table := t.update r.fiveTuple (·.permitEach ((firsts r.message.peerAddresses).map (·.ip))
          (now + t.options.permissionLifetime)) } := by
  have hnone : r.message.peerAddresses.findSome? (objection? a.family) = none :=
    List.findSome?_eq_none_iff.2 fun peer hpeer => objection?_eq_none.2 (heligible peer hpeer)
  rw [createPermission, if_neg hnonempty, howned]
  dsimp only
  rw [hnone]
  dsimp only
  rw [permitAll_of_eligible (owned_eq_ok.1 howned).1 heligible]

end Request

namespace Service
variable {s : Service} {op : Op} {now : Time} {x : Handed} {a : Allocation}
open Request (Eligible firsts)

/-- A step refuses a request, and that is all it does. -/
structure Refuses (s : Service) (op : Op) (x : Handed) (why : Refusal) (out : Outcome Reply) :
    Prop where
  answer : out.answer = x.answer s (.refuse why)
  events : out.events = op.announces x
  service : out.service = s

/-- A step permits all peers of a request under the allocation `a`. -/
structure Permits (s : Service) (op : Op) (now : Time) (x : Handed) (a : Allocation)
    (out : Outcome Reply) : Prop where
  answer : out.answer = x.answer s (.success [] none)
  /-- The host hears of the IPs that were not permitted, of each by the address that came first. -/
  events : out.events = op.announces x ++
    ((firsts x.message.peerAddresses).filter fun peer => !a.isPermitted peer.ip now).map
      (.permissionCreated x.request.addr x.request.username ·)
  once : ((firsts x.message.peerAddresses).map (·.ip)).Nodup ∧
    ∀ ip, ip ∈ (firsts x.message.peerAddresses).map (·.ip) ↔
      ip ∈ x.message.peerAddresses.map (·.ip)
  /-- Only the permissions of the listed IPs are others. -/
  entry : ∃ b, out.service.table.entries.lookup x.request.fiveTuple = some b ∧
    b = { a with permissions := b.permissions } ∧
    ∀ ip, b.permissions.lookup ip =
      if ip ∈ x.message.peerAddresses.map (·.ip) then
        some (Allocation.lasting (a.permissions.lookup ip)
          (now + s.table.options.permissionLifetime))
      else a.permissions.lookup ip
  others : ∀ ft, ft ≠ x.request.fiveTuple →
    out.service.table.entries.lookup ft = s.table.entries.lookup ft
  service : out.service = { s with table := { s.table with
    entries := out.service.table.entries } }
  /-- The table objects to none of the peers. -/
  unfailing : ∃ fresh, (Request.permitAll s.table x.request.fiveTuple now
    (Request.distinctPeers x.message.peerAddresses)).1 = .ok fresh

theorem step_permits (s : Service) (h : op.handed? s now = some x)
    (hmethod : x.message.method = .createPermission)
    (hnonempty : x.message.peerAddresses ≠ [])
    (hfound : s.table.find? x.request.fiveTuple (op.ends s now) = some a)
    (howner : a.username = x.request.username) :
    (∀ before peer after, x.message.peerAddresses = before ++ peer :: after →
      (∀ other ∈ before, Eligible a.family other) → ¬ Eligible a.family peer →
      s.Refuses op x
        (if Request.isForbidden peer.ip then .forbidden else .peerAddressFamilyMismatch)
        (s.step op now)) ∧
    ((∀ peer ∈ x.message.peerAddresses, Eligible a.family peer) →
      s.Permits op (op.ends s now) x a (s.step op now)) ∧
    (s.HasRoom → ∃ response, (s.step op now).answer = .result (.ok (some response))) := by
  have howned : x.request.owned s.table (op.ends s now) = .ok a :=
    Request.owned_eq_ok.2 ⟨hfound, howner⟩
  have hdecide : x.decide s.table (op.ends s now) =
      x.request.createPermission s.table (op.ends s now) := by
    rw [Handed.decide, Request.decide]
    change x.request.message.method = .createPermission at hmethod
    rw [hmethod]
  rw [step_of_handed h]
  dsimp only
  refine ⟨fun before peer after hpeers hbefore hpeer => ?_, fun heligible => ?_, fun hroom => ?_⟩
  · rw [hdecide, Request.createPermission_of_bad howned hpeers hbefore hpeer]
    exact ⟨rfl, List.append_nil _, rfl⟩
  · have hunfailing := Request.permitAll_of_eligible hfound heligible
    have hentry := s.table.lookup_update x.request.fiveTuple x.request.fiveTuple
      (·.permitEach ((firsts x.message.peerAddresses).map (·.ip))
        (op.ends s now + s.table.options.permissionLifetime))
    rw [if_pos rfl, (Table.find?_eq_some.1 hfound).1, Option.map_some] at hentry
    rw [hdecide, Request.createPermission_of_eligible howned hnonempty heligible]
    refine ⟨rfl, rfl, ⟨Request.nodup_firsts _, fun ip => Request.mem_firsts⟩,
      ⟨_, hentry, a.permitEach_eq _ _, fun ip => ?_⟩, fun ft hft => Table.lookup_update_ne _ _ hft,
      rfl, _, congrArg Prod.fst hunfailing⟩
    rw [Allocation.lookup_permitEach]
    exact if_congr Request.mem_firsts rfl rfl
  · exact hroom.answer x s.table _

def permissionMac : Bytes :=
  [243, 68, 147, 60, 97, 6, 87, 170, 26, 14, 205, 211, 29, 196, 246, 82, 31, 212, 228, 97]

/-- A CreatePermission for two ports of one peer and for another peer. -/
def samplePermission : Op :=
  sampleDatagram (sampleBytes 8 5
    [0, 18, 0, 8, 0, 1, 50, 154, 225, 18, 166, 69, 0, 18, 0, 8, 0, 1, 50, 155, 225, 18, 166, 69,
      0, 18, 0, 8, 0, 1, 50, 154, 225, 18, 166, 74] permissionMac)

/-- What `samplePermission` holds. -/
def permissionMessage : Stun.Message := sampleMessage .createPermission 5
  [.xorPeerAddress (.v4 0xC0000207 5000), .xorPeerAddress (.v4 0xC0000207 5001),
    .xorPeerAddress (.v4 0xC0000208 5000)] permissionMac

theorem conveys_permission : Conveys samplePermission permissionMessage :=
  ⟨_, 80, rfl, by decide +kernel, rfl, rfl, .inr (.inr (.inl rfl)), rfl, rfl, rfl, rfl,
    by decide +kernel⟩

/-- A service that gave the client its nonce and an allocation. -/
def sampleService : Service :=
  let s := ((make (sampleOptions (seconds 600))).run [(sampleInquiry, 0)]).service
  let ft : FiveTuple := .udp sampleClient sampleInterface.listening
  { s with table := (s.table.step (.create ⟨ft, "u", 2, .v4, none⟩ 0) 0).2 }

theorem step_permits_twice :
    let s := sampleService
    let peers : List Endpoint := [.v4 0xC0000207 5000, .v4 0xC0000207 5001, .v4 0xC0000208 5000]
    ∃ x a, samplePermission.handed? s 1000 = some x ∧
      x.message.method = .createPermission ∧ x.message.peerAddresses = peers ∧
      samplePermission.ends s 1000 = 1000 ∧
      s.table.find? x.request.fiveTuple 1000 = some a ∧ a.username = x.request.username ∧
      (∀ peer ∈ peers, Eligible a.family peer) ∧
      s.Permits samplePermission 1000 x a (s.step samplePermission 1000) ∧
      (s.step samplePermission 1000).events = [.passwordRequested sampleClient "u",
        .permissionCreated sampleClient "u" (.v4 0xC0000207 5000),
        .permissionCreated sampleClient "u" (.v4 0xC0000208 5000)] := by
  intro s peers
  have hready : s.realm = "r" ∧ s.nonces.verify sampleClient "n" 1000 := by decide +kernel
  have hends := (conveys_permission.step hready).1
  obtain ⟨x, h, hrequest⟩ := conveys_permission.handed hready
  have hmethod : x.message.method = .createPermission := congrArg (·.message.method) hrequest
  have hpeers : x.message.peerAddresses = peers := congrArg (·.message.peerAddresses) hrequest
  have haddr : x.request.addr = sampleClient := congrArg (·.addr) hrequest
  have hname : x.request.username = "u" := congrArg (·.username) hrequest
  have hallocated : ((s.table.find? (sampleRequest permissionMessage).fiveTuple 1000).any fun a =>
      decide (a.username = "u" ∧ a.family = .v4 ∧ a.permissions = [])) = true := by
    decide +kernel
  rw [← hrequest] at hallocated
  obtain ⟨a, hfound, ha⟩ := (Option.any_eq_true ..).1 hallocated
  obtain ⟨howner, hfamily, hnone⟩ := of_decide_eq_true ha
  rw [← hname] at howner
  have heligible : ∀ peer ∈ peers, Eligible a.family peer := by
    rw [hfamily]
    simp only [peers, List.forall_mem_cons]
    exact ⟨⟨rfl, rfl⟩, ⟨rfl, rfl⟩, ⟨rfl, rfl⟩, List.forall_mem_nil _⟩
  have hpermits := (step_permits s h hmethod (by simp [hpeers, peers]) (hends.symm ▸ hfound)
    howner).2.1 (hpeers ▸ heligible)
  rw [hends] at hpermits
  refine ⟨x, a, h, hmethod, hpeers, hends, hfound, howner, heligible, hpermits, ?_⟩
  have hfresh : (fun peer : Endpoint => !a.isPermitted peer.ip 1000) = fun _ => true := by
    funext peer
    simp [Allocation.isPermitted, hnone]
  rw [hpermits.events, hpeers, hfresh]
  change [Event.passwordRequested x.request.addr x.request.username] ++ _ = _
  rw [haddr, hname]
  rfl

end Service
end NatRelay
