import NatRelay.Host.Basic
import NatRelay.Proofs.Allocation.Accounting
import NatRelay.Settings.Basic

/-! Bringing the sockets in line with the table. Events that are followed, lost or late leave some
set of relayed addresses with open sockets, each once and on an interface (`Sound.run`). From any
such set one reconciliation comes to the addresses of the allocations that an interface serves, if
the machine refuses none of the sockets, and a second one finds nothing to do. Main statement:
`reconcile_converges`. -/
namespace NatRelay.Router
variable {σ : Type} {os : SocketLayer σ} {r : Router} {s : σ} {relay : Endpoint}
  {relays : List Endpoint} {interfaces : List Interface}

/-- Whether an interface has the IP of a relayed address for its external one. -/
def served (interfaces : List Interface) (relay : Endpoint) : Bool :=
  (interfaces.map (·.external.ip)).contains relay.ip

theorem isSome_lookup_map {α β : Type} [DecidableEq α] (f : β → α) (l : List β) (k : α) :
    (List.lookup k (l.map fun x => (f x, x))).isSome = (l.map f).contains k := by
  induction l with
  | nil => rfl
  | cons x l ih =>
    rw [List.map_cons, List.map_cons, List.lookup_cons, List.contains_cons, ← ih]
    cases k == f x <;> rfl

/-! ### Opening and closing -/

/-- What becomes of a relayed address whose socket is asked for. -/
inductive Opening (os : SocketLayer σ) (r : Router) (s : σ) (relay : Endpoint) :
    Bool × Router × σ → Prop
  | held (hheld : relay ∈ r.relays) : Opening os r s relay (true, r, s)
  | unserved (hheld : relay ∉ r.relays) (hbase : r.base? relay = none) :
    Opening os r s relay (false, r, s)
  | refused {i : Interface} (hheld : relay ∉ r.relays) (hbase : r.base? relay = some i)
    (hbind : os.bind s (localAddress i relay) = none) : Opening os r s relay (false, r, s)
  | opened {i : Interface} {s' : σ} (hheld : relay ∉ r.relays) (hbase : r.base? relay = some i)
    (hbind : os.bind s (localAddress i relay) = some s') :
    Opening os r s relay (true, { r with relays := r.relays ++ [relay] }, s')

theorem openRelay_opening (os : SocketLayer σ) (r : Router) (s : σ) (relay : Endpoint) :
    Opening os r s relay (openRelay os r s relay) := by
  rw [openRelay]
  split
  · rename_i hheld
    exact .held (List.contains_iff_mem.1 hheld)
  rename_i hheld
  rw [List.contains_iff_mem] at hheld
  split
  · rename_i hbase
    exact .unserved hheld hbase
  rename_i hbase
  split
  · rename_i hbind
    exact .refused hheld hbase hbind
  · rename_i hbind
    exact .opened hheld hbase hbind

theorem closeRelay_fst (os : SocketLayer σ) (r : Router) (s : σ) (relay : Endpoint) :
    (closeRelay os r s relay).1 = { r with relays := r.relays.filter (· ≠ relay) } := by
  rw [closeRelay]
  split <;> rfl

theorem closeAll_fst (os : SocketLayer σ) (relays : List Endpoint) (r : Router) (s : σ) :
    (closeAll os r s relays).1 = { r with relays := r.relays.filter (· ∉ relays) } := by
  induction relays generalizing r s with
  | nil => simp [closeAll]
  | cons relay relays ih =>
    have hstep : closeAll os r s (relay :: relays) =
        closeAll os (closeRelay os r s relay).1 (closeRelay os r s relay).2 relays := rfl
    rw [hstep, ih, closeRelay_fst]
    simp only [List.filter_filter, List.mem_cons, not_or, Bool.decide_and, Bool.and_comm]

/-! ### What stays true of the sockets -/

/-- Every open socket is there once, and behind an address that an interface serves. -/
structure Sound (interfaces : List Interface) (r : Router) : Prop where
  bases : r.bases = (make interfaces).bases
  nodup : r.relays.Nodup
  relays_served : ∀ relay ∈ r.relays, served interfaces relay

namespace Sound

theorem isSome_base? (h : Sound interfaces r) (relay : Endpoint) :
    (r.base? relay).isSome = served interfaces relay := by
  rw [base?, h.bases]
  exact isSome_lookup_map _ interfaces relay.ip

theorem make (interfaces : List Interface) : Sound interfaces (make interfaces) :=
  ⟨rfl, List.nodup_nil, by simp [Router.make]⟩

theorem filter (h : Sound interfaces r) (p : Endpoint → Bool) :
    Sound interfaces { r with relays := r.relays.filter p } :=
  ⟨h.bases, h.nodup.filter p,
    fun relay hmem => h.relays_served relay (List.mem_of_mem_filter hmem)⟩

theorem openRelay (h : Sound interfaces r) (os : SocketLayer σ) (s : σ) (relay : Endpoint) :
    Sound interfaces (openRelay os r s relay).2.1 := by
  have hopening := openRelay_opening os r s relay
  generalize Router.openRelay os r s relay = o at hopening ⊢
  cases hopening with
  | held | unserved | refused => exact h
  | opened hheld hbase hbind =>
    refine ⟨h.bases, List.nodup_append.2 ⟨h.nodup, List.nodup_singleton relay, ?_⟩, ?_⟩
    · rintro a ha b hb rfl
      exact hheld (List.mem_singleton.1 hb ▸ ha)
    · intro a ha
      rcases List.mem_append.1 ha with ha | ha
      · exact h.relays_served a ha
      · rw [List.mem_singleton.1 ha, ← h.isSome_base?, hbase]
        rfl

theorem closeRelay (h : Sound interfaces r) (os : SocketLayer σ) (s : σ) (relay : Endpoint) :
    Sound interfaces (closeRelay os r s relay).1 := by
  rw [closeRelay_fst]
  exact h.filter _

theorem closeAll (h : Sound interfaces r) (os : SocketLayer σ) (s : σ) (relays : List Endpoint) :
    Sound interfaces (closeAll os r s relays).1 := by
  rw [closeAll_fst]
  exact h.filter _

theorem openAll (h : Sound interfaces r) (os : SocketLayer σ) (s : σ) (relays : List Endpoint) :
    Sound interfaces (openAll os r s relays).2.1 := by
  induction relays generalizing r s with
  | nil => exact h
  | cons relay relays ih => exact ih (h.openRelay os s relay) _

theorem reconcile (h : Sound interfaces r) (os : SocketLayer σ) (s : σ) (t : Table) :
    Sound interfaces (reconcile os r s t).2.1 :=
  (h.closeAll os s _).openAll os _ _

end Sound

/-- What opens and closes sockets. -/
inductive Move where
  /-- An event is followed. Others may be lost before it, or come behind it though sent before. -/
  | follow (event : Event)
  /-- Data go out from a relayed address. -/
  | send (relay : Endpoint)
  | reconcile (t : Table)

/-- One move. -/
def move (os : SocketLayer σ) (r : Router) (s : σ) : Move → Router × σ
  | .follow event => r.follow os s event
  | .send relay => (r.openRelay os s relay).2
  | .reconcile t => (r.reconcile os s t).2

/-- Moves one after the other. -/
def run (os : SocketLayer σ) (r : Router) (s : σ) : List Move → Router × σ
  | [] => (r, s)
  | m :: ms => run os (r.move os s m).1 (r.move os s m).2 ms

theorem Sound.move (h : Sound interfaces r) (os : SocketLayer σ) (s : σ) (m : Move) :
    Sound interfaces (r.move os s m).1 := by
  cases m with
  | follow event =>
    cases event with
    | allocationCreated _ _ _ relay => exact h.openRelay os s relay
    | allocationAborted _ _ relay => exact h.closeRelay os s relay
    | _ => exact h
  | send relay => exact h.openRelay os s relay
  | reconcile t => exact h.reconcile os s t

/-- No moves bring the sockets out of order. -/
theorem Sound.run (h : Sound interfaces r) (os : SocketLayer σ) (s : σ) (ms : List Move) :
    Sound interfaces (r.run os s ms).1 := by
  induction ms generalizing r s with
  | nil => exact h
  | cons m ms ih => exact ih (h.move os s m) _

/-! ### Opening what is missing -/

/-- The machine refuses none of the sockets that are opened in turn. -/
def Unrefused (os : SocketLayer σ) (r : Router) (s : σ) : List Endpoint → Prop
  | [] => True
  | relay :: relays =>
    (relay ∉ r.relays → ∀ i, r.base? relay = some i →
      (os.bind s (localAddress i relay)).isSome) ∧
    Unrefused os (openRelay os r s relay).2.1 (openRelay os r s relay).2.2 relays

/-- The machine refuses none of the sockets that a reconciliation opens. -/
def Granted (os : SocketLayer σ) (r : Router) (s : σ) (t : Table) : Prop :=
  let (r, s) := r.closeAll os s (r.relays.filter (!t.hasRelay ·))
  Unrefused os r s t.relays.keys

instance decidableUnrefused (os : SocketLayer σ) (r : Router) (s : σ) (relays : List Endpoint) :
    Decidable (Unrefused os r s relays) :=
  match relays with
  | [] => inferInstanceAs (Decidable True)
  | relay :: relays =>
    have := decidableUnrefused os (openRelay os r s relay).2.1 (openRelay os r s relay).2.2 relays
    have : Decidable (∀ i, r.base? relay = some i → (os.bind s (localAddress i relay)).isSome) :=
      inferInstanceAs (Decidable (∀ i ∈ r.base? relay, _))
    inferInstanceAs (Decidable ((_ → _) ∧ _))

instance (os : SocketLayer σ) (r : Router) (s : σ) (t : Table) : Decidable (Granted os r s t) :=
  inferInstanceAs (Decidable (Unrefused os _ _ t.relays.keys))

/-- A machine that refuses no socket of a served address does not do so here. -/
theorem unrefused_of_bind (h : Sound interfaces r)
    (hbind : ∀ s relay i, (make interfaces).base? relay = some i →
      (os.bind s (localAddress i relay)).isSome) :
    Unrefused os r s relays := by
  induction relays generalizing r s with
  | nil => trivial
  | cons relay relays ih =>
    refine ⟨fun _ i hbase => hbind s relay i ?_, ih (h.openRelay os s relay)⟩
    rwa [base?, ← h.bases]

theorem granted_of_bind (h : Sound interfaces r)
    (hbind : ∀ s relay i, (make interfaces).base? relay = some i →
      (os.bind s (localAddress i relay)).isSome) (t : Table) : Granted os r s t :=
  unrefused_of_bind (h.closeAll os s _) hbind

/-- The addresses whose sockets an interface serves but that have none. -/
def missing (r : Router) (relays : List Endpoint) : List Endpoint :=
  relays.filter fun relay => !r.relays.contains relay && (r.base? relay).isSome

theorem missing_cons (r : Router) (relay : Endpoint) (relays : List Endpoint) :
    r.missing (relay :: relays) =
      if relay ∉ r.relays ∧ (r.base? relay).isSome then relay :: r.missing relays
      else r.missing relays := by
  rw [missing, List.filter_cons]
  simp [missing]

theorem Sound.missing_eq (h : Sound interfaces r) (relays : List Endpoint) : r.missing relays =
    relays.filter fun relay => served interfaces relay ∧ relay ∉ r.relays := by
  refine List.filter_congr fun relay _ => ?_
  rw [h.isSome_base?]
  simp [Bool.and_comm]

/-- One that is opened is not missing any more; for the others nothing changes. -/
theorem missing_append (hfresh : relay ∉ relays) :
    ({ r with relays := r.relays ++ [relay] } : Router).missing relays = r.missing relays := by
  apply List.filter_congr
  intro other hother
  have hne : other ≠ relay := fun heq => hfresh (heq ▸ hother)
  simp [base?, hne]

/-- Unless the machine refuses, just the missing ones are opened. -/
theorem openAll_eq (nodup : relays.Nodup) (h : Unrefused os r s relays) :
    ∃ s', openAll os r s relays =
      ((r.missing relays).length, { r with relays := r.relays ++ r.missing relays }, s') := by
  induction relays generalizing r s with
  | nil => exact ⟨s, by simp [openAll, missing]⟩
  | cons relay relays ih =>
    obtain ⟨hfresh, nodup⟩ := List.nodup_cons.1 nodup
    obtain ⟨hbind, h⟩ := h
    have hopening := openRelay_opening os r s relay
    rw [openAll, missing_cons]
    generalize openRelay os r s relay = o at h hopening
    cases hopening with
    | held hheld =>
      obtain ⟨s', heq⟩ := ih nodup h
      exact ⟨s', by simp [heq, hheld]⟩
    | unserved hheld hbase =>
      obtain ⟨s', heq⟩ := ih nodup h
      exact ⟨s', by simp [heq, hbase]⟩
    | refused hheld hbase hrefused =>
      have hgranted := hbind hheld _ hbase
      rw [hrefused] at hgranted
      cases hgranted
    | opened hheld hbase hgranted =>
      obtain ⟨s', heq⟩ := ih nodup h
      exact ⟨s', by simp [heq, hheld, hbase, missing_append hfresh]⟩

/-- Where nothing is missing, nothing happens. -/
theorem openAll_of_missing (h : r.missing relays = []) : openAll os r s relays = (0, r, s) := by
  induction relays with
  | nil => rfl
  | cons relay relays ih =>
    have hopening := openRelay_opening os r s relay
    rw [missing_cons] at h
    split at h
    · cases h
    rename_i hnot
    rw [openAll]
    generalize openRelay os r s relay = o at hopening
    cases hopening with
    | held hheld => simp [ih h, hheld]
    | unserved => simp [ih h]
    | refused => simp [ih h]
    | opened hheld hbase => exact absurd ⟨hheld, by rw [hbase]; rfl⟩ hnot

/-! ### One pass -/

variable {t : Table}

/-- The sockets that stay are those of the table; the missing ones come behind them. -/
theorem reconcile_eq (nodup : t.relays.keys.Nodup) (h : Granted os r s t) :
    ∃ s', reconcile os r s t =
      (((r.relays.filter (· ∉ t.relays.keys)).length, (r.missing t.relays.keys).length),
        { r with relays := r.relays.filter (· ∈ t.relays.keys) ++ r.missing t.relays.keys },
        s') := by
  have hstale : r.relays.filter (!t.hasRelay ·) = r.relays.filter (· ∉ t.relays.keys) :=
    List.filter_congr fun relay _ => by simp [Table.hasRelay]
  have hkept : r.relays.filter (· ∉ r.relays.filter (· ∉ t.relays.keys)) =
      r.relays.filter (· ∈ t.relays.keys) :=
    List.filter_congr fun relay hmem => by simp [hmem]
  have hclosed := closeAll_fst os (r.relays.filter (· ∉ t.relays.keys)) r s
  rw [hkept] at hclosed
  rw [Granted, hstale] at h
  rw [reconcile, hstale]
  generalize closeAll os r s _ = closed at h hclosed ⊢
  obtain ⟨_, s₁⟩ := closed
  obtain rfl := hclosed
  obtain ⟨s', heq⟩ := openAll_eq nodup h
  have hmissing : ({ r with relays := r.relays.filter (· ∈ t.relays.keys) } : Router).missing
      t.relays.keys = r.missing t.relays.keys :=
    List.filter_congr fun relay hmem => by simp [base?, hmem]
  rw [hmissing] at heq
  exact ⟨s', by simp only [heq]⟩

/-- Where there is nothing to close and nothing to open, nothing happens. -/
theorem reconcile_of_missing (hkept : ∀ relay ∈ r.relays, relay ∈ t.relays.keys)
    (hmissing : r.missing t.relays.keys = []) : reconcile os r s t = ((0, 0), r, s) := by
  have hstale : r.relays.filter (!t.hasRelay ·) = [] := by
    rw [List.filter_eq_nil_iff]
    intro relay hmem
    simpa [Table.hasRelay] using hkept relay hmem
  rw [reconcile, hstale]
  simp only [closeAll, List.foldl_nil, openAll_of_missing hmissing, List.length_nil]

/-- From sound sockets and consistent books, the pass ends at the served addresses of the
allocations. -/
theorem reconcile_of_sound (h : Sound interfaces r) (c : t.Consistent)
    (hgranted : Granted os r s t) :
    ∃ r' s', reconcile os r s t =
        ((r.relays.countP fun relay => relay ∉ t.owners.keys,
          t.owners.keys.countP fun relay => served interfaces relay ∧ relay ∉ r.relays),
          r', s') ∧
      Sound interfaces r' ∧
      ∀ relay, relay ∈ r'.relays ↔ relay ∈ t.owners.keys ∧ served interfaces relay := by
  have hkeys : t.relays.keys.Perm t.owners.keys := c.relays_perm.map _
  have hmissing := h.missing_eq t.relays.keys
  obtain ⟨s', heq⟩ := reconcile_eq c.relays_nodup hgranted
  have hsound := h.reconcile os s t
  rw [heq] at hsound
  refine ⟨_, s', ?_, hsound, fun relay => ?_⟩
  · simp only [heq, hmissing, ← List.countP_eq_length_filter, hkeys.countP_eq, hkeys.mem_iff]
  · have hserved := h.relays_served relay
    simp only [hmissing, List.mem_append, List.mem_filter, decide_eq_true_eq, hkeys.mem_iff]
    tauto

theorem bindInterface_externalIp {n n' : Network} {i i' : Interface}
    (h : Host.bindInterface n i = some (i', n')) : i'.external.ip = i.external.ip := by
  obtain ⟨_, -, heq⟩ := Option.map_eq_some_iff.1 h
  obtain ⟨rfl, -⟩ := Prod.mk.inj heq
  dsimp only
  split
  · cases i.external <;> rfl
  · rfl

/-- Binding changes no external IP. -/
theorem served_of_listen {n n' : Network} {bound : List Interface}
    (h : Host.listen n interfaces = (bound, .ok n')) : served bound = served interfaces := by
  have hips : ∀ {n interfaces bound}, Host.bindInterfaces n interfaces = (bound, .ok n') →
      bound.map (·.external.ip) = interfaces.map (·.external.ip) := by
    intro n interfaces bound h
    induction interfaces generalizing n bound with
    | nil => rw [← (Prod.mk.inj h).1]
    | cons i interfaces ih =>
      rw [Host.bindInterfaces] at h
      split at h
      · cases h
      rename_i hbind
      obtain ⟨rfl, hrest⟩ := Prod.mk.inj h
      rw [List.map_cons, List.map_cons, bindInterface_externalIp hbind, ih (Prod.ext rfl hrest)]
  rw [Host.listen] at h
  split at h
  · cases h
  · funext relay
    rw [served, served, hips h]

/-- Whatever moves left which sockets open and whatever became of the allocations, one
reconciliation leaves open just the addresses of the allocations that an interface serves, provided
that the machine refuses no socket that is asked for, and it tells how many sockets had no
allocation and how many allocations had no socket. Another one closes and opens nothing. If the
service and the host are made from the same interfaces, an interface serves every address that is
or can be leased. -/
theorem reconcile_converges :
    (∀ {σ : Type} (os : SocketLayer σ) (interfaces : List Interface) (start : σ)
      (moves : List Move) (options : AllocationOptions) (addresses : List Ip) (first last : UInt16)
      (ops : List (Table.Op × Time)) (r : Router) (s : σ) (t : Table),
      (make interfaces).run os start moves = (r, s) →
      t = (Table.run { options, pool := .make addresses first last } ops).2 →
      r.relays.Nodup ∧
      ((∀ s relay i, (make interfaces).base? relay = some i →
        (os.bind s (localAddress i relay)).isSome) → Granted os r s t) ∧
      (Granted os r s t → ∃ r' s',
        reconcile os r s t =
          ((r.relays.countP fun relay => relay ∉ t.owners.keys,
            t.owners.keys.countP fun relay => served interfaces relay ∧ relay ∉ r.relays),
            r', s') ∧
        r'.relays.Perm (t.owners.keys.filter (served interfaces)) ∧
        reconcile os r' s' t = ((0, 0), r', s'))) ∧
    (∀ (settings : Settings) (n n' : Network) (bound : List Interface)
      (ops : List (Table.Op × Time)) (t : Table),
      Host.listen n settings.interfaces = (bound, .ok n') →
      t = (Table.run (Service.make settings.serviceOptions).table ops).2 →
      (∀ family offset relay pool, t.pool.lease family offset = some (relay, pool) →
        served bound relay) ∧
      ∀ relay ∈ t.owners.keys, served bound relay) := by
  constructor
  · intro σ os interfaces start moves options addresses first last ops r s t hrun ht
    have hsound : Sound interfaces r := by
      have hrouter := (Sound.make interfaces).run os start moves
      rwa [hrun] at hrouter
    obtain ⟨c, -⟩ :=
      Table.run_consistent (Table.consistent_empty options addresses first last) ops
    rw [← ht] at c
    have hkeys : t.relays.keys.Perm t.owners.keys := c.relays_perm.map _
    refine ⟨hsound.nodup, fun hbind => granted_of_bind hsound hbind t, fun hgranted => ?_⟩
    obtain ⟨r', s', heq, hsound', hmem⟩ := reconcile_of_sound hsound c hgranted
    refine ⟨r', s', heq, ?_, reconcile_of_missing ?_ ?_⟩
    · rw [List.perm_ext_iff_of_nodup hsound'.nodup (c.owners_nodup.filter _)]
      simpa only [List.mem_filter] using hmem
    · exact fun relay hrelay => hkeys.mem_iff.2 ((hmem relay).1 hrelay).1
    · rw [hsound'.missing_eq, List.filter_eq_nil_iff]
      intro relay hrelay hleft
      obtain ⟨hserved, hclosed⟩ := of_decide_eq_true hleft
      exact hclosed ((hmem relay).2 ⟨hkeys.mem_iff.1 hrelay, hserved⟩)
  · intro settings n n' bound ops t hlisten ht
    obtain ⟨c, hterms⟩ := Table.run_consistent (Table.consistent_empty
      settings.serviceOptions.allocation settings.relayAddresses settings.firstPort
      settings.lastPort) ops
    have hoffered {relay : Endpoint} (hoffers : t.pool.Offers relay) : served bound relay := by
      rw [ht] at hoffers
      obtain ⟨ip, hip, port, -, -, rfl⟩ := Pool.offers_make.1 ((hterms.offers relay).1 hoffers)
      rw [served_of_listen hlisten, served, Endpoint.ip_ofIp, List.contains_iff_mem]
      exact List.mem_eraseDups.1 hip
    refine ⟨fun family offset relay pool hlease => hoffered (Pool.of_lease hlease).2.1,
      fun relay hmem => hoffered ?_⟩
    rw [ht] at hmem ⊢
    exact c.leased_offered relay (c.leased_perm.mem_iff.2 hmem)

/-- Three clients are given allocations and the first deletes its own, of all of which the host heard
only that the first was made: a socket is left over, and two are missing. -/
theorem reconcile_converges_of_unheard :
    let settings : Settings :=
      { realm := "r", software := "s", users := [], permissionLifetime := seconds 300
        interfaces := [⟨.v4 0x0A000001 3478, .v4 0xC0000201 3478⟩,
          ⟨.v4 0x0A000002 3478, .v4 0xC0000202 3478⟩]
        defaultLifetime := seconds 600, maxLifetime := seconds 3600, channelLifetime := seconds 600
        nonceTtl := seconds 3600, nonceCapacity := 0, authTimeout := seconds 5
        firstPort := 50000, lastPort := 50001, maxAllocations := 0, userQuota := 0
        sweepInterval := seconds 5, maxPendingRequests := 1024, logLevel := "", logFormat := .json }
    let client (port : UInt16) : FiveTuple := .udp (.v4 0xCB007101 port) (.v4 0x0A000001 3478)
    let create (port : UInt16) : Table.Op := .create ⟨client port, "u", 1, .v4, none⟩ 0
    let ops : List (Table.Op × Time) :=
      [(create 4000, 0), (create 4001, 0), (create 4002, 0), (.delete (client 4000), 1)]
    let t := (Table.run (Service.make settings.serviceOptions).table ops).2
    let n : Network := { sockets := [.v4 0x0A000001 3478, .v4 0x0A000002 3478] }
    let moves : List Move :=
      [.follow (.allocationCreated (client 4000).client "u" 50000 (.v4 0xC0000201 50000))]
    let before := (make settings.interfaces).run Network.layer n moves
    Host.listen {} settings.interfaces = (settings.interfaces, .ok n) ∧
      Granted Network.layer before.1 before.2 t ∧
      ∃ r' n', reconcile Network.layer before.1 before.2 t = ((1, 2), r', n') ∧
        r'.relays.Perm [.v4 0xC0000202 50000, .v4 0xC0000201 50001] ∧
        reconcile Network.layer r' n' t = ((0, 0), r', n') ∧
        ∀ relay ∈ t.owners.keys, served settings.interfaces relay := by
  intro settings client create ops t n moves before
  have hlisten : Host.listen {} settings.interfaces = (settings.interfaces, .ok n) := rfl
  obtain ⟨hcounts, hleft⟩ :
      (before.1.relays.countP fun relay => relay ∉ t.owners.keys, t.owners.keys.countP
        fun relay => served settings.interfaces relay ∧ relay ∉ before.1.relays) = (1, 2) ∧
      t.owners.keys.filter (served settings.interfaces) =
        [.v4 0xC0000202 50000, .v4 0xC0000201 50001] := by
    decide +kernel
  obtain ⟨hrepairs, hagrees⟩ := reconcile_converges
  obtain ⟨-, -, hconverges⟩ := hrepairs Network.layer settings.interfaces n moves
    settings.serviceOptions.allocation settings.relayAddresses 50000 50001 ops before.1 before.2 t
    rfl rfl
  obtain ⟨-, hserved⟩ := hagrees settings {} n settings.interfaces ops t hlisten rfl
  rw [hcounts, hleft] at hconverges
  refine ⟨hlisten, by decide +kernel, ?_⟩
  obtain ⟨r', n', hfirst, hopen, hsecond⟩ := hconverges (by decide +kernel)
  exact ⟨r', n', hfirst, hopen, hsecond, hserved⟩

end NatRelay.Router
