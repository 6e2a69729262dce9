import Mathlib.Data.List.Perm.Subperm
import Mathlib.Data.Set.Card
import NatRelay.Proofs.Allocation.Pool
import NatRelay.Proofs.Latest

/-! Every address of a pool is leased to one holder at a time, and none is out of reach. Main
statement: `run_handsOut`, that whatever was leased and released before, a lease fails just if every
address of the family is on lease, and else takes a free one on the first IP that has one. -/
namespace NatRelay

/-- Repetitions are dropped, all of them. -/
theorem nodup_eraseDups {α : Type} [BEq α] [LawfulBEq α] (l : List α) : l.eraseDups.Nodup := by
  match l with
  | [] => exact List.nodup_nil
  | a :: l =>
    rw [List.eraseDups_cons, List.nodup_cons]
    refine ⟨?_, nodup_eraseDups _⟩
    rw [List.mem_eraseDups, List.mem_filter]
    simp
termination_by l.length
decreasing_by exact Nat.lt_succ_of_le (List.length_filter_le _ _)

theorem mapM_eq_some_map {α β : Type} {l : List α} {f : α → Option β} {g : α → β}
    (h : ∀ a ∈ l, f a = some (g a)) : l.mapM f = some (l.map g) := by
  induction l with
  | nil => rfl
  | cons a l ih =>
    obtain ⟨ha, hl⟩ := List.forall_mem_cons.1 h
    rw [List.mapM_cons, ha, ih hl]
    rfl

namespace Pool
variable {p q : Pool} {f : Family} {offset : Nat} {ip : Ip} {e : Endpoint}

/-! ### The search for a free port -/

/-- From wherever a round starts, some step of it leads to each place. -/
theorem exists_step (n : Nat) {m d : Nat} (hd : d < m) : ∃ step < m, (n + step) % m = d := by
  have hm : 0 < m := Nat.zero_lt_of_lt hd
  have hn := Nat.mod_lt n hm
  refine ⟨(d + (m - n % m)) % m, Nat.mod_lt _ hm, ?_⟩
  calc (n + (d + (m - n % m)) % m) % m
      = (n % m + (d + (m - n % m))) % m := by rw [Nat.add_mod_mod, Nat.mod_add_mod]
    _ = (d + m) % m := by congr 1; omega
    _ = d := by rw [Nat.add_mod_right, Nat.mod_eq_of_lt hd]

@[simp] theorem length_ring (p : Pool) (offset : Nat) (ip : Ip) :
    (p.ring offset ip).length = p.span := by
  rw [ring, List.length_map, List.length_range]

/-- No port of the range lies past the last one. -/
theorem first_add_lt (p : Pool) {d : Nat} (hd : d < p.span) :
    p.firstPort.toNat + d < UInt16.size := by
  have hlast := p.lastPort.toNat_lt
  rw [span] at hd
  rw [UInt16.size]
  omega

theorem mem_ring : e ∈ p.ring offset ip ↔
    ∃ port, p.firstPort ≤ port ∧ port ≤ p.lastPort ∧ e = .ofIp ip port := by
  constructor
  · intro h
    obtain ⟨step, hstep, rfl⟩ := List.mem_map.1 h
    obtain ⟨hfirst, hlast⟩ :=
      p.port_of_ring (offset + step) (Nat.zero_lt_of_lt (List.mem_range.1 hstep))
    exact ⟨_, hfirst, hlast, rfl⟩
  · rintro ⟨port, hfirst, hlast, rfl⟩
    rw [UInt16.le_iff_toNat_le] at hfirst hlast
    have hd : port.toNat - p.firstPort.toNat < p.span := by
      rw [span]
      omega
    obtain ⟨step, hstep, heq⟩ := exists_step offset hd
    refine List.mem_map.2 ⟨step, List.mem_range.2 hstep, ?_⟩
    rw [heq, Nat.add_sub_cancel' hfirst, UInt16.ofNat_toNat]

/-- A round comes to no port twice. -/
theorem nodup_ring (p : Pool) (offset : Nat) (ip : Ip) : (p.ring offset ip).Nodup := by
  refine List.Nodup.map_on ?_ List.nodup_range
  intro i hi j hj heq
  have hspan := Nat.zero_lt_of_lt (List.mem_range.1 hi)
  have hport := congrArg (UInt16.toNat ∘ Endpoint.port) heq
  simp only [Function.comp_apply, Endpoint.port_ofIp] at hport
  rw [UInt16.toNat_ofNat_of_lt' (p.first_add_lt (Nat.mod_lt _ hspan)),
    UInt16.toNat_ofNat_of_lt' (p.first_add_lt (Nat.mod_lt _ hspan))] at hport
  have hplace : (offset + i) % p.span = (offset + j) % p.span := Nat.add_left_cancel hport
  exact (Nat.ModEq.add_left_cancel' offset hplace).eq_of_lt_of_lt
    (List.mem_range.1 hi) (List.mem_range.1 hj)

theorem offers_iff_mem_ring (offset : Nat) :
    p.Offers e ↔ ∃ ip ∈ p.addresses, e ∈ p.ring offset ip := by
  simp only [Offers, mem_ring]

/-! ### The search in words of fixed size -/

def sub16? (a b : UInt16) : Option UInt16 := if b ≤ a then some (a - b) else none

def add16? (a b : UInt16) : Option UInt16 :=
  if a.toNat + b.toNat < UInt16.size then some (a + b) else none

def add32? (a b : UInt32) : Option UInt32 :=
  if a.toNat + b.toNat < UInt32.size then some (a + b) else none

def mod32? (a b : UInt32) : Option UInt32 := if b = 0 then none else some (a % b)

def narrow? (a : UInt32) : Option UInt16 :=
  if a.toNat < UInt16.size then some a.toUInt16 else none

/-- Number of ports of a range that does not run backwards. -/
def span? (p : Pool) : Option UInt32 := do
  let width ← sub16? p.lastPort p.firstPort
  add32? width.toUInt32 1

/-- The port that a round comes to at a step. -/
def port? (p : Pool) (span offset step : UInt32) : Option UInt16 := do
  let walked ← add32? offset step
  let place ← mod32? walked span
  let distance ← narrow? place
  add16? p.firstPort distance

/-- A round worked out in words: none if a number leaves its word or is divided by zero. -/
def ring? (p : Pool) (offset : UInt32) (ip : Ip) : Option (List Endpoint) :=
  if p.lastPort < p.firstPort then some [] else do
    let span ← p.span?
    (List.range span.toNat).mapM fun step => do
      let port ← p.port? span offset (UInt32.ofNat step)
      return .ofIp ip port

section
variable {a b : UInt16} {c d : UInt32}

theorem sub16?_eq (h : b ≤ a) : ∃ r, sub16? a b = some r ∧ r.toNat = a.toNat - b.toNat :=
  ⟨a - b, if_pos h, UInt16.toNat_sub_of_le a b h⟩

theorem add16?_eq (h : a.toNat + b.toNat < UInt16.size) :
    ∃ r, add16? a b = some r ∧ r.toNat = a.toNat + b.toNat :=
  ⟨a + b, if_pos h, by rw [UInt16.toNat_add]; exact Nat.mod_eq_of_lt h⟩

theorem add32?_eq (h : c.toNat + d.toNat < UInt32.size) :
    ∃ r, add32? c d = some r ∧ r.toNat = c.toNat + d.toNat :=
  ⟨c + d, if_pos h, by rw [UInt32.toNat_add]; exact Nat.mod_eq_of_lt h⟩

theorem mod32?_eq (h : 0 < d.toNat) : ∃ r, mod32? c d = some r ∧ r.toNat = c.toNat % d.toNat := by
  have hd : d ≠ 0 := by
    rintro rfl
    exact absurd h (by decide)
  exact ⟨c % d, if_neg hd, UInt32.toNat_mod c d⟩

theorem narrow?_eq (h : c.toNat < UInt16.size) : ∃ r, narrow? c = some r ∧ r.toNat = c.toNat :=
  ⟨c.toUInt16, if_pos h, by rw [UInt32.toNat_toUInt16]; exact Nat.mod_eq_of_lt h⟩

end

theorem span_le (p : Pool) : p.span ≤ UInt16.size :=
  Nat.le_trans (Nat.sub_le _ _) p.lastPort.toNat_lt

theorem span?_eq (h : p.firstPort ≤ p.lastPort) :
    ∃ span, p.span? = some span ∧ span.toNat = p.span := by
  have hle := UInt16.le_iff_toNat_le.1 h
  have hlast := p.lastPort.toNat_lt
  obtain ⟨width, hwidth, heq⟩ := sub16?_eq h
  have hfits : width.toUInt32.toNat + (1 : UInt32).toNat < UInt32.size := by
    rw [UInt16.toNat_toUInt32, heq, UInt32.toNat_one, UInt32.size]
    omega
  obtain ⟨span, hspan, hsum⟩ := add32?_eq hfits
  refine ⟨span, by rw [span?, hwidth]; exact hspan, ?_⟩
  rw [hsum, UInt16.toNat_toUInt32, heq, UInt32.toNat_one, Pool.span]
  omega

/-- The sums stay in their words even at the last port of the full range. -/
theorem port?_eq {span offset step : UInt32} (hspan : span.toNat = p.span)
    (hoffset : offset.toNat < p.span) (hstep : step.toNat < p.span) :
    p.port? span offset step =
      some (UInt16.ofNat (p.firstPort.toNat + (offset.toNat + step.toNat) % p.span)) := by
  have hsmall : p.span ≤ 65536 := p.span_le
  have hlt := Nat.mod_lt (offset.toNat + step.toNat) (Nat.zero_lt_of_lt hoffset)
  obtain ⟨walked, hwalked, heq⟩ :=
    add32?_eq (show offset.toNat + step.toNat < UInt32.size by rw [UInt32.size]; omega)
  obtain ⟨place, hplace, heq'⟩ :=
    mod32?_eq (c := walked) (show 0 < span.toNat by omega)
  rw [heq, hspan] at heq'
  obtain ⟨distance, hdistance, heq''⟩ :=
    narrow?_eq (show place.toNat < UInt16.size by rw [heq', UInt16.size]; omega)
  rw [heq'] at heq''
  have hfits := p.first_add_lt hlt
  obtain ⟨port, hport, hsum⟩ := add16?_eq (show p.firstPort.toNat + distance.toNat < UInt16.size by
    rw [heq'']; exact hfits)
  simp only [port?, hwalked, hplace, hdistance, hport, Option.bind_eq_bind, Option.bind_some]
  rw [← heq'', ← hsum, UInt16.ofNat_toNat]

/-- A round in words is the round, wherever in the range it starts. -/
theorem ring?_eq (offset : UInt32) (ip : Ip)
    (hoffset : p.firstPort ≤ p.lastPort → offset.toNat < p.span) :
    p.ring? offset ip = some (p.ring offset.toNat ip) := by
  rw [ring?]
  split
  · next hback =>
    have hspan : p.span = 0 := by
      have hlt := UInt16.lt_iff_toNat_lt.1 hback
      rw [span]
      omega
    simp [ring, hspan]
  · next hback =>
    have hports := UInt16.not_lt.1 hback
    have hsmall : p.span ≤ 65536 := p.span_le
    obtain ⟨span, hspan, heq⟩ := span?_eq hports
    rw [hspan, Option.bind_eq_bind, Option.bind_some, heq, ring]
    apply mapM_eq_some_map
    intro step hstep
    have hlt := List.mem_range.1 hstep
    have hword : (UInt32.ofNat step).toNat = step :=
      UInt32.toNat_ofNat_of_lt' (by rw [UInt32.size]; omega)
    rw [port?_eq heq (hoffset hports) (by rwa [hword]), hword]
    rfl

/-! ### When a lease fails, and what it takes -/

theorem find?_ring_eq_none :
    (p.ring offset ip).find? (fun e => !p.leased.contains e) = none ↔
      ∀ port, p.firstPort ≤ port → port ≤ p.lastPort → Endpoint.ofIp ip port ∈ p.leased := by
  rw [List.find?_eq_none]
  simp only [mem_ring, Bool.not_eq_true', Bool.not_eq_false, List.contains_iff_mem]
  constructor
  · exact fun h port hfirst hlast => h _ ⟨port, hfirst, hlast, rfl⟩
  · rintro h e ⟨port, hfirst, hlast, rfl⟩
    exact h port hfirst hlast

/-- A lease fails just if every address of the family is on lease, wherever the search starts. -/
theorem lease_eq_none : p.lease f offset = none ↔
    ∀ ip ∈ p.addresses, ip.family = f → ∀ port, p.firstPort ≤ port → port ≤ p.lastPort →
      Endpoint.ofIp ip port ∈ p.leased := by
  rw [lease, Option.map_eq_none_iff, free?, List.findSome?_eq_none_iff]
  simp only [find?_ring_eq_none, List.mem_filter, decide_eq_true_eq, and_imp]

/-- A lease takes an address of the first IP that has a free one. -/
theorem lease_first (h : p.lease f offset = some (e, q)) {before after : List Ip}
    (haddresses : p.addresses = before ++ e.ip :: after) (hfirst : e.ip ∉ before) {ip : Ip}
    (hip : ip ∈ before) (hfamily : ip.family = f) {port : UInt16} (hport : p.firstPort ≤ port)
    (hport' : port ≤ p.lastPort) : Endpoint.ofIp ip port ∈ p.leased := by
  obtain ⟨e', he, heq⟩ := Option.map_eq_some_iff.1 h
  obtain rfl := (Prod.mk.inj heq).1
  rw [free?, haddresses, List.filter_append, List.findSome?_append, Option.or_eq_some_iff] at he
  rcases he with he | ⟨hnone, -⟩
  · obtain ⟨ip', hip', hfind⟩ := List.exists_of_findSome?_eq_some he
    obtain ⟨port', -, -, rfl⟩ := mem_ring.1 (List.mem_of_find?_eq_some hfind)
    rw [Endpoint.ip_ofIp] at hfirst
    exact absurd (List.mem_of_mem_filter hip') hfirst
  · have hall := List.findSome?_eq_none_iff.1 hnone ip
      (List.mem_filter.2 ⟨hip, decide_eq_true hfamily⟩)
    exact find?_ring_eq_none.1 hall port hport hport'

/-- The IPs of a pool come in the order in which they were first named. -/
theorem addresses_make {before : List Ip} (hfirst : ip ∉ before) (after : List Ip)
    (first last : UInt16) :
    ∃ rest, (make (before ++ ip :: after) first last).addresses =
      before.eraseDups ++ ip :: rest := by
  have hkept : (ip :: after).removeAll before = ip :: after.removeAll before := by
    simp [List.removeAll, hfirst]
  refine ⟨((after.removeAll before).filter fun b => !b == ip).eraseDups, ?_⟩
  rw [make, List.eraseDups_append, hkept, List.eraseDups_cons]

/-! ### Capacity -/

/-- All addresses of the pool, free or on lease. -/
def offered (p : Pool) : List Endpoint := p.addresses.flatMap (p.ring 0)

theorem mem_offered : e ∈ p.offered ↔ p.Offers e := by
  rw [offered, List.mem_flatMap, offers_iff_mem_ring 0]

theorem length_offered (p : Pool) : p.offered.length = p.capacity := by
  simp [offered, List.length_flatMap, capacity]

theorem nodup_offered (h : p.addresses.Nodup) : p.offered.Nodup := by
  rw [offered, List.nodup_flatMap]
  refine ⟨fun ip _ => p.nodup_ring 0 ip, h.imp ?_⟩
  intro ip ip' hne e he he'
  obtain ⟨port, -, -, rfl⟩ := mem_ring.1 he
  obtain ⟨port', -, -, heq⟩ := mem_ring.1 he'
  exact hne (by simpa using congrArg Endpoint.ip heq)

/-- Addresses on lease are among those of the pool, none of them twice. -/
structure Sound (p : Pool) : Prop where
  addresses_nodup : p.addresses.Nodup
  nodup : p.leased.Nodup
  offered : ∀ e ∈ p.leased, p.Offers e

namespace Sound

theorem make (addresses : List Ip) (first last : UInt16) :
    (Pool.make addresses first last).Sound :=
  ⟨nodup_eraseDups addresses, List.nodup_nil, List.forall_mem_nil _⟩

theorem lease (h : p.Sound) (hlease : p.lease f offset = some (e, q)) : q.Sound := by
  obtain ⟨hfree, hoffered, -, rfl⟩ := of_lease hlease
  exact ⟨h.addresses_nodup, List.nodup_cons.2 ⟨hfree, h.nodup⟩,
    List.forall_mem_cons.2 ⟨hoffered, h.offered⟩⟩

theorem release (h : p.Sound) (e : Endpoint) : (p.release e).Sound :=
  ⟨h.addresses_nodup, h.nodup.filter _, fun e' he' => h.offered e' (List.mem_of_mem_filter he')⟩

theorem length_le_capacity (h : p.Sound) : p.leased.length ≤ p.capacity := by
  have hsub : p.leased ⊆ p.offered := fun e he => mem_offered.2 (h.offered e he)
  rw [← length_offered]
  exact (h.nodup.subperm hsub).length_le

/-- As many addresses are on lease as there are, just if no more can be leased. -/
theorem length_eq_capacity (h : p.Sound) :
    p.leased.length = p.capacity ↔ ∀ f offset, p.lease f offset = none := by
  have hsub : p.leased ⊆ p.offered := fun e he => mem_offered.2 (h.offered e he)
  rw [← length_offered]
  constructor
  · intro hlength f offset
    have hperm := (h.nodup.subperm hsub).perm_of_length_le (Nat.le_of_eq hlength.symm)
    rw [lease_eq_none]
    intro ip hip _ port hfirst hlast
    exact hperm.mem_iff.2 (mem_offered.2 ⟨ip, hip, port, hfirst, hlast, rfl⟩)
  · intro hnone
    have hsup : p.offered ⊆ p.leased := by
      intro e he
      obtain ⟨ip, hip, port, hfirst, hlast, rfl⟩ := mem_offered.1 he
      exact lease_eq_none.1 (hnone ip.family 0) ip hip rfl port hfirst hlast
    exact Nat.le_antisymm (h.nodup.subperm hsub).length_le
      ((nodup_offered h.addresses_nodup).subperm hsup).length_le

end Sound

/-! ### What is on lease behind a run -/

/-- An operation and the address that it took. -/
structure Exchange where
  op : Op
  taken : Option Endpoint

/-- The exchanges of a run, in order. -/
def history (p : Pool) (ops : List Op) : List Exchange := List.zipWith Exchange.mk ops (p.run ops).1

/-- The address was leased, and not released since. -/
def Outstanding (e : Endpoint) (xs : List Exchange) : Prop :=
  ∃ before x after, xs = before ++ x :: after ∧ (∀ y ∈ after, ¬ y.op = .release e) ∧
    x.taken = some e

theorem outstanding_concat (xs : List Exchange) (x : Exchange) :
    Outstanding e (xs ++ [x]) ↔ x.taken = some e ∨ (¬ x.op = .release e ∧ Outstanding e xs) :=
  exists_latest_concat xs x

/-- What is on lease is what was leased and not released since. -/
structure Accounts (xs : List Exchange) (p : Pool) : Prop where
  sound : p.Sound
  mem_leased : ∀ e, e ∈ p.leased ↔ Outstanding e xs

theorem Accounts.step {xs : List Exchange} (h : Accounts xs p) (op : Op) :
    Accounts (xs ++ [⟨op, (p.step op).1⟩]) (p.step op).2 := by
  cases op with
  | release e =>
    refine ⟨h.sound.release e, fun e' => ?_⟩
    rw [outstanding_concat, ← h.mem_leased, Pool.step, Pool.release, List.mem_filter]
    simp only [reduceCtorEq, false_or, Op.release.injEq, decide_eq_true_eq, ne_eq]
    rw [and_comm, eq_comm]
  | lease f offset =>
    rw [Pool.step]
    cases hlease : p.lease f offset with
    | none =>
      refine ⟨h.sound, fun e' => ?_⟩
      rw [outstanding_concat, ← h.mem_leased]
      simp
    | some taken =>
      obtain ⟨e, q⟩ := taken
      refine ⟨h.sound.lease hlease, fun e' => ?_⟩
      obtain ⟨-, -, -, rfl⟩ := of_lease hlease
      rw [outstanding_concat, ← h.mem_leased, List.mem_cons]
      simp [eq_comm]

theorem Accounts.run {xs : List Exchange} (h : Accounts xs p) (ops : List Op) :
    Accounts (xs ++ p.history ops) (p.run ops).2 := by
  induction ops generalizing p xs with
  | nil => simpa [history, Pool.run] using h
  | cons op ops ih =>
    have hrest := ih (h.step op)
    rwa [List.append_assoc] at hrest

/-- What a pool was made of stays. -/
theorem run_terms (p : Pool) (ops : List Op) : (p.run ops).2.addresses = p.addresses ∧
    (p.run ops).2.firstPort = p.firstPort ∧ (p.run ops).2.lastPort = p.lastPort := by
  induction ops generalizing p with
  | nil => exact ⟨rfl, rfl, rfl⟩
  | cons op ops ih =>
    have hstep : (p.step op).2.addresses = p.addresses ∧ (p.step op).2.firstPort = p.firstPort ∧
        (p.step op).2.lastPort = p.lastPort := by
      cases op with
      | release e => exact ⟨rfl, rfl, rfl⟩
      | lease f offset =>
        rw [step]
        cases hlease : p.lease f offset with
        | none => exact ⟨rfl, rfl, rfl⟩
        | some taken =>
          obtain ⟨-, -, -, heq⟩ := of_lease hlease
          rw [heq]
          exact ⟨rfl, rfl, rfl⟩
    rw [← hstep.1, ← hstep.2.1, ← hstep.2.2]
    exact ih (p.step op).2

/-! ### All of it -/

/-- What a pool made of `addresses` and a range of ports hands out after the history `xs`. -/
structure HandsOut (addresses : List Ip) (first last : UInt16) (xs : List Exchange) (p : Pool) :
    Prop where
  nodup : p.leased.Nodup
  mem_leased : ∀ e, e ∈ p.leased ↔ Outstanding e xs
  length_leased : p.leased.length = {e | Outstanding e xs}.ncard
  length_le : p.leased.length ≤ p.capacity
  capacity : p.capacity = addresses.toFinset.card * (last.toNat + 1 - first.toNat)
  capacity_le : p.capacity ≤ addresses.length * UInt16.size
  lease_none : ∀ f offset, p.lease f offset = none ↔ ∀ ip ∈ addresses, ip.family = f →
    ∀ port, first ≤ port → port ≤ last → Endpoint.ofIp ip port ∈ p.leased
  lease_some : ∀ f offset e q, p.lease f offset = some (e, q) →
    e ∉ p.leased ∧ q = { p with leased := e :: p.leased } ∧ e.family = f ∧
      (∃ port, first ≤ port ∧ port ≤ last ∧ e = .ofIp e.ip port) ∧
      ∃ before after, addresses = before ++ e.ip :: after ∧ e.ip ∉ before ∧
        ∀ ip ∈ before, ip.family = f →
          ∀ port, first ≤ port → port ≤ last → Endpoint.ofIp ip port ∈ p.leased
  /-- The last address can be had too. -/
  length_eq : p.leased.length = p.capacity ↔ ∀ f offset, p.lease f offset = none
  /-- A search comes to each port once. -/
  ring_once : ∀ offset ip, (p.ring offset ip).Nodup ∧ ∀ e, e ∈ p.ring offset ip ↔
    ∃ port, first ≤ port ∧ port ≤ last ∧ e = .ofIp ip port
  /-- Worked out in 16 and 32 bits, a search overflows nowhere and comes to the same ports. -/
  ring_words : ∀ (offset : UInt32) ip, (first ≤ last → offset.toNat < p.span) →
    p.ring? offset ip = some (p.ring offset.toNat ip)

/-- Whatever was leased and released before, a pool hands out each of its addresses to one holder
at a time. -/
theorem run_handsOut (addresses : List Ip) (first last : UInt16) (ops : List Op) :
    HandsOut addresses first last ((make addresses first last).history ops)
      ((make addresses first last).run ops).2 := by
  have hstart : Accounts [] (make addresses first last) := by
    refine ⟨Sound.make addresses first last, fun e => ?_⟩
    simp [Outstanding]
  obtain ⟨hsound, hmem⟩ := hstart.run ops
  obtain ⟨haddresses, hfirst, hlast⟩ := run_terms (make addresses first last) ops
  rw [List.nil_append] at hmem
  generalize ((make addresses first last).run ops).2 = p at *
  generalize (make addresses first last).history ops = xs at *
  change p.firstPort = first at hfirst
  change p.lastPort = last at hlast
  subst hfirst hlast
  have hip : ∀ ip, ip ∈ p.addresses ↔ ip ∈ addresses := fun ip => by
    rw [haddresses, make, List.mem_eraseDups]
  have hcard : p.addresses.length = addresses.toFinset.card := by
    rw [← List.toFinset_card_of_nodup hsound.addresses_nodup]
    congr 1
    ext ip
    simp [hip]
  refine ⟨hsound.nodup, hmem, ?_, hsound.length_le_capacity, ?_, ?_, ?_, ?_,
    hsound.length_eq_capacity, fun offset ip => ⟨p.nodup_ring offset ip, fun e => mem_ring⟩,
    fun offset ip => ring?_eq offset ip⟩
  · have hset : {e | Outstanding e xs} = p.leased.toFinset := by
      ext e
      simp [hmem]
    rw [hset, Set.ncard_coe_finset, List.toFinset_card_of_nodup hsound.nodup]
  · rw [Pool.capacity, span, hcard]
  · rw [Pool.capacity, hcard]
    exact Nat.mul_le_mul addresses.toFinset_card_le p.span_le
  · intro f offset
    simp only [lease_eq_none, hip]
  · intro f offset e q hlease
    obtain ⟨hfree, ⟨ip, hin, port, hge, hle, rfl⟩, hf, hq⟩ := of_lease hlease
    obtain ⟨before, after, hsplit, hbefore⟩ := List.eq_append_cons_of_mem ((hip ip).1 hin)
    obtain ⟨rest, hrest⟩ := addresses_make hbefore after p.firstPort p.lastPort
    rw [← hsplit, ← haddresses, ← Endpoint.ip_ofIp ip port] at hrest
    rw [Endpoint.ip_ofIp]
    refine ⟨hfree, hq, hf, ⟨port, hge, hle, rfl⟩, before, after, hsplit, hbefore, ?_⟩
    intro ip' hip' hf' port' hge' hle'
    refine lease_first hlease hrest ?_ (List.mem_eraseDups.2 hip') hf' hge' hle'
    rwa [Endpoint.ip_ofIp, List.mem_eraseDups]

end Pool
end NatRelay
