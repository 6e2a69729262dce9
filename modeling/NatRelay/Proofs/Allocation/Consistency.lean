import Mathlib.Data.List.Nodup
import NatRelay.Allocation.Table
import NatRelay.Proofs.Allocation.Pool
import NatRelay.Proofs.Assoc

/-! The books of an allocation table: its entries, the index of relayed addresses, the leases of the
pool and the count of slots tell one story. Entering an allocation, dropping some of them and
changing them in place keep the books. -/
namespace NatRelay.Table

/-- The owner of each relayed address, as the entries have it. -/
def owners (t : Table) : Assoc Endpoint FiveTuple := t.entries.map fun e => (e.2.relay, e.1)

/-- Index, leases and slots agree with the entries, and no relayed address has two owners. -/
structure Consistent (t : Table) : Prop where
  keys_nodup : t.entries.keys.Nodup
  key_eq : ∀ e ∈ t.entries, e.2.fiveTuple = e.1
  relays_perm : t.relays.Perm t.owners
  leased_perm : t.pool.leased.Perm t.owners.keys
  leased_nodup : t.pool.leased.Nodup
  leased_offered : ∀ relay ∈ t.pool.leased, t.pool.Offers relay
  slots_eq : t.slots = t.entries.length
  slots_le : 0 < t.options.maxAllocations → t.slots ≤ t.options.maxAllocations

namespace Consistent
variable {t : Table} (c : t.Consistent)
include c

theorem owners_nodup : t.owners.keys.Nodup := c.leased_perm.nodup c.leased_nodup

theorem relays_nodup : t.relays.keys.Nodup := (c.relays_perm.map _).symm.nodup c.owners_nodup

theorem mem_leased (relay : Endpoint) :
    relay ∈ t.pool.leased ↔ ∃ e ∈ t.entries, e.2.relay = relay := by
  rw [c.leased_perm.mem_iff]
  simp [owners, Assoc.keys]

/-- A relayed address has one owner. -/
theorem eq_of_relay_eq {e₁ e₂ : FiveTuple × Allocation} (h₁ : e₁ ∈ t.entries)
    (h₂ : e₂ ∈ t.entries) (h : e₁.2.relay = e₂.2.relay) : e₁ = e₂ := by
  have nodup := c.owners_nodup
  rw [owners, Assoc.keys, List.map_map] at nodup
  exact List.inj_on_of_nodup_map nodup h₁ h₂ h

/-- The index finds the owner of a relayed address, and no other. -/
theorem lookup_relays (relay : Endpoint) (ft : FiveTuple) :
    t.relays.lookup relay = some ft ↔ ∃ a, t.entries.lookup ft = some a ∧ a.relay = relay := by
  rw [Assoc.lookup_eq_some c.relays_nodup, c.relays_perm.mem_iff, owners, List.mem_map]
  constructor
  · rintro ⟨⟨k, a⟩, he, heq⟩
    obtain ⟨rfl, rfl⟩ := Prod.mk.inj heq
    exact ⟨a, Assoc.lookup_of_mem c.keys_nodup he, rfl⟩
  · rintro ⟨a, ha, rfl⟩
    exact ⟨(ft, a), Assoc.mem_of_lookup ha, rfl⟩

theorem lookup_relays_of_free {relay : Endpoint} (h : relay ∉ t.pool.leased) :
    t.relays.lookup relay = none := by
  rw [Option.eq_none_iff_forall_ne_some]
  intro ft hft
  obtain ⟨a, ha, rfl⟩ := (c.lookup_relays _ _).1 hft
  exact h ((c.mem_leased _).2 ⟨(ft, a), Assoc.mem_of_lookup ha, rfl⟩)

theorem fiveTuple_eq {ft : FiveTuple} {a : Allocation} (h : t.entries.lookup ft = some a) :
    a.fiveTuple = ft := c.key_eq _ (Assoc.mem_of_lookup h)

end Consistent

/-- The table with one more allocation, whose address is taken on lease. -/
def add (t : Table) (a : Allocation) : Table :=
  { t with
    pool := { t.pool with leased := a.relay :: t.pool.leased }
    entries := (a.fiveTuple, a) :: t.entries
    relays := (a.relay, a.fiveTuple) :: t.relays
    slots := t.slots + 1 }

/-- Whether dropping what `p` does not keep leaves the address alone. -/
def spares (t : Table) (p : FiveTuple × Allocation → Bool) (relay : Endpoint) : Bool :=
  t.entries.all fun e => p e || e.2.relay ≠ relay

/-- The table with only the entries that `p` keeps. The addresses of the others are given back. -/
def keep (t : Table) (p : FiveTuple × Allocation → Bool) : Table :=
  { t with
    pool := { t.pool with leased := t.pool.leased.filter (t.spares p) }
    entries := t.entries.filter p
    relays := t.relays.filter fun r => t.spares p r.1
    slots := (t.entries.filter p).length }

/-- The table with every allocation changed. -/
def mapValues (t : Table) (f : Allocation → Allocation) : Table :=
  { t with entries := t.entries.map fun e => (e.1, f e.2) }

attribute [ext] Pool Table

theorem keep_congr {t : Table} {p q : FiveTuple × Allocation → Bool}
    (h : ∀ e ∈ t.entries, p e = q e) : t.keep p = t.keep q := by
  have hspares : t.spares p = t.spares q := by
    funext relay
    rw [Bool.eq_iff_iff, spares, spares, List.all_eq_true, List.all_eq_true]
    exact forall₂_congr fun e he => by rw [h e he]
  rw [keep, keep, hspares, List.filter_congr h]

theorem keep_keep (t : Table) (p q : FiveTuple × Allocation → Bool) :
    (t.keep p).keep q = t.keep fun e => p e && q e := by
  have hspares (relay : Endpoint) : (t.spares p relay && (t.keep p).spares q relay) =
      t.spares (fun e => p e && q e) relay := by
    rw [Bool.eq_iff_iff]
    simp only [spares, keep, Bool.and_eq_true, List.all_eq_true, List.mem_filter, Bool.or_eq_true,
      and_imp]
    constructor
    · intro ⟨hp, hq⟩ e he
      rcases hp e he with h | h
      · exact (hq e he h).imp_left fun hq => ⟨h, hq⟩
      · exact .inr h
    · intro h
      exact ⟨fun e he => (h e he).imp_left And.left, fun e he _ => (h e he).imp_left And.right⟩
  have hleased : ((t.keep p).keep q).pool.leased =
      (t.keep fun e => p e && q e).pool.leased := by
    change (t.pool.leased.filter _).filter _ = t.pool.leased.filter _
    rw [List.filter_filter]
    exact List.filter_congr fun relay _ => (Bool.and_comm _ _).trans (hspares relay)
  have hrelays : ((t.keep p).keep q).relays = (t.keep fun e => p e && q e).relays := by
    change (t.relays.filter _).filter _ = t.relays.filter _
    rw [List.filter_filter]
    exact List.filter_congr fun r _ => (Bool.and_comm _ _).trans (hspares r.1)
  have hentries : ((t.keep p).keep q).entries = (t.keep fun e => p e && q e).entries := by
    change (t.entries.filter p).filter q = _
    rw [List.filter_filter]
    exact List.filter_congr fun e _ => Bool.and_comm _ _
  exact Table.ext rfl (Pool.ext rfl rfl rfl hleased) hentries hrelays
    (congrArg List.length hentries)

namespace Consistent
variable {t : Table} (c : t.Consistent)
include c

theorem spares_eq {p : FiveTuple × Allocation → Bool} {e : FiveTuple × Allocation}
    (he : e ∈ t.entries) : t.spares p e.2.relay = p e := by
  rw [Bool.eq_iff_iff, spares, List.all_eq_true]
  constructor
  · intro h
    simpa using h e he
  · intro h d hd
    by_cases hr : d.2.relay = e.2.relay
    · simp [c.eq_of_relay_eq hd he hr, h]
    · simp [hr]

theorem owners_keep (p : FiveTuple × Allocation → Bool) :
    (t.keep p).owners = t.owners.filter fun r => t.spares p r.1 := by
  rw [owners, owners, List.filter_map, keep]
  congr 1
  exact List.filter_congr fun e he => (c.spares_eq he).symm

theorem keep (p : FiveTuple × Allocation → Bool) : (t.keep p).Consistent where
  keys_nodup := Assoc.nodup_keys_filter c.keys_nodup p
  key_eq e he := c.key_eq e (List.mem_of_mem_filter he)
  relays_perm := by
    rw [c.owners_keep]
    exact c.relays_perm.filter _
  leased_perm := by
    rw [c.owners_keep, Assoc.keys, ← Function.comp_def (t.spares p) Prod.fst, ← List.filter_map]
    exact c.leased_perm.filter _
  leased_nodup := c.leased_nodup.filter _
  leased_offered relay h := c.leased_offered relay (List.mem_of_mem_filter h)
  slots_eq := rfl
  slots_le h := by
    have hslots := c.slots_le h
    rw [c.slots_eq] at hslots
    exact Nat.le_trans (List.length_filter_le p t.entries) hslots

/-- Nothing changes where everything is kept. -/
theorem keep_all {p : FiveTuple × Allocation → Bool} (h : ∀ e ∈ t.entries, p e = true) :
    t.keep p = t := by
  have hspares : t.spares p = fun _ => true := by
    funext relay
    rw [spares, List.all_eq_true]
    exact fun e he => by simp [h e he]
  have hentries : t.entries.filter p = t.entries := List.filter_eq_self.2 h
  rw [Table.keep, hspares, hentries, ← c.slots_eq]
  simp

theorem add {a : Allocation} (hnew : t.entries.lookup a.fiveTuple = none)
    (hfree : a.relay ∉ t.pool.leased) (hoffered : t.pool.Offers a.relay)
    (hslots : 0 < t.options.maxAllocations → t.slots < t.options.maxAllocations) :
    (t.add a).Consistent where
  keys_nodup := by
    refine List.nodup_cons.2 ⟨?_, c.keys_nodup⟩
    intro h
    obtain ⟨e, he, hk⟩ := List.mem_map.1 h
    exact Assoc.lookup_eq_none.1 hnew e he hk
  key_eq e he := by
    rcases List.mem_cons.1 he with rfl | he
    · rfl
    · exact c.key_eq e he
  relays_perm := c.relays_perm.cons _
  leased_perm := c.leased_perm.cons _
  leased_nodup := List.nodup_cons.2 ⟨hfree, c.leased_nodup⟩
  leased_offered relay h := by
    rcases List.mem_cons.1 h with rfl | h
    · exact hoffered
    · exact c.leased_offered relay h
  slots_eq := by
    change t.slots + 1 = t.entries.length + 1
    rw [c.slots_eq]
  slots_le h := hslots h

/-- A change of entries is no matter of the books if they keep their owners and addresses. -/
theorem of_entries {entries : Assoc FiveTuple Allocation} (hkeys : entries.keys = t.entries.keys)
    (hkey : ∀ e ∈ entries, e.2.fiveTuple = e.1)
    (howners : ({ t with entries } : Table).owners = t.owners) :
    ({ t with entries } : Table).Consistent where
  keys_nodup := by simpa only [hkeys] using c.keys_nodup
  key_eq := hkey
  relays_perm := by simpa only [howners] using c.relays_perm
  leased_perm := by simpa only [howners] using c.leased_perm
  leased_nodup := c.leased_nodup
  leased_offered := c.leased_offered
  slots_eq := by
    have hlength := congrArg List.length hkeys
    simp only [Assoc.keys, List.length_map] at hlength
    exact c.slots_eq.trans hlength.symm
  slots_le := c.slots_le

theorem mapValues {f : Allocation → Allocation}
    (hf : ∀ a, (f a).fiveTuple = a.fiveTuple ∧ (f a).relay = a.relay) :
    (t.mapValues f).Consistent := by
  apply c.of_entries
  · simp [Assoc.keys]
  · intro e he
    obtain ⟨d, hd, rfl⟩ := List.mem_map.1 he
    exact (hf d.2).1.trans (c.key_eq d hd)
  · simp [owners, Function.comp_def, hf]

theorem update {ft : FiveTuple} {f : Allocation → Allocation}
    (hf : ∀ a, (f a).fiveTuple = a.fiveTuple ∧ (f a).relay = a.relay) :
    (t.update ft f).Consistent := by
  apply c.of_entries
  · exact Assoc.keys_mapAt _ _ _
  · intro e he
    obtain ⟨d, hd, rfl⟩ := List.mem_map.1 he
    have hd := c.key_eq d hd
    by_cases h : d.1 = ft
    · simpa [h, hf] using hd
    · simpa [h] using hd
  · exact Assoc.map_mapAt _ _ _ _ fun a => by rw [(hf a).2]

end Consistent

theorem consistent_empty (options : AllocationOptions) (addresses : List Ip)
    (first last : UInt16) :
    ({ options, pool := .make addresses first last } : Table).Consistent where
  keys_nodup := List.nodup_nil
  key_eq := by simp
  relays_perm := .nil
  leased_perm := .nil
  leased_nodup := List.nodup_nil
  leased_offered := by simp
  slots_eq := rfl
  slots_le _ := Nat.zero_le _

end NatRelay.Table
