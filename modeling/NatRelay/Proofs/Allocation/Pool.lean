import Mathlib.Data.List.Perm.Basic
import NatRelay.Allocation.Pool

/-! What a lease takes from the pool and what a release gives back. -/
namespace NatRelay.Pool

/-- One of the pool's IPs at a port of its range. -/
def Offers (p : Pool) (e : Endpoint) : Prop :=
  ∃ ip ∈ p.addresses, ∃ port, p.firstPort ≤ port ∧ port ≤ p.lastPort ∧ e = .ofIp ip port

@[simp] theorem leased_make (addresses : List Ip) (first last : UInt16) :
    (make addresses first last).leased = [] := rfl

theorem offers_make {addresses : List Ip} {first last : UInt16} {e : Endpoint} :
    (make addresses first last).Offers e ↔
      ∃ ip ∈ addresses, ∃ port, first ≤ port ∧ port ≤ last ∧ e = .ofIp ip port := by
  simp only [Offers, make, List.mem_eraseDups]

/-- Every port of a ring lies in the range, wherever the search starts. -/
theorem port_of_ring (p : Pool) (n : Nat) (h : 0 < p.span) :
    p.firstPort ≤ UInt16.ofNat (p.firstPort.toNat + n % p.span) ∧
      UInt16.ofNat (p.firstPort.toNat + n % p.span) ≤ p.lastPort := by
  have hn := Nat.mod_lt n h
  have hlast := p.lastPort.toNat_lt
  unfold span at h hn ⊢
  have hsmall : p.firstPort.toNat + n % (p.lastPort.toNat + 1 - p.firstPort.toNat) <
      UInt16.size := by
    simp only [UInt16.size]
    omega
  rw [UInt16.le_iff_toNat_le, UInt16.le_iff_toNat_le, UInt16.toNat_ofNat_of_lt' hsmall]
  omega

theorem offers_of_mem_ring {p : Pool} {offset : Nat} {ip : Ip} {e : Endpoint}
    (hip : ip ∈ p.addresses) (h : e ∈ p.ring offset ip) : p.Offers e := by
  obtain ⟨step, hstep, rfl⟩ := List.mem_map.1 h
  have hspan := Nat.zero_lt_of_lt (List.mem_range.1 hstep)
  obtain ⟨hfirst, hlast⟩ := p.port_of_ring (offset + step) hspan
  exact ⟨ip, hip, _, hfirst, hlast, rfl⟩

/-- A lease is of an address that was free, and takes just that one. -/
theorem of_lease {p q : Pool} {f : Family} {offset : Nat} {e : Endpoint}
    (h : p.lease f offset = some (e, q)) :
    e ∉ p.leased ∧ p.Offers e ∧ e.family = f ∧ q = { p with leased := e :: p.leased } := by
  obtain ⟨e, he, heq⟩ := Option.map_eq_some_iff.1 h
  obtain ⟨rfl, rfl⟩ := Prod.mk.inj heq
  obtain ⟨ip, hip, hfind⟩ := List.exists_of_findSome?_eq_some he
  obtain ⟨hip, hf⟩ := List.mem_filter.1 hip
  have hfree := List.find?_some hfind
  have hring := List.mem_of_find?_eq_some hfind
  refine ⟨by simpa using hfree, offers_of_mem_ring hip hring, ?_, rfl⟩
  obtain ⟨step, -, rfl⟩ := List.mem_map.1 hring
  simpa [Endpoint.family] using hf

/-- Where nothing is on lease, there is an address of every family that the pool has. -/
theorem lease_of_unleased {p : Pool} {f : Family} (hleased : p.leased = [])
    (hfamily : p.hasFamily f) (hports : p.firstPort ≤ p.lastPort) (offset : Nat) :
    ∃ e q, p.lease f offset = some (e, q) := by
  obtain ⟨ip, hip, hf⟩ := List.any_eq_true.1 hfamily
  have hspan : 0 < p.span := by
    have hle := UInt16.le_iff_toNat_le.1 hports
    rw [span]
    omega
  have hfree : (p.free? f offset).isSome := by
    rw [free?, List.findSome?_isSome_iff]
    refine ⟨ip, List.mem_filter.2 ⟨hip, hf⟩, ?_⟩
    rw [List.find?_isSome]
    refine ⟨_, List.mem_map.2 ⟨0, List.mem_range.2 hspan, rfl⟩, ?_⟩
    rw [hleased]
    rfl
  obtain ⟨e, he⟩ := Option.isSome_iff_exists.1 hfree
  exact ⟨e, _, by rw [lease, he, Option.map_some]⟩

/-- A batch of releases takes its addresses off the lease and leaves the others on it. -/
theorem foldl_release {α : Type} (relay : α → Endpoint) (as : List α) (p : Pool) :
    as.foldl (fun p a => p.release (relay a)) p =
      { p with leased := p.leased.filter fun e => as.all fun a => relay a ≠ e } := by
  induction as generalizing p with
  | nil => simp
  | cons a as ih =>
    rw [List.foldl_cons, ih]
    simp only [release, List.filter_filter, List.all_cons, ne_comm, Bool.and_comm]

end NatRelay.Pool
