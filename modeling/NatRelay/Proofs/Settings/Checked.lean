import NatRelay.Proofs.Stun.AttributeValue
import NatRelay.Settings.Basic

/-! What settings keep to that passed the checks. Main statement: `load_checked`. -/
namespace NatRelay.Settings
open Stun (bind_eq_ok)

/-- The rules that settings are checked by. -/
structure Checked (s : Settings) : Prop where
  realm : s.realm ≠ ""
  ports : s.firstPort ≤ s.lastPort
  default_pos : 0 < s.defaultLifetime
  default_le : s.defaultLifetime ≤ s.maxLifetime
  /-- Lifetimes are told in seconds. -/
  default_seconds : ∃ n, s.defaultLifetime = seconds n
  sweepInterval : 0 < s.sweepInterval
  interfaces : s.interfaces ≠ []

theorem check_eq_ok {rule : Prop} [Decidable rule] {name value : String} {u : Unit} :
    check rule name value = .ok u ↔ rule := by
  rw [check]
  split <;> simp_all

theorem lt_of_countAt {m : Assoc String Value} {key : String} {default bits n : Nat}
    (h : countAt m key default bits = .ok n) (hdefault : default < 1 <<< bits) :
    n < 1 <<< bits := by
  rw [countAt] at h
  split at h
  · obtain rfl := Except.ok.inj h
    exact hdefault
  · split at h
    · split at h
      · rename_i hlt
        obtain rfl := Except.ok.inj h
        exact hlt
      · cases h
    · cases h

theorem ne_nil_of_readInterfaces? {text : String} {interfaces : List Interface}
    (h : readInterfaces? text = some interfaces) : interfaces ≠ [] := by
  rw [readInterfaces?] at h
  obtain ⟨is, -, h⟩ := Option.bind_eq_some_iff.1 h
  split at h
  · cases h
  · rename_i hsome
    obtain rfl := Option.some.inj h
    simpa using hsome

theorem load_checked {vars : List (String × String)} {s : Settings} (h : load vars = .ok s) :
    s.Checked := by
  rw [load] at h
  obtain ⟨defaultLifetime, -, h⟩ := bind_eq_ok.1 h
  obtain ⟨maxLifetime, -, h⟩ := bind_eq_ok.1 h
  obtain ⟨permissionLifetime, -, h⟩ := bind_eq_ok.1 h
  obtain ⟨channelLifetime, -, h⟩ := bind_eq_ok.1 h
  obtain ⟨nonceTtl, -, h⟩ := bind_eq_ok.1 h
  obtain ⟨nonceCapacity, -, h⟩ := bind_eq_ok.1 h
  obtain ⟨authTimeout, -, h⟩ := bind_eq_ok.1 h
  obtain ⟨firstPort, hfirst, h⟩ := bind_eq_ok.1 h
  obtain ⟨lastPort, hlast, h⟩ := bind_eq_ok.1 h
  obtain ⟨maxAllocations, -, h⟩ := bind_eq_ok.1 h
  obtain ⟨userQuota, -, h⟩ := bind_eq_ok.1 h
  obtain ⟨sweepInterval, -, h⟩ := bind_eq_ok.1 h
  obtain ⟨maxPendingRequests, -, h⟩ := bind_eq_ok.1 h
  obtain ⟨_, hrealm, h⟩ := bind_eq_ok.1 h
  obtain ⟨_, hports, h⟩ := bind_eq_ok.1 h
  obtain ⟨_, hlifetimes, h⟩ := bind_eq_ok.1 h
  obtain ⟨_, hsweep, h⟩ := bind_eq_ok.1 h
  dsimp only at h
  split at h
  case h_2 => cases h
  rename_i logFormat _
  split at h
  case h_2 => cases h
  rename_i interfaces hinterfaces
  obtain ⟨users, -, h⟩ := bind_eq_ok.1 h
  obtain rfl := Except.ok.inj h
  obtain ⟨hpos, hle⟩ := check_eq_ok.1 hlifetimes
  have hports := check_eq_ok.1 hports
  have hfirst : firstPort < 65536 := lt_of_countAt hfirst (by decide)
  have hlast : lastPort < 65536 := lt_of_countAt hlast (by decide)
  exact {
    realm := check_eq_ok.1 hrealm
    ports := by
      rw [UInt16.le_iff_toNat_le, UInt16.toNat_ofNat_of_lt' hfirst, UInt16.toNat_ofNat_of_lt' hlast]
      exact hports
    default_pos := Nat.mul_pos hpos (by decide)
    default_le := Nat.mul_le_mul_right 1000 hle
    default_seconds := ⟨defaultLifetime, rfl⟩
    sweepInterval := Nat.mul_pos (check_eq_ok.1 hsweep) (by decide)
    interfaces := ne_nil_of_readInterfaces? hinterfaces }

end NatRelay.Settings
