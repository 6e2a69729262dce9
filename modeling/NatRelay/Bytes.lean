import NatRelay.Numeral

/-! Byte strings, unsigned numbers in network order, and the padding of fields to four bytes. -/
namespace NatRelay

/-- A byte string. -/
abbrev Bytes := List UInt8

namespace Bytes

-- Powers are those of the core library in every scope.
attribute [local instance(5000)] instPowNat

/-- The `width` low-order bytes of `n`, most significant first. -/
def ofNat (width n : Nat) : Bytes := (Numeral.digits 256 width n).map UInt8.ofNat

/-- The number whose base-256 digits are the bytes. -/
def toNat (bytes : Bytes) : Nat := Numeral.value 256 (bytes.map UInt8.toNat)

@[simp] theorem length_ofNat (width n : Nat) : (ofNat width n).length = width := by simp [ofNat]

theorem toNat_ofNat {width n : Nat} (h : n < 256 ^ width) : toNat (ofNat width n) = n := by
  have : ((Numeral.digits 256 width n).map UInt8.ofNat).map UInt8.toNat =
      Numeral.digits 256 width n := by
    rw [List.map_map]
    conv => rhs; rw [← List.map_id (Numeral.digits 256 width n)]
    apply List.map_congr_left
    intro d hd
    have := Numeral.lt_of_mem_digits (by decide) hd
    simp [Nat.mod_eq_of_lt this]
  rw [toNat, ofNat, this, Numeral.value_digits h]

theorem toNat_lt (bytes : Bytes) : toNat bytes < 256 ^ bytes.length := by
  have := @Numeral.value_lt 256 (bytes.map UInt8.toNat) (by
    intro d hd
    obtain ⟨b, -, rfl⟩ := List.mem_map.1 hd
    exact b.toNat_lt)
  simpa [toNat] using this

theorem ofNat_toNat (bytes : Bytes) : ofNat bytes.length (toNat bytes) = bytes := by
  have := @Numeral.digits_value 256 (bytes.map UInt8.toNat) (by
    intro d hd
    obtain ⟨b, -, rfl⟩ := List.mem_map.1 hd
    exact b.toNat_lt)
  rw [List.length_map] at this
  rw [ofNat, toNat, this, List.map_map]
  conv => rhs; rw [← List.map_id bytes]
  apply List.map_congr_left
  simp

/-- Two bytes in network order. -/
def be16 (n : UInt16) : Bytes := ofNat 2 n.toNat

/-- Four bytes in network order. -/
def be32 (n : UInt32) : Bytes := ofNat 4 n.toNat

@[simp] theorem length_be16 (n : UInt16) : (be16 n).length = 2 := by simp [be16]

@[simp] theorem length_be32 (n : UInt32) : (be32 n).length = 4 := by simp [be32]

/-- The 16-bit number of two bytes in network order. -/
def word16 (high low : UInt8) : UInt16 := UInt16.ofNat (high.toNat * 256 + low.toNat)

/-- The 32-bit number of the bytes in network order. -/
def word32 (bytes : Bytes) : UInt32 := UInt32.ofNat (toNat bytes)

/-- The least multiple of four that is no smaller. -/
def paddedLength (n : Nat) : Nat := (n + 3) / 4 * 4

/-- Zeros that fill a field of `n` bytes up to a multiple of four. -/
def padding (n : Nat) : Bytes := List.replicate (paddedLength n - n) 0

theorem le_paddedLength (n : Nat) : n ≤ paddedLength n := by unfold paddedLength; omega

theorem paddedLength_lt (n : Nat) : paddedLength n < n + 4 := by unfold paddedLength; omega

theorem paddedLength_mod (n : Nat) : paddedLength n % 4 = 0 := by simp [paddedLength]

@[simp] theorem length_padding (n : Nat) : (padding n).length = paddedLength n - n := by
  simp [padding]

/-- The text in UTF-8. -/
def ofText (text : String) : Bytes := text.toByteArray.data.toList

end Bytes
end NatRelay
