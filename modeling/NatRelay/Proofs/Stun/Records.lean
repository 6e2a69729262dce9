import NatRelay.Proofs.Stun.Representable
import NatRelay.Stun.Wire

/-! Cutting a body into records: each lies at its offset, and the records in front of an offset
depend only on the bytes in front of it. -/
namespace NatRelay

namespace Bytes

theorem be16_word16 (high low : UInt8) : be16 (word16 high low) = [high, low] := by
  have hvalue : toNat [high, low] = high.toNat * 256 + low.toNat := by
    simp [toNat, Numeral.value]
  have hlt : toNat [high, low] < 65536 := by
    have hhigh := high.toNat_lt
    have hlow := low.toNat_lt
    omega
  rw [be16, word16, ← hvalue, UInt16.toNat_ofNat_of_lt' hlt]
  exact ofNat_toNat [high, low]

theorem be16_injective : Function.Injective be16 := by
  intro m n h
  obtain ⟨high, low, hm, hm', -⟩ := be16_eq m
  obtain ⟨high', low', hn, hn', -⟩ := be16_eq n
  rw [hm, hn] at h
  obtain ⟨rfl, rfl⟩ : high = high' ∧ low = low' := by simpa using h
  exact hm'.symm.trans hn'

theorem eq_be16_iff {high low : UInt8} {n : UInt16} :
    [high, low] = be16 n ↔ n = word16 high low := by
  rw [← be16_word16, be16_injective.eq_iff, eq_comm]

theorem be32_word32 {value : Bytes} (h : value.length = 4) :
    be32 (word32 value) = value := by
  have hlt := toNat_lt value
  rw [h] at hlt
  rw [be32, word32, UInt32.toNat_ofNat_of_lt' hlt, ← h, ofNat_toNat]

end Bytes

namespace Stun

/-- Whether a record is of a kind that protects. -/
def Record.isProtection (r : Record) : Bool := (Kind.ofCode? r.code).any Kind.isProtection

/-- Bytes that hold the record: its code, the length of the value, the value, and any bytes that
fill it up to a multiple of four. -/
def Record.Fills (r : Record) (bytes : Bytes) : Prop :=
  r.value.length ≤ 65535 ∧ ∃ pad : Bytes, pad.length < 4 ∧ (r.value.length + pad.length) % 4 = 0 ∧
    bytes = Bytes.be16 r.code ++ Bytes.be16 (UInt16.ofNat r.value.length) ++ r.value ++ pad

theorem Record.Fills.length_eq {r : Record} {bytes : Bytes} (h : r.Fills bytes) :
    bytes.length = 4 + Bytes.paddedLength r.value.length := by
  obtain ⟨-, pad, hshort, hwords, rfl⟩ := h
  simp only [List.length_append, Bytes.length_be16, Bytes.paddedLength]
  omega

/-- A record in front is cut off. -/
theorem splitRecords_fills {r : Record} {bytes : Bytes} (h : r.Fills bytes) (rest : Bytes) :
    splitRecords r.offset (bytes ++ rest) =
      (r :: (splitRecords (r.offset + bytes.length) rest).1,
        (splitRecords (r.offset + bytes.length) rest).2) := by
  rw [h.length_eq]
  obtain ⟨hlength, pad, hshort, hwords, rfl⟩ := h
  obtain ⟨c₁, c₀, hcode, hcode', -⟩ := Bytes.be16_eq r.code
  obtain ⟨l₁, l₀, hsize, hsize', -⟩ := Bytes.be16_eq (UInt16.ofNat r.value.length)
  have hvalue : (Bytes.word16 l₁ l₀).toNat = r.value.length := by
    rw [hsize', UInt16.toNat_ofNat_of_lt' (Nat.lt_succ_of_le hlength)]
  have hpadded : (r.value ++ pad).length = Bytes.paddedLength r.value.length := by
    simp only [List.length_append, Bytes.paddedLength]
    omega
  have hfits : Bytes.paddedLength r.value.length ≤ (r.value ++ pad ++ rest).length := by
    rw [List.length_append, hpadded]
    exact Nat.le_add_right _ _
  have hbytes : Bytes.be16 r.code ++ Bytes.be16 (UInt16.ofNat r.value.length) ++ r.value ++ pad ++
      rest = c₁ :: c₀ :: l₁ :: l₀ :: (r.value ++ pad ++ rest) := by
    simp [hcode, hsize]
  rw [hbytes, splitRecords, hvalue]
  simp only [hfits, if_true, hcode', ← Nat.add_assoc]
  rw [← hpadded, List.drop_left, hpadded, List.append_assoc, List.take_left]

/-- Too few bytes for the head of a record are no record. -/
theorem splitRecords_short {offset : Nat} {bytes : Bytes} (h : bytes ≠ [])
    (hlength : bytes.length < 4) : splitRecords offset bytes = ([], false) := by
  match bytes with
  | [] => exact absurd rfl h
  | [_] | [_, _] | [_, _, _] => simp [splitRecords]
  | _ :: _ :: _ :: _ :: _ =>
    simp only [List.length_cons] at hlength
    omega

/-- The first record and what is behind it. -/
theorem splitRecords_eq_cons {offset : Nat} {bytes : Bytes} {r : Record} {rs : List Record}
    (h : (splitRecords offset bytes).1 = r :: rs) :
    ∃ a b c d rest, bytes = a :: b :: c :: d :: rest ∧
      Bytes.paddedLength (Bytes.word16 c d).toNat ≤ rest.length ∧
      r = ⟨offset, Bytes.word16 a b, rest.take (Bytes.word16 c d).toNat⟩ ∧
      rs = (splitRecords (offset + 4 + Bytes.paddedLength (Bytes.word16 c d).toNat)
        (rest.drop (Bytes.paddedLength (Bytes.word16 c d).toNat))).1 := by
  match bytes with
  | [] | [_] | [_, _] | [_, _, _] => simp [splitRecords] at h
  | a :: b :: c :: d :: rest =>
    rw [splitRecords] at h
    dsimp only at h
    split at h
    · rename_i hsize
      obtain ⟨rfl, rfl⟩ := List.cons.inj h
      exact ⟨a, b, c, d, rest, rfl, hsize, rfl, rfl⟩
    · cases h

/-- What is cut off first fills the bytes in front of what is cut next. -/
theorem fills_of_splitRecords {offset : Nat} {bytes : Bytes} {r : Record} {rs : List Record}
    (h : (splitRecords offset bytes).1 = r :: rs) :
    ∃ head rest, bytes = head ++ rest ∧ r.offset = offset ∧ r.Fills head := by
  obtain ⟨a, b, c, d, rest, rfl, hsize, rfl, -⟩ := splitRecords_eq_cons h
  have hle := Bytes.le_paddedLength (Bytes.word16 c d).toNat
  have hlt := Bytes.paddedLength_lt (Bytes.word16 c d).toNat
  have hmod := Bytes.paddedLength_mod (Bytes.word16 c d).toNat
  generalize hpadded : Bytes.paddedLength (Bytes.word16 c d).toNat = size at *
  have hlength : (rest.take (Bytes.word16 c d).toNat).length = (Bytes.word16 c d).toNat := by
    rw [List.length_take, Nat.min_eq_left (Nat.le_trans hle hsize)]
  have hpad : ((rest.take size).drop (Bytes.word16 c d).toNat).length =
      size - (Bytes.word16 c d).toNat := by
    rw [List.length_drop, List.length_take, Nat.min_eq_left hsize]
  refine ⟨a :: b :: c :: d :: rest.take size, rest.drop size, ?_, rfl, ?_⟩
  · simp
  refine ⟨?_, (rest.take size).drop (Bytes.word16 c d).toNat, by omega, ?_, ?_⟩
  · rw [hlength]
    exact Nat.le_of_lt_succ (Bytes.word16 c d).toNat_lt
  · rw [hlength, hpad]
    omega
  · have htake : rest.take (Bytes.word16 c d).toNat =
        (rest.take size).take (Bytes.word16 c d).toNat := by
      rw [List.take_take, Nat.min_eq_left hle]
    rw [hlength, UInt16.ofNat_toNat, Bytes.be16_word16, Bytes.be16_word16]
    change _ = [a, b, c, d] ++ rest.take (Bytes.word16 c d).toNat ++ _
    rw [htake, List.append_assoc, List.take_append_drop]
    rfl

/-- A record takes four bytes at least. -/
theorem length_splitRecords (offset : Nat) (bytes : Bytes) :
    4 * (splitRecords offset bytes).1.length ≤ bytes.length := by
  fun_induction splitRecords offset bytes with
  | case1 | case3 | case4 => exact Nat.zero_le _
  | case2 offset a b c d rest length size hsize records whole hsplit ih =>
    rw [hsplit, List.length_drop] at ih
    dsimp only at ih
    simp only [List.length_cons]
    omega

theorem le_offset {offset : Nat} {bytes : Bytes} {r : Record}
    (h : r ∈ (splitRecords offset bytes).1) : offset ≤ r.offset := by
  generalize hrecords : (splitRecords offset bytes).1 = records at h
  induction records generalizing offset bytes with
  | nil => simp at h
  | cons x xs ih =>
    obtain ⟨a, b, c, d, rest, rfl, -, rfl, rfl⟩ := splitRecords_eq_cons hrecords
    rcases List.mem_cons.1 h with rfl | h
    · exact Nat.le_refl _
    · have hle := ih rfl h
      omega

/-- A record lies at its offset. -/
theorem of_mem_splitRecords {offset : Nat} {bytes : Bytes} {r : Record}
    (h : r ∈ (splitRecords offset bytes).1) :
    (bytes.drop (r.offset - offset)).take 2 = Bytes.be16 r.code ∧
      (bytes.drop (r.offset - offset + 4)).take r.value.length = r.value := by
  generalize hrecords : (splitRecords offset bytes).1 = records at h
  induction records generalizing offset bytes with
  | nil => simp at h
  | cons x xs ih =>
    obtain ⟨a, b, c, d, rest, rfl, hsize, rfl, rfl⟩ := splitRecords_eq_cons hrecords
    rcases List.mem_cons.1 h with rfl | h
    · have hlength := Nat.le_trans (Bytes.le_paddedLength _) hsize
      simp [Bytes.be16_word16, Nat.min_eq_left hlength]
    · have hle := le_offset h
      generalize Bytes.paddedLength (Bytes.word16 c d).toNat = size at *
      have hdrop (k : Nat) : (a :: b :: c :: d :: rest).drop (r.offset - offset + k) =
          (rest.drop size).drop (r.offset - (offset + 4 + size) + k) := by
        have hoffset : r.offset - offset + k =
            size + (r.offset - (offset + 4 + size) + k) + 4 := by omega
        rw [hoffset, List.drop_drop]
        rfl
      have hlies := ih rfl h
      rwa [← hdrop 4, ← Nat.add_zero (_ - _), ← hdrop 0] at hlies

/-- Bytes that agree up to an offset at which both have a record are cut alike in front of it. -/
theorem splitRecords_agree {offset n : Nat} {bytes bytes' : Bytes} {r r' : Record}
    (h : r ∈ (splitRecords offset bytes).1) (h' : r' ∈ (splitRecords offset bytes').1)
    (hr : r.offset = offset + n) (hr' : r'.offset = offset + n)
    (hagree : bytes'.take n = bytes.take n) :
    ∃ before after after', (splitRecords offset bytes).1 = before ++ r :: after ∧
      (splitRecords offset bytes').1 = before ++ r' :: after' := by
  generalize hrecords : (splitRecords offset bytes).1 = records at h
  induction records generalizing offset n bytes bytes' with
  | nil => simp at h
  | cons x xs ih =>
    generalize hrecords' : (splitRecords offset bytes').1 = records' at h'
    cases records' with
    | nil => simp at h'
    | cons x' xs' =>
      obtain ⟨a, b, c, d, rest, rfl, hsize, rfl, rfl⟩ := splitRecords_eq_cons hrecords
      obtain ⟨a', b', c', d', rest', rfl, -, rfl, rfl⟩ := splitRecords_eq_cons hrecords'
      rcases List.mem_cons.1 h with rfl | hmem
      · obtain rfl : n = 0 := Nat.left_eq_add.1 hr
        rcases List.mem_cons.1 h' with rfl | hmem'
        · exact ⟨[], _, _, rfl, rfl⟩
        · have hle := le_offset hmem'
          omega
      · have hle := le_offset hmem
        obtain ⟨m, rfl⟩ : ∃ m, n = Bytes.paddedLength (Bytes.word16 c d).toNat + m + 4 :=
          ⟨n - Bytes.paddedLength (Bytes.word16 c d).toNat - 4, by omega⟩
        simp only [List.take_succ_cons, List.cons.injEq] at hagree
        obtain ⟨rfl, rfl, rfl, rfl, hrest⟩ := hagree
        rcases List.mem_cons.1 h' with rfl | hmem'
        · simp at hr'
        · have htail : (rest'.drop (Bytes.paddedLength (Bytes.word16 c' d').toNat)).take m =
              (rest.drop (Bytes.paddedLength (Bytes.word16 c' d').toNat)).take m := by
            rw [List.take_drop, List.take_drop, hrest]
          have hvalue : rest'.take (Bytes.word16 c' d').toNat =
              rest.take (Bytes.word16 c' d').toNat := by
            have htake := congrArg (List.take (Bytes.word16 c' d').toNat) hrest
            have hle := Bytes.le_paddedLength (Bytes.word16 c' d').toNat
            rwa [List.take_take, List.take_take, Nat.min_eq_left (by omega)] at htake
          obtain ⟨before, after, after', hsplit, hsplit'⟩ :=
            ih hmem' (by omega) (by omega) htail rfl hmem
          rw [hsplit, hsplit', hvalue]
          exact ⟨_ :: before, after, after', rfl, rfl⟩

end Stun
end NatRelay
