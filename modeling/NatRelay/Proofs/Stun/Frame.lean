import NatRelay.Proofs.Stun.Records
import NatRelay.Stun.Datagram

/-! ChannelData frames as they are written. -/
namespace NatRelay.Stun

theorem div_of_isChannelNumber {number : UInt16} (h : isChannelNumber number) :
    number.toNat / 0x4000 = 1 := by
  simp only [isChannelNumber, Bool.and_eq_true, decide_eq_true_iff, UInt16.le_iff_toNat_le,
    UInt16.reduceToNat] at h
  omega

/-- The bytes of a frame, and what is read from its front. -/
theorem ChannelData.encode_eq_ok {c : ChannelData} {bytes : Bytes} (h : c.encode = .ok bytes) :
    ∃ n₁ n₀ l₁ l₀ body, bytes = n₁ :: n₀ :: l₁ :: l₀ :: body ∧ Bytes.word16 n₁ n₀ = c.number ∧
      n₁.toNat / 64 = c.number.toNat / 0x4000 ∧ (Bytes.word16 l₁ l₀).toNat = c.data.length ∧
      body.take c.data.length = c.data ∧ body.length = Bytes.paddedLength c.data.length := by
  rw [encode] at h
  split at h
  · cases h
  rename_i hlength
  obtain rfl := Except.ok.inj h
  obtain ⟨n₁, n₀, hbe, hword, hhigh⟩ := Bytes.be16_eq c.number
  obtain ⟨l₁, l₀, hbe', hword', -⟩ := Bytes.be16_eq (UInt16.ofNat c.data.length)
  refine ⟨n₁, n₀, l₁, l₀, c.data ++ Bytes.padding c.data.length, ?_, hword, ?_, ?_, ?_, ?_⟩
  · rw [hbe, hbe']
    rfl
  · rw [hhigh, Nat.div_div_eq_div_mul]
  · rw [hword', UInt16.toNat_ofNat_of_lt' (Nat.lt_succ_of_le (Nat.le_of_not_lt hlength))]
  · rw [List.take_left]
  · have hle := Bytes.le_paddedLength c.data.length
    rw [List.length_append, Bytes.length_padding]
    omega

/-- The bytes of a frame are never as many as a message with that length field has. -/
theorem ChannelData.received_of_encode {c : ChannelData} {bytes : Bytes}
    (h : c.encode = .ok bytes) : Received.decode bytes = .error .invalidInput := by
  obtain ⟨n₁, n₀, l₁, l₀, body, rfl, -, -, hsize, -, hbody⟩ := encode_eq_ok h
  have hshape : (n₁ :: n₀ :: l₁ :: l₀ :: body).length ≠ headerLength + c.data.length := by
    have hlt := Bytes.paddedLength_lt c.data.length
    simp only [List.length_cons, hbody, headerLength]
    omega
  rw [Received.decode, hsize]
  exact if_pos (.inr (.inr hshape))

/-- A frame whose number has the top bits of a channel number is read as what was framed. With
another number it is read as nothing. -/
theorem ChannelData.decode_encoded {c : ChannelData} {bytes : Bytes} (h : c.encode = .ok bytes) :
    Datagram.decode bytes =
      if c.number.toNat / 0x4000 = 1 then .ok (.channelData c) else .error .invalidInput := by
  have hmessage := received_of_encode h
  obtain ⟨n₁, n₀, l₁, l₀, body, rfl, hword, hfirst, hsize, hdata, hbody⟩ := encode_eq_ok h
  simp only [Datagram.decode, hfirst]
  split
  · rename_i hzero
    rw [hmessage, hzero]
    rfl
  · rename_i hone
    have hframe : decode (n₁ :: n₀ :: l₁ :: l₀ :: body) = .ok c := by
      simp only [decode, hword, hsize, hone, hbody, ne_eq, not_true_eq_false, if_false, and_false,
        hdata]
    rw [hframe, if_pos hone]
    rfl
  · rename_i hother
    rw [if_neg hother]

theorem ChannelData.decode_of_encode {c : ChannelData} {bytes : Bytes}
    (h : c.encode = .ok bytes) (hnumber : c.number.toNat / 0x4000 = 1) :
    Datagram.decode bytes = .ok (.channelData c) := by
  rw [decode_encoded h, if_pos hnumber]

end NatRelay.Stun
