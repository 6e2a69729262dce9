import NatRelay.Proofs.Stun.Frame
import NatRelay.Proofs.Stun.Packet
import NatRelay.Proofs.Stun.Positional

/-! Telling datagrams apart. `IsFrame` says which bytes hold a ChannelData frame, and just these are
read as one (`decode_eq_channelData`): the top bits of the first byte leave no message among them. A
reader that goes by position, with masks and shifts, tells them apart in the same way
(`Datagram.decodeAt_eq`, `peekClassAt_eq`). Main statement: `decode_frames`. -/
namespace NatRelay.Stun
open Positional

-- Powers are those of the core library in every scope.
attribute [local instance(5000)] instPowNat

/-! ### Fields of bits -/

/-- A mask of `width` ones leaves the bits from `low` on. -/
theorem and_field (x low width : Nat) :
    x &&& (2 ^ width - 1) * 2 ^ low = x / 2 ^ low % 2 ^ width * 2 ^ low := by
  apply Nat.eq_of_testBit_eq
  intro i
  rw [Nat.testBit_and, Nat.testBit_mul_two_pow, Nat.testBit_mul_two_pow,
    Nat.testBit_two_pow_sub_one, Nat.testBit_mod_two_pow, Nat.testBit_div_two_pow]
  by_cases h : low ≤ i
  · simp [h, Nat.sub_add_cancel h, Bool.and_comm]
  · simp [h]

/-- Fields that do not overlap are added. -/
theorem or_field (low x : Nat) {y : Nat} (h : y < 2 ^ low) :
    y ||| x * 2 ^ low = y + x * 2 ^ low := by
  rw [Nat.or_comm, Nat.mul_comm, ← Nat.two_pow_add_eq_or_of_lt h, Nat.add_comm]

/-- The class in a message type, by shifts and masks. -/
def classBits (type : UInt16) : UInt16 :=
  (type >>> (4 : UInt16) &&& (1 : UInt16)) ||| (type >>> (7 : UInt16) &&& (2 : UInt16))

/-- The method in a message type, by masks and shifts. -/
def methodBits (type : UInt16) : UInt16 :=
  (type &&& 0x000F) ||| (type &&& 0x00E0) >>> (1 : UInt16) ||| (type &&& 0x3E00) >>> (2 : UInt16)

theorem toNat_classBits (type : UInt16) :
    (classBits type).toNat = type.toNat / 16 % 2 + type.toNat / 256 % 2 * 2 := by
  have hhigh : type.toNat / 128 &&& 2 = type.toNat / 256 % 2 * 2 := by
    simpa [Nat.div_div_eq_div_mul] using and_field (type.toNat / 128) 1 1
  have hor := or_field 1 (type.toNat / 256 % 2)
    (Nat.mod_lt (type.toNat / 16) Nat.two_pos)
  simp only [classBits, UInt16.toNat_or, UInt16.toNat_and, UInt16.toNat_shiftRight,
    UInt16.reduceToNat, Nat.reduceMod, Nat.shiftRight_eq_div_pow, Nat.reducePow,
    Nat.and_one_is_mod, hhigh]
  exact hor

theorem toNat_methodBits (type : UInt16) : (methodBits type).toNat = methodCode type := by
  have hlow : type.toNat &&& 15 = type.toNat % 16 := by
    simpa using and_field type.toNat 0 4
  have hmiddle : (type.toNat &&& 224) / 2 = type.toNat / 32 % 8 * 16 := by
    have hfield : type.toNat &&& 224 = type.toNat / 32 % 8 * 32 := by
      simpa using and_field type.toNat 5 3
    omega
  have hhigh : (type.toNat &&& 15872) / 4 = type.toNat / 512 % 32 * 128 := by
    have hfield : type.toNat &&& 15872 = type.toNat / 512 % 32 * 512 := by
      simpa using and_field type.toNat 9 5
    omega
  have hfront : type.toNat % 16 ||| type.toNat / 32 % 8 * 16 =
      type.toNat % 16 + type.toNat / 32 % 8 * 16 :=
    or_field 4 (type.toNat / 32 % 8) (Nat.mod_lt type.toNat (by decide : 16 > 0))
  have hwhole : type.toNat % 16 + type.toNat / 32 % 8 * 16 ||| type.toNat / 512 % 32 * 128 =
      type.toNat % 16 + type.toNat / 32 % 8 * 16 + type.toNat / 512 % 32 * 128 :=
    or_field 7 (type.toNat / 512 % 32) (by omega)
  simp only [methodBits, UInt16.toNat_or, UInt16.toNat_and, UInt16.toNat_shiftRight,
    UInt16.reduceToNat, Nat.reduceMod, Nat.shiftRight_eq_div_pow, Nat.reducePow, hlow, hmiddle,
    hhigh]
  rw [methodCode, hfront, hwhole]

/-- The two bits in front of a number. -/
theorem topBits_eq (n : UInt16) : (n &&& 0xC000).toNat = n.toNat / 0x4000 * 0x4000 := by
  have hfield : n.toNat &&& 49152 = n.toNat / 16384 % 4 * 16384 := by
    simpa using and_field n.toNat 14 2
  have hlt := n.toNat_lt
  rw [UInt16.toNat_and]
  simp only [UInt16.reduceToNat, hfield]
  omega

/-- A message type taken apart by masks and shifts. -/
def splitType (type : UInt16) : Except Error (Method × Class) :=
  if type &&& 0xC000 ≠ 0 then .error .invalidInput
  else
    match Method.ofCode? (methodBits type).toNat with
    | some m => .ok (m, .ofBits (classBits type).toNat)
    | none => .error .unknownMethod

theorem splitType_eq (type : UInt16) : splitType type = splitMessageType type := by
  have htop : type &&& 0xC000 ≠ 0 ↔ type ≥ 0x4000 := by
    rw [← UInt16.toNat_inj.ne, topBits_eq, ge_iff_le, UInt16.le_iff_toNat_le]
    simp only [UInt16.reduceToNat]
    omega
  rw [splitType, splitMessageType, toNat_methodBits, toNat_classBits]
  simp only [htop]
  rfl

/-! ### By position -/

/-- A frame by position. -/
def ChannelData.decodeAt (b : Bytes) : Positional ChannelData :=
  if b.length < 4 then settled (.error .invalidInput)
  else do
    let number ← word16At b 0
    if number &&& 0xC000 ≠ 0x4000 then settled (.error .invalidInput)
    else do
      let length ← word16At b 2
      if b.length - 4 ≠ length.toNat ∧ b.length - 4 ≠ Bytes.paddedLength length.toNat then
        settled (.error .invalidInput)
      else do
        let data ← slice b 4 (4 + length.toNat)
        pure ⟨number, data⟩

/-- A datagram by position. -/
def Datagram.decodeAt (b : Bytes) : Positional Datagram :=
  if b.length < 4 then settled (.error .invalidInput)
  else do
    let first ← byteAt b 0
    if first >>> (6 : UInt8) = 0 then .message <$> Stun.decodeAt b
    else if first >>> (6 : UInt8) = 1 then .channelData <$> ChannelData.decodeAt b
    else settled (.error .invalidInput)

/-- The class by position. -/
def peekClassAt (b : Bytes) : Positional (Option Class) :=
  if b.length < 2 then pure none
  else do
    let first ← byteAt b 0
    if first >>> (6 : UInt8) ≠ 0 then pure none
    else do
      let type ← word16At b 0
      pure (some (.ofBits (classBits type).toNat))

theorem shiftRight_six (n k : UInt8) : n >>> (6 : UInt8) = k ↔ n.toNat / 64 = k.toNat := by
  rw [← UInt8.toNat_inj, UInt8.toNat_shiftRight]
  simp only [UInt8.reduceToNat, Nat.reduceMod, Nat.shiftRight_eq_div_pow, Nat.reducePow]

theorem ChannelData.decodeAt_eq (b : Bytes) : decodeAt b = settled (decode b) := by
  match b with
  | [] | [_] | [_, _] | [_, _, _] => rfl
  | n₁ :: n₀ :: l₁ :: l₀ :: body =>
    have htop : Bytes.word16 n₁ n₀ &&& 0xC000 ≠ 0x4000 ↔
        (Bytes.word16 n₁ n₀).toNat / 0x4000 ≠ 1 := by
      rw [← UInt16.toNat_inj.ne, topBits_eq]
      simp only [UInt16.reduceToNat]
      omega
    have hbody : (n₁ :: n₀ :: l₁ :: l₀ :: body).length - 4 = body.length := rfl
    have hlong : ¬ (n₁ :: n₀ :: l₁ :: l₀ :: body).length < 4 := by simp
    rw [decodeAt, if_neg hlong, word16At_eq rfl, settled_ok_bind, decode]
    simp only [htop, hbody]
    split
    · rfl
    rw [word16At_eq rfl, settled_ok_bind]
    split
    · rfl
    · rename_i hsize
      have hle := Bytes.le_paddedLength (Bytes.word16 l₁ l₀).toNat
      rw [slice_eq (Nat.le_add_right ..) (by simp only [List.length_cons]; omega)]
      simp only [List.take_add, List.drop_append, List.take_succ_cons, List.drop_succ_cons]
      rfl

/-- Reading by position never leaves the bytes, and tells datagrams apart as reading by pattern
does. -/
theorem Datagram.decodeAt_eq (b : Bytes) : decodeAt b = settled (decode b) := by
  match b with
  | [] | [_] | [_, _] | [_, _, _] => rfl
  | first :: x :: y :: z :: rest =>
    have hlong : ¬ (first :: x :: y :: z :: rest).length < 4 := by simp
    rw [decodeAt, if_neg hlong, byteAt_eq rfl, settled_ok_bind, Stun.decodeAt_eq,
      ChannelData.decodeAt_eq, settled_map, settled_map, decode]
    simp only [shiftRight_six, UInt8.reduceToNat]
    rcases first.toNat / 64 with _ | _ | _
    · rfl
    · rfl
    · rfl

theorem peekClassAt_eq (b : Bytes) : peekClassAt b = pure (peekClass b) := by
  match b with
  | [] | [_] => rfl
  | high :: low :: rest =>
    have hlong : ¬ (high :: low :: rest).length < 2 := by simp
    rw [peekClassAt, if_neg hlong, byteAt_eq rfl, settled_ok_bind, word16At_eq rfl,
      settled_ok_bind, peekClass, toNat_classBits]
    simp only [ne_eq, shiftRight_six, UInt8.reduceToNat, ite_not]
    split <;> rfl

/-! ### Frames -/

/-- The length that a frame declares. -/
def declaredLength (bytes : Bytes) : Nat := Bytes.toNat ((bytes.drop 2).take 2)

namespace ChannelData
variable {c : ChannelData} {bytes : Bytes}

/-- A frame without its padding. -/
def bare (c : ChannelData) : Bytes :=
  Bytes.be16 c.number ++ Bytes.be16 (UInt16.ofNat c.data.length) ++ c.data

/-- Bytes that hold a frame: the number with the top bits 01, the length of the data and the data,
with nothing behind it or just as much as fills it up to whole words. -/
structure IsFrame (c : ChannelData) (bytes : Bytes) : Prop where
  least : 0x4000 ≤ c.number
  greatest : c.number ≤ 0x7FFF
  room : c.data.length ≤ 65535
  layout : ∃ tail, bytes = c.bare ++ tail ∧
    (tail = [] ∨ c.data.length + tail.length = Bytes.paddedLength c.data.length)

theorem div_eq_one_iff {n : UInt16} : n.toNat / 0x4000 = 1 ↔ 0x4000 ≤ n ∧ n ≤ 0x7FFF := by
  rw [UInt16.le_iff_toNat_le, UInt16.le_iff_toNat_le]
  simp only [UInt16.reduceToNat]
  omega

/-- A number and a length are read from the front of whatever follows them. -/
theorem decode_eq (number length : UInt16) (body : Bytes) :
    decode (Bytes.be16 number ++ Bytes.be16 length ++ body) =
      if number.toNat / 0x4000 ≠ 1 then .error .invalidInput
      else if body.length ≠ length.toNat ∧ body.length ≠ Bytes.paddedLength length.toNat then
        .error .invalidInput
      else .ok ⟨number, body.take length.toNat⟩ := by
  obtain ⟨n₁, n₀, hnumber, hnumber', -⟩ := Bytes.be16_eq number
  obtain ⟨l₁, l₀, hlength, hlength', -⟩ := Bytes.be16_eq length
  rw [hnumber, hlength]
  simp only [List.cons_append, List.nil_append, decode, hnumber', hlength']

/-- Whatever is read has a number and a length in front. -/
theorem exists_front (h : decode bytes = .ok c) :
    ∃ number length body, bytes = Bytes.be16 number ++ Bytes.be16 length ++ body := by
  match bytes with
  | [] | [_] | [_, _] | [_, _, _] => cases h
  | n₁ :: n₀ :: l₁ :: l₀ :: body =>
    refine ⟨Bytes.word16 n₁ n₀, Bytes.word16 l₁ l₀, body, ?_⟩
    rw [Bytes.be16_word16, Bytes.be16_word16]
    rfl

/-- Just the bytes that hold a frame are read as one. -/
theorem decode_eq_ok : decode bytes = .ok c ↔ c.IsFrame bytes := by
  constructor
  · intro h
    obtain ⟨number, length, body, rfl⟩ := exists_front h
    rw [decode_eq] at h
    split at h
    · cases h
    rename_i hnumber
    split at h
    · cases h
    rename_i hbody
    obtain rfl := Except.ok.inj h
    obtain ⟨hleast, hgreatest⟩ := div_eq_one_iff.1 (not_not.1 hnumber)
    have hlt := length.toNat_lt
    have hle := Bytes.le_paddedLength length.toNat
    have htake : (body.take length.toNat).length = length.toNat := by
      rw [List.length_take]
      omega
    refine ⟨hleast, hgreatest, ?_, body.drop length.toNat, ?_, ?_⟩
    · rw [htake]
      omega
    · rw [bare, htake, UInt16.ofNat_toNat, List.append_assoc _ (body.take _),
        List.take_append_drop]
    · rw [htake, List.length_drop, List.drop_eq_nil_iff]
      omega
  · rintro ⟨hleast, hgreatest, hroom, tail, rfl, htail⟩
    have hlength : (UInt16.ofNat c.data.length).toNat = c.data.length :=
      UInt16.toNat_ofNat_of_lt' (Nat.lt_succ_of_le hroom)
    have hbody : ¬ ((c.data ++ tail).length ≠ c.data.length ∧
        (c.data ++ tail).length ≠ Bytes.paddedLength c.data.length) := by
      rw [List.length_append]
      rcases htail with rfl | htail
      · simp
      · simp [htail]
    rw [bare, List.append_assoc _ c.data, decode_eq, hlength,
      if_neg (not_not.2 (div_eq_one_iff.2 ⟨hleast, hgreatest⟩)), if_neg hbody, List.take_left]

theorem encode_eq (c : ChannelData) : c.encode =
    if c.data.length ≤ 65535 then .ok (c.bare ++ Bytes.padding c.data.length)
    else .error .invalidInput :=
  record_eq c.number c.data

/-- With or without its padding, a frame is one. -/
theorem isFrame_bare (hleast : 0x4000 ≤ c.number) (hgreatest : c.number ≤ 0x7FFF)
    (hroom : c.data.length ≤ 65535) :
    c.IsFrame c.bare ∧ c.IsFrame (c.bare ++ Bytes.padding c.data.length) := by
  refine ⟨⟨hleast, hgreatest, hroom, [], (List.append_nil _).symm, .inl rfl⟩,
    ⟨hleast, hgreatest, hroom, _, rfl, .inr ?_⟩⟩
  rw [Bytes.length_padding, Nat.add_sub_cancel' (Bytes.le_paddedLength _)]

theorem length_bare (c : ChannelData) : c.bare.length = 4 + c.data.length := by
  simp only [bare, List.length_append, Bytes.length_be16]

/-- A frame declares the length of its data, and begins as it does without padding. -/
theorem IsFrame.front (h : c.IsFrame bytes) :
    declaredLength bytes = c.data.length ∧ bytes.take (4 + c.data.length) = c.bare ∧
      4 + c.data.length ≤ bytes.length := by
  obtain ⟨-, -, hroom, tail, rfl, -⟩ := h
  refine ⟨?_, ?_, ?_⟩
  · have hsize := Bytes.length_be16 (UInt16.ofNat c.data.length)
    rw [declaredLength, bare, List.append_assoc, List.append_assoc,
      List.drop_left' (Bytes.length_be16 c.number), List.take_left' hsize, toNat_be16 hroom]
  · exact List.take_left' c.length_bare
  · rw [List.length_append, length_bare]
    exact Nat.le_add_right ..

end ChannelData

namespace Datagram
variable {c : ChannelData} {bytes : Bytes}

/-- What has the top bits 01 is read as a frame or not at all. -/
theorem decode_of_top {number : UInt16} (hleast : 0x4000 ≤ number) (hgreatest : number ≤ 0x7FFF)
    (length : UInt16) (body : Bytes) :
    decode (Bytes.be16 number ++ Bytes.be16 length ++ body) =
      .channelData <$> ChannelData.decode (Bytes.be16 number ++ Bytes.be16 length ++ body) := by
  obtain ⟨n₁, n₀, hnumber, -, hhigh⟩ := Bytes.be16_eq number
  obtain ⟨l₁, l₀, hlength, -, -⟩ := Bytes.be16_eq length
  have htop : n₁.toNat / 64 = 1 := by
    rw [hhigh, Nat.div_div_eq_div_mul]
    exact ChannelData.div_eq_one_iff.2 ⟨hleast, hgreatest⟩
  rw [hnumber, hlength]
  simp only [List.cons_append, List.nil_append, decode, htop]

/-- Just the bytes that hold a frame are taken for one. -/
theorem decode_eq_channelData : decode bytes = .ok (.channelData c) ↔ c.IsFrame bytes := by
  constructor
  · intro h
    rw [decode.eq_def] at h
    repeat' split at h
    · obtain ⟨r, -, heq⟩ := map_eq_ok.1 h
      cases heq
    · obtain ⟨c', hc', heq⟩ := map_eq_ok.1 h
      rw [← Datagram.channelData.inj heq]
      exact ChannelData.decode_eq_ok.1 hc'
    · cases h
    · cases h
  · intro h
    obtain ⟨hleast, hgreatest, -, tail, rfl, -⟩ := id h
    have hread := ChannelData.decode_eq_ok.2 h
    rw [ChannelData.bare, List.append_assoc _ c.data] at hread ⊢
    rw [decode_of_top hleast hgreatest, hread]
    rfl

/-- A message that was written is no frame. -/
theorem not_isFrame_of_encode {m : Message} {key? : Option Key} {fingerprint : Bool}
    (h : m.encode key? fingerprint = .ok bytes) : ¬ c.IsFrame bytes := by
  intro hframe
  obtain ⟨r, heq, -⟩ := Message.head_of_encode h (decode_eq_channelData.2 hframe)
  cases heq

end Datagram

/-- Every number with the top bits 01 and up to 65535 bytes of data make a frame, which is read back
with its padding and without it; more data make none. Whatever is read as a frame is written again
as the front that it declares, padded with zeros. A frame whose body has neither the declared length
nor that length padded is refused. No message that is written is read as a frame, and no frame as a
message. -/
theorem decode_frames :
    (∀ c : ChannelData, 0x4000 ≤ c.number → c.number ≤ 0x7FFF → c.data.length ≤ 65535 →
      ∃ bytes, c.encode = .ok bytes ∧ Datagram.decode bytes = .ok (.channelData c) ∧
        Datagram.decode (bytes.take (4 + c.data.length)) = .ok (.channelData c)) ∧
    (∀ c : ChannelData, 65535 < c.data.length → c.encode = .error .invalidInput) ∧
    (∀ bytes c, Datagram.decode bytes = .ok (.channelData c) →
      4 + declaredLength bytes ≤ bytes.length ∧
      c.encode = .ok
        (bytes.take (4 + declaredLength bytes) ++ Bytes.padding (declaredLength bytes))) ∧
    (∀ (number length : UInt16) (body : Bytes), 0x4000 ≤ number → number ≤ 0x7FFF →
      body.length ≠ length.toNat → body.length ≠ Bytes.paddedLength length.toNat →
      Datagram.decode (Bytes.be16 number ++ Bytes.be16 length ++ body) = .error .invalidInput) ∧
    (∀ (m : Message) (key? : Option Key) (fingerprint : Bool) (bytes : Bytes),
      m.encode key? fingerprint = .ok bytes →
      ∀ c, Datagram.decode bytes ≠ .ok (.channelData c) ∧ ChannelData.decode bytes ≠ .ok c) ∧
    (∀ (c : ChannelData) (bytes : Bytes), 0x4000 ≤ c.number → c.number ≤ 0x7FFF →
      c.encode = .ok bytes →
      ∀ r, Datagram.decode bytes ≠ .ok (.message r) ∧ Received.decode bytes ≠ .ok r) := by
  refine ⟨?_, ?_, ?_, ?_, ?_, ?_⟩
  · intro c hleast hgreatest hroom
    obtain ⟨hbare, hpadded⟩ := ChannelData.isFrame_bare hleast hgreatest hroom
    refine ⟨_, by rw [ChannelData.encode_eq, if_pos hroom],
      Datagram.decode_eq_channelData.2 hpadded, ?_⟩
    rw [hpadded.front.2.1]
    exact Datagram.decode_eq_channelData.2 hbare
  · intro c hlong
    rw [ChannelData.encode_eq, if_neg (Nat.not_le.2 hlong)]
  · intro bytes c h
    have hframe := Datagram.decode_eq_channelData.1 h
    obtain ⟨hdeclared, hfront, hlength⟩ := hframe.front
    rw [hdeclared, hfront, ChannelData.encode_eq, if_pos hframe.room]
    exact ⟨hlength, rfl⟩
  · intro number length body hleast hgreatest hbare hpadded
    have hnumber := ChannelData.div_eq_one_iff.2 ⟨hleast, hgreatest⟩
    rw [Datagram.decode_of_top hleast hgreatest, ChannelData.decode_eq,
      if_neg (not_not.2 hnumber), if_pos ⟨hbare, hpadded⟩]
    rfl
  · intro m key? fingerprint bytes h c
    rw [ne_eq, ne_eq, Datagram.decode_eq_channelData, ChannelData.decode_eq_ok]
    exact ⟨Datagram.not_isFrame_of_encode h, Datagram.not_isFrame_of_encode h⟩
  · intro c bytes hleast hgreatest h r
    rw [c.received_of_encode h, ChannelData.decode_of_encode h
      (ChannelData.div_eq_one_iff.2 ⟨hleast, hgreatest⟩)]
    exact ⟨nofun, nofun⟩

end NatRelay.Stun
