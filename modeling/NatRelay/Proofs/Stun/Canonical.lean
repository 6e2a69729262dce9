import Mathlib.Data.List.Flatten
import NatRelay.Proofs.Stun.RoundTrip

/-! What was read is written in one way, whatever the padding, the reserved bits and the hidden
records of the packet were. Main statement: `decode_canonical`. -/
namespace NatRelay

namespace Bytes

/-- The bytes with only the bits of a mask; what is behind the mask is left alone. -/
def masked : Bytes → Bytes → Bytes
  | m :: mask, b :: bytes => (b &&& m) :: masked mask bytes
  | _, bytes => bytes

@[simp] theorem masked_nil (bytes : Bytes) : masked [] bytes = bytes := by
  cases bytes <;> rfl

@[simp] theorem length_masked (mask bytes : Bytes) : (masked mask bytes).length = bytes.length := by
  fun_induction masked mask bytes with
  | case1 m mask b bytes ih => rw [List.length_cons, List.length_cons, ih]
  | case2 => rfl

theorem and_ones (b : UInt8) : b &&& 0xFF = b := by
  apply UInt8.toNat_inj.1
  rw [UInt8.toNat_and]
  exact Nat.and_two_pow_sub_one_of_lt_two_pow b.toNat_lt

theorem and_seven (b : UInt8) : b &&& 7 = UInt8.ofNat (b.toNat % 8) := by
  apply UInt8.toNat_inj.1
  rw [UInt8.toNat_and, UInt8.toNat_ofNat_of_lt' (Nat.lt_trans (Nat.mod_lt _ (by decide)) (by decide))]
  exact Nat.and_two_pow_sub_one_eq_mod b.toNat 3

end Bytes

namespace Stun

/-- The bits of a value of the kind that tell something, up to where all of them do. -/
def Kind.mask : Kind → Bytes
  | mappedAddress | responseOrigin | xorMappedAddress | xorPeerAddress | xorRelayedAddress => [0]
  | errorCode => [0, 0, 7]
  | channelNumber => [0xFF, 0xFF, 0, 0]
  | requestedTransport | requestedAddressFamily => [0xFF, 0, 0, 0]
  | _ => []

theorem Transport.protocol_ofProtocol (p : UInt8) : (ofProtocol p).protocol = p := by
  by_cases h17 : p = 17
  · simp [ofProtocol, protocol, h17]
  · by_cases h6 : p = 6 <;> simp [ofProtocol, protocol, h17, h6]

section Readers
variable {limit : Nat} {value : Bytes} {tid : TransactionId}

theorem ofText_of_readText {text : String} (h : readText limit value = .ok text) :
    Bytes.ofText text = value := by
  rw [readText] at h
  split at h
  · cases h
  cases hdecode : Utf8.decode value with
  | error fault =>
    rw [hdecode] at h
    cases h
  | ok text' =>
    rw [hdecode] at h
    obtain rfl := Except.ok.inj h
    exact Utf8.ofText_of_decode hdecode

theorem be32_of_readWord {n : UInt32} (h : readWord value = .ok n) : Bytes.be32 n = value := by
  rw [readWord] at h
  split at h
  · rename_i hlength
    obtain rfl := Except.ok.inj h
    exact Bytes.be32_word32 hlength
  · cases h

theorem be16_of_readShort {n : UInt16} (h : readShort value = .ok n) :
    Bytes.be16 n ++ [0, 0] = Bytes.masked Kind.channelNumber.mask value := by
  match value with
  | [] | [_] | [_, _] | [_, _, _] | _ :: _ :: _ :: _ :: _ :: _ => cases h
  | [high, low, _, _] =>
    obtain rfl := Except.ok.inj h
    simp [Kind.mask, Bytes.masked, Bytes.be16_word16, Bytes.and_ones]

theorem masked_of_readByte {b : UInt8} (h : readByte value = .ok b) :
    [b, 0, 0, 0] = Bytes.masked [0xFF, 0, 0, 0] value := by
  match value with
  | [] | [_] | [_, _] | [_, _, _] | _ :: _ :: _ :: _ :: _ :: _ => cases h
  | [_, _, _, _] =>
    obtain rfl := Except.ok.inj h
    simp [Bytes.masked, Bytes.and_ones]

theorem be16_of_readShorts {codes : List UInt16} (h : readShorts value = .ok codes) :
    codes.flatMap Bytes.be16 = value := by
  fun_induction readShorts value generalizing codes with
  | case1 =>
    obtain rfl := Except.ok.inj h
    rfl
  | case2 => cases h
  | case3 high low rest ih =>
    obtain ⟨codes', hrest, h⟩ := bind_eq_ok.1 h
    obtain rfl := Except.ok.inj h
    rw [List.flatMap_cons, ih hrest, Bytes.be16_word16]
    rfl

theorem value_of_readErrorCode {e : ErrorCode} (h : readErrorCode value = .ok e) :
    (Attribute.errorCode e).value tid = Bytes.masked Kind.errorCode.mask value := by
  match value with
  | [] | [_] | [_, _] | [_, _, _] => cases h
  | r₁ :: r₀ :: hundreds :: number :: reason =>
    rw [readErrorCode] at h
    split at h
    · cases h
    rename_i hrange
    obtain ⟨text, htext, h⟩ := bind_eq_ok.1 h
    obtain rfl := Except.ok.inj h
    have hcode : (UInt16.ofNat (hundreds.toNat % 8 * 100 + number.toNat)).toNat =
        hundreds.toNat % 8 * 100 + number.toNat := by
      rw [UInt16.toNat_ofNat']
      omega
    have hhigh : (hundreds.toNat % 8 * 100 + number.toNat) / 100 = hundreds.toNat % 8 := by omega
    have hlow : (hundreds.toNat % 8 * 100 + number.toNat) % 100 = number.toNat := by omega
    simp only [Attribute.value, hcode, hhigh, hlow, ofText_of_readText htext, Kind.mask,
      Bytes.masked, Bytes.and_seven, UInt8.and_zero, UInt8.ofNat_toNat]

theorem code_of_familyOfCode {code : UInt8} {family : Family}
    (h : familyOfCode code = .ok family) : family.code = code := by
  rw [familyOfCode] at h
  split at h
  · rename_i hcode
    obtain rfl := Except.ok.inj h
    exact hcode.symm
  split at h
  · rename_i hcode
    obtain rfl := Except.ok.inj h
    exact hcode.symm
  · cases h

theorem bytes_of_ipOfBytes {family : Family} {ip : Ip} (h : ipOfBytes value family = .ok ip) :
    ip.bytes = value ∧ ip.family = family := by
  have hlt := Bytes.toNat_lt value
  cases family with
  | v4 | v6 =>
    rw [ipOfBytes] at h
    split at h
    · rename_i hlength
      obtain rfl := Except.ok.inj h
      rw [hlength] at hlt
      refine ⟨?_, rfl⟩
      rw [Ip.bytes, BitVec.toNat_ofNat, Nat.mod_eq_of_lt hlt, ← hlength, Bytes.ofNat_toNat]
    · cases h

theorem addressValue_of_readAddress {tid? : Option TransactionId} {e : Endpoint}
    (h : readAddress tid? value = .ok e) : addressValue tid? e = Bytes.masked [0] value := by
  match value with
  | [] | [_] | [_, _] | [_, _, _] => cases h
  | r :: code :: high :: low :: rest =>
    rw [readAddress] at h
    obtain ⟨family, hfamily, h⟩ := bind_eq_ok.1 h
    obtain ⟨ip, hip, h⟩ := bind_eq_ok.1 h
    obtain rfl := Except.ok.inj h
    obtain ⟨hbytes, hfam⟩ := bytes_of_ipOfBytes hip
    have hplain : plainValue (.ofIp ip (Bytes.word16 high low)) =
        Bytes.masked [0] (r :: code :: high :: low :: rest) := by
      have hparts : (Endpoint.ofIp ip (Bytes.word16 high low)).ip = ip ∧
          (Endpoint.ofIp ip (Bytes.word16 high low)).port = Bytes.word16 high low := by
        cases ip <;> exact ⟨rfl, rfl⟩
      rw [plainValue, Endpoint.family, hparts.1, hparts.2, hbytes, hfam,
        code_of_familyOfCode hfamily, Bytes.be16_word16]
      simp [Bytes.masked]
    cases tid? with
    | none => exact hplain
    | some tid =>
      have hbare : Endpoint.ofIp (Endpoint.ofIp ip (Bytes.word16 high low)).ip
          (Endpoint.ofIp ip (Bytes.word16 high low)).port =
          Endpoint.ofIp ip (Bytes.word16 high low) := by
        cases ip <;> rfl
      change plainValue (unobfuscate tid (obfuscate tid _)) = _
      rw [unobfuscate_obfuscate, hbare, hplain]

theorem readAddress_masked (tid? : Option TransactionId) (value : Bytes) :
    readAddress tid? (Bytes.masked [0] value) = readAddress tid? value := by
  match value with
  | [] | [_] | [_, _] | [_, _, _] | _ :: _ :: _ :: _ :: _ => simp [Bytes.masked, readAddress]

theorem readErrorCode_masked (value : Bytes) :
    readErrorCode (Bytes.masked Kind.errorCode.mask value) = readErrorCode value := by
  match value with
  | [] | [_] | [_, _] | [_, _, _] => simp [Kind.mask, Bytes.masked, readErrorCode]
  | _ :: _ :: hundreds :: _ :: _ =>
    have hdigit : (UInt8.ofNat (hundreds.toNat % 8)).toNat % 8 = hundreds.toNat % 8 := by
      rw [UInt8.toNat_ofNat']
      omega
    simp only [Kind.mask, Bytes.masked, readErrorCode, Bytes.and_seven, hdigit]

theorem readShort_masked (value : Bytes) :
    readShort (Bytes.masked Kind.channelNumber.mask value) = readShort value := by
  match value with
  | [] | [_] | [_, _] | [_, _, _] | [_, _, _, _] | _ :: _ :: _ :: _ :: _ :: _ =>
    simp [Kind.mask, Bytes.masked, readShort, Bytes.and_ones]

theorem readByte_masked (value : Bytes) :
    readByte (Bytes.masked [0xFF, 0, 0, 0] value) = readByte value := by
  match value with
  | [] | [_] | [_, _] | [_, _, _] | [_, _, _, _] | _ :: _ :: _ :: _ :: _ :: _ =>
    simp [Bytes.masked, readByte, Bytes.and_ones]

end Readers

namespace Attribute
variable {tid : TransactionId} {code : UInt16} {value : Bytes} {a : Attribute}

/-- Reserved bits play no role in reading. -/
theorem ofKind_masked (kind : Kind) (value : Bytes) :
    ofKind tid (Bytes.masked kind.mask value) kind = ofKind tid value kind := by
  cases kind with
  | mappedAddress | responseOrigin | xorMappedAddress | xorPeerAddress | xorRelayedAddress =>
    exact congrArg (_ <$> ·) (readAddress_masked _ value)
  | errorCode => exact congrArg (_ <$> ·) (readErrorCode_masked value)
  | channelNumber => exact congrArg (_ <$> ·) (readShort_masked value)
  | requestedTransport => exact congrArg (_ <$> ·) (readByte_masked value)
  | requestedAddressFamily => exact congrArg (· >>= _) (readByte_masked value)
  | _ => exact congrArg (ofKind tid · _) (Bytes.masked_nil value)

/-- An attribute is written as it was read, with the reserved bits cleared. -/
theorem value_ofKind {kind : Kind} (h : ofKind tid value kind = .ok a) :
    a.value tid = Bytes.masked kind.mask value := by
  cases kind with
  | mappedAddress | responseOrigin | xorMappedAddress | xorPeerAddress | xorRelayedAddress =>
    obtain ⟨e, he, rfl⟩ := map_eq_ok.1 h
    exact addressValue_of_readAddress he
  | username | realm | nonce | software =>
    obtain ⟨text, htext, rfl⟩ := map_eq_ok.1 h
    exact (ofText_of_readText htext).trans (Bytes.masked_nil value).symm
  | messageIntegrity =>
    obtain ⟨mac, hmac, rfl⟩ := map_eq_ok.1 h
    rw [readMac] at hmac
    split at hmac <;> cases hmac
    exact (Bytes.masked_nil value).symm
  | messageIntegritySha256 =>
    obtain ⟨mac, hmac, rfl⟩ := map_eq_ok.1 h
    rw [readMac256] at hmac
    split at hmac <;> cases hmac
    exact (Bytes.masked_nil value).symm
  | fingerprint | lifetime =>
    obtain ⟨n, hn, rfl⟩ := map_eq_ok.1 h
    exact (be32_of_readWord hn).trans (Bytes.masked_nil value).symm
  | errorCode =>
    obtain ⟨e, he, rfl⟩ := map_eq_ok.1 h
    exact value_of_readErrorCode he
  | unknownAttributes =>
    obtain ⟨codes, hcodes, rfl⟩ := map_eq_ok.1 h
    exact (be16_of_readShorts hcodes).trans (Bytes.masked_nil value).symm
  | channelNumber =>
    obtain ⟨n, hn, rfl⟩ := map_eq_ok.1 h
    exact be16_of_readShort hn
  | data =>
    obtain rfl := Except.ok.inj h
    exact (Bytes.masked_nil value).symm
  | requestedTransport =>
    obtain ⟨b, hb, rfl⟩ := map_eq_ok.1 h
    rw [Kind.mask, ← masked_of_readByte hb, Attribute.value, Transport.protocol_ofProtocol]
  | requestedAddressFamily =>
    obtain ⟨b, hb, h⟩ := bind_eq_ok.1 h
    obtain ⟨family, hfamily, rfl⟩ := map_eq_ok.1 h
    rw [Kind.mask, ← masked_of_readByte hb, ← code_of_familyOfCode hfamily]
    rfl

end Attribute

/-- The value of a record without its reserved bits. -/
def Record.clearValue (r : Record) : Bytes :=
  Bytes.masked ((Kind.ofCode? r.code).elim [] Kind.mask) r.value

/-- The bytes of a record with reserved bits and padding of zeros. -/
def Record.tidied (r : Record) : Bytes :=
  Bytes.be16 r.code ++ Bytes.be16 (UInt16.ofNat r.value.length) ++ r.clearValue ++
    Bytes.padding r.value.length

variable {tid : TransactionId} {r : Record} {a : Attribute}

theorem Record.length_clearValue (r : Record) : r.clearValue.length = r.value.length :=
  Bytes.length_masked _ _

theorem Record.length_tidied (r : Record) :
    r.tidied.length = 4 + Bytes.paddedLength r.value.length := by
  have hle := Bytes.le_paddedLength r.value.length
  simp only [tidied, List.length_append, Bytes.length_be16, r.length_clearValue,
    Bytes.length_padding]
  omega

/-- Reserved bits play no role in reading a record, whatever its kind. -/
theorem Record.ofValue_clearValue (r : Record) :
    Attribute.ofValue tid r.code r.clearValue = Attribute.ofValue tid r.code r.value := by
  rw [Attribute.ofValue, Attribute.ofValue, clearValue]
  cases Kind.ofCode? r.code with
  | none => rw [Option.elim_none, Bytes.masked_nil]
  | some kind => exact Attribute.ofKind_masked kind r.value

/-- An attribute has the value of the record that it was read from, without the reserved bits. -/
theorem Record.value_ofValue (h : Attribute.ofValue tid r.code r.value = .ok a) :
    a.value tid = r.clearValue := by
  rw [Attribute.ofValue] at h
  rw [clearValue]
  cases hkind : Kind.ofCode? r.code with
  | none =>
    rw [hkind] at h
    obtain rfl := Except.ok.inj h
    exact (Bytes.masked_nil r.value).symm
  | some kind =>
    rw [hkind] at h
    exact Attribute.value_ofKind h

/-- What is read can be written. -/
theorem Record.representable (h : Attribute.ofValue tid r.code r.value = .ok a)
    (ha : a.isProtection = false) : a.Representable := by
  rw [← Attribute.ofValue_value ha, Attribute.code_ofValue h, value_ofValue h, ofValue_clearValue, h]

/-- What is read from records is written as these records, tidied. -/
theorem mapM_record_of_mapM {rs : List Record} {as : List Attribute}
    (hlength : ∀ r ∈ rs, r.value.length ≤ 65535)
    (h : rs.mapM (fun r => Attribute.ofValue tid r.code r.value) = .ok as) :
    as.mapM (fun a => record a.code (a.value tid)) = .ok (rs.map Record.tidied) := by
  induction rs generalizing as with
  | nil =>
    obtain rfl := Except.ok.inj h
    rfl
  | cons r rs ih =>
    obtain ⟨hvalue, hlength⟩ := List.forall_mem_cons.1 hlength
    rw [List.mapM_cons] at h
    obtain ⟨a, ha, h⟩ := bind_eq_ok.1 h
    obtain ⟨rest, hrest, h⟩ := bind_eq_ok.1 h
    obtain rfl := Except.ok.inj h
    have hbytes : record a.code (a.value tid) = .ok r.tidied := by
      rw [Attribute.code_ofValue ha, r.value_ofValue ha, record_eq_ok, r.length_clearValue]
      exact ⟨hvalue, rfl⟩
    rw [List.mapM_cons, hbytes, ih hlength hrest]
    rfl

/-- Every attribute was read from one of the records. -/
theorem exists_of_mapM {rs : List Record} {as : List Attribute}
    (h : rs.mapM (fun r => Attribute.ofValue tid r.code r.value) = .ok as) (ha : a ∈ as) :
    ∃ r ∈ rs, Attribute.ofValue tid r.code r.value = .ok a := by
  rw [← filterMap_of_mapM h] at ha
  obtain ⟨r, hr, ha⟩ := List.mem_filterMap.1 ha
  refine ⟨r, hr, ?_⟩
  cases hread : Attribute.ofValue tid r.code r.value with
  | error e => simp [hread, Except.toOption] at ha
  | ok b => simpa [hread, Except.toOption] using ha

/-- Records that were cut off fit their length fields, and tidied they take no more room. -/
theorem splitRecords_room (offset : Nat) (bytes : Bytes) :
    (∀ r ∈ (splitRecords offset bytes).1, r.value.length ≤ 65535) ∧
      ((splitRecords offset bytes).1.flatMap Record.tidied).length ≤ bytes.length := by
  generalize hrecords : (splitRecords offset bytes).1 = rs
  induction rs generalizing offset bytes with
  | nil => simp
  | cons r rs ih =>
    obtain ⟨head, rest, rfl, rfl, hfills⟩ := fills_of_splitRecords hrecords
    rw [splitRecords_fills hfills] at hrecords
    obtain ⟨hvalues, hroom⟩ := ih _ _ (List.cons.inj hrecords).2
    refine ⟨List.forall_mem_cons.2 ⟨hfills.1, hvalues⟩, ?_⟩
    rw [List.flatMap_cons, List.length_append, List.length_append, r.length_tidied,
      hfills.length_eq]
    exact Nat.add_le_add_left hroom _

/-- The records of a packet in front of the first that protects. -/
def plainRecords (b : Bytes) : List Record :=
  (splitRecords headerLength (b.drop headerLength)).1.takeWhile (!·.isProtection)

theorem plainRecords_room (b : Bytes) : (∀ r ∈ plainRecords b, r.value.length ≤ 65535) ∧
    ((plainRecords b).flatMap Record.tidied).length ≤ b.length - 20 := by
  obtain ⟨hvalues, hroom⟩ := splitRecords_room headerLength (b.drop headerLength)
  have hfront : plainRecords b <+: (splitRecords headerLength (b.drop headerLength)).1 :=
    List.takeWhile_prefix _
  refine ⟨fun r hr => hvalues r (hfront.subset hr), ?_⟩
  rw [← headerLength, ← List.length_drop]
  exact Nat.le_trans (hfront.sublist.flatMap _).length_le hroom

/-- The message without the attributes that protect. -/
def Message.unprotected (m : Message) : Message :=
  { m with attributes := m.attributes.filter (!·.isProtection) }

/-- Attributes that protect are not written. -/
theorem Message.encode_unprotected (m : Message) (key? : Option Key) (fingerprint : Bool) :
    m.unprotected.encode key? fingerprint = m.encode key? fingerprint := by
  have hbody : m.unprotected.body = m.body := by
    rw [body, body, unprotected, List.filter_filter]
    simp only [Bool.and_self]
  rw [encode, encode, hbody]
  rfl

theorem Message.length_frame {m : Message} {body bytes : Bytes} (h : m.frame body 0 = .ok bytes) :
    bytes.length = 20 + body.length := by
  obtain ⟨-, rfl⟩ := frame_eq_ok.1 h
  simp only [List.length_append, Bytes.length_be16, Bytes.length_ofNat]

/-- Without a key and a fingerprint the records are framed as they are. -/
theorem Message.encode_eq_frame {m : Message} {records : List Bytes}
    (h : m.unprotected.attributes.mapM (fun a => record a.code (a.value m.tid)) = .ok records) :
    m.encode none false = m.frame records.flatten 0 := by
  have hbody : m.body = .ok records.flatten := bind_eq_ok.2 ⟨records, h, rfl⟩
  rw [encode, hbody]
  rfl

/-- What is written of representable attributes is read back without those that protect. -/
theorem Message.decode_unprotected {m : Message} {records : List Bytes} {bytes : Bytes}
    (hrep : ∀ a ∈ m.attributes, a.isProtection = false → a.Representable)
    (hrecords : m.unprotected.attributes.mapM (fun a => record a.code (a.value m.tid)) =
      .ok records) (hframe : m.frame records.flatten 0 = .ok bytes) :
    Received.decode bytes = .ok ⟨m.unprotected, bytes, {}⟩ := by
  have hplain : ∀ a ∈ m.unprotected.attributes, a.isProtection = false := by
    intro a ha
    simpa using (List.mem_filter.1 ha).2
  have hread := @collect_append m.tid bytes true _ hplain
    (fun a ha => hrep a (List.mem_filter.1 ha).1 (hplain a ha)) headerLength []
  rw [List.append_nil] at hread
  rw [received_frame hframe (length_flatten_mod hrecords), splitRecords_layOut hrecords, hread,
    collect, if_pos rfl]
  simp [Functor.map, Except.map, unprotected]

/-- The bytes that stand for a message that was read from a packet. -/
structure Canonical (b : Bytes) (m : Message) (bytes : Bytes) : Prop where
  encode : m.encode none false = .ok bytes
  length_le : bytes.length ≤ b.length
  decode : Received.decode bytes = .ok ⟨m.unprotected, bytes, {}⟩
  again : m.unprotected.encode none false = .ok bytes
  /-- The records in front of the first that protects, with padding and reserved bits of zeros, are
  all that is written under the head of the message. -/
  frame : m.frame ((plainRecords b).flatMap Record.tidied) 0 = .ok bytes

/-- Besides what protects, a message that was read consists of attributes that can be written, and
it is written in one way, whatever padding, reserved bits and hidden records it was read with. -/
theorem decode_canonical {b : Bytes} {r : Received} (h : Received.decode b = .ok r) :
    (∀ a ∈ r.message.attributes, a.isProtection = false → a.Representable) ∧
      (∀ code value, .other code value ∈ r.message.attributes → Kind.ofCode? code = none) ∧
      ∃ bytes, Canonical b r.message bytes := by
  obtain ⟨⟨hhead, size, -, -, hsize⟩, -, -, htid, -, hcollect⟩ := decode_eq_ok.1 h
  rw [← htid] at hcollect
  have hread := mapM_of_collect hcollect
  obtain ⟨hvalues, hroom⟩ := plainRecords_room b
  have hrecords := mapM_record_of_mapM hvalues hread
  have hrep : ∀ a ∈ r.message.attributes, a.isProtection = false → a.Representable := by
    intro a ha hplain
    obtain ⟨r, -, hr⟩ := exists_of_mapM hread (List.mem_filter.2 ⟨ha, by simp [hplain]⟩)
    exact r.representable hr hplain
  have hfits : ((plainRecords b).flatMap Record.tidied).length ≤ 65535 := by
    have hlt := size.toNat_lt
    omega
  obtain ⟨bytes, hframe⟩ :
      ∃ bytes, r.message.frame ((plainRecords b).flatMap Record.tidied) 0 = .ok bytes :=
    ⟨_, Message.frame_eq_ok.2 ⟨hfits, rfl⟩⟩
  have hlength := Message.length_frame hframe
  have hflatten := hframe
  rw [List.flatMap_def] at hflatten
  have hencode := (Message.encode_eq_frame hrecords).trans hflatten
  refine ⟨hrep, fun code value hmem => hrep _ hmem rfl, bytes, hencode, by omega, ?_, ?_, hframe⟩
  · exact Message.decode_unprotected hrep hrecords hflatten
  · exact (r.message.encode_unprotected none false).trans hencode

/-- A reserved byte, padding and a record behind the code are lost, and the code with them. -/
theorem decode_canonical_createPermission :
    let mac : Bytes := List.replicate 20 5
    let plain : List Attribute :=
      [.xorPeerAddress (.v4 0xC6336407 5000), .username "bob", .channelNumber 0x4000]
    let m : Message := ⟨.createPermission, .request, 7, plain ++ [.messageIntegrity mac]⟩
    let header : Bytes := [33, 18, 164, 66, 0, 0, 0, 0, 0, 0, 0, 0, 0, 0, 0, 7]
    let b : Bytes := [0, 8, 0, 60] ++ header ++
      [0, 18, 0, 8, 99, 1, 50, 154, 231, 33, 192, 69] ++ [0, 6, 0, 3, 98, 111, 98, 42] ++
      [0, 12, 0, 4, 64, 0, 1, 2] ++ [0, 8, 0, 20] ++ mac ++ [0, 13, 0, 4, 0, 0, 1, 44]
    let bytes : Bytes := [0, 8, 0, 28] ++ header ++
      [0, 18, 0, 8, 0, 1, 50, 154, 231, 33, 192, 69] ++ [0, 6, 0, 3, 98, 111, 98, 0] ++
      [0, 12, 0, 4, 64, 0, 0, 0]
    Received.decode b = .ok ⟨m, b, { sha1 := some 48 }⟩ ∧ Canonical b m bytes := by
  intro mac plain m header b bytes
  have hdecode : Received.decode b = .ok ⟨m, b, { sha1 := some 48 }⟩ := by decide +kernel
  refine ⟨hdecode, ?_⟩
  obtain ⟨-, -, bytes', h⟩ := decode_canonical hdecode
  have hencode : m.encode none false = .ok bytes := by decide +kernel
  obtain rfl : bytes' = bytes := Except.ok.inj (h.encode.symm.trans hencode)
  exact h

end Stun
end NatRelay
