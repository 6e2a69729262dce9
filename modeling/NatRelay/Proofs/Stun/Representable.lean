import NatRelay.Proofs.Stun.AttributeValue

/-! Which attributes are read back from their own value. Main statement: `ofValue_value`. -/
namespace NatRelay

namespace Bytes

theorem be16_eq (n : UInt16) :
    ∃ high low, be16 n = [high, low] ∧ word16 high low = n ∧ high.toNat = n.toNat / 256 := by
  have hn := n.toNat_lt
  refine ⟨UInt8.ofNat (n.toNat / 256 % 256), UInt8.ofNat (n.toNat % 256), rfl, ?_, ?_⟩
  · apply UInt16.toNat_inj.1
    simp only [word16, UInt8.toNat_ofNat', UInt16.toNat_ofNat']
    omega
  · simp only [UInt8.toNat_ofNat']
    omega

@[simp] theorem word32_be32 (n : UInt32) : word32 (be32 n) = n := by
  rw [word32, be32, toNat_ofNat n.toNat_lt, UInt32.ofNat_toNat]

end Bytes

namespace Stun

section Values
variable {limit : Nat} {text : String} {tid : TransactionId}

theorem readText_ofText {text' : String} : readText limit (Bytes.ofText text) = .ok text' ↔
    text' = text ∧ (Bytes.ofText text).length ≤ limit := by
  rw [readText]
  by_cases h : (Bytes.ofText text).length > limit
  · simp [h, Nat.not_le.2 h]
  · have hdecode : (Utf8.decode (Bytes.ofText text)).mapError Error.utf8Error = .ok text := by
      rw [Utf8.decode_ofText]
      rfl
    rw [if_neg h, hdecode]
    simp [Nat.le_of_not_lt h, eq_comm]

theorem readWord_be32 (n : UInt32) : readWord (Bytes.be32 n) = .ok n := by
  simp [readWord]

theorem readShort_be16 (n : UInt16) : readShort (Bytes.be16 n ++ [0, 0]) = .ok n := by
  obtain ⟨high, low, hbytes, hword, -⟩ := Bytes.be16_eq n
  rw [hbytes, ← hword]
  rfl

theorem readShorts_be16 (codes : List UInt16) :
    readShorts (codes.flatMap Bytes.be16) = .ok codes := by
  induction codes with
  | nil => rfl
  | cons n codes ih =>
    obtain ⟨high, low, hbytes, hword, -⟩ := Bytes.be16_eq n
    rw [List.flatMap_cons, hbytes, List.cons_append, List.cons_append, List.nil_append, readShorts,
      ih, hword]
    rfl

theorem ofProtocol_protocol {t : Transport} :
    Transport.ofProtocol t.protocol = t ↔ ∀ p, t = .other p → p ≠ 6 ∧ p ≠ 17 := by
  cases t with
  | udp => simp [Transport.protocol, Transport.ofProtocol]
  | tcp => simp [Transport.protocol, Transport.ofProtocol]
  | other p =>
    by_cases h17 : p = 17
    · simp [Transport.protocol, Transport.ofProtocol, h17]
    · by_cases h6 : p = 6 <;> simp [Transport.protocol, Transport.ofProtocol, h17, h6]

theorem readAddress_plainValue (e : Endpoint) :
    readAddress none (plainValue e) = .ok (.ofIp e.ip e.port) := by
  obtain ⟨high, low, hport, hword, -⟩ := Bytes.be16_eq e.port
  have hip : ipOfBytes e.ip.bytes e.family = .ok e.ip := by
    cases e with
    | v4 a p =>
      have ha : Bytes.toNat (Bytes.ofNat 4 a.toNat) = a.toNat := Bytes.toNat_ofNat a.isLt
      simp [ipOfBytes, Endpoint.family, Endpoint.ip, Ip.family, Ip.bytes, ha]
    | v6 a p l z =>
      have ha : Bytes.toNat (Bytes.ofNat 16 a.toNat) = a.toNat := Bytes.toNat_ofNat a.isLt
      simp [ipOfBytes, Endpoint.family, Endpoint.ip, Ip.family, Ip.bytes, ha]
  simp only [plainValue, hport, readAddress, familyOfCode_code, List.cons_append, List.nil_append,
    hword]
  change (ipOfBytes e.ip.bytes e.family >>= _) = _
  rw [hip]
  rfl

theorem readAddress_some (tid : TransactionId) (value : Bytes) :
    readAddress (some tid) value = unobfuscate tid <$> readAddress none value := by
  match value with
  | [] | [_] | [_, _] | [_, _, _] => rfl
  | _ :: code :: high :: low :: rest =>
    simp only [readAddress]
    cases familyOfCode code with
    | error e => rfl
    | ok f =>
      change (ipOfBytes rest f >>= _) = unobfuscate tid <$> (ipOfBytes rest f >>= _)
      cases ipOfBytes rest f <;> rfl

theorem readAddress_addressValue (tid? : Option TransactionId) {e e' : Endpoint} :
    readAddress tid? (addressValue tid? e) = .ok e' ↔ e' = .ofIp e.ip e.port := by
  have hvalue : readAddress tid? (addressValue tid? e) = .ok (.ofIp e.ip e.port) := by
    cases tid? with
    | none => exact readAddress_plainValue e
    | some tid =>
      have hbare : Endpoint.ofIp (obfuscate tid e).ip (obfuscate tid e).port = obfuscate tid e := by
        cases e <;> rfl
      rw [addressValue, readAddress_some, readAddress_plainValue, hbare]
      exact congrArg Except.ok (unobfuscate_obfuscate tid e)
  rw [hvalue, Except.ok.injEq, eq_comm]

/-- The digits of a number fit their bytes just from 300 to 699. -/
theorem readErrorCode_value {e : ErrorCode} :
    readErrorCode ((Attribute.errorCode e).value tid) = .ok e ↔
      300 ≤ e.code ∧ e.code ≤ 699 ∧ (Bytes.ofText e.reason).length ≤ maxTextLength := by
  obtain ⟨code, reason⟩ := e
  have hcode := code.toNat_lt
  have hhundreds : (UInt8.ofNat (code.toNat / 100)).toNat % 8 = code.toNat / 100 % 8 := by
    rw [UInt8.toNat_ofNat']
    omega
  have hnumber : (UInt8.ofNat (code.toNat % 100)).toNat = code.toNat % 100 := by
    rw [UInt8.toNat_ofNat']
    omega
  simp only [Attribute.value, readErrorCode, hhundreds, hnumber, UInt16.le_iff_toNat_le]
  change _ ↔ 300 ≤ code.toNat ∧ code.toNat ≤ 699 ∧ _
  split
  · rename_i hrange
    simp only [reduceCtorEq, false_iff]
    omega
  · rename_i hrange
    rw [bind_eq_ok]
    simp only [readText_ofText]
    constructor
    · rintro ⟨_, ⟨rfl, hlength⟩, heq⟩
      have heq : UInt16.ofNat (code.toNat / 100 % 8 * 100 + code.toNat % 100) = code :=
        (ErrorCode.mk.inj (Except.ok.inj heq)).1
      have hvalue := congrArg UInt16.toNat heq
      rw [UInt16.toNat_ofNat'] at hvalue
      exact ⟨by omega, by omega, hlength⟩
    · rintro ⟨hlow, hhigh, hlength⟩
      have hvalue : code.toNat / 100 % 8 * 100 + code.toNat % 100 = code.toNat := by omega
      refine ⟨reason, ⟨rfl, hlength⟩, ?_⟩
      rw [hvalue, UInt16.ofNat_toNat]
      rfl

end Values

namespace Attribute

/-- What a packet can carry: an address is an IP and a port, texts and numbers keep to their
bounds, and what has a typed form is given in it. -/
def Representable : Attribute → Prop
  | mappedAddress e | xorMappedAddress e | xorPeerAddress e | xorRelayedAddress e |
    responseOrigin e => e.flow = 0 ∧ e.zone = 0
  | username t => (Bytes.ofText t).length ≤ 513
  | realm t | nonce t | software t => (Bytes.ofText t).length ≤ 763
  | errorCode e => 300 ≤ e.code ∧ e.code ≤ 699 ∧ (Bytes.ofText e.reason).length ≤ 763
  | requestedTransport t => ∀ p, t = .other p → p ≠ 6 ∧ p ≠ 17
  | other code _ => Kind.ofCode? code = none
  | _ => True

theorem ofKind_address {tid? : Option TransactionId} {e : Endpoint} {f : Endpoint → Attribute}
    (hf : Function.Injective f) : f <$> readAddress tid? (addressValue tid? e) = .ok (f e) ↔
      e.flow = 0 ∧ e.zone = 0 := by
  rw [map_eq_ok, ← Endpoint.ofIp_ip_port]
  simp only [readAddress_addressValue, exists_eq_left, hf.eq_iff]

theorem ofKind_text {limit : Nat} {t : String} {f : String → Attribute} :
    f <$> readText limit (Bytes.ofText t) = .ok (f t) ↔ (Bytes.ofText t).length ≤ limit := by
  rw [map_eq_ok]
  constructor
  · rintro ⟨s, hs, -⟩
    exact (readText_ofText.1 hs).2
  · intro h
    exact ⟨t, readText_ofText.2 ⟨rfl, h⟩, rfl⟩

/-- An attribute is read back from its value just if a packet can carry it. -/
theorem ofValue_value {tid : TransactionId} {a : Attribute} (h : a.isProtection = false) :
    ofValue tid a.code (a.value tid) = .ok a ↔ a.Representable := by
  have hkind (k : Kind) (value : Bytes) : ofValue tid k.code value = ofKind tid value k := by
    rw [ofValue, Kind.ofCode?_code]
  cases a with
  | messageIntegrity | messageIntegritySha256 | fingerprint => cases h
  | mappedAddress | xorMappedAddress | xorPeerAddress | xorRelayedAddress | responseOrigin =>
    rw [code, hkind]
    exact ofKind_address fun _ _ heq => by injection heq
  | username | realm | nonce | software =>
    rw [code, hkind]
    exact ofKind_text
  | errorCode e =>
    rw [code, hkind, ofKind, map_eq_ok]
    simp only [errorCode.injEq, exists_eq_right]
    exact readErrorCode_value
  | unknownAttributes codes =>
    rw [code, hkind, ofKind, value, readShorts_be16]
    exact iff_of_true rfl trivial
  | channelNumber n =>
    rw [code, hkind, ofKind, value, readShort_be16]
    exact iff_of_true rfl trivial
  | lifetime n =>
    rw [code, hkind, ofKind, value, readWord_be32]
    exact iff_of_true rfl trivial
  | data bytes =>
    rw [code, hkind]
    exact iff_of_true rfl trivial
  | requestedTransport t =>
    rw [code, hkind, ofKind, value, map_eq_ok]
    simp only [readByte, Except.ok.injEq, exists_eq_left', requestedTransport.injEq]
    exact ofProtocol_protocol
  | requestedAddressFamily f =>
    rw [code, hkind]
    refine iff_of_true ?_ trivial
    cases f <;> rfl
  | other code bytes =>
    simp only [Attribute.code, value, Representable, ofValue]
    cases hcode : Kind.ofCode? code with
    | none => simp
    | some kind =>
      simp only [reduceCtorEq, iff_false]
      exact fun h => (isOfKind h).ne_other code bytes rfl

end Attribute
end Stun
end NatRelay
