import Mathlib.Data.List.Basic
import NatRelay.Proofs.Stun.Packet

/-! Messages as a sender makes them. A message that fits is written (`encode_of_fits`), what is
written without a key is read back with its fingerprint (`decode_stamped`), and what is written with
the key of a credential verifies under it (`decode_verified`). What a packet does not carry of an
address plays no role in any of it (`encode_bare`). So a message that fits can be sent, with a key
or without (`Fits.sent`), and whatever is written is read as the message that a packet can carry
(`decode_bare`). -/
namespace NatRelay.Stun

variable {tid : TransactionId}

/-! ### Room -/

namespace Message
variable {m : Message} {bytes : Bytes}

/-- A message is written with a fingerprint if there is room for all of it. -/
theorem encode_of_fits {key? : Option Key}
    (h : recordsLength m.tid (m.attributes.filter (!·.isProtection)) + codeLength key? + 8 ≤
      65535) : ∃ bytes, m.encode key? true = .ok bytes := by
  rw [encode_isOk, size_eq]
  exact h

/-- Nor is it written with a fingerprint if there is no room. -/
theorem room_of_encode {key? : Option Key} (h : m.encode key? true = .ok bytes) :
    recordsLength m.tid (m.attributes.filter (!·.isProtection)) + codeLength key? + 8 ≤
      65535 := by
  have hfits := (m.encode_isOk key? true).1 ⟨bytes, h⟩
  rw [size_eq] at hfits
  exact hfits

end Message

/-! ### What a seal leaves alone -/

theorem Mechanism.isProtection_attribute (k : Mechanism) (mac : Bytes) :
    (k.attribute mac).isProtection := by
  cases k <;> rfl

theorem Attribute.code_ne_of_isProtection {a : Attribute} (ha : a.isProtection) {kind : Kind}
    (hkind : kind.isProtection = false) : a.code ≠ kind.code := by
  intro heq
  have hof := congrArg Kind.ofCode? heq
  rw [Kind.ofCode?_code] at hof
  cases a with
  | messageIntegrity | messageIntegritySha256 | fingerprint =>
    rw [Attribute.code, Kind.ofCode?_code] at hof
    obtain rfl := Option.some.inj hof
    cases hkind
  | _ => cases ha

namespace Message

/-- The second message is the first with what protects it behind its plain attributes. -/
structure Seals (m m' : Message) : Prop where
  method : m'.method = m.method
  cls : m'.cls = m.cls
  tid : m'.tid = m.tid
  attributes : ∃ tail, (∀ a ∈ tail, a.isProtection) ∧
    m'.attributes = m.attributes.filter (!·.isProtection) ++ tail

namespace Seals
variable {m m' : Message} (h : m.Seals m')
include h

/-- What a reader finds that passes over all that protects. -/
theorem filterMap_eq {β : Type} {f : Attribute → Option β}
    (hf : ∀ a : Attribute, a.isProtection → f a = none) :
    m'.attributes.filterMap f = m.attributes.filterMap f := by
  obtain ⟨tail, htail, hattributes⟩ := h.attributes
  have hnone : tail.filterMap f = [] := by
    rw [List.filterMap_eq_nil_iff]
    exact fun a ha => hf a (htail a ha)
  rw [hattributes, List.filterMap_append, hnone, List.append_nil, List.filterMap_filter]
  apply List.filterMap_congr
  intro a _
  cases hprotects : a.isProtection with
  | false => rfl
  | true => simp [hf a hprotects]

theorem getAll_eq {kind : Kind} (hkind : kind.isProtection = false) :
    m'.getAll kind.code = m.getAll kind.code := by
  have hfilter (m : Message) : m.getAll kind.code =
      m.attributes.filterMap (Option.guard fun a => a.code == kind.code) := by
    rw [getAll, List.filterMap_eq_filter]
  rw [hfilter, hfilter]
  apply h.filterMap_eq
  intro a ha
  simp [Option.guard, a.code_ne_of_isProtection ha hkind]

theorem get?_eq {kind : Kind} (hkind : kind.isProtection = false) :
    m'.get? kind.code = m.get? kind.code := by
  have hall := h.getAll_eq hkind
  rw [get?, get?, ← List.head?_filter, ← List.head?_filter]
  exact congrArg List.head? hall

theorem username_eq : m'.username = m.username := by
  rw [username, username, h.get?_eq rfl]

theorem realm_eq : m'.realm = m.realm := by
  rw [realm, realm, h.get?_eq rfl]

theorem nonce_eq : m'.nonce = m.nonce := by
  rw [nonce, nonce, h.get?_eq rfl]

theorem lifetime_eq : m'.lifetime = m.lifetime := by
  rw [lifetime, lifetime, h.get?_eq rfl]

theorem requestedTransport_eq : m'.requestedTransport = m.requestedTransport := by
  rw [requestedTransport, requestedTransport, h.get?_eq rfl]

theorem requestedFamily_eq : m'.requestedFamily = m.requestedFamily := by
  rw [requestedFamily, requestedFamily, h.get?_eq rfl]

theorem errorCode_eq : m'.errorCode = m.errorCode := by
  rw [errorCode, errorCode, h.get?_eq rfl]

theorem data_eq : m'.data = m.data := by
  rw [data, data, h.get?_eq rfl]

theorem peerAddresses_eq : m'.peerAddresses = m.peerAddresses := by
  apply h.filterMap_eq
  intro a ha
  cases a with
  | xorPeerAddress => cases ha
  | _ => rfl

theorem unknownRequired_eq : m'.unknownRequired = m.unknownRequired := by
  apply h.filterMap_eq
  intro a ha
  cases a with
  | other => cases ha
  | _ => rfl

end Seals

/-! ### Reading back -/

variable {m : Message} {bytes : Bytes}

/-- What is written arrives as a message, if it is read at all. -/
theorem datagram_of_encode {key? : Option Key} {fingerprint : Bool} {r : Received}
    (h : m.encode key? fingerprint = .ok bytes) (hr : Received.decode bytes = .ok r) :
    Datagram.decode bytes = .ok (.message r) := by
  obtain ⟨body, hframe⟩ := frame_of_encode h
  rw [decode_frame hframe, hr]
  rfl

/-- What is written without a key is read with a fingerprint behind it. -/
theorem decode_stamped (hrep : ∀ a ∈ m.attributes, a.isProtection = false → a.Representable)
    (h : m.encode none true = .ok bytes) :
    ∃ r, Received.decode bytes = .ok r ∧ m.Seals r.message ∧ r.message.hasIntegrity = false ∧
      r.message.attributes.getLast? = some (.stamp bytes) := by
  obtain ⟨records, signed, sealed, hrecords, hunsigned, hsealed, hframe⟩ := encode_stages h
  obtain rfl := Except.ok.inj hunsigned
  obtain ⟨rest, rfl, hrest, hstamp⟩ := read_stamp hsealed hframe
  have hplain : ∀ a ∈ m.attributes.filter (!·.isProtection), a.isProtection = false := by
    intro a ha
    simpa using (List.mem_filter.1 ha).2
  have hwords : (records.flatten ++ rest).length % 4 = 0 := by
    have hflatten := length_flatten_mod hrecords
    rw [List.length_append]
    omega
  let answer : Message :=
    { m with attributes := m.attributes.filter (!·.isProtection) ++ [.stamp bytes] }
  have hdecode : Received.decode bytes = .ok ⟨answer, bytes, {}⟩ := by
    rw [received_frame hframe hwords, splitRecords_append hrecords]
    dsimp only
    rw [collect_append hplain fun a ha => hrep a (List.mem_filter.1 ha).1 (hplain a ha), hstamp]
    rfl
  have hseals : m.Seals answer :=
    ⟨rfl, rfl, rfl, [.stamp bytes], by simp [Attribute.stamp, Attribute.isProtection], rfl⟩
  refine ⟨_, hdecode, hseals, ?_, List.getLast?_concat⟩
  rw [hasIntegrity, List.any_eq_false]
  intro a ha
  rcases List.mem_append.1 ha with ha | ha
  · have ha := hplain a ha
    cases a <;> first | exact Bool.false_ne_true | cases ha
  · obtain rfl := List.mem_singleton.1 ha
    exact Bool.false_ne_true

/-- A code and a fingerprint seal the message in front of them. -/
theorem seals_sealedBy (m : Message) (k : Mechanism) (mac : Bytes) (fingerprint : Bool) :
    m.Seals (m.sealedBy k mac (if fingerprint then [.stamp bytes] else [])) := by
  refine ⟨rfl, rfl, rfl, _, ?_, List.append_assoc ..⟩
  intro a ha
  rcases List.mem_append.1 ha with ha | ha
  · obtain rfl := List.mem_singleton.1 ha
    exact k.isProtection_attribute mac
  · cases fingerprint with
    | false => cases ha
    | true =>
      obtain rfl := List.mem_singleton.1 ha
      rfl

/-- What is written with the key of a credential verifies under the credential. -/
theorem decode_verified {c : Credential} {k : Mechanism} {fingerprint : Bool}
    (hrep : ∀ a ∈ m.attributes, a.isProtection = false → a.Representable)
    (h : m.encode (some (c.key k)) fingerprint = .ok bytes) :
    ∃ r, Received.decode bytes = .ok r ∧ m.Seals r.message ∧ r.message.hasIntegrity ∧
      checkIntegrity r.message (some r.wire) c = .ok k ∧
      (fingerprint → r.message.attributes.getLast? = some (.stamp bytes)) := by
  obtain ⟨offset, mac, marks, hdecode, hchecked, hmac, hroom⟩ := decode_sealed hrep h
  rw [Credential.mechanism_key] at hdecode hchecked hmac hroom
  refine ⟨_, hdecode, m.seals_sealedBy k mac fingerprint, m.hasIntegrity_sealedBy ..,
    checkIntegrity_of_sign hchecked ?_ hroom, ?_⟩
  · rw [findSome?_sealedBy]
    exact congrArg some hmac
  · rintro rfl
    exact List.getLast?_concat

end Message

/-! ### Addresses without what a packet does not carry -/

/-- The attribute as a packet carries it: an address is an IP and a port. -/
def Attribute.bare : Attribute → Attribute
  | mappedAddress e => mappedAddress (.ofIp e.ip e.port)
  | xorMappedAddress e => xorMappedAddress (.ofIp e.ip e.port)
  | xorPeerAddress e => xorPeerAddress (.ofIp e.ip e.port)
  | xorRelayedAddress e => xorRelayedAddress (.ofIp e.ip e.port)
  | responseOrigin e => responseOrigin (.ofIp e.ip e.port)
  | a => a

namespace Attribute

@[simp] theorem code_bare (a : Attribute) : a.bare.code = a.code := by cases a <;> rfl

@[simp] theorem isProtection_bare (a : Attribute) : a.bare.isProtection = a.isProtection := by
  cases a <;> rfl

@[simp] theorem value_bare (a : Attribute) : a.bare.value tid = a.value tid := by
  have hvalue (tid? : Option TransactionId) (e : Endpoint) :
      addressValue tid? (.ofIp e.ip e.port) = addressValue tid? e := by
    cases tid? <;> cases e <;> rfl
  cases a with
  | mappedAddress | responseOrigin => exact hvalue none _
  | xorMappedAddress | xorPeerAddress | xorRelayedAddress => exact hvalue (some tid) _
  | _ => rfl

end Attribute

/-- Whether the value is short in every packet. -/
def Attribute.isShort : Attribute → Bool
  | data _ | unknownAttributes _ | other .. => false
  | a => !a.isProtection

namespace Attribute

theorem length_plainValue_le (e : Endpoint) : (plainValue e).length ≤ 20 := by
  cases e <;> simp [plainValue, Endpoint.ip, Ip.bytes]

theorem isProtection_of_isShort {a : Attribute} (h : a.isShort) : a.isProtection = false := by
  cases a with
  | messageIntegrity | messageIntegritySha256 | fingerprint => cases h
  | _ => rfl

theorem length_value_le {a : Attribute} (h : a.isShort) (hrep : a.bare.Representable) :
    (a.value tid).length ≤ 768 := by
  cases a with
  | data | unknownAttributes | other | messageIntegrity | messageIntegritySha256 | fingerprint =>
    cases h
  | mappedAddress e | responseOrigin e => exact Nat.le_trans (length_plainValue_le e) (by decide)
  | xorMappedAddress e | xorPeerAddress e | xorRelayedAddress e =>
    exact Nat.le_trans (length_plainValue_le (obfuscate tid e)) (by decide)
  | username | realm | nonce | software => exact Nat.le_trans hrep (by decide)
  | errorCode e =>
    have hreason : (Bytes.ofText e.reason).length ≤ 763 := hrep.2.2
    simp only [value, List.length_cons]
    omega
  | channelNumber | lifetime | requestedTransport | requestedAddressFamily => simp [value]

end Attribute

namespace Message
variable {m : Message}

/-- The message as a packet carries it. -/
def bare (m : Message) : Message := { m with attributes := m.attributes.map .bare }

/-- The two are written alike. -/
theorem encode_bare (m : Message) (key? : Option Key) (fingerprint : Bool) :
    m.bare.encode key? fingerprint = m.encode key? fingerprint := by
  have hbody : m.bare.body = m.body := by
    rw [body, body, bare, List.filter_map, List.mapM_map]
    simp [Function.comp_def]
  rw [encode, encode, hbody]
  rfl

theorem get?_bare (m : Message) (code : UInt16) : m.bare.get? code = (m.get? code).map .bare := by
  have hcode : (fun a => a.code == code) ∘ Attribute.bare = fun a => a.code == code := by
    funext a
    exact congrArg (· == code) a.code_bare
  rw [get?, get?, bare, List.find?_map, hcode]

theorem data_bare (m : Message) : m.bare.data = m.data := by
  rw [data, data, get?_bare]
  cases m.get? Kind.data.code with
  | none => rfl
  | some a => cases a <;> rfl

theorem peerAddresses_bare (m : Message) :
    m.bare.peerAddresses = m.peerAddresses.map fun e => .ofIp e.ip e.port := by
  rw [peerAddresses, peerAddresses, bare, List.filterMap_map, List.map_filterMap]
  apply List.filterMap_congr
  intro a _
  cases a <;> rfl

/-- What is written without a code and a fingerprint is read as its plain attributes. -/
theorem decode_of_encode_plain {bytes : Bytes}
    (hrep : ∀ a ∈ m.attributes, a.isProtection = false → a.Representable)
    (h : m.encode none false = .ok bytes) :
    Received.decode bytes = .ok ⟨m.unprotected, bytes, {}⟩ := by
  obtain ⟨records, signed, sealed, hrecords, hunsigned, hunstamped, hframe⟩ := encode_stages h
  obtain rfl := Except.ok.inj hunsigned
  obtain rfl := Except.ok.inj hunstamped
  exact decode_unprotected hrep hrecords hframe

/-- What is written, with a code and a fingerprint or without, is read as what a packet can carry of
the message, if that is representable. -/
theorem decode_bare {key? : Option Key} {fingerprint : Bool} {bytes : Bytes}
    (hrep : ∀ a ∈ m.attributes, a.isProtection = false → a.bare.Representable)
    (h : m.encode key? fingerprint = .ok bytes) :
    ∃ r, Datagram.decode bytes = .ok (.message r) ∧ m.bare.Seals r.message := by
  have hbare : m.bare.encode key? fingerprint = .ok bytes := by rw [encode_bare, h]
  have hrep : ∀ a ∈ m.bare.attributes, a.isProtection = false → a.Representable := by
    intro a ha hplain
    obtain ⟨b, hb, rfl⟩ := List.mem_map.1 ha
    exact hrep b hb (by rwa [Attribute.isProtection_bare] at hplain)
  suffices ∃ r, Received.decode bytes = .ok r ∧ m.bare.Seals r.message by
    obtain ⟨r, hdecode, hseals⟩ := this
    exact ⟨r, datagram_of_encode h hdecode, hseals⟩
  cases key? with
  | some key =>
    obtain ⟨offset, mac, marks, hdecode, -⟩ := decode_sealed hrep hbare
    exact ⟨_, hdecode, seals_sealedBy ..⟩
  | none =>
    cases fingerprint with
    | true =>
      obtain ⟨r, hdecode, hseals, -⟩ := decode_stamped hrep hbare
      exact ⟨r, hdecode, hseals⟩
    | false =>
      refine ⟨_, decode_of_encode_plain hrep hbare, rfl, rfl, rfl, [], List.forall_mem_nil _, ?_⟩
      exact (List.append_nil _).symm

/-! ### Sending -/

/-- Whether a message can be sent and read: what a packet carries of its attributes is
representable, none of them protects, and with a code and a fingerprint it fits. -/
structure Fits (m : Message) : Prop where
  plain : ∀ a ∈ m.attributes, a.isProtection = false
  representable : ∀ a ∈ m.attributes, a.bare.Representable
  room : recordsLength m.tid m.attributes ≤ 65000

/-- A few short attributes. -/
theorem Fits.of_isShort (hshort : ∀ a ∈ m.attributes, a.isShort ∧ a.bare.Representable)
    (hfew : m.attributes.length ≤ 10) : m.Fits where
  plain a ha := Attribute.isProtection_of_isShort (hshort a ha).1
  representable a ha := (hshort a ha).2
  room := by
    have hroom (as : List Attribute) (has : ∀ a ∈ as, a.isShort ∧ a.bare.Representable) :
        recordsLength m.tid as ≤ 772 * as.length := by
      induction as with
      | nil => exact Nat.zero_le _
      | cons a as ih =>
        obtain ⟨ha, has⟩ := List.forall_mem_cons.1 has
        have hvalue : (a.value m.tid).length ≤ 768 := Attribute.length_value_le ha.1 ha.2
        have hrest := ih has
        rw [recordsLength, Bytes.paddedLength, List.length_cons]
        omega
    have hle := hroom m.attributes hshort
    omega

namespace Fits
variable (h : m.Fits)
include h

theorem representable_bare : ∀ a ∈ m.bare.attributes, a.isProtection = false → a.Representable := by
  intro a ha _
  obtain ⟨b, hb, rfl⟩ := List.mem_map.1 ha
  exact h.representable b hb

theorem encode (key? : Option Key) : ∃ bytes, m.encode key? true = .ok bytes := by
  have hplain : m.attributes.filter (!·.isProtection) = m.attributes := by
    rw [List.filter_eq_self]
    intro a ha
    simp [h.plain a ha]
  have hcode : codeLength key? ≤ 36 := by
    cases key? with
    | none => exact Nat.zero_le _
    | some key => cases hk : key.mechanism <;> simp [codeLength, hk, Mechanism.macLength]
  have hroom := h.room
  apply encode_of_fits
  rw [hplain]
  omega

/-- The answer without a key. -/
theorem sent : ∃ bytes r, m.encode none true = .ok bytes ∧
    Datagram.decode bytes = .ok (.message r) ∧ m.bare.Seals r.message ∧
    r.message.hasIntegrity = false ∧ r.message.attributes.getLast? = some (.stamp bytes) := by
  obtain ⟨bytes, hencode⟩ := h.encode none
  have hbare : m.bare.encode none true = .ok bytes := by rw [encode_bare, hencode]
  obtain ⟨r, hdecode, hseals, hunsigned, hlast⟩ := decode_stamped h.representable_bare hbare
  exact ⟨bytes, r, hencode, datagram_of_encode hencode hdecode, hseals, hunsigned, hlast⟩

/-- The answer with the key of a credential. -/
theorem sent_signed (c : Credential) (k : Mechanism) :
    ∃ bytes r, m.encode (some (c.key k)) true = .ok bytes ∧
      Datagram.decode bytes = .ok (.message r) ∧ m.bare.Seals r.message ∧
      checkIntegrity r.message (some r.wire) c = .ok k ∧
      r.message.attributes.getLast? = some (.stamp bytes) := by
  obtain ⟨bytes, hencode⟩ := h.encode (some (c.key k))
  have hbare : m.bare.encode (some (c.key k)) true = .ok bytes := by rw [encode_bare, hencode]
  obtain ⟨r, hdecode, hseals, -, hverified, hlast⟩ := decode_verified h.representable_bare hbare
  exact ⟨bytes, r, hencode, datagram_of_encode hencode hdecode, hseals, hverified, hlast rfl⟩

end Fits

end Message
end NatRelay.Stun
