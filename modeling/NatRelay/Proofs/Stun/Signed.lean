import NatRelay.Proofs.Stun.Coverage
import NatRelay.Proofs.Stun.RoundTrip

/-! What is signed verifies. The signer frames the body with a length that counts the record still
to come, once for the code and once for the fingerprint; the reader rebuilds both frames from the
finished packet and the offsets of the two records (`covered_frame`). Main statement:
`decode_encode_signed`. -/
namespace NatRelay.Stun

variable {tid : TransactionId} {packet : Bytes} {whole : Bool} {marks : Marks}

/-- The attribute that carries a code of the mechanism. -/
def Mechanism.attribute : Mechanism → Bytes → Attribute
  | sha1 => .messageIntegrity
  | sha256 => .messageIntegritySha256

/-- The attribute that carries the fingerprint of a packet that ends with it. -/
def Attribute.stamp (bytes : Bytes) : Attribute :=
  .fingerprint (Stun.fingerprint [bytes.take (bytes.length - 8)])

theorem Mechanism.macOf?_attribute (k : Mechanism) (mac : Bytes) :
    k.macOf? (k.attribute mac) = some mac := by
  cases k <;> rfl

/-- Of the attributes only those that protect carry a code. -/
theorem Mechanism.macOf?_eq_none {a : Attribute} (h : a.isProtection = false) (k : Mechanism) :
    k.macOf? a = none := by
  cases a <;> cases k <;> first | rfl | cases h

theorem Mechanism.ofValue_attribute (k : Mechanism) {mac : Bytes} (h : mac.length = k.macLength) :
    Attribute.ofValue tid k.kind.code mac = .ok (k.attribute mac) := by
  rw [Attribute.ofValue, Kind.ofCode?_code]
  cases k with
  | sha1 =>
    change Attribute.messageIntegrity <$> readMac mac = _
    have hlength : mac.length = 20 := h
    rw [readMac, if_pos hlength]
    rfl
  | sha256 =>
    change Attribute.messageIntegritySha256 <$> readMac256 mac = _
    have hlength : mac.length = 32 := h
    rw [readMac256, if_neg (by omega)]
    rfl

/-! ### Reading a sealed body -/

/-- The first code of a packet is read in front of what follows it. -/
theorem collect_integrity (k : Mechanism) {mac : Bytes} (h : mac.length = k.macLength)
    (offset : Nat) (rs : List Record) :
    collect packet tid whole {} (⟨offset, k.kind.code, mac⟩ :: rs) =
      (fun read => (k.attribute mac :: read.1, read.2)) <$>
        collect packet tid whole (({} : Marks).after (k.attribute mac) offset) rs := by
  refine collect_shown (Marks.shows_empty _) (k.ofValue_attribute h) ?_ rs
  cases k <;> simp [Mechanism.attribute]

/-- A fingerprint is always seen, and ends the reading if it is right. -/
theorem collect_fingerprint {offset : Nat} {crc : UInt32}
    (h : crc = fingerprint (covered packet offset 4)) (rs : List Record) :
    collect packet tid whole marks (⟨offset, Kind.fingerprint.code, Bytes.be32 crc⟩ :: rs) =
      .ok ([.fingerprint crc], marks) := by
  have hshows : marks.shows Kind.fingerprint.code := rfl
  have hvalue : Attribute.ofValue tid Kind.fingerprint.code (Bytes.be32 crc) =
      .ok (.fingerprint crc) := by
    rw [Attribute.ofValue, Kind.ofCode?_code]
    change Attribute.fingerprint <$> readWord (Bytes.be32 crc) = _
    rw [readWord_be32]
    rfl
  rw [collect, if_pos hshows, hvalue]
  change (if crc = fingerprint (covered packet offset 4) then _ else _) = _
  rw [if_pos h]

namespace Message
variable {m : Message} {body bytes : Bytes}

theorem frame_ahead_eq_ok {extra : Nat} : m.frame body extra = .ok bytes ↔
    body.length + extra ≤ 65535 ∧
      bytes = Bytes.be16 (messageType m.method m.cls) ++
        Bytes.be16 (UInt16.ofNat (body.length + extra)) ++ Bytes.ofNat 4 magicCookie.toNat ++
        Bytes.ofNat 12 m.tid.toNat ++ body := by
  rw [frame, maxLength]
  split
  · rename_i h
    simp [Nat.not_le.2 h]
  · rename_i h
    simp [Nat.le_of_not_lt h, eq_comm]

/-- What a record protects in a finished packet is the frame that its writer made ahead of it. -/
theorem covered_frame {rest ahead : Bytes} {length : Nat}
    (hahead : m.frame body (4 + length) = .ok ahead)
    (h : m.frame (body ++ rest) 0 = .ok bytes) :
    (covered bytes (headerLength + body.length) length).flatten = ahead := by
  obtain ⟨-, rfl⟩ := frame_ahead_eq_ok.1 hahead
  obtain ⟨-, rfl⟩ := frame_eq_ok.1 h
  generalize htype : Bytes.be16 (messageType m.method m.cls) = kind
  generalize hsize : Bytes.be16 (UInt16.ofNat (body ++ rest).length) = size
  generalize hcookie : Bytes.ofNat 4 magicCookie.toNat = cookie
  generalize htid : Bytes.ofNat 12 m.tid.toNat = tid
  have hkind : kind.length = 2 := by rw [← htype, Bytes.length_be16]
  have hhead : (kind ++ size).length = 4 := by
    rw [List.length_append, hkind, ← hsize, Bytes.length_be16]
  have hfront : (kind ++ size ++ (cookie ++ tid ++ body)).length = headerLength + body.length := by
    rw [List.length_append, hhead, List.length_append, List.length_append, ← hcookie, ← htid,
      Bytes.length_ofNat, Bytes.length_ofNat, headerLength]
    omega
  have hlength : headerLength + body.length + 4 + length - headerLength =
      body.length + (4 + length) := by omega
  have hpacket : kind ++ size ++ cookie ++ tid ++ (body ++ rest) =
      kind ++ size ++ (cookie ++ tid ++ body) ++ rest := by simp only [List.append_assoc]
  have htake : (kind ++ size ++ (cookie ++ tid ++ body) ++ rest).take 2 = kind := by
    rw [List.append_assoc, List.append_assoc]
    exact List.take_left' hkind
  have hdrop : ((kind ++ size ++ (cookie ++ tid ++ body) ++ rest).take
      (headerLength + body.length)).drop 4 = cookie ++ tid ++ body := by
    rw [List.take_left' hfront]
    exact List.drop_left' hhead
  rw [covered, hlength, hpacket, htake, hdrop]
  simp only [List.flatten_cons, List.flatten_nil, List.append_nil, List.append_assoc]

/-! ### Writing a sealed body -/

theorem protect_eq_ok {key : Key} {signed : Bytes} : m.protect body key = .ok signed ↔
    ∃ ahead code, m.frame body (4 + key.mechanism.macLength) = .ok ahead ∧
      record key.mechanism.kind.code (key.sign [ahead]) = .ok code ∧ signed = body ++ code := by
  obtain ⟨k, secret⟩ := key
  cases k <;> simp only [protect, Mechanism.kind, bind_eq_ok, pure, Except.pure, Except.ok.injEq,
    exists_and_left, @eq_comm _ signed]

theorem stamp_eq_ok {stamped : Bytes} : m.stamp body = .ok stamped ↔
    ∃ ahead mark, m.frame body 8 = .ok ahead ∧
      record Kind.fingerprint.code (Bytes.be32 (Stun.fingerprint [ahead])) = .ok mark ∧
        stamped = body ++ mark := by
  simp only [stamp, bind_eq_ok, pure, Except.pure, Except.ok.injEq, exists_and_left,
    @eq_comm _ stamped]

/-! ### Reading what was written -/

/-- The code is what a reader computes, and its record is cut off as it was written. -/
theorem read_protect {key : Key} {signed rest : Bytes} (hsigned : m.protect body key = .ok signed)
    (hframe : m.frame (signed ++ rest) 0 = .ok bytes) :
    ∃ code mac, signed = body ++ code ∧ code.length % 4 = 0 ∧
      mac = key.sign (covered bytes (headerLength + body.length) key.mechanism.macLength) ∧
      body.length + (4 + key.mechanism.macLength) ≤ 65535 ∧
      splitRecords (headerLength + body.length) (code ++ rest) =
        (⟨headerLength + body.length, key.mechanism.kind.code, mac⟩ ::
            (splitRecords (headerLength + signed.length) rest).1,
          (splitRecords (headerLength + signed.length) rest).2) := by
  obtain ⟨ahead, code, hahead, hcode, rfl⟩ := protect_eq_ok.1 hsigned
  rw [List.append_assoc] at hframe
  have hlength := length_record hcode
  have hwords := Bytes.paddedLength_mod (key.sign [ahead]).length
  have hend : headerLength + (body ++ code).length = headerLength + body.length + 4 +
      Bytes.paddedLength (key.sign [ahead]).length := by
    rw [List.length_append, hlength]
    omega
  refine ⟨code, key.sign [ahead], rfl, by omega, ?_, (frame_ahead_eq_ok.1 hahead).1, ?_⟩
  · rw [Key.sign, Key.sign, covered_frame hahead hframe, List.flatten_singleton]
  · rw [splitRecords_record hcode, hend]

/-- A frame that counts what is still to come is the finished packet without it. -/
theorem frame_append {rest ahead : Bytes} (hahead : m.frame body rest.length = .ok ahead)
    (h : m.frame (body ++ rest) 0 = .ok bytes) : bytes = ahead ++ rest := by
  obtain ⟨-, rfl⟩ := frame_ahead_eq_ok.1 hahead
  obtain ⟨-, rfl⟩ := frame_eq_ok.1 h
  rw [List.length_append]
  simp only [List.append_assoc]

/-- So it is with the fingerprint, behind which nothing is left to read. -/
theorem read_stamp {signed sealed : Bytes} {fingerprint : Bool}
    (hsealed : (if fingerprint then m.stamp signed else .ok signed) = .ok sealed)
    (hframe : m.frame sealed 0 = .ok bytes) :
    ∃ rest, sealed = signed ++ rest ∧ rest.length % 4 = 0 ∧ ∀ marks,
      collect bytes m.tid (splitRecords (headerLength + signed.length) rest).2 marks
        (splitRecords (headerLength + signed.length) rest).1 =
          .ok (if fingerprint then [.stamp bytes] else [], marks) := by
  cases fingerprint with
  | false =>
    obtain rfl := Except.ok.inj hsealed
    refine ⟨[], (List.append_nil _).symm, rfl, fun marks => ?_⟩
    rw [splitRecords]
    rfl
  | true =>
    obtain ⟨ahead, record, hahead, hrecord, rfl⟩ := stamp_eq_ok.1 hsealed
    have hlength : record.length = 8 := by
      rw [length_record hrecord, Bytes.length_be32]
      rfl
    refine ⟨record, rfl, by rw [hlength], fun marks => ?_⟩
    have hcrc : Stun.fingerprint [ahead] =
        Stun.fingerprint (covered bytes (headerLength + signed.length) 4) := by
      rw [Stun.fingerprint, Stun.fingerprint, covered_frame hahead hframe, List.flatten_singleton]
    have htake : bytes.take (bytes.length - 8) = ahead := by
      rw [← hlength] at hahead ⊢
      rw [frame_append hahead hframe, List.length_append, Nat.add_sub_cancel, List.take_left]
    have hsplit := splitRecords_record hrecord (headerLength + signed.length) []
    rw [List.append_nil] at hsplit
    rw [hsplit, Attribute.stamp, htake]
    exact collect_fingerprint hcrc _

end Message

/-! ### Verifying what was read -/

theorem Key.verify_sign (key : Key) (parts : List Bytes) :
    key.verify parts (key.sign parts) = .ok () := by
  obtain ⟨k, secret⟩ := key
  rw [verify]
  cases k with
  | sha1 => simp
  | sha256 =>
    have hlength : ((⟨.sha256, secret⟩ : Key).sign parts).length = 32 := Key.length_sign _ _
    have htake := List.take_of_length_le (Nat.le_of_eq hlength)
    simp [hlength, htake]

/-- A code over what is in front of it verifies. -/
theorem checkIntegrity_of_sign {m : Message} {w : Wire} {c : Credential} {k : Mechanism}
    {offset : Nat} (hchecked : w.checked? = some (k, offset))
    (hmac : m.attributes.findSome? k.macOf? =
      some ((c.key k).sign (covered w.bytes offset k.macLength)))
    (hlength : offset + 4 + k.macLength - headerLength ≤ maxLength) :
    checkIntegrity m (some w) c = .ok k := by
  have hmacLength : ((c.key k).sign (covered w.bytes offset k.macLength)).length =
      k.macLength := by
    rw [Key.length_sign, Credential.mechanism_key]
  rw [checkIntegrity_eq, hchecked]
  dsimp only
  rw [hmac]
  dsimp only
  rw [hmacLength, if_neg (Nat.not_lt.2 hlength), Key.verify_sign]
  rfl

/-- Whether the attribute has the form in which its kind is read. -/
def Attribute.IsTyped (a : Attribute) : Prop := a.isProtection ∨ a.Representable

theorem Attribute.IsTyped.ne_other {a : Attribute} (h : a.IsTyped) {kind : Kind}
    (hcode : a.code = kind.code) (code : UInt16) (value : Bytes) : a ≠ .other code value := by
  rintro rfl
  obtain rfl : code = kind.code := hcode
  rcases h with h | h
  · cases h
  · rw [Representable, Kind.ofCode?_code] at h
    cases h

namespace Message
variable {m : Message}

/-- Among typed attributes one of a kind that is there is found in its typed form. -/
theorem get?_of_mem (htyped : ∀ a ∈ m.attributes, a.IsTyped) {a : Attribute}
    (ha : a ∈ m.attributes) (kind : Kind) (hcode : a.code = kind.code) :
    ∃ b, m.get? kind.code = some b ∧ b.code = kind.code ∧ ∀ code value, b ≠ .other code value := by
  have hfound : (m.get? kind.code).isSome := by
    rw [get?, List.find?_isSome]
    exact ⟨a, ha, by simp [hcode]⟩
  obtain ⟨b, hb⟩ := Option.isSome_iff_exists.1 hfound
  have hb' := hb
  rw [get?, List.find?_eq_some_iff_append] at hb'
  have hcode' : b.code = kind.code := eq_of_beq hb'.1
  exact ⟨b, hb, hcode', (htyped b (List.mem_of_find?_eq_some hb)).ne_other hcode'⟩

theorem username_isSome (htyped : ∀ a ∈ m.attributes, a.IsTyped) {t : String}
    (ht : .username t ∈ m.attributes) : m.username.isSome := by
  obtain ⟨b, hget, hcode, hother⟩ := get?_of_mem htyped ht .username rfl
  rw [username, hget]
  cases b with
  | username => rfl
  | other code value => exact absurd rfl (hother code value)
  | _ => simp [Attribute.code, Kind.code] at hcode

theorem realm_isSome (htyped : ∀ a ∈ m.attributes, a.IsTyped) {t : String}
    (ht : .realm t ∈ m.attributes) : m.realm.isSome := by
  obtain ⟨b, hget, hcode, hother⟩ := get?_of_mem htyped ht .realm rfl
  rw [realm, hget]
  cases b with
  | realm => rfl
  | other code value => exact absurd rfl (hother code value)
  | _ => simp [Attribute.code, Kind.code] at hcode

theorem validate_eq_checkIntegrity {wire? : Option Wire} {c : Credential} (h : m.hasIntegrity)
    (husername : m.username.isSome) (hrealm : m.realm.isSome) :
    validate m wire? c = checkIntegrity m wire? c := by
  obtain ⟨u, hu⟩ := Option.isSome_iff_exists.1 husername
  obtain ⟨r, hr⟩ := Option.isSome_iff_exists.1 hrealm
  simp [validate, h, hu, hr]

/-- The attributes of a message but for those that protect, then a code, then what else protects. -/
def sealedBy (m : Message) (k : Mechanism) (mac : Bytes) (tail : List Attribute) : Message :=
  { m with attributes := m.attributes.filter (!·.isProtection) ++ [k.attribute mac] ++ tail }

section Sealed
variable {k : Mechanism} {mac : Bytes} {tail : List Attribute}

theorem findSome?_sealedBy (m : Message) (k : Mechanism) (mac : Bytes) (tail : List Attribute) :
    (m.sealedBy k mac tail).attributes.findSome? k.macOf? = some mac := by
  have hnone : (m.attributes.filter (!·.isProtection)).findSome? k.macOf? = none := by
    rw [List.findSome?_eq_none_iff]
    intro a ha
    exact k.macOf?_eq_none (by simpa using (List.mem_filter.1 ha).2)
  rw [sealedBy, List.findSome?_append, List.findSome?_append, hnone, List.findSome?_singleton,
    k.macOf?_attribute]
  rfl

theorem hasIntegrity_sealedBy (m : Message) (k : Mechanism) (mac : Bytes)
    (tail : List Attribute) : (m.sealedBy k mac tail).hasIntegrity := by
  rw [hasIntegrity, List.any_eq_true]
  refine ⟨k.attribute mac, by simp [sealedBy], ?_⟩
  cases k <;> rfl

theorem mem_sealedBy {a : Attribute} (ha : a ∈ m.attributes) (hplain : a.isProtection = false) :
    a ∈ (m.sealedBy k mac tail).attributes := by
  simp [sealedBy, ha, hplain]

theorem isTyped_sealedBy (hrep : ∀ a ∈ m.attributes, a.isProtection = false → a.Representable)
    (htail : ∀ a ∈ tail, a.isProtection) :
    ∀ a ∈ (m.sealedBy k mac tail).attributes, a.IsTyped := by
  intro a ha
  rcases List.mem_append.1 ha with ha | ha
  · rcases List.mem_append.1 ha with ha | ha
    · obtain ⟨ha, hplain⟩ := List.mem_filter.1 ha
      exact .inr (hrep a ha (by simpa using hplain))
    · obtain rfl := List.mem_singleton.1 ha
      exact .inl (by cases k <;> rfl)
  · exact .inl (htail a ha)

end Sealed

/-- The reader gets the plain attributes, the code that the signer computed over the packet in front
of it, and the fingerprint. -/
theorem decode_sealed {key : Key} {fingerprint : Bool} {bytes : Bytes}
    (hrep : ∀ a ∈ m.attributes, a.isProtection = false → a.Representable)
    (h : m.encode (some key) fingerprint = .ok bytes) :
    ∃ offset mac marks,
      Received.decode bytes = .ok ⟨m.sealedBy key.mechanism mac
        (if fingerprint then [.stamp bytes] else []), bytes, marks⟩ ∧
      Wire.checked? ⟨bytes, marks⟩ = some (key.mechanism, offset) ∧
      mac = key.sign (covered bytes offset key.mechanism.macLength) ∧
      offset + 4 + key.mechanism.macLength - headerLength ≤ maxLength := by
  obtain ⟨records, signed, sealed, hrecords, hsigned, hsealed, hframe⟩ := encode_stages h
  obtain ⟨rest, rfl, hrest, hstamp⟩ := read_stamp hsealed hframe
  obtain ⟨code, mac, rfl, hcode, hmac, hroom, hsplit⟩ := read_protect hsigned hframe
  have hmacLength : mac.length = key.mechanism.macLength := by rw [hmac, Key.length_sign]
  have hplain : ∀ a ∈ m.attributes.filter (!·.isProtection), a.isProtection = false := by
    intro a ha
    simpa using (List.mem_filter.1 ha).2
  have hwords : (records.flatten ++ code ++ rest).length % 4 = 0 := by
    have hflatten := length_flatten_mod hrecords
    rw [List.length_append, List.length_append]
    omega
  refine ⟨headerLength + records.flatten.length, mac,
    ({} : Marks).after (key.mechanism.attribute mac) (headerLength + records.flatten.length),
    ?_, ?_, hmac, ?_⟩
  · rw [received_frame hframe hwords, List.append_assoc, splitRecords_append hrecords, hsplit]
    dsimp only
    rw [collect_append hplain fun a ha => hrep a (List.mem_filter.1 ha).1 (hplain a ha),
      collect_integrity _ hmacLength, hstamp]
    simp [Functor.map, Except.map, sealedBy]
  · cases key.mechanism <;> rfl
  · simp only [headerLength, maxLength]
    omega

theorem decode_signed {key : Key} {fingerprint : Bool} {bytes : Bytes}
    (hrep : ∀ a ∈ m.attributes, a.isProtection = false → a.Representable)
    (h : m.encode (some key) fingerprint = .ok bytes) :
    ∃ offset mac crc marks,
      Received.decode bytes = .ok ⟨m.sealedBy key.mechanism mac
        (if fingerprint then [.fingerprint crc] else []), bytes, marks⟩ ∧
      Wire.checked? ⟨bytes, marks⟩ = some (key.mechanism, offset) ∧
      mac = key.sign (covered bytes offset key.mechanism.macLength) ∧
      offset + 4 + key.mechanism.macLength - headerLength ≤ maxLength := by
  obtain ⟨offset, mac, marks, hdecode, hchecked⟩ := decode_sealed hrep h
  exact ⟨offset, mac, _, marks, hdecode, hchecked⟩

/-- What is written with the code of a key is read as the same message with just that code behind
its attributes, and with the fingerprint if one was asked for. The code verifies, and the request
is authentic if it names its user and realm. -/
theorem decode_encode_signed {c : Credential} {k : Mechanism} {fingerprint : Bool} {bytes : Bytes}
    (hrep : ∀ a ∈ m.attributes, a.isProtection = false → a.Representable)
    (h : m.encode (some (c.key k)) fingerprint = .ok bytes) :
    ∃ r mac crc, Received.decode bytes = .ok r ∧
      r.message.method = m.method ∧ r.message.cls = m.cls ∧ r.message.tid = m.tid ∧
      r.message.attributes = m.attributes.filter (!·.isProtection) ++ [k.attribute mac] ++
        (if fingerprint then [.fingerprint crc] else []) ∧
      checkIntegrity r.message (some r.wire) c = .ok k ∧
      ((∃ t, .username t ∈ m.attributes) → (∃ t, .realm t ∈ m.attributes) →
        validate r.message (some r.wire) c = .ok k) := by
  obtain ⟨offset, mac, crc, marks, hdecode, hchecked, hmac, hroom⟩ := decode_signed hrep h
  rw [Credential.mechanism_key] at hdecode hchecked hmac hroom
  generalize htail : (if fingerprint then [Attribute.fingerprint crc] else []) = tail at hdecode
  have hprotect : ∀ a ∈ tail, a.isProtection := by
    rw [← htail]
    cases fingerprint <;> simp [Attribute.isProtection]
  have hverified : checkIntegrity (m.sealedBy k mac tail) (some ⟨bytes, marks⟩) c = .ok k :=
    checkIntegrity_of_sign hchecked ((m.findSome?_sealedBy k mac tail).trans (congrArg some hmac))
      hroom
  refine ⟨_, mac, crc, hdecode, rfl, rfl, rfl, ?_, hverified, ?_⟩
  · rw [htail]
    rfl
  · rintro ⟨user, huser⟩ ⟨realm, hrealm⟩
    have htyped := @isTyped_sealedBy m k mac tail hrep hprotect
    rw [validate_eq_checkIntegrity (m.hasIntegrity_sealedBy k mac tail)
      (username_isSome htyped (mem_sealedBy huser rfl))
      (realm_isSome htyped (mem_sealedBy hrealm rfl)), hverified]

/-- A Refresh request that holds a code of the other mechanism gets its own in place of it. -/
theorem decode_encode_signed_refresh :
    let c : Credential := ⟨"bob", "r", "secret"⟩
    let m : Message := ⟨.refresh, .request, 7,
      [.messageIntegritySha256 [1], .username "bob", .realm "r"]⟩
    let header : Bytes := [0, 4, 0, 48, 33, 18, 164, 66, 0, 0, 0, 0, 0, 0, 0, 0, 0, 0, 0, 7]
    let plain : Bytes := [0, 6, 0, 3, 98, 111, 98, 0, 0, 20, 0, 1, 114, 0, 0, 0]
    let code : Bytes := [0, 8, 0, 20, 227, 127, 27, 231, 41, 220, 204, 208, 88, 87, 105, 234, 123, 101,
      48, 230, 115, 31, 63, 133]
    let mark : Bytes := [128, 40, 0, 4, 21, 141, 227, 74]
    (∀ a ∈ m.attributes, a.isProtection = false → a.Representable) ∧
      m.encode (some (c.key .sha1)) true = .ok (header ++ plain ++ code ++ mark) ∧
      ∃ r mac crc, Received.decode (header ++ plain ++ code ++ mark) = .ok r ∧
        r.message.attributes =
          [.username "bob", .realm "r", .messageIntegrity mac, .fingerprint crc] ∧
        validate r.message (some r.wire) c = .ok .sha1 := by
  intro c m header plain code mark
  have hrep : ∀ a ∈ m.attributes, a.isProtection = false → a.Representable := by
    intro a ha hplain
    simp only [m, List.mem_cons, List.not_mem_nil, or_false] at ha
    rcases ha with rfl | rfl | rfl
    · cases hplain
    · change (Bytes.ofText "bob").length ≤ 513
      decide
    · change (Bytes.ofText "r").length ≤ 763
      decide
  -- Stage by stage, since the checksum needs the code as plain bytes.
  have hbody : m.body = .ok plain := by decide +kernel
  have hsigned : m.protect plain (c.key .sha1) = .ok (plain ++ code) := by decide +kernel
  have hstamped : m.stamp (plain ++ code) = .ok (plain ++ code ++ mark) := by decide +kernel
  have hframe : m.frame (plain ++ code ++ mark) 0 = .ok (header ++ plain ++ code ++ mark) := by
    decide +kernel
  have hencode : m.encode (some (c.key .sha1)) true = .ok (header ++ plain ++ code ++ mark) :=
    bind_eq_ok.2 ⟨_, hbody, bind_eq_ok.2 ⟨_, hsigned, bind_eq_ok.2 ⟨_, hstamped, hframe⟩⟩⟩
  obtain ⟨r, mac, crc, hdecode, -, -, -, hattributes, -, hvalid⟩ :=
    decode_encode_signed hrep hencode
  exact ⟨hrep, hencode, r, mac, crc, hdecode, hattributes,
    hvalid ⟨"bob", by simp [m]⟩ ⟨"r", by simp [m]⟩⟩

end Message
end NatRelay.Stun
