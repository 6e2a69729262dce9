import Mathlib.Control.Monad.Basic
import NatRelay.Proofs.Stun.Reading
import NatRelay.Proofs.Stun.Representable
import NatRelay.Stun.Datagram

/-! Writing a message and reading it again. Main statement: `decode_encode_iff`, that just the
messages whose attributes are all representable come back. -/
namespace NatRelay.Stun

variable {tid : TransactionId} {packet : Bytes}

/-- The records of attributes that are written one after the other from an offset on. -/
def layOut (tid : TransactionId) : Nat → List Attribute → List Record
  | _, [] => []
  | offset, a :: as => ⟨offset, a.code, a.value tid⟩ ::
      layOut tid (offset + 4 + Bytes.paddedLength (a.value tid).length) as

theorem record_eq_ok {code : UInt16} {value bytes : Bytes} : record code value = .ok bytes ↔
    value.length ≤ 65535 ∧ bytes = Bytes.be16 code ++ Bytes.be16 (UInt16.ofNat value.length) ++
      value ++ Bytes.padding value.length := by
  rw [record, maxLength]
  split
  · rename_i h
    simp [Nat.not_le.2 h]
  · rename_i h
    simp [Nat.le_of_not_lt h, eq_comm]

theorem length_record {code : UInt16} {value bytes : Bytes} (h : record code value = .ok bytes) :
    bytes.length = 4 + Bytes.paddedLength value.length := by
  obtain ⟨-, rfl⟩ := record_eq_ok.1 h
  have hle := Bytes.le_paddedLength value.length
  simp only [List.length_append, Bytes.length_be16, Bytes.length_padding]
  omega

/-- A record in front is cut off as it was written. -/
theorem splitRecords_record {code : UInt16} {value bytes : Bytes}
    (h : record code value = .ok bytes) (offset : Nat) (rest : Bytes) :
    splitRecords offset (bytes ++ rest) =
      (⟨offset, code, value⟩ ::
          (splitRecords (offset + 4 + Bytes.paddedLength value.length) rest).1,
        (splitRecords (offset + 4 + Bytes.paddedLength value.length) rest).2) := by
  have hlength := length_record h
  obtain ⟨hvalue, rfl⟩ := record_eq_ok.1 h
  have hlt := Bytes.paddedLength_lt value.length
  have hmod := Bytes.paddedLength_mod value.length
  have hle := Bytes.le_paddedLength value.length
  have hfills : Record.Fills ⟨offset, code, value⟩ (Bytes.be16 code ++
      Bytes.be16 (UInt16.ofNat value.length) ++ value ++ Bytes.padding value.length) := by
    refine ⟨hvalue, Bytes.padding value.length, ?_, ?_, rfl⟩
    · rw [Bytes.length_padding]
      omega
    · rw [Bytes.length_padding, Nat.add_sub_cancel' hle, hmod]
  rw [splitRecords_fills hfills, hlength, ← Nat.add_assoc]

/-- What is written as records is cut off record by record. -/
theorem splitRecords_append {as : List Attribute} {records : List Bytes}
    (h : as.mapM (fun a => record a.code (a.value tid)) = .ok records) (offset : Nat)
    (rest : Bytes) :
    splitRecords offset (records.flatten ++ rest) =
      (layOut tid offset as ++ (splitRecords (offset + records.flatten.length) rest).1,
        (splitRecords (offset + records.flatten.length) rest).2) := by
  induction as generalizing offset records with
  | nil =>
    cases h
    rfl
  | cons a as ih =>
    rw [List.mapM_cons] at h
    obtain ⟨bytes, hbytes, h⟩ := bind_eq_ok.1 h
    obtain ⟨others, hothers, h⟩ := bind_eq_ok.1 h
    obtain rfl := Except.ok.inj h
    have hend : offset + (bytes :: others).flatten.length =
        offset + 4 + Bytes.paddedLength (a.value tid).length + others.flatten.length := by
      rw [List.flatten_cons, List.length_append, length_record hbytes]
      omega
    rw [hend, List.flatten_cons, List.append_assoc, splitRecords_record hbytes, ih hothers, layOut]
    rfl

/-- What is written as records is cut into just these. -/
theorem splitRecords_layOut {as : List Attribute} {records : List Bytes}
    (h : as.mapM (fun a => record a.code (a.value tid)) = .ok records) (offset : Nat) :
    splitRecords offset records.flatten = (layOut tid offset as, true) := by
  have hsplit := splitRecords_append h offset []
  rwa [splitRecords, List.append_nil, List.append_nil] at hsplit

theorem length_flatten_mod {as : List Attribute} {records : List Bytes}
    (h : as.mapM (fun a => record a.code (a.value tid)) = .ok records) :
    records.flatten.length % 4 = 0 := by
  induction as generalizing records with
  | nil =>
    cases h
    rfl
  | cons a as ih =>
    rw [List.mapM_cons] at h
    obtain ⟨bytes, hbytes, h⟩ := bind_eq_ok.1 h
    obtain ⟨rest, hrest, h⟩ := bind_eq_ok.1 h
    obtain rfl := Except.ok.inj h
    have hlength := length_record hbytes
    have hpadded := Bytes.paddedLength_mod (a.value tid).length
    have hrest := ih hrest
    rw [List.flatten_cons, List.length_append]
    omega

/-- Representable attributes are read in front of whatever follows them. -/
theorem collect_append {whole : Bool} {as : List Attribute}
    (hplain : ∀ a ∈ as, a.isProtection = false) (hrep : ∀ a ∈ as, a.Representable)
    (offset : Nat) (rs : List Record) :
    collect packet tid whole {} (layOut tid offset as ++ rs) =
      (fun read => (as ++ read.1, read.2)) <$> collect packet tid whole {} rs := by
  induction as generalizing offset with
  | nil =>
    change collect packet tid whole {} rs = _
    cases collect packet tid whole {} rs <;> rfl
  | cons a as ih =>
    obtain ⟨ha, hplain⟩ := List.forall_mem_cons.1 hplain
    obtain ⟨har, hrep⟩ := List.forall_mem_cons.1 hrep
    have hne : ∀ crc, a ≠ .fingerprint crc := by
      rintro crc rfl
      cases ha
    rw [layOut, List.cons_append, collect_shown (Marks.shows_empty _)
      ((Attribute.ofValue_value ha).2 har) hne, Marks.after_of_not_isProtection ha, ih hplain hrep]
    cases collect packet tid whole {} rs <;> rfl

/-- What is read back was representable. -/
theorem representable_of_collect {as : List Attribute} (has : ∀ a ∈ as, a.isProtection = false)
    {offset : Nat} {marks : Marks}
    (h : collect packet tid true {} (layOut tid offset as) = .ok (as, marks)) :
    ∀ a ∈ as, a.Representable := by
  induction as generalizing offset with
  | nil => simp
  | cons a as ih =>
    obtain ⟨ha, has⟩ := List.forall_mem_cons.1 has
    rcases collect_cons h with ⟨hhidden, -⟩ | ⟨-, b, hb, hread⟩
    · rw [Marks.shows_empty] at hhidden
      cases hhidden
    rcases hread with ⟨crc, rfl, heq, -⟩ | ⟨-, rest, heq, hrest⟩
    · rw [List.head_eq_of_cons_eq heq] at ha
      cases ha
    · obtain ⟨rfl, rfl⟩ := List.cons.inj heq
      rw [Marks.after_of_not_isProtection ha] at hrest
      exact List.forall_mem_cons.2 ⟨(Attribute.ofValue_value ha).1 hb, ih has hrest⟩

/-- Attributes that do not protect are read back from their records just if all of them are
representable. -/
theorem collect_layOut {as : List Attribute} (has : ∀ a ∈ as, a.isProtection = false)
    (offset : Nat) : (∃ marks, collect packet tid true {} (layOut tid offset as) =
      .ok (as, marks)) ↔ ∀ a ∈ as, a.Representable := by
  constructor
  · rintro ⟨marks, h⟩
    exact representable_of_collect has h
  · intro hrep
    have hread := @collect_append tid packet true as has hrep offset []
    rw [List.append_nil] at hread
    exact ⟨{}, hread.trans (by simp [collect, Functor.map, Except.map])⟩

namespace Message
variable {m : Message} {body bytes : Bytes}

theorem frame_eq_ok : m.frame body 0 = .ok bytes ↔ body.length ≤ 65535 ∧
    bytes = Bytes.be16 (messageType m.method m.cls) ++ Bytes.be16 (UInt16.ofNat body.length) ++
      Bytes.ofNat 4 magicCookie.toNat ++ Bytes.ofNat 12 m.tid.toNat ++ body := by
  rw [frame, maxLength, Nat.add_zero]
  split
  · rename_i h
    simp [Nat.not_le.2 h]
  · rename_i h
    simp [Nat.le_of_not_lt h, eq_comm]

theorem messageType_lt (method : Method) (cls : Class) :
    (messageType method cls).toNat < 0x4000 := by
  cases method <;> cases cls <;> decide

theorem ofType_messageType (method : Method) (cls : Class) :
    Class.ofType (messageType method cls) = cls := by
  cases method <;> cases cls <;> rfl

/-- A framed body is read as the attributes of its records, under the head of the message. -/
theorem received_frame (h : m.frame body 0 = .ok bytes) (hwords : body.length % 4 = 0) :
    Received.decode bytes =
      (fun read => ⟨{ m with attributes := read.1 }, bytes, read.2⟩) <$>
        collect bytes m.tid (splitRecords headerLength body).2 {}
          (splitRecords headerLength body).1 := by
  obtain ⟨hfits, rfl⟩ := frame_eq_ok.1 h
  obtain ⟨t₁, t₀, htype, htype', -⟩ := Bytes.be16_eq (messageType m.method m.cls)
  obtain ⟨l₁, l₀, hlength, hlength', -⟩ := Bytes.be16_eq (UInt16.ofNat body.length)
  have hcookie : Bytes.toNat (Bytes.ofNat 4 magicCookie.toNat) = magicCookie.toNat :=
    Bytes.toNat_ofNat magicCookie.isLt
  have htid : BitVec.ofNat 96 (Bytes.toNat (Bytes.ofNat 12 m.tid.toNat)) = m.tid := by
    rw [Bytes.toNat_ofNat m.tid.isLt, BitVec.ofNat_toNat, BitVec.setWidth_eq]
  generalize hc : Bytes.ofNat 4 magicCookie.toNat = cookie at hcookie
  generalize hi : Bytes.ofNat 12 m.tid.toNat = tid at htid
  have hclength : cookie.length = 4 := by rw [← hc, Bytes.length_ofNat]
  have hilength : tid.length = 12 := by rw [← hi, Bytes.length_ofNat]
  have hsize : (Bytes.word16 l₁ l₀).toNat = body.length := by
    rw [hlength', UInt16.toNat_ofNat_of_lt' (Nat.lt_succ_of_le hfits)]
  have htake : (cookie ++ tid ++ body).take 4 = cookie := by
    rw [List.append_assoc, ← hclength, List.take_left]
  have hdrop : ((cookie ++ tid ++ body).drop 4).take 12 = tid := by
    rw [List.append_assoc, ← hclength, List.drop_left, ← hilength, List.take_left]
  have hbody : (cookie ++ tid ++ body).drop 16 = body := by
    have hhead : (cookie ++ tid).length = 16 := by simp [hclength, hilength]
    rw [← hhead, List.drop_left]
  have hbytes : Bytes.be16 (messageType m.method m.cls) ++
      Bytes.be16 (UInt16.ofNat body.length) ++ cookie ++ tid ++ body =
      t₁ :: t₀ :: l₁ :: l₀ :: (cookie ++ tid ++ body) := by
    simp [htype, hlength]
  rw [hbytes, Received.decode, htake, hdrop, hbody, hsize, htype', hcookie, htid,
    split_messageType]
  have hshape : ¬ ((cookie ++ tid ++ body).length < 16 ∨ body.length % 4 ≠ 0 ∨
      (t₁ :: t₀ :: l₁ :: l₀ :: (cookie ++ tid ++ body)).length ≠ headerLength + body.length) := by
    simp only [List.length_append, List.length_cons, hclength, hilength, headerLength]
    omega
  simp only [hshape, if_false, ne_eq, not_true_eq_false]
  change (collect _ _ _ _ _ >>= _) = _
  cases collect _ m.tid (splitRecords headerLength body).2 {}
    (splitRecords headerLength body).1 <;> rfl

/-- A message is written in stages: its plain records, what a key adds to them, what the fingerprint
adds, and the header in front. -/
theorem encode_stages {key? : Option Key} {fingerprint : Bool}
    (h : m.encode key? fingerprint = .ok bytes) :
    ∃ records signed sealed,
      (m.attributes.filter (!·.isProtection)).mapM (fun a => record a.code (a.value m.tid)) =
        .ok records ∧
      (match key? with
        | some key => m.protect records.flatten key
        | none => .ok records.flatten) = .ok signed ∧
      (if fingerprint then m.stamp signed else .ok signed) = .ok sealed ∧
      m.frame sealed 0 = .ok bytes := by
  rw [encode] at h
  obtain ⟨body, hbody, h⟩ := bind_eq_ok.1 h
  obtain ⟨records, hrecords, hflatten⟩ := bind_eq_ok.1 hbody
  obtain rfl := Except.ok.inj hflatten
  obtain ⟨signed, hsigned, h⟩ : ∃ signed, (match key? with
      | some key => m.protect records.flatten key
      | none => .ok records.flatten) = .ok signed ∧
      ((if fingerprint then m.stamp signed else .ok signed) >>= (m.frame · 0)) = .ok bytes := by
    cases key? <;> cases fingerprint <;> exact bind_eq_ok.1 h
  obtain ⟨sealed, hsealed, hframe⟩ := bind_eq_ok.1 h
  exact ⟨records, signed, sealed, hrecords, hsigned, hsealed, hframe⟩

theorem frame_of_encode {key? : Option Key} {fingerprint : Bool}
    (h : m.encode key? fingerprint = .ok bytes) : ∃ body, m.frame body 0 = .ok bytes := by
  obtain ⟨-, -, sealed, -, -, -, hframe⟩ := encode_stages h
  exact ⟨sealed, hframe⟩

/-- The class of a written message stands in its first two bytes. -/
theorem peekClass_of_encode {key? : Option Key} {fingerprint : Bool}
    (h : m.encode key? fingerprint = .ok bytes) : peekClass bytes = some m.cls := by
  obtain ⟨body, hframe⟩ := frame_of_encode h
  obtain ⟨-, rfl⟩ := frame_eq_ok.1 hframe
  obtain ⟨high, low, htype, htype', hfirst⟩ := Bytes.be16_eq (messageType m.method m.cls)
  have hlt := messageType_lt m.method m.cls
  have htop : high.toNat / 64 = 0 := by omega
  simp only [htype, List.cons_append, peekClass, htop, if_true, htype', ofType_messageType]

/-- Whatever is read as a message has its class there. -/
theorem peekClass_of_decode {r : Received} (h : Received.decode bytes = .ok r) :
    peekClass bytes = some r.message.cls := by
  obtain ⟨-, -, ⟨type, htype, hkind⟩, -⟩ := decode_eq_ok.1 h
  obtain ⟨high, low, hbytes, hword, hfirst⟩ := Bytes.be16_eq type
  obtain ⟨rest, rfl⟩ : ∃ rest, bytes = high :: low :: rest := by
    refine ⟨bytes.drop 2, ?_⟩
    rw [← List.take_append_drop 2 bytes, htype, hbytes]
    rfl
  rw [splitMessageType] at hkind
  split at hkind
  · cases hkind
  rename_i hsmall
  have hsmall : type.toNat < 0x4000 := Nat.lt_of_not_le hsmall
  have htop : high.toNat / 64 = 0 := by omega
  split at hkind
  · obtain ⟨-, hcls⟩ := Prod.mk.inj (Except.ok.inj hkind)
    rw [peekClass, if_pos htop, hword, hcls]
  · cases hkind

/-- A framed message is told from channel data by its first bits. -/
theorem decode_frame (h : m.frame body 0 = .ok bytes) :
    Datagram.decode bytes = .message <$> Received.decode bytes := by
  obtain ⟨-, rfl⟩ := frame_eq_ok.1 h
  obtain ⟨t₁, t₀, htype, -, hfirst⟩ := Bytes.be16_eq (messageType m.method m.cls)
  obtain ⟨l₁, l₀, hlength, -, -⟩ := Bytes.be16_eq (UInt16.ofNat body.length)
  have hlt := messageType_lt m.method m.cls
  have htop : t₁.toNat / 64 = 0 := by omega
  simp only [htype, hlength, List.cons_append, List.nil_append, Datagram.decode, htop]

/-- Written bytes are read, if at all, as a message of the same method and class. -/
theorem head_of_encode {key? : Option Key} {fingerprint : Bool} {d : Datagram}
    (h : m.encode key? fingerprint = .ok bytes)
    (hdecoded : Datagram.decode bytes = .ok d) :
    ∃ r, d = .message r ∧ r.message.method = m.method ∧ r.message.cls = m.cls := by
  obtain ⟨body, hframe⟩ := frame_of_encode h
  rw [decode_frame hframe, map_eq_ok] at hdecoded
  obtain ⟨r, hr, rfl⟩ := hdecoded
  obtain ⟨-, -, ⟨type, htype, hkind⟩, -⟩ := decode_eq_ok.1 hr
  obtain ⟨-, rfl⟩ := frame_eq_ok.1 hframe
  have htype : messageType m.method m.cls = type := Bytes.be16_injective htype
  rw [← htype, split_messageType] at hkind
  obtain ⟨hmethod, hcls⟩ := Prod.mk.inj (Except.ok.inj hkind)
  exact ⟨r, rfl, hmethod.symm, hcls.symm⟩

theorem encode_plain (h : ∀ a ∈ m.attributes, a.isProtection = false) :
    m.encode none false = (do
      let records ← m.attributes.mapM fun a => record a.code (a.value m.tid)
      m.frame records.flatten 0) := by
  have hall : m.attributes.filter (!·.isProtection) = m.attributes := by
    rw [List.filter_eq_self]
    intro a ha
    simp [h a ha]
  rw [encode, Message.body, hall]
  cases m.attributes.mapM fun a => record a.code (a.value m.tid) <;> rfl

/-- A message without attributes that protect comes back from its bytes just if all its attributes
are representable. -/
theorem decode_encode_iff (hplain : ∀ a ∈ m.attributes, a.isProtection = false)
    (hencode : m.encode none false = .ok bytes) :
    (∃ wire, Datagram.decode bytes = .ok (.message ⟨m, wire⟩)) ↔
      ∀ a ∈ m.attributes, a.Representable := by
  rw [encode_plain hplain] at hencode
  obtain ⟨records, hrecords, hframe⟩ := bind_eq_ok.1 hencode
  -- Framing apart, both sides speak of the collection of the records.
  rw [decode_frame hframe, received_frame hframe (length_flatten_mod hrecords),
    splitRecords_layOut hrecords, ← @collect_layOut m.tid bytes _ hplain headerLength]
  simp only [map_eq_ok]
  constructor
  · rintro ⟨wire, received, ⟨⟨attributes, marks⟩, hcollect, rfl⟩, heq⟩
    obtain ⟨hm, -⟩ := Received.mk.inj (Datagram.message.inj heq)
    have hattributes : attributes = m.attributes := congrArg Message.attributes hm
    rw [← hattributes]
    exact ⟨marks, hattributes ▸ hcollect⟩
  · rintro ⟨marks, hcollect⟩
    exact ⟨⟨bytes, marks⟩, _, ⟨_, hcollect, rfl⟩, rfl⟩

/-- A peer, a name with padding and an unknown kind come back; a lifetime does not where it is
given as raw bytes. -/
theorem decode_encode_raw_lifetime :
    let m : Message := ⟨.createPermission, .request, 7,
      [.xorPeerAddress (.v4 0xC6336407 5000), .username "bob", .other 0x24 [1]]⟩
    let raw : Message := ⟨.refresh, .request, 7, [.other 0x0D [0, 0, 1, 44]]⟩
    let header : Bytes := [33, 18, 164, 66, 0, 0, 0, 0, 0, 0, 0, 0, 0, 0, 0, 7]
    let bytes : Bytes := [0, 8, 0, 28] ++ header ++ [0, 18, 0, 8, 0, 1, 50, 154, 231, 33, 192, 69] ++
      [0, 6, 0, 3, 98, 111, 98, 0] ++ [0, 36, 0, 1, 1, 0, 0, 0]
    let rawBytes : Bytes := [0, 4, 0, 8] ++ header ++ [0, 13, 0, 4, 0, 0, 1, 44]
    m.encode none false = .ok bytes ∧ raw.encode none false = .ok rawBytes ∧
      (∃ wire, Datagram.decode bytes = .ok (.message ⟨m, wire⟩)) ∧
      ¬ ∃ wire, Datagram.decode rawBytes = .ok (.message ⟨raw, wire⟩) := by
  intro m raw header bytes rawBytes
  have hencode : m.encode none false = .ok bytes := by decide +kernel
  have hraw : raw.encode none false = .ok rawBytes := by decide +kernel
  refine ⟨hencode, hraw, (decode_encode_iff (by decide) hencode).2 ?_, ?_⟩
  · intro a ha
    simp only [m, List.mem_cons, List.not_mem_nil, or_false] at ha
    rcases ha with rfl | rfl | rfl
    · exact ⟨rfl, rfl⟩
    · change (Bytes.ofText "bob").length ≤ 513
      decide
    · rfl
  · rw [decode_encode_iff (by decide) hraw]
    intro h
    cases h _ List.mem_cons_self

end Message
end NatRelay.Stun
