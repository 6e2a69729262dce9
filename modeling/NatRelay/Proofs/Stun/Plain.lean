import NatRelay.Proofs.Stun.Canonical
import NatRelay.Proofs.Stun.Sealed

/-! What of a packet stands in front of all that protects it: as it was written
(`plainRecords_of_encode`), and as whoever reads the packet finds it (`getAll_of_decode`). -/
namespace NatRelay.Stun

namespace Message
variable {m : Message} {body bytes : Bytes}

theorem drop_frame (h : m.frame body 0 = .ok bytes) : bytes.drop headerLength = body := by
  obtain ⟨-, rfl⟩ := frame_eq_ok.1 h
  exact List.drop_left' (by simp [headerLength])

/-- Behind the records of a message nothing is written but what protects it. -/
inductive Guard : Bytes → Prop
  | none : Guard []
  | record (kind : Kind) {value bytes : Bytes} (hkind : kind.isProtection)
    (h : record kind.code value = .ok bytes) (rest : Bytes) : Guard (bytes ++ rest)

/-- With a fingerprint or without one, what is written behind protects. -/
theorem guard_of_stamp {signed sealed : Bytes} {fingerprint : Bool}
    (h : (if fingerprint then m.stamp signed else .ok signed) = .ok sealed) :
    ∃ rest, Guard rest ∧ sealed = signed ++ rest := by
  cases fingerprint with
  | true =>
    obtain ⟨_, mark, -, hmark, rfl⟩ := stamp_eq_ok.1 h
    have hguard := Guard.record .fingerprint rfl hmark []
    rw [List.append_nil] at hguard
    exact ⟨mark, hguard, rfl⟩
  | false =>
    obtain rfl := Except.ok.inj h
    exact ⟨[], .none, (List.append_nil _).symm⟩

/-- A message is written as its records, and then what protects them. -/
theorem encode_guarded {key? : Option Key} {fingerprint : Bool}
    (h : m.encode key? fingerprint = .ok bytes) : ∃ records rest,
      m.unprotected.attributes.mapM (fun a => record a.code (a.value m.tid)) = .ok records ∧
        Guard rest ∧ m.frame (records.flatten ++ rest) 0 = .ok bytes := by
  obtain ⟨records, signed, sealed, hrecords, hsigned, hsealed, hframe⟩ := encode_stages h
  obtain ⟨rest, hrest, rfl⟩ := guard_of_stamp hsealed
  cases key? with
  | none =>
    obtain rfl := Except.ok.inj hsigned
    exact ⟨records, rest, hrecords, hrest, hframe⟩
  | some key =>
    obtain ⟨_, code, -, hcode, rfl⟩ := protect_eq_ok.1 hsigned
    have hkind : key.mechanism.kind.isProtection := by cases key.mechanism <;> rfl
    rw [List.append_assoc] at hframe
    exact ⟨records, code ++ rest, hrecords, .record _ hkind hcode rest, hframe⟩

theorem Guard.takeWhile_records {rest : Bytes} (h : Guard rest) (offset : Nat) :
    (splitRecords offset rest).1.takeWhile (!·.isProtection) = [] := by
  cases h with
  | none => rw [splitRecords]; rfl
  | record kind hkind hrecord rest =>
    rw [splitRecords_record hrecord]
    refine List.takeWhile_cons_of_neg ?_
    simp [Record.isProtection, hkind]

end Message

theorem takeWhile_layOut {tid : TransactionId} {as : List Attribute} {rs : List Record}
    (hplain : ∀ a ∈ as, (Kind.ofCode? a.code).any Kind.isProtection = false) (offset : Nat) :
    (layOut tid offset as ++ rs).takeWhile (!·.isProtection) =
      layOut tid offset as ++ rs.takeWhile (!·.isProtection) := by
  induction as generalizing offset with
  | nil => rfl
  | cons a as ih =>
    obtain ⟨ha, hplain⟩ := List.forall_mem_cons.1 hplain
    rw [layOut, List.cons_append, List.takeWhile_cons_of_pos (by simp [Record.isProtection, ha]),
      ih hplain, List.cons_append]

theorem Attribute.isProtection_eq_false {a : Attribute}
    (h : (Kind.ofCode? a.code).any Kind.isProtection = false) : a.isProtection = false := by
  cases a with
  | messageIntegrity | messageIntegritySha256 | fingerprint => cases h
  | _ => rfl

/-- Attributes of kinds that do not protect stand in front, in order. -/
theorem plainRecords_of_encode {m : Message} {bytes : Bytes} {key? : Option Key}
    {fingerprint : Bool}
    (hplain : ∀ a ∈ m.attributes, (Kind.ofCode? a.code).any Kind.isProtection = false)
    (h : m.encode key? fingerprint = .ok bytes) :
    plainRecords bytes = layOut m.tid headerLength m.attributes := by
  obtain ⟨records, rest, hrecords, hguard, hframe⟩ := Message.encode_guarded h
  have hall : m.unprotected.attributes = m.attributes := by
    rw [Message.unprotected, List.filter_eq_self]
    exact fun a ha => by simp [Attribute.isProtection_eq_false (hplain a ha)]
  rw [hall] at hrecords
  rw [plainRecords, Message.drop_frame hframe, splitRecords_append hrecords,
    takeWhile_layOut hplain, hguard.takeWhile_records, List.append_nil]

/-- The records with a number have the values of the attributes with it. -/
theorem filter_layOut (tid : TransactionId) (offset : Nat) (as : List Attribute) (code : UInt16) :
    ((layOut tid offset as).filter (·.code = code)).map (·.value) =
      (as.filter (·.code = code)).map (·.value tid) := by
  induction as generalizing offset with
  | nil => rfl
  | cons a as ih =>
    rw [layOut, List.filter_cons, List.filter_cons, apply_ite (List.map _), apply_ite (List.map _),
      List.map_cons, List.map_cons, ih]

/-- The attributes of a kind are read off the records with its number. -/
theorem filter_of_mapM {tid : TransactionId} {rs : List Record} {as : List Attribute}
    (h : rs.mapM (fun r => Attribute.ofValue tid r.code r.value) = .ok as) (kind : Kind) :
    ((rs.filter (·.code = kind.code)).map (·.value)).mapM (Attribute.ofKind tid · kind) =
      .ok (as.filter (·.code == kind.code)) := by
  induction rs generalizing as with
  | nil =>
    obtain rfl := Except.ok.inj h
    rfl
  | cons r rs ih =>
    rw [List.mapM_cons] at h
    obtain ⟨a, ha, h⟩ := bind_eq_ok.1 h
    obtain ⟨rest, hrest, h⟩ := bind_eq_ok.1 h
    obtain rfl := Except.ok.inj h
    have hcode := Attribute.code_ofValue ha
    by_cases hkind : r.code = kind.code
    · have hread : Attribute.ofKind tid r.value kind = .ok a := by
        rw [hkind, Attribute.ofValue, Kind.ofCode?_code] at ha
        exact ha
      rw [List.filter_cons_of_pos (by simp [hkind]), List.map_cons, List.mapM_cons, hread, ih hrest,
        List.filter_cons_of_pos (by simp [hcode, hkind])]
      rfl
    · rw [List.filter_cons_of_neg (by simp [hkind]), ih hrest,
        List.filter_cons_of_neg (by simp [hcode, hkind])]

/-- What a reader finds of a kind that does not protect is read off the records in front. -/
theorem getAll_of_decode {b : Bytes} {r : Received} (h : Received.decode b = .ok r) {kind : Kind}
    (hkind : kind.isProtection = false) :
    (((plainRecords b).filter (·.code = kind.code)).map (·.value)).mapM
        (Attribute.ofKind r.message.tid · kind) = .ok (r.message.getAll kind.code) := by
  obtain ⟨-, -, -, htid, -, hcollect⟩ := decode_eq_ok.1 h
  rw [← htid] at hcollect
  have hplain : r.message.getAll kind.code =
      (r.message.attributes.filter (!·.isProtection)).filter (·.code == kind.code) := by
    rw [Message.getAll, List.filter_filter]
    apply List.filter_congr
    intro a _
    cases ha : a.isProtection with
    | false => simp
    | true => simp [a.code_ne_of_isProtection ha hkind]
  rw [hplain]
  exact filter_of_mapM (mapM_of_collect hcollect) kind

end NatRelay.Stun
