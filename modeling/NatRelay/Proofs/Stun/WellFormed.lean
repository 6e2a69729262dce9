import NatRelay.Proofs.Stun.AttributeValue

/-! Which bytes are read as a value of each kind. Main statement: `ofValue_isOk`. -/
namespace NatRelay.Stun

/-- UTF-8 of a bounded length. -/
def IsText (limit : Nat) (value : Bytes) : Prop :=
  value.length ≤ limit ∧ ∃ text, Bytes.ofText text = value

/-- Four bytes in front of an IP of the family that the second one names. -/
def IsAddress (value : Bytes) : Prop :=
  value.length = 8 ∧ value[1]? = some 1 ∨ value.length = 20 ∧ value[1]? = some 2

/-- A number from 300 to 699, its hundreds in three bits, and a reason. -/
def IsErrorCode (value : Bytes) : Prop :=
  ∃ r₁ r₀ hundreds number reason, value = r₁ :: r₀ :: hundreds :: number :: reason ∧
    3 ≤ hundreds.toNat % 8 ∧ hundreds.toNat % 8 ≤ 6 ∧ number.toNat ≤ 99 ∧ IsText 763 reason

namespace Kind

/-- The values that an attribute of the kind can have. -/
def Admits : Kind → Bytes → Prop
  | mappedAddress, value | responseOrigin, value | xorMappedAddress, value |
    xorPeerAddress, value | xorRelayedAddress, value => IsAddress value
  | username, value => IsText 513 value
  | realm, value | nonce, value | software, value => IsText 763 value
  | messageIntegrity, value => value.length = 20
  | messageIntegritySha256, value => 16 ≤ value.length ∧ value.length ≤ 32 ∧ value.length % 4 = 0
  | fingerprint, value | lifetime, value | channelNumber, value |
    requestedTransport, value => value.length = 4
  | requestedAddressFamily, value =>
    value.length = 4 ∧ (value[0]? = some 1 ∨ value[0]? = some 2)
  | errorCode, value => IsErrorCode value
  | unknownAttributes, value => value.length % 2 = 0
  | data, _ => True

end Kind

/-- Whether bytes are a value of the kind that a number stands for; a number of no kind stands for
any bytes. -/
def WellFormed (code : UInt16) (value : Bytes) : Prop :=
  ∀ kind : Kind, code = kind.code → kind.Admits value

section Readers
variable {limit : Nat} {value : Bytes}

theorem exists_map_eq_ok {ε α β : Type} {f : α → β} {x : Except ε α} :
    (∃ b, f <$> x = .ok b) ↔ ∃ a, x = .ok a := by
  cases x <;> simp [Functor.map, Except.map]

theorem readText_isOk : (∃ text, readText limit value = .ok text) ↔ IsText limit value := by
  rw [IsText, readText]
  split
  · rename_i hlong
    simp [Nat.not_le.2 hlong]
  rename_i hshort
  rw [and_iff_right (Nat.not_lt.1 hshort)]
  constructor
  · rintro ⟨text, htext⟩
    cases hdecode : Utf8.decode value with
    | error fault =>
      rw [hdecode] at htext
      cases htext
    | ok text' => exact ⟨text', Utf8.ofText_of_decode hdecode⟩
  · rintro ⟨text, rfl⟩
    rw [Utf8.decode_ofText]
    exact ⟨text, rfl⟩

theorem readWord_isOk : (∃ n, readWord value = .ok n) ↔ value.length = 4 := by
  rw [readWord]
  split <;> simp_all

theorem readShort_isOk : (∃ n, readShort value = .ok n) ↔ value.length = 4 := by
  match value with
  | [] | [_] | [_, _] | [_, _, _] | [_, _, _, _] | _ :: _ :: _ :: _ :: _ :: _ => simp [readShort]

theorem readByte_eq_ok {b : UInt8} :
    readByte value = .ok b ↔ value.length = 4 ∧ value[0]? = some b := by
  match value with
  | [] | [_] | [_, _] | [_, _, _] | [_, _, _, _] | _ :: _ :: _ :: _ :: _ :: _ => simp [readByte]

theorem readShorts_isOk : (∃ codes, readShorts value = .ok codes) ↔ value.length % 2 = 0 := by
  fun_induction readShorts value with
  | case1 => simp
  | case2 => simp
  | case3 high low rest ih =>
    change (∃ codes, (Bytes.word16 high low :: ·) <$> readShorts rest = .ok codes) ↔ _
    rw [exists_map_eq_ok, ih, List.length_cons, List.length_cons]
    omega

theorem readErrorCode_isOk : (∃ e, readErrorCode value = .ok e) ↔ IsErrorCode value := by
  match value with
  | [] | [_] | [_, _] | [_, _, _] => simp [readErrorCode, IsErrorCode]
  | r₁ :: r₀ :: hundreds :: number :: reason =>
    have hshape : IsErrorCode (r₁ :: r₀ :: hundreds :: number :: reason) ↔
        3 ≤ hundreds.toNat % 8 ∧ hundreds.toNat % 8 ≤ 6 ∧ number.toNat ≤ 99 ∧
          IsText 763 reason := by
      constructor
      · rintro ⟨_, _, _, _, _, ⟨⟩, hvalue⟩
        exact hvalue
      · intro hvalue
        exact ⟨_, _, _, _, _, rfl, hvalue⟩
    rw [hshape, readErrorCode]
    split
    · rename_i hrange
      simp only [reduceCtorEq, exists_false, false_iff]
      omega
    · rename_i hrange
      change (∃ e, (fun text => (⟨_, text⟩ : ErrorCode)) <$> readText maxTextLength reason =
        .ok e) ↔ _
      rw [exists_map_eq_ok, readText_isOk, maxTextLength]
      constructor
      · intro htext
        exact ⟨by omega, by omega, by omega, htext⟩
      · rintro ⟨-, -, -, htext⟩
        exact htext

theorem ipOfBytes_isOk {family : Family} : (∃ ip, ipOfBytes value family = .ok ip) ↔
    value.length = (match family with | .v4 => 4 | .v6 => 16) := by
  cases family <;> rw [ipOfBytes] <;> split <;> simp_all

theorem readAddress_isOk {tid? : Option TransactionId} :
    (∃ e, readAddress tid? value = .ok e) ↔ IsAddress value := by
  match value with
  | [] | [_] | [_, _] | [_, _, _] => simp [readAddress, IsAddress]
  | r :: code :: high :: low :: rest =>
    have hshape : IsAddress (r :: code :: high :: low :: rest) ↔
        ∃ family, familyOfCode code = .ok family ∧ ∃ ip, ipOfBytes rest family = .ok ip := by
      simp only [ipOfBytes_isOk]
      by_cases h1 : code = 1
      · simp [IsAddress, familyOfCode, h1]
      by_cases h2 : code = 2
      · simp [IsAddress, familyOfCode, h2]
      · simp [IsAddress, familyOfCode, h1, h2]
    rw [hshape, readAddress]
    simp only [bind_eq_ok]
    constructor
    · rintro ⟨e, family, hfamily, ip, hip, -⟩
      exact ⟨family, hfamily, ip, hip⟩
    · rintro ⟨family, hfamily, ip, hip⟩
      exact ⟨_, family, hfamily, ip, hip, rfl⟩

end Readers

namespace Attribute
variable {tid : TransactionId} {code : UInt16} {value : Bytes}

theorem ofKind_isOk (kind : Kind) : (∃ a, ofKind tid value kind = .ok a) ↔ kind.Admits value := by
  cases kind with
  | data => simp [ofKind, Kind.Admits]
  | requestedAddressFamily =>
    simp only [ofKind, Kind.Admits, bind_eq_ok, map_eq_ok, readByte_eq_ok]
    constructor
    · rintro ⟨a, b, ⟨hlength, hfirst⟩, family, hfamily, -⟩
      refine ⟨hlength, ?_⟩
      rw [familyOfCode] at hfamily
      split at hfamily
      · rename_i h1
        exact .inl (h1 ▸ hfirst)
      split at hfamily
      · rename_i h2
        exact .inr (h2 ▸ hfirst)
      · cases hfamily
    · rintro ⟨hlength, hfirst | hfirst⟩
      · exact ⟨_, 1, ⟨hlength, hfirst⟩, .v4, rfl, rfl⟩
      · exact ⟨_, 2, ⟨hlength, hfirst⟩, .v6, rfl, rfl⟩
  | requestedTransport =>
    rw [ofKind, exists_map_eq_ok, Kind.Admits]
    simp only [readByte_eq_ok, exists_and_left, and_iff_left_iff_imp]
    intro hlength
    exact ⟨_, List.getElem?_eq_getElem (by omega)⟩
  | mappedAddress | responseOrigin | xorMappedAddress | xorPeerAddress | xorRelayedAddress =>
    exact exists_map_eq_ok.trans readAddress_isOk
  | username | realm | nonce | software => exact exists_map_eq_ok.trans readText_isOk
  | messageIntegrity =>
    rw [ofKind, exists_map_eq_ok, Kind.Admits, readMac]
    split <;> simp_all
  | messageIntegritySha256 =>
    rw [ofKind, exists_map_eq_ok, Kind.Admits, readMac256]
    split
    · simp only [reduceCtorEq, exists_false, false_iff]
      omega
    · simp only [Except.ok.injEq, exists_eq', true_iff]
      omega
  | fingerprint | lifetime => exact exists_map_eq_ok.trans readWord_isOk
  | errorCode => exact exists_map_eq_ok.trans readErrorCode_isOk
  | unknownAttributes => exact exists_map_eq_ok.trans readShorts_isOk
  | channelNumber => exact exists_map_eq_ok.trans readShort_isOk

/-- Just the well-formed values are read. -/
theorem ofValue_isOk : (∃ a, ofValue tid code value = .ok a) ↔ WellFormed code value := by
  rw [WellFormed, ofValue]
  simp only [← Kind.ofCode?_eq_some]
  cases Kind.ofCode? code with
  | none => simp
  | some kind => simpa using ofKind_isOk kind

end Attribute
end NatRelay.Stun
