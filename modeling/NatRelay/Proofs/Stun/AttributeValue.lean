import NatRelay.Stun.AttributeValue
import NatRelay.Stun.Integrity

/-! What an attribute tells of the number and the bytes that it was read from. -/
namespace NatRelay.Stun

section Except
variable {ε α β : Type} {x : Except ε α}

theorem map_eq_ok {f : α → β} {b : β} : f <$> x = .ok b ↔ ∃ a, x = .ok a ∧ f a = b := by
  cases x <;> simp [Functor.map, Except.map]

theorem some_map_eq_ok {a : α} : some <$> x = .ok (some a) ↔ x = .ok a := by
  simp [map_eq_ok]

theorem bind_eq_ok {f : α → Except ε β} {b : β} :
    x >>= f = .ok b ↔ ∃ a, x = .ok a ∧ f a = .ok b := by
  cases x <;> simp [Bind.bind, Except.bind]

end Except

/-- The kind of attribute that carries a code of the mechanism. -/
def Mechanism.kind : Mechanism → Kind
  | sha1 => .messageIntegrity
  | sha256 => .messageIntegritySha256

/-- The code that an attribute carries for the mechanism. -/
def Mechanism.macOf? : Mechanism → Attribute → Option Bytes
  | sha1, .messageIntegrity mac => some mac
  | sha256, .messageIntegritySha256 mac => some mac
  | _, _ => none

namespace Kind

/-- Whether an attribute of the kind protects the message in front of it. -/
def isProtection : Kind → Bool
  | messageIntegrity | messageIntegritySha256 | fingerprint => true
  | _ => false

theorem ofCode?_eq_some {n : UInt16} {kind : Kind} : ofCode? n = some kind ↔ n = kind.code := by
  constructor
  · intro h
    exact (code_of_ofCode? h).symm
  · rintro rfl
    exact ofCode?_code kind

end Kind

namespace Attribute
variable {tid : TransactionId} {code : UInt16} {value : Bytes} {a : Attribute}

/-- What an attribute of a known kind tells of the bytes that it was read from. -/
structure IsOfKind (kind : Kind) (value : Bytes) (a : Attribute) : Prop where
  code : a.code = kind.code
  isProtection : a.isProtection = kind.isProtection
  /-- It has the typed form of its kind. -/
  ne_other : ∀ n bytes, a ≠ .other n bytes
  /-- It carries a code just as it was read. -/
  macOf? : ∀ k : Mechanism, k.macOf? a = if kind = k.kind then some value else none

theorem isOfKind {kind : Kind} (h : ofKind tid value kind = .ok a) : a.IsOfKind kind value := by
  cases kind with
  | data =>
    cases h
    exact ⟨rfl, rfl, nofun, fun k => by cases k <;> rfl⟩
  | requestedAddressFamily =>
    obtain ⟨b, -, h⟩ := bind_eq_ok.1 h
    obtain ⟨f, -, rfl⟩ := map_eq_ok.1 h
    exact ⟨rfl, rfl, nofun, fun k => by cases k <;> rfl⟩
  | messageIntegrity =>
    obtain ⟨mac, hmac, rfl⟩ := map_eq_ok.1 h
    rw [readMac] at hmac
    split at hmac <;> cases hmac
    exact ⟨rfl, rfl, nofun, fun k => by cases k <;> rfl⟩
  | messageIntegritySha256 =>
    obtain ⟨mac, hmac, rfl⟩ := map_eq_ok.1 h
    rw [readMac256] at hmac
    split at hmac <;> cases hmac
    exact ⟨rfl, rfl, nofun, fun k => by cases k <;> rfl⟩
  | _ =>
    obtain ⟨x, -, rfl⟩ := map_eq_ok.1 h
    exact ⟨rfl, rfl, nofun, fun k => by cases k <;> rfl⟩

/-- An attribute is kept as it came, or is of the kind that its number stands for. -/
theorem ofValue_cases (h : ofValue tid code value = .ok a) :
    (Kind.ofCode? code = none ∧ a = .other code value) ∨
      ∃ kind, Kind.ofCode? code = some kind ∧ a.IsOfKind kind value := by
  rw [ofValue] at h
  cases hkind : Kind.ofCode? code with
  | none =>
    rw [hkind] at h
    exact .inl ⟨rfl, (Except.ok.inj h).symm⟩
  | some kind =>
    rw [hkind] at h
    exact .inr ⟨kind, rfl, isOfKind h⟩

/-- An attribute has the number that it was read with. -/
theorem code_ofValue (h : ofValue tid code value = .ok a) : a.code = code := by
  rcases ofValue_cases h with ⟨-, rfl⟩ | ⟨kind, hkind, ha⟩
  · rfl
  · rw [ha.code, ← Kind.ofCode?_eq_some.1 hkind]

theorem isProtection_ofValue (h : ofValue tid code value = .ok a) :
    a.isProtection = (Kind.ofCode? code).any Kind.isProtection := by
  rcases ofValue_cases h with ⟨hkind, rfl⟩ | ⟨kind, hkind, ha⟩
  · rw [hkind]
    rfl
  · rw [hkind, ha.isProtection]
    rfl

theorem macOf?_ofValue (h : ofValue tid code value = .ok a) (k : Mechanism) :
    k.macOf? a = if code = k.kind.code then some value else none := by
  rcases ofValue_cases h with ⟨hkind, rfl⟩ | ⟨kind, hkind, ha⟩
  · have hcode : code ≠ k.kind.code := by
      rintro rfl
      simp at hkind
    rw [if_neg hcode]
    cases k <;> rfl
  · simp only [ha.macOf?, ← Kind.ofCode?_eq_some, hkind, Option.some.injEq]

end Attribute
end NatRelay.Stun
