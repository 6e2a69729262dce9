import NatRelay.Bytes

/-! Reading UTF-8 text. A byte string that is no text is refused with the place where it stops
being one. `decode_ofText` says that every text is read back from its own bytes. -/
namespace NatRelay.Utf8

/-- Where a byte string stops being UTF-8. -/
structure Fault where
  /-- Bytes of whole characters in front. -/
  validUpTo : Nat
  /-- Acceptable bytes of the character that fails, or nothing where the input ends inside it. -/
  length : Option Nat
  deriving DecidableEq

def Fault.message (f : Fault) : String :=
  match f.length with
  | some n => s!"invalid utf-8 sequence of {n} bytes from index {f.validUpTo}"
  | none => s!"incomplete utf-8 byte sequence from index {f.validUpTo}"

/-- A character of more than one byte, read in part. -/
structure Partial where
  /-- Where it starts. -/
  start : Nat
  /-- Bytes read. -/
  seen : Nat
  /-- Bytes owed. -/
  owed : Nat
  /-- Bounds of the next byte. -/
  low : UInt8
  high : UInt8

/-- What a first byte promises; `none` where no character starts with it. -/
def lead (start : Nat) (b : UInt8) : Option (Option Partial) :=
  if b < 0x80 then some none
  else if b < 0xC2 then none
  else if b < 0xE0 then some (some ⟨start, 1, 1, 0x80, 0xBF⟩)
  else if b < 0xF0 then
    some (some ⟨start, 1, 2, if b = 0xE0 then 0xA0 else 0x80, if b = 0xED then 0x9F else 0xBF⟩)
  else if b < 0xF5 then
    some (some ⟨start, 1, 3, if b = 0xF0 then 0x90 else 0x80, if b = 0xF4 then 0x8F else 0xBF⟩)
  else none

/-- The first fault from the byte at `index` on. -/
def fault? (index : Nat) : Option Partial → Bytes → Option Fault
  | none, [] => none
  | some p, [] => some ⟨p.start, none⟩
  | none, b :: rest =>
    match lead index b with
    | some p => fault? (index + 1) p rest
    | none => some ⟨index, some 1⟩
  | some p, b :: rest =>
    if p.low ≤ b ∧ b ≤ p.high then
      fault? (index + 1)
        (if p.owed = 1 then none else some ⟨p.start, p.seen + 1, p.owed - 1, 0x80, 0xBF⟩) rest
    else some ⟨p.start, some p.seen⟩

/-- The text whose UTF-8 form the bytes are. -/
def decode (bytes : Bytes) : Except Fault String :=
  if h : (ByteArray.mk bytes.toArray).IsValidUTF8 then .ok (.ofByteArray ⟨bytes.toArray⟩ h)
  else .error ((fault? 0 none bytes).getD ⟨bytes.length, none⟩)

@[simp] theorem decode_ofText (text : String) : decode (Bytes.ofText text) = .ok text := by
  have : ByteArray.mk (Bytes.ofText text).toArray = text.toByteArray := by simp [Bytes.ofText]
  simp [decode, this, text.isValidUTF8]

theorem ofText_of_decode {bytes : Bytes} {text : String} (h : decode bytes = .ok text) :
    Bytes.ofText text = bytes := by
  unfold decode at h
  split at h
  · cases h; simp [Bytes.ofText]
  · cases h

end NatRelay.Utf8
