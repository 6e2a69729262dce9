import NatRelay.Stun.AttributeValue
import NatRelay.Stun.CredentialText
import NatRelay.Stun.Message

/-! Messages as bytes: a header of twenty bytes, then attribute records of a kind, a length and a
value padded to four bytes.

Reading goes in two steps. `splitRecords` cuts the bytes into records, and `collect` reads the
visible ones: behind an integrity record only the first record of HMAC-SHA256 and the fingerprint
are visible, and nothing is behind the fingerprint. -/
namespace NatRelay.Stun

/-- Bytes in the header of a message. -/
def headerLength : Nat := 20

/-- Greatest number that a length field holds. -/
def maxLength : Nat := 65535

/-- An attribute record. -/
def record (code : UInt16) (value : Bytes) : Except Error Bytes :=
  if value.length > maxLength then .error .invalidInput
  else .ok (Bytes.be16 code ++ Bytes.be16 (UInt16.ofNat value.length) ++ value ++
    Bytes.padding value.length)

namespace Message

/-- The header and the body, with a length field that counts `extra` bytes still to come. -/
def frame (m : Message) (body : Bytes) (extra : Nat) : Except Error Bytes :=
  if body.length + extra > maxLength then .error .invalidInput
  else .ok (Bytes.be16 (messageType m.method m.cls) ++
    Bytes.be16 (UInt16.ofNat (body.length + extra)) ++ Bytes.ofNat 4 magicCookie.toNat ++
    Bytes.ofNat 12 m.tid.toNat ++ body)

/-- The records of all attributes but those that protect. -/
def body (m : Message) : Except Error Bytes := do
  let records ← (m.attributes.filter (!·.isProtection)).mapM fun a => record a.code (a.value m.tid)
  pure records.flatten

/-- Append the code of the key. -/
def protect (m : Message) (body : Bytes) (key : Key) : Except Error Bytes := do
  let covered ← m.frame body (4 + key.mechanism.macLength)
  let kind := match key.mechanism with
    | .sha1 => Kind.messageIntegrity
    | .sha256 => Kind.messageIntegritySha256
  let code ← record kind.code (key.sign [covered])
  pure (body ++ code)

/-- Append the fingerprint. -/
def stamp (m : Message) (body : Bytes) : Except Error Bytes := do
  let covered ← m.frame body 8
  let mark ← record Kind.fingerprint.code (Bytes.be32 (Stun.fingerprint [covered]))
  pure (body ++ mark)

/-- The bytes of a message: its attributes in order, then the code of the key, then the
fingerprint. Protecting attributes in the list are left out. -/
def encode (m : Message) (key? : Option Key) (fingerprint : Bool) : Except Error Bytes := do
  let body ← m.body
  let body ← match key? with
    | some key => m.protect body key
    | none => pure body
  let body ← if fingerprint then m.stamp body else pure body
  m.frame body 0

end Message

/-- One attribute record and where it starts. -/
structure Record where
  offset : Nat
  code : UInt16
  value : Bytes
  deriving DecidableEq

/-- The records from `offset` on, and whether they use up all bytes. -/
def splitRecords (offset : Nat) : Bytes → List Record × Bool
  | [] => ([], true)
  | a :: b :: c :: d :: rest =>
    let length := (Bytes.word16 c d).toNat
    let size := Bytes.paddedLength length
    if size ≤ rest.length then
      let (records, whole) := splitRecords (offset + 4 + size) (rest.drop size)
      (⟨offset, Bytes.word16 a b, rest.take length⟩ :: records, whole)
    else ([], false)
  | _ => ([], false)
termination_by bytes => bytes.length
decreasing_by simp only [List.length_drop, List.length_cons]; omega

/-- Where the integrity records start that were passed. -/
structure Marks where
  sha1 : Option Nat := none
  sha256 : Option Nat := none
  deriving DecidableEq

namespace Marks

/-- Whether a record behind these marks is visible. -/
def shows (marks : Marks) (code : UInt16) : Bool :=
  if code = Kind.messageIntegritySha256.code then marks.sha256.isNone
  else if code = Kind.fingerprint.code then true
  else marks.sha1.isNone && marks.sha256.isNone

/-- The marks behind an attribute. -/
def after (marks : Marks) (a : Attribute) (offset : Nat) : Marks :=
  match a with
  | .messageIntegrity _ => { marks with sha1 := some offset }
  | .messageIntegritySha256 _ => { marks with sha256 := some offset }
  | _ => marks

end Marks

/-- What an attribute at `offset` protects: the packet in front of it, with a length field that
ends behind its value. -/
def covered (packet : Bytes) (offset valueLength : Nat) : List Bytes :=
  [packet.take 2, Bytes.be16 (UInt16.ofNat (offset + 4 + valueLength - headerLength)),
    (packet.take offset).drop 4]

/-- Read the visible records; bytes that are no record are an error unless a fingerprint comes
first. -/
def collect (packet : Bytes) (tid : TransactionId) (whole : Bool) (marks : Marks) :
    List Record → Except Error (List Attribute × Marks)
  | [] => if whole then .ok ([], marks) else .error .invalidInput
  | r :: rs =>
    if marks.shows r.code then do
      let a ← Attribute.ofValue tid r.code r.value
      match a with
      | .fingerprint crc =>
        if crc = fingerprint (covered packet r.offset 4) then .ok ([a], marks)
        else .error .invalidInput
      | _ =>
        let (as, final) ← collect packet tid whole (marks.after a r.offset) rs
        pure (a :: as, final)
    else collect packet tid whole marks rs

/-- The bytes that a message came in, and where its integrity records start. -/
structure Wire where
  bytes : Bytes
  marks : Marks
  deriving DecidableEq

/-- A message and the bytes it came in. -/
structure Received where
  message : Message
  wire : Wire
  deriving DecidableEq

/-- Read a datagram that holds exactly one message. -/
def Received.decode (packet : Bytes) : Except Error Received :=
  match packet with
  | t₁ :: t₀ :: l₁ :: l₀ :: rest => do
    let length := (Bytes.word16 l₁ l₀).toNat
    if rest.length < 16 ∨ length % 4 ≠ 0 ∨ packet.length ≠ headerLength + length then
      .error .invalidInput
    else if Bytes.toNat (rest.take 4) ≠ magicCookie.toNat then .error .notCookie
    else
      let (method, cls) ← splitMessageType (Bytes.word16 t₁ t₀)
      let tid := BitVec.ofNat 96 (Bytes.toNat ((rest.drop 4).take 12))
      let (records, whole) := splitRecords headerLength (rest.drop 16)
      let (attributes, marks) ← collect packet tid whole {} records
      pure ⟨⟨method, cls, tid, attributes⟩, ⟨packet, marks⟩⟩
  | _ => .error .invalidInput

/-- Verify the code that protects a message; HMAC-SHA256 goes first. A message that came in no
bytes cannot be verified. The mechanism that matched is returned. -/
def checkIntegrity (m : Message) (wire? : Option Wire) (c : Credential) :
    Except Error Mechanism := do
  let some wire := wire? | .error .invalidInput
  let (mechanism, offset, mac?) ← match wire.marks.sha256, wire.marks.sha1 with
    | some offset, _ => pure (Mechanism.sha256, offset, m.mac256?)
    | none, some offset => pure (Mechanism.sha1, offset, m.mac?)
    | none, none => .error .notIntegrity
  let some mac := mac? | .error .notIntegrity
  if offset + 4 + mac.length - headerLength > maxLength then .error .invalidInput
  else
    (c.key mechanism).verify (covered wire.bytes offset mac.length) mac
    pure mechanism

/-- Verify a request, which must name its user and realm. -/
def validate (m : Message) (wire? : Option Wire) (c : Credential) : Except Error Mechanism :=
  if !m.hasIntegrity then .error .notIntegrity
  else if m.username.isNone || m.realm.isNone then .error .invalidInput
  else checkIntegrity m wire? c

end NatRelay.Stun
