import NatRelay.Proofs.Stun.Records

/-! Reading by position. Each byte and slice is looked up at its index, and a reader that leaves the
bytes gives nothing; otherwise it accepts or refuses. Main statement: `decodeAt_eq`, that the reader
by position never gives nothing and is the reader by pattern. -/
namespace NatRelay.Stun

/-- Nothing where an index lies outside the bytes, else an answer or a refusal. -/
abbrev Positional := ExceptT Error Option

namespace Positional
variable {α β : Type} {b : Bytes} {i : Nat}

/-- An answer or refusal that no index was needed for. -/
def settled (x : Except Error α) : Positional α := ExceptT.mk (some x)

theorem settled_bind (x : Except Error α) (f : α → Except Error β) :
    (settled x >>= fun a => settled (f a)) = settled (x >>= f) := by
  cases x <;> rfl

theorem settled_map (f : α → β) (x : Except Error α) : f <$> settled x = settled (f <$> x) := by
  cases x <;> rfl

theorem settled_ok_bind (a : α) (f : α → Positional β) : settled (.ok a) >>= f = f a := rfl

/-- The byte at an index. -/
def byteAt (b : Bytes) (i : Nat) : Positional UInt8 := ExceptT.mk (b[i]?.map .ok)

/-- The bytes from an index up to another. -/
def slice (b : Bytes) (start stop : Nat) : Positional Bytes :=
  ExceptT.mk
    (if start ≤ stop ∧ stop ≤ b.length then some (.ok ((b.take stop).drop start)) else none)

/-- The two bytes at an index as a number. -/
def word16At (b : Bytes) (i : Nat) : Positional UInt16 := do
  let high ← byteAt b i
  let low ← byteAt b (i + 1)
  pure (Bytes.word16 high low)

theorem byteAt_eq {x : UInt8} (h : b[i]? = some x) : byteAt b i = settled (.ok x) := by
  rw [byteAt, h]
  rfl

theorem slice_eq {start stop : Nat} (h : start ≤ stop) (hstop : stop ≤ b.length) :
    slice b start stop = settled (.ok ((b.take stop).drop start)) := by
  rw [slice, if_pos ⟨h, hstop⟩]
  rfl

theorem word16At_eq {high low : UInt8} {rest : Bytes} (h : b.drop i = high :: low :: rest) :
    word16At b i = settled (.ok (Bytes.word16 high low)) := by
  have hhigh : b[i]? = some high := by
    rw [← Nat.add_zero i, ← List.getElem?_drop, h]
    rfl
  have hlow : b[i + 1]? = some low := by
    rw [← List.getElem?_drop, h]
    rfl
  rw [word16At, byteAt_eq hhigh, byteAt_eq hlow]
  rfl

end Positional

open Positional

/-! ### Values -/

/-- An address by position. -/
def addressAt (tid? : Option TransactionId) (value : Bytes) : Positional Endpoint :=
  if value.length < 4 then settled (.error .invalidInput)
  else do
    let code ← byteAt value 1
    let family ← settled (familyOfCode code)
    let port ← word16At value 2
    let bytes ← slice value 4 value.length
    let ip ← settled (ipOfBytes bytes family)
    let e := Endpoint.ofIp ip port
    pure (match tid? with
      | some tid => unobfuscate tid e
      | none => e)

/-- An error code by position. -/
def errorCodeAt (value : Bytes) : Positional ErrorCode :=
  if value.length < 4 then settled (.error .invalidInput)
  else do
    let hundreds ← byteAt value 2
    let number ← byteAt value 3
    let h := hundreds.toNat % 8
    if h < 3 ∨ h > 6 ∨ number.toNat > 99 then settled (.error .invalidInput)
    else do
      let bytes ← slice value 4 value.length
      let reason ← settled (readText maxTextLength bytes)
      pure ⟨UInt16.ofNat (h * 100 + number.toNat), reason⟩

/-- The 16-bit numbers from an index on. -/
def shortsAt (value : Bytes) (i : Nat) : Positional (List UInt16) :=
  if i < value.length then do
    let code ← word16At value i
    let codes ← shortsAt value (i + 2)
    pure (code :: codes)
  else pure []
termination_by value.length - i

/-- A value by position; those of the other kinds are taken whole. -/
def ofKindAt (tid : TransactionId) (value : Bytes) : Kind → Positional Attribute
  | .mappedAddress => .mappedAddress <$> addressAt none value
  | .responseOrigin => .responseOrigin <$> addressAt none value
  | .xorMappedAddress => .xorMappedAddress <$> addressAt (some tid) value
  | .xorPeerAddress => .xorPeerAddress <$> addressAt (some tid) value
  | .xorRelayedAddress => .xorRelayedAddress <$> addressAt (some tid) value
  | .errorCode => .errorCode <$> errorCodeAt value
  | .unknownAttributes =>
    if value.length % 2 ≠ 0 then settled (.error .invalidInput)
    else .unknownAttributes <$> shortsAt value 0
  | .channelNumber =>
    if value.length ≠ 4 then settled (.error .invalidInput)
    else .channelNumber <$> word16At value 0
  | .requestedTransport =>
    if value.length ≠ 4 then settled (.error .invalidInput)
    else (fun p => .requestedTransport (.ofProtocol p)) <$> byteAt value 0
  | .requestedAddressFamily =>
    if value.length ≠ 4 then settled (.error .invalidInput)
    else do
      let code ← byteAt value 0
      .requestedAddressFamily <$> settled (familyOfCode code)
  | kind => settled (Attribute.ofKind tid value kind)

def ofValueAt (tid : TransactionId) (code : UInt16) (value : Bytes) : Positional Attribute :=
  match Kind.ofCode? code with
  | some kind => ofKindAt tid value kind
  | none => settled (.ok (.other code value))

theorem addressAt_eq (tid? : Option TransactionId) (value : Bytes) :
    addressAt tid? value = settled (readAddress tid? value) := by
  match value with
  | [] | [_] | [_, _] | [_, _, _] => rfl
  | r :: code :: high :: low :: rest =>
    have hlength : ¬ (r :: code :: high :: low :: rest).length < 4 := by simp
    rw [addressAt, if_neg hlength, byteAt_eq rfl, word16At_eq rfl,
      slice_eq (Nat.not_lt.1 hlength) (Nat.le_refl _), List.take_length, readAddress]
    change (settled (familyOfCode code) >>= fun family =>
      settled (ipOfBytes rest family) >>= fun ip => settled (.ok _)) = _
    simp only [settled_bind]
    rfl

theorem errorCodeAt_eq (value : Bytes) : errorCodeAt value = settled (readErrorCode value) := by
  match value with
  | [] | [_] | [_, _] | [_, _, _] => rfl
  | r₁ :: r₀ :: hundreds :: number :: reason =>
    have hlength : ¬ (r₁ :: r₀ :: hundreds :: number :: reason).length < 4 := by simp
    rw [errorCodeAt, if_neg hlength, @byteAt_eq _ 2 hundreds rfl, @byteAt_eq _ 3 number rfl,
      slice_eq (Nat.not_lt.1 hlength) (Nat.le_refl _), List.take_length, readErrorCode]
    simp only [settled_ok_bind]
    split
    · rfl
    · exact settled_bind _ _

theorem shortsAt_eq {value : Bytes} {i : Nat} (h : (value.length - i) % 2 = 0) :
    shortsAt value i = settled (readShorts (value.drop i)) := by
  fun_induction shortsAt value i with
  | case1 i hlt ih =>
    match hdrop : value.drop i with
    | [] | [_] =>
      have hlength := congrArg List.length hdrop
      simp only [List.length_drop, List.length_cons, List.length_nil] at hlength
      omega
    | high :: low :: rest =>
      have hrest : value.drop (i + 2) = rest := by
        rw [← List.drop_drop, hdrop]
        rfl
      rw [word16At_eq hdrop, settled_ok_bind, ih (by omega), hrest, readShorts]
      exact settled_bind _ _
  | case2 i hle =>
    rw [List.drop_eq_nil_of_le (Nat.not_lt.1 hle)]
    rfl

theorem readShorts_of_odd {value : Bytes} (h : value.length % 2 ≠ 0) :
    readShorts value = .error .invalidInput := by
  fun_induction readShorts value with
  | case1 => exact absurd rfl h
  | case2 => rfl
  | case3 high low rest ih =>
    simp only [List.length_cons] at h
    rw [ih (by omega)]
    rfl

theorem exists_of_length_four {value : Bytes} (h : ¬ value.length ≠ 4) :
    ∃ a b c d, value = [a, b, c, d] := by
  match value, Classical.not_not.1 h with
  | [a, b, c, d], _ => exact ⟨a, b, c, d, rfl⟩

theorem readShort_of_ne {value : Bytes} (h : value.length ≠ 4) :
    readShort value = .error .invalidInput := by
  match value with
  | [_, _, _, _] => exact absurd rfl h
  | [] | [_] | [_, _] | [_, _, _] | _ :: _ :: _ :: _ :: _ :: _ => rfl

theorem readByte_of_ne {value : Bytes} (h : value.length ≠ 4) :
    readByte value = .error .invalidInput := by
  match value with
  | [_, _, _, _] => exact absurd rfl h
  | [] | [_] | [_, _] | [_, _, _] | _ :: _ :: _ :: _ :: _ :: _ => rfl

theorem ofKindAt_eq (tid : TransactionId) (value : Bytes) (kind : Kind) :
    ofKindAt tid value kind = settled (Attribute.ofKind tid value kind) := by
  cases kind with
  | mappedAddress | responseOrigin | xorMappedAddress | xorPeerAddress | xorRelayedAddress =>
    rw [ofKindAt, addressAt_eq]
    exact settled_map _ _
  | errorCode =>
    rw [ofKindAt, errorCodeAt_eq]
    exact settled_map _ _
  | unknownAttributes =>
    rw [ofKindAt, Attribute.ofKind]
    split
    · rename_i hodd
      rw [readShorts_of_odd hodd]
      rfl
    · rename_i heven
      rw [shortsAt_eq (by simpa using heven)]
      exact settled_map _ _
  | channelNumber =>
    rw [ofKindAt, Attribute.ofKind]
    split
    · rename_i hlength
      rw [readShort_of_ne hlength]
      rfl
    · rename_i hlength
      obtain ⟨a, b, c, d, rfl⟩ := exists_of_length_four hlength
      rfl
  | requestedTransport =>
    rw [ofKindAt, Attribute.ofKind]
    split
    · rename_i hlength
      rw [readByte_of_ne hlength]
      rfl
    · rename_i hlength
      obtain ⟨a, b, c, d, rfl⟩ := exists_of_length_four hlength
      rfl
  | requestedAddressFamily =>
    rw [ofKindAt, Attribute.ofKind]
    split
    · rename_i hlength
      rw [readByte_of_ne hlength]
      rfl
    · rename_i hlength
      obtain ⟨a, b, c, d, rfl⟩ := exists_of_length_four hlength
      exact settled_map _ _
  | _ => rfl

theorem ofValueAt_eq (tid : TransactionId) (code : UInt16) (value : Bytes) :
    ofValueAt tid code value = settled (Attribute.ofValue tid code value) := by
  rw [ofValueAt, Attribute.ofValue]
  cases Kind.ofCode? code with
  | none => rfl
  | some kind => exact ofKindAt_eq tid value kind

/-! ### Packets -/

/-- The attributes from an index on. -/
def attributesAt (b : Bytes) (tid : TransactionId) (marks : Marks) (offset : Nat) :
    Positional (List Attribute × Marks) :=
  if offset < b.length then
    if b.length - offset < 4 then settled (.error .invalidInput)
    else do
      let code ← word16At b offset
      let size ← word16At b (offset + 2)
      let next := offset + 4 + Bytes.paddedLength size.toNat
      if next > b.length then settled (.error .invalidInput)
      else if marks.shows code then do
        let value ← slice b (offset + 4) (offset + 4 + size.toNat)
        let a ← ofValueAt tid code value
        match a with
        | .fingerprint crc => do
          let type ← slice b 0 2
          let body ← slice b 4 offset
          let length := Bytes.be16 (UInt16.ofNat (offset + 8 - headerLength))
          if crc = fingerprint [type, length, body] then pure ([a], marks)
          else settled (.error .invalidInput)
        | _ => do
          let (as, final) ← attributesAt b tid (marks.after a offset) next
          pure (a :: as, final)
      else attributesAt b tid marks next
  else pure ([], marks)
termination_by b.length - offset
decreasing_by all_goals omega

/-- A packet by position. -/
def decodeAt (b : Bytes) : Positional Received :=
  if b.length < headerLength then settled (.error .invalidInput)
  else do
    let length ← word16At b 2
    if length.toNat % 4 ≠ 0 ∨ b.length ≠ headerLength + length.toNat then
      settled (.error .invalidInput)
    else
      let cookie ← slice b 4 8
      if cookie.toNat ≠ magicCookie.toNat then settled (.error .notCookie)
      else
        let type ← word16At b 0
        let (method, cls) ← settled (splitMessageType type)
        let bytes ← slice b 8 headerLength
        let tid := BitVec.ofNat 96 bytes.toNat
        let (attributes, marks) ← attributesAt b tid {} headerLength
        pure ⟨⟨method, cls, tid, attributes⟩, ⟨b, marks⟩⟩

/-- The records from an offset on are read by position as they are cut off. -/
theorem attributesAt_eq {b : Bytes} {tid : TransactionId} {marks : Marks} {offset : Nat}
    (hhead : headerLength ≤ offset) (h : offset ≤ b.length) :
    attributesAt b tid marks offset =
      settled (collect b tid (splitRecords offset (b.drop offset)).2 marks
        (splitRecords offset (b.drop offset)).1) := by
  fun_induction attributesAt b tid marks offset with
  | case1 marks offset hlt hshort =>
    have hlength : (b.drop offset).length = b.length - offset := List.length_drop
    have hne : b.drop offset ≠ [] := List.ne_nil_of_length_pos (by omega)
    rw [splitRecords_short hne (by omega), collect]
    rfl
  | case2 marks offset hlt hlong ihafter ihpast =>
    have hlength : (b.drop offset).length = b.length - offset := List.length_drop
    match hdrop : b.drop offset with
    | [] | [_] | [_, _] | [_, _, _] =>
      rw [hdrop] at hlength
      simp only [List.length_cons, List.length_nil] at hlength
      omega
    | t₁ :: t₀ :: l₁ :: l₀ :: rest =>
      rw [hdrop] at hlength
      simp only [List.length_cons] at hlength
      have hskip (n : Nat) : b.drop (offset + 4 + n) = rest.drop n := by
        rw [Nat.add_assoc, ← List.drop_drop, hdrop, ← List.drop_drop]
        rfl
      have hsize : b.drop (offset + 2) = l₁ :: l₀ :: rest := by
        rw [← List.drop_drop, hdrop]
        rfl
      rw [word16At_eq hdrop, word16At_eq hsize, settled_ok_bind, settled_ok_bind, splitRecords]
      have ihafter := ihafter (Bytes.word16 l₁ l₀)
      have ihpast := ihpast (Bytes.word16 l₁ l₀)
      have hle := Bytes.le_paddedLength (Bytes.word16 l₁ l₀).toNat
      generalize Bytes.paddedLength (Bytes.word16 l₁ l₀).toNat = size at *
      dsimp only at ihafter ihpast ⊢
      by_cases hfits : size ≤ rest.length
      · have hnext : ¬ offset + 4 + size > b.length := by omega
        rw [if_neg hnext, if_pos hfits, collect]
        split
        · have hvalue : (b.take (offset + 4 + (Bytes.word16 l₁ l₀).toNat)).drop (offset + 4) =
              rest.take (Bytes.word16 l₁ l₀).toNat := by
            rw [List.drop_take, Nat.add_sub_cancel_left]
            exact congrArg _ (hskip 0)
          rw [slice_eq (by omega) (by omega), settled_ok_bind, hvalue, ofValueAt_eq]
          cases Attribute.ofValue tid (Bytes.word16 t₁ t₀)
            (rest.take (Bytes.word16 l₁ l₀).toNat) with
          | error e => rfl
          | ok a =>
            rw [settled_ok_bind]
            cases a with
            | fingerprint crc =>
              simp only [headerLength] at hhead
              rw [slice_eq (by omega) (by omega), slice_eq (by omega) (by omega)]
              change (if crc = fingerprint (covered b offset 4) then _ else _) = settled
                (if crc = fingerprint (covered b offset 4) then _ else _)
              split <;> rfl
            | _ =>
              rw [ihafter hnext _ (by omega) (Nat.not_lt.1 hnext), hskip]
              exact settled_bind _ _
        · rw [ihpast hnext (by omega) (Nat.not_lt.1 hnext), hskip]
      · rw [if_pos (by omega), if_neg hfits, collect]
        rfl
  | case3 marks offset hge =>
    rw [List.drop_eq_nil_of_le (Nat.not_lt.1 hge), splitRecords, collect]
    rfl

/-- Reading by position never leaves the packet, and reads what reading by pattern does. -/
theorem decodeAt_eq (b : Bytes) : decodeAt b = settled (Received.decode b) := by
  match b with
  | [] | [_] | [_, _] | [_, _, _] => rfl
  | t₁ :: t₀ :: l₁ :: l₀ :: rest =>
    have htype : word16At (t₁ :: t₀ :: l₁ :: l₀ :: rest) 0 = settled (.ok (Bytes.word16 t₁ t₀)) :=
      word16At_eq rfl
    have hsize : word16At (t₁ :: t₀ :: l₁ :: l₀ :: rest) 2 = settled (.ok (Bytes.word16 l₁ l₀)) :=
      word16At_eq rfl
    have hrest : rest.drop 16 = (t₁ :: t₀ :: l₁ :: l₀ :: rest).drop headerLength := rfl
    have hcookie : rest.take 4 = ((t₁ :: t₀ :: l₁ :: l₀ :: rest).take 8).drop 4 := rfl
    have htid : (rest.drop 4).take 12 =
        ((t₁ :: t₀ :: l₁ :: l₀ :: rest).take headerLength).drop 8 := by
      rw [List.drop_take]
      rfl
    have hlength : (t₁ :: t₀ :: l₁ :: l₀ :: rest).length = rest.length + 4 := rfl
    rw [decodeAt, hsize, htype, Received.decode, hrest, hcookie, htid]
    generalize t₁ :: t₀ :: l₁ :: l₀ :: rest = b at hlength
    generalize (Bytes.word16 l₁ l₀) = size
    by_cases hshort : rest.length < 16
    · rw [if_pos (by simp only [headerLength]; omega), if_pos (.inl hshort)]
    have hhead : headerLength ≤ b.length := by simp only [headerLength]; omega
    rw [if_neg (Nat.not_lt.2 hhead), settled_ok_bind, slice_eq (by decide) (by omega),
      slice_eq (by decide) hhead]
    simp only [hshort, false_or, settled_ok_bind]
    split
    · rfl
    split
    · rfl
    rw [← settled_bind]
    congr
    funext kind
    rw [attributesAt_eq (Nat.le_refl _) hhead]
    exact settled_bind _ _

end NatRelay.Stun
