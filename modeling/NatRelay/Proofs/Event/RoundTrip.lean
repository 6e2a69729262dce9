import Mathlib.Data.List.Perm.Basic
import NatRelay.Event.Text
import NatRelay.Proofs.JsonText.Nested
import NatRelay.Proofs.Net.EndpointText

/-! Events as text and back. The values of an event make it again (`ofValues?_values`), whichever
order its members come in and whatever unknown members stand between them. Main statement:
`ofText_render`. -/
namespace NatRelay.Event
open JsonText (Value Fault Ends)

variable {e : Event}

/-- The addresses that an event names. -/
def endpoints : Event → List Endpoint
  | passwordRequested addr _ => [addr]
  | allocationCreated addr _ _ relay => [addr, relay]
  | bindingObserved addr => [addr]
  | channelBound addr _ _ => [addr]
  | permissionCreated addr _ peer => [addr, peer]
  | allocationRefreshed addr _ _ => [addr]
  | allocationAborted addr _ relay => [addr, relay]

/-- The members of an event's object. -/
def ownMembers (e : Event) : List (String × Value) :=
  (tagKey, .text e.kind.name) :: e.kind.fields.zip e.values

/-! ### Values -/

theorem toEndpoint?_ofEndpoint {a : Endpoint} (h : a.flow = 0) :
    toEndpoint? (ofEndpoint a) = some a := Endpoint.ofText?_text h

theorem toUInt16?_integer (n : UInt16) : toUInt16? (.integer n.toNat) = some n := by
  have hlt : (0 : Int) ≤ n.toNat ∧ (n.toNat : Int).toNat < 0x10000 :=
    ⟨Int.natCast_nonneg _, n.toNat_lt⟩
  rw [toUInt16?, toNat?, if_pos hlt, Option.map_some]
  exact congrArg some n.ofNat_toNat

theorem toUInt32?_integer (n : UInt32) : toUInt32? (.integer n.toNat) = some n := by
  have hlt : (0 : Int) ≤ n.toNat ∧ (n.toNat : Int).toNat < 0x100000000 :=
    ⟨Int.natCast_nonneg _, n.toNat_lt⟩
  rw [toUInt32?, toNat?, if_pos hlt, Option.map_some]
  exact congrArg some n.ofNat_toNat

/-- The values of an event make the event. -/
theorem ofValues?_values (h : ∀ a ∈ e.endpoints, a.flow = 0) :
    ofValues? e.kind e.values = some e := by
  cases e <;>
    simp only [endpoints, List.mem_cons, List.not_mem_nil, or_false, forall_eq_or_imp,
      forall_eq] at h <;>
    simp [kind, values, ofValues?, toEndpoint?_ofEndpoint, toText?, toUInt16?_integer,
      toUInt32?_integer, h]

theorem fits_integer (depth : Nat) {n : Nat} (h : n < 0x10000000000000000) :
    (Value.integer n).Fits depth :=
  .integer depth (by rw [Int.natAbs_natCast]; exact JsonText.tooGreat_toDigits h)

theorem fits_values (e : Event) (depth : Nat) : ∀ v ∈ e.values, v.Fits depth := by
  have htext (s : String) : (Value.text s).Fits depth := .text depth s
  have hport (n : UInt16) : (Value.integer n.toNat).Fits depth :=
    fits_integer depth (Nat.lt_trans n.toNat_lt (by decide))
  have hlifetime (n : UInt32) : (Value.integer n.toNat).Fits depth :=
    fits_integer depth (Nat.lt_trans n.toNat_lt (by decide))
  cases e <;> simp [values, ofEndpoint, htext, hport, hlifetime]

/-! ### Members -/

/-- The kind with a name. -/
def namedKind (name : String) : Except Fault Kind :=
  match Kind.ofName? name with
  | some k => .ok k
  | none => .error .mismatch

/-- What is known of an event after one more member, whose value is a text if it is the kind. -/
def takeMember (d : Draft (String × Value)) (m : String × Value) :
    Except Fault (Draft (String × Value)) :=
  match m with
  | (key, v) =>
    if key = tagKey then
      if d.kind?.isSome then .error .mismatch
      else do
        let k ← namedKind ((toText? v).getD "")
        .ok { d with kind? := some k }
    else .ok { d with fields := d.fields ++ [(key, v)] }

/-- Members that a reader gets through: the kind is a text, and the others nest less deep than the
object may. -/
def Readable (m : String × Value) : Prop :=
  if m.1 = tagKey then ∃ name, m.2 = .text name else m.2.Fits 126

theorem readKind_quote (name : String) (rest : List Char) :
    readKind (JsonText.quote name ++ rest) = (namedKind name).map fun k => (k, rest) := by
  have hskip (cs : List Char) : JsonText.skip ('"' :: cs) = '"' :: cs := rfl
  rw [JsonText.quote_append, readKind, hskip]
  dsimp only
  rw [if_pos rfl, JsonText.string_quote, JsonText.ok_bind, namedKind]
  dsimp only
  cases Kind.ofName? name <;> rfl

theorem readMember_chars {m : String × Value} (h : Readable m) (d : Draft (String × Value))
    {rest : List Char} (hrest : Ends rest) :
    readMember d m.1 (m.2.chars ++ rest) = (takeMember d m).map fun d => (d, rest) := by
  obtain ⟨key, v⟩ := m
  rw [readMember, takeMember]
  rw [Readable] at h
  dsimp only at h ⊢
  split
  · rename_i htag
    rw [if_pos htag] at h
    obtain ⟨name, rfl⟩ := h
    split
    · rfl
    · rw [Value.chars, readKind_quote, toText?, Option.getD_some]
      cases namedKind name <;> rfl
  · rename_i htag
    rw [if_neg htag] at h
    rw [maxDepth, JsonText.value_chars h hrest]
    rfl

/-- Without the kind, members are put down one after the other. -/
theorem foldlM_takeMember {ms : List (String × Value)} (h : ∀ m ∈ ms, m.1 ≠ tagKey)
    (d : Draft (String × Value)) :
    ms.foldlM takeMember d = .ok { d with fields := d.fields ++ ms } := by
  induction ms generalizing d with
  | nil => rw [List.append_nil]; rfl
  | cons m ms ih =>
    have hm : takeMember d m = .ok { d with fields := d.fields ++ [m] } :=
      if_neg (h m List.mem_cons_self)
    rw [List.foldlM_cons, hm, JsonText.ok_bind, ih fun m hm => h m (List.mem_cons_of_mem _ hm),
      List.append_assoc]
    rfl

variable {members : List (String × Value)}

/-- The kind may stand anywhere between the other members. -/
theorem foldlM_takeMember_tagged {k : Kind}
    (h : members.filter (·.1 = tagKey) = [(tagKey, .text k.name)]) :
    members.foldlM takeMember {} =
      .ok { kind? := some k, fields := members.filter (·.1 ≠ tagKey) } := by
  obtain ⟨before, after, rfl, hbefore, -, hafter⟩ := List.filter_eq_cons_iff.1 h
  have hbefore : ∀ m ∈ before, m.1 ≠ tagKey := fun m hm heq => hbefore m hm (decide_eq_true heq)
  have hafter : ∀ m ∈ after, m.1 ≠ tagKey := fun m hm heq =>
    List.filter_eq_nil_iff.1 hafter m hm (decide_eq_true heq)
  have hkind (d : Draft (String × Value)) (hd : d.kind? = none) :
      takeMember d (tagKey, .text k.name) = .ok { d with kind? := some k } := by
    rw [takeMember, if_pos rfl, hd]
    simp [toText?, namedKind, JsonText.ok_bind]
  have hkept : (before ++ (tagKey, .text k.name) :: after).filter (·.1 ≠ tagKey) =
      before ++ after := by
    rw [List.filter_append, List.filter_cons_of_neg (by simp),
      List.filter_eq_self.2 fun m hm => decide_eq_true (hbefore m hm),
      List.filter_eq_self.2 fun m hm => decide_eq_true (hafter m hm)]
  rw [List.foldlM_append, foldlM_takeMember hbefore, JsonText.ok_bind, List.foldlM_cons,
    hkind _ rfl, JsonText.ok_bind, foldlM_takeMember hafter, hkept]
  rfl

/-- Values are found under their keys. -/
theorem mapM_theField? {keys : List String} {values : List Value} (nodup : keys.Nodup)
    (hlength : values.length = keys.length)
    (h : ∀ key ∈ keys,
      (members.filter (·.1 = key)).Perm ((keys.zip values).filter (·.1 = key))) :
    keys.mapM (theField? members) = some values := by
  induction keys generalizing values with
  | nil => rw [List.eq_nil_of_length_eq_zero hlength]; rfl
  | cons key keys ih =>
    obtain ⟨v, values, rfl⟩ := List.exists_cons_of_length_eq_add_one hlength
    obtain ⟨hfresh, nodup⟩ := List.nodup_cons.1 nodup
    have hmine : ((key, v) :: keys.zip values).filter (·.1 = key) = [(key, v)] := by
      rw [List.filter_cons_of_pos (by simp), List.filter_eq_nil_iff.2]
      intro m hm heq
      exact hfresh (of_decide_eq_true heq ▸ (List.of_mem_zip hm).1)
    have hfound : theField? members key = some v := by
      have hperm := h key List.mem_cons_self
      rw [List.zip_cons_cons, hmine, List.perm_singleton] at hperm
      rw [theField?, hperm]
    have hrest := ih nodup (Nat.succ.inj hlength) fun other hother => by
      have hne : key ≠ other := fun heq => hfresh (heq ▸ hother)
      have hperm := h other (List.mem_cons_of_mem key hother)
      rwa [List.zip_cons_cons, List.filter_cons_of_neg (by simpa using hne)] at hperm
    rw [List.mapM_cons, hfound, hrest]
    rfl

/-! ### Texts -/

theorem nodup_fields (k : Kind) : k.fields.Nodup ∧ tagKey ∉ k.fields := by
  cases k <;> decide

theorem toJson_eq (e : Event) : e.toJson = .object e.ownMembers := rfl

/-- Behind the kind come the fields, none of which is the kind. -/
theorem filter_ownMembers (e : Event) :
    e.ownMembers.filter (·.1 = tagKey) = [(tagKey, .text e.kind.name)] ∧
      ∀ key ∈ e.kind.fields, e.ownMembers.filter (·.1 = key) =
        (e.kind.fields.zip e.values).filter (·.1 = key) := by
  have hfields := (nodup_fields e.kind).2
  constructor
  · rw [ownMembers, List.filter_cons_of_pos (by simp), List.filter_eq_nil_iff.2]
    intro m hm heq
    exact hfields (of_decide_eq_true heq ▸ (List.of_mem_zip hm).1)
  · intro key hkey
    have hne : tagKey ≠ key := fun heq => hfields (heq ▸ hkey)
    rw [ownMembers, List.filter_cons_of_neg (by simpa using hne)]

/-- The members of an event, in whatever order and among whatever others, make the event. -/
theorem ofMembers?_perm {unknown : List (String × Value)} (hflow : ∀ a ∈ e.endpoints, a.flow = 0)
    (hunknown : ∀ m ∈ unknown, m.1 ≠ tagKey ∧ m.1 ∉ e.kind.fields)
    (hperm : members.Perm (e.ownMembers ++ unknown)) :
    ∃ d, members.foldlM takeMember {} = .ok d ∧ ofMembers? d = some e := by
  obtain ⟨htag, hfields⟩ := filter_ownMembers e
  have hwith (key : String) (hnone : ∀ m ∈ unknown, m.1 ≠ key) :
      (members.filter (·.1 = key)).Perm (e.ownMembers.filter (·.1 = key)) := by
    have hfilter := hperm.filter (·.1 = key)
    have hothers : unknown.filter (·.1 = key) = [] :=
      List.filter_eq_nil_iff.2 fun m hm heq => hnone m hm (of_decide_eq_true heq)
    rwa [List.filter_append, hothers, List.append_nil] at hfilter
  have hkind := hwith tagKey fun m hm => (hunknown m hm).1
  rw [htag, List.perm_singleton] at hkind
  refine ⟨_, foldlM_takeMember_tagged hkind, ?_⟩
  have hvalues :
      e.kind.fields.mapM (theField? (members.filter (·.1 ≠ tagKey))) = some e.values := by
    refine mapM_theField? (nodup_fields e.kind).1 (length_values e) fun key hkey => ?_
    have hne : key ≠ tagKey := fun heq => (nodup_fields e.kind).2 (heq ▸ hkey)
    have hsame : (members.filter (·.1 ≠ tagKey)).filter (·.1 = key) =
        members.filter (·.1 = key) := by
      rw [List.filter_filter]
      refine List.filter_congr fun m _ => ?_
      by_cases hm : m.1 = key
      · simp [hm, hne]
      · simp [hm]
    rw [hsame, ← hfields key hkey]
    exact hwith key fun m hm heq => (hunknown m hm).2 (heq ▸ hkey)
  simp only [ofMembers?, Option.bind_eq_bind, Option.bind_some, hvalues, ofValues?_values hflow]

/-- An object is read by taking its members in turn. -/
theorem ofText_object
    {take : Draft (String × Value) → String × Value → Except Fault (Draft (String × Value))}
    (h : ∀ m ∈ members, ∀ d rest, Ends rest →
      readMember d m.1 (m.2.chars ++ rest) = (take d m).map fun d => (d, rest)) :
    ofText (Value.object members).render =
      members.foldlM take {} >>= fun d => required (ofMembers? d, []) >>= JsonText.finish := by
  have hlength := JsonText.length_le_memberChars true members
  have hread := JsonText.members_chars h (JsonText.memberChars true members ++ ['\x7d']).length
    (by rw [List.length_append]; omega) true {} []
  have htext : (Value.object members).render.toList =
      '\x7b' :: (JsonText.memberChars true members ++ ['\x7d']) := by
    simp [Value.render, Value.chars]
  have hskip (cs : List Char) : JsonText.skip ('\x7b' :: cs) = '\x7b' :: cs := rfl
  rw [ofText, htext, read, hskip]
  dsimp only
  rw [if_pos rfl, hread]
  cases members.foldlM take {} <;> rfl

theorem readable_ownMembers (e : Event) : ∀ m ∈ e.ownMembers, Readable m := by
  intro m hm
  rw [Readable]
  rcases List.mem_cons.1 hm with rfl | hm
  · rw [if_pos rfl]
    exact ⟨_, rfl⟩
  · obtain ⟨hkey, hvalue⟩ := List.of_mem_zip hm
    rw [if_neg fun heq : m.1 = tagKey => (nodup_fields e.kind).2 (heq ▸ hkey)]
    exact fits_values e 126 m.2 hvalue

/-- The text of an event whose addresses have no flow label is read as the event, also when its
members come in another order and with unknown ones between them, unless the value of an unknown one
nests arrays and objects deeper than a reader looks or holds a number beyond 64-bit floating
point. -/
theorem ofText_render (e : Event) (hflow : ∀ a ∈ e.endpoints, a.flow = 0) :
    ofText e.text = .ok e ∧
    ∀ unknown members : List (String × Value),
      (∀ m ∈ unknown, m.1 ≠ tagKey ∧ m.1 ∉ e.kind.fields ∧ m.2.Fits 126) →
      members.Perm (e.ownMembers ++ unknown) →
      ofText (Value.object members).render = .ok e := by
  have hall : ∀ unknown members : List (String × Value),
      (∀ m ∈ unknown, m.1 ≠ tagKey ∧ m.1 ∉ e.kind.fields ∧ m.2.Fits 126) →
      members.Perm (e.ownMembers ++ unknown) →
      ofText (Value.object members).render = .ok e := by
    intro unknown members hunknown hperm
    obtain ⟨d, hmembers, hevent⟩ := ofMembers?_perm hflow
      (fun m hm => ⟨(hunknown m hm).1, (hunknown m hm).2.1⟩) hperm
    have hreadable : ∀ m ∈ members, Readable m := by
      intro m hm
      rcases List.mem_append.1 (hperm.mem_iff.1 hm) with hm | hm
      · exact readable_ownMembers e m hm
      · rw [Readable, if_neg (hunknown m hm).1]
        exact (hunknown m hm).2.2
    rw [ofText_object fun m hm d rest hrest => readMember_chars (hreadable m hm) d hrest, hmembers,
      JsonText.ok_bind, hevent]
    rfl
  refine ⟨?_, hall⟩
  rw [text, toJson_eq]
  exact hall [] e.ownMembers (by simp) (by rw [List.append_nil])

theorem ofText_reversed :
    let e := allocationCreated (.v6 0xFE800000000000000000000000000001 3478 0 7) "Zoë \"\\\n"
      49152 (.v4 0xC0000201 49152)
    let unknown := [("extra", Value.array [.null, .decimal true 15 (-1)])]
    (∀ a ∈ e.endpoints, a.flow = 0) ∧
    (∀ m ∈ unknown, m.1 ≠ tagKey ∧ m.1 ∉ e.kind.fields ∧ m.2.Fits 126) ∧
    ofText e.text = .ok e ∧
    ofText (Value.object (e.ownMembers ++ unknown).reverse).render = .ok e := by
  intro e unknown
  have hflow : ∀ a ∈ e.endpoints, a.flow = 0 := by decide
  have hfits : (Value.array [.null, .decimal true 15 (-1)]).Fits 126 := by
    refine .array fun v hv => ?_
    rcases List.mem_cons.1 hv with rfl | hv
    · exact .null 125
    · rw [List.mem_singleton.1 hv]
      exact .decimal 125 (by decide +kernel)
  have hunknown : ∀ m ∈ unknown, m.1 ≠ tagKey ∧ m.1 ∉ e.kind.fields ∧ m.2.Fits 126 := by
    intro m hm
    rw [List.mem_singleton.1 hm]
    exact ⟨by decide, by decide, hfits⟩
  obtain ⟨hplain, hmixed⟩ := ofText_render e hflow
  exact ⟨hflow, hunknown, hplain, hmixed unknown _ hunknown (List.reverse_perm _)⟩

/-- Arrays inside each other. -/
def nested : Nat → Value
  | 0 => .null
  | depth + 1 => .array [nested depth]

/-- One array too many. -/
theorem value_nested (depth : Nat) (rest : List Char) :
    JsonText.value depth ((nested depth).chars ++ rest) = .error .malformed := by
  induction depth generalizing rest with
  | zero => rfl
  | succ depth ih =>
    cases depth with
    | zero => rfl
    | succ depth =>
      have hstep : ∀ v ∈ [nested (depth + 1)], ∀ s rest, Ends rest →
          JsonText.takeElement (depth + 1) s (v.chars ++ rest) =
            ((.error .malformed : Except Fault (List Value)).map fun s => (s, rest)) := by
        intro v hv s rest _
        rw [List.mem_singleton.1 hv, JsonText.takeElement, ih]
        rfl
      exact JsonText.value_arrayChars hstep rest

/-- Members in turn, where those under one key are refused. -/
def takeExcept (key : String) (fault : Fault) (d : Draft (String × Value)) (m : String × Value) :
    Except Fault (Draft (String × Value)) :=
  if m.1 = key then .error fault else takeMember d m

/-- What is wrong with the value of a last member is wrong with the text. -/
theorem ofText_last (e : Event) {m : String × Value} {fault : Fault}
    (hkey : m.1 ≠ tagKey ∧ m.1 ∉ e.kind.fields)
    (h : ∀ rest, Ends rest → JsonText.value maxDepth (m.2.chars ++ rest) = .error fault) :
    ofText (Value.object (e.ownMembers ++ [m])).render = .error fault := by
  have hown : ∀ own ∈ e.ownMembers, ∀ d, takeExcept m.1 fault d own = takeMember d own := by
    intro own hmem d
    refine if_neg fun heq => ?_
    rcases List.mem_cons.1 hmem with rfl | hmem
    · exact hkey.1 heq.symm
    · exact hkey.2 (heq ▸ (List.of_mem_zip hmem).1)
  have hlast (d : Draft (String × Value)) : takeExcept m.1 fault d m = .error fault := if_pos rfl
  have hread : ∀ other ∈ e.ownMembers ++ [m], ∀ d rest, Ends rest →
      readMember d other.1 (other.2.chars ++ rest) =
        (takeExcept m.1 fault d other).map fun d => (d, rest) := by
    intro other hmem d rest hrest
    rcases List.mem_append.1 hmem with hmem | hmem
    · rw [hown other hmem]
      exact readMember_chars (readable_ownMembers e other hmem) d hrest
    · rw [List.mem_singleton.1 hmem, readMember, if_neg hkey.1, h rest hrest, hlast]
      rfl
  rw [ofText_object hread, List.foldlM_append, JsonText.foldlM_congr hown,
    foldlM_takeMember_tagged (filter_ownMembers e).1, JsonText.ok_bind, List.foldlM_cons, hlast]
  rfl

/-- Not every unknown member is passed over: arrays nested 127 deep and a number beyond 64-bit
floating point make the text malformed. -/
theorem ofText_unreadable :
    let e := bindingObserved (.v4 0x01020304 5)
    ofText (Value.object (e.ownMembers ++ [("x", nested 127)])).render = .error .malformed ∧
    ofText (Value.object (e.ownMembers ++ [("x", .decimal false 1 400)])).render =
      .error .malformed ∧
    ¬ ∀ (e : Event) (unknown members : List (String × Value)), (∀ a ∈ e.endpoints, a.flow = 0) →
      (∀ m ∈ unknown, m.1 ≠ tagKey ∧ m.1 ∉ e.kind.fields) →
      members.Perm (e.ownMembers ++ unknown) → ofText (Value.object members).render = .ok e := by
  intro e
  have hunknown : "x" ≠ tagKey ∧ "x" ∉ e.kind.fields := by decide
  have hdeep : ofText (Value.object (e.ownMembers ++ [("x", nested 127)])).render =
      .error .malformed :=
    ofText_last e hunknown fun rest _ => value_nested 127 rest
  refine ⟨hdeep, by decide +kernel, fun hall => ?_⟩
  have hread := hall e [("x", nested 127)] _ (by decide)
    (fun m hm => List.mem_singleton.1 hm ▸ hunknown) (List.Perm.refl _)
  rw [hdeep] at hread
  cases hread

end NatRelay.Event
