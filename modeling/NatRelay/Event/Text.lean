import NatRelay.Event.Kind
import NatRelay.JsonText.Read
import NatRelay.Text.Timestamp

/-! Events as JSON text. A written event is an object. One that is read may also be an array, of the
kind's name and the fields in order; in an object the members may come in any order, and unknown
ones are passed over. The kind is judged as soon as it is read, the fields at the end. -/
namespace NatRelay.Event
open JsonText (Value Fault Reader)

/-- The text of an event. -/
def text (e : Event) : String := e.toJson.render

/-- The text of an event together with its identifier and its time. -/
def envelope (e : Event) (id : String) (atSecond : Nat) : String :=
  Value.render (.object
    [("event_id", .text id), ("timestamp", .text (Timestamp.text atSecond)), ("kind", e.toJson)])

/-- How deep arrays and objects may be nested in a text. -/
def maxDepth : Nat := 127

/-- The name of a kind. -/
def readKind : Reader Kind := fun cs =>
  match JsonText.skip cs with
  | [] => .error .truncated
  | c :: rest =>
    if c = '"' then do
      let (name, rest) ← JsonText.string rest
      match Kind.ofName? name with
      | some k => pure (k, rest)
      | none => .error .mismatch
    else if c = '[' ∨ c = '\x7b' then .error .mismatch
    else do
      let _ ← JsonText.value 1 (c :: rest)
      .error .mismatch

/-- What is known of an event in the middle of its text. -/
structure Draft (α : Type) where
  kind? : Option Kind := none
  fields : List α := []

/-- One more member of an object. The kind must not come twice. -/
def readMember (d : Draft (String × Value)) (key : String) : Reader (Draft (String × Value)) :=
  fun cs =>
    if key = tagKey then
      if d.kind?.isSome then .error .mismatch
      else do
        let (k, rest) ← readKind cs
        pure ({ d with kind? := some k }, rest)
    else do
      let (v, rest) ← JsonText.value maxDepth cs
      pure ({ d with fields := d.fields ++ [(key, v)] }, rest)

/-- One more element of an array; the first is the kind. -/
def readElement (d : Draft Value) : Reader (Draft Value) := fun cs =>
  if d.kind?.isNone then do
    let (k, rest) ← readKind cs
    pure ({ d with kind? := some k }, rest)
  else do
    let (v, rest) ← JsonText.value maxDepth cs
    pure ({ d with fields := d.fields ++ [v] }, rest)

/-- The value of the only member with the given key. -/
def theField? (members : List (String × Value)) (key : String) : Option Value :=
  match members.filter (·.1 = key) with
  | [(_, v)] => some v
  | _ => none

/-- The event that the members of an object make. -/
def ofMembers? (d : Draft (String × Value)) : Option Event := do
  let k ← d.kind?
  ofValues? k (← k.fields.mapM (theField? d.fields))

/-- The event that the elements of an array make. -/
def ofElements? (d : Draft Value) : Option Event := do ofValues? (← d.kind?) d.fields

/-- What was made, or a mismatch. -/
def required : Option Event × List Char → Except Fault (Event × List Char)
  | (some e, rest) => .ok (e, rest)
  | (none, _) => .error .mismatch

/-- An event in front of a text. -/
def read : Reader Event := fun cs =>
  match JsonText.skip cs with
  | [] => .error .truncated
  | c :: rest =>
    if c = '\x7b' then do
      let (d, rest) ← JsonText.members readMember (rest.length + 1) true {} rest
      required (ofMembers? d, rest)
    else if c = '[' then do
      let (d, rest) ← JsonText.elements readElement (rest.length + 1) true {} rest
      required (ofElements? d, rest)
    else do
      let _ ← JsonText.value 1 (c :: rest)
      .error .mismatch

/-- Read the text of an event. -/
def ofText (s : String) : Except Fault Event := read s.toList >>= JsonText.finish

end NatRelay.Event
