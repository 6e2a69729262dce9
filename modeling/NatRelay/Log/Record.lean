import NatRelay.JsonText.Basic
import NatRelay.Text.Quoted

/-! Log records and their two written forms, a line for people and a JSON object. -/
namespace NatRelay.Log

/-- How grave a record is. -/
inductive Level where
  | error
  | warn
  | info
  | debug
  | trace
  deriving DecidableEq

namespace Level

/-- The least verbosity that shows the level. -/
def rank : Level → Nat
  | error => 1
  | warn => 2
  | info => 3
  | debug => 4
  | trace => 5

def name : Level → String
  | error => "ERROR"
  | warn => "WARN"
  | info => "INFO"
  | debug => "DEBUG"
  | trace => "TRACE"

end Level

/-- The value of a field. -/
inductive FieldValue where
  /-- A text that a line shows as it is. -/
  | plain (s : String)
  /-- A text that a line shows between quotes. -/
  | quoted (s : String)
  | number (n : Nat)

structure Record where
  level : Level
  /-- The part of the program that speaks. -/
  target : String
  message : String
  fields : List (String × FieldValue) := []

def FieldValue.text : FieldValue → String
  | plain s => s
  | quoted s => Text.quoted s
  | number n => toString n

def FieldValue.toJson : FieldValue → JsonText.Value
  | plain s => .text s
  | quoted s => .text s
  | number n => .integer n

namespace Record

/-- A line for people: the level in five places, the target, the message and the fields. -/
def line (r : Record) : String :=
  let level := r.level.name
  let pad := String.ofList (List.replicate (5 - level.length) ' ')
  let fields := r.fields.map fun (key, v) => s!" {key}={v.text}"
  pad ++ level ++ " " ++ r.target ++ ": " ++ r.message ++ String.join fields

/-- An object; the message is one of its fields. -/
def toJson (r : Record) : JsonText.Value :=
  .object [("level", .text r.level.name),
    ("fields", .object (("message", .text r.message) :: r.fields.map fun (k, v) => (k, v.toJson))),
    ("target", .text r.target)]

end Record
end NatRelay.Log
