import NatRelay.Log.Record
import NatRelay.Number.Reading
import NatRelay.Settings.Basic
import NatRelay.Text.Alphanumeric
import NatRelay.Text.Pieces

/-! Which log records are shown. A filter is a list of directives, written with commas between
them; the most specific directive that covers a record decides on it. -/
namespace NatRelay.Log

/-- Shows the records of some targets up to a level. -/
structure Directive where
  /-- What the target of a record starts with; absent covers every target. -/
  target : Option (List Char)
  /-- Fields that a record must have. -/
  fields : List String := []
  /-- Levels of a greater rank are not shown. -/
  verbosity : Nat
  deriving DecidableEq

namespace Directive

/-- Everything is shown. -/
def everything : Nat := 5

/-- Read a verbosity: a number up to five, or the name of a level in any case. -/
def verbosity? (cs : List Char) : Option Nat :=
  let digits := match cs with
    | '+' :: rest => rest
    | _ => cs
  match natOfDigits? digits with
  | some n => if n ≤ everything then some n else none
  | none =>
    match Settings.lower (String.ofList cs) with
    | "off" => some 0
    | "error" => some 1
    | "warn" => some 2
    | "info" => some 3
    | "debug" => some 4
    | "trace" => some 5
    | _ => none

/-- The verbosity behind an equals sign; none stands for everything. -/
def level? (cs : List Char) : Option Nat := if cs.isEmpty then some everything else verbosity? cs

/-- A word alone is a verbosity for every target, or else a target of which everything is shown. -/
def ofWord (cs : List Char) : Directive :=
  match verbosity? cs with
  | some n => ⟨none, [], n⟩
  | none => ⟨some cs, [], everything⟩

/-- What stands between brackets: the name of a span and, between braces, of a field. Records stand
in no span and are compared with no value, so that a directive is lost on them that asks for one.
The first result tells so. -/
def bracket? (cs : List Char) : Option (Bool × List String) :=
  let name := cs.takeWhile (· ≠ '\x7b')
  match cs.dropWhile (· ≠ '\x7b') with
  | [] => some (true, [])
  | _ :: field =>
    if field.getLast? ≠ some '\x7d' ∨ field.length < 2 then none
    else
      let field := field.dropLast
      some (!name.isEmpty || field.contains '=', [String.ofList field])

/-- What follows a closing bracket: nothing, or an equals sign and a verbosity. -/
def behindBracket? : List Char → Option Nat
  | [] => some everything
  | '=' :: cs => level? cs
  | _ => none

/-- A word may start with such a character. -/
def startsWord (c : Char) : Bool := Text.isAlphanumeric c || c ∈ ['-', ':', '_']

/-- A directive with brackets in it, behind the target. -/
def ofBracket? (target : Option (List Char)) (cs : List Char) : Option (Option Directive) := do
  let inside := cs.takeWhile (· ≠ ']')
  let rest ← match cs.dropWhile (· ≠ ']') with
    | _ :: rest => some rest
    | [] => none
  let (lost, fields) ← bracket? inside
  let n ← behindBracket? rest
  pure (if lost then none else some ⟨target, fields, n⟩)

/-- Read one item of a list. Nothing is shown by the inner `none`. Blanks in front of an item count
for the places in it, yet not for its first character. -/
def ofItem? (item : List Char) : Option (Option Directive) :=
  let trimmed := Text.trim item
  match trimmed with
  | [] => none
  | '[' :: _ => ofBracket? none (item.drop 1)
  | c :: _ =>
    let place := (trimmed.takeWhile fun c => c ≠ '=' ∧ c ≠ '[').length
    if !startsWord c then none
    else
      match trimmed[place]? with
      | none => some (some (ofWord item))
      | some '=' =>
        (level? (item.drop (place + 1))).map fun n => some ⟨some (item.take place), [], n⟩
      | some _ => ofBracket? (some (item.take place)) (item.drop (place + 1))

/-- Whether the directive decides on a record. -/
def covers (d : Directive) (r : Record) : Bool :=
  (d.target.all fun t => t.isPrefixOf r.target.toList) &&
    d.fields.all fun f => f = "message" || r.fields.any (·.1 = f)

/-- Whether a directive says no more than another about the records that it covers. -/
def yieldsTo (d e : Directive) : Bool :=
  let size (d : Directive) := (d.target.map (·.length + 1)).getD 0
  size d < size e || (size d = size e && d.fields.length ≤ e.fields.length)

end Directive

/-- Directives in the order in which they were written. -/
abbrev Filter := List Directive

namespace Filter

/-- Read a list of directives; one bad item spoils it. -/
def ofText? (s : String) : Option Filter := do
  let items := (Text.splitAt ',' s.toList).filter (!·.isEmpty)
  pure ((← items.mapM Directive.ofItem?).filterMap id)

/-- The most specific directive that covers a record, the last of several. -/
def decisive? (f : Filter) (r : Record) : Option Directive :=
  (f.filter (·.covers r)).foldl (fun best? d =>
    match best? with
    | some best => some (if best.yieldsTo d then d else best)
    | none => some d) none

/-- Whether a record is shown. -/
def shows (f : Filter) (r : Record) : Bool :=
  (f.decisive? r).any fun d => r.level.rank ≤ d.verbosity

/-- The targets of the relay itself, which follow its settings. -/
def ownTargets : List String :=
  ["turn_codec", "turn_core", "turn_config", "turn_server", "turn_logging"]

/-- The list for a level: warnings of everybody, and the level for the relay itself. -/
def directives (level : String) : String :=
  ",".intercalate ("warn" :: ownTargets.map fun t => s!"{t}={level}")

/-- The filter in force: the one of the environment if it can be read, else that of the level, else
that of an ordinary level. -/
def choose (environment? : Option String) (level : String) : Filter :=
  ((environment?.bind ofText?).or (ofText? (directives level))).getD
    ((ofText? (directives "info")).getD [])

end Filter

/-- The record that opens a log. -/
def opening (service : String) (format : LogFormat) : Record :=
  { level := .info, target := "turn_logging"
    message := match format with
      | .json => "Logging initialized"
      | .console => "Console logging initialized"
    fields := [("service", .quoted service), ("version", .quoted "0.9.0")] }

end NatRelay.Log
