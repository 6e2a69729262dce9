import NatRelay.Host.Basic
import NatRelay.Log.Filter
import NatRelay.Text.Timestamp

/-! The program: it loads its settings, opens its log, binds its interfaces and runs until it is
told to stop. -/
namespace NatRelay.Program
open Log (Record)

/-- Why the program gives up: what it was about to do, and what went wrong, from the outermost cause
to the innermost. -/
structure Failure where
  context : String
  causes : List String

/-- A text with `first` in front of its first line and `other` in front of the rest. -/
def indent (first other s : String) : String :=
  first ++ ("\n" ++ other).intercalate ((Text.splitAt '\n' s.toList).map String.ofList)

/-- A number in five places. -/
def place (k : Nat) : String :=
  String.ofList (List.replicate (5 - (toString k).length) ' ') ++ toString k

/-- What the program says before it gives up. Several causes are numbered. -/
def Failure.report (f : Failure) : String :=
  let causes := match f.causes with
    | [cause] => [indent "    " "    " cause]
    | causes => causes.zipIdx.map fun (cause, k) => indent (place k ++ ": ") "       " cause
  "Error: " ++ f.context ++ "\n\nCaused by:\n" ++ "\n".intercalate causes ++ "\n"

/-- How far the program came. -/
inductive Start where
  /-- Without settings there is no log. -/
  | unconfigured (failure : Failure)
  | unbound (settings : Settings) (log : List Record) (failure : Failure)
  | running (settings : Settings) (log : List Record) (host : Host) (network : Network)

def info (target message : String) (fields : List (String × Log.FieldValue)) : Record :=
  { level := .info, target, message, fields }

/-- Number of events that the mailbox of the program holds. -/
def eventCapacity : Nat := 1024

/-- The name that the log opens with. -/
def serviceName : String := "turn-server"

/-- What is logged of the settings. -/
def configured (s : Settings) : List Record :=
  [Log.opening serviceName s.logFormat,
    info "turn_server" "Configuration loaded" [("realm", .plain s.realm),
      ("interfaces", .number s.interfaces.length), ("users", .number s.users.length)]] ++
  (if s.users.isEmpty then
    [{ level := .warn, target := "turn_server"
       message := "No users configured; every authenticated request will be rejected" }]
  else [])

/-- What is logged of a new service. -/
def created (s : Service) : Record :=
  info "turn_core::service" "TURN service created"
    [("realm", .plain s.realm), ("relay_capacity", .number s.table.capacity)]

/-- What is logged of an interface that is bound. -/
def bound (i : Interface) : Record :=
  info "turn_server::relay_server" "Interface bound"
    [("interface", .plain i.listening.text), ("external", .plain i.external.text)]

/-- What is logged once all is up. -/
def up (interfaces : List Interface) : List Record :=
  [info "turn_server" "TURN server running. Press Ctrl+C to stop." [],
    info "turn_server::relay_server" "Relay server running"
      [("interfaces", .number interfaces.length)]]

/-- Start the program with its variables at a point in time. -/
def start (vars : List (String × String)) (n : Network) (now : Time) : Start :=
  match Settings.load vars with
  | .error e => .unconfigured ⟨"Failed to load configuration", e.causes⟩
  | .ok s =>
    let service := Service.make s.serviceOptions
    let (interfaces, result) := Host.listen n s.interfaces
    let log := configured s ++ [created service] ++ interfaces.map bound
    match result with
    | .error e => .unbound s log ⟨"Failed to bind interfaces", [e.message]⟩
    | .ok n =>
      let login := Login.ofUsers s.users s.authTimeout
      let host := ((Host.make service login interfaces eventCapacity now).withMaxPending
        s.maxPendingRequests).withReconcileEvery s.sweepInterval
      .running s (log ++ up interfaces) host n

/-- What is logged at the end. -/
def stop (h : Host) : List Record :=
  [info "turn_server" "Shutdown signal received" [],
    info "turn_server" "TURN server stopped" [("allocations", .number h.service.table.size)]]

/-- The records that show, for the level of the settings and the filter of the environment. -/
def visible (s : Settings) (environment? : Option String) (log : List Record) : List Record :=
  log.filter (Log.Filter.choose environment? s.level).shows

/-- A record as it is written at a second counted from the start of 1970. -/
def written (format : LogFormat) (second : Nat) (r : Record) : String :=
  let time := Timestamp.text second
  match format, r.toJson with
  | .json, .object fields => (JsonText.Value.object (("timestamp", .text time) :: fields)).render
  | _, _ => time ++ " " ++ r.line

end NatRelay.Program
