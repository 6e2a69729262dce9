import NatRelay.Service.Basic
import NatRelay.Settings.Lists
import NatRelay.Settings.Value
import NatRelay.Text.Quoted

/-! The settings of the relay, read from variables whose names start with `TURN_` in any case. -/
namespace NatRelay

/-- How log lines are written. -/
inductive LogFormat where
  /-- For people. -/
  | console
  /-- One JSON object a line. -/
  | json
  deriving DecidableEq

/-- Settings that passed all checks. -/
structure Settings where
  realm : String
  software : String
  interfaces : List Interface
  /-- Users and their passwords. -/
  users : Assoc String String
  defaultLifetime : Duration
  maxLifetime : Duration
  permissionLifetime : Duration
  channelLifetime : Duration
  nonceTtl : Duration
  nonceCapacity : Nat
  authTimeout : Duration
  firstPort : UInt16
  lastPort : UInt16
  maxAllocations : Nat
  userQuota : Nat
  sweepInterval : Duration
  maxPendingRequests : Nat
  logLevel : String
  logFormat : LogFormat

namespace Settings

/-- Why variables are refused. -/
inductive Error where
  /-- The value of a key is no count at all, or not one below `2 ^ bits`. -/
  | notCount (key : String) (value : Value) (bits : Nat)
  /-- The value of a variable breaks a rule. -/
  | invalid (name value : String)

/-- What a value that is no count is called. -/
def Value.describe : Value → String
  | .bool b => s!"boolean `{b}`"
  | .integer n => s!"64-bit integer `{n}`"
  | .real x => s!"floating point `{x.text}`"
  | .text s => "string " ++ Text.quoted s

namespace Error

/-- A value of the wrong type, and where it stands. -/
def typeMessage (key : String) (value : Value) (bits : Nat) : String :=
  let place := s!" for key `{key}`"
  match value.toCount? with
  | some n =>
    s!"invalid type: 64-bit unsigned integer `{n}`, expected an unsigned {bits} bit integer" ++
      place
  | none =>
    s!"invalid type: {value.describe}, expected an unsigned 64 bit or less integer" ++ place ++
      " in the environment"

def message : Error → String
  | notCount key value bits => "Failed to load configuration: " ++ typeMessage key value bits
  | invalid name value => s!"Invalid value for {name}: {value}"

/-- The message and those of the errors behind it. -/
def causes : Error → List String
  | notCount key value bits => [message (notCount key value bits), typeMessage key value bits]
  | invalid name value => [message (invalid name value)]

end Error

/-- The front of every variable's name, in lower case. -/
def nameFront : String := "turn_"

/-- Variables by the part of their names behind the front, in lower case. -/
def ofVariables (vars : List (String × String)) : Assoc String Value :=
  vars.foldl (fun m (name, value) =>
    match Text.behind? nameFront.toList (lower name).toList with
    | some key => Assoc.put m (String.ofList key) (Value.ofText value)
    | none => m) []

/-- The text of a key. -/
def textAt (m : Assoc String Value) (key default : String) : String :=
  ((m.lookup key).map Value.render).getD default

/-- The count of a key, which must be below `2 ^ bits`. -/
def countAt (m : Assoc String Value) (key : String) (default bits : Nat) : Except Error Nat :=
  match m.lookup key with
  | none => .ok default
  | some v =>
    match v.toCount? with
    | some n => if n < 1 <<< bits then .ok n else .error (.notCount key v bits)
    | none => .error (.notCount key v bits)

/-- The format that a text names, in any case. -/
def format? (s : String) : Option LogFormat :=
  if lower s = "console" then some .console else if lower s = "json" then some .json else none

/-- Refuse a variable unless a rule holds. -/
def check (rule : Prop) [Decidable rule] (name value : String) : Except Error Unit :=
  if rule then .ok () else .error (.invalid name value)

/-- Read and check settings. Counts are read before any rule is checked. -/
def load (vars : List (String × String)) : Except Error Settings := do
  let m := ofVariables vars
  let realm := textAt m "realm" "localhost"
  let defaultLifetime ← countAt m "default_lifetime" 600 64
  let maxLifetime ← countAt m "max_lifetime" 3600 64
  let permissionLifetime ← countAt m "permission_lifetime" 300 64
  let channelLifetime ← countAt m "channel_lifetime" 600 64
  let nonceTtl ← countAt m "nonce_ttl" 3600 64
  let nonceCapacity ← countAt m "nonce_capacity" 65536 64
  let authTimeout ← countAt m "auth_timeout_ms" 5000 64
  let firstPort ← countAt m "port_range_start" 49152 16
  let lastPort ← countAt m "port_range_end" 65535 16
  let maxAllocations ← countAt m "max_allocations" 0 64
  let userQuota ← countAt m "user_quota" 0 64
  let sweepInterval ← countAt m "sweep_interval" 5 64
  let maxPendingRequests ← countAt m "max_pending_requests" 1024 64
  check (realm ≠ "") "TURN_REALM" realm
  check (firstPort ≤ lastPort) "TURN_PORT_RANGE_START" s!"{firstPort} > {lastPort}"
  check (0 < defaultLifetime ∧ defaultLifetime ≤ maxLifetime) "TURN_DEFAULT_LIFETIME"
    (toString defaultLifetime)
  check (0 < sweepInterval) "TURN_SWEEP_INTERVAL" (toString sweepInterval)
  let formatName := textAt m "log_format" "console"
  let some logFormat := format? formatName | .error (.invalid "TURN_LOG_FORMAT" formatName)
  let interfaceList := textAt m "interfaces" "0.0.0.0:3478@127.0.0.1:3478"
  let some interfaces := readInterfaces? interfaceList
    | .error (.invalid "TURN_INTERFACES" interfaceList)
  let users ← (readUsers (textAt m "users" "")).mapError (.invalid "TURN_USERS")
  pure {
    realm, interfaces, users, nonceCapacity, authTimeout, maxAllocations, userQuota
    maxPendingRequests, logFormat
    software := textAt m "software" "turn-relay"
    defaultLifetime := seconds defaultLifetime
    maxLifetime := seconds maxLifetime
    permissionLifetime := seconds permissionLifetime
    channelLifetime := seconds channelLifetime
    nonceTtl := seconds nonceTtl
    firstPort := UInt16.ofNat firstPort
    lastPort := UInt16.ofNat lastPort
    sweepInterval := seconds sweepInterval
    logLevel := textAt m "log_level" "info" }

/-- The IPs that allocations are made on: the external ones, each once. -/
def relayAddresses (s : Settings) : List Ip := (s.interfaces.map (·.external.ip)).eraseDups

def serviceOptions (s : Settings) : ServiceOptions :=
  { realm := s.realm
    software := s.software
    allocation :=
      { defaultLifetime := s.defaultLifetime
        maxLifetime := s.maxLifetime
        permissionLifetime := s.permissionLifetime
        channelLifetime := s.channelLifetime
        maxAllocations := s.maxAllocations
        userQuota := s.userQuota }
    relayAddresses := s.relayAddresses
    firstPort := s.firstPort
    lastPort := s.lastPort
    nonceTtl := s.nonceTtl
    nonceCapacity := s.nonceCapacity
    loginTimeout := s.authTimeout }

/-- The level that log lines are filtered by; an empty one is no choice. -/
def level (s : Settings) : String := if s.logLevel = "" then "info" else s.logLevel

/-- An interface as text for people. -/
def describeInterface (i : Interface) : String :=
  "InterfaceConfig \x7b bind: " ++ i.listening.text ++ ", external: " ++ i.external.text ++ " \x7d"

/-- The settings as text for people. Of the users only the number shows. -/
def describe (s : Settings) : String :=
  "TurnConfig \x7b realm: " ++ Text.quoted s.realm ++
    ", interfaces: [" ++ ", ".intercalate (s.interfaces.map describeInterface) ++
    s!"], users: {s.users.length}, port_range: {s.firstPort.toNat}..={s.lastPort.toNat}, " ++
    s!"max_lifetime: {s.maxLifetime / 1000}s, .. \x7d"

end Settings
end NatRelay
