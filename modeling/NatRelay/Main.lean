import NatRelay.Program
import NatRelay.Settings.VariableFile
import Std.Async.Signal
import Std.Async.UDP

/-! The program on the sockets of the machine. The host decides on everything with a network in
memory; here that network is fed with the packets that arrive, what leaves it is sent, and the
sockets of the machine are opened and closed as its own are. -/
namespace NatRelay.Machine
open Std.Async Std.Net

/-- The variables of the process. -/
def environment : IO (List (String × String)) := do
  let bytes ← try IO.FS.readBinFile "/proc/self/environ" catch _ => pure .empty
  let entries := bytes.toList.splitBy fun _ b => b != 0
  return entries.filterMap fun entry => do
    let text ← (Utf8.decode (entry.dropWhile (· == 0))).toOption
    match text.toList.span (· ≠ '=') with
    | (name, '=' :: value) => some (String.ofList name, String.ofList value)
    | _ => none

def toAddress : Endpoint → SocketAddress
  | .v4 ip port =>
    let octet (k : Nat) := UInt8.ofNat (ip.toNat >>> (24 - 8 * k))
    .v4 ⟨⟨.ofFn fun k => octet k⟩, port⟩
  | .v6 ip port _ _ =>
    let segment (k : Nat) := UInt16.ofNat (ip.toNat >>> (112 - 16 * k))
    .v6 ⟨⟨.ofFn fun k => segment k⟩, port⟩

def ofAddress : SocketAddress → Endpoint
  | .v4 a => .v4 (.ofNat 32 (a.addr.octets.foldl (fun n b => n * 256 + b.toNat) 0)) a.port
  | .v6 a => .v6 (.ofNat 128 (a.addr.segments.foldl (fun n w => n * 65536 + w.toNat) 0)) a.port 0 0

/-- A socket of the machine and the datagram that is awaited on it. -/
structure Opened where
  addr : Endpoint
  socket : UDP.Socket
  arrival : AsyncTask (ByteArray × Option SocketAddress)

/-- Greatest size of a datagram. -/
def datagramSize : UInt64 := 65536

/-- Open a socket if the machine lets us. -/
def open? (addr : Endpoint) : IO (Option Opened) := do
  try
    let socket ← UDP.Socket.mk
    socket.bind (toAddress addr)
    return some ⟨addr, socket, ← (socket.recv datagramSize).toIO⟩
  catch _ => return none

/-- Open sockets; the addresses that are refused come second. -/
def openAll (addrs : List Endpoint) : IO (List Opened × List Endpoint) := do
  let tried ← addrs.mapM fun addr => return (addr, ← open? addr)
  return (tried.filterMap (·.2), tried.filterMap fun (addr, o?) =>
    if o?.isNone then some addr else none)

/-- Take the datagram that has arrived on a socket, if any, and await the next. -/
def Opened.poll (o : Opened) : IO (Opened × List Packet) := do
  if !(← IO.hasFinished o.arrival) then return (o, [])
  let packets ← try
    match ← o.arrival.block with
    | (data, some source) => pure [⟨ofAddress source, o.addr, data.toList⟩]
    | (_, none) => pure []
  catch _ => pure []
  return ({ o with arrival := ← (o.socket.recv datagramSize).toIO }, packets)

/-- Let go of a socket. It is closed once nothing is awaited on it, so it is sent a last, empty
datagram. -/
def Opened.close (o : Opened) : IO Unit := do
  try (o.socket.send .empty (some (toAddress o.addr))).block catch _ => pure ()

/-- Send a packet from its socket, whatever comes of it. -/
def post (sockets : List Opened) (p : Packet) : IO Unit := do
  if let some o := sockets.find? (·.addr = p.source) then
    try (o.socket.send ⟨p.data.toArray⟩ (some (toAddress p.target))).block catch _ => pure ()

/-- Characters of a nonce. -/
def alphabet : List Char :=
  "ABCDEFGHIJKLMNOPQRSTUVWXYZabcdefghijklmnopqrstuvwxyz0123456789".toList

/-- What a seed from chance yields for the given counters. -/
def draws (seed : Bytes) (round k : Nat) : Draw :=
  let digest (use : Nat) :=
    Sha256.hash (seed ++ Bytes.ofNat 4 use ++ Bytes.ofNat 4 round ++ Bytes.ofNat 4 k)
  { nonce := ⟨String.ofList ((digest 0).take 16 |>.map fun b =>
      alphabet[b.toNat % alphabet.length]?.getD 'A'), (Bytes.toNat ((digest 1).take 8))⟩
    portOffset := Bytes.toNat ((digest 2).take 4)
    tid := .ofNat 96 (Bytes.toNat ((digest 3).take 12)) }

def print (s : Settings) (environment? : Option String) (log : List Log.Record) : IO Unit := do
  let second := (← Std.Time.Timestamp.now).toSecondsSinceUnixEpoch.val.toNat
  for r in Program.visible s environment? log do
    IO.println (Program.written s.logFormat second r)

/-- Start, and open the sockets. An address that the machine refuses is somebody else's. -/
partial def start (vars : List (String × String)) (taken : List Endpoint) (now : Time) :
    IO (Program.Start × List Opened) := do
  match Program.start vars { sockets := taken } now with
  | .running s log host n =>
    let (opened, refused) ← openAll (n.sockets.filter (!taken.contains ·))
    if refused.isEmpty then return (.running s log host n, opened)
    opened.forM Opened.close
    start vars (taken ++ refused) now
  | failed => return (failed, [])

/-- Serve until the interrupt comes; sweeps are due once a period. -/
partial def serve (interrupt : AsyncTask Int) (period : Duration) (sweepAt : Time) (host : Host)
    (n : Network) (sockets : List Opened) : IO Host := do
  if ← IO.hasFinished interrupt then return host
  let now ← IO.monoMsNow
  let polled ← sockets.mapM Opened.poll
  let arrived := polled.flatMap (·.2)
  let seed := (← IO.getRandomBytes 32).toList
  let (host, n) := host.run { n with inFlight := arrived } (draws seed) now
  let (host, n) := if now < sweepAt then (host, n) else host.told n (host.service.sweep now)
  let (kept, dropped) := (polled.map (·.1)).partition (n.isBound ·.addr)
  dropped.forM Opened.close
  let (opened, refused) ← openAll (n.sockets.filter fun e => !kept.any (·.addr = e))
  n.inFlight.forM (post (kept ++ opened))
  let (host, n) := refused.foldl (fun (host, n) e => host.lose n e) (host, n)
  if arrived.isEmpty then IO.sleep 2
  serve interrupt period (if now < sweepAt then sweepAt else now + period) host
    { n with inFlight := [] } (kept ++ opened)

end NatRelay.Machine

open NatRelay Machine in
/-- Run the program; a failure is reported and answered with a status of one. -/
def main : IO UInt32 := do
  let file ← try IO.FS.readFile ".env" catch _ => pure ""
  let vars := Settings.VariableFile.load (← environment) file
  let filter? := vars.lookup "RUST_LOG"
  let interrupt ← Std.Async.Signal.Waiter.mk .sigint false
  let arrival ← interrupt.wait
  let now ← IO.monoMsNow
  match ← start vars [] now with
  | (.unconfigured failure, _) =>
    IO.eprint failure.report
    return 1
  | (.unbound s log failure, _) =>
    print s filter? log
    IO.eprint failure.report
    return 1
  | (.running s log host n, sockets) =>
    print s filter? log
    let host ← serve arrival s.sweepInterval now host n sockets
    print s filter? (Program.stop host)
    return 0
