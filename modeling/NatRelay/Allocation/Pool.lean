import NatRelay.Net.Endpoint

/-! The pool of relayed transport addresses: every port of a range on each of a list of IPs,
leased one at a time; and what a sequence of leases and releases does to it. -/
namespace NatRelay

structure Pool where
  /-- Distinct IPs in the order in which they are used up. -/
  addresses : List Ip
  firstPort : UInt16
  lastPort : UInt16
  /-- Addresses on lease. -/
  leased : List Endpoint := []

namespace Pool

/-- A pool with nothing on lease. Repeated IPs count once. -/
def make (addresses : List Ip) (firstPort lastPort : UInt16) : Pool :=
  ⟨addresses.eraseDups, firstPort, lastPort, []⟩

/-- Number of ports in the range; none if it runs backwards. -/
def span (p : Pool) : Nat := p.lastPort.toNat + 1 - p.firstPort.toNat

def hasFamily (p : Pool) (f : Family) : Bool := p.addresses.any (·.family = f)

/-- Number of addresses in total. -/
def capacity (p : Pool) : Nat := p.addresses.length * p.span

/-- The addresses of one IP, from the port at `offset` round to the one before it. -/
def ring (p : Pool) (offset : Nat) (ip : Ip) : List Endpoint :=
  (List.range p.span).map fun step =>
    .ofIp ip (UInt16.ofNat (p.firstPort.toNat + (offset + step) % p.span))

/-- The first free address of a family, IP by IP. -/
def free? (p : Pool) (f : Family) (offset : Nat) : Option Endpoint :=
  (p.addresses.filter (·.family = f)).findSome? fun ip =>
    (p.ring offset ip).find? fun e => !p.leased.contains e

/-- Lease a free address of a family. -/
def lease (p : Pool) (f : Family) (offset : Nat) : Option (Endpoint × Pool) :=
  (p.free? f offset).map fun e => (e, { p with leased := e :: p.leased })

/-- Take an address back. -/
def release (p : Pool) (e : Endpoint) : Pool :=
  { p with leased := p.leased.filter (· ≠ e) }

/-! ### Sequences of leases and releases -/

inductive Op where
  /-- The port search starts at `offset`. -/
  | lease (f : Family) (offset : Nat)
  | release (e : Endpoint)

/-- One operation at a time. A lease answers the address that it took. -/
def step (p : Pool) : Op → Option Endpoint × Pool
  | .lease f offset =>
    match p.lease f offset with
    | some (e, p) => (some e, p)
    | none => (none, p)
  | .release e => (none, p.release e)

/-- Operations one after the other. -/
def run (p : Pool) : List Op → List (Option Endpoint) × Pool
  | [] => ([], p)
  | op :: rest =>
    let (taken, p) := p.step op
    let (takens, p) := run p rest
    (taken :: takens, p)

end Pool
end NatRelay
