import NatRelay.Bytes

/-! IP addresses and transport addresses: an IP with a port, and with a flow label and a zone for
IPv6. -/
namespace NatRelay

/-- Address family. -/
inductive Family where
  | v4
  | v6
  deriving DecidableEq

/-- An IP address as the number that its bytes denote. -/
inductive Ip where
  | v4 (value : BitVec 32)
  | v6 (value : BitVec 128)
  deriving DecidableEq, Hashable

namespace Ip

def family : Ip → Family
  | v4 _ => .v4
  | v6 _ => .v6

/-- The bytes in network order. -/
def bytes : Ip → Bytes
  | v4 a => Bytes.ofNat 4 a.toNat
  | v6 a => Bytes.ofNat 16 a.toNat

/-- The address 0.0.0.0 or the IPv6 address of all zeros. -/
def isUnspecified : Ip → Bool
  | v4 a => a == 0
  | v6 a => a == 0

/-- An address of 224.0.0.0/4 or ff00::/8. -/
def isMulticast : Ip → Bool
  | v4 a => a.toNat >>> 28 == 0xE
  | v6 a => a.toNat >>> 120 == 0xFF

/-- IPv4 comes before IPv6; inside a family the value decides. -/
def compare : Ip → Ip → Ordering
  | v4 a, v4 b => Ord.compare a.toNat b.toNat
  | v4 _, v6 _ => .lt
  | v6 _, v4 _ => .gt
  | v6 a, v6 b => Ord.compare a.toNat b.toNat

end Ip

/-- A transport address. -/
inductive Endpoint where
  | v4 (ip : BitVec 32) (port : UInt16)
  | v6 (ip : BitVec 128) (port : UInt16) (flow zone : UInt32)
  deriving DecidableEq, Hashable

namespace Endpoint

def ip : Endpoint → Ip
  | v4 a _ => .v4 a
  | v6 a _ _ _ => .v6 a

def port : Endpoint → UInt16
  | v4 _ p => p
  | v6 _ p _ _ => p

def flow : Endpoint → UInt32
  | v4 _ _ => 0
  | v6 _ _ l _ => l

def zone : Endpoint → UInt32
  | v4 _ _ => 0
  | v6 _ _ _ z => z

/-- The transport address without a flow label and a zone. -/
def ofIp : Ip → UInt16 → Endpoint
  | .v4 a, p => v4 a p
  | .v6 a, p => v6 a p 0 0

def family (e : Endpoint) : Family := e.ip.family

/-- The same address at another port. -/
def withPort : Endpoint → UInt16 → Endpoint
  | v4 a _, p => v4 a p
  | v6 a _ l z, p => v6 a p l z

@[simp] theorem ip_ofIp (a : Ip) (p : UInt16) : (ofIp a p).ip = a := by cases a <;> rfl

@[simp] theorem port_ofIp (a : Ip) (p : UInt16) : (ofIp a p).port = p := by cases a <;> rfl

@[simp] theorem zone_ofIp (a : Ip) (p : UInt16) : (ofIp a p).zone = 0 := by cases a <;> rfl

/-- An address is its IP and its port just if it carries nothing else. -/
theorem ofIp_ip_port {e : Endpoint} : ofIp e.ip e.port = e ↔ e.flow = 0 ∧ e.zone = 0 := by
  cases e with
  | v4 a p => simp [ofIp, ip, port, flow, zone]
  | v6 a p l z => simp [ofIp, ip, port, flow, zone, eq_comm]

theorem isBare_ofIp (a : Ip) (p : UInt16) : (ofIp a p).flow = 0 ∧ (ofIp a p).zone = 0 :=
  ofIp_ip_port.1 (by rw [ip_ofIp, port_ofIp])

/-- IP first, then port, then flow label and zone. -/
def compare (a b : Endpoint) : Ordering :=
  (a.ip.compare b.ip).then ((Ord.compare a.port.toNat b.port.toNat).then
    ((Ord.compare a.flow.toNat b.flow.toNat).then (Ord.compare a.zone.toNat b.zone.toNat)))

end Endpoint
end NatRelay
