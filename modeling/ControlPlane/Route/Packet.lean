import ControlPlane.Document.Decode
import ControlPlane.Header.Space
import ControlPlane.Term.Ledger

/-!
# Packets

The packet that every forwarding decision of an encoding is about: one integer per header field and one
boolean per TCP flag.
-/
namespace ControlPlane

inductive PacketField where
  | dstIp
  | srcIp
  | dstPort
  | srcPort
  | icmpCode
  | icmpType
  | ipProtocol
  deriving DecidableEq, Repr

namespace PacketField

def all : List PacketField := [dstIp, srcIp, dstPort, srcPort, icmpCode, icmpType, ipProtocol]

def suffix : PacketField → String
  | dstIp => "dst-ip"
  | srcIp => "src-ip"
  | dstPort => "dst-port"
  | srcPort => "src-port"
  | icmpCode => "icmp-code"
  | icmpType => "icmp-type"
  | ipProtocol => "ip-protocol"

def key : PacketField → String
  | dstIp => "dstIp"
  | srcIp => "srcIp"
  | dstPort => "dstPort"
  | srcPort => "srcPort"
  | icmpCode => "icmpCode"
  | icmpType => "icmpType"
  | ipProtocol => "ipProtocol"

end PacketField

structure Packet where
  name : String
  deriving DecidableEq, Repr

namespace Packet

def field (p : Packet) (f : PacketField) : Term .int := .intVar (p.name ++ f.suffix)

def flag (p : Packet) (f : TcpFlag) : Term .bool := .boolVar (p.name ++ "tcp-" ++ f.label)

/-- The destination address. -/
def dstIp (p : Packet) : Term .int := p.field .dstIp

def declarations (p : Packet) : List Variable :=
  (PacketField.all.map fun f => ⟨p.name ++ f.suffix, .int⟩) ++
    TcpFlag.all.map fun f => ⟨p.name ++ "tcp-" ++ f.label, .bool⟩

def equal (p q : Packet) : Term .bool :=
  .and ((PacketField.all.map fun f => .eq (p.field f) (q.field f)) ++
    TcpFlag.all.map fun f => .eq (p.flag f) (q.flag f))

end Packet

/-! ## Matching addresses and numbers -/

def Subnet.holdsOf (s : Subnet) (x : Term .int) : Term .bool :=
  if s.length == 0 then .yes
  else .and [.ge x (.intLit s.first), .le x (.intLit s.last)]

def Term.isNumber (x : Term .int) : Document → Except Failure (Term .bool)
  | .null => .ok .no
  | d => do return .is x (← d.integer)

def Range.boundsOf (r : Range) (x : Term .int) : Except Failure (Term .bool) := do
  return .and [.ge x (.intLit (← r.start.integer)), .le x (.intLit (← r.stop.integer))]

/-- A number lies in a range; a range of one number is written as an equality. -/
def Range.holdsOf (r : Range) (x : Term .int) : Except Failure (Term .bool) :=
  if r.isSingle then x.isNumber r.start else r.boundsOf x

/-- A route of some length for the packet's destination matches a subnet and a range of lengths.  A route
without a length has none of the range. -/
def Packet.matchesPrefix (p : Packet) (length : Option (Term .int)) (s : Subnet) (lengths : Range) :
    Except Failure (Term .bool) := do
  let destination := s.holdsOf p.dstIp
  match length with
  | none => if lengths.isSingle then return .and [.no, destination] else throw .shape
  | some x =>
    if lengths.isSingle then return .and [← x.isNumber lengths.start, destination]
    else
      return .and [.ge x (.intLit (← lengths.start.integer)), .le x (.intLit (← lengths.stop.integer)),
        destination]

def Packet.isBoundFor (p : Packet) (subnets : List Subnet) : Term .bool :=
  .anyOf (subnets.map fun s => s.holdsOf p.dstIp)

def Packet.matchesFlags (p : Packet) (alternatives : List FlagMatch) : Term .bool :=
  .anyOf (alternatives.map fun m => .allOf (m.used.map fun u => .eq (p.flag u.1) (.boolLit u.2.truthy)))

end ControlPlane
