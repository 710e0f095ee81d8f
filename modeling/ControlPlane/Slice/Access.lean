import ControlPlane.Slice.Frame

/-!
# Filters on packets

Access lists and header spaces as terms over the packet.  An access list permits what its first matching
line accepts, and nothing when no line matches; lines that match on nothing are passed over.  A header space
requires every field that lists something.
-/
namespace ControlPlane

/-! ## §1. Access lists -/

namespace AccessLine

/-- Fields that lines must leave empty, in the order in which they are looked at. -/
def unsupportedFields (l : AccessLine) : List (String × Bool) :=
  let h := l.space
  [("not_dst_ips", h.notDstIps.isEmpty), ("not_src_ips", h.notSrcIps.isEmpty),
   ("src_or_dst_ips", h.srcOrDstIps.isEmpty), ("not_dst_ports", h.notDstPorts.isEmpty),
   ("not_src_ports", h.notSrcPorts.isEmpty), ("src_or_dst_ports", h.srcOrDstPorts.isEmpty),
   ("not_icmp_types", h.notIcmpTypes.isEmpty), ("not_icmp_codes", h.notIcmpCodes.isEmpty),
   ("not_ip_protocols", h.notIpProtocols.isEmpty)]

/-- The first field in use that lines cannot match on. -/
def unsupported? (l : AccessLine) : Option String :=
  match l.space.unmodeled.find? fun e => !e.2.isEmpty with
  | some e => some e.1.key
  | none => (l.unsupportedFields.find? fun e => !e.2).map (·.1)

/-- A condition on a field, if the field lists something. -/
def whenListed {α : Type} (items : List α) (condition : List α → Except Failure (Term .bool)) :
    Except Failure (List (Term .bool)) := do
  if items.isEmpty then return [] else return [← condition items]

/-- One of the protocols is that of the packet. -/
def inProtocols (p : Packet) (items : List Document) : Except Failure (Term .bool) := do
  return .anyKept (← items.mapM fun d => (p.field .ipProtocol).isNumber d)

/-- What a line matches on. -/
def conditions (p : Packet) (l : AccessLine) : Except Failure (List (Term .bool)) := do
  let h := l.space
  let subnets := fun (f : PacketField) (items : List Subnet) => do
    return Term.anyOf (items.map fun s => s.holdsOf (p.field f))
  let ranges := fun (f : PacketField) (items : List Range) => do
    return Term.anyKept (← items.mapM fun r => r.holdsOf (p.field f))
  return (← [
    whenListed h.dstIps (subnets .dstIp), whenListed h.srcIps (subnets .srcIp),
    whenListed h.dstPorts (ranges .dstPort), whenListed h.srcPorts (ranges .srcPort),
    whenListed h.tcpFlags (fun items => .ok (p.matchesFlags items)),
    whenListed h.icmpCodes (ranges .icmpCode), whenListed h.icmpTypes (ranges .icmpType),
    whenListed h.ipProtocols (inProtocols p)].mapM id).flatten

end AccessLine

namespace AccessList

/-- A line in front of those that are already written. -/
def addLine (p : Packet) (name : Document) (l : AccessLine) (acc : Term .bool) :
    Except Failure (Term .bool) := do
  match l.unsupported? with
  | some field => throw (.unsupported (.accessListField name.shown field))
  | none =>
    match ← l.conditions p with
    | [] => return acc
    | conditions =>
      let holds := Term.allOf conditions
      let holds := if l.negate.truthy then .not holds else holds
      return .ite holds (.boolLit (l.action == .accept)) acc

/-- What the first matching line says, or no. -/
def permits (p : Packet) (l : AccessList) : Except Failure (Term .bool) :=
  l.lines.foldrM (addLine p l.name) .no

end AccessList

/-- Without a list, everything is permitted. -/
def accessTerm (p : Packet) : Option AccessList → Except Failure (Term .bool)
  | none => .ok .yes
  | some l => l.permits p

/-! ## §2. Header spaces -/

namespace HeaderSpace

/-- One of the fields is in one of the subnets. -/
def inSubnets (p : Packet) (fields : List PacketField) (items : List Subnet) : Except Failure (Term .bool) :=
  .ok (.anyOf (fields.flatMap fun f => items.map fun s => s.holdsOf (p.field f)))

/-- One of the fields is in one of the ranges, with both bounds written out. -/
def inRanges (p : Packet) (fields : List PacketField) (items : List Range) : Except Failure (Term .bool) := do
  return .anyOf (← fields.flatMapM fun f => items.mapM fun r => r.boundsOf (p.field f))

/-- A condition that excludes what is listed. -/
def outside {α : Type} (condition : List α → Except Failure (Term .bool)) (items : List α) :
    Except Failure (Term .bool) := do
  return .not (← condition items)

/-- What a header space requires of the packet. -/
def constraints (h : HeaderSpace) (p : Packet) : Except Failure (List (Term .bool)) := do
  match h.unmodeled.find? fun e => !e.2.isEmpty with
  | some e => throw (.unsupported (.headerSpaceField e.1.key))
  | none => return (← [
    AccessLine.whenListed h.dstIps (inSubnets p [.dstIp]),
    AccessLine.whenListed h.notDstIps (outside (inSubnets p [.dstIp])),
    AccessLine.whenListed h.srcIps (inSubnets p [.srcIp]),
    AccessLine.whenListed h.notSrcIps (outside (inSubnets p [.srcIp])),
    AccessLine.whenListed h.srcOrDstIps (inSubnets p [.dstIp, .srcIp]),
    AccessLine.whenListed h.dstPorts (inRanges p [.dstPort]),
    AccessLine.whenListed h.notDstPorts (outside (inRanges p [.dstPort])),
    AccessLine.whenListed h.srcPorts (inRanges p [.srcPort]),
    AccessLine.whenListed h.notSrcPorts (outside (inRanges p [.srcPort])),
    AccessLine.whenListed h.srcOrDstPorts (inRanges p [.dstPort, .srcPort]),
    AccessLine.whenListed h.icmpTypes (inRanges p [.icmpType]),
    AccessLine.whenListed h.notIcmpTypes (outside (inRanges p [.icmpType])),
    AccessLine.whenListed h.icmpCodes (inRanges p [.icmpCode]),
    AccessLine.whenListed h.notIcmpCodes (outside (inRanges p [.icmpCode])),
    AccessLine.whenListed h.ipProtocols (AccessLine.inProtocols p),
    AccessLine.whenListed h.notIpProtocols (outside (AccessLine.inProtocols p)),
    AccessLine.whenListed h.tcpFlags (fun items => .ok (p.matchesFlags items))].mapM id).flatten

end HeaderSpace

end ControlPlane
