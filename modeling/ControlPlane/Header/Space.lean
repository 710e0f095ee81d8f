import ControlPlane.Address.Subnet
import ControlPlane.Protocol

/-!
# Header spaces

A header space describes a set of packets: one list per header field, an empty list standing for no
restriction.  Fields named `not…` exclude what they list.  Fields that the encoding cannot express are
kept apart as documents, in a fixed order, and only when something is listed in them.
-/
namespace ControlPlane

/-! ## §1. Parts of a header -/

/-- An inclusive range of numbers.  The ends are kept as they are written. -/
structure Range where
  start : Document
  stop : Document

def Range.isSingle (r : Range) : Bool := r.start.same r.stop

def Range.shown (r : Range) : String :=
  "SubRange(start=" ++ r.start.quoted ++ ", end=" ++ r.stop.quoted ++ ")"

inductive TcpFlag where
  | ack
  | cwr
  | ece
  | fin
  | psh
  | rst
  | syn
  | urg
  deriving DecidableEq, Repr

namespace TcpFlag

def all : List TcpFlag := [ack, cwr, ece, fin, psh, rst, syn, urg]

def label : TcpFlag → String
  | ack => "ack"
  | cwr => "cwr"
  | ece => "ece"
  | fin => "fin"
  | psh => "psh"
  | rst => "rst"
  | syn => "syn"
  | urg => "urg"

def title : TcpFlag → String
  | ack => "Ack"
  | cwr => "Cwr"
  | ece => "Ece"
  | fin => "Fin"
  | psh => "Psh"
  | rst => "Rst"
  | syn => "Syn"
  | urg => "Urg"

end TcpFlag

/-- The flags that a match looks at, with the value each must have, as it is written. -/
structure FlagMatch where
  used : List (TcpFlag × Document)

/-! ## §2. Header spaces -/

inductive UnmodeledField where
  | dscps
  | notDscps
  | ecns
  | notEcns
  | states
  | fragmentOffsets
  | notFragmentOffsets
  deriving DecidableEq, Repr

namespace UnmodeledField

def all : List UnmodeledField :=
  [dscps, notDscps, ecns, notEcns, states, fragmentOffsets, notFragmentOffsets]

def key : UnmodeledField → String
  | dscps => "dscps"
  | notDscps => "not_dscps"
  | ecns => "ecns"
  | notEcns => "not_ecns"
  | states => "states"
  | fragmentOffsets => "fragment_offsets"
  | notFragmentOffsets => "not_fragment_offsets"

end UnmodeledField

/-- A set of packets. -/
structure HeaderSpace where
  dstIps : List Subnet := []
  notDstIps : List Subnet := []
  srcIps : List Subnet := []
  notSrcIps : List Subnet := []
  srcOrDstIps : List Subnet := []
  dstPorts : List Range := []
  notDstPorts : List Range := []
  srcPorts : List Range := []
  notSrcPorts : List Range := []
  srcOrDstPorts : List Range := []
  icmpTypes : List Range := []
  notIcmpTypes : List Range := []
  icmpCodes : List Range := []
  notIcmpCodes : List Range := []
  ipProtocols : List Document := []
  notIpProtocols : List Document := []
  tcpFlags : List FlagMatch := []
  unmodeled : List (UnmodeledField × List Document) := []

namespace HeaderSpace

inductive FieldValues where
  | subnets (items : List Subnet)
  | ranges (items : List Range)
  | flags (items : List FlagMatch)
  | documents (items : List Document)

/-- Whether nothing is listed. -/
def FieldValues.isEmpty : FieldValues → Bool
  | subnets items => items.isEmpty
  | ranges items => items.isEmpty
  | flags items => items.isEmpty
  | documents items => items.isEmpty

def modeledFields (h : HeaderSpace) : List (String × FieldValues) :=
  [("dst_ips", .subnets h.dstIps), ("not_dst_ips", .subnets h.notDstIps),
   ("src_ips", .subnets h.srcIps), ("not_src_ips", .subnets h.notSrcIps),
   ("src_or_dst_ips", .subnets h.srcOrDstIps),
   ("dst_ports", .ranges h.dstPorts), ("not_dst_ports", .ranges h.notDstPorts),
   ("src_ports", .ranges h.srcPorts), ("not_src_ports", .ranges h.notSrcPorts),
   ("src_or_dst_ports", .ranges h.srcOrDstPorts),
   ("icmp_types", .ranges h.icmpTypes), ("not_icmp_types", .ranges h.notIcmpTypes),
   ("icmp_codes", .ranges h.icmpCodes), ("not_icmp_codes", .ranges h.notIcmpCodes),
   ("ip_protocols", .documents h.ipProtocols), ("not_ip_protocols", .documents h.notIpProtocols),
   ("tcp_flags", .flags h.tcpFlags)]

def usedFields (h : HeaderSpace) : List (String × FieldValues) :=
  (h.modeledFields ++ h.unmodeled.map fun e => (e.1.key, FieldValues.documents e.2)).filter
    fun e => !e.2.isEmpty

def FieldValues.shown? : FieldValues → Option String
  | subnets items =>
    some ("[" ++ ", ".intercalate (items.map fun s => "IPv4Network('" ++ s.written ++ "')") ++ "]")
  | ranges items => some ("[" ++ ", ".intercalate (items.map Range.shown) ++ "]")
  | documents items => some (Document.list items).quoted
  | flags _ => none

/-- The text of a header space: its used modeled fields.  There is none when flags are matched. -/
def shown? (h : HeaderSpace) : Option String := do
  let parts ← (h.modeledFields.filter fun e => !e.2.isEmpty).mapM fun e => do
    return e.1 ++ "=" ++ (← e.2.shown?)
  return "HeaderSpace(" ++ ", ".intercalate parts ++ ")"

/-- Whether a subnet can hold a destination of the space.  No listed destination stands for all. -/
def overlapsDst (h : HeaderSpace) (s : Subnet) : Bool :=
  h.dstIps.isEmpty || h.dstIps.any s.overlaps

def addDst (h : HeaderSpace) (s : Subnet) : HeaderSpace := { h with dstIps := h.dstIps ++ [s] }

end HeaderSpace

/-! ## §3. Access lists -/

structure AccessLine where
  space : HeaderSpace
  action : Action
  name : Document := .null
  /-- Whether the line matches what the space does not, as it is written. -/
  negate : Document := .bool false

structure AccessList where
  name : Document
  lines : List AccessLine

end ControlPlane
