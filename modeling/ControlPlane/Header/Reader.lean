import ControlPlane.Header.Space
import ControlPlane.Document.Decode

/-!
# Reading header spaces and access lists

Fields are first taken from the description in the order written, where TCP, UDP and ICMP fields become
ranges and flag fields become flag matches.  The header space is then built from them: every field must
list something that can be iterated, names outside of the known fields are refused, and last the
addresses are read.
-/
namespace ControlPlane

open Document

/-! ## §1. Parts -/

/-- A range given by its ends; without a second end both are the first one. -/
def Range.ofParts : List Document → Except Failure Range
  | [start] => .ok ⟨start, start⟩
  | [start, .null] => .ok ⟨start, start⟩
  | [start, stop] => .ok ⟨start, stop⟩
  | _ => .error .shape

def Range.listOfDocument (d : Document) : Except Failure (List Range) :=
  if !d.truthy then .ok []
  else do
    (← d.elements).mapM fun item => match item with
      | .list parts => Range.ofParts parts
      | single => Range.ofParts [single]

/-- A name that stands for a thing itself, and so names no field of it. -/
def reservedField : String := "self"

/-- A flag match: a flag is looked at when `use_` and its name is set. -/
def FlagMatch.ofDocument (d : Document) : Except Failure FlagMatch :=
  match d with
  | .object entries =>
    let known := TcpFlag.all.flatMap fun f => [f.label, "use_" ++ f.label]
    let unknown := (entries.map (·.1)).filter fun n => !known.contains n
    if unknown.contains reservedField then .error .shape
    else if unknown.isEmpty then
      let value := fun name => (entries.lookup name).getD (.bool false)
      .ok ⟨(TcpFlag.all.filter fun f => (value ("use_" ++ f.label)).truthy).map fun f => (f, value f.label)⟩
    else .error (.names (.tcpFlags (unknown.mergeSort fun a b => decide (a ≤ b))))
  | _ => .error .shape

/-! ## §2. Fields -/

inductive RawField where
  | ranges (items : List Range)
  | flags (items : List FlagMatch)
  | document (value : Document)

namespace HeaderSpace

def isRangeField (name : String) : Bool :=
  name.endsWith "_ports" || name.startsWith "icmp_" || name.startsWith "not_icmp_"

def modeledNames : List String := (modeledFields {}).map (·.1)

/-- Takes the fields of a description in the order written, leaving out what belongs to a line rather
than to its header space. -/
def takeFields : List (String × Document) → Except Failure (List (String × RawField))
  | [] => .ok []
  | (name, value) :: rest =>
    if name == "action" || name == "name" || name == "negate" then takeFields rest
    else do
      let raw ←
        if isRangeField name then RawField.ranges <$> Range.listOfDocument value
        else if name == "tcp_flags" then
          RawField.flags <$> do (← value.elements).mapM FlagMatch.ofDocument
        else pure (.document value)
      return (name, raw) :: (← takeFields rest)

def listed (fields : List (String × RawField)) (name : String) : Except Failure (List Document) :=
  match fields.lookup name with
  | some (.document d) => d.elements
  | _ => .ok []

def rangesOf (fields : List (String × RawField)) (name : String) : List Range :=
  match fields.lookup name with
  | some (.ranges items) => items
  | _ => []

def flagsOf (fields : List (String × RawField)) (name : String) : List FlagMatch :=
  match fields.lookup name with
  | some (.flags items) => items
  | _ => []

def ofFields (fields : List (String × RawField)) : Except Failure HeaderSpace := do
  let known := modeledNames ++ UnmodeledField.all.map UnmodeledField.key
  if fields.any fun f => f.1 == reservedField then throw .shape
  let lists ← known.mapM fun name => do return (name, ← listed fields name)
  let get := fun name => (lists.lookup name).getD []
  let unknown := (fields.map (·.1)).filter fun n => !known.contains n
  if !unknown.isEmpty then
    throw (.names (.headerSpaceFields (unknown.mergeSort fun a b => decide (a ≤ b))))
  let subnets := fun name => (get name).mapM Subnet.ofDocument
  let dstIps ← subnets "dst_ips"
  let notDstIps ← subnets "not_dst_ips"
  let srcIps ← subnets "src_ips"
  let notSrcIps ← subnets "not_src_ips"
  let srcOrDstIps ← subnets "src_or_dst_ips"
  return {
    dstIps, notDstIps, srcIps, notSrcIps, srcOrDstIps
    ipProtocols := get "ip_protocols"
    notIpProtocols := get "not_ip_protocols"
    dstPorts := rangesOf fields "dst_ports"
    notDstPorts := rangesOf fields "not_dst_ports"
    srcPorts := rangesOf fields "src_ports"
    notSrcPorts := rangesOf fields "not_src_ports"
    srcOrDstPorts := rangesOf fields "src_or_dst_ports"
    icmpTypes := rangesOf fields "icmp_types"
    notIcmpTypes := rangesOf fields "not_icmp_types"
    icmpCodes := rangesOf fields "icmp_codes"
    notIcmpCodes := rangesOf fields "not_icmp_codes"
    tcpFlags := flagsOf fields "tcp_flags"
    unmodeled := (UnmodeledField.all.map fun f => (f, get f.key)).filter fun e => !e.2.isEmpty }

/-- The header space that a description gives; an empty description restricts nothing. -/
def ofDocument (d : Document) : Except Failure HeaderSpace :=
  match d with
  | .object entries => do ofFields (← takeFields entries)
  | d => if d.truthy then .error .absent else .ok {}

end HeaderSpace

/-! ## §3. Access lists -/

def Action.ofDocument (d : Document) : Except Failure Action :=
  match d with
  | .text s => match Action.ofKey? s with
    | some a => .ok a
    | none => .error (.unsupported (.unknownMember "LineAction" d.shown))
  | d => .error (.unsupported (.unknownMember "LineAction" d.shown))

def AccessLine.ofDocument (d : Document) : Except Failure AccessLine := do
  let action ← Action.ofDocument (← d.field "action")
  let name ← d.fieldD "name"
  let negate ← d.fieldD "negate" (.bool false)
  let space ← HeaderSpace.ofDocument d
  return { space, action, name, negate }

def AccessList.ofDocument (d : Document) : Except Failure AccessList := do
  let lines ← (← (← d.field "lines").elements).mapM AccessLine.ofDocument
  return { name := ← d.field "name", lines }

end ControlPlane
