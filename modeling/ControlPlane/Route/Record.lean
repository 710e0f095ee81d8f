import ControlPlane.Route.Enumeration
import ControlPlane.Slice.Frame

/-!
# Route records

A record is a candidate route: one variable per attribute.  Attributes that cannot affect the outcome have
no variable, and a record that stands for the one at the other side of a link has none at all.
-/
namespace ControlPlane

/-! ## §1. Attributes -/

/-- The numbers of a route. -/
inductive IntAttribute where
  | prefixLength
  | adminDist
  | localPref
  | metric
  | med
  | routerId
  deriving DecidableEq, Repr

namespace IntAttribute

def key : IntAttribute → String
  | prefixLength => "prefix_length"
  | adminDist => "admin_dist"
  | localPref => "local_pref"
  | metric => "metric"
  | med => "med"
  | routerId => "router_id"

def suffix : IntAttribute → String
  | prefixLength => "prefixLength"
  | adminDist => "adminDist"
  | localPref => "localPref"
  | metric => "metric"
  | med => "med"
  | routerId => "routerID"

def all : List IntAttribute := [prefixLength, adminDist, localPref, metric, med, routerId]

def resetOrder : List IntAttribute := [adminDist, med, localPref, metric, prefixLength, routerId]

end IntAttribute

/-- A candidate route. -/
structure Record where
  name : String
  protocol : Protocol
  /-- Whether the record has variables of its own. -/
  used : Bool := true
  permitted : Option (Term .bool) := none
  prefixLength : Option (Term .int) := none
  adminDist : Option (Term .int) := none
  localPref : Option (Term .int) := none
  metric : Option (Term .int) := none
  med : Option (Term .int) := none
  routerId : Option (Term .int) := none
  /-- The route was learned over iBGP. -/
  bgpInternal : Option (Term .bool) := none
  ospfArea : Option (Enumeration Document) := none
  ospfType : Option (Enumeration OspfType) := none
  history : Option (Enumeration Protocol) := none
  communities : List (Community × Term .bool) := []

namespace Record

def int? (r : Record) : IntAttribute → Option (Term .int)
  | .prefixLength => r.prefixLength
  | .adminDist => r.adminDist
  | .localPref => r.localPref
  | .metric => r.metric
  | .med => r.med
  | .routerId => r.routerId

def setInt (r : Record) (a : IntAttribute) (t : Term .int) : Record :=
  match a with
  | .prefixLength => { r with prefixLength := some t }
  | .adminDist => { r with adminDist := some t }
  | .localPref => { r with localPref := some t }
  | .metric => { r with metric := some t }
  | .med => { r with med := some t }
  | .routerId => { r with routerId := some t }

def permits (r : Record) : Term .bool := r.permitted.getD .no

def numbers (r : Record) : List (IntAttribute × Term .int) :=
  IntAttribute.resetOrder.filterMap fun a => (r.int? a).map fun t => (a, t)

def community? (r : Record) (c : Community) : Option (Term .bool) := r.communities.lookup c

/-- A community that is not carried is not added. -/
def setCommunity (r : Record) (c : Community) (t : Term .bool) : Record :=
  { r with communities := r.communities.map fun e => if e.1 == c then (e.1, t) else e }

/-- What a record is for is told by its name. -/
def isEnvironment (r : Record) : Bool := Text.occursIn "_ENV-" r.name

def isBest (r : Record) : Bool := Text.occursIn "_BEST" r.name

def isOverall (r : Record) : Bool := r.isBest && Text.occursIn "_OVERALL" r.name

def unused (name : String) (p : Protocol) : Record := { name, protocol := p, used := false }

def shown (r : Record) : String := "SymbolicRecord(" ++ r.name ++ ")"

/-! ## §2. New records -/

/-- Which attributes a record has besides `permitted` and the prefix length. -/
structure Shape where
  localPref : Bool := false
  adminDist : Bool := false
  metric : Bool := false
  med : Bool := false
  bgpInternal : Bool := false
  ospfType : Bool := false
  deriving DecidableEq, Repr

/-- The attributes that the plan keeps. -/
def shapeFor (plan : Plan) (r : RouterPlan) (p : Protocol) (overall : Bool) : Shape :=
  let hasOspf := r.protocolList.contains .ospf
  match p with
  | .best => {
      metric := true
      localPref := plan.keepLocalPref
      adminDist := (overall && 1 < r.protocols.length) || plan.keepAdminDist
      med := plan.keepMed
      bgpInternal := r.needsBgpInternal
      ospfType := hasOspf && plan.keepOspfType }
  | .bgp => {
      metric := true
      localPref := plan.keepLocalPref
      adminDist := plan.keepAdminDist
      med := plan.keepMed
      bgpInternal := r.needsBgpInternal }
  | .ospf => {
      metric := true
      localPref := plan.keepLocalPref
      adminDist := plan.keepAdminDist
      ospfType := plan.keepOspfType }
  | _ => { adminDist := plan.keepAdminDist }

def communitySuffix (c : Community) : String :=
  "_community_" ++ c.value ++ (if c.kind == .other then "_OTHER" else "")

def whenWanted {α : Type} (wanted : Bool) (b : Build α) : Build (Option α) :=
  if wanted then some <$> b else return none

/-- Declares a record for a router. -/
def create (f : Frame) (name : String) (router : Name) (p : Protocol)
    (history : Option (Enumeration Protocol) := none) : Build Record := do
  let plan ← match f.plan.router? router with
    | some r => pure r
    | none => throw (.missing router)
  let draft := unused name p
  let shape := shapeFor f.plan plan p draft.isOverall
  let int := fun (wanted : Bool) (a : IntAttribute) =>
    whenWanted wanted (Build.newInt (name ++ "_" ++ a.suffix))
  let permitted ← Build.newBool (name ++ "_permitted")
  let prefixLength ← Build.newInt (name ++ "_" ++ IntAttribute.prefixLength.suffix)
  let metric ← int shape.metric .metric
  let localPref ← int shape.localPref .localPref
  let adminDist ← int shape.adminDist .adminDist
  let med ← int shape.med .med
  let bgpInternal ← whenWanted shape.bgpInternal (Build.newBool (name ++ "_bgpInternal"))
  let ospfType ← whenWanted shape.ospfType (Enumeration.createOspfType (name ++ "_ospfType"))
  let ospfArea ← do
    if draft.isBest && plan.protocolList.contains .ospf && (p == .ospf || p == .best) then
      let areas ← Document.sorted (f.topology.areas router)
      whenWanted (1 < areas.length) (Enumeration.createOf (name ++ "_ospfArea") areas)
    else pure none
  let needsId := if p == .best then plan.needsRouterId
    else draft.isBest && ((plan.protocol? p).map ProtocolPlan.needsRouterId).getD false
  let routerId ← int needsId .routerId
  let communities ←
    if p == .bgp || (plan.protocolList.contains .bgp && p == .best) then
      f.communities.mapM fun c => do return (c, ← Build.newBool (name ++ communitySuffix c))
    else pure []
  return {
    name, protocol := p, permitted := some permitted, prefixLength := some prefixLength,
    adminDist, localPref, metric, med, routerId, bgpInternal, ospfArea, ospfType, history, communities }

end Record

/-! ## §3. Replacing attributes by name -/

/-- The attributes over a list of values. -/
inductive ChoiceAttribute where
  | ospfArea
  | ospfType
  | history
  deriving DecidableEq, Repr

namespace ChoiceAttribute

def all : List ChoiceAttribute := [ospfArea, ospfType, history]

def key : ChoiceAttribute → String
  | ospfArea => "ospf_area"
  | ospfType => "ospf_type"
  | history => "protocol_history"

end ChoiceAttribute

structure Revision where
  record : Record
  /-- The attributes over a list of values that were bound to a number instead. -/
  numbers : List (ChoiceAttribute × Term .int) := []

namespace Revision

def rebind (r : Revision) (key target : String) : Except Failure Revision :=
  match IntAttribute.all.find? fun a => a.key == key, ChoiceAttribute.all.find? fun a => a.key == key with
  | some a, _ => .ok { r with record := r.record.setInt a (.intVar target) }
  | none, some a => .ok { r with numbers := (a, .intVar target) :: r.numbers }
  | none, none => match key with
    | "permitted" => .ok { r with record := { r.record with permitted := some (.boolVar target) } }
    | "bgp_internal" => .ok { r with record := { r.record with bgpInternal := some (.boolVar target) } }
    | _ => .error .absent

def attributeNames : List String :=
  ["permitted", "prefix_length", "admin_dist", "local_pref", "metric", "med", "router_id",
   "bgp_internal", "ospf_area", "ospf_type", "protocol_history", "communities"]

/-- What identifies a record and cannot be bound. -/
def fixedNames : List String := ["self", "name", "proto", "is_used"]

/-- Attributes bound to other variables. -/
def rebindAll (r : Revision) (bindings : List (String × String)) : Except Failure Revision :=
  let names := bindings.map (·.1)
  let unknown := names.filter fun a => !attributeNames.contains a
  if names.any fixedNames.contains then .error .shape
  else if unknown.isEmpty then bindings.foldlM (fun r b => r.rebind b.1 b.2) r
  else .error (.names (.recordAttributes (sortTexts unknown)))

end Revision

end ControlPlane
