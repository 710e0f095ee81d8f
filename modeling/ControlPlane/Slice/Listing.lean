import ControlPlane.Config.Listing
import ControlPlane.Slice.Layout
import ControlPlane.Term.Printer
import ControlPlane.Topology.Drawing

/-!
# Topologies, plans and slices as documents
-/
namespace ControlPlane

def Term.listing {ty : Ty} (t : Term ty) : Document := .text t.written

def Document.byName (names : List Name) (f : Name → Document) : Document :=
  .object (names.map fun name => (name.key, f name))

/-! ## §1. Topologies -/

namespace Topology

def allEdges (t : Topology) : List Edge := t.names.flatMap t.edges

/-- The parts of a topology as documents.  Areas that mix numbers and names have no order. -/
def listing (t : Topology) : Except Failure (List (String × Document)) := do
  let areas ← t.names.mapM fun name => do
    return (name.key, Document.list (← Document.sorted (t.areas name)))
  return [
    ("edge_map", .byName t.names fun name => .ofTexts ((t.edges name).map Edge.shown)),
    ("static", .byName t.names fun name => .list ((sortNamed (·.1) (t.staticRoutes name)).map fun s =>
      .list [s.1.document, .list (s.2.map fun r => r.construct.listing)])),
    ("other_end", .list (t.allEdges.filterMap fun e => e.reverse?.map fun back =>
      .list [.text e.shown, .text back.shown])),
    ("neighbors", .byName t.names fun name => .list ((t.neighbors name).map Name.document)),
    ("bgp", .list (t.sessions.map fun s => .list [.text s.1.shown, .text s.2.address.dotted])),
    ("areas", .object areas),
    ("warnings", .ofTexts t.warnings)]

def drawingListing (t : Topology) : Except Failure (List (String × Document)) := do
  let g ← t.digraph
  let attr := fun (a : Attributes) (key : String) => (a.lookup key).getD .null
  return [("nodes", .list (g.nodes.map fun n =>
      .list [n.1.document, attr n.2 "vertex_type", attr n.2 "shape", attr n.2 "label"])),
   ("edges", .list (g.groupedEdges.map fun e =>
      .list [e.1.1.document, e.1.2.document, attr e.2 "edge_type", attr e.2 "label",
        .ofTexts ((t.drawnEdges e.1.1 e.1.2).map Edge.shown)]))]

end Topology

/-! ## §2. Plans -/

def Plan.listing (p : Plan) : Document :=
  let each := fun (f : RouterPlan → Document) => Document.object (p.routers.map fun r => (r.router.key, f r))
  let perProtocol := fun (f : ProtocolPlan → Document) => each fun r =>
    .list (r.protocols.map fun q => .list [.text q.protocol.label, f q])
  let named := fun (f : RouterPlan → Bool) =>
    Document.list ((p.routers.filter f).map fun r => r.router.document)
  .object [
    ("keep", .list ([p.keepLocalPref, p.keepAdminDist, p.keepMed, p.keepOspfType].map .bool)),
    ("protocols", each fun r => .ofTexts (r.protocolList.map Protocol.label)),
    ("need_router_id", perProtocol fun q => .bool q.needsRouterId),
    ("merge_export", perProtocol fun q => .bool q.mergesExport),
    ("merge_import_export", perProtocol fun q => .ofTexts (sortTexts (q.mergedImports.map Edge.shown))),
    ("aggregates", each fun r => .list (r.aggregates.map fun g => g.construct.listing)),
    ("suppressed", each fun r => .ofTexts (sortTexts (r.suppressed.map Subnet.written))),
    ("routers_with_router_id", named RouterPlan.needsRouterId),
    ("need_bgp_internal", named RouterPlan.needsBgpInternal),
    ("single_protocol", named RouterPlan.isSingle)]

/-! ## §3. Records -/

def Enumeration.listing {α : Type} (f : α → Document) (e : Enumeration α) : Document :=
  .list [.list (e.values.map f), .ofOption Term.listing e.bits]

def Revision.listing (v : Revision) : Document :=
  let r := v.record
  let field := fun (name : String) (d : Option Document) => (d.map fun d => (name, d)).toList
  let choice := fun (a : ChoiceAttribute) (d : Option Document) =>
    field a.key (match v.numbers.lookup a with
      | some t => some t.listing
      | none => d)
  .object ([("name", .text r.name), ("proto", .text r.protocol.label), ("used", .bool r.used),
    ("env", .bool r.isEnvironment), ("best", .bool r.isBest), ("overall", .bool r.isOverall),
    ("communities", .list (r.communities.map fun c =>
      .list [.text c.1.kind.label, .text c.1.value, c.2.listing]))] ++
    field "permitted" (r.permitted.map Term.listing) ++
    (r.numbers.map fun n => (n.1.key, n.2.listing)) ++
    field "bgp_internal" (r.bgpInternal.map Term.listing) ++
    choice .ospfArea (r.ospfArea.map (Enumeration.listing id)) ++
    choice .ospfType (r.ospfType.map (Enumeration.listing fun t => .text t.label)) ++
    choice .history (r.history.map (Enumeration.listing fun p => .text p.label)))

def Record.listing (r : Record) : Document := Revision.listing { record := r }

/-! ## §4. Slices -/

namespace Slice

/-- A lane in one direction: its text, what is at the other side, and the router id there. -/
def laneListing (s : Slice) (l : Lane) (d : Direction) : Except Failure Document := do
  let back : Direction := match d with
    | .incoming => .outgoing
    | .outgoing => .incoming
  return .list [l.router.document, .text l.protocol.label, .text (l.shown d),
    .ofOption (fun m => .text (m.shown back)) (s.opposite? l),
    .ofOption (fun r => .text r.name) (s.across? l d), (← s.peerId l l.protocol).getD .null]

def listing (s : Slice) : Except Failure (List (String × Document)) := do
  let perProtocol := fun (f : Name → Protocol → Document) => Document.byName s.topology.names fun r =>
    .list ((s.protocols r).map fun p => .list [.text p.label, f r p])
  let lanes ← s.lanes.flatMapM fun l => [Direction.incoming, .outgoing].mapM (s.laneListing l)
  let edges ← s.topology.names.mapM fun r => do
    return (r.key, Document.list (← (s.protocols r).mapM fun p => do
      return Document.list [.text p.label, .ofTexts (← s.redistributionTexts r p)]))
  return [("edges", .list lanes),
    ("exports", perProtocol fun r p => .ofTexts ((s.lanesOf r p).map fun l => l.outgoing.name)),
    ("environment", .list (s.environment.map fun e =>
      .list [.text (e.1.shown .incoming), .text e.2.name])),
    ("redistributed", perProtocol fun r p =>
      .ofTexts (sortTexts ((p :: s.sourcesOf r p).map Protocol.label))),
    ("redistribution_edges", .object edges)]

end Slice

end ControlPlane
