import ControlPlane.Proofs.Slice.State
import ControlPlane.Proofs.Topology.Samples

/-!
# Failed links

A failed link carries no route, with one exception: an import that uses the record at the other side takes
over a network that the other side originates, as originating does not look at the link.
`Encoding.failedLink_carries_iff` says that this is the only one.
-/
namespace ControlPlane

open List Slice Term Edge Bool

variable {e : Edge} {name : Name} {p : Protocol} {r : Router} {t : Topology} {v : Valuation} {failures : Document}
  {f : Frame} {rs : List Redistribution} {basis : Plan.Basis} {m l : Lane}

/-! ## §1. Links that cannot fail -/

theorem Document.integer_nonpos {d : Document} {n : Int} (hn : d.integer = .ok n)
    (hpositive : d.isPositive = .ok false) : n ≤ 0 := by
  unfold Document.isPositive at hpositive
  cases d with
  | int m =>
    cases hn
    simp [Document.number?, Document.numberLe, Document.scaled] at hpositive
    exact hpositive
  | bool b =>
    cases hn
    cases b with
    | true => cases hpositive
    | false => exact Int.le_refl 0
  | _ => simp [Document.integer, Document.number?] at hn hpositive

theorem Term.le_sum {ts : List (Term .int)} (h : ∀ t ∈ ts, 0 ≤ t.eval v) {t : Term .int} (ht : t ∈ ts) :
    t.eval v ≤ (Term.sum ts).eval v := by
  show t.eval v ≤ (evalInts v ts).foldr Int.add 0
  rw [evalInts_eq]
  induction ts with
  | nil => cases ht
  | cons a rest ih =>
    obtain ⟨ha, hrest⟩ := forall_mem_cons.1 h
    have hnonneg : 0 ≤ (rest.map (Term.eval v)).foldr Int.add 0 := by
      clear ih ht
      induction rest with
      | nil => exact Int.le_refl 0
      | cons b rest ih =>
        obtain ⟨hb, hrest⟩ := forall_mem_cons.1 hrest
        have := ih (forall_mem_cons.2 ⟨ha, hrest⟩) hrest
        exact Int.add_nonneg hb this
    rcases mem_cons.1 ht with rfl | ht
    · exact Int.le_add_of_nonneg_right hnonneg
    · exact Int.le_trans (ih hrest ht) (Int.le_add_of_nonneg_left ha)

namespace Slice

variable {s : Slice}

theorem IsState.failureTerms_nonneg (h : s.IsState failures v) : ∀ t ∈ s.topology.failureTerms s.tag, 0 ≤ t.eval v := by
  intro t ht
  obtain ⟨c, hc, rfl⟩ := mem_map.1 ht
  exact (h.links c (mem_sortWith.1 hc)).1

/-- Either no link fails, or the number of those that do is bounded. -/
theorem failures_of_constraints {ts : List (Term .int)} {cs : List (Term .bool)}
    (hcs : failureConstraints failures ts = .ok cs) (hall : ∀ c ∈ cs, c.eval v) :
    (∀ t ∈ ts, t.eval v = 0) ∨ ∃ n, failures.integer = .ok n ∧ (Term.sum ts).eval v ≤ n := by
  unfold failureConstraints at hcs
  split at hcs
  next hempty => simp [isEmpty_iff.1 hempty]
  next =>
    split at hcs
    next =>
      cases hcs
      exact .inl fun t ht => (eval_is v _ 0).1 (hall _ (mem_map_of_mem ht))
    next =>
      obtain ⟨n, hn, hcs⟩ := bind_eq_ok.1 hcs
      cases hcs
      exact .inr ⟨n, hn, (holds_le v).1 (hall _ (mem_singleton_self _))⟩

/-- Where no link may fail, none has. -/
theorem IsState.not_failed (h : s.IsState failures v) (hpositive : failures.isPositive = .ok false)
    (hbounded : ∃ cs, failureConstraints failures (s.topology.failureTerms s.tag) = .ok cs)
    (he : e ∈ s.topology.edges name) : v.int (Frame.failureName s.tag e) = 0 := by
  obtain ⟨site, hsite, -, hmem⟩ := Topology.site_of_edge he
  obtain ⟨d, hd, hkey⟩ := Frame.mem_links (mem_flatMap.2 ⟨site, hsite, hmem⟩)
  rw [← @Frame.failureName_of_key s.tag d e hkey]
  have hterm : Term.intVar (Frame.failureName s.tag d) ∈ s.topology.failureTerms s.tag :=
    mem_map.2 ⟨d, mem_sortWith.2 hd, rfl⟩
  obtain ⟨cs, hcs⟩ := hbounded
  rcases failures_of_constraints hcs (h.failures cs hcs) with hzero | ⟨n, hn, hsum⟩
  · exact hzero _ hterm
  · -- the sum is at most a number that is not above zero
    have hle := Int.le_trans (le_sum h.failureTerms_nonneg hterm) hsum
    exact Int.le_antisymm (Int.le_trans hle (Document.integer_nonpos hn hpositive)) (h.failureTerms_nonneg _ hterm)

end Slice

/-! ## §2. Lanes and their routers -/

namespace Frame

theorem router_of_name (h : name ∈ t.names) : ∃ r, t.router name = .ok r := by
  unfold Topology.router Topology.site?
  cases hsite : t.sites.find? fun s => s.router.name == name with
  | some site => exact ⟨site.router, rfl⟩
  | none =>
    obtain ⟨site, hmem, rfl⟩ := mem_map.1 h
    exact absurd (beq_self_eq_true _) (find?_eq_none.1 hsite site hmem)

theorem lane_owner (hplan : f.IsDecided basis) (hm : m ∈ f.allLanes) :
    ∃ r q, f.topology.router m.router = .ok r ∧ m.protocol ∈ f.protocols m.router ∧
      m = f.laneOf m.router q m.edge ∧ ∃ r' ∈ f.topology.routers, r'.name = m.router ∧
        Plan.DecidesProtocol basis.switches f.topology f.space basis.failures basis.encoded r' m.protocol q := by
  obtain ⟨d, hd, q, hq, e, he, rfl⟩ := mem_allLanes.1 hm
  obtain ⟨r', hr', hdecides⟩ := forall₂_mem_right hplan.routers hd
  have hname : d.router ∈ f.topology.names := by
    obtain ⟨site, hsite, rfl⟩ := mem_map.1 hr'
    exact hdecides.router ▸ mem_map_of_mem (f := fun s : Site => s.router.name) hsite
  obtain ⟨r, hr⟩ := router_of_name hname
  obtain ⟨p, -, hp⟩ := forall₂_mem_right hdecides.protocols hq
  obtain rfl := hp.protocol
  obtain ⟨d', hd', hdecides'⟩ := hplan.router? hr
  refine ⟨r, q, hr, ?_, rfl, r', hr', hdecides.router.symm, hp⟩
  -- all routers of one name encode the same protocols
  have hlist : d'.protocolList = d.protocolList := by
    rw [← hdecides'.protocolList, ← hdecides.protocolList, (mem_routers hr).2, hdecides.router]
  show q.protocol ∈ f.plan.protocolsOf d.router
  rw [Plan.protocolsOf, hd', Option.map_some, hlist]
  exact mem_map_of_mem hq

theorem lane_ne_best (hplan : f.IsDecided basis) (hm : m ∈ f.allLanes) :
    m.protocol ≠ .best := by
  obtain ⟨-, q, -, -, -, r', -, -, hq⟩ := lane_owner hplan hm
  exact hq.ne_best

theorem mergesExport_eq (hplan : f.IsDecided basis)
    (hr : f.topology.router name = .ok r) (hp : p ∈ f.protocols name) :
    Plan.canMergeExport basis.switches f.topology name p basis.failures = .ok ((f.slice rs).mergesExport name p) := by
  obtain ⟨q, hq, hdecides⟩ := decides_protocol hplan hr hp
  obtain ⟨d, hd, -⟩ := hplan.router? hr
  rw [planFor_eq hd] at hq
  have hmerges : (f.slice rs).mergesExport name p = q.mergesExport := by
    show (((f.plan.router? name).bind fun r => r.protocol? p).map ProtocolPlan.mergesExport).getD false = _
    rw [hd, Option.bind_some, hq]
    rfl
  rw [hmerges, ← hdecides.mergesExport, (mem_routers hr).2]

theorem mergesExport_of_lane (rs : List Redistribution)
    (hplan : f.IsDecided basis) (hm : m ∈ f.allLanes) :
    Plan.canMergeExport basis.switches f.topology m.router m.protocol basis.failures =
      .ok ((f.slice rs).mergesExport m.router m.protocol) := by
  obtain ⟨r, -, hr, hp, -⟩ := lane_owner hplan hm
  exact mergesExport_eq hplan hr hp

/-- A lane has the record that all exports of its protocol share, or one of its own. -/
theorem outgoing_eq (rs : List Redistribution) (hplan : f.IsDecided basis) (hm : m ∈ f.allLanes) :
    m.outgoing = if (f.slice rs).mergesExport m.router m.protocol then f.sharedExport m.router m.protocol
      else .planned f (f.recordName m.router m.protocol.label m.edge.interface.shown "EXPORT") m.router m.protocol := by
  obtain ⟨-, q, -, -, hlane, r', -, hname, hq⟩ := lane_owner hplan hm
  have hcan := mergesExport_of_lane rs hplan hm
  rw [← hname, hq.mergesExport, hname] at hcan
  rw [← Except.ok.inj hcan, ← hq.protocol]
  exact congrArg Lane.outgoing hlane

end Frame

theorem Plan.isPositive_of_canMergeExport {s : Switches} (h : Plan.canMergeExport s t name p failures = .ok true)
    (hp : p.isLocal = false) : failures.isPositive = .ok false := by
  unfold Plan.canMergeExport at h
  split at h
  next => cases h
  next =>
    rw [hp] at h
    obtain ⟨r, -, h⟩ := bind_eq_ok.1 h
    obtain ⟨positive, hpositive, h⟩ := bind_eq_ok.1 h
    cases positive with
    | false => exact hpositive
    | true => exact absurd h (by simp [pure, Except.pure])

structure Plan.IsMergedImport (s : Switches) (t : Topology) (space : HeaderSpace) (r : Router) (p : Protocol)
    (e : Edge) : Prop where
  switch : s.importExportMerge
  exchanges : p.isLocal = false
  silent : r.originatesInto p space = .ok false
  /-- It would change nothing. -/
  identity : ∃ d ∈ t.edges r.name, d.id = e.id ∧ Plan.isIdentityImport t d p

theorem Plan.isMergedImport {s : Switches} {space : HeaderSpace} {es : List Edge}
    (h : Plan.computeMergedImports s t encoded r p space = .ok es) (he : es.contains e) :
    Plan.IsMergedImport s t space r p e := by
  unfold Plan.computeMergedImports at h
  split at h
  next hon =>
    obtain ⟨hswitch, hexchanges⟩ := and_eq_true_iff.1 hon
    obtain ⟨originates, horiginates, h⟩ := bind_eq_ok.1 h
    cases originates with
    | true =>
      cases h
      cases he
    | false =>
      cases h
      obtain ⟨d, hd, hbeq⟩ := contains_iff_exists_mem_beq.1 he
      obtain ⟨hmem, hboth⟩ := mem_filter.1 hd
      exact ⟨hswitch, (not_eq_true' _).mp hexchanges, horiginates, d, hmem, (beq_iff.1 hbeq).symm,
        (and_eq_true_iff.1 hboth).2⟩
  next =>
    cases h
    cases he

/-! ## §3. Failed links -/

namespace Slice

variable (s : Slice) (v : Valuation)

structure HasFailed (e : Edge) : Prop where
  near : v.int (Frame.failureName s.tag e) = 1
  far : ∀ back, e.reverse? = some back → v.int (Frame.failureName s.tag back) = 1

def TakesOrigin (l : Lane) : Prop :=
  l.incoming.used = false ∧ ∃ m r subnets, s.opposite? l = some m ∧ s.topology.router m.router = .ok r ∧
    r.originated l.protocol = .ok subnets ∧ Topology.isActive l.protocol m.edge.start ∧
    ∃ n ∈ subnets, (n.holdsOf s.packet.dstIp).eval v

variable {s v} {best : Record} {subnets : List Subnet}

theorem failureName_of_beq {tag : String} {d : Edge} (h : (d == e)) :
    Frame.failureName tag d = Frame.failureName tag e := by
  have hid := beq_iff.1 h
  have hpeer : d.peer? = e.peer? := by
    have hfar := congrArg (fun i : EdgeId => i.far.map Endpoint.router) hid
    simpa [Edge.id, Edge.peer?, Function.comp_def] using hfar
  unfold Frame.failureName
  rw [hpeer, router_of_beq h, interface_of_beq h]

theorem notFailed_of_failed (h : v.int (Frame.failureName s.tag e) = 1) : ¬ (s.notFailed e).eval v := by
  intro hup
  have hzero : v.int (Frame.failureName s.tag e) = 0 := (eval_is v _ 0).1 hup
  omega

theorem import_of_failed (hlink : ¬ (s.notFailed l.edge).eval v) (hused : l.incoming.used)
    (h : s.ImportHolds r l v) : l.incoming.permits.eval v = false := by
  have h := h hused
  split at h
  · -- a connected network needs its link
    unfold ConnectedHolds at h
    split at h
    · exact h
    · exact h.2 fun hreaches => hlink hreaches.link
  · -- so does a static route
    exact h.rests fun _ _ hreaches => hlink hreaches.link
  · split at h
    · exact h
    · obtain ⟨subnets, policy, -, -, -, hnot⟩ := h
      exact hnot fun hreceives => hlink hreceives.link

theorem export_of_failed (hlink : ¬ (s.notFailed m.edge).eval v) (hlocal : m.protocol.isLocal = false)
    (h : s.ExportHolds r best subnets m v) : m.outgoing.permits.eval v ↔
      Topology.isActive m.protocol m.edge.start ∧ ∃ n ∈ subnets, (n.holdsOf s.packet.dstIp).eval v := by
  unfold ExportHolds at h
  rw [hlocal, Bool.false_or] at h
  cases hactive : Topology.isActive m.protocol m.edge.start with
  | false =>
    rw [hactive, Bool.not_false, if_pos rfl] at h
    simp [h]
  | true =>
    rw [hactive] at h
    cases hlast : (s.matching subnets v).getLast? with
    | none =>
      rw [hlast] at h
      obtain ⟨policy, -, -, hnot⟩ := h
      rw [hnot fun hsends => hlink hsends.link]
      have hnil := getLast?_eq_none_iff.1 hlast
      refine ⟨nofun, ?_⟩
      rintro ⟨-, n, hn, hnv⟩
      have hmem : n ∈ s.matching subnets v := mem_filter.2 ⟨hn, hnv⟩
      rw [hnil] at hmem
      cases hmem
    | some n =>
      rw [hlast] at h
      have hmem := mem_filter.1 (mem_of_getLast? hlast)
      exact ⟨fun _ => ⟨rfl, n, hmem.1, hmem.2⟩, fun _ => h.permits⟩

end Slice

namespace Frame

theorem mem_lanesOf : l ∈ (f.slice rs).lanesOf name p ↔
    l ∈ f.allLanes ∧ l.router = name ∧ l.protocol = p := Slice.mem_lanesOf

variable (hplan : f.IsDecided basis)
include hplan

/-- Every protocol has a lane over every edge that it uses. -/
theorem lane_of_edge (hr : f.topology.router name = .ok r) (hp : p ∈ f.protocols name)
    (he : e ∈ f.topology.edges name) (hused : f.topology.isEdgeUsed p e) :
    ∃ l ∈ (f.slice rs).lanesOf name p, l.edge = e := by
  obtain ⟨d, hd, hdecides⟩ := hplan.router? hr
  obtain ⟨q, hq, hprotocol⟩ := decides_protocol hplan hr hp
  rw [planFor_eq hd] at hq
  obtain rfl := hprotocol.protocol
  obtain rfl : d.router = name := hdecides.router.trans (mem_routers hr).2
  refine ⟨f.laneOf d.router q e, mem_lanesOf.2 ⟨?_, rfl, rfl⟩, rfl⟩
  exact mem_allLanes.2 ⟨d, mem_of_find?_eq_some hd, q, mem_of_find?_eq_some hq, e, mem_filter.2 ⟨he, hused⟩, rfl⟩

theorem lanesHold_of_mem (h : (f.slice rs).TransfersHold v) (hl : l ∈ f.allLanes) :
    ∃ r, f.topology.router l.router = .ok r ∧ l.protocol ∈ f.protocols l.router ∧
      l ∈ (f.slice rs).lanesOf r.name l.protocol ∧ (f.slice rs).LanesHold r l.protocol v := by
  obtain ⟨r, -, hr, hp, -, -⟩ := lane_owner hplan hl
  obtain ⟨hmem, hname⟩ := mem_routers hr
  refine ⟨r, hr, hp, mem_filter.2 ⟨hl, by simp [hname]⟩, h r hmem l.protocol ?_⟩
  rw [hname]
  exact hp

theorem isMergedImport_of_unused (hl : l ∈ f.allLanes) (hused : l.incoming.used = false) :
    ∃ r ∈ f.topology.routers, r.name = l.router ∧
      Plan.IsMergedImport basis.switches f.topology f.space r l.protocol l.edge := by
  obtain ⟨-, q, -, -, hlane, r, hr, hname, hq⟩ := lane_owner hplan hl
  rw [hlane] at hused
  exact ⟨r, hr, hname, Plan.isMergedImport hq.mergedImports (importRecord_of_unused hused).1⟩

/-- A lane whose import uses the record at the other side is of a protocol that exchanges routes. -/
theorem isLocal_of_unused (hl : l ∈ f.allLanes) (hused : l.incoming.used = false) : l.protocol.isLocal = false := by
  obtain ⟨_, -, -, hmerged⟩ := isMergedImport_of_unused hplan hl hused
  exact hmerged.exchanges

theorem used_of_isLocal (hl : l ∈ f.allLanes) (hlocal : l.protocol.isLocal) : l.incoming.used := by
  by_contra hunused
  rw [isLocal_of_unused hplan hl (eq_false_iff.2 hunused)] at hlocal
  exact false_ne_true hlocal

/-- **What is received over a failed link** is a network that the other side originates. -/
theorem permits_of_failed (hbounded : ∃ cs, failureConstraints basis.failures (f.topology.failureTerms f.tag) = .ok cs)
    (h : (f.slice rs).IsState basis.failures v) (hl : l ∈ f.allLanes) (hfailed : (f.slice rs).HasFailed v l.edge) :
    ∃ x, (f.slice rs).incoming l = .ok x ∧
      (x.permits.eval v ↔ (f.slice rs).TakesOrigin v l) := by
  obtain ⟨r, hr, hp, hmem, -, -, -, -, himports, -⟩ := lanesHold_of_mem hplan h.transfers hl
  obtain ⟨hrouter, hname⟩ := mem_routers hr
  obtain ⟨-, -, htotal, -⟩ := h.selection.perProtocol r hrouter l.protocol (hname ▸ hp)
  obtain ⟨x, hx⟩ := htotal l hmem
  refine ⟨x, hx, ?_⟩
  rcases incoming_cases hx with ⟨hused, rfl⟩ | ⟨hused, m, hm, rfl⟩
  · have hlink := notFailed_of_failed (s := f.slice rs) hfailed.near
    rw [import_of_failed hlink hused (himports l hmem)]
    exact ⟨nofun, fun h => absurd (hused.symm.trans h.1) (by simp)⟩
  · -- the record is the one that the other side sends
    obtain ⟨hmlane, hmp, back, hback, -, hmedge⟩ := mem_opposite hm
    have hlocal : m.protocol.isLocal = false := hmp ▸ isLocal_of_unused hplan hl hused
    have hmlink : ¬ ((f.slice rs).notFailed m.edge).eval v := by
      refine notFailed_of_failed (s := f.slice rs) ?_
      rw [failureName_of_beq hmedge]
      exact hfailed.far back hback
    obtain ⟨r', hr', -, hmem', subnets', best', hsubnets', -, -, hexports⟩ := lanesHold_of_mem hplan h.transfers hmlane
    -- exports only share a record where no link fails
    have hsingle : (f.slice rs).mergesExport r'.name m.protocol = false := by
      rw [(mem_routers hr').2]
      by_contra hmerges
      have hcan := mergesExport_of_lane rs hplan hmlane
      rw [not_eq_false _ |>.mp hmerges] at hcan
      have hpositive := Plan.isPositive_of_canMergeExport hcan hlocal
      exact hmlink ((eval_is v _ 0).2 (h.not_failed hpositive hbounded (lane_edge hmlane)))
    have hholds := (exportsHold_iff.1 hexports).1 hsingle m hmem'
    refine (export_of_failed hmlink hlocal hholds).trans ⟨?_, ?_⟩
    · rintro ⟨hactive, hn⟩
      exact ⟨hused, m, r', subnets', hm, hr', hmp ▸ hsubnets', hmp ▸ hactive, hn⟩
    · rintro ⟨-, m', r'', subnets'', hm', hr'', hsubnets'', hactive, hn⟩
      cases hm.symm.trans hm'
      cases hr'.symm.trans hr''
      rw [← hmp] at hsubnets'' hactive
      cases hsubnets'.symm.trans hsubnets''
      exact ⟨hactive, hn⟩

end Frame

/-- **What a failed link carries.**  Over a failed link a route is received exactly where the import uses the record
at the other side and the other side originates a network of the destination.  Where no such route is received, the
control plane does not forward over the link. -/
theorem Encoding.failedLink_carries_iff {n : Network} {req : Request} {e : Encoding} {v : Valuation} {name : Name}
    {d : Edge} (he : (Encoding.encode n req).result = .ok e) (hv : v.Satisfies e.ledger)
    (hd : d ∈ e.slice.topology.edges name) (hfailed : e.slice.HasFailed v d) :
    (∀ l ∈ e.slice.lanes, l.edge.id = d.id → ∃ x, e.slice.incoming l = .ok x ∧
      (x.permits.eval v ↔ e.slice.TakesOrigin v l)) ∧
    ((e.slice.controlForwarding d).eval v →
      ∃ l ∈ e.slice.lanes, l.edge.id = d.id ∧ e.slice.TakesOrigin v l) := by
  obtain ⟨f, rs, hof⟩ := Encoding.encode_isOf he
  obtain ⟨encoded, hplan⟩ := Frame.isDecided hof.plan
  have hstate := hof.sound v hv
  rw [hof.slice] at hd hfailed hstate ⊢
  -- what is said about lanes
  have hlanes : ∀ l ∈ f.allLanes, l.edge.id = d.id → ∃ x, (f.slice rs).incoming l = .ok x ∧
      (x.permits.eval v ↔ (f.slice rs).TakesOrigin v l) := by
    intro l hl hid
    refine Frame.permits_of_failed hplan hof.bounded hstate hl ⟨?_, fun back hback => ?_⟩
    · rw [failureName_of_beq (beq_iff.2 hid)]
      exact hfailed.near
    · obtain ⟨back', hback', hsame⟩ := reverse_of_id hid hback
      rw [failureName_of_beq (beq_iff.2 hsame)]
      exact hfailed.far back' hback'
  refine ⟨hlanes, fun hforwards => ?_⟩
  -- an edge is only chosen for a route that is received
  obtain ⟨site, hsite, hname, hedge⟩ := Topology.site_of_edge hd
  have hrouter : site.router ∈ f.topology.routers := List.mem_map_of_mem hsite
  obtain ⟨p, hp, l, hl, hbeq, hused⟩ := (hstate.selection.control site.router hrouter d (hname ▸ hd)).1 hforwards
  have hmem := (List.mem_filter.1 hl).1
  have hid := beq_iff.1 hbeq
  obtain ⟨best, x, -, hx, hiff⟩ := hstate.selection.choices site.router hrouter p hp l hl
  obtain ⟨x', hx', htakes⟩ := hlanes l hmem hid
  cases hx.symm.trans hx'
  exact ⟨l, hmem, hid, htakes.1 (hiff.1 hused.1).1⟩

namespace Encoding

/-- Two routers that run OSPF; `B` has a network of its own. -/
def cutNetwork : Network where
  routers := [
    { name := .text "A", interfaces := [.ospfPort "i" (.ofOctets 10 0 0 1 30)], ospf := some {} },
    { name := .text "B"
      interfaces := [.ospfPort "i" (.ofOctets 10 0 0 2 30), .ospfPort "lan" (.ofOctets 10 9 0 1 24)]
      ospf := some {} }]
  links := [.cable "A" "i" "B" "i"]

/-- Packets to the network of `B`, with a link that may fail. -/
def cutRequest : Request where
  space := { dstIps := [.ofOctets 10 9 0 0 24] }
  failures := .int 1

/-- The state of `cutNetwork` in which the link between the routers has failed. -/
def cutState : Valuation where
  bool name :=
    ["control-forwarding_A_i", "data-forwarding_A_i", "control-forwarding_B_lan", "data-forwarding_B_lan",
      "A_OSPF_i_IMPORT_choice", "B_CONNECTED_lan_IMPORT_choice", "A_OVERALL_none_BEST_permitted",
      "B_OVERALL_none_BEST_permitted", "B_CONNECTED_none_BEST_permitted", "B_CONNECTED_lan_IMPORT_permitted",
      "B_OSPF_i_EXPORT_permitted", "B_OSPF_lan_EXPORT_permitted", "SSA_RETURN1", "SSA_RETURN3", "SSA_RETURN4",
      "SSA_RETURN5", "SSA_RETURN6", "SSA_RETURN7", "SSA_RETURN11"].contains (name.drop 11).toString
  int name :=
    if name == "FAILED-INTERNAL_A_B" then 1
    else if name == "SLICE-MAIN_dst-ip" then 168361989
    else if ["A_OVERALL_none_BEST_metric", "B_OSPF_i_EXPORT_metric",
      "B_OSPF_lan_EXPORT_metric"].contains (name.drop 11).toString then 1
    else if ["A_OVERALL_none_BEST_prefixLength", "B_OVERALL_none_BEST_prefixLength",
      "B_CONNECTED_none_BEST_prefixLength", "B_CONNECTED_lan_IMPORT_prefixLength", "B_OSPF_i_EXPORT_prefixLength",
      "B_OSPF_lan_EXPORT_prefixLength"].contains (name.drop 11).toString then 24
    else 0
  bits name := if Text.occursIn "OSPF" name then 0 else 1

/-- Whether `cutState` is a state of an encoding in which a failed link of `A` is forwarded over. -/
def isCutState (e : Encoding) : Bool :=
  e.ledger.required.all (fun c => c.eval cutState) &&
    (e.slice.topology.edges (.text "A")).any fun d =>
      cutState.int (Frame.failureName e.slice.tag d) == 1 &&
        d.reverse?.all (fun back => cutState.int (Frame.failureName e.slice.tag back) == 1) &&
        (e.slice.controlForwarding d).eval cutState

theorem cut_failedLink_carries : ∃ e d l, (encode cutNetwork cutRequest).result = .ok e ∧
    cutState.Satisfies e.ledger ∧ d ∈ e.slice.topology.edges (.text "A") ∧ e.slice.HasFailed cutState d ∧
    (e.slice.controlForwarding d).eval cutState ∧ l ∈ e.slice.lanes ∧ l.edge.id = d.id ∧
    e.slice.TakesOrigin cutState l := by
  have hcut : ((encode cutNetwork cutRequest).result.toOption.any isCutState) := by decide +kernel
  cases he : (encode cutNetwork cutRequest).result with
  | error f =>
    rw [he] at hcut
    cases hcut
  | ok e =>
    rw [he] at hcut
    have hcut : isCutState e := hcut
    simp only [isCutState, and_eq_true, List.all_eq_true, List.any_eq_true, beq_iff_eq, Option.all_eq_true] at hcut
    obtain ⟨hv, d, hd, ⟨hnear, hfar⟩, hforwards⟩ := hcut
    have hfailed : e.slice.HasFailed cutState d := ⟨hnear, hfar⟩
    obtain ⟨l, hl, hid, htakes⟩ := (failedLink_carries_iff he hv hd hfailed).2 hforwards
    exact ⟨e, d, l, rfl, hv, hd, hfailed, hforwards, hl, hid, htakes⟩

end Encoding

end ControlPlane
