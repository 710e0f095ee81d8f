import ControlPlane.Proofs.Slice.Failures

/-!
# How routes go from router to router

A route that is there has a reason.  A sent one is said by a lane of the router, either the lane itself or the one
that defines the record that all lanes share (`Slice.DefinedBy`).  A received one is what the other side sends or
what is announced from outside, taken over as it is or after a transfer (`Slice.TakenFrom`).
-/
namespace ControlPlane

variable {v : Valuation} {m l : Lane} {f : Frame} {rs : List Redistribution} {basis : Plan.Basis} {x : Record}

/-- **A route at the target of a transfer was conveyed**: the policy accepted it, and its metric fits. -/
theorem Transfer.Holds.conveyed {t : Transfer} {policy : List Statement} (h : t.Holds policy v)
    (hp : t.target.permits.eval v) :
    ∃ x cost, t.groundBody policy v = .ok x ∧ t.addedCost.integer = .ok cost ∧ x.1.value ∧
      t.Fits (t.sentMetric v cost x.2.route) ∧ t.Conveys v x.1.changed cost x.2.route := by
  obtain ⟨x, cost, hx, hcost, hd⟩ := h
  have hvalue : x.1.value := by
    by_contra hnot
    rw [hd.rejects (Bool.eq_false_iff.2 hnot)] at hp
    cases hp
  by_cases hfits : t.Fits (t.sentMetric v cost x.2.route)
  · exact ⟨x, cost, hx, hcost, hvalue, hfits, hd.conveys hvalue hfits⟩
  · rw [hd.overflows hvalue hfits] at hp
    cases hp

/-! ## §1. Sent routes -/

namespace Slice

variable (s : Slice) (v : Valuation)

structure DefinedBy (r : Router) (subnets : List Subnet) (best : Record) (m₀ m : Lane) : Prop where
  router : s.topology.router m.router = .ok r
  originated : r.originated m.protocol = .ok subnets
  overall : s.overall m.router = .ok best
  lane : m₀ ∈ s.lanes
  sender : m₀.router = m.router
  protocol : m₀.protocol = m.protocol
  record : m₀.outgoing = m.outgoing
  unshared : s.mergesExport m.router m.protocol = false → m₀ = m
  holds : s.ExportHolds r best subnets m₀ v

variable {s v} {r : Router} {subnets : List Subnet} {best : Record} {m₀ : Lane}

namespace DefinedBy

variable (h : s.DefinedBy v r subnets best m₀ m) (hp : m.outgoing.permits.eval v)
include h hp

/-- Routes are sent by protocols that exchange them, over interfaces where they run. -/
theorem isActive : m.protocol.isLocal = false ∧ Topology.isActive m.protocol m₀.edge.start := by
  have hholds := h.holds
  unfold ExportHolds at hholds
  rw [h.protocol, h.record] at hholds
  split at hholds
  next => cases hp.symm.trans hholds
  next hactive => simpa using hactive

theorem sent : (s.matching subnets v).getLast?.elim (s.SendsBest r best m₀ v) fun subnet =>
    IsOriginated m.outgoing v m.protocol m₀.edge.start.ospfArea (s.sending best m₀).2 subnet.length := by
  obtain ⟨hlocal, hactive⟩ := h.isActive hp
  have hholds := h.holds
  unfold ExportHolds at hholds
  rw [h.protocol, h.record, hlocal, hactive] at hholds
  exact hholds

theorem sendsBest (hroot : s.matching subnets v = []) : s.Sends best m₀ v ∧
    ∃ policy, s.topology.exportPolicy r m.protocol m₀.edge = .ok policy ∧
      (s.exportTransfer r best m₀).Holds (exportStatements m.protocol policy) v := by
  have hsent := h.sent hp
  rw [hroot] at hsent
  obtain ⟨policy, hpolicy, hyes, hno⟩ := hsent
  rw [h.record] at hno
  rw [h.protocol] at hpolicy hyes
  by_cases hsends : s.Sends best m₀ v
  · exact ⟨hsends, policy, hpolicy, hyes hsends⟩
  · cases hp.symm.trans (hno hsends)

end DefinedBy

/-- A router originates the destination exactly where the packet is bound for one of its networks. -/
theorem matching_eq_nil : s.matching subnets v = [] ↔ (s.packet.isBoundFor subnets).eval v = false := by
  unfold matching Packet.isBoundFor
  rw [Term.eval_anyOf, List.any_map, List.filter_eq_nil_iff, List.any_eq_false]
  rfl

end Slice

namespace Frame

section

variable (hplan : f.IsDecided basis) (h : (f.slice rs).TransfersHold v)
  (hm : m ∈ f.allLanes)
include hplan h hm

/-- The record of a lane is said by the lane or by an active one, or else nothing is sent and the lane is inactive; the
last only where exports share a record. -/
theorem definedBy_of_lane :
    (∃ r subnets best m₀, (f.slice rs).DefinedBy v r subnets best m₀ m ∧
      (m₀ = m ∨ Topology.isActive m.protocol m₀.edge.start)) ∨
    (f.slice rs).mergesExport m.router m.protocol ∧ m.outgoing.permits.eval v = false ∧
      Topology.isActive m.protocol m.edge.start = false := by
  obtain ⟨r, hr, -, hmem, subnets, best, hsubnets, hbest, -, hexports⟩ := lanesHold_of_mem hplan h hm
  obtain ⟨-, hname⟩ := mem_routers hr
  obtain ⟨hown, hshares, hsilent⟩ := Slice.exportsHold_iff.1 hexports
  rw [hname] at hmem hbest hown hshares hsilent
  cases hmerges : (f.slice rs).mergesExport m.router m.protocol with
  | false =>
    exact .inl ⟨r, subnets, best, m, ⟨hr, hsubnets, hbest, hm, rfl, rfl, rfl, fun _ => rfl, hown hmerges m hmem⟩,
      .inl rfl⟩
  | true =>
    -- all lanes of the protocol have the shared record
    have hshared : ∀ m₀ ∈ (f.slice rs).lanesOf m.router m.protocol,
        m₀ ∈ f.allLanes ∧ m₀.router = m.router ∧ m₀.protocol = m.protocol ∧ m₀.outgoing = m.outgoing := by
      intro m₀ hm₀
      obtain ⟨hlane, hrouter, hprotocol⟩ := mem_lanesOf.1 hm₀
      refine ⟨hlane, hrouter, hprotocol, ?_⟩
      rw [outgoing_eq rs hplan hlane, outgoing_eq rs hplan hm, hrouter, hprotocol, hmerges, if_pos rfl, if_pos rfl]
    cases hfirst : ((f.slice rs).lanesOf m.router m.protocol).find? (Slice.laneIsActive m.protocol) with
    | none =>
      -- without an active lane, nothing is sent
      obtain ⟨last, hlast⟩ := Option.ne_none_iff_exists'.1
        (fun hnone => List.ne_nil_of_mem hmem (List.getLast?_eq_none_iff.1 hnone))
      have hnot := hsilent hmerges hfirst last hlast
      rw [(hshared last (List.mem_of_getLast? hlast)).2.2.2] at hnot
      exact .inr ⟨rfl, hnot, Bool.eq_false_iff.2 (List.find?_eq_none.1 hfirst m hmem)⟩
    | some m₀ =>
      obtain ⟨hlane, hrouter, hprotocol, hrecord⟩ := hshared m₀ (List.mem_of_find?_eq_some hfirst)
      exact .inl ⟨r, subnets, best, m₀, ⟨hr, hsubnets, hbest, hlane, hrouter, hprotocol, hrecord,
        fun hnot => absurd (hmerges.symm.trans hnot) (by simp), hshares hmerges m₀ hfirst⟩,
        .inr (List.find?_some (p := Slice.laneIsActive m.protocol) hfirst)⟩

/-- **Every sent route is said by a lane.** -/
theorem definedBy_of_permits (hpermits : m.outgoing.permits.eval v) :
    ∃ r subnets best m₀, (f.slice rs).DefinedBy v r subnets best m₀ m := by
  rcases definedBy_of_lane hplan h hm with ⟨r, subnets, best, m₀, hdefined, -⟩ | ⟨-, hnot, -⟩
  · exact ⟨r, subnets, best, m₀, hdefined⟩
  · cases hpermits.symm.trans hnot

theorem definedBy_of_active (hactive : Topology.isActive m.protocol m.edge.start) :
    ∃ r subnets best m₀, (f.slice rs).DefinedBy v r subnets best m₀ m ∧
      Topology.isActive m.protocol m₀.edge.start := by
  rcases definedBy_of_lane hplan h hm with ⟨r, subnets, best, m₀, hdefined, hlane⟩ | ⟨-, -, hnot⟩
  · exact ⟨r, subnets, best, m₀, hdefined, hlane.elim (fun heq => heq ▸ hactive) id⟩
  · cases hactive.symm.trans hnot

end

end Frame

/-! ## §2. Received routes -/

namespace Slice

variable (s : Slice) (v : Valuation)

/-- A received route is one of the other side: the same record, or what a transfer made of it. -/
structure TakenFrom (l : Lane) (source x : Record) : Prop where
  across : s.across? l .incoming = some source
  sent : source.permits.eval v
  shared : l.incoming.used = false → x = source ∧ ∃ m, s.opposite? l = some m ∧ source = m.outgoing
  conveyed : l.incoming.used → x = l.incoming ∧ ∃ r policy, s.topology.router l.router = .ok r ∧
    s.topology.importPolicy r l.protocol l.edge = .ok policy ∧
    (s.importTransfer r l source).Holds (importStatements policy) v

end Slice

/-- **Every received route is one of the other side**, in protocols that exchange routes. -/
theorem Frame.takenFrom_of_permits (hplan : f.IsDecided basis)
    (h : (f.slice rs).TransfersHold v) (hl : l ∈ f.allLanes) (hlocal : l.protocol.isLocal = false)
    (hx : (f.slice rs).incoming l = .ok x) (hpermits : x.permits.eval v) :
    ∃ source, (f.slice rs).TakenFrom v l source x := by
  rcases incoming_cases hx with ⟨hused, rfl⟩ | ⟨hused, m, hopposite, rfl⟩
  · obtain ⟨r, hr, -, hmem, -, -, -, -, himports, -⟩ := lanesHold_of_mem hplan h hl
    obtain ⟨hnone, hsome⟩ := (himports l hmem).across hused hlocal
    cases hsource : (f.slice rs).across? l .incoming with
    | none => cases hpermits.symm.trans (hnone hsource)
    | some source =>
      obtain ⟨subnets, policy, -, hpolicy, hyes, hno⟩ := hsome source hsource
      by_cases hreceives : (f.slice rs).Receives l v subnets source
      · exact ⟨source, hsource, hreceives.permits, fun hfalse => absurd (hused.symm.trans hfalse) (by simp),
          fun _ => ⟨rfl, r, policy, hr, hpolicy, hyes hreceives⟩⟩
      · cases hpermits.symm.trans (hno hreceives)
  · have hacross : (f.slice rs).across? l .incoming = some m.outgoing := by
      unfold Slice.across?
      rw [hopposite]
    exact ⟨m.outgoing, hacross, hpermits, fun _ => ⟨rfl, m, hopposite, rfl⟩,
      fun htrue => absurd (hused.symm.trans htrue) (by simp)⟩

end ControlPlane
