import ControlPlane.Proofs.Slice.MergedImports

/-!
# What a header space slices away

Connected and static routes that lead to no destination of the header space are left out, and so are generated routes.
That is harmless, as no packet of the space is bound for them: where they are kept, they are never received.
-/
namespace ControlPlane

open List

variable {selection : Document} {l : Lane} {cs : List (Term .bool)} {name : Name} {n : Network} {p : Protocol}
  {switches : Switches} {t : Topology} {v : Valuation} {r : Router}

/-! ## §1. Plans -/

theorem Router.originated_of_isLocal (r : Router) (hlocal : p.isLocal) :
    ∃ subnets, r.originated p = .ok subnets := by
  cases p with
  | connected => exact ⟨_, rfl⟩
  | static => exact ⟨_, rfl⟩
  | _ => cases hlocal

theorem Protocol.mem_encodingOrder_of_isLocal (hlocal : p.isLocal) : p ∈ encodingOrder := by
  cases p with
  | best => cases hlocal
  | _ => decide

namespace Plan

variable {space : HeaderSpace} {ps : List Protocol}

theorem originatesInto_of_dropped (h : computeProtocols switches r space = .ok ps) (hslicing : switches.slicing)
    (hlocal : p.isLocal) (hrun : Topology.isRunning r p = .ok true) (hdropped : p ∉ ps) :
    r.originatesInto p space = .ok false := by
  obtain ⟨subnets, hsubnets⟩ := r.originated_of_isLocal hlocal
  have horiginates : r.originatesInto p space = .ok (subnets.any space.overlapsDst) := by
    rw [Router.originatesInto, hsubnets]
    rfl
  cases hany : subnets.any space.overlapsDst with
  | false => rw [horiginates, hany]
  | true =>
    refine absurd ((mem_filterM h).2 ⟨Protocol.mem_encodingOrder_of_isLocal hlocal, ?_⟩) hdropped
    rw [hrun, hslicing, hlocal]
    show r.originatesInto p space = _
    rw [horiginates, hany]

/-- Without slicing it is kept. -/
theorem mem_computeProtocols (h : computeProtocols switches r space = .ok ps) (hoff : switches.slicing = false)
    (hlocal : p.isLocal) (hrun : Topology.isRunning r p = .ok true) : p ∈ ps := by
  refine (mem_filterM h).2 ⟨Protocol.mem_encodingOrder_of_isLocal hlocal, ?_⟩
  rw [hrun, hoff]
  rfl

end Plan

/-! ## §2. Routes of the router's own -/

theorem Topology.originated_over (hbuild : build n selection = .ok t) (hr : t.router name = .ok r) {e : Edge}
    (he : e ∈ t.edges name) :
    (∀ subnet, e.start.subnet? = some subnet → ∃ subnets, r.originated .connected = .ok subnets ∧ subnet ∈ subnets) ∧
    ∀ route ∈ t.staticRoutesOver e, ∃ subnets, r.originated .static = .ok subnets ∧ route.subnet ∈ subnets := by
  obtain ⟨site, hsite, rfl, hfind, hedges⟩ := site_of_router hr
  have hof := edge_isOf hbuild hsite (hedges ▸ he)
  refine ⟨fun subnet hsubnet => ⟨_, rfl, mem_filterMap.2 ⟨e.start, mem_sortWith.2 hof.start, hsubnet⟩⟩, ?_⟩
  intro route hroute
  unfold staticRoutesOver at hroute
  rw [hof.router, (mem_of_site? hfind).2, hfind] at hroute
  exact ⟨_, rfl, mem_map_of_mem (mem_of_mem_filter hroute)⟩

namespace Slice

variable {s : Slice}

/-- **A packet for elsewhere does not receive a route of the router's own.** -/
theorem import_of_unbound (hlocal : l.protocol.isLocal) (hused : l.incoming.used)
    (h : s.ImportHolds r l v)
    (hconnected : l.protocol = .connected → ∀ subnet, l.edge.start.subnet? = some subnet →
      (subnet.holdsOf s.packet.dstIp).eval v = false)
    (hstatic : l.protocol = .static → ∀ route ∈ s.topology.staticRoutesOver l.edge,
      (route.subnet.holdsOf s.packet.dstIp).eval v = false) : l.incoming.permits.eval v = false := by
  have h := h hused
  cases hp : l.protocol with
  | connected =>
    rw [hp] at h
    unfold ConnectedHolds at h
    cases hsubnet : l.edge.start.subnet? with
    | none =>
      rw [hsubnet] at h
      exact h
    | some subnet =>
      rw [hsubnet] at h
      refine h.2 fun hreaches => ?_
      exact absurd hreaches.subnet (by rw [hconnected hp subnet hsubnet]; exact Bool.false_ne_true)
  | static =>
    rw [hp] at h
    refine StaticHolds.rests h fun route hroute hreaches => ?_
    exact absurd hreaches.subnet (by rw [hstatic hp route hroute]; exact Bool.false_ne_true)
  | _ =>
    rw [hp] at hlocal
    cases hlocal

end Slice

/-! ## §3. Encodings -/

theorem HeaderSpace.not_holdsOf_of_apart {h : HeaderSpace} {p : Packet} (hcs : h.constraints p = .ok cs)
    (hv : ∀ c ∈ cs, c.eval v) {subnet : Subnet} (hapart : h.overlapsDst subnet = false) :
    (subnet.holdsOf p.dstIp).eval v = false := by
  by_contra hholds
  rw [overlapsDst_of_holdsOf hcs hv (Bool.not_eq_false _ ▸ hholds)] at hapart
  cases hapart

/-- **What a router does not originate into the header space it does not receive from itself either.** -/
theorem Frame.import_of_not_originatesInto {f : Frame} {rs : List Redistribution}
    {basis : Plan.Basis} (hbuild : Topology.build n selection = .ok f.topology)
    (hplan : f.IsDecided basis)
    (hcs : f.space.constraints f.packet = .ok cs) (hv : ∀ c ∈ cs, c.eval v)
    (htransfers : (f.slice rs).TransfersHold v) (hr : f.topology.router name = .ok r) (hlocal : p.isLocal)
    (hnot : r.originatesInto p f.space = .ok false) (hl : l ∈ (f.slice rs).lanesOf name p) :
    l.incoming.permits.eval v = false := by
  obtain ⟨subnets, hsubnets, hnone⟩ := bind_eq_ok.1 hnot
  have hnone := any_eq_false.1 (pure_eq_ok.1 hnone)
  -- no packet of the space is bound for what is originated
  have hunbound : ∀ subnet ∈ subnets, (subnet.holdsOf f.packet.dstIp).eval v = false := fun subnet hsubnet =>
    HeaderSpace.not_holdsOf_of_apart hcs hv (Bool.eq_false_iff.2 (hnone subnet hsubnet))
  obtain ⟨site, hsite, rfl, hfind, -⟩ := Topology.site_of_router hr
  have hname := (Topology.mem_of_site? hfind).2
  obtain ⟨hlane, rfl, rfl⟩ := mem_lanesOf.1 hl
  obtain ⟨-, -, -, hp, -⟩ := lane_owner hplan hlane
  obtain ⟨-, -, -, -, himports, -⟩ := htransfers site.router (mem_map_of_mem hsite) l.protocol (hname ▸ hp)
  have hused := used_of_isLocal hplan hlane hlocal
  obtain ⟨hconnected, hstatic⟩ := Topology.originated_over hbuild hr (lane_edge hlane)
  refine Slice.import_of_unbound hlocal hused (himports l (hname ▸ hl))
    (fun hp subnet hsubnet => ?_) fun hp route hroute => ?_
  · obtain ⟨subnets', hsubnets', hmem⟩ := hconnected subnet hsubnet
    rw [hp, hsubnets'] at hsubnets
    exact hunbound subnet (Except.ok.inj hsubnets ▸ hmem)
  · obtain ⟨subnets', hsubnets', hmem⟩ := hstatic route hroute
    rw [hp, hsubnets'] at hsubnets
    exact hunbound route.subnet (Except.ok.inj hsubnets ▸ hmem)

/-- **What the header space slices away is inert.**  Take an encoding without slicing.  If slicing would leave out the
connected or the static routes of a router that has them, they are encoded, and in no solution is one received.  If a
generated route is left out, its network does not hold the destination of any packet of the header space. -/
theorem Encoding.dropped_isInert {n : Network} {req : Request} {e : Encoding} (he : (encode n req).result = .ok e)
    (hoff : req.switches.slicing = false) {name : Name} {r : Router} (hr : e.slice.topology.router name = .ok r) :
    (∀ switches ps p, switches.slicing → Plan.computeProtocols switches r req.space = .ok ps →
      p.isLocal → Topology.isRunning r p = .ok true → p ∉ ps →
      p ∈ e.slice.protocols name ∧
        ∀ v : Valuation, v.Satisfies e.ledger → ∀ l ∈ e.slice.lanesOf name p, l.incoming.permits.eval v = false) ∧
    ∃ cs, req.space.constraints e.slice.packet = .ok cs ∧
      ∀ switches failures plan d, Plan.compute switches e.slice.topology req.space failures = .ok plan →
        plan.router? name = some d → ∀ g ∈ r.generatedRoutes, g ∉ d.aggregates →
        ∀ v : Valuation, (∀ c ∈ cs, c.eval v) →
          ¬ ((g.subnet.first : Int) ≤ e.slice.packet.dstIp.eval v ∧ e.slice.packet.dstIp.eval v ≤ g.subnet.last) := by
  obtain ⟨f, rs, hof⟩ := encode_isOf he
  obtain ⟨n', hbuild⟩ := topologyOf_ok hof.topology
  obtain ⟨encoded, hplan⟩ := Frame.isDecided hof.plan
  obtain ⟨cs, hcs⟩ := hof.filtered
  have hsound := hof.sound
  rw [hof.slice] at hr hsound ⊢
  rw [← hof.space]
  refine ⟨fun switches ps p hslicing hps hlocal hrun hdropped => ⟨?_, fun v hv l hl => ?_⟩, cs, hcs, ?_⟩
  · exact Plan.mem_computeProtocols (hplan.protocols hr) hoff hlocal hrun
  · have hstate := hsound v hv
    exact Frame.import_of_not_originatesInto hbuild hplan hcs (hstate.space cs hcs) hstate.transfers hr hlocal
      (Plan.originatesInto_of_dropped hps hslicing hlocal hrun hdropped) hl
  · intro switches failures plan d hcompute hd g hg hdropped v hv hinside
    obtain ⟨encoded', hplan'⟩ := Plan.compute_decides hcompute
    obtain ⟨d', hd', hdecides⟩ := hplan'.router? hr
    cases hd.symm.trans hd'
    have hapart : f.space.overlapsDst g.subnet = false := by
      by_contra hoverlaps
      exact hdropped (hdecides.aggregates ▸ List.mem_filter.2 ⟨hg, Bool.not_eq_false _ ▸ hoverlaps⟩)
    have hnot := HeaderSpace.not_holdsOf_of_apart hcs hv hapart
    obtain ⟨hfirst, hlast⟩ : (g.subnet.first : Int) ≤ f.packet.dstIp.eval v ∧ f.packet.dstIp.eval v ≤ g.subnet.last :=
      hinside
    rw [Subnet.eval_holdsOf, Policy.inSubnet, decide_eq_true hfirst, decide_eq_true hlast] at hnot
    simp at hnot

namespace Encoding

/-- A router with a connected network, a static and a generated route. -/
def lonelyNetwork : Network where
  routers := [
    { name := .text "A"
      interfaces := [.port "i" (.ofOctets 10 0 0 1 30)]
      staticRoutes := [{ subnet := .ofOctets 172 16 0 0 12, nextHopInterface := .text "i" }]
      generatedRoutes := [{ subnet := .ofOctets 192 168 0 0 16 }] }]

/-- Packets to somewhere else, without slicing. -/
def elsewhere : Request where
  space := { dstIps := [.ofOctets 10 1 0 0 16] }
  switches := { slicing := false }

theorem lonely_dropped_isInert : ∃ e, (encode lonelyNetwork elsewhere).result = .ok e ∧
    ∃ r, e.slice.topology.router (.text "A") = .ok r ∧ Plan.computeProtocols {} r elsewhere.space = .ok [] ∧
      (e.slice.lanesOf (.text "A") .connected).length = 1 ∧ (e.slice.lanesOf (.text "A") .static).length = 1 ∧
      (∀ v : Valuation, v.Satisfies e.ledger → ∀ p ∈ [Protocol.connected, .static],
        ∀ l ∈ e.slice.lanesOf (.text "A") p, l.incoming.permits.eval v = false) ∧
      ∃ cs, elsewhere.space.constraints e.slice.packet = .ok cs ∧ ∃ g ∈ r.generatedRoutes,
        ∀ v : Valuation, (∀ c ∈ cs, c.eval v) → ¬ ((g.subnet.first : Int) ≤ e.slice.packet.dstIp.eval v ∧
          e.slice.packet.dstIp.eval v ≤ g.subnet.last) := by
  have hlonely : ∃ e, (encode lonelyNetwork elsewhere).result = .ok e ∧
      ∃ r, e.slice.topology.router (.text "A") = .ok r ∧
      ((∃ ps, Plan.computeProtocols {} r elsewhere.space = .ok ps ∧ ps = []) ∧
        (∃ b, Topology.isRunning r .static = .ok b ∧ b) ∧ (e.slice.lanesOf (.text "A") .connected).length = 1 ∧
        (e.slice.lanesOf (.text "A") .static).length = 1 ∧ r.generatedRoutes.length = 1 ∧
        ∃ plan, Plan.compute {} e.slice.topology elsewhere.space (.int 0) = .ok plan ∧
          (plan.router? (.text "A")).any (fun d => d.aggregates.isEmpty)) := by
    decide +kernel
  obtain ⟨e, he, r, hr, ⟨ps, hps, rfl⟩, ⟨b, hrun, rfl⟩, hconnected, hstatic, hgenerated, plan, hplan, hnone⟩ := hlonely
  obtain ⟨hprotocols, cs, hcs, haggregates⟩ := dropped_isInert he rfl hr
  refine ⟨e, he, r, hr, hps, hconnected, hstatic, fun v hv p hp l hl => ?_, cs, hcs, ?_⟩
  · simp only [List.mem_cons, List.not_mem_nil, or_false] at hp
    obtain rfl | rfl := hp
    · exact (hprotocols {} [] .connected rfl hps rfl rfl List.not_mem_nil).2 v hv l hl
    · exact (hprotocols {} [] .static rfl hps rfl hrun List.not_mem_nil).2 v hv l hl
  · cases hd : plan.router? (.text "A") with
    | none =>
      rw [hd] at hnone
      cases hnone
    | some d =>
      rw [hd, Option.any_some, List.isEmpty_iff] at hnone
      obtain ⟨g, hg⟩ := List.exists_mem_of_length_pos (l := r.generatedRoutes) (by rw [hgenerated]; exact Nat.one_pos)
      exact ⟨g, hg, haggregates {} (.int 0) plan d hplan hd g hg (hnone ▸ List.not_mem_nil)⟩

end Encoding

end ControlPlane
