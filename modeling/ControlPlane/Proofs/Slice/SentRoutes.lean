import ControlPlane.Proofs.Slice.Derivations
import ControlPlane.Proofs.Slice.Identity
import ControlPlane.Proofs.Slice.InternalRoutes
import ControlPlane.Proofs.Transfer.Preferences

/-!
# What is known of sent routes

A router sends the networks that it originates, and its best route otherwise (`Frame.sent_of_permits`).  Both fit the
protocol, both keep the default local preference unless a policy or iBGP says otherwise, and a best route is only sent
over a link that is up, with the mark of its session and without communities that are not sent.
-/
namespace ControlPlane

variable {f : Frame} {rs : List Redistribution} {basis : Plan.Basis} {v : Valuation} {m : Lane}

/-! ## §1. Sessions and policies of exports -/

theorem Topology.keepLocalPref_exportStatements {t : Topology} {r : Router} {p : Protocol} {e : Edge}
    {found : Option RoutingPolicy} (hpolicies : ∀ q ∈ r.policies, Statement.keepLocalPref q.statements)
    (hpolicy : t.exportPolicy r p e = .ok found) :
    Statement.keepLocalPref (Slice.exportStatements p found) := by
  unfold Slice.exportStatements
  cases found with
  | none => cases p <;> rfl
  | some policy =>
    have hkeep := hpolicies policy (exportPolicy_mem hpolicy)
    cases p with
    | ospf =>
      simp [Statement.keepLocalPref, Statement.keepsLocalPref, hkeep]
    | _ => exact hkeep

theorem Slice.sending_bgp {s : Slice} {best : Record} {m : Lane} (hp : m.protocol = .bgp) :
    (s.sending best m).2 = .int 0 ∨ (s.sending best m).2 = .int 1 := by
  unfold Slice.sending
  split
  · exact .inl rfl
  · rw [hp]
    exact .inr rfl

namespace Frame

variable {m₀ : Lane}

theorem sessions_alike (rs : List Redistribution)
    (hcan : Plan.canMergeExport basis.switches f.topology m.router m.protocol basis.failures = .ok true)
    (hm : m ∈ f.allLanes) (hm₀ : m₀ ∈ f.allLanes) (hrouter : m₀.router = m.router)
    (hprotocol : m₀.protocol = m.protocol) :
    (f.slice rs).isInternalLane m₀ = (f.slice rs).isInternalLane m ∧
      (f.slice rs).sendsCommunities m₀ = (f.slice rs).sendsCommunities m := by
  unfold Slice.isInternalLane Slice.sendsCommunities
  rw [hprotocol]
  cases hp : m.protocol == .bgp with
  | false => exact ⟨rfl, rfl⟩
  | true =>
    have hp := beq_iff_eq.1 hp
    rw [hp] at hcan
    obtain ⟨-, -, communities, -, -, -, -, hexternal, hdistinct, hone⟩ := Plan.bgp_of_canMergeExport hcan
    obtain ⟨a, hsame⟩ := Document.same_of_distinct hdistinct hone
    have hsession : ∀ {k : Lane}, k ∈ f.allLanes → k.router = m.router → k.protocol = .bgp →
        f.topology.isInternal k.edge = false ∧
          (f.topology.session? k.edge).any (fun n => n.sendCommunity.truthy) = a.truthy := by
      intro k hk hkrouter hkp
      have hedge := lane_edge hk
      obtain ⟨d, -, q, -, e, he, rfl⟩ := mem_allLanes.1 hk
      have hkp : q.protocol = .bgp := hkp
      have hused := (List.mem_filter.1 he).2
      rw [hkp] at hused
      obtain ⟨n, hn⟩ := Option.isSome_iff_exists.1 (show (f.topology.session? e).isSome from hused)
      have hmem : n ∈ (f.topology.edges m.router).filterMap f.topology.session? :=
        List.mem_filterMap.2 ⟨e, hkrouter ▸ hedge, hn⟩
      constructor
      · show f.topology.isInternal e = false
        unfold Topology.isInternal
        rw [hn]
        show (!n.isExternal) = false
        rw [hexternal n hmem]
        rfl
      · show (f.topology.session? e).any _ = _
        rw [hn]
        exact Document.truthy_of_same (hsame _ (List.mem_map_of_mem hmem))
    obtain ⟨hinternal, hsends⟩ := hsession hm rfl hp
    obtain ⟨hinternal₀, hsends₀⟩ := hsession hm₀ hrouter (hprotocol.trans hp)
    constructor
    · show (true && f.topology.isInternal m₀.edge) = (true && f.topology.isInternal m.edge)
      rw [hinternal, hinternal₀]
    · show (true && (f.topology.session? m₀.edge).any _) = (true && (f.topology.session? m.edge).any _)
      rw [hsends, hsends₀]

end Frame

/-! ## §2. Sent routes -/

/-- What is known of a route that is sent over a lane.  A router that does not originate the destination sends its
best route, over links that are up. -/
structure Slice.Sent (s : Slice) (v : Valuation) (r : Router) (subnets : List Subnet) (m : Lane) : Prop where
  router : s.topology.router m.router = .ok r
  originated : r.originated m.protocol = .ok subnets
  metric : ∀ n limit, (m.outgoing.under v).number .metric = some n → m.protocol.maxMetric? = some limit → n ≤ limit
  localPref : (∀ q ∈ r.policies, Statement.keepLocalPref q.statements) → s.isInternalLane m = false →
    ∀ n, (m.outgoing.under v).number .localPref = some n → n = defaultLocalPref
  link : s.matching subnets v = [] → (s.notFailed m.edge).eval v
  internal : ∀ b, m.outgoing.bgpInternal = some b → b.eval v = (s.isInternalLane m && (s.matching subnets v).isEmpty)
  withheld : s.matching subnets v = [] → s.sendsCommunities m = false → ∀ e ∈ m.outgoing.communities, e.2.eval v = false

/-- **Every sent route is one that its router originates, or its best one.** -/
theorem Frame.sent_of_permits (hplan : f.IsDecided basis)
    (hbounded : ∃ cs, failureConstraints basis.failures (f.topology.failureTerms f.tag) = .ok cs)
    (h : (f.slice rs).IsState basis.failures v) (hm : m ∈ f.allLanes)
    (hpermits : m.outgoing.permits.eval v) : ∃ r subnets, (f.slice rs).Sent v r subnets m := by
  obtain ⟨r, subnets, best, m₀, hdefined⟩ := definedBy_of_permits hplan h.transfers hm hpermits
  obtain ⟨hlocal, -⟩ := hdefined.isActive hpermits
  -- the lane that says what is sent has a session like that of the lane itself
  have hsession : (f.slice rs).isInternalLane m₀ = (f.slice rs).isInternalLane m ∧
      (f.slice rs).sendsCommunities m₀ = (f.slice rs).sendsCommunities m := by
    cases hmerges : (f.slice rs).mergesExport m.router m.protocol with
    | true =>
      exact sessions_alike rs (hmerges ▸ mergesExport_of_lane rs hplan hm) hm hdefined.lane hdefined.sender
        hdefined.protocol
    | false =>
      obtain rfl := hdefined.unshared hmerges
      exact ⟨rfl, rfl⟩
  have hsent := hdefined.sent hpermits
  refine ⟨r, subnets, ?_⟩
  cases hlast : ((f.slice rs).matching subnets v).getLast? with
  | some subnet =>
    rw [hlast] at hsent
    have hroot : (f.slice rs).matching subnets v ≠ [] := by
      intro hnil
      rw [hnil] at hlast
      cases hlast
    refine ⟨hdefined.router, hdefined.originated, fun n limit hn hlimit => ?_, fun _ _ n hn => hsent.numbers _ n hn,
      fun hnil => absurd hnil hroot, fun b hb => ?_, fun hnil => absurd hnil hroot⟩
    · have hcost := hsent.numbers .metric n hn
      cases hp : m.protocol with
      | ospf =>
        have hrange := (h.records m.outgoing (mem_outgoing hm)).numbers .metric n hn
        rw [hp] at hlimit
        cases hlimit
        exact Int.le_of_lt_add_one hrange.2
      | bgp =>
        rw [hp] at hlimit
        cases hlimit
        rcases @Slice.sending_bgp (f.slice rs) best m₀ (hdefined.protocol.trans hp) with hzero | hone
        · have hn : (Document.int 0).integer = .ok n := hzero ▸ hcost
          cases hn
          decide
        · have hn : (Document.int 1).integer = .ok n := hone ▸ hcost
          cases hn
          decide
      | _ =>
        rw [hp] at hlimit
        exact absurd hlimit (by simp [Protocol.maxMetric?])
    · rw [hsent.internal b hb, List.isEmpty_eq_false_iff.2 hroot, Bool.and_false]
  | none =>
    have hroot := List.getLast?_eq_none_iff.1 hlast
    obtain ⟨hsends, policy, hpolicy, hholds⟩ := hdefined.sendsBest hpermits hroot
    have htarget : ((f.slice rs).exportTransfer r best m₀).target = m.outgoing := hdefined.record
    have hconveyed := hholds.conveyed (htarget ▸ hpermits)
    obtain ⟨x, cost, hx, -, -, hfits, hconveys⟩ := hconveyed
    refine ⟨hdefined.router, hdefined.originated, fun n limit hn hlimit => ?_, fun hpolicies hinternal n hn => ?_,
      fun _ => ?_, fun b hb => ?_, fun _ hsends e he => ?_⟩
    · rw [← htarget] at hn
      rw [hconveys.number .metric n hn]
      refine hfits limit ?_
      show m₀.protocol.maxMetric? = some limit
      rw [hdefined.protocol]
      exact hlimit
    · have hkeeps := Topology.keepLocalPref_exportStatements hpolicies hpolicy
      have hchanged := Transfer.groundBody_preference (t := (f.slice rs).exportTransfer r best m₀)
        hpolicies hkeeps hx
      have hexternal : ((f.slice rs).exportTransfer r best m₀).isInternal = false :=
        hsession.1.trans hinternal
      rw [← htarget] at hn
      rw [hconveys.number .localPref n hn]
      show (if _ || _ then _ else _) = _
      rw [hchanged, hexternal]
      rfl
    · cases hmerges : (f.slice rs).mergesExport m.router m.protocol with
      | true =>
        have hpositive := Plan.isPositive_of_canMergeExport (hmerges ▸ mergesExport_of_lane rs hplan hm) hlocal
        exact (Term.eval_is v _ 0).2 (h.not_failed hpositive hbounded (lane_edge hm))
      | false =>
        obtain rfl := hdefined.unshared hmerges
        exact hsends.link
    · rw [← htarget] at hb
      rw [hconveys.internal b hb, hroot, ← hsession.1]
      exact (Bool.and_true _).symm
    · rw [← htarget] at he
      exact hconveys.withheld (hsession.2.trans hsends) e he

end ControlPlane
