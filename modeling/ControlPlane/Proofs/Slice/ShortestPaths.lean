import ControlPlane.Proofs.Slice.Ospf

/-!
# OSPF finds shortest paths

Where OSPF is the only protocol besides connected routes, the best OSPF route of a router is one over a shortest
path from a router that originates the destination.  No constraint says so: each router only compares what its
neighbors send.  Every received route has arrived over a path of its metric (`Frame.path_of_permits`), and every
path brings a route that is no worse (`Frame.receives_of_path`).
-/
namespace ControlPlane

open List Option Frame Topology Edge Subnet Bool

variable {k : Int} {n : Network} {f : Frame} {rs : List Redistribution} {basis : Plan.Basis}
  {selection : Document} {v : Valuation} {name : Name} {r : Router} {l m : Lane} {x y : Record} {subnet : Subnet}

/-! ## §1. Paths -/

namespace Topology

section Paths

variable (t : Topology)

/-- Every router runs OSPF and, besides connected routes, nothing else.  Interfaces are told apart by their names,
as reading a network sees to. -/
structure IsOspfOnly : Prop where
  interfaces : t.NamesInterfaces
  ospf : ∀ r ∈ t.routers, r.ospf.isSome
  bgp : ∀ r ∈ t.routers, r.bgp = none
  policies : ∀ r ∈ t.routers, r.policies = []
  staticRoutes : ∀ r ∈ t.routers, r.staticRoutes = []
  generatedRoutes : ∀ r ∈ t.routers, r.generatedRoutes = []
  cost : ∀ r ∈ t.routers, ∀ i ∈ r.interfaces, i.runsOspf → ∃ c, 1 ≤ c ∧ i.ospfCost.Means c

structure IsOspfSubnet (subnet : Subnet) (destination : Int) : Prop where
  holds : Policy.inSubnet subnet destination
  only : ∀ r ∈ t.routers, ∀ i ∈ r.interfaces, ∀ s, i.subnet? = some s → Policy.inSubnet s destination →
    s = subnet
  runs : ∀ r ∈ t.routers, ∀ i ∈ r.interfaces, i.subnet? = some subnet → i.runsOspf

def Originates (subnet : Subnet) (name : Name) : Prop :=
  ∃ r, t.router name = .ok r ∧ ∃ i ∈ r.interfaces, i.runsOspf ∧ i.subnet? = some subnet

/-- OSPF runs over both sides of a link: `back` is the other direction of `e`. -/
structure OspfLink (e back : Edge) : Prop where
  edge : back ∈ t.edges back.router
  reverse : e.reverse?.map Edge.id = some back.id
  near : e.start.runsOspf
  far : back.start.runsOspf

/-- There is a path of OSPF links from a router that originates a subnet, through routers that do not, whose last
link is that of an edge.  The cost is the sum of the costs of the interfaces that advertise. -/
inductive Path (subnet : Subnet) : Edge → Int → Prop
  | direct {e back : Edge} {c : Int} (link : t.OspfLink e back) (origin : t.Originates subnet back.router)
      (cost : back.start.ospfCost.Means c) : Path subnet e c
  | hop {e back d : Edge} {m c : Int} (link : t.OspfLink e back) (passes : ¬ t.Originates subnet back.router)
      (edge : d ∈ t.edges back.router) (rest : Path subnet d m) (cost : back.start.ospfCost.Means c) :
      Path subnet e (m + c)

end Paths

variable {t : Topology}

def onlyRunsOspf (t : Topology) : Bool :=
  t.routers.all fun r => decide (r.interfaces.map Interface.name).Nodup && r.ospf.isSome && r.bgp.isNone &&
    r.policies.isEmpty && r.staticRoutes.isEmpty && r.generatedRoutes.isEmpty &&
    r.interfaces.all fun i => !i.runsOspf || match i.ospfCost.integer with
      | .ok c => decide (1 ≤ c)
      | .error _ => false

theorem isOspfOnly_of_onlyRunsOspf (h : t.onlyRunsOspf) : t.IsOspfOnly := by
  simp only [onlyRunsOspf, List.all_eq_true, and_eq_true, decide_eq_true_eq, Option.isNone_iff_eq_none,
    List.isEmpty_iff] at h
  refine ⟨fun r hr => (h r hr).1.1.1.1.1.1, fun r hr => (h r hr).1.1.1.1.1.2, fun r hr => (h r hr).1.1.1.1.2,
    fun r hr => (h r hr).1.1.1.2, fun r hr => (h r hr).1.1.2, fun r hr => (h r hr).1.2, fun r hr i hi hruns => ?_⟩
  have hcost := (h r hr).2 i hi
  rw [hruns] at hcost
  split at hcost
  next c hc => exact ⟨c, of_decide_eq_true hcost, .inl hc⟩
  next => cases hcost

instance (subnet : Subnet) (destination : Int) : Decidable (t.IsOspfSubnet subnet destination) :=
  decidable_of_iff (_ ∧ _ ∧ _) ⟨fun h => ⟨h.1, h.2.1, h.2.2⟩, fun h => ⟨h.holds, h.only, h.runs⟩⟩

instance (subnet : Subnet) (name : Name) : Decidable (t.Originates subnet name) :=
  decidable_of_iff (((t.router name).toOption.any fun r =>
      r.interfaces.any fun i => i.runsOspf && decide (i.subnet? = some subnet))) (by
    unfold Originates
    cases t.router name with
    | error fault => simp [Except.toOption]
    | ok r => simp [Except.toOption])

theorem IsOspfOnly.spreads (h : t.IsOspfOnly) : t.SpreadsOspf where
  interfaces := h.interfaces
  policy r hr policy hpolicy := by
    unfold commonPolicy at hpolicy
    dsimp only at hpolicy
    split at hpolicy
    next => cases hpolicy
    next process _ =>
      -- there is no policy to name
      unfold policyNamed at hpolicy
      split at hpolicy
      next => exact (Except.ok.inj hpolicy).symm
      next =>
        obtain ⟨found, hfound, -⟩ := bind_eq_ok.1 hpolicy
        unfold Router.policy at hfound
        rw [h.policies r hr] at hfound
        obtain ⟨key, -, hfound⟩ := bind_eq_ok.1 hfound
        exact absurd hfound (by simp [findNamed?, throw, throwThe, MonadExceptOf.throw])
  cost r hr i hi hruns c hc := by
    obtain ⟨c', hc', hmeans⟩ := h.cost r hr i hi hruns
    rw [Document.Means.unique (.inl hc) hmeans]
    exact hc'

end Topology

/-! ## §2. Lanes of OSPF -/

namespace Frame

section Protocols

variable (hplan : f.IsDecided basis) (honly : f.topology.IsOspfOnly)
include hplan honly

theorem ospf_mem_protocols (hr : f.topology.router name = .ok r) : .ospf ∈ f.protocols name := by
  refine (Plan.mem_filterM (hplan.protocols hr)).2 ⟨by decide, ?_⟩
  have hruns : Topology.isRunning r .ospf = .ok true := congrArg Except.ok (honly.ospf r (mem_routers hr).1)
  rw [hruns]
  cases basis.switches.slicing <;> rfl

theorem protocols_of_ospfOnly (hr : f.topology.router name = .ok r) {p : Protocol} (hp : p ∈ f.protocols name) :
    p = .ospf ∨ p = .connected := by
  have hrun := Plan.isRunning_of_mem (hplan.protocols hr) hp
  have hr := (mem_routers hr).1
  cases p with
  | ospf => exact .inl rfl
  | connected => exact .inr rfl
  | bgp =>
    have hbgp : r.bgp.isSome := Except.ok.inj hrun
    rw [honly.bgp r hr] at hbgp
    cases hbgp
  | static =>
    have hstatic : (!r.staticRoutes.isEmpty) := Except.ok.inj hrun
    rw [honly.staticRoutes r hr] at hstatic
    cases hstatic
  | best => cases hrun

theorem ospfLane_of_edge (hr : f.topology.router name = .ok r) {e : Edge} (he : e ∈ f.topology.edges name) :
    ∃ l ∈ (f.slice rs).lanesOf name .ospf, l.edge = e :=
  lane_of_edge hplan hr (ospf_mem_protocols hplan honly hr) he rfl

end Protocols

theorem opposite_of_link (rs : List Redistribution) (hbuild : Topology.build n selection = .ok f.topology)
    (hplan : f.IsDecided basis) (honly : f.topology.IsOspfOnly)
    (hp : l.protocol = .ospf) {back : Edge} (hlink : f.topology.OspfLink l.edge back) :
    ∃ m ∈ f.allLanes, (f.slice rs).opposite? l = some m ∧ m.protocol = .ospf ∧
      m.router = back.router ∧ m.edge = back := by
  obtain ⟨b, hb, hid⟩ := map_eq_some_iff.1 hlink.reverse
  have hrouter : b.router = back.router := congrArg (fun k : EdgeId => k.near.router) hid
  obtain ⟨site, hsite, hname, -⟩ := site_of_edge hlink.edge
  have hnames : back.router ∈ f.topology.names := mem_map.2 ⟨site, hsite, hname⟩
  obtain ⟨r, hr⟩ := router_of_name hnames
  obtain ⟨k, hk, hkedge⟩ : ∃ k ∈ (f.slice rs).lanesOf back.router .ospf, k.edge = back :=
    ospfLane_of_edge hplan honly hr hlink.edge
  obtain ⟨hkmem, hkrouter, hkp⟩ := mem_lanesOf.1 hk
  -- some lane answers, and all that do are over the same edge
  have hsome : ((f.slice rs).opposite? l).isSome := by
    unfold Slice.opposite?
    rw [hb]
    refine find?_isSome.2 ⟨k, hkmem, ?_⟩
    simp only [and_eq_true, beq_iff_eq]
    exact ⟨⟨hkrouter.trans hrouter.symm, hkp.trans hp.symm⟩, beq_iff.2 (hkedge ▸ hid.symm)⟩
  obtain ⟨m, hm⟩ := isSome_iff_exists.1 hsome
  obtain ⟨hmem, hmp, b', hb', hmrouter, hmedge⟩ := mem_opposite hm
  cases hb.symm.trans hb'
  have hmrouter := hmrouter.trans hrouter
  exact ⟨m, hmem, hm, hmp.trans hp, hmrouter, edge_ext hbuild honly.interfaces (hmrouter ▸ lane_edge hmem) hlink.edge
    ((beq_iff.1 hmedge).trans hid)⟩

theorem link_of_takes (hbuild : Topology.build n selection = .ok f.topology) (htakes : (f.slice rs).Takes v l m x)
    (hruns : m.edge.start.runsOspf) : m.edge.router = m.router ∧ f.topology.OspfLink l.edge m.edge := by
  obtain ⟨hm, -, back, hback, -, hedge⟩ := mem_opposite htakes.opposite
  have hmedge := lane_edge hm
  have hrouter := edge_router hbuild hmedge
  refine ⟨hrouter, hrouter.symm ▸ hmedge, ?_, htakes.runs, hruns⟩
  rw [hback, map_some, beq_iff.1 hedge]

/-! ## §3. Who originates the destination -/

section Origin

variable {subnets : List Subnet} (hsubnet : f.topology.IsOspfSubnet subnet (f.packet.dstIp.eval v))

include hsubnet

section

variable (hr : f.topology.router name = .ok r) (hsubnets : r.originated .ospf = .ok subnets)
include hr hsubnets

theorem originates_of_matching {n : Subnet} (hn : n ∈ (f.slice rs).matching subnets v) :
    n = subnet ∧ f.topology.Originates subnet name := by
  cases hsubnets
  obtain ⟨hmem, hholds⟩ := mem_filter.1 hn
  obtain ⟨i, hi, hin⟩ := mem_filterMap.1 hmem
  have hi : i ∈ r.interfaces := mem_sortWith.1 hi
  cases hruns : i.runsOspf with
  | false =>
    rw [hruns] at hin
    cases hin
  | true =>
    rw [hruns] at hin
    rw [eval_holdsOf] at hholds
    have hn := hsubnet.only r (mem_routers hr).1 i hi n hin hholds
    exact ⟨hn, r, hr, i, hi, hruns, hn ▸ hin⟩

theorem matching_ne_nil (horigin : f.topology.Originates subnet name) : (f.slice rs).matching subnets v ≠ [] := by
  obtain ⟨r', hr', i, hi, hruns, hin⟩ := horigin
  cases hr.symm.trans hr'
  cases hsubnets
  refine ne_nil_of_mem (a := subnet) (mem_filter.2 ⟨mem_filterMap.2 ⟨i, mem_sortWith.2 hi, ?_⟩, ?_⟩)
  · rw [hruns, if_pos rfl, hin]
  · rw [eval_holdsOf]
    exact hsubnet.holds

theorem matching_eq_nil (horigin : ¬ f.topology.Originates subnet name) : (f.slice rs).matching subnets v = [] :=
  eq_nil_iff_forall_not_mem.2 fun _ hn => horigin (originates_of_matching hsubnet hr hsubnets hn).2

end

theorem connected_silent (hbuild : Topology.build n selection = .ok f.topology)
    (hplan : f.IsDecided basis) (h : (f.slice rs).TransfersHold v)
    (hl : l ∈ f.allLanes) (hp : l.protocol = .connected) (horigin : ¬ f.topology.Originates subnet l.router)
    (hx : (f.slice rs).incoming l = .ok x) : x.permits.eval v = false := by
  obtain ⟨hused, rfl⟩ | ⟨hunused, -⟩ := incoming_cases hx
  rotate_left
  · have hlocal := isLocal_of_unused hplan hl hunused
    rw [hp] at hlocal
    cases hlocal
  obtain ⟨r, hr, -, hmem, -, -, -, -, himports, -⟩ := lanesHold_of_mem hplan h hl
  have hholds := himports l hmem hused
  rw [hp] at hholds
  unfold Slice.ConnectedHolds at hholds
  cases hstart : l.edge.start.subnet? with
  | none =>
    rw [hstart] at hholds
    exact hholds
  | some s =>
    rw [hstart] at hholds
    refine hholds.2 fun hreaches => horigin ?_
    have hi := start_mem hbuild hr (lane_edge hl)
    have hs : Policy.inSubnet s (f.packet.dstIp.eval v) := by
      rw [← eval_holdsOf]
      exact hreaches.subnet
    obtain rfl := hsubnet.only r (mem_routers hr).1 _ hi s hstart hs
    exact ⟨r, hr, _, hi, hsubnet.runs r (mem_routers hr).1 _ hi hstart, hstart⟩

end Origin

end Frame

/-! ## §4. OSPF routes -/

structure Record.IsOspfRoute (x : Record) (v : Valuation) (length metric : Int) : Prop where
  permits : x.permits.eval v
  length : (x.under v).number .prefixLength = some length
  metric : (x.under v).number .metric = some metric
  distance : ∀ n, (x.under v).number .adminDist = some n → n = Protocol.defaultDistance .ospf
  preference : ∀ n, (x.under v).number .localPref = some n → n = defaultLocalPref

theorem Comparing.metric_le {c : Comparing} {t : Term .bool} {j : Int} (h : c.isAtLeast x y = .ok t)
    (ht : t.eval v)
    (hties : ∀ a n, a ∈ [IntAttribute.prefixLength, .adminDist, .localPref] → (x.under v).number a = some n →
      n = ((y.under v).number a).getD (c.protocol.defaultNumber a))
    (hj : (x.under v).number .metric = some j) (hk : (y.under v).number .metric = some k) : j ≤ k := by
  obtain ⟨tie, -, rfl⟩ := isAtLeast_eq_ok.1 h
  -- a criterion on numbers that are the same does not decide
  have htied : ∀ a ∈ [IntAttribute.prefixLength, .adminDist, .localPref], ∀ lower rest,
      (decided (numberStep (x.int? a) (y.int? a) (c.protocol.defaultNumber a) lower :: rest)
        (decided [typeStep x y] (decided [internalStep x y] tie))).eval v →
      (decided rest (decided [typeStep x y] (decided [internalStep x y] tie))).eval v := by
    intro a ha lower rest hdecided
    rw [eval_decided_cons] at hdecided
    rcases hdecided with hbetter | ⟨-, hrest⟩
    · cases hx : x.int? a with
      | none =>
        rw [hx] at hbetter
        cases hbetter
      | some b =>
        rw [hx] at hbetter
        have hsame : b.eval v = ((y.int? a).map fun t => t.eval v).getD (c.protocol.defaultNumber a) :=
          hties a (b.eval v) ha (by show (x.int? a).map _ = _; rw [hx]; rfl)
        have hother : ((y.int? a).getD (.intLit (c.protocol.defaultNumber a))).eval v = b.eval v := by
          rw [hsame]
          cases y.int? a <;> rfl
        have hbefore := (numberStep_compares (v := v) b (y.int? a) (c.protocol.defaultNumber a) lower).better.1 hbetter
        rw [hother] at hbefore
        cases lower <;> exact absurd hbefore (Int.lt_irrefl _)
    · exact hrest
  have ht := htied .localPref (by simp) _ _ (htied .adminDist (by simp) _ _ (htied .prefixLength (by simp) _ _ ht))
  rw [map_cons, eval_decided_cons] at ht
  obtain ⟨b, hb, rfl⟩ := map_eq_some_iff.1 hj
  obtain ⟨d, hd, rfl⟩ := map_eq_some_iff.1 hk
  have hsteps := numberStep_compares (v := v) b (some d) 0 true
  rw [hb, hd] at ht
  rcases ht with hbetter | ⟨hequal, -⟩
  · exact Int.le_of_lt (hsteps.better.1 hbetter)
  · exact Int.le_of_eq (hsteps.equal.1 hequal)

namespace Frame

variable {len : Int}

theorem IsOspfRecord.length (h : f.IsOspfRecord x) : ∃ n, (x.under v).number .prefixLength = some n := by
  obtain ⟨label, router, p, history, -, rfl⟩ := h
  exact ⟨_, rfl⟩

theorem IsOspfRecord.localPref (h : f.IsOspfRecord x) :
    (x.under v).number .localPref = none ↔ f.plan.keepLocalPref = false := by
  obtain ⟨label, router, p, history, hp, rfl⟩ := h
  refine map_eq_none_iff.trans ?_
  rcases hp with rfl | rfl <;> exact Record.numberIf_eq_none

/-- A number that has its default value wherever it is told has it always. -/
theorem getD_of_forall {o : Option Int} {n : Int} (h : ∀ d, o = some d → d = n) : o.getD n = n := by
  cases o with
  | none => rfl
  | some d => exact h d rfl

theorem IsOspfRecord.getD_localPref (hx : f.IsOspfRecord x) (hy : f.IsOspfRecord y) (hroute : y.IsOspfRoute v len k)
    {n d : Int} (hn : (x.under v).number .localPref = some n) :
    ((y.under v).number .localPref).getD d = defaultLocalPref := by
  cases hyn : (y.under v).number .localPref with
  | none => cases hn.symm.trans ((hx.localPref (v := v)).2 (hy.localPref.1 hyn))
  | some d => exact hroute.preference d hyn

theorem isOspfRoute_of_originated (hx : f.IsOspfRecord x) {area cost : Document}
    (h : Slice.IsOriginated x v .ospf area cost len) : ∃ c, cost.integer = .ok c ∧ x.IsOspfRoute v len c := by
  obtain ⟨n, hn⟩ := hx.length (v := v)
  obtain ⟨c, hc⟩ := hx.metric (v := v)
  refine ⟨c, h.numbers .metric c hc, h.permits, ?_, hc, h.numbers .adminDist, h.numbers .localPref⟩
  rw [hn, show n = len from h.numbers .prefixLength n hn]

theorem bestOf_isOspfRecord (hplan : f.IsDecided basis)
    (honly : f.topology.IsOspfOnly) (hr : f.topology.router name = .ok r)
    (hx : (f.slice rs).bestOf name .ospf = .ok x) : f.IsOspfRecord x := by
  rw [slice_bestOf (mem_names hr) (ospf_mem_protocols hplan honly hr)] at hx
  cases hx
  split
  · exact overall_isOspfRecord name
  · exact ⟨_, _, _, _, .inl rfl, rfl⟩

theorem isOspfRoute_of_agrees (hx : f.IsOspfRecord x) (hy : f.IsOspfRecord y) (hpermits : x.permits.eval v)
    (h : (x.under v).Agrees .ospf (y.under v)) (hroute : y.IsOspfRoute v len k) : x.IsOspfRoute v len k := by
  obtain ⟨n, hn⟩ := hx.length (v := v)
  obtain ⟨c, hc⟩ := hx.metric (v := v)
  have hlength := h.number .prefixLength n (by decide) hn
  have hmetric := h.number .metric c (by decide) hc
  rw [hroute.length, getD_some] at hlength
  rw [hroute.metric, getD_some] at hmetric
  refine ⟨hpermits, hlength ▸ hn, hmetric ▸ hc, fun n hn => ?_, fun n hn => ?_⟩
  · exact (h.number .adminDist n (by decide) hn).trans (getD_of_forall hroute.distance)
  · exact (h.number .localPref n (by decide) hn).trans (hx.getD_localPref hy hroute hn)

/-- A transfer of OSPF adds to the metric and changes nothing else. -/
theorem isOspfRoute_of_conveys {t : Transfer} {cost : Int} (hto : t.toProtocol = .ospf) (hfrom : t.fromProtocol = .ospf)
    (ht : f.IsOspfRecord t.target) (h : t.Conveys v [] cost (t.source.under v))
    (hroute : t.source.IsOspfRoute v len k) : t.target.IsOspfRoute v len (k + cost) := by
  have hinternal : t.isInternal = false := by
    unfold Transfer.isInternal
    rw [hto]
    rfl
  obtain ⟨n, hn⟩ := ht.length (v := v)
  obtain ⟨c, hc⟩ := ht.metric (v := v)
  have hlength : n = ((t.source.under v).number .prefixLength).getD _ := h.number .prefixLength n hn
  have hmetric : c = ((t.source.under v).number .metric).getD _ + cost := h.number .metric c hc
  rw [hroute.length, getD_some] at hlength
  rw [hroute.metric] at hmetric
  refine ⟨h.permits.trans hroute.permits, hlength ▸ hn, hmetric ▸ hc, fun n hn => ?_, fun n hn => ?_⟩
  · have hsame : n = ((t.source.under v).number .adminDist).getD (t.fromProtocol.defaultDistance t.isInternal) :=
      h.number .adminDist n hn
    rw [hfrom] at hsame
    exact hsame.trans (getD_of_forall hroute.distance)
  · have hsame := h.number .localPref n hn
    unfold Transfer.sentNumber at hsame
    rw [hinternal] at hsame
    exact hsame

theorem isOspfRoute_of_takes (htakes : (f.slice rs).Takes v l m x) (hl : l ∈ f.allLanes)
    (hp : l.protocol = .ospf) (hroute : m.outgoing.IsOspfRoute v len k) : x.IsOspfRoute v len k := by
  rcases htakes.conveys with rfl | ⟨r, rfl, hconveys⟩
  · exact hroute
  · have htarget := incoming_isOspfRecord hl hp htakes.incoming
    rw [← Int.add_zero k]
    exact isOspfRoute_of_conveys hp hp htarget hconveys hroute

theorem exportTransfer_entering (hplan : f.IsDecided basis)
    (honly : f.topology.IsOspfOnly) (hr : f.topology.router name = .ok r) (best : Record) (m : Lane) :
    ((f.slice rs).exportTransfer r best m).entering v = best.under v := by
  obtain ⟨hmem, rfl⟩ := mem_routers hr
  refine Transfer.entering_eq (fun _ => ?_) rfl
  obtain ⟨d, hd, hdecides⟩ := hplan.router? hr
  show ((f.plan.router? r.name).map RouterPlan.aggregates).getD [] = []
  rw [hd, map_some, getD_some, hdecides.aggregates, honly.generatedRoutes r hmem, filter_nil]

/-! ## §5. Received routes follow paths -/

section Paths

variable (hbuild : Topology.build n selection = .ok f.topology)
  (hplan : f.IsDecided basis) (honly : f.topology.IsOspfOnly)
  (hsubnet : f.topology.IsOspfSubnet subnet (f.packet.dstIp.eval v))
include hbuild hplan honly hsubnet

theorem path_of_arrives (h : (f.slice rs).Arrives v l x) (hl : l ∈ f.allLanes) (hp : l.protocol = .ospf) :
    ∃ k, f.topology.Path subnet l.edge k ∧ x.IsOspfRoute v subnet.length k := by
  induction h with
  | originated htakes hsent hruns hmatch hroute =>
    obtain ⟨hm, hmp, -⟩ := mem_opposite htakes.opposite
    obtain ⟨hrouter, hlink⟩ := link_of_takes hbuild htakes hruns
    obtain ⟨rfl, horigin⟩ := originates_of_matching hsubnet hsent.router hsent.originated hmatch
    obtain ⟨c, hc, hroute⟩ := isOspfRoute_of_originated (outgoing_isOspfRecord hm (hmp.trans hp)) hroute
    exact ⟨c, .direct hlink (hrouter.symm ▸ horigin) (hsent.cost c hc), isOspfRoute_of_takes htakes hl hp hroute⟩
  | @forwarded l m m₀ l' x best y r subnets cost htakes hsent hruns hroot hc hconveys hl' hy hagrees _ ih =>
    obtain ⟨hrouter, hlink⟩ := link_of_takes hbuild htakes hruns
    obtain ⟨hl'mem, hl'router, hl'p⟩ := mem_lanesOf.1 hl'
    obtain ⟨k, hpath, hyroute⟩ := ih hl'mem hl'p
    -- the best route there is sent on at the cost of the interface
    have hpermits : m₀.outgoing.permits.eval v := by
      rw [hsent.record]
      exact htakes.sent
    obtain rfl := eq_overall (mem_names hsent.router) hsent.overall
    have hbest := isOspfRoute_of_agrees (overall_isOspfRecord m.router) (incoming_isOspfRecord hl'mem hl'p hy)
      (hconveys.permits.symm.trans hpermits) hagrees hyroute
    rw [exportTransfer_entering hplan honly hsent.router] at hconveys
    have hout := isOspfRoute_of_conveys hsent.protocol hsent.protocol
      (outgoing_isOspfRecord hsent.lane hsent.protocol) hconveys hbest
    have hmout : m.outgoing.IsOspfRoute v subnet.length (k + cost) := hsent.record ▸ hout
    have hpasses : ¬ f.topology.Originates subnet m.edge.router := by
      intro horigin
      rw [hrouter] at horigin
      exact matching_ne_nil hsubnet hsent.router hsent.originated horigin hroot
    have hedge : l'.edge ∈ f.topology.edges m.edge.router := by
      rw [hrouter, ← hl'router]
      exact lane_edge hl'mem
    exact ⟨k + cost, .hop hlink hpasses hedge hpath (hsent.cost cost hc), isOspfRoute_of_takes htakes hl hp hmout⟩

variable (hredistributions : f.redistributions = .ok rs) (h : (f.slice rs).IsState basis.failures v)
include hredistributions h

/-- **Every received OSPF route came over a path that costs its metric.** -/
theorem path_of_permits (hl : l ∈ f.allLanes) (hp : l.protocol = .ospf)
    (hx : (f.slice rs).incoming l = .ok x) (hpermits : x.permits.eval v) :
    ∃ k, f.topology.Path subnet l.edge k ∧ x.IsOspfRoute v subnet.length k :=
  path_of_arrives hbuild hplan honly hsubnet
    (arrives_of_permits hbuild honly.spreads hredistributions hplan h hl hp hx hpermits) hl hp

/-! ## §6. Best routes -/

theorem bestOf_ospf (hr : f.topology.router name = .ok r) : ∃ b, (f.slice rs).bestOf name .ospf = .ok b ∧
    (b.permits.eval v → ∃ l ∈ (f.slice rs).lanesOf name .ospf, ∃ k, k ≤ 65535 ∧
      f.topology.Path subnet l.edge k ∧ b.IsOspfRoute v subnet.length k) ∧
    ∀ l ∈ (f.slice rs).lanesOf name .ospf, ∃ x, (f.slice rs).incoming l = .ok x ∧
      (x.permits.eval v → ∃ j k, b.IsOspfRoute v subnet.length j ∧ x.IsOspfRoute v subnet.length k ∧ j ≤ k) := by
  obtain ⟨hmem, rfl⟩ := mem_routers hr
  have hospf := ospf_mem_protocols hplan honly hr
  obtain ⟨b, hb, hall, hbest⟩ := h.selection.perProtocol r hmem .ospf hospf
  have hbrecord := bestOf_isOspfRecord hplan honly hr hb
  have hroute : b.permits.eval v → ∃ l ∈ (f.slice rs).lanesOf r.name .ospf, ∃ k, k ≤ 65535 ∧
      f.topology.Path subnet l.edge k ∧ b.IsOspfRoute v subnet.length k := by
    intro hbv
    obtain ⟨l, hl, y, hy, hyv, hagrees, -⟩ := best_agrees hplan h.selection hr hospf hb hbv
    obtain ⟨hlmem, -, hlp⟩ := mem_lanesOf.1 hl
    obtain ⟨k, hpath, hyroute⟩ := path_of_permits hbuild hplan honly hsubnet hredistributions h hlmem hlp hy hyv
    have hrange : 0 ≤ k ∧ k < 65536 := (h.records y (incoming_mem hlmem hy)).numbers .metric k hyroute.metric
    exact ⟨l, hl, k, by omega, hpath,
      isOspfRoute_of_agrees hbrecord (incoming_isOspfRecord hlmem hlp hy) hbv hagrees hyroute⟩
  refine ⟨b, hb, hroute, fun l hl => ?_⟩
  obtain ⟨x, hx⟩ := hall l hl
  refine ⟨x, hx, fun hxv => ?_⟩
  obtain ⟨hlmem, -, hlp⟩ := mem_lanesOf.1 hl
  obtain ⟨k, -, hxroute⟩ := path_of_permits hbuild hplan honly hsubnet hredistributions h hlmem hlp hx hxv
  have himported : (f.slice rs).imported r .ospf ((f.slice rs).comparing r .ospf (some l)) x :=
    ⟨l, hl, hx, rfl⟩
  obtain ⟨-, -, j, -, -, hbroute⟩ := hroute (hbest.permits.2 ⟨_, x, himported, hxv⟩)
  obtain ⟨t, ht, htv⟩ := hbest.beats _ x himported hxv
  have hxrecord := incoming_isOspfRecord hlmem hlp hx
  refine ⟨j, k, hbroute, hxroute, Comparing.metric_le ht htv (fun a n ha hn => ?_) hbroute.metric hxroute.metric⟩
  -- all that is compared before is the same for OSPF routes
  rcases mem_cons.1 ha with rfl | ha
  · rw [hxroute.length]
    exact Option.some.inj (hn.symm.trans hbroute.length)
  rcases mem_cons.1 ha with rfl | ha
  · exact (hbroute.distance n hn).trans (getD_of_forall hxroute.distance).symm
  · obtain rfl := mem_singleton.1 ha
    exact (hbroute.preference n hn).trans (hbrecord.getD_localPref hxrecord hxroute hn).symm

omit hredistributions in
theorem overall_ospf (hr : f.topology.router name = .ok r) (horigin : ¬ f.topology.Originates subnet name) {b : Record}
    (hb : (f.slice rs).bestOf name .ospf = .ok b) (hroute : b.IsOspfRoute v subnet.length k) :
    (f.bestRecord name "OVERALL" .best).IsOspfRoute v subnet.length k ∧
      (f.bestRecord name "OVERALL" .best).IsFrom v .ospf := by
  have hpermits := overall_permits h.selection hr (ospf_mem_protocols hplan honly hr) hb hroute.permits
  obtain ⟨p, hp, b', hb', hb'v, hagrees, hfrom, -⟩ := overall_agrees hplan h.selection hr hpermits
  rcases protocols_of_ospfOnly hplan honly hr hp with rfl | rfl
  · cases hb.symm.trans hb'
    have hbrecord := bestOf_isOspfRecord hplan honly hr hb
    exact ⟨isOspfRoute_of_agrees (overall_isOspfRecord name) hbrecord hpermits hagrees hroute, hfrom⟩
  · -- there is no connected route
    obtain ⟨l, hl, y, hy, hyv, -⟩ := best_agrees hplan h.selection hr hp hb' hb'v
    obtain ⟨hlmem, hrouter, hlp⟩ := mem_lanesOf.1 hl
    have hsilent := connected_silent hsubnet hbuild hplan h.transfers hlmem hlp (hrouter.symm ▸ horigin) hy
    cases hyv.symm.trans hsilent

/-! ## §7. Paths bring routes -/

/-- **Every path that is not too long brings a route that costs no more.** -/
theorem receives_of_path (hup : ∀ name, ∀ e ∈ f.topology.edges name, (f.notFailed e).eval v) {d : Edge} {c : Int}
    (hpath : f.topology.Path subnet d c) (hc : c ≤ 65535) (hl : l ∈ f.allLanes) (hp : l.protocol = .ospf)
    (hedge : l.edge = d) (horigin : ¬ f.topology.Originates subnet l.router) :
    ∃ x k, (f.slice rs).incoming l = .ok x ∧ x.IsOspfRoute v subnet.length k ∧ k ≤ c := by
  -- what is sent to the router is received
  have hreceived : ∀ {l m : Lane} {k : Int}, l ∈ f.allLanes → l.protocol = .ospf →
      ¬ f.topology.Originates subnet l.router → (f.slice rs).opposite? l = some m →
      l.edge.start.runsOspf → m.outgoing.IsOspfRoute v subnet.length k → k ≤ 65535 →
      ∃ x, (f.slice rs).incoming l = .ok x ∧ x.IsOspfRoute v subnet.length k := by
    intro l m k hl hp horigin hm hruns hroute hk
    obtain ⟨r, hr, -, hmem, -⟩ := lanesHold_of_mem hplan h.transfers hl
    obtain ⟨b, -, -, hall⟩ := bestOf_ospf hbuild hplan honly hsubnet hredistributions h hr
    obtain ⟨x, hx, -⟩ := hall l (mem_lanesOf.2 ⟨hl, rfl, hp⟩)
    have hroot : ∀ r subnets, f.topology.router l.router = .ok r → r.originated .ospf = .ok subnets →
        (f.packet.isBoundFor subnets).eval v = false := by
      intro r subnets hr hsubnets
      exact (Slice.matching_eq_nil (s := f.slice rs)).1 (matching_eq_nil hsubnet hr hsubnets horigin)
    have htakes := takes_of_sent hplan h.transfers hl hp hx hm hruns (hup _ _ (lane_edge hl)) hroot hroute.permits
      hroute.metric hk
    exact ⟨x, hx, isOspfRoute_of_takes htakes hl hp hroute⟩
  induction hpath generalizing l with
  | @direct e back c hlink hroot hcost =>
    subst hedge
    obtain ⟨m, hmem, hm, hmp, hmrouter, rfl⟩ := opposite_of_link rs hbuild hplan honly hp hlink
    obtain ⟨r, subnets, best, m₀, hsent⟩ := sentBy hplan h.transfers hmem hmp
    have hroute := hsent.sent hlink.far
    cases hlast : ((f.slice rs).matching subnets v).getLast? with
    | none =>
      rw [← hmrouter] at hroot
      exact absurd (getLast?_eq_none_iff.1 hlast) (matching_ne_nil hsubnet hsent.router hsent.originated hroot)
    | some s =>
      rw [hlast] at hroute
      obtain ⟨rfl, -⟩ := originates_of_matching hsubnet hsent.router hsent.originated (mem_of_getLast? hlast)
      obtain ⟨c', hc', hroute⟩ := isOspfRoute_of_originated (outgoing_isOspfRecord hmem hmp) hroute
      obtain rfl := Document.Means.unique hcost (hsent.cost c' hc')
      obtain ⟨x, hx, hxroute⟩ := hreceived hl hp horigin hm hlink.near hroute hc
      exact ⟨x, c, hx, hxroute, Int.le_refl c⟩
  | @hop e back d m c hlink hpasses hd _ hcost ih =>
    subst hedge
    obtain ⟨k, hmem, hk, hkp, hkrouter, rfl⟩ := opposite_of_link rs hbuild hplan honly hp hlink
    obtain ⟨r, subnets, best, m₀, hsent⟩ := sentBy hplan h.transfers hmem hkp
    rw [← hkrouter] at hpasses hd
    have hroot : (f.slice rs).matching subnets v = [] :=
      matching_eq_nil hsubnet hsent.router hsent.originated hpasses
    obtain ⟨c₁, hc₁, hmeans⟩ := honly.cost r (mem_routers hsent.router).1 _
      (start_mem hbuild hsent.router (lane_edge hmem)) hlink.far
    obtain rfl := Document.Means.unique hcost hmeans
    -- the best route there costs no more than what the rest of the path brings
    obtain ⟨l', hl', hl'edge⟩ : ∃ l' ∈ (f.slice rs).lanesOf k.router .ospf, l'.edge = d :=
      ospfLane_of_edge hplan honly hsent.router hd
    obtain ⟨hl'mem, hl'router, hl'p⟩ := mem_lanesOf.1 hl'
    obtain ⟨y, j, hy, hyroute, hj⟩ := ih (by omega) hl'mem hl'p hl'edge (hl'router.symm ▸ hpasses)
    obtain ⟨b, hb, -, hall⟩ := bestOf_ospf hbuild hplan honly hsubnet hredistributions h hsent.router
    obtain ⟨y', hy', hbetter⟩ := hall l' hl'
    cases hy.symm.trans hy'
    obtain ⟨i, j', hbroute, hyroute', hij⟩ := hbetter hyroute.permits
    cases hyroute.metric.symm.trans hyroute'.metric
    obtain ⟨horoute, hfrom⟩ := overall_ospf hbuild hplan honly hsubnet h hsent.router hpasses hb hbroute
    -- it is sent on, as its metric fits
    obtain rfl := eq_overall (mem_names hsent.router) hsent.overall
    obtain ⟨c₀, hc₀, hsends⟩ :=
      hsent.forwards (sourcesOf_ospf honly.spreads hredistributions hsent.router) hlink.far hroot
        (honly.spreads.policy r (mem_routers hsent.router).1) (hup _ _ (lane_edge hsent.lane)) horoute.permits hfrom
    obtain rfl := Document.Means.unique hcost (hsent.cost c₀ hc₀)
    have hconveys := hsends.conveys fun limit hlimit => by
      have hlimit : m₀.protocol.maxMetric? = some limit := hlimit
      rw [hsent.protocol] at hlimit
      cases hlimit
      rw [exportTransfer_entering hplan honly hsent.router]
      show (((f.bestRecord k.router "OVERALL" .best).under v).number .metric).getD _ + c ≤ 65535
      rw [horoute.metric, getD_some]
      omega
    rw [exportTransfer_entering hplan honly hsent.router] at hconveys
    have hout := isOspfRoute_of_conveys hsent.protocol hsent.protocol
      (outgoing_isOspfRecord hsent.lane hsent.protocol) hconveys horoute
    have hkout : k.outgoing.IsOspfRoute v subnet.length (i + c) := hsent.record ▸ hout
    obtain ⟨x, hx, hxroute⟩ := hreceived hl hp horigin hk hlink.near hkout (by omega)
    exact ⟨x, i + c, hx, hxroute, by omega⟩

end Paths

end Frame

/-! ## §8. Shortest paths -/

/-- A route of a router is one over a shortest path to a subnet.  It exists exactly when there is a path that is not
too long, its metric is the least cost of a path, and the control plane only forwards to where a shortest path is. -/
structure Slice.IsShortest (s : Slice) (v : Valuation) (subnet : Subnet) (name : Name) (best : Record) : Prop where
  permits : best.permits.eval v ↔ ∃ d ∈ s.topology.edges name, ∃ c, c ≤ 65535 ∧ s.topology.Path subnet d c
  metric : best.permits.eval v → ∃ c, (best.under v).number .metric = some c ∧
    (∃ d ∈ s.topology.edges name, s.topology.Path subnet d c) ∧
    ∀ d ∈ s.topology.edges name, ∀ c', s.topology.Path subnet d c' → c ≤ c'
  forwards : ∀ d ∈ s.topology.edges name, (s.controlForwarding d).eval v → best.permits.eval v ∧
    ∃ c, (best.under v).number .metric = some c ∧ s.topology.Path subnet d c

/-- **OSPF finds shortest paths.**  In a network that only runs OSPF, where no link may fail, the best OSPF route of a
router that does not originate the destination is one over a shortest path. -/
theorem Encoding.ospf_isShortest {n : Network} {req : Request} {e : Encoding} {v : Valuation} {name : Name} {r : Router}
    {subnet : Subnet} (he : (Encoding.encode n req).result = .ok e) (hv : v.Satisfies e.ledger)
    (hfailures : req.failures.isPositive = .ok false) (honly : e.slice.topology.IsOspfOnly)
    (hsubnet : e.slice.topology.IsOspfSubnet subnet (e.slice.packet.dstIp.eval v))
    (hr : e.slice.topology.router name = .ok r) (horigin : ¬ e.slice.topology.Originates subnet name) :
    ∃ best, e.slice.bestOf name .ospf = .ok best ∧ e.slice.IsShortest v subnet name best := by
  obtain ⟨f, rs, hof⟩ := Encoding.encode_isOf he
  obtain ⟨encoded, hplan⟩ := Frame.isDecided hof.plan
  obtain ⟨n', hbuild⟩ := topologyOf_ok hof.topology
  have hstate := hof.sound v hv
  rw [hof.slice] at honly hsubnet hr horigin hstate ⊢
  have hup : ∀ name, ∀ d ∈ f.topology.edges name, (f.notFailed d).eval v := fun name d hd =>
    (Term.eval_is v _ 0).2 (hstate.not_failed hfailures hof.bounded hd)
  obtain ⟨best, hbest, hroute, hall⟩ := bestOf_ospf hbuild hplan honly hsubnet hof.redistributions hstate hr
  -- a path brings a route, and the best one is no worse
  have hreach : ∀ d ∈ f.topology.edges name, ∀ c, c ≤ 65535 → f.topology.Path subnet d c →
      ∃ j, best.IsOspfRoute v subnet.length j ∧ j ≤ c := by
    intro d hd c hc hpath
    obtain ⟨l, hl, hedge⟩ : ∃ l ∈ (f.slice rs).lanesOf name .ospf, l.edge = d :=
      ospfLane_of_edge hplan honly hr hd
    obtain ⟨hlmem, hrouter, hp⟩ := mem_lanesOf.1 hl
    obtain ⟨x, k, hx, hxroute, hk⟩ := receives_of_path hbuild hplan honly hsubnet hof.redistributions hstate hup
      hpath hc hlmem hp hedge (hrouter.symm ▸ horigin)
    obtain ⟨x', hx', hbetter⟩ := hall l hl
    cases hx.symm.trans hx'
    obtain ⟨j, k', hj, hk', hle⟩ := hbetter hxroute.permits
    cases hxroute.metric.symm.trans hk'.metric
    exact ⟨j, hj, Int.le_trans hle hk⟩
  refine ⟨best, hbest, ⟨fun hpermits => ?_, ?_⟩, fun hpermits => ?_, fun d hd hforwards => ?_⟩
  · obtain ⟨l, hl, k, hk, hpath, -⟩ := hroute hpermits
    obtain ⟨hlmem, hrouter, -⟩ := mem_lanesOf.1 hl
    exact ⟨l.edge, hrouter ▸ lane_edge hlmem, k, hk, hpath⟩
  · rintro ⟨d, hd, c, hc, hpath⟩
    obtain ⟨j, hj, -⟩ := hreach d hd c hc hpath
    exact hj.permits
  · obtain ⟨l, hl, k, hk, hpath, hkroute⟩ := hroute hpermits
    obtain ⟨hlmem, hrouter, -⟩ := mem_lanesOf.1 hl
    refine ⟨k, hkroute.metric, ⟨l.edge, hrouter ▸ lane_edge hlmem, hpath⟩, fun d hd c hpath => ?_⟩
    by_cases hc : c ≤ 65535
    · obtain ⟨j, hj, hle⟩ := hreach d hd c hc hpath
      cases hkroute.metric.symm.trans hj.metric
      exact hle
    · omega
  · -- the edge is chosen for an OSPF route, as there is no connected one
    obtain ⟨hmem, rfl⟩ := mem_routers hr
    obtain ⟨p, hp, l, hl, hbeq, hchoice, -⟩ := (hstate.selection.control r hmem d hd).1 hforwards
    obtain ⟨b, hb, -⟩ := hstate.selection.perProtocol r hmem p hp
    obtain ⟨x, hx, hxv, hagrees⟩ := chosen_agrees hplan hstate.selection hr hp hb hl hchoice
    obtain ⟨hlmem, hrouter, hlp⟩ := mem_lanesOf.1 hl
    rcases protocols_of_ospfOnly hplan honly hr hp with rfl | rfl
    · cases hbest.symm.trans hb
      obtain ⟨k, hpath, hxroute⟩ := path_of_permits hbuild hplan honly hsubnet hof.redistributions hstate hlmem
        hlp hx hxv
      obtain ⟨x', hx', hbetter⟩ := hall l hl
      cases hx.symm.trans hx'
      obtain ⟨j, -, hj, -⟩ := hbetter hxv
      have hsame := hagrees.number .metric j (by decide) hj.metric
      rw [hxroute.metric, Option.getD_some] at hsame
      obtain rfl := edge_ext hbuild honly.interfaces (hrouter ▸ lane_edge hlmem) hd (beq_iff.1 hbeq)
      exact ⟨hj.permits, j, hj.metric, hsame ▸ hpath⟩
    · have hsilent := connected_silent hsubnet hbuild hplan hstate.transfers hlmem hlp (hrouter.symm ▸ horigin) hx
      cases hxv.symm.trans hsilent

namespace Encoding

/-- Three routers, each linked to the others.  `B` has a network of its own, which is reached from `A` at a cost of 9
over the direct link and at a cost of 5 through `C`. -/
def triangleNetwork : Network where
  routers := [
    { name := .text "A"
      interfaces := [.ospfPort "b" (.ofOctets 10 0 0 1 30), .ospfPort "c" (.ofOctets 10 0 0 5 30)]
      ospf := some {} },
    { name := .text "B"
      interfaces := [.ospfPort "a" (.ofOctets 10 0 0 2 30) 9, .ospfPort "c" (.ofOctets 10 0 0 9 30) 2,
        .ospfPort "lan" (.ofOctets 10 9 0 1 24)]
      ospf := some {} },
    { name := .text "C"
      interfaces := [.ospfPort "a" (.ofOctets 10 0 0 6 30) 3, .ospfPort "b" (.ofOctets 10 0 0 10 30)]
      ospf := some {} }]
  links := [.cable "A" "b" "B" "a", .cable "B" "c" "C" "b", .cable "A" "c" "C" "a"]

/-- The network of `B`. -/
def triangleSubnet : Subnet := .ofOctets 10 9 0 0 24

/-- Packets to the network of `B`. -/
def triangleRequest : Request where
  space := { dstIps := [triangleSubnet] }

/-- The routes to the network of `B`. -/
def triangleState : Valuation where
  bool name :=
    ["control-forwarding_A_c", "data-forwarding_A_c", "control-forwarding_B_lan", "data-forwarding_B_lan",
      "control-forwarding_C_b", "data-forwarding_C_b", "A_OSPF_c_IMPORT_choice", "C_OSPF_b_IMPORT_choice",
      "B_CONNECTED_lan_IMPORT_choice", "A_OVERALL_none_BEST_permitted", "B_OVERALL_none_BEST_permitted",
      "C_OVERALL_none_BEST_permitted", "B_CONNECTED_none_BEST_permitted", "B_CONNECTED_lan_IMPORT_permitted",
      "A_OSPF__SINGLE-EXPORT_permitted", "B_OSPF_a_EXPORT_permitted", "B_OSPF_c_EXPORT_permitted",
      "B_OSPF_lan_EXPORT_permitted", "C_OSPF_a_EXPORT_permitted", "C_OSPF_b_EXPORT_permitted", "SSA_RETURN1",
      "SSA_RETURN3", "SSA_RETURN4", "SSA_RETURN5", "SSA_RETURN6", "SSA_RETURN7", "SSA_RETURN11", "SSA_RETURN12",
      "SSA_RETURN13", "SSA_RETURN17", "SSA_RETURN21", "SSA_RETURN23", "SSA_RETURN24", "SSA_RETURN25", "SSA_RETURN27",
      "SSA_RETURN28"].contains (name.drop 11).toString
  int name :=
    ([("dst-ip", 168361989), ("A_OVERALL_none_BEST_metric", 5), ("C_OVERALL_none_BEST_metric", 2),
      ("A_OSPF__SINGLE-EXPORT_metric", 6), ("B_OSPF_a_EXPORT_metric", 9), ("B_OSPF_c_EXPORT_metric", 2),
      ("B_OSPF_lan_EXPORT_metric", 1), ("C_OSPF_a_EXPORT_metric", 5), ("C_OSPF_b_EXPORT_metric", 3),
      ("A_OVERALL_none_BEST_prefixLength", 24), ("B_OVERALL_none_BEST_prefixLength", 24),
      ("C_OVERALL_none_BEST_prefixLength", 24), ("B_CONNECTED_none_BEST_prefixLength", 24),
      ("B_CONNECTED_lan_IMPORT_prefixLength", 24), ("A_OSPF__SINGLE-EXPORT_prefixLength", 24),
      ("B_OSPF_a_EXPORT_prefixLength", 24), ("B_OSPF_c_EXPORT_prefixLength", 24),
      ("B_OSPF_lan_EXPORT_prefixLength", 24), ("C_OSPF_a_EXPORT_prefixLength", 24),
      ("C_OSPF_b_EXPORT_prefixLength", 24)].lookup (name.drop 11).toString).getD 0
  bits name := if Text.occursIn "OSPF" name then 0 else 1

/-- Whether `triangleState` is a state of an encoding of such a network in which `A` has a route at a cost of 5. -/
def isTriangleState (e : Encoding) : Bool :=
  e.ledger.required.all (fun c => c.eval triangleState) && e.slice.topology.onlyRunsOspf &&
    decide (e.slice.topology.IsOspfSubnet triangleSubnet (e.slice.packet.dstIp.eval triangleState)) &&
    (e.slice.topology.router (.text "A")).toOption.isSome &&
    !decide (e.slice.topology.Originates triangleSubnet (.text "A")) &&
    (e.slice.bestOf (.text "A") .ospf).toOption.any fun best =>
      best.permits.eval triangleState && decide ((best.under triangleState).number .metric = some 5)

theorem triangle_ospf_isShortest : ∃ e best, (encode triangleNetwork triangleRequest).result = .ok e ∧
    triangleState.Satisfies e.ledger ∧ e.slice.bestOf (.text "A") .ospf = .ok best ∧
    e.slice.IsShortest triangleState triangleSubnet (.text "A") best ∧
    ∃ d ∈ e.slice.topology.edges (.text "A"), e.slice.topology.Path triangleSubnet d 5 := by
  have htriangle : ((encode triangleNetwork triangleRequest).result.toOption.any isTriangleState) := by
    decide +kernel
  cases he : (encode triangleNetwork triangleRequest).result with
  | error f =>
    rw [he] at htriangle
    cases htriangle
  | ok e =>
    rw [he] at htriangle
    have htriangle : isTriangleState e := htriangle
    simp only [isTriangleState, and_eq_true, List.all_eq_true, decide_eq_true_eq, not_eq_true',
      decide_eq_false_iff_not] at htriangle
    obtain ⟨⟨⟨⟨⟨hv, honly⟩, hsubnet⟩, hrouter⟩, horigin⟩, hmetric⟩ := htriangle
    cases hr : e.slice.topology.router (.text "A") with
    | error f =>
      rw [hr] at hrouter
      cases hrouter
    | ok r =>
      obtain ⟨best, hbest, hshortest⟩ := ospf_isShortest he hv rfl (isOspfOnly_of_onlyRunsOspf honly) hsubnet
        hr horigin
      rw [hbest] at hmetric
      obtain ⟨hpermits, hfive⟩ := and_eq_true_iff.1 hmetric
      obtain ⟨c, hc, hpath, -⟩ := hshortest.metric hpermits
      obtain rfl := Option.some.inj (hc.symm.trans (of_decide_eq_true hfive))
      exact ⟨e, best, rfl, hv, hbest, hshortest, hpath⟩

end Encoding

end ControlPlane
