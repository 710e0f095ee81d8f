import ControlPlane.Proofs.Slice.MergedImports

/-!
# Exports that share a record

The exports of a protocol share one record where they are taken to say the same: it holds what the first active lane
sends.  Sessions, costs and areas are compared for this, but of export policies only the shape is, and whether the
interfaces are active is not.  The communities of a route that the router originates are left open, so that records of
their own may differ there.  Sharing is exact where the lanes agree on all of this (`Slice.SendsAlike`).
-/
namespace ControlPlane

open List Record Slice Topology

variable {p : Protocol} {s : Slice} {name : String} {r : Router} {best x y : Record} {subnets : List Subnet}
  {l m l' m' : Lane} {v w : Valuation} {failures : Document} {encoded encoded' : List (Name × List Protocol)}
  {plan : Plan} {f : Frame} {rs : List Redistribution} {switches switches' : Switches}

/-! ## §1. Sent values -/

namespace Slice

variable {dependencies : List (Community × List Community)}

theorem IsOriginated.sameValues {area area' cost : Document} {length : Int} (hform : x.SameForm y)
    (harea : y.ospfArea = none) (hhistory : y.history = none) (hid : y.routerId = none) (hx : x.HoldsType)
    (hy : y.HoldsType) (hcommunities : y.communities = []) (h : IsOriginated x v p area cost length)
    (h' : IsOriginated y v p area' cost length) : x.SameValues v v y := by
  refine sameValues_of_values hform harea hhistory hx hy (h.permits.trans h'.permits.symm)
    (fun a n m hn hm => ?_) (fun hs => ?_) (fun b c hb hc => ?_) fun e _ e' he' _ => ?_
  · have hone := h.numbers a n hn
    have hother := h'.numbers a m hm
    cases a with
    | metric => exact Except.ok.inj (hone.symm.trans hother)
    | routerId =>
      have hm : y.routerId.map _ = some m := hm
      rw [hid] at hm
      cases hm
    | prefixLength | adminDist | localPref | med => exact hone.trans hother.symm
  · rw [h.type hs, h'.type (hform.ospfType_isSome ▸ hs)]
  · rw [h.internal b hb, h'.internal c hc]
  · rw [hcommunities] at he'
    cases he'

section Unique

variable (hform : l.outgoing.SameForm y) (harea : y.ospfArea = none) (hhistory : y.history = none)
  (hx : l.outgoing.HoldsType) (hy : y.HoldsType) (hvalid : l.outgoing.IsValid dependencies v)
  (hvalid' : y.IsValid dependencies v) (hdeps : ∀ c d, d ∈ (dependencies.lookup c).getD [] → d.kind ≠ .regex)
include hform harea hhistory hx hy hvalid hvalid' hdeps

theorem SendsBest.sameValues (h : s.SendsBest r best l v) (h' : s.SendsBest r best { l with outgoing := y } v) :
    l.outgoing.SameValues v v y := by
  have hsilent : l.outgoing.permits.eval v = false → y.permits.eval v = false → l.outgoing.SameValues v v y :=
    fun hp hp' => sameValues_of_rests hform harea hhistory hx hy hp hp' hvalid hvalid'
  obtain ⟨policy, hpolicy, hyes, hno⟩ := h
  obtain ⟨policy', hpolicy', hyes', hno'⟩ := h'
  cases hpolicy.symm.trans hpolicy'
  by_cases hsends : s.Sends best l v
  · obtain ⟨z, cost, hz, hcost, hdelivers⟩ := hyes hsends
    obtain ⟨z', cost', hz', hcost', hdelivers'⟩ := hyes' ⟨hsends.may, hsends.permits, hsends.link, hsends.source⟩
    cases hz.symm.trans hz'
    cases hcost.symm.trans hcost'
    cases haccepts : z.1.value with
    | false => exact hsilent (hdelivers.rejects haccepts) (hdelivers'.rejects haccepts)
    | true =>
      by_cases hfits : (s.exportTransfer r best l).Fits ((s.exportTransfer r best l).sentMetric v cost z.2.route)
      · exact (hdelivers.conveys haccepts hfits).sameValues (hdelivers'.conveys haccepts hfits) hform harea hhistory hx
          hy hdeps hvalid hvalid' rfl (fun _ => rfl) Iff.rfl rfl rfl
      · exact hsilent (hdelivers.overflows haccepts hfits) (hdelivers'.overflows haccepts hfits)
  · exact hsilent (hno hsends) (hno' fun h => hsends ⟨h.may, h.permits, h.link, h.source⟩)

/-- **What is sent over a lane fixes the values of its record**, unless the router originates the destination and
the record has communities, which are left open then. -/
theorem exportHolds_unique (hid : y.routerId = none) (horigin : s.matching subnets v = [] ∨ y.communities = [])
    (h : s.ExportHolds r best subnets l v) (h' : s.ExportHolds r best subnets { l with outgoing := y } v) :
    l.outgoing.SameValues v v y := by
  unfold ExportHolds at h h'
  split at h
  next hlocal =>
    rw [if_pos hlocal] at h'
    exact sameValues_of_rests hform harea hhistory hx hy h h' hvalid hvalid'
  next hlocal =>
    rw [if_neg hlocal] at h'
    cases hlast : (s.matching subnets v).getLast? with
    | none =>
      rw [hlast] at h h'
      exact h.sameValues hform harea hhistory hx hy hvalid hvalid' hdeps h'
    | some subnet =>
      rw [hlast] at h h'
      have hcommunities : y.communities = [] := by
        refine horigin.resolve_left fun hnil => ?_
        rw [hnil] at hlast
        cases hlast
      exact IsOriginated.sameValues hform harea hhistory hid hx hy hcommunities h h'

end Unique

end Slice

/-! ## §2. Lanes that send the same -/

namespace Slice

structure SendsSame (s : Slice) (l m : Lane) : Prop where
  router : l.router = m.router
  protocol : l.protocol = m.protocol
  active : Topology.isActive l.protocol l.edge.start = Topology.isActive m.protocol m.edge.start
  policy : ∀ r, s.topology.router l.router = .ok r →
    (s.topology.exportPolicy r l.protocol l.edge).map (exportStatements l.protocol) =
      (s.topology.exportPolicy r m.protocol m.edge).map (exportStatements m.protocol)
  cost : (addedCost l.protocol l.edge).integer = (addedCost m.protocol m.edge).integer
  session : s.isInternalLane l = s.isInternalLane m
  communities : s.sendsCommunities l = s.sendsCommunities m

theorem SendsSame.sending (h : s.SendsSame l m) (best : Record) : (s.sending best l).1 = (s.sending best m).1 ∧
    (s.sending best l).2.integer = (s.sending best m).2.integer := by
  have hcost := h.cost
  have hsession := h.session
  unfold Slice.sending isInternalLane at *
  rw [← h.protocol] at hcost hsession ⊢
  cases hp : l.protocol with
  | bgp =>
    rw [hp] at hcost hsession
    have hsession : s.topology.isInternal l.edge = s.topology.isInternal m.edge := hsession
    rw [← hsession]
    cases s.topology.isInternal l.edge with
    | false => exact ⟨rfl, hcost⟩
    | true =>
      cases best.bgpInternal with
      | none => exact ⟨rfl, hcost⟩
      | some internal => exact ⟨rfl, rfl⟩
  | connected | static | ospf | best =>
    rw [hp] at hcost
    exact ⟨rfl, hcost⟩

theorem SendsSame.alike (h : s.SendsSame l m) (hr : s.topology.router l.router = .ok r)
    (hlink : (s.notFailed l.edge).eval v = (s.notFailed m.edge).eval v) (htype : l.outgoing.ospfType.isSome →
      best.ospfArea = none) (harea : l.outgoing.ospfArea = none) (hy : l.outgoing.SameValues v v y) :
    ExportAlike v v s s r best best l { m with outgoing := y } where
  protocol := h.protocol
  destination := rfl
  active := h.active
  policy := h.policy r hr
  may := congrArg (Term.eval v) (h.sending best).1
  cost := (h.sending best).2
  link := hlink
  guard := by
    rw [h.router, h.protocol]
  source := rfl
  target := hy
  area htells := by
    rcases htells with ⟨hsome, htold⟩ | htold
    · rw [htype hsome] at htold
      cases htold
    · rw [harea] at htold
      cases htold
  isInternal := h.session
  sendsCommunity := h.communities
  aggregates := rfl
  suppressed := rfl

end Slice

/-! ## §3. Plans in which exports have records -/

namespace Plan

variable {s s' : Switches} {t : Topology} {space : HeaderSpace} {plan' : Plan}

def OwnExports (q q' : ProtocolPlan) : Prop := q'.mergesExport = false ∧ q.mergedImports = q'.mergedImports

theorem alike_ownExports (h : Decides s t space failures encoded plan)
    (h' : Decides s' t space failures encoded' plan') (hslicing : s.slicing = s'.slicing)
    (himport : s.importExportMerge = s'.importExportMerge) (hoff : s'.exportMerge = false) :
    plan.Alike OwnExports plan' := by
  refine h.alike h' hslicing fun r p q q' hq hq' => ⟨?_, ?_⟩
  · have hcan := hq'.mergesExport
    unfold canMergeExport at hcan
    rw [hoff] at hcan
    exact (Except.ok.inj hcan).symm
  · have hmerged := hq.mergedImports
    unfold computeMergedImports at hmerged
    rw [himport] at hmerged
    exact Except.ok.inj (hmerged.symm.trans hq'.mergedImports)

end Plan

namespace Frame

theorem mergesExport_ownExports (h : f.plan.Alike Plan.OwnExports plan) (name : Name) (p : Protocol) :
    ((f.withPlan plan).slice rs).mergesExport name p = false := by
  rw [mergesExport_planFor]
  cases hq : ((f.withPlan plan).planFor name).protocol? p with
  | none => rfl
  | some q' =>
    obtain ⟨q, -, hqq⟩ := forall₂_mem_right (planFor_alike h name).protocols (mem_of_find?_eq_some hq)
    exact hqq.shares.1

namespace Mates

variable (hl : Mates Plan.OwnExports f plan l l') (h : f.plan.Alike Plan.OwnExports plan)
include hl h

theorem incoming_same : l'.incoming = l.incoming := by
  obtain ⟨-, router, q, q', e, hq, rfl, rfl⟩ := hl
  show (f.withPlan plan).importRecord router q' e = f.importRecord router q e
  unfold importRecord
  rw [← hq.shares.2, ← hq.protocol]
  split
  · rfl
  · rw [planned_alike h]
    rfl

theorem outgoing_own : ∃ label, l'.outgoing = .planned f label l.router l.protocol := by
  obtain ⟨label, hrecord⟩ := outgoing_planned hl.mem'
  exact ⟨label, by rw [hrecord, planned_alike h, hl.router, hl.protocol]⟩

/-- An export that shares no record has the same one in both plans. -/
theorem outgoing_unshared (hplan : f.IsDecided ⟨switches, failures, encoded⟩)
    (hmerges : (f.slice rs).mergesExport l.router l.protocol = false) : l'.outgoing = l.outgoing := by
  rw [Frame.outgoing_eq rs hplan hl.mem, hmerges]
  obtain ⟨-, router, q, q', e, hq, rfl, rfl⟩ := hl
  show (f.withPlan plan).exportRecord router q' e = _
  rw [exportRecord, hq.shares.1, planned_alike h, ← hq.protocol]
  rfl

end Mates

theorem plan_of_outgoing_eq (hd : f.Distinct) (hl : l ∈ f.allLanes) (hm : m ∈ f.allLanes)
    (heq : l.outgoing = m.outgoing) : ∃ d ∈ f.plan.routers, ∃ q ∈ d.protocols,
      ∃ e ∈ f.usedEdges d.router q.protocol, ∃ e' ∈ f.usedEdges d.router q.protocol,
        l = f.laneOf d.router q e ∧ m = f.laneOf d.router q e' := by
  obtain ⟨d, hdm, q, hq, e, he, rfl⟩ := mem_allLanes.1 hl
  obtain ⟨d', hdm', q', hq', e', he', rfl⟩ := mem_allLanes.1 hm
  have hnodup : f.allLaneRecords.Nodup := (nodup_append.1 (nodup_append.1 hd.nodup).1).2.1
  have hx : f.exportRecord d.router q e ∈ f.laneRecords d.router q := exportRecord_mem he
  have hx' : f.exportRecord d.router q e ∈ f.laneRecords d'.router q' := by
    rw [show f.exportRecord d.router q e = f.exportRecord d'.router q' e' from heq]
    exact exportRecord_mem he'
  -- records of different routers or protocols are different
  obtain rfl : d = d' := eq_of_mem_parts hnodup hdm hdm' (mem_flatMap.2 ⟨q, hq, hx⟩) (mem_flatMap.2 ⟨q', hq', hx'⟩)
  obtain rfl : q = q' := eq_of_mem_parts ((nodup_flatMap.1 hnodup).1 d hdm) hq hq' hx hx'
  exact ⟨d, hdm, q, hq, e, he, e', he', rfl, rfl⟩

theorem outgoing_sublist {router : Name} {q : ProtocolPlan} (hq : q.mergesExport = false) (es : List Edge) :
    (es.map (f.exportRecord router q)).Sublist (f.newRecords router q false es) := by
  induction es with
  | nil => exact .slnil
  | cons e rest ih =>
    rw [newRecords, hq]
    exact (ih.trans (sublist_append_right _ _)).cons_cons _

theorem eq_of_outgoing_eq (h : f.plan.Alike Plan.OwnExports plan) (hd' : (f.withPlan plan).Distinct)
    (hl : Mates Plan.OwnExports f plan l l') (hm : Mates Plan.OwnExports f plan m m')
    (heq : l'.outgoing = m'.outgoing) : l = m := by
  obtain ⟨d, hdm, q, hq, e, he, e', he', hel, hem⟩ := plan_of_outgoing_eq hd' hl.mem' hm.mem' heq
  have hown : q.mergesExport = false := by
    obtain ⟨d₀, -, hdd⟩ := forall₂_mem_right h.routers hdm
    obtain ⟨q₀, -, hqq⟩ := forall₂_mem_right hdd.protocols hq
    exact hqq.shares.1
  have hnodup : (f.withPlan plan).allLaneRecords.Nodup := (nodup_append.1 (nodup_append.1 hd'.nodup).1).2.1
  have hnodup := (nodup_flatMap.1 ((nodup_flatMap.1 hnodup).1 d hdm)).1 q hq
  have hedges : e = e' := by
    refine inj_on_of_nodup_map (hnodup.sublist (outgoing_sublist hown _)) he he' ?_
    rw [hel, hem] at heq
    exact heq
  obtain rfl := Mates.unique h hd'.importNames hl hm (by rw [hel, hem, hedges])
  rfl

end Frame

/-! ## §4. Lanes that share a record -/

/-- What is not compared when BGP lanes of a router share a record. -/
structure Slice.SendsAlike (s : Slice) (l m : Lane) : Prop where
  /-- Both interfaces are active, or none. -/
  active : Topology.isActive l.protocol l.edge.start = Topology.isActive m.protocol m.edge.start
  policy : ∀ r, s.topology.router l.router = .ok r →
    (s.topology.exportPolicy r l.protocol l.edge).map (Slice.exportStatements l.protocol) =
      (s.topology.exportPolicy r m.protocol m.edge).map (Slice.exportStatements m.protocol)
  origin : (∀ r, s.topology.router l.router = .ok r → r.originatesInto l.protocol s.space = .ok false) ∨
    s.communities = []

theorem Lane.sameAs_comm (l m : Lane) : l.sameAs m = m.sameAs l := by
  rw [Bool.eq_iff_iff]
  unfold Lane.sameAs
  simp only [Bool.and_eq_true, beq_iff_eq, Edge.beq_iff]
  constructor <;> exact fun h => ⟨⟨h.1.1.symm, h.1.2.symm⟩, h.2.symm⟩

structure Slice.SharesExport (s : Slice) (l m : Lane) : Prop where
  router : l.router = m.router
  protocol : l.protocol = .bgp
  protocol' : m.protocol = .bgp
  merges : s.mergesExport l.router .bgp
  different : l.sameAs m = false

instance (s : Slice) (l m : Lane) : Decidable (s.SharesExport l m) :=
  decidable_of_iff (_ ∧ _ ∧ _ ∧ _ ∧ _)
    ⟨fun h => ⟨h.1, h.2.1, h.2.2.1, h.2.2.2.1, h.2.2.2.2⟩,
      fun h => ⟨h.router, h.protocol, h.protocol', h.merges, h.different⟩⟩

namespace Frame

/-- Lanes of one router, protocol and edge are the same. -/
theorem Distinct.lane_eq (hd : f.Distinct) (hl : l ∈ f.allLanes) (hm : m ∈ f.allLanes) (h : l.sameAs m) :
    l = m := by
  unfold Lane.sameAs at h
  simp only [Bool.and_eq_true, beq_iff_eq, Edge.beq_iff] at h
  obtain ⟨⟨hrouter, hprotocol⟩, hid⟩ := h
  have hedge : l.edge = m.edge := hd.edge_eq (lane_edge hl) (hrouter ▸ lane_edge hm) hid
  refine inj_on_of_nodup_map hd.importNames hl hm ?_
  rw [incoming_name hl, incoming_name hm, hrouter, hprotocol, hedge]

/-- The costs of OSPF lanes are numbers. -/
def IsPriced (f : Frame) : Prop :=
  ∀ l ∈ f.allLanes, l.protocol = .ospf → Topology.isActive .ospf l.edge.start →
    ∃ cost, l.edge.start.ospfCost.integer = .ok cost

/-- Lanes whose exports share a record send alike. -/
def SharesAll (f : Frame) (rs : List Redistribution) : Prop :=
  ∀ l ∈ f.allLanes, ∀ m ∈ f.allLanes, (f.slice rs).SharesExport l m →
    (f.slice rs).SendsAlike l m

/-- **Over different lanes that share a record the same is sent.** -/
theorem sendsSame_of_merges (hplan : f.IsDecided ⟨switches, failures, encoded⟩)
    (hpriced : f.IsPriced) (hshares : f.SharesAll rs) (hl : l ∈ f.allLanes) (hm : m ∈ f.allLanes)
    (hrouter : l.router = m.router) (hprotocol : l.protocol = m.protocol)
    (hmerges : (f.slice rs).mergesExport l.router l.protocol) (hlocal : l.protocol.isLocal = false)
    (hne : l.sameAs m = false) : (f.slice rs).SendsSame l m := by
  have hcan := mergesExport_of_lane rs hplan hl
  rw [hmerges] at hcan
  obtain ⟨hsession, hcommunities⟩ := sessions_alike rs hcan hl hm hrouter.symm hprotocol.symm
  cases hp : l.protocol with
  | connected | static => cases hp ▸ hlocal
  | best => exact absurd hp (lane_ne_best hplan hl)
  | bgp =>
    rw [hp] at hmerges hprotocol
    have halike := hshares l hl m hm ⟨hrouter, hp, hprotocol.symm, hmerges, hne⟩
    refine ⟨hrouter, hp.trans hprotocol, halike.active, halike.policy, ?_, hsession.symm, hcommunities.symm⟩
    rw [hp, ← hprotocol]
    rfl
  | ospf =>
    rw [hp] at hcan hprotocol
    obtain ⟨hactive, -, a, hcosts⟩ := Plan.ospf_of_canMergeExport hcan
    have hel : l.edge ∈ f.topology.edges l.router := lane_edge hl
    have hem : m.edge ∈ f.topology.edges l.router := hrouter ▸ lane_edge hm
    have hruns : ∀ e ∈ f.topology.edges l.router, Topology.isActive .ospf e.start := fun e he => by
      rw [isActive_ospf]
      exact hactive e he
    obtain ⟨c, hc⟩ := hpriced l hl hp (hruns _ hel)
    obtain ⟨c', hc'⟩ := hpriced m hm hprotocol.symm (hruns _ hem)
    refine ⟨hrouter, hp.trans hprotocol, ?_, fun r _ => ?_, ?_, hsession.symm, hcommunities.symm⟩
    · rw [hp, ← hprotocol, hruns _ hel, hruns _ hem]
    · rw [hp, ← hprotocol]
      rfl
    · rw [hp, ← hprotocol]
      show l.edge.start.ospfCost.integer = m.edge.start.ospfCost.integer
      obtain rfl : c = c' :=
        (Document.means_of_same hc (hcosts _ hel) (hcosts _ hem)).unique (.inl hc')
      rw [hc, hc']

end Frame

/-! ## §5. Values of own records -/

theorem Slice.SendsSame.mates {f : Frame} {plan : Plan} {S : ProtocolPlan → ProtocolPlan → Prop} {l l' m m' : Lane}
    (h : (f.slice rs).SendsSame l m) (hl : Frame.Mates S f plan l l') (hm : Frame.Mates S f plan m m') :
    ((f.withPlan plan).slice rs).SendsSame l' m' := by
  obtain ⟨hrouter, hprotocol, hactive, hpolicy, hcost, hsession, hcommunities⟩ := h
  rw [hl.router] at hrouter hpolicy
  rw [hm.router] at hrouter
  rw [hl.protocol, hm.protocol] at hprotocol
  rw [hl.protocol, hm.protocol, hl.edge, hm.edge] at hactive hpolicy hcost
  rw [← hl.isInternalLane, ← hm.isInternalLane] at hsession
  rw [← hl.sendsCommunities, ← hm.sendsCommunities] at hcommunities
  exact ⟨hrouter, hprotocol, hactive, hpolicy, hcost, hsession, hcommunities⟩

namespace Frame

theorem area_of_merges (hplan : f.IsDecided ⟨switches, failures, encoded⟩)
    (hl : Mates Plan.OwnExports f plan l l') (h : f.plan.Alike Plan.OwnExports plan)
    (hmerges : (f.slice rs).mergesExport l.router l.protocol) (hsome : l'.outgoing.ospfType.isSome) :
    (f.bestRecord l.router "OVERALL" .best).ospfArea = none := by
  obtain ⟨label, hrecord⟩ := hl.outgoing_own h
  rw [hrecord] at hsome
  have hcan := mergesExport_of_lane rs hplan hl.mem
  rw [hmerges] at hcan
  cases hp : l.protocol with
  | connected | static | bgp =>
    rw [hp] at hsome
    exact absurd hsome (by simp [Record.planned, Record.shapeFor, Record.typeIf])
  | best => exact absurd hp (lane_ne_best hplan hl.mem)
  | ospf =>
    rw [hp] at hcan
    obtain ⟨-, hone, -⟩ := Plan.ospf_of_canMergeExport hcan
    by_contra harea
    exact absurd (areas_of_overall harea).2 (Nat.not_lt.2 hone)

section Own

variable (h : f.plan.Alike Plan.OwnExports plan)
  (hplan : f.IsDecided ⟨switches, failures, encoded⟩)
  (hplan' : (f.withPlan plan).IsDecided ⟨switches', failures, encoded'⟩) (hd : f.Distinct)
  (hd' : (f.withPlan plan).Distinct) (hnames' : ∀ l ∈ (f.withPlan plan).allLanes, l.NamesApart) (hpriced : f.IsPriced)
  (hshares : f.SharesAll rs) (hdependencies : Community.dependencies f.communities = .ok f.dependencies)
  (hbounded : ∃ cs, failureConstraints failures (f.topology.failureTerms f.tag) = .ok cs)
  (hfiltered : ∃ cs, f.space.constraints f.packet = .ok cs)
include h hplan hnames'

variable (hl : Mates Plan.OwnExports f plan l l') (hm : Mates Plan.OwnExports f plan m m')
  (hrouter : l.router = m.router) (hprotocol : l.protocol = m.protocol)
include hl hm hrouter hprotocol

theorem own_sameForm : l'.outgoing.SameForm m'.outgoing ∧ m'.outgoing.ospfArea = none ∧ m'.outgoing.history = none ∧
      m'.outgoing.routerId = none := by
  have hbest := lane_ne_best hplan hm.mem
  obtain ⟨label, hrecord⟩ := hl.outgoing_own h
  obtain ⟨label', hrecord'⟩ := hm.outgoing_own h
  have hname := (hnames' l' hl.mem').outgoing.1
  have hname' := (hnames' m' hm.mem').outgoing.1
  rw [hrecord, hrouter, hprotocol] at hname ⊢
  rw [hrecord'] at hname' ⊢
  exact ⟨planned_sameForm hbest hname hname' fun _ => rfl, planned_ospfArea hname', rfl,
    planned_routerId hbest hname'⟩

include hpriced hshares in
/-- **What is sent over a lane can be sent over any that shares its record.** -/
theorem alike_of_merges {y : Record} (hmerges : (f.slice rs).mergesExport l.router l.protocol)
    (hlocal : l.protocol.isLocal = false) (hne : l.sameAs m = false) (hr : f.topology.router l.router = .ok r)
    (hup : failures.isPositive = .ok false → ∀ k ∈ f.allLanes, (f.notFailed k.edge).eval w)
    (hy : l'.outgoing.SameValues w w y) :
    Slice.ExportAlike w w ((f.withPlan plan).slice rs) ((f.withPlan plan).slice rs) r
      (f.bestRecord l.router "OVERALL" .best) (f.bestRecord l.router "OVERALL" .best) l' { m' with outgoing := y } := by
  have hsends :=
    (sendsSame_of_merges hplan hpriced hshares hl.mem hm.mem hrouter hprotocol hmerges hlocal hne).mates hl hm
  have hcan := mergesExport_of_lane rs hplan hl.mem
  rw [hmerges] at hcan
  have hup := hup (Plan.isPositive_of_canMergeExport hcan hlocal)
  obtain ⟨-, harea, -⟩ := own_sameForm h hplan hnames' hl hl rfl rfl
  refine hsends.alike (hl.router ▸ hr) ?_ (area_of_merges hplan hl h hmerges) harea hy
  rw [← hl.edge, ← hm.edge]
  exact (hup l hl.mem).trans (hup m hm.mem).symm

variable (hw : ((f.withPlan plan).slice rs).IsState failures w)
include hshares hfiltered hw

omit hnames' in
theorem communities_of_shares (hmerges : (f.slice rs).mergesExport l.router l.protocol)
    (hne : l.sameAs m = false) (hr : f.topology.router l.router = .ok r)
    (hsubnets : r.originated l.protocol = .ok subnets) :
    ((f.withPlan plan).slice rs).matching subnets w = [] ∨ l'.outgoing.communities = [] := by
  obtain ⟨label, hrecord⟩ := hl.outgoing_own h
  by_cases hp : l.protocol = .bgp
  · rw [hp] at hmerges
    have halike := hshares l hl.mem m hm.mem ⟨hrouter, hp, hprotocol.symm.trans hp, hmerges, hne⟩
    rcases halike.origin with hnot | hnone
    · left
      obtain ⟨subnets', hsubnets', hbound⟩ := not_bound_of_originatesInto (f := f.withPlan plan) hfiltered hw.isScenario
        (hnot r hr)
      cases hsubnets.symm.trans hsubnets'
      exact matching_eq_nil.2 hbound
    · right
      have hnone : f.communities = [] := hnone
      rw [hrecord]
      simp [Record.planned, Record.communitiesOf, hnone]
  · right
    have hbest := lane_ne_best hplan hl.mem
    rw [hrecord]
    simp [Record.planned, Record.communitiesOf, Record.wantsCommunities, hp, hbest]

omit hshares hfiltered hnames' hplan hm hrouter hprotocol in
include hplan' in
theorem own_exports_hold : ∃ r subnets, f.topology.router l.router = .ok r ∧ r.originated l.protocol = .ok subnets ∧
      ∀ m m', Mates Plan.OwnExports f plan m m' → l.router = m.router → l.protocol = m.protocol →
        ((f.withPlan plan).slice rs).ExportHolds r (f.bestRecord l.router "OVERALL" .best) subnets m' w := by
  obtain ⟨r, hr, -, -, subnets, best, hsubnets, hbest, -, hexports⟩ :=
    lanesHold_of_mem (f := f.withPlan plan) hplan' hw.transfers hl.mem'
  rw [← hl.router] at hr
  rw [← hl.protocol] at hsubnets hexports
  obtain ⟨hrouter, hname⟩ := mem_routers hr
  have hoverall : ((f.withPlan plan).slice rs).overall r.name =
      .ok ((f.withPlan plan).bestRecord r.name "OVERALL" .best) := slice_overall (name_mem hrouter)
  rw [bestRecord_alike h] at hoverall
  cases hbest.symm.trans hoverall
  have hexports := (exportsHold_iff.1 hexports).1 (mergesExport_ownExports h r.name l.protocol)
  rw [hname] at hexports
  refine ⟨r, subnets, hr, hsubnets, fun m m' hm hsame hp => hexports m' (mem_lanesOf.2 ⟨hm.mem', ?_, ?_⟩)⟩
  · rw [← hm.router, hsame]
  · rw [← hm.protocol, hp]

include hplan' hd' hpriced hdependencies hbounded

/-- **Own records of exports that would share one have the same values.** -/
theorem own_exports_sameValues (hmerges : (f.slice rs).mergesExport l.router l.protocol) :
    l'.outgoing.SameValues w w m'.outgoing := by
  obtain ⟨r, subnets, hr, hsubnets, hexports⟩ := own_exports_hold h hplan' hl hw
  have hone := hexports l l' hl rfl rfl
  have hother := hexports m m' hm hrouter hprotocol
  obtain ⟨hform, harea, hhistory, hid⟩ := own_sameForm h hplan hnames' hl hm hrouter hprotocol
  have htypes : ∀ {k k' : Lane}, Mates Plan.OwnExports f plan k k' → k'.outgoing.HoldsType := by
    intro k k' hk
    obtain ⟨label, hrecord⟩ := hk.outgoing_own h
    rw [hrecord]
    exact planned_holdsType
  have hvalid := hw.records _ (mem_outgoing hl.mem')
  have hvalid' := hw.records _ (mem_outgoing hm.mem')
  cases hsame : m.sameAs l with
  | true =>
    have hsame : m'.sameAs l' := by
      unfold Lane.sameAs at hsame ⊢
      rw [← hl.router, ← hm.router, ← hl.protocol, ← hm.protocol, ← hl.edge, ← hm.edge]
      exact hsame
    rw [hd'.lane_eq hm.mem' hl.mem' hsame]
    rfl
  | false =>
    cases hlocal : l.protocol.isLocal with
    | true =>
      have hlocal' : m.protocol.isLocal := hprotocol ▸ hlocal
      exact sameValues_of_rests hform harea hhistory (htypes hl) (htypes hm)
        ((exportHolds_of_silent (.inl (hl.protocol ▸ hlocal))).1 hone)
        ((exportHolds_of_silent (.inl (hm.protocol ▸ hlocal'))).1 hother) hvalid hvalid'
    | false =>
      -- what is sent over the one lane could be sent over the other
      have hmerges' := hmerges
      rw [hrouter, hprotocol] at hmerges'
      have hup : failures.isPositive = .ok false → ∀ k ∈ f.allLanes, (f.notFailed k.edge).eval w := by
        intro hpositive k hk
        have he : k.edge ∈ f.topology.edges k.router := lane_edge hk
        exact (Term.eval_is w _ 0).2 (hw.not_failed hpositive hbounded he)
      have halike := alike_of_merges h hplan hnames' hpriced hshares (r := r) hm hl hrouter.symm hprotocol.symm hmerges'
        (hprotocol ▸ hlocal) hsame (hrouter ▸ hr) hup rfl
      rw [← hrouter] at halike
      exact exportHolds_unique hform harea hhistory (htypes hl) (htypes hm) hvalid hvalid'
        (fun c d => Community.kind_of_dependency hdependencies) hid
        (communities_of_shares h hplan hshares hfiltered hm hl hrouter.symm hprotocol.symm hw hmerges' hsame
          (hrouter ▸ hr) (hprotocol ▸ hsubnets)) hone (halike.exportHolds hother)

omit hrouter hprotocol in
include hd in
theorem own_values_of_eq (heq : l.outgoing = m.outgoing) : l'.outgoing.SameValues w w m'.outgoing := by
  obtain ⟨d, -, q, -, e, -, e', -, hel, hem⟩ := plan_of_outgoing_eq hd hl.mem hm.mem heq
  have hrouter : l.router = m.router := by
    rw [hel, hem]
    rfl
  have hprotocol : l.protocol = m.protocol := by
    rw [hel, hem]
    rfl
  cases hmerges : (f.slice rs).mergesExport l.router l.protocol with
  | true =>
    exact own_exports_sameValues h hplan hplan' hd' hnames' hpriced hshares hdependencies hbounded hfiltered hl hm
      hrouter hprotocol hw hmerges
  | false =>
    rw [hl.outgoing_unshared h hplan hmerges, hm.outgoing_unshared h hplan (hrouter ▸ hprotocol ▸ hmerges), heq]
    rfl

end Own

end Frame

/-! ## §6. States with and without own records -/

namespace Frame

variable {S : ProtocolPlan → ProtocolPlan → Prop}

def receivedRecords (f : Frame) : List Record :=
  f.allBestRecords ++ (f.allLanes.map Lane.incoming).filter Record.used ++ f.announcements.map Prod.snd

/-- All variables but those of the routes that routers send. -/
def receivedVariables (f : Frame) : List Variable :=
  f.commonVariables ++ f.receivedRecords.flatMap Record.declarations

theorem mem_receivedRecords : x ∈ f.receivedRecords ↔ x ∈ f.allBestRecords ∨
    (∃ l ∈ f.allLanes, l.incoming.used ∧ x = l.incoming) ∨ ∃ a ∈ f.announcements, x = a.2 := by
  simp only [receivedRecords, mem_append, mem_filter, mem_map, or_assoc]
  grind

theorem received_mem (hx : x ∈ f.receivedRecords) : x ∈ f.records := by
  rcases mem_receivedRecords.1 hx with hx | ⟨l, hl, hused, rfl⟩ | ⟨a, ha, rfl⟩
  · exact mem_append_left _ (mem_append_left _ hx)
  · exact mem_incoming hl hused
  · exact mem_append_right _ (mem_map_of_mem ha)

theorem received_sub_layout : f.receivedVariables ⊆ f.layoutVariables := by
  intro z hz
  refine layoutVariables_perm.symm.subset (mem_append.2 ((mem_append.1 hz).imp_right fun hz => ?_))
  obtain ⟨x, hx, hz⟩ := mem_flatMap.1 hz
  exact mem_flatMap.2 ⟨x, received_mem hx, hz⟩

/-- The records of sent routes are none of these. -/
theorem outgoing_ne_received (hd : f.Distinct) (hl : l ∈ f.allLanes) (hx : x ∈ f.receivedRecords) :
    l.outgoing ≠ x := by
  have hmem := outgoing_mem_laneRecords hl
  have hnodup : Nodup (_ ++ _) := hd.nodup
  rintro rfl
  rcases mem_receivedRecords.1 hx with hx | ⟨m, hm, hused, heq⟩ | ⟨a, ha, heq⟩
  · exact disjoint_of_nodup_append (nodup_append.1 hnodup).1 hx hmem
  · exact outgoing_name_ne hl hm (congrArg Record.name heq.symm)
  · refine disjoint_of_nodup_append hnodup (mem_append_right _ hmem) ?_
    rw [heq]
    exact mem_map_of_mem ha

/-- Where two valuations agree on all of these, only the records of sent routes differ. -/
theorem received_sameValues (hvw : v.AgreesOn w f.receivedVariables) (hx : x ∈ f.receivedRecords) :
    x.SameValues v w x :=
  (isPlanned_of_mem (received_mem hx)).1.sameValues
    (hvw.mono fun _ hz => mem_append_right _ (mem_flatMap.2 ⟨x, hx, hz⟩))

theorem incoming_received (hvw : v.AgreesOn w f.receivedVariables) (hl : l ∈ f.allLanes)
    (hused : l.incoming.used) : l.incoming.SameValues v w l.incoming :=
  received_sameValues hvw (mem_receivedRecords.2 (.inr (.inl ⟨l, hl, hused, rfl⟩)))

theorem agree_of_received (hvw : v.AgreesOn w f.receivedVariables) : f.Agree v w where
  common := hvw.mono (subset_append_left _ _)
  bests _ hx := received_sameValues hvw (mem_receivedRecords.2 (.inl hx))
  announced a ha := received_sameValues hvw (mem_receivedRecords.2 (.inr (.inr ⟨a, ha, rfl⟩)))

/-- **The records of sent routes can have the values of those of another plan**, if records with the same name are to
have the same values. -/
theorem exists_sent (hd' : (f.withPlan plan).Distinct)
    (hform : ∀ l l', Mates S f plan l l' → l'.outgoing.SameForm l.outgoing)
    (hone : ∀ l l' m m', Mates S f plan l l' → Mates S f plan m m' → l'.outgoing = m'.outgoing →
      l.outgoing.SameValues v v m.outgoing) :
    ∃ w : Valuation, v.AgreesOn w (f.withPlan plan).receivedVariables ∧
      ∀ l l', Mates S f plan l l' → l.outgoing.SameValues v w l'.outgoing := by
  obtain ⟨w, hcommon, hother, hset⟩ := exists_sameValues (v := v) hd'
    (fun x y => ∃ l l', Mates S f plan l l' ∧ x = l'.outgoing ∧ y = l.outgoing)
    (by
      rintro - - ⟨l, l', hl, rfl, rfl⟩
      exact ⟨mem_outgoing hl.mem', hform l l' hl, (isPlanned_of_mem (mem_outgoing hl.mem)).1.inBits v⟩)
    (by
      rintro - - - ⟨l, l', hl, rfl, rfl⟩ ⟨m, m', hm, heq, rfl⟩
      exact hone l l' m m' hl hm heq)
  refine ⟨w, fun z hz => ?_, fun l l' hl => (hset _ _ ⟨l, l', hl, rfl, rfl⟩).symm⟩
  rcases mem_append.1 hz with hz | hz
  · exact hcommon z hz
  · obtain ⟨x, hx, hz⟩ := mem_flatMap.1 hz
    refine hother x (received_mem hx) ?_ z hz
    rintro - ⟨l, l', hl, rfl, -⟩
    exact outgoing_ne_received hd' hl.mem' hx rfl

section Sent

variable (h : f.plan.Alike S plan) (hincoming : ∀ l l', Mates S f plan l l' → l'.incoming = l.incoming)
include h hincoming

theorem receivedRecords_alike : (f.withPlan plan).receivedRecords = f.receivedRecords := by
  have hlanes : (f.withPlan plan).allLanes.map Lane.incoming = f.allLanes.map Lane.incoming := by
    rw [← forall₂_eq_eq_eq, forall₂_map_left_iff, forall₂_map_right_iff]
    exact List.Forall₂.flip ((lanes_mates h).imp fun l l' hl => hincoming l l' hl)
  unfold receivedRecords
  rw [allBestRecords_alike h, hlanes, announcementRecords_alike h]

theorem receivedVariables_alike : (f.withPlan plan).receivedVariables = f.receivedVariables := by
  unfold receivedVariables
  rw [commonVariables_alike h, receivedRecords_alike h hincoming]

variable (hvw : v.AgreesOn w f.receivedVariables)
  (hsent : ∀ l l', Mates S f plan l l' → l.outgoing.SameValues v w l'.outgoing)
include hvw hsent

theorem similar_of_sent : Slice.Similar v w (f.slice rs) ((f.withPlan plan).slice rs) := by
  refine similar_mates h (agree_of_received hvw) fun l l' hl => ?_
  unfold Slice.incoming
  rw [hincoming l l' hl]
  cases hused : l.incoming.used with
  | true =>
    exact congrArg some (incoming_received hvw hl.mem hused)
  | false =>
    cases hm : (f.slice rs).opposite? l with
    | some m =>
      obtain ⟨m', hm', hmates⟩ := opposite_mates h hl hm
      rw [hm']
      exact congrArg some (hsent m m' hmates)
    | none =>
      rw [opposite_none h hl hm]
      rfl

/-- **A state of one slice is one of the other where the same is sent**, if the exports hold in both. -/
theorem isState_of_sent (hd : f.Distinct) (hnames : ∀ l ∈ f.allLanes, l.NamesApart)
    (hnames' : ∀ l ∈ (f.withPlan plan).allLanes, l.NamesApart)
    (hexports : f.ExportsAlike plan rs v w)
    (hv : (f.slice rs).IsState failures v) :
    ((f.withPlan plan).slice rs).IsState failures w := by
  have ha := agree_of_received hvw

  refine isState_of_similar ha (similar_of_sent h hincoming hvw hsent) (fun x hx => ?_) ?_
    (fun l' hl' hu hinactive => ?_) hv
  · by_cases hreceived : x ∈ f.receivedRecords
    · exact (hv.records x (received_mem hreceived)).congr (received_sameValues hvw hreceived) rfl
    · rw [← receivedRecords_alike h hincoming] at hreceived
      rcases mem_records hx with hbest | ⟨l', hl', rfl | hown⟩ | hannounced
      · exact absurd (mem_receivedRecords.2 (.inl hbest)) hreceived
      · obtain ⟨l, hl⟩ := exists_mate h hl'
        refine (hv.records _ (mem_outgoing hl.mem)).congr (hsent l l' hl) ?_
        rw [(hnames l hl.mem).outgoing.2, (hnames' l' hl').outgoing.2]
      · exact absurd (mem_receivedRecords.2 (.inr (.inl ⟨l', hl', hown⟩))) hreceived
      · exact absurd (mem_receivedRecords.2 (.inr (.inr hannounced))) hreceived
  · refine transfersHold_mates h hd ha (fun l l' hl r _ hholds hu => ?_) hexports hv.transfers
    have hin : l.incoming.SameValues v w l'.incoming := by
      rw [hincoming l l' hl] at hu ⊢
      exact incoming_received hvw hl.mem hu
    exact (import_mates h ha hsent hl hin).importHolds hholds hu
  · obtain ⟨l, hl⟩ := exists_mate h hl'
    rw [hincoming l l' hl] at hu ⊢
    rw [← hl.protocol, ← hl.edge] at hinactive
    rw [← (incoming_received hvw hl.mem hu).permits]
    exact hv.inactive l hl.mem hu hinactive

end Sent

section States

variable (h : f.plan.Alike Plan.OwnExports plan)
  (hplan : f.IsDecided ⟨switches, failures, encoded⟩) (hd : f.Distinct)
  (hd' : (f.withPlan plan).Distinct) (hnames : ∀ l ∈ f.allLanes, l.NamesApart)
  (hnames' : ∀ l ∈ (f.withPlan plan).allLanes, l.NamesApart) (hpriced : f.IsPriced) (hshares : f.SharesAll rs)
  (hbounded : ∃ cs, failureConstraints failures (f.topology.failureTerms f.tag) = .ok cs)
include h hplan

include hnames hnames' in
theorem own_shared_sameForm (hl : Mates Plan.OwnExports f plan l l') :
    l'.outgoing.SameForm l.outgoing ∧ l.outgoing.SameForm l'.outgoing := by
  have hbest := lane_ne_best hplan hl.mem
  obtain ⟨label, hrecord⟩ := outgoing_planned hl.mem
  obtain ⟨label', hrecord'⟩ := hl.outgoing_own h
  have hname := (hnames l hl.mem).outgoing.1
  have hname' := (hnames' l' hl.mem').outgoing.1
  rw [hrecord] at hname ⊢
  rw [hrecord'] at hname' ⊢
  exact ⟨planned_sameForm hbest hname' hname fun _ => rfl, planned_sameForm hbest hname hname' fun _ => rfl⟩

omit hplan in
/-- **What holds of own records holds of a shared one with their values.** -/
theorem exportsHold_shared (ha : (f.withPlan plan).Agree w v)
    (hsent : ∀ l' l, Mates (flip Plan.OwnExports) (f.withPlan plan) f.plan l' l → l'.outgoing.SameValues w v l.outgoing)
    (hsame : best.SameValues w v best)
    (hholds : ((f.withPlan plan).slice rs).ExportsHold r best subnets p w
      (((f.withPlan plan).slice rs).lanesOf r.name p)) :
    (f.slice rs).ExportsHold r best subnets p v ((f.slice rs).lanesOf r.name p) := by
  have hholds := (exportsHold_iff.1 hholds).1 (mergesExport_ownExports h r.name p)
  have hall : ∀ k ∈ (f.slice rs).lanesOf r.name p, (f.slice rs).ExportHolds r best subnets k v := by
    intro k hk
    obtain ⟨k', hk', hmates⟩ := forall₂_mem_right
      (@lanesOf_mates (f.withPlan plan) f.plan rs (flip Plan.OwnExports) h.symm r.name p) hk
    exact (export_mates h.symm ha hsame hmates (hsent k' k hmates)).exportHolds (hholds k' hk')
  refine exportsHold_iff.2 ⟨fun _ => hall, fun _ k hk => hall k (mem_of_find?_eq_some hk), fun _ hnone k hk => ?_⟩
  have hmem := mem_of_getLast? hk
  have hinactive : Topology.isActive k.protocol k.edge.start = false := by
    rw [(mem_lanesOf.1 hmem).2.2]
    exact Bool.eq_false_iff.2 (find?_eq_none.1 hnone k hmem)
  exact (exportHolds_of_silent (.inr hinactive)).1 (hall k hmem)

include hd hnames' hpriced hshares hbounded

/-- **What holds of a shared record holds of own ones with its values.** -/
theorem exportsHold_own (hv : (f.slice rs).IsState failures v) (ha : f.Agree v w)
    (hsent : ∀ l l', Mates Plan.OwnExports f plan l l' → l.outgoing.SameValues v w l'.outgoing)
    (hr : r ∈ f.topology.routers) (hbest : (f.slice rs).overall r.name = .ok best) (hsame : best.SameValues v w best)
    (hholds : (f.slice rs).ExportsHold r best subnets p v ((f.slice rs).lanesOf r.name p)) :
    ((f.withPlan plan).slice rs).ExportsHold r best subnets p w
      (((f.withPlan plan).slice rs).lanesOf r.name p) := by
  have hlanes := @lanesOf_mates f plan rs Plan.OwnExports h r.name p
  have hone : ∀ k k', Mates Plan.OwnExports f plan k k' → (f.slice rs).ExportHolds r best subnets k v →
      ((f.withPlan plan).slice rs).ExportHolds r best subnets k' w := fun k k' hk =>
    (export_mates h ha hsame hk (hsent k k' hk)).exportHolds
  obtain ⟨hunshared, hactive, hsilent⟩ := exportsHold_iff.1 hholds
  unfold Slice.ExportsHold
  rw [mergesExport_ownExports h]
  intro m' hm'
  obtain ⟨m, hm, hmates⟩ := forall₂_mem_right hlanes hm'
  cases hmerges : (f.slice rs).mergesExport r.name p with
  | false => exact hone m m' hmates (hunshared hmerges m hm)
  | true =>
    have hshared : ∀ k ∈ (f.slice rs).lanesOf r.name p, k.outgoing = f.sharedExport r.name p := by
      intro k hk
      obtain ⟨hmem, hname, hp⟩ := mem_lanesOf.1 hk
      rw [← hname, ← hp] at hmerges ⊢
      exact (outgoing_eq rs hplan hmem).trans (if_pos hmerges)
    obtain ⟨hmem, hname, hp⟩ := mem_lanesOf.1 hm
    cases hfirst : ((f.slice rs).lanesOf r.name p).find? (Slice.laneIsActive p) with
    | none =>
      have hinactive : Topology.isActive m'.protocol m'.edge.start = false := by
        rw [← hmates.protocol, ← hmates.edge, hp]
        exact Bool.eq_false_iff.2 (find?_eq_none.1 hfirst m hm)
      obtain ⟨k, hk⟩ : ∃ k, ((f.slice rs).lanesOf r.name p).getLast? = some k :=
        Option.isSome_iff_exists.1 (getLast?_isSome.2 (ne_nil_of_mem hm))
      rw [exportHolds_of_silent (.inr hinactive), ← (hsent m m' hmates).permits, hshared m hm,
        ← hshared k (mem_of_getLast? hk)]
      exact hsilent hmerges hfirst k hk
    | some k =>
      have hholds := hactive hmerges k hfirst
      have hk := mem_of_find?_eq_some hfirst
      obtain ⟨hkmem, hkname, hkp⟩ := mem_lanesOf.1 hk
      obtain ⟨k', hkmates⟩ := exists_mate' h hkmem
      have hheld := hone k k' hkmates hholds
      have hvalues : k'.outgoing.SameValues w w m'.outgoing := by
        refine (hsent k k' hkmates).symm.trans ?_
        rw [hshared k hk, ← hshared m hm]
        exact hsent m m' hmates
      cases hkm : k.sameAs m with
      | true => exact hone m m' hmates (hd.lane_eq hkmem hmem hkm ▸ hholds)
      | false =>
        cases hlocal : p.isLocal with
        | true =>
          have hkheld := (exportHolds_of_silent (.inl (hkmates.protocol ▸ hkp ▸ hlocal))).1 hheld
          refine (exportHolds_of_silent (.inl (hmates.protocol ▸ hp ▸ hlocal))).2 ?_
          rw [← hvalues.permits]
          exact hkheld
        | false =>
          -- every other lane sends what the first active one does
          rw [← hkname, ← hkp] at hmerges
          obtain rfl := Except.ok.inj (hbest.symm.trans (slice_overall (name_mem hr)))
          rw [← hkname] at hheld ⊢
          refine (alike_of_merges h hplan hnames' hpriced hshares hkmates hmates (hkname.trans hname.symm)
            (hkp.trans hp.symm) hmerges (hkp ▸ hlocal) hkm (hkname ▸ hd.router_of_mem hr)
            (fun hpositive _ hj => ?_) hvalues).exportHolds hheld
          have hlink := (over_notFailed (lane_edge hj)).eval_eq v w ha.common
          exact hlink.symm.trans ((Term.eval_is v _ 0).2 (hv.not_failed hpositive hbounded (lane_edge hj)))

include hd' hnames

/-- **A state with a shared record has one with own records.** -/
theorem exists_isState_own_exports (hv : (f.slice rs).IsState failures v) :
    ∃ w : Valuation, v.AgreesOn w f.receivedVariables ∧
      ((f.withPlan plan).slice rs).IsState failures w := by
  have hincoming : ∀ l l', Mates Plan.OwnExports f plan l l' → l'.incoming = l.incoming := fun l l' hl =>
    hl.incoming_same h
  obtain ⟨w, hagrees, hsent⟩ := exists_sent (v := v) hd'
    (fun l l' hl => (own_shared_sameForm h hplan hnames hnames' hl).1)
    (fun l l' m m' hl hm heq => by
      rw [eq_of_outgoing_eq h hd' hl hm heq]
      rfl)
  rw [receivedVariables_alike h hincoming] at hagrees
  refine ⟨w, hagrees, isState_of_sent h hincoming hagrees hsent hd hnames hnames' ?_ hv⟩
  intro r hr p best subnets _ hbest hsame hholds
  exact exportsHold_own h hplan hd hnames' hpriced hshares hbounded hv (agree_of_received hagrees) hsent hr hbest hsame
    hholds

/-- **A state with own records has one with a shared record.** -/
theorem exists_isState_shared (hplan' : (f.withPlan plan).IsDecided ⟨switches', failures, encoded'⟩)
    (hdependencies : Community.dependencies f.communities = .ok f.dependencies)
    (hfiltered : ∃ cs, f.space.constraints f.packet = .ok cs)
    (hw : ((f.withPlan plan).slice rs).IsState failures w) :
    ∃ v : Valuation, w.AgreesOn v f.receivedVariables ∧ (f.slice rs).IsState failures v := by
  -- lanes of the other plan come first here
  have hmates : ∀ {l' l}, Mates (flip Plan.OwnExports) (f.withPlan plan) f.plan l' l →
      Mates Plan.OwnExports f plan l l' := fun hl => hl.symm
  have hincoming : ∀ l' l, Mates (flip Plan.OwnExports) (f.withPlan plan) f.plan l' l → l.incoming = l'.incoming :=
    fun l' l hl => ((hmates hl).incoming_same h).symm
  obtain ⟨v, hagrees, hsent⟩ := @exists_sent w f.plan (f.withPlan plan) (flip Plan.OwnExports) hd
    (fun l' l hl => (own_shared_sameForm h hplan hnames hnames' (hmates hl)).2)
    (fun l' l m' m hl hm heq => own_values_of_eq h hplan hplan' hd hd' hnames' hpriced hshares hdependencies hbounded
      hfiltered (hmates hl) (hmates hm) hw heq)
  have hagrees : w.AgreesOn v f.receivedVariables := hagrees
  refine ⟨v, hagrees, ?_⟩
  rw [← receivedVariables_alike h fun l l' hl => hl.incoming_same h] at hagrees
  exact @isState_of_sent w v failures f.plan (f.withPlan plan) rs (flip Plan.OwnExports) h.symm hincoming
    hagrees hsent hd' hnames' hnames (fun r _ p best subnets _ _ hsame hholds =>
      exportsHold_shared h (agree_of_received hagrees) hsent hsame hholds) hw

end States

end Frame

/-! ## §7. Encodings -/

namespace Encoding

def withExportMerge (req : Request) (on : Bool) : Request :=
  { req with switches := { req.switches with exportMerge := on } }

/-- **Where lanes that share a record send alike, it does not matter whether exports share records.** -/
theorem exportMerge_isExact {n : Network} {req : Request} {e e' : Encoding}
    (he : (encode n (withExportMerge req true)).result = .ok e)
    (he' : (encode n (withExportMerge req false)).result = .ok e') (hd : e.ledger.Distinct) (hd' : e'.ledger.Distinct)
    (hnames : ∀ l ∈ e.slice.lanes, l.NamesApart) (hnames' : ∀ l ∈ e'.slice.lanes, l.NamesApart)
    (hshares : ∀ l ∈ e.slice.lanes, ∀ m ∈ e.slice.lanes, e.slice.SharesExport l m → e.slice.SendsAlike l m) :
    e.ledger.SameOn e.slice.receivedVariables e'.ledger := by
  -- the frames only differ in which exports share a record
  obtain ⟨f, plan, rs, encoded, encoded', hof, hof', hplan, hplan', hdistinct, hdistinct'⟩ :=
    exists_withPlan he he' rfl hd hd'
  have halike : f.plan.Alike Plan.OwnExports plan := Plan.alike_ownExports hplan hplan' rfl rfl rfl
  have hpriced : f.IsPriced := by
    intro l hl hp hactive
    obtain ⟨l', hmates⟩ := Frame.exists_mate' halike hl
    obtain ⟨r, -, hr, hencoded, -⟩ := Frame.lane_owner hplan hl
    obtain ⟨hmem, hname⟩ := Frame.mem_routers hr
    have hcosts := hof'.priced
    rw [hof'.slice] at hcosts
    rw [hmates.edge] at hactive ⊢
    refine hcosts r hmem ?_ (Frame.mergesExport_ownExports halike r.name .ospf) l'
      (Frame.mem_lanesOf.2 ⟨hmates.mem', ?_, ?_⟩)
      hactive
    · rw [Frame.protocols_alike halike, hname, ← hp]
      exact hencoded
    · rw [← hmates.router, hname]
    · rw [← hmates.protocol, hp]
  rw [hof.slice] at hnames hshares ⊢
  rw [hof'.slice] at hnames'
  have hreceived : (f.withPlan plan).receivedVariables = f.receivedVariables :=
    Frame.receivedVariables_alike halike fun l l' hl => hl.incoming_same halike
  refine hof.sameOn hof' hd hd' Frame.received_sub_layout (hreceived ▸ Frame.received_sub_layout)
    (fun v hv => ?_) fun w hw => ?_
  · exact Frame.exists_isState_own_exports halike hplan hdistinct hdistinct' hnames hnames' hpriced hshares
      hof.bounded hv
  · exact Frame.exists_isState_shared halike hplan hdistinct hdistinct' hnames hnames' hpriced hshares hof.bounded
      hplan'
      hof.dependencies hof.filtered hw

def deferral? : List Statement → Option String
  | [.cond (.call (.text name)) [.simple .exitAccept] [.simple .exitReject]] => some name
  | _ => none

theorem eq_of_deferral? {statements : List Statement} (h : deferral? statements = some name) :
    statements = [.cond (.call (.text name)) [.simple .exitAccept] [.simple .exitReject]] := by
  unfold deferral? at h
  split at h
  next => rw [Option.some.inj h]
  next => cases h

def Defers (s : Slice) (name : String) (l : Lane) : Prop :=
  ∀ r, s.topology.router l.router = .ok r → ∃ policy, s.topology.exportPolicy r .bgp l.edge = .ok policy ∧
    policy.bind (fun q => deferral? q.statements) = some name

instance (s : Slice) (name : String) : DecidablePred (Defers s name) := fun l =>
  inferInstanceAs (Decidable (∀ r, s.topology.router l.router = .ok r → _))

theorem Defers.policy {l m : Lane} (hl : Defers s name l) (hm : Defers s name m) (hrouter : l.router = m.router)
    (hp : l.protocol = .bgp) (hp' : m.protocol = .bgp) :
    ∀ r, s.topology.router l.router = .ok r →
      (s.topology.exportPolicy r l.protocol l.edge).map (Slice.exportStatements l.protocol) =
        (s.topology.exportPolicy r m.protocol m.edge).map (Slice.exportStatements m.protocol) := by
  intro r hr
  obtain ⟨policy, hpolicy, hdefers⟩ := hl r hr
  obtain ⟨policy', hpolicy', hdefers'⟩ := hm r (hrouter ▸ hr)
  obtain ⟨q, rfl, hq⟩ := Option.bind_eq_some_iff.1 hdefers
  obtain ⟨q', rfl, hq'⟩ := Option.bind_eq_some_iff.1 hdefers'
  rw [hp, hp', hpolicy, hpolicy']
  show Except.ok q.statements = Except.ok q'.statements
  rw [eq_of_deferral? hq, eq_of_deferral? hq']

/-- A router with external sessions over two links, whose export policies defer to one policy.  One of its neighbors
originates a network. -/
def forkNetwork : Network where
  routers := [
    { name := .text "A"
      interfaces := [.port "ab" (.ofOctets 10 0 0 1 30), .port "ac" (.ofOctets 10 0 0 5 30)]
      bgp := some (.speaker "1.1.1.1" [
        { Neighbor.peer (.ofOctets 10 0 0 2) 2 1 with exportPolicy := .text "TO-B" },
        { Neighbor.peer (.ofOctets 10 0 0 6) 3 1 with exportPolicy := .text "TO-C" }])
      policies := ⟨.text "BGP_COMMON_EXPORT_POLICY", [.simple .exitAccept]⟩ :: ["TO-B", "TO-C"].map fun name =>
        { name := .text name
          statements :=
            [.cond (.call (.text "BGP_COMMON_EXPORT_POLICY")) [.simple .exitAccept] [.simple .exitReject]] } },
    { name := .text "B"
      interfaces := [.port "ba" (.ofOctets 10 0 0 2 30)]
      bgp := some (.speaker "2.2.2.2" [.peer (.ofOctets 10 0 0 1) 1 2])
      filterLists := [.originating [.ofOctets 10 9 0 0 24]] },
    { name := .text "C"
      interfaces := [.port "ca" (.ofOctets 10 0 0 6 30)]
      bgp := some (.speaker "3.3.3.3" [.peer (.ofOctets 10 0 0 5) 1 3]) }]
  links := [.cable "A" "ab" "B" "ba", .cable "A" "ac" "C" "ca"]

/-- Packets to that network. -/
def forkRequest : Request where
  space := { dstIps := [.ofOctets 10 9 0 0 24] }

def IsFork (e : Encoding) : Prop :=
  e.ledger.Distinct ∧ (∀ l ∈ e.slice.lanes, l.NamesApart) ∧
    (∃ l ∈ e.slice.lanes, ∃ m ∈ e.slice.lanes, e.slice.SharesExport l m ∧ l.outgoing.name = m.outgoing.name) ∧
    ∀ l ∈ e.slice.lanes, ∀ m ∈ e.slice.lanes, e.slice.SharesExport l m →
      Defers e.slice "BGP_COMMON_EXPORT_POLICY" l ∧ Topology.isActive .bgp l.edge.start ∧ e.slice.communities = []

instance : DecidablePred IsFork := fun e => inferInstanceAs (Decidable (e.ledger.Distinct ∧ _))

theorem fork_exportMerge_isExact :
    ∃ e e', (encode forkNetwork (withExportMerge forkRequest true)).result = .ok e ∧
      (encode forkNetwork (withExportMerge forkRequest false)).result = .ok e' ∧ IsFork e ∧ e'.ledger.Distinct ∧
      e.ledger.SameOn e.slice.receivedVariables e'.ledger := by
  have hshared : ∃ e, (encode forkNetwork (withExportMerge forkRequest true)).result = .ok e ∧ IsFork e := by
    decide +kernel
  have hown : ∃ e', (encode forkNetwork (withExportMerge forkRequest false)).result = .ok e' ∧ e'.ledger.Distinct ∧
      ∀ l ∈ e'.slice.lanes, l.NamesApart := by
    decide +kernel
  obtain ⟨e, he, hfork⟩ := hshared
  obtain ⟨e', he', hd', hnames'⟩ := hown
  refine ⟨e, e', he, he', hfork, hd', exportMerge_isExact he he' hfork.1 hd' hfork.2.1 hnames'
    fun l hl m hm hshares => ?_⟩
  have hshares' : e.slice.SharesExport m l :=
    ⟨hshares.router.symm, hshares.protocol', hshares.protocol, hshares.router ▸ hshares.merges, by
      rw [Lane.sameAs_comm]
      exact hshares.different⟩
  obtain ⟨hdefers, hactive, hnone⟩ := hfork.2.2.2 l hl m hm hshares
  obtain ⟨hdefers', hactive', -⟩ := hfork.2.2.2 m hm l hl hshares'
  refine ⟨?_, hdefers.policy hdefers' hshares.router hshares.protocol hshares.protocol', .inr hnone⟩
  rw [hshares.protocol, hshares.protocol', hactive, hactive']

end Encoding

end ControlPlane
