import ControlPlane.Proofs.Document.Numbers
import ControlPlane.Proofs.Slice.Optimality
import ControlPlane.Proofs.Slice.Propagation
import ControlPlane.Proofs.Transfer.Passing

/-!
# How OSPF routes spread

Where OSPF has no export policy, its routes start at a router that originates a network and go on from best route
to best route.  `Slice.Arrives` is this history of a received route.  Costs are positive, so metrics grow along the
way and every received route has such a history (`Frame.arrives_of_permits`).
-/
namespace ControlPlane

open List Option Record Topology Enumeration Comparing Transfer

variable {e : Edge} {n : Network} {name' : String} {v : Valuation} {name : Name} {f : Frame} {rs : List Redistribution}
  {basis : Plan.Basis} {failures selection : Document} {m l m₀ : Lane} {r : Router} {x b best : Record}

/-! ## §1. Edges and interfaces -/
namespace Topology

variable {t : Topology} {d : Edge}

theorem isActive_ospf (i : Interface) : isActive .ospf i = i.runsOspf := by
  show (i.active.both i.ospfEnabled).truthy = (i.active.truthy && i.ospfEnabled.truthy)
  unfold Document.both
  cases h : i.active.truthy with
  | true => simp
  | false => simp [h]

def NamesInterfaces (t : Topology) : Prop := ∀ r ∈ t.routers, (r.interfaces.map Interface.name).Nodup

theorem edge_ext (hbuild : build n selection = .ok t) (hnames : t.NamesInterfaces) (hd : d ∈ t.edges name)
    (he : e ∈ t.edges name) (hid : d.id = e.id) : d = e := by
  unfold edges at hd he
  cases hsite : t.site? name with
  | none =>
    rw [hsite] at hd
    cases hd
  | some site =>
    rw [hsite] at hd he
    have hmem : site ∈ t.sites := mem_of_find?_eq_some hsite
    obtain ⟨-, w, -, -, -, hw⟩ := build_ok hbuild
    obtain ⟨interfaces, hinterfaces, hedges, -⟩ := hw site hmem
    have hd : d ∈ site.edges := hd
    have he : e ∈ site.edges := he
    rw [hedges] at hd he
    obtain ⟨i, hi, hd⟩ := mem_filterMap.1 hd
    obtain ⟨j, hj, he⟩ := mem_filterMap.1 he
    have hname : i.name = j.name := by
      rw [← (edgeAt_ok hd).2.1, ← (edgeAt_ok he).2.1]
      exact congrArg (fun k : EdgeId => k.near.interface) hid
    have hij : i = j := inj_on_of_nodup_map (hnames _ (mem_map_of_mem hmem))
      ((perm_of_inOrder hinterfaces).mem_iff.1 hi) ((perm_of_inOrder hinterfaces).mem_iff.1 hj) hname
    rw [hij] at hd
    exact Option.some.inj (hd.symm.trans he)

theorem start_mem (hbuild : build n selection = .ok t) (hr : t.router name = .ok r) (he : e ∈ t.edges name) :
    e.start ∈ r.interfaces := by
  obtain ⟨site, hsite, rfl, -, hedges⟩ := site_of_router hr
  exact (edge_isOf hbuild hsite (hedges ▸ he)).start

structure SpreadsOspf (t : Topology) : Prop where
  interfaces : t.NamesInterfaces
  policy : ∀ r ∈ t.routers, ∀ policy, commonPolicy r .ospf = .ok policy → policy = none
  cost : ∀ r ∈ t.routers, ∀ i ∈ r.interfaces, i.runsOspf → ∀ c, i.ospfCost.integer = .ok c → 1 ≤ c

end Topology

/-! ## §2. Sent routes -/

namespace Frame

theorem matched_of_source {p q : Protocol} (hlays : f.redistributions = .ok rs) (hr : f.topology.router name = .ok r)
    (hq : q ∈ (f.slice rs).sourcesOf name p) : ∃ policies, exportPolicies r p = .ok policies ∧
      ∃ policy ∈ policies, ∃ found, matchedProtocols r policy = .ok found ∧ q ∈ found := by
  obtain ⟨hq, hother⟩ := mem_filter.1 (mem_sortWith.1 hq)
  -- what was found out for the router and the protocol
  obtain ⟨d, hd, hfind⟩ := Plan.forall₂_find? (mapM_eq_ok.1 hlays) (q := fun d => d.router == name)
    (fun r' d' hd' => by
      obtain ⟨sources, -, hd'⟩ := bind_eq_ok.1 hd'
      rw [← pure_eq_ok.1 hd']) (Plan.find?_of_router hr)
  obtain ⟨sources, hsources, hfind⟩ := bind_eq_ok.1 hfind
  cases hfind
  have hall : (rs.find? fun d => d.router == name) = some _ := hd
  rw [show (f.slice rs).redistribution = rs from rfl, hall, Option.bind_some] at hq
  cases hlookup : sources.lookup p with
  | none =>
    rw [hlookup] at hq
    cases hq
  | some all =>
    rw [hlookup] at hq
    obtain ⟨k, hk, hentry⟩ := exists_of_mem_mapM hsources (mem_of_lookup_eq_some hlookup)
    obtain ⟨policies, hpolicies, hentry⟩ := bind_eq_ok.1 hentry
    obtain ⟨found, hfound, hentry⟩ := bind_eq_ok.1 hentry
    obtain ⟨rfl, rfl⟩ := Prod.mk.inj (pure_eq_ok.1 hentry)
    rcases mem_cons.1 (mem_eraseDups.1 hq) with rfl | hq
    · exact absurd hother (by simp)
    · obtain ⟨ps, hps, hq⟩ := mem_flatten.1 (mem_filter.1 hq).1
      obtain ⟨policy, hpolicy, hmatched⟩ := exists_of_mem_mapM hfound hps
      exact ⟨policies, hpolicies, policy, hpolicy, ps, hmatched, hq⟩

theorem sourcesOf_ospf (hspreads : f.topology.SpreadsOspf) (h : f.redistributions = .ok rs)
    (hr : f.topology.router name = .ok r) : (f.slice rs).sourcesOf name .ospf = [] := by
  refine eq_nil_iff_forall_not_mem.2 fun q hq => ?_
  obtain ⟨policies, hpolicies, policy, hpolicy, -⟩ := matched_of_source h hr hq
  -- there is no policy that could match on a protocol
  obtain ⟨common, hcommon, hpolicies⟩ := bind_eq_ok.1 hpolicies
  obtain rfl := hspreads.policy r (mem_routers hr).1 common hcommon
  cases hpolicies
  cases hpolicy

end Frame

namespace Slice

variable (s : Slice) (v : Valuation)

structure SentBy (r : Router) (subnets : List Subnet) (best : Record) (m₀ m : Lane) : Prop where
  router : s.topology.router m.router = .ok r
  originated : r.originated .ospf = .ok subnets
  overall : s.overall m.router = .ok best
  lane : m₀ ∈ s.lanes
  sender : m₀.router = m.router
  protocol : m₀.protocol = .ospf
  record : m₀.outgoing = m.outgoing
  runs : m₀.edge.start.runsOspf = m.edge.start.runsOspf
  cost : ∀ c, m₀.edge.start.ospfCost.integer = .ok c → m.edge.start.ospfCost.Means c
  holds : s.ExportHolds r best subnets m₀ v

end Slice

theorem Plan.ospf_of_canMergeExport {s : Switches} {t : Topology}
    (h : Plan.canMergeExport s t name .ospf failures = .ok true) :
    (∀ e ∈ t.edges name, e.start.runsOspf) ∧ (t.areas name).length ≤ 1 ∧
      ∃ a, ∀ e ∈ t.edges name, e.start.ospfCost.same a := by
  unfold Plan.canMergeExport at h
  split at h
  next => cases h
  next =>
    obtain ⟨r, -, h⟩ := bind_eq_ok.1 h
    obtain ⟨positive, -, h⟩ := bind_eq_ok.1 h
    cases positive with
    | true => exact absurd h (by simp [pure, Except.pure])
    | false =>
      obtain ⟨costs, hcosts, h⟩ := bind_eq_ok.1 h
      have h := pure_eq_ok.1 h
      simp only [Bool.and_eq_true, List.all_eq_true, decide_eq_true_eq] at h
      obtain ⟨⟨hactive, harea⟩, hone⟩ := h
      obtain ⟨a, ha⟩ := Document.same_of_distinct hcosts hone
      refine ⟨fun e he => ?_, harea, a, fun e he => ha _ (mem_map_of_mem he)⟩
      rw [← isActive_ospf]
      exact hactive e he

theorem Frame.sentBy (hplan : f.IsDecided basis)
    (h : (f.slice rs).TransfersHold v) (hm : m ∈ f.allLanes) (hp : m.protocol = .ospf) :
    ∃ r subnets best m₀, (f.slice rs).SentBy v r subnets best m₀ m := by
  have hedge := lane_edge hm
  have hcan := mergesExport_of_lane rs hplan hm
  rcases definedBy_of_lane hplan h hm with ⟨r, subnets, best, m₀, hdefined, -⟩ | ⟨hmerges, -, hinactive⟩
  · obtain ⟨hr, hsubnets, hbest, hm₀, hrouter, hprotocol, hrecord, hunshared, hholds⟩ := hdefined
    have hedge₀ : m₀.edge ∈ f.topology.edges m.router := hrouter ▸ lane_edge hm₀
    have hsame : m₀.edge.start.runsOspf = m.edge.start.runsOspf ∧
        ∀ c, m₀.edge.start.ospfCost.integer = .ok c → m.edge.start.ospfCost.Means c := by
      cases hmerges : (f.slice rs).mergesExport m.router m.protocol with
      | false =>
        obtain rfl := hunshared hmerges
        exact ⟨rfl, fun c hc => .inl hc⟩
      | true =>
        rw [hmerges, hp] at hcan
        obtain ⟨hruns, -, a, hsame⟩ := Plan.ospf_of_canMergeExport hcan
        rw [hruns _ hedge, hruns _ hedge₀]
        exact ⟨rfl, fun c hc => Document.means_of_same hc (hsame _ hedge₀) (hsame _ hedge)⟩
    exact ⟨r, subnets, best, m₀, hr, hp ▸ hsubnets, hbest, hm₀, hrouter, hprotocol.trans hp, hrecord, hsame.1, hsame.2,
      hholds⟩
  · -- all interfaces are active
    rw [hmerges, hp] at hcan
    rw [hp, isActive_ospf, (Plan.ospf_of_canMergeExport hcan).1 _ hedge] at hinactive
    cases hinactive

def Record.IsFrom (x : Record) (v : Valuation) (p : Protocol) : Prop :=
  ∀ h, x.history = some h → (h.isValue p).eval v

namespace Transfer

variable {t : Transfer}

theorem entering_origin : (t.entering v).origin = (t.source.under v).origin := by
  have hsuppressing : (t.suppressing v (t.source.under v)).origin = (t.source.under v).origin := by
    unfold suppressing
    split
    · rfl
    · split <;> rfl
  unfold entering
  split
  · exact hsuppressing
  · exact hsuppressing

theorem cameFrom_iff : Policy.cameFrom (t.setting v) (t.entering v) t.fromProtocol ↔
    t.source.IsFrom v t.fromProtocol := by
  have horigin : (t.source.under v).origin = t.source.history.map fun h => h.valueUnder v := rfl
  unfold Policy.cameFrom Record.IsFrom
  rw [entering_origin, horigin]
  cases t.source.history with
  | none => simp [setting]
  | some h =>
    simp [eval_isValue]

end Transfer

namespace Slice

variable {s : Slice} {subnets : List Subnet}

theorem sending_ospf (hp : m.protocol = .ospf) : s.sending best m = (.yes, m.edge.start.ospfCost) := by
  unfold sending
  rw [hp]
  rfl

theorem holds_redistributionGuard (hsources : s.sourcesOf m.router .ospf = []) :
    (s.redistributionGuard m.router .ospf best).eval v ↔ best.IsFrom v .ospf := by
  unfold redistributionGuard Record.IsFrom
  rw [hsources]
  cases best.history with
  | none => simp
  | some h => simp

namespace SentBy

theorem silent (h : s.SentBy v r subnets best m₀ m) (hruns : m.edge.start.runsOspf = false) :
    m.outgoing.permits.eval v = false := by
  have hholds := h.holds
  unfold ExportHolds at hholds
  rw [h.protocol, isActive_ospf, h.runs, hruns, h.record] at hholds
  exact hholds

theorem sent (h : s.SentBy v r subnets best m₀ m) (hruns : m.edge.start.runsOspf) :
    (s.matching subnets v).getLast?.elim (s.SendsBest r best m₀ v) fun subnet =>
      IsOriginated m.outgoing v .ospf m₀.edge.start.ospfArea m₀.edge.start.ospfCost subnet.length := by
  have hholds := h.holds
  unfold ExportHolds at hholds
  rw [h.protocol, isActive_ospf, h.runs, hruns, sending_ospf h.protocol, h.record] at hholds
  exact hholds

variable (hsources : s.sourcesOf m.router .ospf = [])
include hsources

theorem forwards (h : s.SentBy v r subnets best m₀ m) (hruns : m.edge.start.runsOspf)
    (hroot : s.matching subnets v = []) (hpolicy : ∀ policy, Topology.commonPolicy r .ospf = .ok policy → policy = none)
    (hlink : (s.notFailed m₀.edge).eval v) (hp : best.permits.eval v) (hfrom : best.IsFrom v .ospf) :
    ∃ c, m₀.edge.start.ospfCost.integer = .ok c ∧ (s.exportTransfer r best m₀).Passes v c := by
  have hsent := h.sent hruns
  rw [hroot] at hsent
  obtain ⟨policy, hexport, hyes, -⟩ := hsent
  rw [h.protocol] at hexport hyes
  obtain rfl := hpolicy policy hexport
  have hsends : s.Sends best m₀ v := by
    refine ⟨?_, hp, hlink, ?_⟩
    · rw [sending_ospf h.protocol]
      rfl
    · rw [h.protocol, h.sender]
      exact (holds_redistributionGuard hsources).2 hfrom
  -- the policy accepts routes of OSPF
  have hpolicy : (s.exportTransfer r best m₀).Holds (Transfer.only .ospf) v := hyes hsends
  obtain ⟨c, hc, hpasses, -⟩ := holds_only.1 hpolicy
  have hcost : (s.exportTransfer r best m₀).addedCost = m₀.edge.start.ospfCost :=
    congrArg Prod.snd (sending_ospf h.protocol)
  have hcame := (cameFrom_iff (t := s.exportTransfer r best m₀) (v := v)).2
  have hprotocol : (s.exportTransfer r best m₀).fromProtocol = .ospf := h.protocol
  rw [hprotocol] at hcame
  exact ⟨c, hcost ▸ hc, hpasses (hcame hfrom)⟩

theorem from_best (h : s.SentBy v r subnets best m₀ m) (hroot : s.matching subnets v = [])
    (hp : m.outgoing.permits.eval v) : m.edge.start.runsOspf ∧ (s.notFailed m₀.edge).eval v ∧
      best.permits.eval v ∧ best.IsFrom v .ospf := by
  cases hruns : m.edge.start.runsOspf with
  | false => cases hp.symm.trans (h.silent hruns)
  | true =>
    have hsent := h.sent hruns
    rw [hroot] at hsent
    obtain ⟨policy, -, -, hno⟩ := hsent
    by_cases hsends : s.Sends best m₀ v
    · refine ⟨rfl, hsends.link, hsends.permits, ?_⟩
      have hguard := hsends.source
      rw [h.protocol, h.sender] at hguard
      exact (holds_redistributionGuard hsources).1 hguard
    · have hnot := hno hsends
      rw [h.record] at hnot
      cases hp.symm.trans hnot

end SentBy

end Slice

/-! ## §3. Received routes -/

namespace Slice

variable (s : Slice) (v : Valuation)

/-- A route is received over an OSPF lane as the other side sends it. -/
structure Takes (l m : Lane) (x : Record) : Prop where
  opposite : s.opposite? l = some m
  incoming : s.incoming l = .ok x
  runs : l.edge.start.runsOspf
  permits : x.permits.eval v
  sent : m.outgoing.permits.eval v
  conveys : x = m.outgoing ∨ ∃ r, x = l.incoming ∧
    (s.importTransfer r l m.outgoing).Conveys v [] 0 (m.outgoing.under v)

end Slice

namespace Frame

/-- Nothing is announced to OSPF from outside of the network. -/
theorem across_ospf (hp : l.protocol = .ospf) : (f.slice rs).across? l .incoming =
    ((f.slice rs).opposite? l).map Lane.outgoing := by
  unfold Slice.across?
  cases (f.slice rs).opposite? l with
  | some m => rfl
  | none => exact announcement_none (by rw [hp]; nofun)

theorem runs_of_unused (hbuild : Topology.build n selection = .ok f.topology) (hnames : f.topology.NamesInterfaces)
    (hplan : f.IsDecided basis) (hl : l ∈ f.allLanes)
    (hp : l.protocol = .ospf) (hused : l.incoming.used = false) : l.edge.start.runsOspf := by
  obtain ⟨r, -, hname, hmerged⟩ := isMergedImport_of_unused hplan hl hused
  obtain ⟨d, hd, hid, hidentity⟩ := hmerged.identity
  rw [hname] at hd
  obtain rfl := edge_ext hbuild hnames hd (lane_edge hl) hid
  rw [← isActive_ospf, ← hp]
  exact (Bool.and_eq_true_iff.1 hidentity).1

theorem importTransfer_entering (hp : l.protocol = .ospf) (r : Router) (source : Record) :
    ((f.slice rs).importTransfer r l source).entering v = source.under v := by
  refine entering_eq (nofun) ?_
  show (!false && l.protocol == .bgp && _) = false
  rw [hp]
  rfl

section

variable (hplan : f.IsDecided basis) (h : (f.slice rs).TransfersHold v) (hl : l ∈ f.allLanes)
  (hp : l.protocol = .ospf)
include hplan h hl hp

theorem import_ospf (hused : l.incoming.used) :
    match (f.slice rs).opposite? l with
    | none => l.incoming.permits.eval v = false
    | some m => ∃ r subnets, f.topology.router l.router = .ok r ∧ r.originated .ospf = .ok subnets ∧
      ((f.slice rs).Receives l v subnets m.outgoing →
        ((f.slice rs).importTransfer r l m.outgoing).Passes v 0) ∧
      (¬ (f.slice rs).Receives l v subnets m.outgoing → l.incoming.permits.eval v = false) := by
  obtain ⟨r, hr, -, hmem, -, -, -, -, himports, -⟩ := lanesHold_of_mem hplan h hl
  have hholds := himports l hmem hused
  rw [hp] at hholds
  rw [across_ospf hp] at hholds
  cases hopposite : (f.slice rs).opposite? l with
  | none =>
    rw [hopposite] at hholds
    exact hholds
  | some m =>
    rw [hopposite] at hholds
    obtain ⟨subnets, policy, hsubnets, hpolicy, hyes, hno⟩ := hholds
    rw [hp] at hsubnets hpolicy
    cases hpolicy
    refine ⟨r, subnets, hr, hsubnets, fun hreceives => ?_, hno⟩
    obtain ⟨c, hc, hpasses⟩ := holds_accept.1 (hyes hreceives)
    cases hc
    exact hpasses

/-- **A received OSPF route is one that the other side sends.** -/
theorem takes_of_permits (hbuild : Topology.build n selection = .ok f.topology) (hnames : f.topology.NamesInterfaces)
    (hx : (f.slice rs).incoming l = .ok x) (hpermits : x.permits.eval v) : ∃ m, (f.slice rs).Takes v l m x := by
  rcases incoming_cases hx with ⟨hused, rfl⟩ | ⟨hused, m, hopposite, rfl⟩
  · have himport := import_ospf hplan h hl hp hused
    cases hopposite : (f.slice rs).opposite? l with
    | none =>
      rw [hopposite] at himport
      cases hpermits.symm.trans himport
    | some m =>
      rw [hopposite] at himport
      obtain ⟨r, subnets, -, -, hyes, hno⟩ := himport
      by_cases hreceives : (f.slice rs).Receives l v subnets m.outgoing
      · -- the transfer conveys the route, as it was not lost
        have hconveys := ((hyes hreceives).conveyed hpermits).2
        rw [importTransfer_entering hp] at hconveys
        have hruns : l.edge.start.runsOspf := by
          rw [← isActive_ospf, ← hp]
          exact hreceives.active
        exact ⟨m, hopposite, hx, hruns, hpermits, hreceives.permits, .inr ⟨r, rfl, hconveys⟩⟩
      · cases hpermits.symm.trans (hno hreceives)
  · exact ⟨m, hopposite, hx, runs_of_unused hbuild hnames hplan hl hp hused, hpermits, hpermits, .inl rfl⟩

/-- **A sent OSPF route is received**, unless the router originates the destination or the metric is too large. -/
theorem takes_of_sent (hx : (f.slice rs).incoming l = .ok x) (hopposite : (f.slice rs).opposite? l = some m)
    (hruns : l.edge.start.runsOspf) (hlink : (f.notFailed l.edge).eval v)
    (hroot : ∀ r subnets, f.topology.router l.router = .ok r → r.originated .ospf = .ok subnets →
      (f.packet.isBoundFor subnets).eval v = false)
    (hsent : m.outgoing.permits.eval v) {k : Int} (hmetric : (m.outgoing.under v).number .metric = some k)
    (hk : k ≤ 65535) : (f.slice rs).Takes v l m x := by
  rcases incoming_cases hx with ⟨hused, rfl⟩ | ⟨hused, m', hm', rfl⟩
  · have himport := import_ospf hplan h hl hp hused
    rw [hopposite] at himport
    obtain ⟨r, subnets, hr, hsubnets, hyes, -⟩ := himport
    have hactive : Topology.isActive l.protocol l.edge.start := by
      rw [hp, isActive_ospf]
      exact hruns
    have hpasses := hyes ⟨hroot r subnets hr hsubnets, hactive, hsent, hlink⟩
    have hfits : ((f.slice rs).importTransfer r l m.outgoing).Fits
        (((f.slice rs).importTransfer r l m.outgoing).sentMetric v 0
          (((f.slice rs).importTransfer r l m.outgoing).entering v)) := by
      intro limit hlimit
      have hlimit : l.protocol.maxMetric? = some limit := hlimit
      rw [hp] at hlimit
      cases hlimit
      rw [importTransfer_entering hp]
      show ((m.outgoing.under v).number .metric).getD _ + 0 ≤ 65535
      rw [hmetric, getD_some]
      omega
    have hconveys := hpasses.conveys hfits
    rw [importTransfer_entering hp] at hconveys
    exact ⟨hopposite, hx, hruns, hconveys.permits.trans hsent, hsent, .inr ⟨r, rfl, hconveys⟩⟩
  · cases hopposite.symm.trans hm'
    exact ⟨hopposite, hx, hruns, hsent, hsent, .inl rfl⟩

end

end Frame

/-! ## §4. Best routes -/

theorem Route.Agrees.refl (p : Protocol) (x : Route) : x.Agrees p x :=
  ⟨fun a n _ hn => by rw [hn, getD_some], rfl⟩

theorem Enumeration.frozen_of_equal {α : Type} {name : String} {values : List α}
    (h : ((planned name values).equal (planned name' values)).eval v) :
    (planned name values).frozen v = (planned name' values).frozen v := by
  unfold planned at h ⊢
  split
  next hwidth => rfl
  next hwidth =>
    rw [if_neg hwidth, if_neg hwidth] at h
    unfold frozen
    simp only [map_some, Term.frozen_eq_iff.2 ((Term.eval_eq v _ _).1 h)]

theorem Comparing.sameHistory_of_isSame {c : Comparing} {y : Record} {withCommunities : Bool} {t : Term .bool}
    (h : c.isSame x y withCommunities = .ok t) (ht : t.eval v) : (sameHistory x y).eval v := by
  obtain ⟨area, -, h⟩ := bind_eq_ok.1 h
  obtain ⟨ids, -, h⟩ := bind_eq_ok.1 h
  cases h
  rw [Term.eval_allOf, all_append] at ht
  simp only [all_cons, Bool.and_eq_true] at ht
  exact ht.1.2.2.2.2.2.2.2.2.1

namespace Frame

variable {p : Protocol}

theorem bestOf_history (hname : name ∈ f.topology.names) (hp : p ∈ f.protocols name) (h : (f.slice rs).SelectionHolds v)
    (hb : (f.slice rs).bestOf name p = .ok b) (hpermits : b.permits.eval v) : b.IsFrom v p := by
  have hrecords := h.history (f.bestRecords name) (mem_map_of_mem hname)
  rw [slice_bestOf hname hp] at hb
  cases hb
  unfold Slice.HistoryHolds at hrecords
  cases hsingle : f.isSingle name with
  | true =>
    obtain ⟨q, hq⟩ := isSingle_protocols hsingle
    obtain rfl : p = q := by rwa [hq, mem_singleton] at hp
    rw [hsingle] at hpermits
    rw [show (f.slice rs).isSingle (f.bestRecords name).router from hsingle] at hrecords
    exact hrecords p (by show (f.protocols name).head? = _; rw [hq]; rfl) hpermits
  | false =>
    rw [hsingle] at hpermits
    rw [show (f.slice rs).isSingle (f.bestRecords name).router = false from hsingle] at hrecords
    exact hrecords (p, _) (mem_perProtocol.2 ⟨hsingle, p, hp, rfl⟩) hpermits

variable (hplan : f.IsDecided basis)
include hplan

theorem overall_agrees (h : (f.slice rs).SelectionHolds v) (hr : f.topology.router name = .ok r)
    (hpermits : (f.bestRecord name "OVERALL" .best).permits.eval v) :
    ∃ p ∈ f.protocols name, ∃ b, (f.slice rs).bestOf name p = .ok b ∧ b.permits.eval v ∧
      ((f.bestRecord name "OVERALL" .best).under v).Agrees p (b.under v) ∧
      (f.bestRecord name "OVERALL" .best).IsFrom v p ∧
      ∀ q, (f.bestRecord name "OVERALL" .best).IsFrom v q → q = p := by
  have hnames := mem_names hr
  -- the history of a best record is an enumeration of the protocols
  have hvalue : ∀ label p q, (f.bestRecord name label p).IsFrom v q ↔
      (f.historyOf name (f.recordName name label "none" "BEST")).valueUnder v = some q := by
    intro label p q
    have hhistory : (f.bestRecord name label p).history =
        some (f.historyOf name (f.recordName name label "none" "BEST")) := rfl
    unfold Record.IsFrom
    rw [hhistory]
    simp [eval_isValue]
  have hfrom : ∀ p q, (f.bestRecord name "OVERALL" .best).IsFrom v p →
      (f.bestRecord name "OVERALL" .best).IsFrom v q → q = p := by
    intro p q hp hq
    rw [hvalue] at hp hq
    exact Option.some.inj (hq.symm.trans hp)
  obtain ⟨p, hp, b, hb, hbv, hone, hsame⟩ := overall_isOne h hr hpermits
  have hhistory := bestOf_history hnames hp h hb hbv
  cases hsingle : f.isSingle name with
  | true =>
    obtain rfl := hone hsingle
    exact ⟨p, hp, _, hb, hpermits, .refl p _, hhistory, fun q => hfrom p q hhistory⟩
  | false =>
    obtain ⟨t, ht, htv⟩ := hsame hsingle
    have hbest := hb
    rw [slice_bestOf hnames hp, hsingle, if_neg Bool.false_ne_true] at hbest
    cases hbest
    obtain ⟨q, -, hdecides⟩ := decides_protocol hplan hr hp
    have hagrees := isSame_agrees planned_holdsType planned_holdsType
      (bestRecord_covers hdecides.ne_best hp).ospfType ht htv
    -- both histories stand for the same protocol
    have hsame := frozen_of_equal (sameHistory_of_isSame ht htv)
    have hoverall : (f.bestRecord name "OVERALL" .best).IsFrom v p := by
      rw [hvalue, ← valueUnder_frozen v v] at hhistory ⊢
      exact (congrArg (fun e => e.valueUnder v) hsame).trans hhistory
    exact ⟨p, hp, _, hb, hbv, hagrees, hoverall, fun q => hfrom p q hoverall⟩

variable (h : (f.slice rs).SelectionHolds v) (hr : f.topology.router name = .ok r) (hp : p ∈ f.protocols name)
  (hb : (f.slice rs).bestOf name p = .ok b)
include hr hp hb

theorem bestOf_covers (hl : l ∈ (f.slice rs).lanesOf name p) (hx : (f.slice rs).incoming l = .ok x) :
    b.Covers x ∧ b.HoldsType ∧ x.HoldsType := by
  obtain ⟨label, router, rfl⟩ := slice_imports_planned ⟨hp, hl, hx⟩
  obtain ⟨q, -, hdecides⟩ := decides_protocol hplan hr hp
  rw [slice_bestOf (mem_names hr) hp] at hb
  cases hb
  split
  · exact ⟨overall_covers hdecides.ne_best hp, planned_holdsType, planned_holdsType⟩
  · exact ⟨planned_covers_same hdecides.ne_best, planned_holdsType, planned_holdsType⟩

include h

theorem best_agrees (hpermits : b.permits.eval v) :
    ∃ l ∈ (f.slice rs).lanesOf name p, ∃ x, (f.slice rs).incoming l = .ok x ∧
      x.permits.eval v ∧ (b.under v).Agrees p (x.under v) ∧ b.Covers x := by
  obtain ⟨-, x, ⟨l, hl, hx, rfl⟩, hxv, t, ht, htv⟩ := (isBest_bestOf h hr hp hb).isOne hpermits
  rw [(mem_routers hr).2] at hl
  obtain ⟨hcovers, hbtype, hxtype⟩ := bestOf_covers hplan hr hp hb hl hx
  exact ⟨l, hl, x, hx, hxv, isSame_agrees hbtype hxtype hcovers.ospfType ht htv, hcovers⟩

theorem chosen_agrees (hl : l ∈ (f.slice rs).lanesOf name p) (hchoice : l.choice.eval v) :
    ∃ x, (f.slice rs).incoming l = .ok x ∧ x.permits.eval v ∧ (b.under v).Agrees p (x.under v) := by
  obtain ⟨hmem, rfl⟩ := mem_routers hr
  obtain ⟨b', x, hb', hx, hiff⟩ := h.choices r hmem p hp l hl
  cases hb.symm.trans hb'
  obtain ⟨hxv, t, ht, htv⟩ := hiff.1 hchoice
  obtain ⟨hcovers, hbtype, hxtype⟩ := bestOf_covers hplan hr hp hb hl hx
  exact ⟨x, hx, hxv, isSame_agrees hbtype hxtype hcovers.ospfType ht htv⟩

end Frame

/-! ## §5. The history of a route -/

/-- How an OSPF route came to a router: it was originated by the router at the other side of a lane, or it is the
best route there, which arrived in turn. -/
inductive Slice.Arrives (s : Slice) (v : Valuation) : Lane → Record → Prop
  | originated {l m m₀ : Lane} {x best : Record} {r : Router} {subnets : List Subnet} {subnet : Subnet}
      (takes : s.Takes v l m x) (sentBy : s.SentBy v r subnets best m₀ m) (runs : m.edge.start.runsOspf)
      (origin : subnet ∈ s.matching subnets v)
      (route : Slice.IsOriginated m.outgoing v .ospf m₀.edge.start.ospfArea m₀.edge.start.ospfCost subnet.length) :
      Arrives s v l x
  | forwarded {l m m₀ l' : Lane} {x best y : Record} {r : Router} {subnets : List Subnet} {cost : Int}
      (takes : s.Takes v l m x) (sentBy : s.SentBy v r subnets best m₀ m) (runs : m.edge.start.runsOspf)
      (root : s.matching subnets v = []) (integer : m₀.edge.start.ospfCost.integer = .ok cost)
      (conveys : (s.exportTransfer r best m₀).Conveys v [] cost ((s.exportTransfer r best m₀).entering v))
      (lane : l' ∈ s.lanesOf m.router .ospf) (incoming : s.incoming l' = .ok y)
      (agrees : (best.under v).Agrees .ospf (y.under v)) (arrives : Arrives s v l' y) : Arrives s v l x

namespace Frame

def IsOspfRecord (f : Frame) (x : Record) : Prop :=
  ∃ label router p history, (p = .ospf ∨ p = .best) ∧ x = .planned f label router p history

theorem IsOspfRecord.metric (h : f.IsOspfRecord x) : ∃ k, (x.under v).number .metric = some k := by
  obtain ⟨label, router, p, history, hp, rfl⟩ := h
  rcases hp with rfl | rfl <;> exact ⟨_, rfl⟩

theorem incoming_isOspfRecord (hl : l ∈ f.allLanes) (hp : l.protocol = .ospf)
    (hx : (f.slice rs).incoming l = .ok x) : f.IsOspfRecord x := by
  obtain ⟨label, router, rfl⟩ := slice_incoming hl hx
  exact ⟨label, router, _, none, .inl hp, rfl⟩

theorem outgoing_isOspfRecord (hm : m ∈ f.allLanes) (hp : m.protocol = .ospf) : f.IsOspfRecord m.outgoing := by
  obtain ⟨d, -, q, -, e, -, rfl⟩ := mem_allLanes.1 hm
  obtain ⟨label, hrecord⟩ := exportRecord_planned (f := f) d.router q e
  exact ⟨label, d.router, q.protocol, none, .inl hp, hrecord⟩

theorem overall_isOspfRecord (name : Name) : f.IsOspfRecord (f.bestRecord name "OVERALL" .best) :=
  ⟨_, _, _, _, .inr rfl, rfl⟩

/-- Receiving a route does not change its metric. -/
theorem metric_of_takes (htakes : (f.slice rs).Takes v l m x) (hl : l ∈ f.allLanes)
    (hp : l.protocol = .ospf) : (m.outgoing.under v).number .metric = (x.under v).number .metric := by
  rcases htakes.conveys with rfl | ⟨r, rfl, hconveys⟩
  · rfl
  · obtain ⟨hm, hmp, -⟩ := mem_opposite htakes.opposite
    obtain ⟨k, hk⟩ := (outgoing_isOspfRecord hm (hmp.trans hp)).metric (v := v)
    obtain ⟨j, hj⟩ := (incoming_isOspfRecord hl hp htakes.incoming).metric (v := v)
    have hsame : j = ((m.outgoing.under v).number .metric).getD 0 + 0 := hconveys.number .metric j hj
    rw [hk, getD_some, Int.add_zero] at hsame
    rw [hk, hj, hsame]

theorem metric_of_sent {c j : Int}
    (hconveys : ((f.slice rs).exportTransfer r best m₀).Conveys v [] c
      (((f.slice rs).exportTransfer r best m₀).entering v))
    (hj : (m₀.outgoing.under v).number .metric = some j) : j = ((best.under v).number .metric).getD 0 + c := by
  have hsame : j = ((((f.slice rs).exportTransfer r best m₀).entering v).number .metric).getD 0 + c :=
    hconveys.number .metric j hj
  rw [number_entering (by decide) (by decide)] at hsame
  exact hsame

/-- **Every received OSPF route has arrived from where it was originated.**  Its metric is larger than that of the
best route that it was sent as. -/
theorem arrives_of_permits (hbuild : Topology.build n selection = .ok f.topology) (hspreads : f.topology.SpreadsOspf)
    (hredistributions : f.redistributions = .ok rs)
    (hplan : f.IsDecided basis) (h : (f.slice rs).IsState basis.failures v)
    (hl : l ∈ f.allLanes) (hp : l.protocol = .ospf) (hx : (f.slice rs).incoming l = .ok x)
    (hpermits : x.permits.eval v) : (f.slice rs).Arrives v l x := by
  obtain ⟨k, hk⟩ := (incoming_isOspfRecord hl hp hx).metric (v := v)
  -- by induction on the metric, which is not negative
  have hnonneg : ∀ {y : Record} {n : Int}, y ∈ f.records → (y.under v).number .metric = some n → 0 ≤ n :=
    fun hy hn => ((h.records _ hy).numbers .metric _ hn).1
  have hk0 := hnonneg (incoming_mem hl hx) hk
  obtain ⟨j, rfl⟩ := Int.eq_ofNat_of_zero_le hk0
  clear hk0
  induction j using Nat.strongRecOn generalizing l x with
  | ind j ih =>
    obtain ⟨m, htakes⟩ := takes_of_permits hplan h.transfers hl hp hbuild hspreads.interfaces hx hpermits
    obtain ⟨hm, hmp, -⟩ := mem_opposite htakes.opposite
    have hmp : m.protocol = .ospf := hmp.trans hp
    obtain ⟨r, subnets, best, m₀, hsent⟩ := sentBy hplan h.transfers hm hmp
    cases hruns : m.edge.start.runsOspf with
    | false => cases htakes.sent.symm.trans (hsent.silent hruns)
    | true =>
      cases hlast : ((f.slice rs).matching subnets v).getLast? with
      | some subnet =>
        have hroute := hsent.sent hruns
        rw [hlast] at hroute
        exact .originated htakes hsent hruns (mem_of_getLast? hlast) hroute
      | none =>
        have hroot := getLast?_eq_none_iff.1 hlast
        have hsources := sourcesOf_ospf hspreads hredistributions hsent.router
        obtain ⟨-, hlink, hbest, hfrom⟩ := hsent.from_best hsources hroot htakes.sent
        have hpolicy := hspreads.policy r (mem_routers hsent.router).1
        obtain ⟨c, hc, hpasses⟩ := hsent.forwards hsources hruns hroot hpolicy hlink hbest hfrom
        have hsentv : m₀.outgoing.permits.eval v := by
          rw [hsent.record]
          exact htakes.sent
        have hconveys := (hpasses.conveyed hsentv).2
        -- the best route there is one that was received
        have hnames : m.router ∈ f.topology.names := mem_names hsent.router
        obtain rfl := eq_overall hnames hsent.overall
        obtain ⟨p, hpmem, b, hb, hbv, hagrees, -, honly⟩ := overall_agrees hplan h.selection hsent.router hbest
        obtain rfl := honly .ospf hfrom
        obtain ⟨l', hl', y, hy, hyv, hby, hcovers⟩ := best_agrees hplan h.selection hsent.router hpmem hb hbv
        have hagrees := hagrees.trans hby fun a ha hnone =>
          map_eq_none_iff.2 (hcovers.number a ha (map_eq_none_iff.1 hnone))
        obtain ⟨hl'mem, -, hl'p⟩ := mem_lanesOf.1 hl'
        -- and its metric is smaller
        have hstart : m₀.edge.start ∈ r.interfaces :=
          start_mem hbuild hsent.router (hsent.sender ▸ lane_edge hsent.lane)
        have hcost := hspreads.cost r (mem_routers hsent.router).1 _ hstart (hsent.runs.trans hruns) c hc
        obtain ⟨i, hi⟩ := (incoming_isOspfRecord hl'mem hl'p hy).metric (v := v)
        obtain ⟨o, ho⟩ := (overall_isOspfRecord (f := f) m.router).metric (v := v)
        have hoi : o = i := by
          have := hagrees.number .metric o (by decide) ho
          rwa [hi] at this
        have hj : (m₀.outgoing.under v).number .metric = some (Int.ofNat j) := by
          rw [hsent.record, metric_of_takes htakes hl hp]
          exact hk
        have hsum := metric_of_sent hconveys hj
        rw [ho, hoi] at hsum
        have hi0 := hnonneg (incoming_mem hl'mem hy) hi
        obtain ⟨i, rfl⟩ := Int.eq_ofNat_of_zero_le hi0
        have hlt : i < j := by
          have : (j : Int) = i + c := hsum
          omega
        exact .forwarded htakes hsent hruns hroot hc hconveys hl' hy hagrees (ih i hlt hl'mem hl'p hy hyv hi)

end Frame

end ControlPlane
