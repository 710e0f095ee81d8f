import ControlPlane.Proofs.Slice.Forwarding
import ControlPlane.Proofs.Transfer.Metrics

/-!
# Where routes come from

A state only has to be stable, so routers in a circle could hold a route that nobody announced, each because of the
next one.  Where metrics grow from router to router this cannot happen: every route can be followed back to an
announcement, a network of its router or a route that a router has by itself.
-/
namespace ControlPlane

variable {selection : Document} {f : Frame} {n : Network} {p : Protocol} {x : Record} {r : Router} {a : Stage}
  {v : Valuation}

/-! ## §1. Networks where metrics grow -/

namespace Topology

/-- Metrics grow from router to router: no policy sets or shortens them, every OSPF interface costs something, and
all BGP sessions are external. -/
structure GrowsMetrics (t : Topology) : Prop where
  policies : ∀ r ∈ t.routers, ∀ p ∈ r.policies, Statement.keepMetric p.statements
  costs : ∀ r ∈ t.routers, ∀ i ∈ r.interfaces, i.runsOspf → ∀ c, i.ospfCost.integer = .ok c → 1 ≤ c
  external : ∀ x ∈ t.sessions, x.2.isExternal

instance (t : Topology) : Decidable t.GrowsMetrics :=
  decidable_of_iff (_ ∧ _ ∧ _) ⟨fun h => ⟨h.1, h.2.1, h.2.2⟩, fun h => ⟨h.policies, h.costs, h.external⟩⟩

variable {t : Topology} {e : Edge} {policy : RoutingPolicy}

theorem mem_of_lookup {α β : Type} [BEq α] {k : α} {y : β} {xs : List (α × β)} (h : xs.lookup k = some y) :
    ∃ x ∈ xs, x.2 = y := by
  induction xs with
  | nil => cases h
  | cons x rest ih =>
    rw [List.lookup_cons] at h
    split at h
    · exact ⟨x, List.mem_cons_self, Option.some.inj h⟩
    · obtain ⟨z, hz, hy⟩ := ih h
      exact ⟨z, List.mem_cons_of_mem x hz, hy⟩

theorem GrowsMetrics.not_internal (h : t.GrowsMetrics) (e : Edge) : t.isInternal e = false := by
  unfold isInternal
  split
  next n hn =>
    obtain ⟨x, hx, rfl⟩ := mem_of_lookup hn
    rw [h.external x hx, Bool.not_true]
  next => rfl

theorem policyNamed_mem {name : Document} (h : policyNamed r name = .ok (some policy)) : policy ∈ r.policies := by
  unfold policyNamed at h
  split at h
  next => cases h
  next =>
    cases hpolicy : r.policy name with
    | error f =>
      rw [hpolicy] at h
      exact absurd h (by simp [Functor.map, Except.map])
    | ok q =>
      rw [hpolicy] at h
      obtain rfl := Option.some.inj (Except.ok.inj h)
      exact Policy.mem_policies hpolicy

theorem importPolicy_mem (h : t.importPolicy r p e = .ok (some policy)) : policy ∈ r.policies := by
  unfold importPolicy at h
  split at h
  · split at h
    · cases h
    · exact policyNamed_mem h
  · cases h
  · cases h

theorem exportPolicy_mem (h : t.exportPolicy r p e = .ok (some policy)) : policy ∈ r.policies := by
  unfold exportPolicy at h
  split at h
  · unfold commonPolicy at h
    dsimp only at h
    split at h
    · cases h
    · exact policyNamed_mem h
  · split at h
    · cases h
    · exact policyNamed_mem h
  · cases h
  · cases h

namespace GrowsMetrics

variable {found : Option RoutingPolicy} (h : t.GrowsMetrics) (hr : r ∈ t.routers)
include h hr

theorem importStatements (hpolicy : t.importPolicy r p e = .ok found) :
    Statement.keepMetric (Slice.importStatements found) := by
  cases found with
  | none => rfl
  | some policy => exact h.policies r hr policy (importPolicy_mem hpolicy)

theorem exportStatements (hpolicy : t.exportPolicy r p e = .ok found) :
    Statement.keepMetric (Slice.exportStatements p found) := by
  have hstatements : ∀ policy, found = some policy → Statement.keepMetric policy.statements := by
    intro policy hfound
    rw [hfound] at hpolicy
    exact h.policies r hr policy (exportPolicy_mem hpolicy)
  unfold Slice.exportStatements
  cases found with
  | none => cases p <;> rfl
  | some policy =>
    have hkeep := hstatements policy rfl
    cases p with
    | ospf =>
      -- OSPF routes do not come to the policy
      simp [Statement.keepMetric, Statement.keepsMetric, hkeep]
    | _ => exact hkeep

end GrowsMetrics

end Topology

/-! ## §2. Metrics of records -/

def Record.metricUnder (x : Record) (v : Valuation) : Int := ((x.under v).number .metric).getD 0

/-- **A transfer adds its cost to the metric**, at least. -/
theorem Transfer.Holds.metric_le {t : Transfer} {policy : List Statement} (h : t.Holds policy v)
    (hp : t.target.permits.eval v) (hmetric : t.target.metric.isSome)
    (hpolicies : ∀ p ∈ t.router.policies, Statement.keepMetric p.statements)
    (hpolicy : Statement.keepMetric policy) :
    ∃ cost, t.addedCost.integer = .ok cost ∧ t.source.metricUnder v + cost ≤ t.target.metricUnder v := by
  obtain ⟨x, cost, hx, hcost, -, -, hconveys⟩ := h.conveyed hp
  have hle := groundBody_metric hpolicies hpolicy hx
  obtain ⟨term, hterm⟩ := Option.isSome_iff_exists.1 hmetric
  have hnumber : (t.target.under v).number .metric = some (term.eval v) := by
    show t.target.metric.map _ = _
    rw [hterm]
    rfl
  have hsent : term.eval v = (t.setting v).numberOf x.2.route .metric + cost := hconveys.number .metric _ hnumber
  have hentering : (t.setting v).numberOf (t.entering v) .metric = t.source.metricUnder v := by
    show ((t.entering v).number .metric).getD 0 = _
    rw [number_entering (by decide) (by decide)]
    rfl
  refine ⟨cost, hcost, ?_⟩
  show _ ≤ ((t.target.under v).number .metric).getD 0
  rw [hnumber, Option.getD_some, hsent]
  omega

theorem Slice.SameRoute.metric_eq {c : Comparing} {y : Record} (h : Slice.SameRoute v c x y) (hcovers : x.Covers y) :
    x.metricUnder v = y.metricUnder v := by
  have hsame := (Slice.same_of_sameRoute h).number .metric (by decide)
  have hnone := hcovers.number .metric (by decide)
  show ((x.int? .metric).map _).getD 0 = ((y.int? .metric).map _).getD 0
  cases hx : x.int? .metric with
  | none => rw [hnone hx]
  | some i =>
    rw [hx] at hsame
    have heq : i.eval v = ((y.int? .metric).getD (.intLit 0)).eval v := (Term.eval_eq v _ _).1 hsame
    rw [Option.map_some, heq]
    cases y.int? .metric <;> rfl

theorem Frame.metric_isSome {label : String} {router : Name} {history : Option (Enumeration Protocol)}
    (hp : p.isLocal = false) : (Record.planned f label router p history).metric.isSome := by
  cases p with
  | connected => cases hp
  | static => cases hp
  | _ => rfl

/-! ## §3. Following routes back -/

/-- A place where a slice has a route: over a lane, or at a router. -/
inductive Stage where
  | received (l : Lane)
  | sent (l : Lane)
  | best (router : Name) (p : Protocol)
  | overall (router : Name)

/-- How far a stage is from the one where routes are sent. -/
def Stage.rank : Stage → Nat
  | .sent _ => 0
  | .received _ => 1
  | .best _ _ => 2
  | .overall _ => 3

namespace Slice

variable (s : Slice) (v : Valuation)

def HasStage : Stage → Prop
  | .received l => l ∈ s.lanes
  | .sent l => l ∈ s.lanes
  | .best router p => router ∈ s.topology.names ∧ p ∈ s.protocols router
  | .overall router => router ∈ s.topology.names

def recordAt : Stage → Except Failure Record
  | .received l => s.incoming l
  | .sent l => .ok l.outgoing
  | .best router p => s.bestOf router p
  | .overall router => s.overall router

structure HasRoute (a : Stage) (x : Record) : Prop where
  stage : s.HasStage a
  record : s.recordAt a = .ok x
  permits : x.permits.eval v

/-- One step back on the way of a route.  Where several records equal a best one, each of them is a step. -/
inductive Follows : Stage → Stage → Prop
  | sent {l m : Lane} (exchanges : l.protocol.isLocal = false) (opposite : s.opposite? l = some m) :
      Follows (.received l) (.sent m)
  | overall {m : Lane} {r : Router} {subnets : List Subnet} (router : s.topology.router m.router = .ok r)
      (originated : r.originated m.protocol = .ok subnets) (root : s.matching subnets v = []) :
      Follows (.sent m) (.overall m.router)
  | best {r : Router} {p : Protocol} {best b : Record} (router : s.topology.router r.name = .ok r)
      (protocol : p ∈ s.protocols r.name) (overall : s.overall r.name = .ok best) (bestOf : s.bestOf r.name p = .ok b)
      (permits : b.permits.eval v)
      (same : s.isSingle r.name = false → SameRoute v (s.comparing r p none) best b) :
      Follows (.overall r.name) (.best r.name p)
  | received {r : Router} {p : Protocol} {b x : Record} {l : Lane} (router : s.topology.router r.name = .ok r)
      (lane : l ∈ s.lanesOf r.name p) (bestOf : s.bestOf r.name p = .ok b) (incoming : s.incoming l = .ok x)
      (permits : x.permits.eval v) (same : SameRoute v (s.comparing r p (some l)) b x) :
      Follows (.best r.name p) (.received l)

/-- All ways back from a stage end where a route starts: at an announcement from outside, at a route that a router
has by itself, or at a network that it originates. -/
inductive IsDerived : Stage → Prop
  | announced {l : Lane} {a x : Record} (route : s.HasRoute v (.received l) x) (outside : s.opposite? l = none)
      (announcement : s.announcement? l = some a) (permits : a.permits.eval v) : IsDerived (.received l)
  | own {l : Lane} {x : Record} (route : s.HasRoute v (.received l) x) (isOwn : l.protocol.isLocal) :
      IsDerived (.received l)
  | originated {m : Lane} {r : Router} {subnets : List Subnet} {n : Subnet} {x : Record}
      (route : s.HasRoute v (.sent m) x) (router : s.topology.router m.router = .ok r)
      (originated : r.originated m.protocol = .ok subnets) (origin : n ∈ s.matching subnets v) : IsDerived (.sent m)
  | step {a : Stage} {x : Record} (route : s.HasRoute v a x) (next : ∃ b, s.Follows v a b)
      (all : ∀ b, s.Follows v a b → IsDerived b) : IsDerived a

end Slice

/-! ## §4. Weights -/

namespace Frame

variable {rs : List Redistribution} {basis : Plan.Basis} {b : Stage} {l m : Lane}

/-- Metrics count most, and then how far a stage is from where routes are sent. -/
def weight (v : Valuation) (a : Stage) (x : Record) : Nat := 4 * (x.metricUnder v).toNat + a.rank

theorem received_step (hplan : f.IsDecided basis)
    (hgrows : f.topology.GrowsMetrics) (h : (f.slice rs).IsState basis.failures v) (hl : l ∈ f.allLanes)
    (hlocal : l.protocol.isLocal = false) (hx : (f.slice rs).incoming l = .ok x)
    (hpermits : x.permits.eval v) (hopposite : (f.slice rs).opposite? l = some m) :
    m.outgoing.permits.eval v ∧ m.outgoing.metricUnder v ≤ x.metricUnder v := by
  obtain ⟨source, htaken⟩ := takenFrom_of_permits hplan h.transfers hl hlocal hx hpermits
  obtain rfl : m.outgoing = source := by
    have hacross := htaken.across
    unfold Slice.across? at hacross
    rw [hopposite] at hacross
    exact Option.some.inj hacross
  refine ⟨htaken.sent, ?_⟩
  cases hused : l.incoming.used with
  | false =>
    obtain ⟨rfl, -⟩ := htaken.shared hused
    exact Int.le_refl _
  | true =>
    obtain ⟨rfl, r, policy, hr, hpolicy, hholds⟩ := htaken.conveyed hused
    have hmem := (mem_routers hr).1
    have hkeep := hgrows.importStatements hmem hpolicy
    have hmetric : l.incoming.metric.isSome := by
      obtain ⟨label, hrecord⟩ := incoming_planned hl hused
      rw [hrecord]
      exact metric_isSome hlocal
    obtain ⟨cost, hcost, hle⟩ := hholds.metric_le hpermits hmetric (hgrows.policies r hmem) hkeep
    cases hcost
    have hle : m.outgoing.metricUnder v + 0 ≤ l.incoming.metricUnder v := hle
    omega

section

variable (hbuild : Topology.build n selection = .ok f.topology)
  (hplan : f.IsDecided basis) (hgrows : f.topology.GrowsMetrics)
  (h : (f.slice rs).IsState basis.failures v)
include hbuild hplan hgrows h

/-- **Sending a route raises its metric.** -/
theorem sent_step (hm : m ∈ f.allLanes) (hpermits : m.outgoing.permits.eval v)
    (hr : f.topology.router m.router = .ok r) {subnets : List Subnet} (hnets : r.originated m.protocol = .ok subnets)
    (hroot : (f.slice rs).matching subnets v = []) :
    ∃ best, (f.slice rs).overall m.router = .ok best ∧ best.permits.eval v ∧
      best.metricUnder v < m.outgoing.metricUnder v := by
  obtain ⟨r', subnets', best, m₀, hdefined⟩ := definedBy_of_permits hplan h.transfers hm hpermits
  cases hr.symm.trans hdefined.router
  cases hnets.symm.trans hdefined.originated
  obtain ⟨hlocal, hactive⟩ := hdefined.isActive hpermits
  obtain ⟨hsends, policy, hpolicy, hholds⟩ := hdefined.sendsBest hpermits hroot
  refine ⟨best, hdefined.overall, hsends.permits, ?_⟩
  have hmem := (mem_routers hr).1
  have hkeep := hgrows.exportStatements hmem hpolicy
  have htarget : ((f.slice rs).exportTransfer r best m₀).target = m.outgoing := hdefined.record
  have hmetric : m.outgoing.metric.isSome := by
    obtain ⟨label, hrecord⟩ := outgoing_planned hm
    rw [hrecord]
    exact metric_isSome hlocal
  obtain ⟨cost, hcost, hle⟩ := hholds.metric_le (htarget ▸ hpermits) (htarget ▸ hmetric) (hgrows.policies r hmem) hkeep
  rw [htarget] at hle
  have hle : best.metricUnder v + cost ≤ m.outgoing.metricUnder v := hle
  -- every step costs something
  have hadded : ((f.slice rs).exportTransfer r best m₀).addedCost = Slice.addedCost m.protocol m₀.edge := by
    show ((f.slice rs).sending best m₀).2 = _
    unfold Slice.sending
    rw [show (f.slice rs).topology.isInternal m₀.edge = false from hgrows.not_internal m₀.edge,
      hdefined.protocol]
    cases m.protocol <;> rfl
  rw [hadded] at hcost
  have hpositive : 1 ≤ cost := by
    unfold Slice.addedCost at hcost
    split at hcost
    next hospf =>
      have hruns : m₀.edge.start.runsOspf := by
        rw [← Topology.isActive_ospf, ← hospf]
        exact hactive
      have hstart := Topology.start_mem hbuild hr (hdefined.sender ▸ lane_edge hdefined.lane)
      exact hgrows.costs r hmem _ hstart hruns cost hcost
    next =>
      cases hcost
      exact Int.le_refl 1
  omega

/-- **A step back leads to a route of smaller weight.** -/
theorem follows_route (ha : (f.slice rs).HasRoute v a x) (hfollows : (f.slice rs).Follows v a b) :
    ∃ y, (f.slice rs).HasRoute v b y ∧ weight v b y < weight v a x := by
  unfold weight
  cases hfollows with
  | @sent l m hlocal hopposite =>
    obtain ⟨hm, -⟩ := mem_opposite hopposite
    obtain ⟨hpermits, hle⟩ := received_step hplan hgrows h ha.stage hlocal ha.record ha.permits hopposite
    refine ⟨m.outgoing, ⟨hm, rfl, hpermits⟩, ?_⟩
    simp only [Stage.rank]
    omega
  | @overall m r subnets hr hnets hroot =>
    cases ha.record
    obtain ⟨best, hbest, hpermits, hlt⟩ := sent_step hbuild hplan hgrows h ha.stage ha.permits hr hnets hroot
    have hnames : m.router ∈ f.topology.names := mem_names hr
    refine ⟨best, ⟨hnames, hbest, hpermits⟩, ?_⟩
    -- metrics are not negative
    have hnonneg : 0 ≤ best.metricUnder v := by
      rw [slice_overall hnames] at hbest
      cases hbest
      obtain ⟨k, hk⟩ := (overall_isOspfRecord (f := f) m.router).metric (v := v)
      have hvalid := (h.records _ (mem_overall hnames)).numbers .metric k hk
      unfold Record.metricUnder
      rw [hk]
      exact hvalid.1
    simp only [Stage.rank]
    omega
  | @best r p best b hr hp hbest hb hpermits hsame =>
    obtain rfl := Except.ok.inj (hbest.symm.trans ha.record)
    have hnames : r.name ∈ f.topology.names := mem_names hr
    have hmetric : best.metricUnder v = b.metricUnder v := by
      have hb' := hb
      rw [slice_overall hnames] at hbest
      rw [slice_bestOf hnames hp] at hb'
      cases hbest
      cases hsingle : f.isSingle r.name with
      | true =>
        rw [hsingle, if_pos rfl] at hb'
        rw [Except.ok.inj hb']
      | false =>
        rw [hsingle] at hb'
        obtain ⟨q, -, hdecides⟩ := decides_protocol hplan hr hp
        cases hb'
        exact (hsame hsingle).metric_eq (bestRecord_covers hdecides.ne_best hp)
    refine ⟨b, ⟨⟨hnames, hp⟩, hb, hpermits⟩, ?_⟩
    simp only [Stage.rank]
    omega
  | @received r p b y l hr hl hb hy hpermits hsame =>
    cases hb.symm.trans ha.record
    obtain ⟨hcovers, -⟩ := bestOf_covers hplan hr ha.stage.2 hb hl hy
    have hmetric := hsame.metric_eq hcovers
    refine ⟨y, ⟨(List.mem_filter.1 hl).1, hy, hpermits⟩, ?_⟩
    simp only [Stage.rank]
    omega

end

/-! ## §5. Derivations -/

theorem isDerived_or_follows (hplan : f.IsDecided basis)
    (h : (f.slice rs).IsState basis.failures v) (ha : (f.slice rs).HasRoute v a x) :
    (f.slice rs).IsDerived v a ∨ ∃ b, (f.slice rs).Follows v a b := by
  cases a with
  | received l =>
    cases hlocal : l.protocol.isLocal with
    | true => exact .inl (.own ha hlocal)
    | false =>
      obtain ⟨source, htaken⟩ := takenFrom_of_permits hplan h.transfers ha.stage hlocal ha.record ha.permits
      cases hopposite : (f.slice rs).opposite? l with
      | some m => exact .inr ⟨_, .sent hlocal hopposite⟩
      | none =>
        have hacross := htaken.across
        unfold Slice.across? at hacross
        rw [hopposite] at hacross
        exact .inl (.announced ha hopposite hacross htaken.sent)
  | sent m =>
    cases ha.record
    obtain ⟨r, subnets, best, m₀, hdefined⟩ := definedBy_of_permits hplan h.transfers ha.stage ha.permits
    cases hmatching : (f.slice rs).matching subnets v with
    | nil => exact .inr ⟨_, .overall hdefined.router hdefined.originated hmatching⟩
    | cons n rest =>
      refine .inl (.originated ha hdefined.router hdefined.originated (n := n) ?_)
      rw [hmatching]
      exact List.mem_cons_self
  | best name p =>
    obtain ⟨hnames, hp⟩ := ha.stage
    obtain ⟨r, hr⟩ := router_of_name hnames
    obtain ⟨-, rfl⟩ := mem_routers hr
    obtain ⟨-, y, ⟨l, hl, hy, rfl⟩, hyv, t, ht, htv⟩ :=
      (isBest_bestOf h.selection hr hp ha.record).isOne ha.permits
    exact .inr ⟨_, .received hr hl ha.record hy hyv (Slice.sameRoute_of_isSame ht htv)⟩
  | overall name =>
    have hnames : name ∈ f.topology.names := ha.stage
    obtain ⟨r, hr⟩ := router_of_name hnames
    obtain ⟨-, rfl⟩ := mem_routers hr
    obtain rfl := eq_overall hnames (show (f.slice rs).overall r.name = .ok x from ha.record)
    obtain ⟨p, hp, b, hb, hbv, -, hsame⟩ := overall_isOne h.selection hr ha.permits
    refine .inr ⟨_, .best hr hp ha.record hb hbv fun hmany => ?_⟩
    obtain ⟨t, ht, htv⟩ := hsame hmany
    exact Slice.sameRoute_of_isSame ht htv

/-- **Every route is derived.** -/
theorem isDerived_of_route (hbuild : Topology.build n selection = .ok f.topology)
    (hplan : f.IsDecided basis) (hgrows : f.topology.GrowsMetrics)
    (h : (f.slice rs).IsState basis.failures v) (ha : (f.slice rs).HasRoute v a x) : (f.slice rs).IsDerived v a := by
  -- by induction on the weight, as every step back lowers it
  generalize hk : weight v a x = k
  induction k using Nat.strongRecOn generalizing a x with
  | ind k ih =>
    rcases isDerived_or_follows hplan h ha with hderived | hnext
    · exact hderived
    · refine .step ha hnext fun b hfollows => ?_
      obtain ⟨y, hb, hlt⟩ := follows_route hbuild hplan hgrows h ha hfollows
      exact ih (weight v b y) (hk ▸ hlt) hb rfl

end Frame

/-- **There are no phantom routes.**  Where metrics grow from router to router, every route of a state, be it received,
sent or a best one, comes from an announcement, from a network that a router originates or from a route that a router
has by itself, whichever equal routes are followed on the way back. -/
theorem Encoding.route_isDerived {n : Network} {req : Request} {e : Encoding} {v : Valuation} {a : Stage} {x : Record}
    (he : (Encoding.encode n req).result = .ok e) (hgrows : e.slice.topology.GrowsMetrics) (hv : v.Satisfies e.ledger)
    (ha : e.slice.HasRoute v a x) : e.slice.IsDerived v a := by
  obtain ⟨f, rs, hof⟩ := Encoding.encode_isOf he
  obtain ⟨encoded, hplan⟩ := Frame.isDecided hof.plan
  obtain ⟨n', hbuild⟩ := topologyOf_ok hof.topology
  have hstate := hof.sound v hv
  rw [hof.slice] at hgrows hstate ha ⊢
  exact Frame.isDerived_of_route hbuild hplan hgrows hstate ha

namespace Encoding

/-- Two routers that run OSPF; `A` has a static route, which OSPF takes over. -/
def redistributingNetwork : Network where
  routers := [
    { name := .text "A"
      interfaces := [.ospfPort "ab" (.ofOctets 10 0 0 1 30), .port "lan" (.ofOctets 10 0 1 1 30)]
      staticRoutes := [{ subnet := .ofOctets 10 99 0 0 24, nextHopInterface := .text "lan" }]
      ospf := some { exportPolicy := .text "OUT" }
      policies := [⟨.text "OUT", [.cond (.matchProtocol .static) [.simple .exitAccept] [.simple .exitReject]]⟩] },
    { name := .text "B", interfaces := [.ospfPort "ba" (.ofOctets 10 0 0 2 30)], ospf := some {} }]
  links := [.cable "A" "ab" "B" "ba"]

/-- Packets to the network of the static route. -/
def redistributingRequest : Request where
  space := { dstIps := [.ofOctets 10 99 0 0 24] }

/-- The state of `redistributingNetwork`: the route of `A` comes back to it from `B`, by OSPF. -/
def redistributingState : Valuation where
  bool name :=
    ["A_OVERALL_none_BEST_permitted", "A_OSPF_none_BEST_permitted", "A_STATIC_none_BEST_permitted",
      "B_OVERALL_none_BEST_permitted", "A_OSPF_ab_EXPORT_permitted", "A_STATIC_lan_IMPORT_permitted",
      "B_OSPF__SINGLE-EXPORT_permitted", "A_OSPF_ab_IMPORT_choice", "A_STATIC_lan_IMPORT_choice",
      "B_OSPF_ba_IMPORT_choice", "control-forwarding_A_lan", "data-forwarding_A_lan", "control-forwarding_B_ba",
      "data-forwarding_B_ba", "SSA_RETURN1", "SSA_RETURN2", "SSA_RETURN4", "SSA_RETURN5", "SSA_RETURN6", "SSA_RETURN7",
      "SSA_RETURN9", "SSA_RETURN10"].contains (name.drop 11).toString
  int name :=
    if name == "SLICE-MAIN_dst-ip" then 174260229
    else if ["A_OVERALL_none_BEST_adminDist", "A_OSPF_ab_EXPORT_metric",
      "B_OVERALL_none_BEST_metric"].contains (name.drop 11).toString then 1
    else if ["A_OSPF_none_BEST_metric", "B_OSPF__SINGLE-EXPORT_metric"].contains (name.drop 11).toString then 2
    else if ["A_OVERALL_none_BEST_prefixLength", "A_OSPF_none_BEST_prefixLength", "A_STATIC_none_BEST_prefixLength",
      "B_OVERALL_none_BEST_prefixLength", "A_OSPF_ab_EXPORT_prefixLength", "A_STATIC_lan_IMPORT_prefixLength",
      "B_OSPF__SINGLE-EXPORT_prefixLength"].contains (name.drop 11).toString then 24
    else 0
  bits name :=
    if ["A_OVERALL_none_BEST_history", "A_STATIC_none_BEST_history"].contains (name.drop 11).toString then 1 else 0

/-- `redistributingState` is a state of an encoding in which `A` has an OSPF route. -/
def IsRedistributingState (e : Encoding) : Prop :=
  e.slice.topology.GrowsMetrics ∧ redistributingState.Satisfies e.ledger ∧
    (.text "A" ∈ e.slice.topology.names ∧ .ospf ∈ e.slice.protocols (.text "A")) ∧
    ∃ x, e.slice.bestOf (.text "A") .ospf = .ok x ∧ x.permits.eval redistributingState

instance : DecidablePred IsRedistributingState := fun e =>
  inferInstanceAs (Decidable (e.slice.topology.GrowsMetrics ∧ _))

theorem redistributing_route_isDerived : ∃ e x, (encode redistributingNetwork redistributingRequest).result = .ok e ∧
    e.slice.topology.GrowsMetrics ∧ redistributingState.Satisfies e.ledger ∧
    e.slice.HasRoute redistributingState (.best (.text "A") .ospf) x ∧
    e.slice.IsDerived redistributingState (.best (.text "A") .ospf) := by
  have hstate : ∃ e, (encode redistributingNetwork redistributingRequest).result = .ok e ∧ IsRedistributingState e := by
    decide +kernel
  obtain ⟨e, he, hgrows, hv, hstage, x, hx, hpermits⟩ := hstate
  have hroute : e.slice.HasRoute redistributingState (.best (.text "A") .ospf) x := ⟨hstage, hx, hpermits⟩
  exact ⟨e, x, he, hgrows, hv, hroute, route_isDerived he hgrows hv hroute⟩

end Encoding

end ControlPlane
