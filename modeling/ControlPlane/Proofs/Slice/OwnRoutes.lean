import ControlPlane.Proofs.Slice.Forwarding

/-!
# Routes that a router has by itself

Where no router runs OSPF or BGP, all routes are connected and static ones.  Such a route is told by its prefix length
and its distance, and the packet and the failed links fix which ones there are.
-/
namespace ControlPlane

open List Option Record Comparing

variable {history : Option (Enumeration Protocol)} {best : Record} {f : Frame} {label : String} {router name : Name}
  {p : Protocol} {rs : List Redistribution} {basis : Plan.Basis} {r : Router} {l : Lane}

/-! ## §1. Ranks -/

/-- The place of a route among others. -/
structure Rank where
  length : Nat
  distance : Int

/-- Longer prefixes come first, and then lower distances. -/
instance : LE Rank where
  le a b := a.length < b.length ∨ a.length = b.length ∧ b.distance ≤ a.distance

namespace Rank

variable {a b c : Rank}

theorem le_iff : a ≤ b ↔ a.length < b.length ∨ a.length = b.length ∧ b.distance ≤ a.distance := Iff.rfl

instance (a b : Rank) : Decidable (a ≤ b) := decidable_of_iff _ le_iff.symm

theorem le_refl (a : Rank) : a ≤ a := .inr ⟨rfl, Int.le_refl _⟩

theorem le_total (a b : Rank) : a ≤ b ∨ b ≤ a := by
  rw [le_iff, le_iff]
  omega

theorem le_trans (h : a ≤ b) (h' : b ≤ c) : a ≤ c := by
  rw [le_iff] at h h' ⊢
  omega

theorem le_antisymm (h : a ≤ b) (h' : b ≤ a) : a = b := by
  cases a
  rw [le_iff] at h h'
  simp only at h h'
  rw [mk.injEq]
  omega

end Rank

structure OwnRoute where
  protocol : Protocol
  length : Nat
  distance : Int

namespace OwnRoute

def rank (o : OwnRoute) : Rank := ⟨o.length, o.distance⟩

def best? : List OwnRoute → Option OwnRoute
  | [] => none
  | o :: rest =>
    match best? rest with
    | none => some o
    | some b => if b.rank ≤ o.rank then some o else some b

def number (o : OwnRoute) : IntAttribute → Int
  | .prefixLength => o.length
  | .adminDist => o.distance
  | _ => 0

structure IsBestOf (among : OwnRoute → Prop) (o : Option OwnRoute) : Prop where
  none : o = none → ∀ r, ¬ among r
  mem : ∀ r, o = some r → among r
  le : ∀ r, o = some r → ∀ r', among r' → r'.rank ≤ r.rank

variable {o o' : OwnRoute}

theorem rank_eq_iff : o.rank = o'.rank ↔ o.length = o'.length ∧ o.distance = o'.distance := by
  unfold rank
  rw [Rank.mk.injEq]

theorem eq_of_rank (hp : o.protocol = o'.protocol) (h : o.rank = o'.rank) : o = o' := by
  obtain ⟨hlength, hdistance⟩ := rank_eq_iff.1 h
  cases o
  simp only at hp hlength hdistance
  rw [hp, hlength, hdistance]

theorem isBestOf_best (routes : List OwnRoute) : IsBestOf (· ∈ routes) (best? routes) := by
  induction routes with
  | nil => exact ⟨fun _ _ => not_mem_nil, fun _ h => absurd h (by simp [best?]), fun _ h => absurd h (by simp [best?])⟩
  | cons o rest ih =>
    -- the first route is the best one if no other is better
    have hfirst : (∀ r ∈ rest, r.rank ≤ o.rank) → IsBestOf (· ∈ o :: rest) (some o) := by
      intro hle
      refine ⟨nofun, fun r h => Option.some.inj h ▸ mem_cons_self, fun r h r' hr' => ?_⟩
      cases h
      rcases mem_cons.1 hr' with rfl | hr'
      · exact Rank.le_refl _
      · exact hle r' hr'
    rw [best?]
    cases hrest : best? rest with
    | none =>
      rw [hrest] at ih
      exact hfirst fun r hr => absurd hr (ih.none rfl r)
    | some b =>
      rw [hrest] at ih
      dsimp only
      split
      next hle => exact hfirst fun r hr => Rank.le_trans (ih.le b rfl r hr) hle
      next hle =>
        refine ⟨nofun, fun r h => Option.some.inj h ▸ mem_cons_of_mem o (ih.mem b rfl), fun r h r' hr' => ?_⟩
        cases h
        rcases mem_cons.1 hr' with rfl | hr'
        · exact (Rank.le_total _ _).resolve_right hle
        · exact ih.le b rfl r' hr'

end OwnRoute

/-! ## §2. Records of such routes -/

namespace Record

def Shows (v : Valuation) (x : Record) (o : OwnRoute) : Prop :=
  ∀ a, a ≠ .routerId → ((x.under v).number a).getD (o.protocol.defaultNumber a) = o.number a

structure Holds (v : Valuation) (x : Record) (o : Option OwnRoute) : Prop where
  permits : x.permits.eval v = o.isSome
  shows : ∀ r, o = some r → x.Shows v r

/-- A record models nothing that only routes of OSPF and BGP have. -/
structure IsPlain (x : Record) : Prop where
  routerId : x.routerId = none
  internal : x.bgpInternal = none
  area : x.ospfArea = none
  type : x.ospfType = none
  communities : x.communities = []

end Record

namespace Comparing

variable {v : Valuation} {c : Comparing} {x : Record} {o o' : OwnRoute}

theorem before_self (lower : Bool) (i : Int) : ¬ before lower i i := by
  unfold before
  split <;> exact Int.lt_irrefl i

theorem defaultNumber_eq {q : Protocol} (hp : p.isLocal) (hq : q.isLocal) {a : IntAttribute}
    (h : a = .adminDist → p = q) : p.defaultNumber a = q.defaultNumber a := by
  cases a with
  | adminDist => rw [h rfl]
  | med =>
    cases p with
    | connected | static => cases q with
      | connected | static => rfl
      | _ => cases hq
    | _ => cases hp
  | _ => rfl

section Shown

variable (hc : c.protocol = o'.protocol) (ho : o.protocol.isLocal) (ho' : o'.protocol.isLocal)
  (hcovers : best.Covers x) (hdistance : best.adminDist = none → o.protocol = o'.protocol) (hbest : best.Shows v o)
  (hx : x.Shows v o')
include hc ho ho' hcovers hdistance hbest hx

theorem numberStep_shows {a : IntAttribute} (ha : a ≠ .routerId) (lower : Bool) :
    (numberStep (best.int? a) (x.int? a) (c.protocol.defaultNumber a) lower).Compares v (before lower) (o.number a)
      (o'.number a) := by
  have hb : ((best.int? a).map fun t => t.eval v).getD (o.protocol.defaultNumber a) = o.number a := hbest a ha
  have hx : ((x.int? a).map fun t => t.eval v).getD (o'.protocol.defaultNumber a) = o'.number a := hx a ha
  rw [hc, ← hb, ← hx]
  cases hsome : best.int? a with
  | some t =>
    have hother : ((x.int? a).map fun t => t.eval v).getD (o'.protocol.defaultNumber a) =
        ((x.int? a).getD (.intLit (o'.protocol.defaultNumber a))).eval v := by
      cases x.int? a <;> rfl
    rw [hother]
    exact numberStep_compares t _ _ lower
  | none =>
    -- neither record models the number, and the defaults are the same
    rw [hcovers.number a ha hsome]
    have hdefault : o.protocol.defaultNumber a = o'.protocol.defaultNumber a :=
      defaultNumber_eq ho ho' fun h => by
        subst h
        exact hdistance hsome
    refine ⟨⟨fun h => absurd h Step.not_better_idle, fun h => ?_⟩, ⟨fun _ => hdefault, fun _ => rfl⟩⟩
    rw [hdefault] at h
    exact absurd h (before_self lower _)

/-- **Being at least as preferred is a matter of ranks.** -/
theorem isAtLeast_iff (hplain : best.IsPlain) :
    ∃ t, c.isAtLeast best x = .ok t ∧ (t.eval v ↔ o'.rank ≤ o.rank) := by
  have hids : c.compareIds best x .le = .ok .yes := by
    unfold compareIds
    rw [hplain.routerId]
  refine ⟨_, isAtLeast_eq_ok.2 ⟨.yes, hids, rfl⟩, ?_⟩
  have hstep := fun {a} ha lower => @numberStep_shows best v c x o o' hc ho ho' hcovers hdistance hbest hx a ha lower
  have htype : typeStep best x = .idle := by
    unfold typeStep
    rw [hplain.type]
    rfl
  have hinternal : internalStep best x = .idle := by
    unfold internalStep
    rw [hplain.internal]
    rfl
  have hrest : (decided [typeStep best x] (decided [internalStep best x] .yes)).eval v := by
    have hinner : (decided [Step.idle] .yes).eval v := (eval_decided_cons _ _ _).2 (.inr ⟨rfl, rfl⟩)
    rw [htype, hinternal, eval_decided_cons]
    exact .inr ⟨rfl, hinner⟩
  have hlength := hstep (a := .prefixLength) (by decide) false
  have hadmin := hstep (a := .adminDist) (by decide) true
  have hlocal := hstep (a := .localPref) (by decide) false
  have hmetric := hstep (a := .metric) (by decide) true
  have hmed := hstep (a := .med) (by decide) true
  -- after the distance all criteria tie
  have htie : (decided [_, _, _] (decided [typeStep best x] (decided [internalStep best x] .yes))).eval v :=
    (eval_decided_cons _ _ _).2 (.inr ⟨hlocal.equal.2 rfl, (eval_decided_cons _ _ _).2 (.inr ⟨hmetric.equal.2 rfl,
      (eval_decided_cons _ _ _).2 (.inr ⟨hmed.equal.2 rfl, hrest⟩)⟩)⟩)
  refine (eval_decided_cons _ _ _).trans ((or_congr hlength.better (and_congr hlength.equal
    ((eval_decided_cons _ _ _).trans (or_congr hadmin.better (and_congr hadmin.equal (iff_true_intro htie)))))).trans
    ?_)
  rw [and_true]
  show (o'.length : Int) < o.length ∨ (o.length : Int) = o'.length ∧ (o.distance < o'.distance ∨
    o.distance = o'.distance) ↔ o'.length < o.length ∨ o'.length = o.length ∧ o.distance ≤ o'.distance
  omega

/-- **Describing the same route is a matter of ranks**, and of where the routes came from. -/
theorem isSame_iff (hplain : best.IsPlain) (withCommunities : Bool) :
    ∃ t, c.isSame best x withCommunities = .ok t ∧
      (t.eval v ↔ o.rank = o'.rank ∧ (sameHistory best x).eval v) := by
  have hids : c.compareIds best x .eq = .ok .yes := by
    unfold compareIds
    rw [hplain.routerId]
  have harea : c.sameArea best x = .ok .yes := by
    unfold sameArea
    rw [hplain.area]
  have htype : sameType best x = .yes := by
    unfold sameType
    rw [hplain.type]
  have hinternal : sameInternal best x = .yes := by
    unfold sameInternal
    rw [hplain.internal]
  have hcommunities : (sameCommunities best x).eval v := by
    unfold sameCommunities
    rw [hplain.communities, Term.holds_allOf]
    exact nofun
  have hnumber : ∀ a, a ≠ .routerId → ((sameNumber (best.int? a) (x.int? a) (c.protocol.defaultNumber a)).eval v ↔
      o.number a = o'.number a) := by
    intro a ha
    have hstep := (@numberStep_shows best v c x o o' hc ho ho' hcovers hdistance hbest hx a ha true).equal
    rw [← hstep]
    cases best.int? a <;> rfl
  refine ⟨_, bind_eq_ok.2 ⟨_, harea, bind_eq_ok.2 ⟨_, hids, rfl⟩⟩, ?_⟩
  rw [Term.holds_allOf, forall_mem_append, OwnRoute.rank_eq_iff, htype, hinternal]
  have hlast : ∀ t ∈ (if withCommunities then [sameCommunities best x] else [] : List (Term .bool)),
      t.eval v := by
    intro t ht
    split at ht
    · exact mem_singleton.1 ht ▸ hcommunities
    · cases ht
  have hlength := hnumber .prefixLength (by decide)
  have hadmin := hnumber .adminDist (by decide)
  have hlocal := (hnumber .localPref (by decide)).2 rfl
  have hmetric := (hnumber .metric (by decide)).2 rfl
  have hmed := (hnumber .med (by decide)).2 rfl
  simp only [Record.int?, Protocol.defaultNumber, OwnRoute.number, Int.ofNat_inj] at hlength hadmin hlocal hmetric hmed
  simp only [forall_mem_cons]
  constructor
  · rintro ⟨⟨h₁, h₂, -, -, -, -, -, -, h₃, -⟩, -⟩
    exact ⟨⟨hlength.1 h₁, hadmin.1 h₂⟩, h₃⟩
  · rintro ⟨⟨h₁, h₂⟩, h₃⟩
    exact ⟨⟨hlength.2 h₁, hadmin.2 h₂, hlocal, hmetric, hmed, rfl, rfl, rfl, h₃, rfl, nofun⟩, hlast⟩

end Shown

/-- A record that describes the same route shows it. -/
theorem Same.shows (h : c.Same v best x) (hcovers : best.Covers x) (hc : c.protocol = o.protocol) (hx : x.Shows v o) :
    best.Shows v o := by
  intro a ha
  have hx : ((x.int? a).map fun t => t.eval v).getD (o.protocol.defaultNumber a) = o.number a := hx a ha
  have hsame := h.number a ha
  show ((best.int? a).map fun t => t.eval v).getD _ = _
  cases hsome : best.int? a with
  | none =>
    rw [hcovers.number a ha hsome] at hx
    exact hx
  | some t =>
    rw [hsome, hc] at hsame
    rw [← hx]
    exact eval_sameNumber hsame

end Comparing

/-! ## §3. Records without OSPF and BGP -/

namespace Topology

/-- No router runs OSPF or BGP, and the distances of static routes, the default one included, are numbers below 256. -/
structure IsStatic (t : Topology) : Prop where
  ospf : ∀ r ∈ t.routers, r.ospf.isSome = false
  bgp : ∀ r ∈ t.routers, r.bgp.isSome = false
  distance : ∀ r ∈ t.routers, ∀ route ∈ r.staticRoutes,
    ∃ n, (Slice.staticDistance .static route).integer = .ok n ∧ 0 ≤ n ∧ n < 256

instance (t : Topology) : Decidable t.IsStatic :=
  decidable_of_iff (_ ∧ _ ∧ _) ⟨fun h => ⟨h.1, h.2.1, h.2.2⟩, fun h => ⟨h.ospf, h.bgp, h.distance⟩⟩

theorem IsStatic.distance_of_mem {t : Topology} (h : t.IsStatic) {e : Edge} {route : StaticRoute}
    (hroute : route ∈ t.staticRoutesOver e) :
    ∃ n, (Slice.staticDistance .static route).integer = .ok n ∧ 0 ≤ n ∧ n < 256 := by
  unfold staticRoutesOver at hroute
  split at hroute
  next site hsite =>
    have hmem : site.router ∈ t.routers := mem_map_of_mem (mem_of_find?_eq_some hsite)
    exact h.distance _ hmem route (mem_filter.1 hroute).1
  next => cases hroute

end Topology

theorem Record.planned_local_int? (hp : p.isLocal) {a : IntAttribute} (ha : a ≠ .routerId) :
    (planned f label router p history).int? a = match a with
      | .prefixLength => some (.intVar (label ++ "_" ++ IntAttribute.prefixLength.suffix))
      | .adminDist => numberIf f.plan.keepAdminDist label .adminDist
      | _ => none := by
  cases p with
  | connected | static => cases a with
    | routerId => exact absurd rfl ha
    | _ => rfl
  | _ => cases hp

namespace Frame

variable {v : Valuation}

theorem isOverall_recordName :
    (Record.unused (f.recordName name "OVERALL" "none" "BEST") .best).isOverall := by
  rw [Record.isOverall, isBest_recordName, Bool.true_and, Text.occursIn_iff]
  exact ⟨(f.name ++ name.shown).toList, "_none_BEST".toList, by simp [Record.unused, recordName]⟩

section Static

variable (hplan : f.IsDecided basis) (hstatic : f.topology.IsStatic)
include hplan hstatic

section

variable (hr : f.topology.router name = .ok r)
include hr

/-- Only connected and static routes are encoded. -/
theorem isLocal_of_static (hp : p ∈ f.protocols name) : p.isLocal := by
  have hrun := Plan.isRunning_of_mem (hplan.protocols hr) hp
  have hr := (mem_routers hr).1
  cases p with
  | connected | static => rfl
  | ospf => exact absurd (Except.ok.inj hrun) (Bool.eq_false_iff.1 (hstatic.ospf r hr))
  | bgp => exact absurd (Except.ok.inj hrun) (Bool.eq_false_iff.1 (hstatic.bgp r hr))
  | best => cases hrun

theorem not_contains_of_static (hp : p.isLocal = false) : (f.planFor name).protocolList.contains p = false := by
  rw [f.protocolList_planFor, ← Bool.not_eq_true, contains_iff_mem]
  intro hmem
  rw [isLocal_of_static hplan hstatic hr hmem] at hp
  cases hp

theorem needsRouterId_of_static {q : ProtocolPlan} (hq : q ∈ (f.planFor name).protocols) : q.needsRouterId = false := by
  obtain ⟨d, hd, hdecides⟩ := hplan.router? hr
  rw [planFor_eq hd] at hq
  obtain ⟨p, hp, hdecided⟩ := forall₂_mem_right hdecides.protocols hq
  obtain ⟨m, hm, hneeds⟩ := hdecided.multipath
  have hlocal : p.isLocal := by
    refine isLocal_of_static hplan hstatic hr ?_
    rw [← f.protocolList_planFor, planFor_eq hd, ← hdecides.protocolList]
    exact hp
  cases p with
  | connected | static =>
    cases hm
    exact hneeds
  | _ => cases hlocal

theorem planned_isPlain (hp : p.isLocal) : (Record.planned f label name p history).IsPlain := by
  cases p with
  | connected | static =>
    refine ⟨numberIf_eq_none.2 ?_, rfl, ?_, rfl, ?_⟩
    · unfold Record.wantsId
      rw [if_neg (by decide)]
      cases hq : (f.planFor name).protocol? _ with
      | none => exact Bool.and_false _
      | some q =>
        rw [map_some, getD_some, needsRouterId_of_static hplan hstatic hr (mem_of_find?_eq_some hq), Bool.and_false]
    · show Record.areaOf label ((Record.areasFor f label name _).toOption.getD []) = none
      unfold Record.areasFor Record.wantsArea
      rw [show (_ == _ || _ == _) = false from rfl, Bool.and_false]
      rfl
    · show Record.communitiesOf f (f.planFor name) label _ = []
      simp [Record.communitiesOf, Record.wantsCommunities]
  | _ => cases hp

theorem overall_isPlain : (f.bestRecord name "OVERALL" .best).IsPlain := by
  have hid : (f.planFor name).needsRouterId = false := by
    unfold RouterPlan.needsRouterId
    rw [List.any_eq_false]
    exact fun q hq => Bool.eq_false_iff.1 (needsRouterId_of_static hplan hstatic hr hq)
  have hospf := not_contains_of_static hplan hstatic hr (p := .ospf) rfl
  have hbgp := not_contains_of_static hplan hstatic hr (p := .bgp) rfl
  have hinternal : (f.planFor name).needsBgpInternal = false := by
    obtain ⟨d, hd, hdecides⟩ := hplan.router? hr
    rw [planFor_eq hd] at hbgp ⊢
    rw [hdecides.needsBgpInternal, hdecides.protocolList]
    have hnone : d.protocolList.any (· == .bgp) = false := by
      rw [← hbgp, contains_eq_any_beq]
      exact congrArg d.protocolList.any (funext fun q => BEq.comm)
    rw [hnone, Bool.false_and]
  constructor
  · exact numberIf_eq_none.2 hid
  · exact internalIf_eq_none.2 hinternal
  · have harea : Record.areasFor f (f.recordName name "OVERALL" "none" "BEST") name .best = .ok [] := by
      unfold Record.areasFor Record.wantsArea
      rw [hospf, Bool.and_false]
      rfl
    show Record.areaOf _
      ((Record.areasFor f (f.recordName name "OVERALL" "none" "BEST") name .best).toOption.getD []) = none
    rw [harea]
    rfl
  · refine typeIf_eq_none.2 ?_
    show ((f.planFor name).protocolList.contains .ospf && f.plan.keepOspfType) = false
    rw [hospf, Bool.false_and]
  · show Record.communitiesOf f (f.planFor name) _ .best = []
    unfold Record.communitiesOf Record.wantsCommunities
    rw [hbgp]
    rfl

end

omit hplan hstatic in
theorem overall_adminDist (h : (f.bestRecord name "OVERALL" .best).adminDist = none) {q : Protocol}
    (hp : p ∈ f.protocols name) (hq : q ∈ f.protocols name) : p = q := by
  have h : Record.numberIf _ _ .adminDist = none := h
  rw [numberIf_eq_none] at h
  have h : ((Record.unused (f.recordName name "OVERALL" "none" "BEST") .best).isOverall &&
      decide (1 < (f.planFor name).protocols.length) || f.plan.keepAdminDist) = false := h
  rw [isOverall_recordName, Bool.true_and, Bool.or_eq_false_iff, decide_eq_false_iff_not] at h
  have hlength : (f.protocols name).length = (f.planFor name).protocols.length := by
    unfold protocols Plan.protocolsOf planFor
    cases f.plan.router? name with
    | none => rfl
    | some d => exact length_map _
  have hfew : (f.protocols name).length ≤ 1 := by omega
  generalize f.protocols name = ps at hp hq hfew
  match ps, hfew with
  | [q], _ => rw [mem_singleton.1 hp, mem_singleton.1 hq]

end Static

end Frame

/-! ## §4. The routes of lanes -/

namespace Slice

variable (s : Slice) (v : Valuation)

def distanceOf (p : Protocol) (written : Document) : Int :=
  if s.plan.keepAdminDist then written.integer.toOption.getD 0 else p.defaultDistance

/-- The route that a router has by itself over the edge of a lane: that of the interface's network, or the last
static one that leads to the destination. -/
def ownRoute? (l : Lane) : Option OwnRoute :=
  match l.protocol with
  | .connected => (l.edge.start.subnet?.filter fun n => (s.usableSubnet .connected l.edge n).eval v).map fun n =>
    ⟨.connected, n.length, s.distanceOf .connected (.int (Protocol.defaultDistance .connected))⟩
  | .static => (s.usableRoutes v l.edge .static).getLast?.map fun route =>
    ⟨.static, route.subnet.length, s.distanceOf .static (staticDistance .static route)⟩
  | _ => none

variable {s v} {o : OwnRoute}

theorem ownRoute?_protocol (h : s.ownRoute? v l = some o) : o.protocol = l.protocol := by
  unfold ownRoute? at h
  split at h
  next hp =>
    obtain ⟨n, -, rfl⟩ := map_eq_some_iff.1 h
    exact hp.symm
  next hp =>
    obtain ⟨route, -, rfl⟩ := map_eq_some_iff.1 h
    exact hp.symm
  next => cases h

theorem ownRoute?_of_inactive (h : Topology.isActive l.protocol l.edge.start = false) : s.ownRoute? v l = none := by
  have husable : ∀ subnet, (s.usableSubnet l.protocol l.edge subnet).eval v = false := by
    intro subnet
    rw [← Bool.not_eq_true, holds_usableSubnet]
    intro hreaches
    rw [hreaches.active] at h
    cases h
  unfold ownRoute?
  split
  next hp =>
    rw [hp] at husable
    rw [filter_eq_none_iff.2 fun n _ => Bool.eq_false_iff.1 (husable n)]
    rfl
  next hp =>
    rw [hp] at husable
    have hnil : s.usableRoutes v l.edge .static = [] :=
      filter_eq_nil_iff.2 fun route _ => Bool.eq_false_iff.1 (husable route.subnet)
    rw [hnil]
    rfl
  next => rfl

end Slice

namespace Record

variable {v : Valuation}

theorem holds_none {x : Record} : x.Holds v none ↔ x.permits.eval v = false :=
  ⟨fun h => h.permits, fun h => ⟨h, nofun⟩⟩

theorem isOwn_iff (hp : p.isLocal) {length : Nat} {written : Document} (hwritten : ∃ n, written.integer = .ok n) :
    Slice.IsOwn (planned f label router p history) v length written ↔
      (planned f label router p history).Holds v
        (some ⟨p, length, (f.slice rs).distanceOf p written⟩) := by
  obtain ⟨n, hn⟩ := hwritten
  have hmed : p.defaultMed = 0 := by
    cases p with
    | connected | static => rfl
    | _ => cases hp
  have hnumber : ∀ a, a ≠ .routerId → ((planned f label router p history).under v).number a =
      ((planned f label router p history).int? a).map fun t => t.eval v := fun _ _ => rfl
  have hdistance : (f.slice rs).distanceOf p written = if f.plan.keepAdminDist then n else p.defaultDistance := by
    unfold Slice.distanceOf
    rw [hn]
    rfl
  constructor
  · rintro ⟨hpermits, hnumbers⟩
    refine ⟨hpermits, fun r hr a ha => ?_⟩
    cases hr
    cases a with
    | routerId => exact absurd rfl ha
    | prefixLength => exact hnumbers .prefixLength _ rfl
    | adminDist =>
      have hnumbers := hnumbers .adminDist
      rw [hnumber _ ha, planned_local_int? hp ha] at hnumbers ⊢
      rw [hdistance]
      cases hkeep : f.plan.keepAdminDist with
      | false => rfl
      | true =>
        rw [hkeep] at hnumbers
        exact Except.ok.inj ((hnumbers _ rfl).symm.trans hn)
    | localPref | metric =>
      rw [hnumber _ ha, planned_local_int? hp ha]
      rfl
    | med =>
      rw [hnumber _ ha, planned_local_int? hp ha]
      exact hmed
  · intro h
    have hshows := h.shows _ rfl
    refine ⟨h.permits, fun a m hm => ?_⟩
    cases a with
    | prefixLength =>
      have hshows := hshows .prefixLength (by decide)
      rw [hm] at hshows
      exact hshows
    | adminDist =>
      have hshows := hshows .adminDist (by decide)
      rw [hm] at hshows
      have hshows : m = (f.slice rs).distanceOf p written := hshows
      rw [hnumber _ (by decide), planned_local_int? hp (by decide)] at hm
      cases hkeep : f.plan.keepAdminDist with
      | false =>
        rw [hkeep] at hm
        exact absurd hm (by simp [numberIf])
      | true =>
        rw [hdistance, hkeep] at hshows
        rw [hshows]
        exact hn
    | localPref | metric =>
      rw [hnumber _ (by decide), planned_local_int? hp (by decide)] at hm
      cases hm
    | med | routerId => trivial

end Record

namespace Frame

variable {v : Valuation}

/-- **An import of a local protocol holds the route of its lane**, and nothing else is said about it. -/
theorem importHolds_iff (hstatic : f.topology.IsStatic) (hp : l.protocol.isLocal)
    (hx : l.incoming = .planned f label router l.protocol) :
    (f.slice rs).ImportHolds r l v ↔
      l.incoming.Holds v ((f.slice rs).ownRoute? v l) := by
  have hused : l.incoming.used := by
    rw [hx]
    rfl
  unfold Slice.ImportHolds Slice.ownRoute?
  refine (forall_prop_of_true hused).trans ?_
  cases hprotocol : l.protocol with
  | connected =>
    unfold Slice.ConnectedHolds
    rw [hprotocol] at hx ⊢
    cases hsubnet : l.edge.start.subnet? with
    | none => exact holds_none.symm
    | some subnet =>
      rw [filter_some]
      cases husable : ((f.slice rs).usableSubnet .connected l.edge subnet).eval v with
      | true =>
        have hreaches := Slice.holds_usableSubnet.1 husable
        rw [hx]
        refine Iff.trans ⟨fun h => h.1 hreaches, fun h => ⟨fun _ => h, fun hn => absurd hreaches hn⟩⟩ ?_
        exact isOwn_iff rfl ⟨_, rfl⟩
      | false =>
        have hreaches : ¬ (f.slice rs).Reaches v l.edge .connected subnet := fun h =>
          Bool.eq_false_iff.1 husable (Slice.holds_usableSubnet.2 h)
        refine Iff.trans ⟨fun h => h.2 hreaches, fun h => ⟨fun hr => absurd hr hreaches, fun _ => h⟩⟩ ?_
        exact holds_none.symm
  | static =>
    unfold Slice.StaticHolds
    rw [hprotocol] at hx ⊢
    cases hlast : ((f.slice rs).usableRoutes v l.edge .static).getLast? with
    | none => exact holds_none.symm
    | some route =>
      have hmem := (mem_filter.1 (mem_of_getLast? hlast)).1
      obtain ⟨n, hn, -⟩ := hstatic.distance_of_mem hmem
      rw [hx]
      exact isOwn_iff rfl ⟨n, hn⟩
  | _ =>
    rw [hprotocol] at hp
    cases hp

end Frame

/-! ## §5. Best routes -/

namespace Slice

structure Offers (v : Valuation) (best : Record) (among : Comparing → Record → Prop)
    (routes : OwnRoute → Prop) : Prop where
  plain : best.IsPlain
  covers : ∀ c x, among c x → best.Covers x
  shown : ∀ c x, among c x → x.permits.eval v → ∃ o, routes o ∧ c.protocol = o.protocol ∧ x.Shows v o
  offered : ∀ o, routes o → ∃ c x, among c x ∧ x.permits.eval v ∧ c.protocol = o.protocol ∧ x.Shows v o
  isLocal : ∀ o, routes o → o.protocol.isLocal
  distance : best.adminDist = none → ∀ o o', routes o → routes o' → o.protocol = o'.protocol

variable {v : Valuation} {among : Comparing → Record → Prop} {routes : OwnRoute → Prop}

theorem Offers.isBestOf (h : Offers v best among routes) (hbest : IsBest v best among) :
    ∃ o, best.Holds v o ∧ OwnRoute.IsBestOf routes o := by
  cases hp : best.permits.eval v with
  | false =>
    refine ⟨none, holds_none.2 hp, fun _ o ho => ?_, nofun, nofun⟩
    obtain ⟨c, x, hx, hxv, -⟩ := h.offered o ho
    rw [hbest.permits.2 ⟨c, x, hx, hxv⟩] at hp
    cases hp
  | true =>
    obtain ⟨c, x, hx, hxv, t, ht, htv⟩ := hbest.isOne hp
    obtain ⟨o, ho, hc, hshows⟩ := h.shown c x hx hxv
    have hbestShows := (same_of_isSame ht htv).shows (h.covers c x hx) hc hshows
    have hsome : ∀ r, some o = some r → o = r := fun r hr => Option.some.inj hr
    refine ⟨some o, ⟨hp, fun r hr => hsome r hr ▸ hbestShows⟩, nofun,
      fun r hr => hsome r hr ▸ ho, fun r hr o' ho' => ?_⟩
    obtain rfl := hsome r hr
    -- the other route is beaten, and beating is a matter of ranks
    obtain ⟨c', y, hy, hyv, hc', hyshows⟩ := h.offered o' ho'
    obtain ⟨u, hu, huv⟩ := hbest.beats c' y hy hyv
    obtain ⟨u', hu', hiff⟩ := isAtLeast_iff hc' (h.isLocal o ho) (h.isLocal o' ho') (h.covers c' y hy)
      (fun hnone => h.distance hnone o o' ho ho') hbestShows hyshows h.plain
    cases hu.symm.trans hu'
    exact hiff.1 huv

theorem Offers.isBest (h : Offers v best among routes) {o : Option OwnRoute} (hbest : best.Holds v o)
    (ho : OwnRoute.IsBestOf routes o) (hfrom : ∀ r, o = some r → ∃ c x, among c x ∧ x.permits.eval v ∧
      c.protocol = r.protocol ∧ x.Shows v r ∧ (Comparing.sameHistory best x).eval v) : IsBest v best among where
  permits := by
    rw [hbest.permits, isSome_iff_exists]
    constructor
    · rintro ⟨r, hr⟩
      obtain ⟨c, x, hx, hxv, -⟩ := h.offered r (ho.mem r hr)
      exact ⟨c, x, hx, hxv⟩
    · rintro ⟨c, x, hx, hxv⟩
      obtain ⟨r, hr, -⟩ := h.shown c x hx hxv
      exact ne_none_iff_exists'.1 fun hnone => ho.none hnone r hr
  beats c x hx hxv := by
    obtain ⟨o', ho', hc, hshows⟩ := h.shown c x hx hxv
    obtain ⟨r, hr⟩ := ne_none_iff_exists'.1 fun hnone => ho.none hnone o' ho'
    obtain ⟨t, ht, hiff⟩ := isAtLeast_iff hc (h.isLocal r (ho.mem r hr)) (h.isLocal o' ho') (h.covers c x hx)
      (fun hnone => h.distance hnone r o' (ho.mem r hr) ho') (hbest.shows r hr) hshows h.plain
    exact ⟨t, ht, hiff.2 (ho.le r hr o' ho')⟩
  isOne hp := by
    rw [hbest.permits, isSome_iff_exists] at hp
    obtain ⟨r, hr⟩ := hp
    obtain ⟨c, x, hx, hxv, hc, hshows, hhistory⟩ := hfrom r hr
    have hlocal := h.isLocal r (ho.mem r hr)
    obtain ⟨t, ht, hiff⟩ := isSame_iff hc hlocal hlocal (h.covers c x hx) (fun _ => rfl) (hbest.shows r hr)
      hshows h.plain true
    exact ⟨c, x, hx, hxv, t, ht, hiff.2 ⟨rfl, hhistory⟩⟩

variable (s : Slice) (v : Valuation)

def OwnOf (name : Name) (p : Protocol) (o : OwnRoute) : Prop := ∃ l ∈ s.lanesOf name p, s.ownRoute? v l = some o

def OwnAt (name : Name) (o : OwnRoute) : Prop := ∃ p ∈ s.protocols name, s.OwnOf v name p o

def HasBest (routes : OwnRoute → Prop) (l : Lane) : Prop :=
  ∃ o, s.ownRoute? v l = some o ∧ ∀ o', routes o' → o'.rank ≤ o.rank

end Slice

/-! ## §6. Used lanes -/

namespace Frame

variable {v : Valuation} {o : OwnRoute}

theorem protocol_of_ownOf (h : (f.slice rs).OwnOf v name p o) : o.protocol = p := by
  obtain ⟨l, hl, ho⟩ := h
  exact (Slice.ownRoute?_protocol ho).trans (mem_lanesOf.1 hl).2.2

theorem bestOf_unique {o o' : Option OwnRoute} (h : OwnRoute.IsBestOf ((f.slice rs).OwnOf v name p) o)
    (h' : OwnRoute.IsBestOf ((f.slice rs).OwnOf v name p) o') : o = o' := by
  cases o with
  | none =>
    cases o' with
    | none => rfl
    | some b => exact absurd (h'.mem b rfl) (h.none rfl b)
  | some a =>
    have ha := h.mem a rfl
    cases o' with
    | none => exact absurd ha (h'.none rfl a)
    | some b =>
      have hb := h'.mem b rfl
      exact congrArg some (OwnRoute.eq_of_rank ((protocol_of_ownOf ha).trans (protocol_of_ownOf hb).symm)
        (Rank.le_antisymm (h'.le b rfl a ha) (h.le a rfl b hb)))

/-- Where there is only one protocol, all routes are its routes. -/
theorem ownAt_of_single (hps : f.protocols name = [p]) :
    (f.slice rs).OwnAt v name = (f.slice rs).OwnOf v name p := by
  have hps : (f.slice rs).protocols name = [p] := hps
  unfold Slice.OwnAt
  rw [hps]
  simp

section Static

variable (hplan : f.IsDecided basis) (hstatic : f.topology.IsStatic)
include hplan hstatic

theorem lane_of_static (hl : l ∈ f.allLanes) : l.protocol.isLocal ∧
    ∃ label, l.incoming = .planned f label l.router l.protocol := by
  obtain ⟨r', q, hr', hp, hlane, -⟩ := lane_owner hplan hl
  have hlocal := isLocal_of_static hplan hstatic hr' hp
  have hused := used_of_isLocal hplan hl hlocal
  refine ⟨hlocal, ?_⟩
  rw [hlane] at hused ⊢
  exact ⟨_, (importRecord_eq hused).2⟩

theorem incoming_of_static (hl : l ∈ f.allLanes) : (f.slice rs).incoming l = .ok l.incoming := by
  obtain ⟨-, label, hx⟩ := lane_of_static hplan hstatic hl
  have hused : l.incoming.used := by
    rw [hx]
    rfl
  rw [Slice.incoming, if_pos hused]

/-- A best record models what it has to, and nothing that only routes of OSPF and BGP have. -/
theorem bestOf_isPlain (hname : name ∈ f.topology.names) (hp : p ∈ f.protocols name)
    (hb : (f.slice rs).bestOf name p = .ok best) : best.IsPlain := by
  obtain ⟨r', hr'⟩ := router_of_name hname
  rw [slice_bestOf hname hp] at hb
  cases hb
  split
  · exact overall_isPlain hplan hstatic hr'
  · exact planned_isPlain hplan hstatic hr' (isLocal_of_static hplan hstatic hr' hp)

section Imports

variable (himports : ∀ l ∈ f.allLanes, l.incoming.Holds v ((f.slice rs).ownRoute? v l))
include himports

theorem offers_imports (hname : name ∈ f.topology.names) (hr : r.name = name) (hp : p ∈ f.protocols name)
    (hb : (f.slice rs).bestOf name p = .ok best) :
    Slice.Offers v best ((f.slice rs).imported r p) ((f.slice rs).OwnOf v name p) := by
  subst hr
  obtain ⟨r', hr'⟩ := router_of_name hname
  constructor
  · exact bestOf_isPlain hplan hstatic hname hp hb
  · rintro c x ⟨l, hl, hx, rfl⟩
    exact (bestOf_covers hplan hr' hp hb hl hx).1
  · rintro c x ⟨l, hl, hx, rfl⟩ hxv
    have hmem := (mem_lanesOf.1 hl).1
    obtain rfl := Except.ok.inj ((incoming_of_static hplan hstatic hmem).symm.trans hx)
    have hholds := himports l hmem
    rw [hholds.permits, isSome_iff_exists] at hxv
    obtain ⟨o, ho⟩ := hxv
    exact ⟨o, ⟨l, hl, ho⟩, (protocol_of_ownOf ⟨l, hl, ho⟩).symm, hholds.shows o ho⟩
  · rintro o ⟨l, hl, ho⟩
    have hmem := (mem_lanesOf.1 hl).1
    have hholds := himports l hmem
    refine ⟨_, l.incoming, ⟨l, hl, incoming_of_static hplan hstatic hmem, rfl⟩, ?_,
      (protocol_of_ownOf ⟨l, hl, ho⟩).symm, hholds.shows o ho⟩
    rw [hholds.permits, ho]
    rfl
  · intro o ho
    rw [protocol_of_ownOf ho]
    exact isLocal_of_static hplan hstatic hr' hp
  · intro _ o o' ho ho'
    rw [protocol_of_ownOf ho, protocol_of_ownOf ho']

end Imports

end Static

def HoldsBests (f : Frame) (rs : List Redistribution) (v : Valuation) (name : Name) : Prop :=
  ∀ p ∈ f.protocols name, ∃ best o, (f.slice rs).bestOf name p = .ok best ∧ best.Holds v o ∧
    OwnRoute.IsBestOf ((f.slice rs).OwnOf v name p) o

def BestOwn (f : Frame) (rs : List Redistribution) (v : Valuation) (name : Name) (o : OwnRoute) : Prop :=
  ∃ p ∈ f.protocols name, OwnRoute.IsBestOf ((f.slice rs).OwnOf v name p) (some o)

section Overall

variable (hbests : f.HoldsBests rs v name)
include hbests

theorem isBestOf_ownAt {o : Option OwnRoute} (h : OwnRoute.IsBestOf (f.BestOwn rs v name) o) :
    OwnRoute.IsBestOf ((f.slice rs).OwnAt v name) o := by
  -- every route is at most as good as the best one of its protocol
  have hbeaten : ∀ o', (f.slice rs).OwnAt v name o' →
      ∃ b, f.BestOwn rs v name b ∧ o'.rank ≤ b.rank := by
    rintro o' ⟨p, hp, ho'⟩
    obtain ⟨best, b, -, -, hb⟩ := hbests p hp
    cases b with
    | none => exact absurd ho' (hb.none rfl o')
    | some b => exact ⟨b, ⟨p, hp, hb⟩, hb.le b rfl o' ho'⟩
  constructor
  · intro hnone o' ho'
    obtain ⟨b, hb, -⟩ := hbeaten o' ho'
    exact h.none hnone b hb
  · intro r hr
    obtain ⟨p, hp, hb⟩ := h.mem r hr
    exact ⟨p, hp, hb.mem r rfl⟩
  · intro r hr o' ho'
    obtain ⟨b, hb, hle⟩ := hbeaten o' ho'
    exact Rank.le_trans hle (h.le r hr b hb)

theorem holds_of_isBestOf (hp : p ∈ f.protocols name) (ho : OwnRoute.IsBestOf ((f.slice rs).OwnOf v name p) (some o)) :
    ∃ best, (f.slice rs).bestOf name p = .ok best ∧ best.Holds v (some o) := by
  obtain ⟨best, b, hb, hholds, hbo⟩ := hbests p hp
  obtain rfl := bestOf_unique hbo ho
  exact ⟨best, hb, hholds⟩

theorem offers_bests (hplan : f.IsDecided basis)
    (hstatic : f.topology.IsStatic) (hname : name ∈ f.topology.names) (hr : r.name = name)
    (hmany : f.isSingle name = false) :
    Slice.Offers v (f.bestRecord name "OVERALL" .best) ((f.slice rs).bestsOfProtocols r)
      (f.BestOwn rs v name) := by
  subst hr
  obtain ⟨r', hr'⟩ := router_of_name hname
  constructor
  · exact overall_isPlain hplan hstatic hr'
  · rintro c x ⟨p, hp, hx, rfl⟩
    rw [slice_bestOf hname hp, hmany] at hx
    cases hx
    have hlocal := isLocal_of_static hplan hstatic hr' hp
    exact bestRecord_covers (fun h => absurd (h ▸ hlocal) (by decide)) hp
  · rintro c x ⟨p, hp, hx, rfl⟩ hxv
    obtain ⟨best, o, hb, hholds, ho⟩ := hbests p hp
    cases hb.symm.trans hx
    rw [hholds.permits, isSome_iff_exists] at hxv
    obtain ⟨o, rfl⟩ := hxv
    exact ⟨o, ⟨p, hp, ho⟩, (protocol_of_ownOf (ho.mem o rfl)).symm, hholds.shows o rfl⟩
  · rintro o ⟨p, hp, ho⟩
    obtain ⟨best, hb, hholds⟩ := holds_of_isBestOf hbests hp ho
    exact ⟨_, best, ⟨p, hp, hb, rfl⟩, hholds.permits, (protocol_of_ownOf (ho.mem o rfl)).symm, hholds.shows o rfl⟩
  · rintro o ⟨p, hp, ho⟩
    rw [protocol_of_ownOf (ho.mem o rfl)]
    exact isLocal_of_static hplan hstatic hr' hp
  · rintro hnone o o' ⟨p, hp, ho⟩ ⟨p', hp', ho'⟩
    rw [protocol_of_ownOf (ho.mem o rfl), protocol_of_ownOf (ho'.mem o' rfl)]
    exact overall_adminDist hnone hp hp'

end Overall

/-- All records hold the routes that routers have by themselves. -/
structure HoldsOwn (f : Frame) (rs : List Redistribution) (v : Valuation) : Prop where
  imports : ∀ l ∈ f.allLanes, l.incoming.Holds v ((f.slice rs).ownRoute? v l)
  bests : ∀ name ∈ f.topology.names, f.HoldsBests rs v name
  overall : ∀ name ∈ f.topology.names, ∃ o, (f.bestRecord name "OVERALL" .best).Holds v o ∧
    OwnRoute.IsBestOf ((f.slice rs).OwnAt v name) o

section Static

variable (hplan : f.IsDecided basis) (hstatic : f.topology.IsStatic)
include hplan hstatic

/-- **In a state all records hold the routes that routers have by themselves.** -/
theorem holdsOwn_of_state (htransfers : (f.slice rs).TransfersHold v)
    (hselection : (f.slice rs).SelectionHolds v) : f.HoldsOwn rs v := by
  have himports : ∀ l ∈ f.allLanes, l.incoming.Holds v ((f.slice rs).ownRoute? v l) := by
    intro l hl
    obtain ⟨hlocal, label, hx⟩ := lane_of_static hplan hstatic hl
    obtain ⟨r, -, -, hmem, subnets, best, -, -, hall, -⟩ := lanesHold_of_mem hplan htransfers hl
    exact (importHolds_iff hstatic hlocal hx).1 (hall l hmem)
  have hbests : ∀ name ∈ f.topology.names, f.HoldsBests rs v name := by
    intro name hname p hp
    obtain ⟨r, hr⟩ := router_of_name hname
    have hb : (f.slice rs).bestOf name p = _ := slice_bestOf hname hp
    obtain ⟨o, hholds, ho⟩ := (offers_imports hplan hstatic himports hname (mem_routers hr).2 hp hb).isBestOf
      (isBest_bestOf hselection hr hp hb)
    exact ⟨_, o, hb, hholds, ho⟩
  refine ⟨himports, hbests, fun name hname => ?_⟩
  obtain ⟨r, hr⟩ := router_of_name hname
  obtain ⟨-, rfl⟩ := mem_routers hr
  cases hsingle : f.isSingle r.name with
  | true =>
    -- the only protocol's best route is the overall one
    obtain ⟨p, hps⟩ := isSingle_protocols hsingle
    have hp : p ∈ f.protocols r.name := hps ▸ mem_singleton_self p
    obtain ⟨best, o, hb, hholds, ho⟩ := hbests r.name hname p hp
    rw [slice_bestOf hname hp, hsingle] at hb
    cases hb
    exact ⟨o, hholds, ownAt_of_single hps ▸ ho⟩
  | false =>
    obtain ⟨o, hholds, ho⟩ := (offers_bests (hbests r.name hname) hplan hstatic hname rfl hsingle).isBestOf
      (isBest_overall hselection hr hsingle)
    exact ⟨o, hholds, isBestOf_ownAt (hbests r.name hname) ho⟩

section Lanes

variable (h : f.HoldsOwn rs v) (hname : r.name ∈ f.topology.names) (hp : p ∈ f.protocols r.name)
  (hl : l ∈ (f.slice rs).lanesOf r.name p)
include h hname hp hl

theorem sameRoute_iff {b : Option OwnRoute} {routes : OwnRoute → Prop}
    (ho : (f.slice rs).ownRoute? v l = some o) (hown : routes o) (hplain : best.IsPlain)
    (hcovers : best.Covers l.incoming) (hholds : best.Holds v b) (hbest : OwnRoute.IsBestOf routes b)
    (hroutes : ∀ b, routes b → b.protocol ∈ f.protocols r.name ∧ (best.adminDist = none → b.protocol = p)) :
    Slice.SameRoute v ((f.slice rs).comparing r p (some l)) best l.incoming ↔ ∀ o', routes o' → o'.rank ≤ o.rank := by
  obtain ⟨r', hr'⟩ := router_of_name hname
  obtain ⟨hmem, -, -⟩ := mem_lanesOf.1 hl
  have hop : o.protocol = p := protocol_of_ownOf ⟨l, hl, ho⟩
  have hhistory : (Comparing.sameHistory best l.incoming).eval v := by
    obtain ⟨-, label, hx⟩ := lane_of_static hplan hstatic hmem
    unfold Comparing.sameHistory
    rw [hx]
    cases best.history <;> rfl
  obtain ⟨b, rfl⟩ := ne_none_iff_exists'.1 fun hnone => hbest.none hnone o hown
  have hb := hbest.mem b rfl
  obtain ⟨hbp, hdistance⟩ := hroutes b hb
  obtain ⟨t, ht, hiff⟩ := isSame_iff (c := (f.slice rs).comparing r p (some l)) hop.symm
    (isLocal_of_static hplan hstatic hr' hbp) (hop ▸ isLocal_of_static hplan hstatic hr' hp) hcovers
    (fun hnone => (hdistance hnone).trans hop.symm) (hholds.shows b rfl) ((h.imports l hmem).shows o ho) hplain false
  constructor
  · rintro ⟨u, hu, huv⟩ o' ho'
    cases ht.symm.trans hu
    exact (hiff.1 huv).1 ▸ hbest.le b rfl o' ho'
  · intro hmax
    exact ⟨t, ht, hiff.2 ⟨Rank.le_antisymm (hmax b hb) (hbest.le b rfl o hown), hhistory⟩⟩

theorem overall_sameRoute_iff (ho : (f.slice rs).ownRoute? v l = some o) :
    Slice.SameRoute v ((f.slice rs).comparing r p (some l)) (f.bestRecord r.name "OVERALL" .best)
      l.incoming ↔ ∀ o', (f.slice rs).OwnAt v r.name o' → o'.rank ≤ o.rank := by
  obtain ⟨r', hr'⟩ := router_of_name hname
  obtain ⟨hmem, -, hprotocol⟩ := mem_lanesOf.1 hl
  obtain ⟨hlocal, label, hx⟩ := lane_of_static hplan hstatic hmem
  obtain ⟨b, hb, hbest⟩ := h.overall r.name hname
  have hcovers : (f.bestRecord r.name "OVERALL" .best).Covers l.incoming := by
    rw [hx, hprotocol]
    exact overall_covers (fun hp => absurd (hp ▸ hprotocol ▸ hlocal) (by decide)) hp
  refine sameRoute_iff hplan hstatic h hname hp hl ho ⟨p, hp, l, hl, ho⟩ (overall_isPlain hplan hstatic hr') hcovers hb
    hbest ?_
  rintro b ⟨q, hq, hb⟩
  rw [protocol_of_ownOf hb]
  exact ⟨hq, fun hnone => overall_adminDist hnone hq hp⟩

theorem best_sameRoute_iff (ho : (f.slice rs).ownRoute? v l = some o)
    (hbestOf : (f.slice rs).bestOf r.name p = .ok best) :
    Slice.SameRoute v ((f.slice rs).comparing r p (some l)) best l.incoming ↔
      ∀ o', (f.slice rs).OwnOf v r.name p o' → o'.rank ≤ o.rank := by
  obtain ⟨r', hr'⟩ := router_of_name hname
  have hincoming : (f.slice rs).incoming l = .ok l.incoming :=
    incoming_of_static hplan hstatic (mem_lanesOf.1 hl).1
  obtain ⟨best', b, hb', hb, hbest⟩ := h.bests r.name hname p hp
  cases hbestOf.symm.trans hb'
  refine sameRoute_iff hplan hstatic h hname hp hl ho ⟨l, hl, ho⟩ (bestOf_isPlain hplan hstatic hname hp hbestOf)
    (bestOf_covers hplan hr' hp hbestOf hl hincoming).1 hb hbest fun b hb => ?_
  rw [protocol_of_ownOf hb]
  exact ⟨hp, fun _ => rfl⟩

theorem choiceHolds_iff : (f.slice rs).ChoiceHolds v r p l ↔ (l.choice.eval v ↔
    (f.slice rs).HasBest v ((f.slice rs).OwnOf v r.name p) l) := by
  have hmem := (mem_lanesOf.1 hl).1
  have hincoming : (f.slice rs).incoming l = .ok l.incoming := incoming_of_static hplan hstatic hmem
  obtain ⟨best, -, hb, -⟩ := h.bests r.name hname p hp
  have hchosen : (l.incoming.permits.eval v ∧
      Slice.SameRoute v ((f.slice rs).comparing r p (some l)) best l.incoming) ↔
      (f.slice rs).HasBest v ((f.slice rs).OwnOf v r.name p) l := by
    rw [(h.imports l hmem).permits, isSome_iff_exists]
    constructor
    · rintro ⟨⟨o, ho⟩, hsame⟩
      exact ⟨o, ho, (best_sameRoute_iff hplan hstatic h hname hp hl ho hb).1 hsame⟩
    · rintro ⟨o, ho, hmax⟩
      exact ⟨⟨o, ho⟩, (best_sameRoute_iff hplan hstatic h hname hp hl ho hb).2 hmax⟩
  rw [← hchosen]
  refine ⟨fun ⟨best', x, hb', hx, hiff⟩ => ?_, fun hiff => ⟨best, _, hb, hincoming, hiff⟩⟩
  cases hb.symm.trans hb'
  cases hincoming.symm.trans hx
  exact hiff

/-- **A lane is used exactly when its router has no better route.** -/
theorem isUsed_iff (hchoice : (f.slice rs).ChoiceHolds v r p l) :
    (f.slice rs).IsUsed v r l ↔
      (f.slice rs).HasBest v ((f.slice rs).OwnAt v r.name) l := by
  obtain ⟨hmem, -, hprotocol⟩ := mem_lanesOf.1 hl
  have hincoming : (f.slice rs).incoming l = .ok l.incoming := incoming_of_static hplan hstatic hmem
  unfold Slice.IsUsed
  rw [(choiceHolds_iff hplan hstatic h hname hp hl).1 hchoice, hprotocol]
  constructor
  · rintro ⟨⟨o, ho, -⟩, best, x, hbest, hx, hsame⟩
    cases hincoming.symm.trans hx
    rw [slice_overall hname] at hbest
    cases hbest
    exact ⟨o, ho, (overall_sameRoute_iff hplan hstatic h hname hp hl ho).1 hsame⟩
  · rintro ⟨o, ho, hmax⟩
    exact ⟨⟨o, ho, fun o' ho' => hmax o' ⟨p, hp, ho'⟩⟩, _, _, slice_overall hname, hincoming,
      (overall_sameRoute_iff hplan hstatic h hname hp hl ho).2 hmax⟩

end Lanes

end Static

end Frame

end ControlPlane
