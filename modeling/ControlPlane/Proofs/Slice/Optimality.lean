import ControlPlane.Proofs.Slice.State
import ControlPlane.Proofs.Topology.Samples

/-!
# Best routes are best

In a stable state the overall best route of a router exists exactly when it imports a route, is one of the
imported routes, and is at least as good as each of them.  The constraints only say this in two steps,
within a protocol and among protocols.
-/
namespace ControlPlane

open List Record Comparing Frame

variable {basis : Plan.Basis} {q : ProtocolPlan} {label : String} {v : Valuation} {r : Router} {p : Protocol}
  {f : Frame} {rs : List Redistribution} {name router : Name}

/-! ## §1. Through the best route of a protocol -/

/-- The overall best route is at least as good as a route that the best one of its protocol beats, unless
that route alone does not tell how it was learned and ties are broken. -/
theorem Frame.isAtLeast_through {m : Document} {s t : Term .bool} {c : Comparing} (hp : p ∈ f.protocols name)
    (hq : (f.planFor name).protocol? p = some q) (hm : r.isMultipath p = .ok m) (hneeds : q.needsRouterId = !m.truthy)
    (hc : c.multipath = .ok false → m.truthy = false)
    (hlast : c.multipath = .ok true ∨ p ≠ .bgp ∨ ((Record.planned f label router p).bgpInternal = none →
      (f.bestRecord name "OVERALL" .best).bgpInternal = none))
    (hs : c.inside.isAtLeast (f.bestRecord name "OVERALL" .best) (f.bestRecord name p.label p) = .ok s)
    (ht : c.isAtLeast (f.bestRecord name p.label p) (.planned f label router p) = .ok t) (hsv : s.eval v)
    (htv : t.eval v) :
    ∃ u, c.isAtLeast (f.bestRecord name "OVERALL" .best) (.planned f label router p) = .ok u ∧
      u.eval v := by
  have hbest : p ≠ .best := by
    rintro rfl
    exact absurd hm (by simp [Router.isMultipath])
  -- how routes were learned is told by the records of BGP and by the overall one
  have hoverall : (f.bestRecord name "OVERALL" .best).bgpInternal =
      Record.internalIf (f.planFor name).needsBgpInternal _ := planned_bgpInternal
  have hother : p ≠ .bgp → ∀ label router history, (Record.planned f label router p history).bgpInternal = none := by
    intro hbgp label router history
    rw [planned_bgpInternal, internalIf_eq_none]
    simp [hbgp, hbest]
  have hprotocol : p = .bgp → ((f.bestRecord name p.label p).bgpInternal = none ↔
      (f.bestRecord name "OVERALL" .best).bgpInternal = none) := by
    rintro rfl
    rw [hoverall, internalIf_eq_none]
    exact internalIf_eq_none
  have hids : (f.bestRecord name "OVERALL" .best).routerId ≠ none → c.multipath = .ok false →
      (f.bestRecord name p.label p).routerId ≠ none := fun _ hfalse =>
    bestRecord_routerId hbest hq (by rw [hneeds, hc hfalse, Bool.not_false])
  have hinternal : (f.bestRecord name "OVERALL" .best).bgpInternal = none →
      (f.bestRecord name p.label p).bgpInternal = none := by
    intro h
    by_cases hbgp : p = .bgp
    · exact (hprotocol hbgp).2 h
    · exact hother hbgp _ _ _
  have hmiddle : (f.bestRecord name p.label p).bgpInternal = none →
      (f.bestRecord name "OVERALL" .best).bgpInternal = none ∨
        (Record.planned f label router p).bgpInternal = none := by
    intro h
    by_cases hbgp : p = .bgp
    · exact .inl ((hprotocol hbgp).1 h)
    · exact .inr (hother hbgp _ _ _)
  have hend : c.multipath = .ok true ∨ ((Record.planned f label router p).bgpInternal = none →
      (f.bestRecord name "OVERALL" .best).bgpInternal = none ∨
        (f.bestRecord name p.label p).bgpInternal = none) := by
    refine hlast.imp_right ?_
    rintro (hbgp | htells) h
    · exact .inr (hother hbgp _ _ _)
    · exact .inl (htells h)
  obtain ⟨u, hu, himp⟩ := isAtLeast_trans (v := v) (bestRecord_covers hbest hp)
    (planned_covers_same hbest) hids hinternal hmiddle hend hs ht
  exact ⟨u, hu, himp hsv htv⟩

/-! ## §2. Optimality -/

namespace Slice

structure Imports (s : Slice) (name : Name) (p : Protocol) (m : Lane) (x : Record) : Prop where
  protocol : p ∈ s.protocols name
  lane : m ∈ s.lanesOf name p
  record : s.incoming m = .ok x

/-- Router ids decide between a best route and an imported one only after all else does.  It fails for
BGP routes next to another protocol, where ties are broken, when only the best route's record tells how the
route was learned. -/
def ComparesInOrder (s : Slice) (r : Router) (p : Protocol) (best x : Record) : Prop :=
  s.isSingle r.name ∨ p ≠ .bgp ∨ (r.isMultipath p).map Document.truthy = .ok true ∨
    (x.bgpInternal = none → best.bgpInternal = none)

structure IsOptimal (s : Slice) (v : Valuation) (name : Name) (r : Router) (best : Record) : Prop where
  permits : best.permits.eval v ↔ ∃ p m x, s.Imports name p m x ∧ x.permits.eval v
  total : ∀ p ∈ s.protocols name, ∀ m ∈ s.lanesOf name p, ∃ x, s.incoming m = .ok x
  beats : ∀ p m x, s.Imports name p m x → x.permits.eval v →
    ∃ t, (s.comparing r p (some m)).lenient.isAtLeast best x = .ok t ∧ t.eval v
  beats_all : ∀ p m x, s.Imports name p m x → x.permits.eval v → s.ComparesInOrder r p best x →
    ∃ t, (s.comparing r p (some m)).isAtLeast best x = .ok t ∧ t.eval v
  isOne : best.permits.eval v → ∃ p m x, s.Imports name p m x ∧ x.permits.eval v ∧
    (best.under v).Agrees p (x.under v)

end Slice

namespace Frame

theorem slice_imports_planned {m : Lane} {x : Record} (h : (f.slice rs).Imports name p m x) :
    ∃ label router, x = .planned f label router p := by
  obtain ⟨hm, -, rfl⟩ := Slice.mem_lanesOf.1 h.lane
  exact slice_incoming hm h.record

theorem optimal_of_single (hr : f.topology.router name = .ok r) (hp : f.protocols name = [p]) (hbest : p ≠ .best)
    (htotal : ∀ m ∈ (f.slice rs).lanesOf name p, ∃ x, (f.slice rs).incoming m = .ok x)
    (h : Slice.IsBest v (f.bestRecord name "OVERALL" .best) ((f.slice rs).imported r p)) :
    (f.slice rs).IsOptimal v name r (f.bestRecord name "OVERALL" .best) := by
  obtain ⟨-, rfl⟩ := mem_routers hr
  have honly : ∀ q, q ∈ (f.slice rs).protocols r.name ↔ q = p := by
    intro q
    show q ∈ f.protocols r.name ↔ q = p
    rw [hp, mem_singleton]
  have hbeats : ∀ q m x, (f.slice rs).Imports r.name q m x → x.permits.eval v →
      ∃ t, ((f.slice rs).comparing r q (some m)).isAtLeast (f.bestRecord r.name "OVERALL" .best) x =
        .ok t ∧ t.eval v := by
    rintro q m x hx hxv
    obtain rfl := (honly q).1 hx.protocol
    exact h.beats _ x ⟨m, hx.lane, hx.record, rfl⟩ hxv
  constructor
  · rw [h.permits]
    constructor
    · rintro ⟨c, x, ⟨m, hm, hx, -⟩, hxv⟩
      exact ⟨p, m, x, ⟨(honly p).2 rfl, hm, hx⟩, hxv⟩
    · rintro ⟨q, m, x, hx, hxv⟩
      obtain rfl := (honly q).1 hx.protocol
      exact ⟨_, x, ⟨m, hx.lane, hx.record, rfl⟩, hxv⟩
  · intro q hq
    obtain rfl := (honly q).1 hq
    exact htotal
  · intro q m x hx hxv
    obtain ⟨t, ht, htv⟩ := hbeats q m x hx hxv
    exact isAtLeast_lenient ht htv
  · intro q m x hx hxv _
    exact hbeats q m x hx hxv
  · intro hv
    obtain ⟨c, x, ⟨m, hm, hx, rfl⟩, hxv, t, ht, htv⟩ := h.isOne hv
    have himports : (f.slice rs).Imports r.name p m x := ⟨(honly p).2 rfl, hm, hx⟩
    refine ⟨p, m, x, himports, hxv, ?_⟩
    obtain ⟨label, router, rfl⟩ := slice_imports_planned himports
    exact isSame_agrees planned_holdsType planned_holdsType
      (overall_covers hbest ((honly p).2 rfl)).ospfType ht htv

theorem slice_bestsOfProtocols (hname : r.name ∈ f.topology.names) (hs : f.isSingle r.name = false) :
    (f.slice rs).bestsOfProtocols r = fun c x => ∃ p ∈ f.protocols r.name,
      x = f.bestRecord r.name p.label p ∧ c = (f.slice rs).comparing r p none := by
  funext c x
  refine propext (exists_congr fun p => and_congr_right fun hp => and_congr_left fun _ => ?_)
  rw [slice_bestOf hname hp, hs, Except.ok.injEq]
  exact eq_comm

theorem optimal_of_several (hplan : f.IsDecided basis)
    (hr : f.topology.router name = .ok r) (hs : f.isSingle name = false)
    (hprotocols : ∀ p ∈ f.protocols name,
      (∀ m ∈ (f.slice rs).lanesOf name p, ∃ x, (f.slice rs).incoming m = .ok x) ∧
      Slice.IsBest v (f.bestRecord name p.label p) ((f.slice rs).imported r p))
    (hoverall : Slice.IsBest v (f.bestRecord name "OVERALL" .best) fun c x =>
      ∃ p ∈ f.protocols name, x = f.bestRecord name p.label p ∧ c = (f.slice rs).comparing r p none) :
    (f.slice rs).IsOptimal v name r (f.bestRecord name "OVERALL" .best) := by
  obtain ⟨-, rfl⟩ := mem_routers hr
  -- an imported route makes the best one of its protocol exist, and both comparisons hold
  have hboth : ∀ p m x, (f.slice rs).Imports r.name p m x → x.permits.eval v →
      ∃ s t, ((f.slice rs).comparing r p none).isAtLeast (f.bestRecord r.name "OVERALL" .best)
          (f.bestRecord r.name p.label p) = .ok s ∧ s.eval v ∧
        ((f.slice rs).comparing r p (some m)).isAtLeast (f.bestRecord r.name p.label p) x = .ok t ∧
          t.eval v := by
    intro p m x hx hxv
    obtain ⟨-, hbest⟩ := hprotocols p hx.protocol
    have hpermits := hbest.permits.2 ⟨_, x, ⟨m, hx.lane, hx.record, rfl⟩, hxv⟩
    obtain ⟨s, hs, hsv⟩ := hoverall.beats _ _ ⟨p, hx.protocol, rfl, rfl⟩ hpermits
    obtain ⟨t, ht, htv⟩ := hbest.beats _ x ⟨m, hx.lane, hx.record, rfl⟩ hxv
    exact ⟨s, t, hs, hsv, ht, htv⟩
  constructor
  · rw [hoverall.permits]
    constructor
    · rintro ⟨c, y, ⟨p, hp, rfl, -⟩, hpermits⟩
      obtain ⟨-, x, ⟨m, hm, hx, -⟩, hxv⟩ := (hprotocols p hp).2.permits.1 hpermits
      exact ⟨p, m, x, ⟨hp, hm, hx⟩, hxv⟩
    · rintro ⟨p, m, x, hx, hxv⟩
      exact ⟨_, _, ⟨p, hx.protocol, rfl, rfl⟩,
        (hprotocols p hx.protocol).2.permits.2 ⟨_, x, ⟨m, hx.lane, hx.record, rfl⟩, hxv⟩⟩
  · exact fun p hp => (hprotocols p hp).1
  · intro p m x hx hxv
    obtain ⟨s, t, hs, hsv, ht, htv⟩ := hboth p m x hx hxv
    obtain ⟨label, router, rfl⟩ := slice_imports_planned hx
    obtain ⟨q, hq, hdecides⟩ := decides_protocol hplan hr hx.protocol
    obtain ⟨d, hd, hneeds⟩ := hdecides.multipath
    obtain ⟨s', hs', hsv'⟩ := isAtLeast_lenient hs hsv
    obtain ⟨t', ht', htv'⟩ := isAtLeast_lenient ht htv
    exact isAtLeast_through hx.protocol hq hd hneeds (fun h => absurd h (by simp [Comparing.lenient])) (.inl rfl)
      hs' ht' hsv' htv'
  · intro p m x hx hxv hinOrder
    obtain ⟨s, t, hs', hsv, ht, htv⟩ := hboth p m x hx hxv
    obtain ⟨label, router, rfl⟩ := slice_imports_planned hx
    obtain ⟨q, hq, hdecides⟩ := decides_protocol hplan hr hx.protocol
    obtain ⟨d, hd, hneeds⟩ := hdecides.multipath
    have hmultipath : ((f.slice rs).comparing r p (some m)).multipath = .ok d.truthy := by
      show (r.isMultipath p).map Document.truthy = _
      rw [hd]
      rfl
    refine isAtLeast_through hx.protocol hq hd hneeds (fun h => ?_) ?_ hs' ht hsv htv
    · exact Except.ok.inj (hmultipath.symm.trans h)
    · rcases hinOrder with hsingle | hbgp | hopen | htells
      · cases hs.symm.trans hsingle
      · exact .inr (.inl hbgp)
      · exact .inl hopen
      · exact .inr (.inr htells)
  · intro hv
    obtain ⟨-, y, ⟨p, hp, rfl, rfl⟩, hpermits, s, hs', hsv⟩ := hoverall.isOne hv
    obtain ⟨-, x, ⟨m, hm, hx, rfl⟩, hxv, t, ht, htv⟩ := (hprotocols p hp).2.isOne hpermits
    have himports : (f.slice rs).Imports r.name p m x := ⟨hp, hm, hx⟩
    refine ⟨p, m, x, himports, hxv, ?_⟩
    obtain ⟨label, router, rfl⟩ := slice_imports_planned himports
    obtain ⟨q, hq, hdecides⟩ := decides_protocol hplan hr hp
    have hbest := hdecides.ne_best
    have hcovers : (f.bestRecord r.name p.label p).Covers (.planned f label router p) :=
      planned_covers_same hbest
    have hagrees := isSame_agrees planned_holdsType planned_holdsType
      (bestRecord_covers hbest hp).ospfType hs' hsv
    have hagrees' := isSame_agrees planned_holdsType planned_holdsType
      hcovers.ospfType ht htv
    refine hagrees.trans hagrees' fun a ha h => ?_
    exact Option.map_eq_none_iff.2 (hcovers.number a ha (Option.map_eq_none_iff.1 h))

end Frame

/-- **Best routes are best.**  In every stable state of an encoding, the overall best route of a router exists
exactly when the router imports a route, is one of the imported routes, and no imported route is better.
Where the best record tells how a BGP route was learned and the imported one does not, this holds up to
router ids. -/
theorem Encoding.overall_isOptimal {n : Network} {req : Request} {e : Encoding} {v : Valuation} {name : Name}
    {r : Router} (he : (Encoding.encode n req).result = .ok e) (hv : v.Satisfies e.ledger)
    (hr : e.slice.topology.router name = .ok r) :
    ∃ best, e.slice.overall name = .ok best ∧ e.slice.IsOptimal v name r best := by
  obtain ⟨f, rs, hof⟩ := Encoding.encode_isOf he
  obtain ⟨encoded, hdecides⟩ := Frame.isDecided hof.plan
  have hselection := (hof.sound v hv).selection
  rw [hof.slice] at hr hselection ⊢
  obtain ⟨hmem, rfl⟩ := mem_routers hr
  have hname : r.name ∈ f.topology.names := Topology.name_mem hmem
  refine ⟨_, slice_overall hname, ?_⟩
  have hprotocol : ∀ p ∈ f.protocols r.name,
      (∀ m ∈ (f.slice rs).lanesOf r.name p, ∃ x, (f.slice rs).incoming m = .ok x) ∧
      Slice.IsBest v (if f.isSingle r.name then f.bestRecord r.name "OVERALL" .best
        else f.bestRecord r.name p.label p) ((f.slice rs).imported r p) := by
    intro p hp
    obtain ⟨best, hbest, htotal, hisBest⟩ := hselection.perProtocol r hmem p hp
    rw [slice_bestOf hname hp] at hbest
    cases hbest
    exact ⟨htotal, hisBest⟩
  cases hsingle : f.isSingle r.name with
  | true =>
    obtain ⟨p, hp⟩ := isSingle_protocols hsingle
    have hpmem : p ∈ f.protocols r.name := by rw [hp]; exact List.mem_singleton_self p
    obtain ⟨q, -, hq⟩ := decides_protocol hdecides hr hpmem
    obtain ⟨htotal, hisBest⟩ := hprotocol p hpmem
    rw [hsingle, if_pos rfl] at hisBest
    exact optimal_of_single hr hp hq.ne_best htotal hisBest
  | false =>
    rw [hsingle] at hprotocol
    have hisBest := isBest_overall hselection hr hsingle
    rw [slice_bestsOfProtocols hname hsingle] at hisBest
    exact optimal_of_several hdecides hr hsingle hprotocol hisBest

namespace Encoding

/-- A router that reaches a network directly and by a static route. -/
def sampleNetwork : Network where
  routers := [{
    name := .text "A"
    interfaces := [.port "i" (.ofOctets 10 0 0 1 24)]
    staticRoutes := [{ subnet := .ofOctets 10 0 0 0 24, nextHopInterface := .text "i" }] }]

/-- The state of `sampleNetwork` for a packet to that network: both routes are there. -/
def sampleState : Valuation where
  bool name := !Text.occursIn "EXPORT" name
  int name :=
    if Text.occursIn "prefixLength" name && !Text.occursIn "EXPORT" name then 24
    else if Text.occursIn "dst-ip" name then 167772165 else 0
  bits name := if Text.occursIn "STATIC" name then 1 else 0

/-- Whether `sampleState` is a state of an encoding in which a router of several protocols has a route. -/
def isSampleState (e : Encoding) : Bool :=
  e.ledger.required.all (fun c => c.eval sampleState) &&
    e.slice.protocols (.text "A") == [.connected, .static] &&
    (match e.slice.topology.router (.text "A"), e.slice.overall (.text "A") with
      | .ok _, .ok best => best.permits.eval sampleState
      | _, _ => false)

theorem sample_overall_isOptimal : ∃ e r best, (encode sampleNetwork {}).result = .ok e ∧
    sampleState.Satisfies e.ledger ∧ e.slice.topology.router (.text "A") = .ok r ∧
    e.slice.protocols (.text "A") = [.connected, .static] ∧ e.slice.overall (.text "A") = .ok best ∧
    best.permits.eval sampleState ∧ e.slice.IsOptimal sampleState (.text "A") r best := by
  have hsample : ((encode sampleNetwork {}).result.toOption.any isSampleState) := by decide +kernel
  cases he : (encode sampleNetwork {}).result with
  | error f =>
    rw [he] at hsample
    cases hsample
  | ok e =>
    rw [he] at hsample
    have hsample : isSampleState e := hsample
    simp only [isSampleState, Bool.and_eq_true, List.all_eq_true, beq_iff_eq] at hsample
    obtain ⟨⟨hv, hprotocols⟩, hbest⟩ := hsample
    split at hbest
    next r best hr hoverall =>
      obtain ⟨best', hbest', hoptimal⟩ := overall_isOptimal he hv hr
      cases hoverall.symm.trans hbest'
      exact ⟨e, r, best, rfl, hv, hr, hprotocols, hoverall, hbest, hoptimal⟩
    next => cases hbest

end Encoding

end ControlPlane
