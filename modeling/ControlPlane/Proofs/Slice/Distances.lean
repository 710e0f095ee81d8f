import ControlPlane.Proofs.Slice.LongestPrefix

/-!
# Administrative distances

A distance is the business of one router, but records hand it on like any other number: a received route has the
distance that it was sent with, and a sent one that of the best route of its router, whatever protocol this came from.
Only networks that a router originates are sent with the distance of the protocol.
-/
namespace ControlPlane

open List Frame Option

variable {v : Valuation} {f : Frame} {x y : Record}

def Record.distance (x : Record) (v : Valuation) : Option Int := (x.under v).number .adminDist

theorem Record.distance_of_kept (hx : x.IsPlanned f) (hkeep : f.plan.keepAdminDist) :
    ∃ k, x.distance v = some k := by
  refine ne_none_iff_exists'.1 fun hnone => ?_
  cases hkeep.symm.trans (hx.keepAdminDist (map_eq_none_iff.1 hnone))

/-- **No policy changes a distance.** -/
theorem Transfer.Holds.distance {t : Transfer} {policy : List Statement} (h : t.Holds policy v)
    (hpermits : t.target.permits.eval v) {k d : Int} (hk : t.target.distance v = some k)
    (hd : t.source.distance v = some d) : k = d := by
  obtain ⟨y, cost, hy, -, -, -, hconveys⟩ := h.conveyed hpermits
  have hroute : y.2.route.number .adminDist = some d :=
    ((groundBody_number (by decide) (by decide) hy).trans (number_entering (by decide) (by decide))).trans hd
  rw [hconveys.number .adminDist k hk]
  show (y.2.route.number .adminDist).getD _ = d
  rw [hroute]
  rfl

namespace Encoding

variable {n : Network} {req : Request} {e : Encoding} {l : Lane}

/-- **Distances are handed on.**  Where distances are kept, a received route of OSPF or BGP has the distance that the
other side sent, which is that of its best route, unless it originates the destination. -/
theorem distance_isHandedOn (he : (encode n req).result = .ok e) (hv : v.Satisfies e.ledger)
    (hkeep : e.slice.plan.keepAdminDist) (hl : l ∈ e.slice.lanes) (hlocal : l.protocol.isLocal = false)
    (hx : e.slice.incoming l = .ok x) (hpermits : x.permits.eval v) :
    ∃ source k, e.slice.across? l .incoming = some source ∧ source.permits.eval v ∧
      x.distance v = some k ∧ source.distance v = some k ∧
      ∀ m, e.slice.opposite? l = some m → ∃ r subnets best, e.slice.topology.router m.router = .ok r ∧
        r.originated m.protocol = .ok subnets ∧ e.slice.overall m.router = .ok best ∧
        (e.slice.matching subnets v ≠ [] → k = m.protocol.defaultDistance) ∧
        (e.slice.matching subnets v = [] → best.distance v = some k) := by
  obtain ⟨f, rs, hof⟩ := encode_isOf he
  obtain ⟨encoded, hplan⟩ := Frame.isDecided hof.plan
  have hstate := hof.sound v hv
  rw [hof.slice] at hkeep hl hx hstate ⊢
  have hdistance : ∀ {y}, y ∈ f.records → ∃ k, y.distance v = some k := fun hy =>
    Record.distance_of_kept (isPlanned_of_mem hy).1 hkeep
  obtain ⟨source, htaken⟩ := takenFrom_of_permits hplan hstate.transfers hl hlocal hx hpermits
  obtain ⟨d, hd⟩ := hdistance (mem_across htaken.across)
  refine ⟨source, d, htaken.across, htaken.sent, ?_, hd, fun m hm => ?_⟩
  · cases hused : l.incoming.used with
    | false =>
      obtain ⟨rfl, -⟩ := htaken.shared hused
      exact hd
    | true =>
      obtain ⟨rfl, r, policy, -, -, hholds⟩ := htaken.conveyed hused
      obtain ⟨k, hk⟩ := hdistance (mem_incoming hl hused)
      rw [hk, hholds.distance hpermits hk hd]
  · obtain ⟨hmem, -, -⟩ := mem_opposite hm
    obtain rfl : source = m.outgoing := by
      have hacross := htaken.across
      unfold Slice.across? at hacross
      rw [hm] at hacross
      exact (Option.some.inj hacross).symm
    obtain ⟨r, subnets, best, m₀, hdefined⟩ := definedBy_of_permits hplan hstate.transfers hmem htaken.sent
    refine ⟨r, subnets, best, hdefined.router, hdefined.originated, hdefined.overall, fun hroot => ?_, fun hroot => ?_⟩
    · have hsent := hdefined.sent htaken.sent
      obtain ⟨subnet, hlast⟩ := ne_none_iff_exists'.1 fun h => hroot (getLast?_eq_none_iff.1 h)
      rw [hlast] at hsent
      exact hsent.numbers .adminDist d hd
    · obtain ⟨-, policy, -, hholds⟩ := hdefined.sendsBest htaken.sent hroot
      have hname : m.router ∈ f.topology.names := mem_names hdefined.router
      obtain rfl := eq_overall hname hdefined.overall
      obtain ⟨k, hk⟩ := hdistance (mem_overall hname)
      have hsent := htaken.sent
      rw [← hdefined.record] at hd hsent
      rw [hk, hholds.distance hsent hd hk]

/-- `edgeNetwork` with other distances for its static routes, so that distances are kept. -/
def distantNetwork : Network where
  routers := edgeNetwork.routers.map fun r =>
    { r with staticRoutes := r.staticRoutes.map fun route => { route with adminCost := .int 7 } }

/-- The neighbor announces a route with a distance of its own. -/
def distantState : Valuation :=
  { announcedState with
    int name := if Text.occursIn "adminDist" name && !Text.occursIn "STATIC__SINGLE" name then
        if Text.occursIn "STATIC" name then 7 else 33
      else announcedState.int name }

theorem distant_distance_isHandedOn : ∃ e l x source, (encode distantNetwork edgeRequest).result = .ok e ∧
    distantState.Satisfies e.ledger ∧ l ∈ e.slice.lanes ∧ e.slice.incoming l = .ok x ∧
    x.distance distantState = some 33 ∧ e.slice.across? l .incoming = some source ∧
    source.distance distantState = some 33 := by
  have hdistant : ∃ e, (encode distantNetwork edgeRequest).result = .ok e ∧ distantState.Satisfies e.ledger ∧
      e.slice.plan.keepAdminDist ∧ ∃ l ∈ e.slice.lanes, l.protocol.isLocal = false ∧
        ∃ x, e.slice.incoming l = .ok x ∧ x.permits.eval distantState ∧
          (x.under distantState).number .adminDist = some 33 := by
    decide +kernel
  obtain ⟨e, he, hv, hkeep, l, hl, hlocal, x, hx, hpermits, hdistance⟩ := hdistant
  obtain ⟨source, k, hacross, -, hk, hsource, -⟩ := distance_isHandedOn he hv hkeep hl hlocal hx hpermits
  cases hdistance.symm.trans hk
  exact ⟨e, l, x, source, he, hv, hl, hx, hk, hacross, hsource⟩

end Encoding

end ControlPlane
