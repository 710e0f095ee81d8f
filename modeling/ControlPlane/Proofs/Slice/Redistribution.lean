import ControlPlane.Proofs.Slice.Derivations

/-!
# Routes that a protocol takes over

A protocol only sends the routes of the protocols that its export policies match on.  The best route of a router says
which protocol it came from, and a protocol sends it where it names that protocol.
-/
namespace ControlPlane

open List

/-! ## §1. The sources of a protocol -/

namespace Frame

def TakesOver (r : Router) (p q : Protocol) : Prop :=
  ∃ policies, exportPolicies r p = .ok policies ∧ ∃ policy ∈ policies,
    r.Reaches policy.statements (.expression (.matchProtocol q))

variable {f : Frame} {rs : List Redistribution} {name : Name} {r : Router} {p q : Protocol}

theorem reaches_of_matched {policy : RoutingPolicy} {found : List Protocol}
    (h : matchedProtocols r policy = .ok found) (hq : q ∈ found) :
    r.Reaches policy.statements (.expression (.matchProtocol q)) := by
  obtain ⟨lists, hlists, h⟩ := bind_eq_ok.1 h
  split at h
  · exact absurd h (by simp [throw, throwThe, MonadExceptOf.throw])
  · cases h
    obtain ⟨ps, hps, hq⟩ := mem_flatten.1 hq
    obtain ⟨node, hnode, hfound⟩ := exists_of_mem_mapM hlists hps
    -- only a match on a protocol finds one
    split at hfound
    · cases hfound
      obtain rfl := mem_singleton.1 hq
      exact Router.reaches_of_walk hnode
    · cases hfound
      cases hq

/-- **The other protocols that a protocol takes over are named by its export policies.** -/
theorem takesOver_of_source (hlays : f.redistributions = .ok rs) (hr : f.topology.router name = .ok r)
    (hq : q ∈ (f.slice rs).sourcesOf name p) : TakesOver r p q := by
  obtain ⟨policies, hpolicies, policy, hpolicy, found, hmatched, hq⟩ := matched_of_source hlays hr hq
  exact ⟨policies, hpolicies, policy, hpolicy, reaches_of_matched hmatched hq⟩

end Frame

/-! ## §2. Sent routes -/

theorem Slice.isFrom_of_redistributionGuard {s : Slice} {name : Name} {p : Protocol} {best : Record} {v : Valuation}
    {h : Enumeration Protocol} (hhistory : best.history = some h)
    (hguard : (s.redistributionGuard name p best).eval v) :
    ∃ q, (q = p ∨ q ∈ s.sourcesOf name p) ∧ best.IsFrom v q := by
  unfold redistributionGuard at hguard
  rw [hhistory] at hguard
  obtain ⟨t, ht, htv⟩ := (Term.holds_anyOf v).1 hguard
  obtain ⟨q, hq, rfl⟩ := mem_map.1 ht
  refine ⟨q, mem_cons.1 hq, fun h' hh' => ?_⟩
  cases hhistory.symm.trans hh'
  exact htv

/-- **Nothing leaks between protocols.**  A route that is sent where the router does not originate the destination is
the best one of the router.  That route tells one protocol, which is encoded at the router and has a best route there,
and which is the sending protocol itself or one that its export policies name. -/
theorem Encoding.sent_isTakenOver {n : Network} {req : Request} {e : Encoding} {v : Valuation} {m : Lane} {r : Router}
    {subnets : List Subnet} (he : (Encoding.encode n req).result = .ok e) (hv : v.Satisfies e.ledger)
    (hm : m ∈ e.slice.lanes) (hr : e.slice.topology.router m.router = .ok r)
    (hnets : r.originated m.protocol = .ok subnets)
    (hroot : ∀ subnet ∈ subnets, (subnet.holdsOf e.slice.packet.dstIp).eval v = false)
    (hpermits : m.outgoing.permits.eval v) :
    ∃ best h q b, e.slice.overall m.router = .ok best ∧ best.permits.eval v ∧
      best.history = some h ∧ (∀ p, (h.isValue p).eval v ↔ p = q) ∧
      q ∈ e.slice.protocols m.router ∧ e.slice.bestOf m.router q = .ok b ∧ b.permits.eval v ∧
      (q = m.protocol ∨ Frame.TakesOver r m.protocol q) := by
  obtain ⟨f, rs, hof⟩ := Encoding.encode_isOf he
  obtain ⟨encoded, hplan⟩ := Frame.isDecided hof.plan
  have hstate := hof.sound v hv
  rw [hof.slice] at hm hr hroot hstate ⊢
  have hr : f.topology.router m.router = .ok r := hr
  obtain ⟨r', subnets', best, m₀, hdefined⟩ := Frame.definedBy_of_permits hplan hstate.transfers hm hpermits
  cases hr.symm.trans hdefined.router
  cases hnets.symm.trans hdefined.originated
  have hmatching : (f.slice rs).matching subnets v = [] :=
    List.filter_eq_nil_iff.2 fun subnet hsubnet => by simp [hroot subnet hsubnet]
  obtain ⟨hsends, -⟩ := hdefined.sendsBest hpermits hmatching
  have hoverall := hdefined.overall
  rw [Frame.slice_overall (Frame.mem_names hr)] at hoverall
  cases hoverall
  -- the best route is that of one protocol, and tells no other one
  obtain ⟨q, hq, b, hb, hbv, -, hfrom, honly⟩ := Frame.overall_agrees hplan hstate.selection hr hsends.permits
  obtain ⟨p, hp, hpfrom⟩ := Slice.isFrom_of_redistributionGuard rfl hsends.source
  obtain rfl := honly p hpfrom
  refine ⟨_, _, p, b, hdefined.overall, hsends.permits, rfl, fun p' => ⟨fun hp' => ?_, ?_⟩, hq, hb, hbv, ?_⟩
  · exact honly p' fun h' hh' => Option.some.inj hh' ▸ hp'
  · rintro rfl
    exact hfrom _ rfl
  · rw [hdefined.sender, hdefined.protocol] at hp
    exact hp.imp_right (Frame.takesOver_of_source hof.redistributions hr)

namespace Encoding

/-- In `redistributingState`, `A` sends its static route by OSPF. -/
def SendsStatic (e : Encoding) (m : Lane) (subnets : List Subnet) : Prop :=
  m.router = .text "A" ∧ m.protocol = .ospf ∧ m.outgoing.permits.eval redistributingState ∧
    (∀ subnet ∈ subnets, (subnet.holdsOf e.slice.packet.dstIp).eval redistributingState = false) ∧
    ∃ best, e.slice.overall m.router = .ok best ∧ ∃ h, best.history = some h ∧
      (h.isValue .static).eval redistributingState

instance (e : Encoding) (m : Lane) (subnets : List Subnet) : Decidable (SendsStatic e m subnets) :=
  inferInstanceAs (Decidable (m.router = .text "A" ∧ _))

theorem redistributing_sent_isTakenOver : ∃ e m r subnets,
    (encode redistributingNetwork redistributingRequest).result = .ok e ∧ redistributingState.Satisfies e.ledger ∧
    m ∈ e.slice.lanes ∧ e.slice.topology.router m.router = .ok r ∧ r.originated m.protocol = .ok subnets ∧
    SendsStatic e m subnets ∧ Frame.TakesOver r .ospf .static := by
  have hstate : ∃ e, (encode redistributingNetwork redistributingRequest).result = .ok e ∧
      redistributingState.Satisfies e.ledger ∧ ∃ m ∈ e.slice.lanes, ∃ r, e.slice.topology.router m.router = .ok r ∧
        ∃ subnets, r.originated m.protocol = .ok subnets ∧ SendsStatic e m subnets := by
    decide +kernel
  obtain ⟨e, he, hv, m, hm, r, hr, subnets, hnets, hsends⟩ := hstate
  obtain ⟨-, hp, hpermits, hroot, best, hbest, h, hhistory, hstatic⟩ := id hsends
  obtain ⟨best', h', q, b, hbest', -, hhistory', hvalue, -, -, -, htakes⟩ :=
    sent_isTakenOver he hv hm hr hnets hroot hpermits
  cases hbest.symm.trans hbest'
  cases hhistory.symm.trans hhistory'
  obtain rfl := (hvalue .static).1 hstatic
  rw [hp] at htakes
  exact ⟨e, m, r, subnets, he, hv, hm, hr, hnets, hsends, htakes.resolve_left (by decide)⟩

end Encoding

end ControlPlane
