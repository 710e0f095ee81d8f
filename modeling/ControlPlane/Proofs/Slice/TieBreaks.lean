import ControlPlane.Proofs.Slice.Forwarding
import ControlPlane.Proofs.Slice.LongestPrefix
import ControlPlane.Proofs.Slice.SingleRouter

/-!
# Ties between paths

Without multipath the best route of a protocol has a router id, and a route is chosen only if it came from a peer with
this id.  That is all that breaks ties: over parallel links, or from peers that share an id, all routes that are equally
good are chosen.
-/
namespace ControlPlane

open List Frame Option

variable {n : Network} {req : Request} {e : Encoding} {f : Frame} {rs : List Redistribution} {v : Valuation}
  {name : Name} {r : Router} {p : Protocol} {l : Lane} {best x : Record} {basis : Plan.Basis}

/-- The id by which a route over a lane is compared: that of the peer, unless the record of the route has one. -/
def Slice.HasId (s : Slice) (v : Valuation) (l : Lane) (id : Int) : Prop :=
  ∃ x, s.incoming l = .ok x ∧ match x.routerId with
    | some t => t.eval v = id
    | none => ∃ d, s.peerId l l.protocol = .ok (some d) ∧ d.integer = .ok id

namespace Frame

theorem bestOf_routerId (hplan : f.IsDecided basis) (hr : f.topology.router name = .ok r)
    (hp : p ∈ f.protocols name) (hpath : (r.isMultipath p).map Document.truthy = .ok false)
    (hbest : (f.slice rs).bestOf name p = .ok best) : ∃ b, best.routerId = some b := by
  obtain ⟨q, hq, hdecides⟩ := decides_protocol hplan hr hp
  obtain ⟨d, hd, hneeds⟩ := hdecides.multipath
  rw [hd] at hpath
  rw [Except.ok.inj hpath] at hneeds
  rw [slice_bestOf (mem_names hr) hp] at hbest
  cases hbest
  refine ne_none_iff_exists'.1 ?_
  split
  · have hany : (f.planFor name).needsRouterId := any_eq_true.2 ⟨q, mem_of_find?_eq_some hq, hneeds⟩
    show Record.numberIf (f.planFor name).needsRouterId _ _ ≠ none
    rw [hany]
    exact nofun
  · exact bestRecord_routerId hdecides.ne_best hq hneeds

/-- **A received route came from a peer with an id**, that of the router or of the neighbor outside of the network. -/
theorem peerId_of_permits (hplan : f.IsDecided basis) (h : (f.slice rs).TransfersHold v)
    (hl : l ∈ f.allLanes) (hlocal : l.protocol.isLocal = false) (hx : (f.slice rs).incoming l = .ok x)
    (hpermits : x.permits.eval v) : (f.slice rs).peerId l l.protocol ≠ .ok none := by
  intro hid
  obtain ⟨source, htaken⟩ := takenFrom_of_permits hplan h hl hlocal hx hpermits
  have hacross := htaken.across
  unfold Slice.peerId at hid
  unfold Slice.across? at hacross
  cases hopposite : (f.slice rs).opposite? l with
  | some m =>
    rw [hopposite] at hid
    obtain ⟨peer, -, hid⟩ := bind_eq_ok.1 hid
    obtain ⟨d, -, hid⟩ := bind_eq_ok.1 hid
    cases hid
  | none =>
    rw [hopposite] at hid hacross
    -- only a session with a neighbor outside of the network announces anything
    have hsession : f.topology.session? l.edge = none := map_eq_none_iff.1 (Except.ok.inj hid)
    have hbgp : l.protocol = .bgp := by
      by_contra hne
      cases (announcement_none hne).symm.trans hacross
    have hedge := isEdgeUsed_of_lane hl
    rw [hbgp, Topology.isEdgeUsed, hsession] at hedge
    cases hedge

end Frame

namespace Encoding

/-- **Chosen routes share an id.**  Without multipath all chosen routes of a protocol came from peers with one id, so
that at most one is chosen where no two peers share an id. -/
theorem chosen_shareId (he : (encode n req).result = .ok e) (hv : v.Satisfies e.ledger)
    (hr : e.slice.topology.router name = .ok r) (hp : p ∈ e.slice.protocols name)
    (hpath : (r.isMultipath p).map Document.truthy = .ok false) :
    (∃ id, ∀ l ∈ e.slice.lanesOf name p, l.choice.eval v → e.slice.HasId v l id) ∧
    ((∀ l ∈ e.slice.lanesOf name p, ∀ m ∈ e.slice.lanesOf name p, ∀ id,
        e.slice.HasId v l id → e.slice.HasId v m id → l = m) →
      ∀ l ∈ e.slice.lanesOf name p, ∀ m ∈ e.slice.lanesOf name p,
        l.choice.eval v → m.choice.eval v → l = m) := by
  suffices hid : ∃ id, ∀ l ∈ e.slice.lanesOf name p, l.choice.eval v → e.slice.HasId v l id by
    obtain ⟨id, hid⟩ := hid
    exact ⟨⟨id, hid⟩, fun htold l hl m hm hcl hcm => htold l hl m hm id (hid l hl hcl) (hid m hm hcm)⟩
  obtain ⟨f, rs, hof⟩ := encode_isOf he
  obtain ⟨encoded, hplan⟩ := Frame.isDecided hof.plan
  have hstate := hof.sound v hv
  rw [hof.slice] at hr hp hstate ⊢
  obtain ⟨hmem, rfl⟩ := mem_routers hr
  obtain ⟨best, hbest, -⟩ := hstate.selection.perProtocol r hmem p hp
  obtain ⟨b, hb⟩ := bestOf_routerId hplan hr hp hpath hbest
  refine ⟨b.eval v, fun l hl hchosen => ?_⟩
  obtain ⟨best', x, hbest', hx, hchoice⟩ := hstate.selection.choices r hmem p hp l hl
  cases hbest.symm.trans hbest'
  obtain ⟨hpermits, hsame⟩ := hchoice.1 hchosen
  obtain ⟨t, ht, htv⟩ := (Slice.same_of_sameRoute hsame).ids
  obtain ⟨hlane, -, rfl⟩ := mem_lanesOf.1 hl
  refine ⟨x, hx, ?_⟩
  unfold Comparing.compareIds at ht
  rw [hb] at ht
  obtain ⟨multipath, hmultipath, ht⟩ := bind_eq_ok.1 ht
  cases hmultipath.symm.trans hpath
  rw [if_neg Bool.false_ne_true] at ht
  cases hid : x.routerId with
  | some o =>
    rw [hid] at ht
    cases ht
    exact ((Term.eval_eq v _ _).1 htv).symm
  | none =>
    rw [hid] at ht
    obtain ⟨id, hpeer, ht⟩ := bind_eq_ok.1 ht
    have hlocal : l.protocol.isLocal = false := by
      cases hp : l.protocol <;> rw [hp] at hpath <;> first | cases hpath | rfl
    cases id with
    | none => exact absurd hpeer (peerId_of_permits hplan hstate.transfers hlane hlocal hx hpermits)
    | some d =>
      obtain ⟨i, hi, ht⟩ := bind_eq_ok.1 ht
      cases ht
      exact ⟨d, hpeer, hi.trans (congrArg _ ((Term.eval_eq v _ _).1 htv).symm)⟩

/-- A router with neighbors in two other autonomous systems. -/
def dualNetwork : Network where
  routers := [{
    name := .text "A"
    interfaces := [.port "i" (.ofOctets 10 0 0 1 30), .port "j" (.ofOctets 10 0 1 1 30)]
    bgp := some (.speaker "1.1.1.1" [.peer (.ofOctets 10 0 0 2) 2 1, .peer (.ofOctets 10 0 1 2) 3 1]) }]

/-- Both neighbors announce the same route, and the one with the lower address is chosen. -/
def tiedState : Valuation where
  bool name := !(Text.occursIn "CONNECTED" name || Text.occursIn "j_IMPORT_choice" name ||
    Text.occursIn "forwarding_A_j" name)
  int name :=
    if Text.occursIn "routerID" name then 167772162
    else if Text.occursIn "BGP__SINGLE-EXPORT_metric" name then 1
    else if Text.occursIn "adminDist" name then 20 else 0
  bits _ := 0

/-- In `tiedState`, a route is received over a lane from a peer with the given address. -/
def IsTied (e : Encoding) (address : Int) (l : Lane) : Prop :=
  l.incoming.permits.eval tiedState ∧ ∃ x, e.slice.incoming l = .ok x ∧ x.routerId.isNone ∧
    ∃ d, e.slice.peerId l l.protocol = .ok d ∧ d.map Document.integer = some (.ok address)

instance (e : Encoding) (address : Int) (l : Lane) : Decidable (IsTied e address l) :=
  inferInstanceAs (Decidable (_ ∧ _))

theorem IsTied.id_eq {address id : Int} (h : IsTied e address l) (hid : e.slice.HasId tiedState l id) :
    address = id := by
  obtain ⟨-, x, hx, hnone, d, hd, haddress⟩ := h
  obtain ⟨x', hx', hid⟩ := hid
  cases hx.symm.trans hx'
  rw [isNone_iff_eq_none.1 hnone] at hid
  obtain ⟨d', hd', hinteger⟩ := hid
  cases hd.symm.trans hd'
  rw [map_some, hinteger] at haddress
  cases haddress
  rfl

theorem dual_chosen_shareId : ∃ e r l m, (encode dualNetwork {}).result = .ok e ∧ tiedState.Satisfies e.ledger ∧
    e.slice.topology.router (.text "A") = .ok r ∧ (r.isMultipath .bgp).map Document.truthy = .ok false ∧
    e.slice.lanesOf (.text "A") .bgp = [l, m] ∧ IsTied e 167772162 l ∧ IsTied e 167772418 m ∧
    l.choice.eval tiedState ∧ e.slice.HasId tiedState l 167772162 ∧ m.choice.eval tiedState = false := by
  have hdual : ∃ e, (encode dualNetwork {}).result = .ok e ∧ tiedState.Satisfies e.ledger ∧
      ∃ r, e.slice.topology.router (.text "A") = .ok r ∧ (r.isMultipath .bgp).map Document.truthy = .ok false ∧
        .bgp ∈ e.slice.protocols (.text "A") ∧ (e.slice.lanesOf (.text "A") .bgp).length = 2 ∧
        (∀ l ∈ (e.slice.lanesOf (.text "A") .bgp).take 1, IsTied e 167772162 l ∧ l.choice.eval tiedState) ∧
        ∀ m ∈ (e.slice.lanesOf (.text "A") .bgp).drop 1, IsTied e 167772418 m := by
    decide +kernel
  obtain ⟨e, he, hv, r, hr, hpath, hp, hlength, hfirst, hsecond⟩ := hdual
  obtain ⟨hshare, hunique⟩ := chosen_shareId he hv hr hp hpath
  obtain ⟨l, m, hlanes⟩ := length_eq_two.1 hlength
  rw [hlanes] at hfirst hsecond hshare hunique
  obtain ⟨hl, hchoice⟩ := hfirst l (by simp)
  have hm := hsecond m (by simp)
  obtain ⟨id, hid⟩ := hshare
  have hlid := hid l (by simp) hchoice
  have heq := hl.id_eq hlid
  have htold : ∀ a ∈ [l, m], ∀ b ∈ [l, m], ∀ id, e.slice.HasId tiedState a id →
      e.slice.HasId tiedState b id → a = b := by
    have hne : ∀ id, e.slice.HasId tiedState l id → ¬ e.slice.HasId tiedState m id := fun id h h' =>
      absurd ((hl.id_eq h).trans (hm.id_eq h').symm) (by decide)
    simp only [mem_cons, not_mem_nil, or_false]
    rintro a (rfl | rfl) b (rfl | rfl) id ha hb
    · rfl
    · exact absurd hb (hne id ha)
    · exact absurd ha (hne id hb)
    · rfl
  refine ⟨e, r, l, m, he, hv, hr, hpath, hlanes, hl, hm, hchoice, heq ▸ hlid, Bool.eq_false_iff.2 fun hchosen => ?_⟩
  -- both would be one lane, whose peer has one address
  cases hunique htold l (by simp) m (by simp) hchoice hchosen
  exact absurd (heq.trans (hm.id_eq hlid).symm) (by decide)

end Encoding

end ControlPlane
