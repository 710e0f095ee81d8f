import ControlPlane.Proofs.Slice.Forwarding

/-!
# Routes that were learned over iBGP

Such routes are not sent over iBGP again.  What keeps them back is a mark that a transfer over an internal session
leaves on the received route and that selection carries to the best one.  An import that uses the record at the
other side has no transfer of its own, so it depends on the other side for the mark: an originated route has none
(`Slice.TakesUnmarked`), and goes on over iBGP.  `Encoding.takesUnmarked_of_sent` says that this is the only way.
-/
namespace ControlPlane

open Frame Bool

variable {failures : Document} {m : Lane} {best x : Record} {v : Valuation}

/-! ## §1. Plans -/

namespace Plan

variable {s : Switches} {t : Topology} {name : Name} (h : Plan.canMergeExport s t name .bgp failures = .ok true)
include h

/-- BGP exports share a record only where no link may fail, where all neighbors export by default, and where all
sessions are external and send communities alike. -/
theorem bgp_of_canMergeExport :
    ∃ r process communities, t.router name = .ok r ∧ failures.isPositive = .ok false ∧ r.bgp = some process ∧
      canMergeExport.allByDefault r process.neighbors = .ok true ∧
      (∀ n ∈ (t.edges name).filterMap t.session?, n.isExternal) ∧
      Document.distinct (((t.edges name).filterMap t.session?).map Neighbor.sendCommunity) = .ok communities ∧
      communities.length ≤ 1 := by
  unfold Plan.canMergeExport at h
  split at h
  next => cases h
  next =>
    obtain ⟨r, hr, h⟩ := bind_eq_ok.1 h
    obtain ⟨positive, hpositive, h⟩ := bind_eq_ok.1 h
    cases positive with
    | true => exact absurd h (by simp [pure, Except.pure])
    | false =>
      cases hbgp : r.bgp with
      | none =>
        rw [hbgp] at h
        exact absurd h (by simp [throw, throwThe, MonadExceptOf.throw])
      | some process =>
        rw [hbgp] at h
        obtain ⟨byDefault, hdefault, h⟩ := bind_eq_ok.1 h
        obtain ⟨communities, hcommunities, h⟩ := bind_eq_ok.1 h
        have h := pure_eq_ok.1 h
        simp only [and_eq_true, List.all_eq_true, decide_eq_true_eq] at h
        obtain ⟨⟨rfl, hexternal⟩, hone⟩ := h
        exact ⟨r, process, communities, hr, hpositive, hbgp, hdefault, hexternal, hcommunities, hone⟩

theorem external_of_canMergeExport {e : Edge} (he : e ∈ t.edges name) : t.isInternal e = false := by
  obtain ⟨-, -, -, -, -, -, -, hexternal, -⟩ := bgp_of_canMergeExport h
  unfold Topology.isInternal
  cases hsession : t.session? e with
  | none => rfl
  | some neighbor =>
    show (!neighbor.isExternal) = false
    rw [hexternal neighbor (List.mem_filterMap.2 ⟨e, he, hsession⟩), Bool.not_true]

end Plan

/-! ## §2. Marks -/

def Record.IsMarked (x : Record) (v : Valuation) : Prop := ∃ b, x.bgpInternal = some b ∧ b.eval v

namespace Slice

variable (s : Slice) (v : Valuation)

/-- The received route is taken over as it is from a side that does not mark it: its session is not an internal
one, or it originates the destination. -/
def TakesUnmarked (l : Lane) : Prop :=
  l.incoming.used = false ∧ ∃ m, s.opposite? l = some m ∧ (s.topology.isInternal m.edge = false ∨
    ∃ r subnets, s.topology.router m.router = .ok r ∧ r.originated .bgp = .ok subnets ∧
      (s.packet.isBoundFor subnets).eval v)

variable {s v}

theorem not_sends_of_marked (hp : m.protocol = .bgp) (hinternal : s.topology.isInternal m.edge)
    (hmarked : best.IsMarked v) : ¬ s.Sends best m v := by
  obtain ⟨b, hb, hbv⟩ := hmarked
  intro hsends
  have hmay := hsends.may
  unfold sending at hmay
  rw [hp, hinternal, hb] at hmay
  have hfalse : b.eval v = false := (Term.holds_not v).1 hmay
  cases hbv.symm.trans hfalse

end Slice

/-- A best record that tells how its route was learned has the mark of the route that it is the same as. -/
theorem Comparing.Same.isMarked {c : Comparing} (h : c.Same v best x) (htells : ∃ b, best.bgpInternal = some b)
    (hx : x.IsMarked v) : best.IsMarked v := by
  obtain ⟨b, hb⟩ := htells
  obtain ⟨a, ha, hav⟩ := hx
  have hsame := h.internal
  unfold sameInternal at hsame
  rw [hb, ha] at hsame
  exact ⟨b, hb, ((Term.eval_eq v b a).1 hsame).trans hav⟩

namespace Frame

variable {f : Frame} {rs : List Redistribution} {basis : Plan.Basis} {l : Lane}

variable (hplan : f.IsDecided basis)
include hplan

theorem tells_of_internal (hl : l ∈ f.allLanes) (hbgp : l.protocol = .bgp)
    (hinternal : f.topology.isInternal l.edge) (label : String) {p : Protocol} (hp : p = l.protocol ∨ p = .best)
    (history : Option (Enumeration Protocol)) :
    ∃ b, (Record.planned f label l.router p history).bgpInternal = some b := by
  obtain ⟨r, -, hr, hmem, -⟩ := lane_owner hplan hl
  obtain ⟨d, hd, hdecides⟩ := hplan.router? hr
  have hname := (mem_routers hr).2
  have hneeds : (f.planFor l.router).needsBgpInternal := by
    rw [planFor_eq hd, hdecides.needsBgpInternal, hdecides.protocolList, and_eq_true]
    constructor
    · rw [← f.protocolList_planFor, planFor_eq hd, hbgp] at hmem
      exact List.any_eq_true.2 ⟨.bgp, hmem, rfl⟩
    · rw [hname]
      exact List.any_eq_true.2 ⟨l.edge, lane_edge hl, hinternal⟩
  have hwanted : ((p == .bgp || p == .best) && (f.planFor l.router).needsBgpInternal) := by
    rw [hneeds]
    rcases hp with rfl | rfl
    · rw [hbgp]
      rfl
    · rfl
  rw [Record.planned_bgpInternal, hwanted]
  exact ⟨_, rfl⟩

theorem isMarked_of_planned (hl : l ∈ f.allLanes) (hbgp : l.protocol = .bgp)
    (hinternal : f.topology.isInternal l.edge) {label : String} (hx : x = .planned f label l.router l.protocol)
    (h : ∀ b, x.bgpInternal = some b → b.eval v = (l.protocol == .bgp && f.topology.isInternal l.edge)) :
    x.IsMarked v := by
  obtain ⟨b, hb⟩ := tells_of_internal hplan hl hbgp hinternal label (.inl rfl) none
  rw [← hx] at hb
  refine ⟨b, hb, (h b hb).trans ?_⟩
  rw [hbgp, hinternal]
  rfl

theorem unshared_of_internal (hm : m ∈ f.allLanes) (hbgp : m.protocol = .bgp)
    (hinternal : f.topology.isInternal m.edge) : (f.slice rs).mergesExport m.router m.protocol = false := by
  have hcan := mergesExport_of_lane rs hplan hm
  cases hmerges : (f.slice rs).mergesExport m.router m.protocol with
  | false => rfl
  | true =>
    rw [hmerges, hbgp] at hcan
    have hexternal := Plan.external_of_canMergeExport hcan (lane_edge hm)
    cases hinternal.symm.trans hexternal

theorem outgoing_isMarked (h : (f.slice rs).TransfersHold v) (hm : m ∈ f.allLanes) (hbgp : m.protocol = .bgp)
    (hinternal : f.topology.isInternal m.edge) (hpermits : m.outgoing.permits.eval v)
    (hroot : ∀ r subnets, f.topology.router m.router = .ok r → r.originated .bgp = .ok subnets →
      (f.packet.isBoundFor subnets).eval v = false) :
    m.outgoing.IsMarked v := by
  obtain ⟨r, subnets, best, m₀, hdefined⟩ := definedBy_of_permits hplan h hm hpermits
  obtain rfl := hdefined.unshared (unshared_of_internal hplan hm hbgp hinternal)
  have hnets := hdefined.originated
  rw [hbgp] at hnets
  have hnone : (f.slice rs).matching subnets v = [] :=
    Slice.matching_eq_nil.2 (hroot r subnets hdefined.router hnets)
  obtain ⟨-, policy, -, hholds⟩ := hdefined.sendsBest hpermits hnone
  obtain ⟨y, cost, -, -, -, -, hconveys⟩ := hholds.conveyed hpermits
  obtain ⟨label, hrecord⟩ := outgoing_planned hm
  exact isMarked_of_planned hplan hm hbgp hinternal hrecord hconveys.internal

/-- **What a router receives over iBGP is marked**, unless it is taken over from a side that does not mark it. -/
theorem incoming_isMarked (h : (f.slice rs).TransfersHold v) (hl : l ∈ f.allLanes) (hbgp : l.protocol = .bgp)
    (hinternal : f.topology.isInternal l.edge) (hx : (f.slice rs).incoming l = .ok x)
    (hpermits : x.permits.eval v) : x.IsMarked v ∨ (f.slice rs).TakesUnmarked v l := by
  have hlocal : l.protocol.isLocal = false := by rw [hbgp]; rfl
  obtain ⟨source, htaken⟩ := takenFrom_of_permits hplan h hl hlocal hx hpermits
  cases hused : l.incoming.used with
  | true =>
    -- the transfer leaves the mark
    left
    obtain ⟨rfl, r, policy, -, -, hholds⟩ := htaken.conveyed hused
    obtain ⟨y, cost, -, -, -, -, hconveys⟩ := hholds.conveyed hpermits
    obtain ⟨label, hrecord⟩ := incoming_planned hl hused
    exact isMarked_of_planned hplan hl hbgp hinternal hrecord hconveys.internal
  | false =>
    obtain ⟨rfl, m, hopposite, rfl⟩ := htaken.shared hused
    obtain ⟨hm, hmp, -⟩ := mem_opposite hopposite
    by_cases hroot : ∃ r subnets, f.topology.router m.router = .ok r ∧ r.originated .bgp = .ok subnets ∧
        (f.packet.isBoundFor subnets).eval v
    · exact .inr ⟨hused, m, hopposite, .inr hroot⟩
    · cases hfar : f.topology.isInternal m.edge with
      | false => exact .inr ⟨hused, m, hopposite, .inl hfar⟩
      | true =>
        left
        refine outgoing_isMarked hplan h hm (hmp.trans hbgp) hfar hpermits fun r subnets hr hnets => ?_
        by_contra hbound
        exact hroot ⟨r, subnets, hr, hnets, not_eq_false _ ▸ hbound⟩

theorem switch_of_unused (hl : l ∈ f.allLanes) (hused : l.incoming.used = false) :
    basis.switches.importExportMerge := by
  obtain ⟨_, -, -, hmerged⟩ := isMergedImport_of_unused hplan hl hused
  exact hmerged.switch

end Frame

/-! ## §3. The rule -/

/-- **A route that was learned over iBGP is not sent over iBGP**, unless the import uses the record at the other
side and the other side does not mark it. -/
theorem Encoding.takesUnmarked_of_sent {n : Network} {req : Request} {e : Encoding} {v : Valuation} {name : Name}
    {r : Router} {subnets : List Subnet} {l m : Lane} (he : (Encoding.encode n req).result = .ok e)
    (hv : v.Satisfies e.ledger) (hr : e.slice.topology.router name = .ok r)
    (hnets : r.originated .bgp = .ok subnets) (hroot : (e.slice.packet.isBoundFor subnets).eval v = false)
    (hl : l ∈ e.slice.lanesOf name .bgp) (hlearned : e.slice.topology.isInternal l.edge)
    (hused : e.slice.IsUsed v r l) (hm : m ∈ e.slice.lanesOf name .bgp)
    (hinternal : e.slice.topology.isInternal m.edge) (hsent : m.outgoing.permits.eval v) :
    req.switches.importExportMerge ∧ e.slice.TakesUnmarked v l := by
  obtain ⟨f, rs, hof⟩ := Encoding.encode_isOf he
  obtain ⟨encoded, hplan⟩ := Frame.isDecided hof.plan
  have hstate := hof.sound v hv
  rw [hof.slice] at hr hroot hl hlearned hused hm hinternal hstate ⊢
  obtain ⟨hmem, rfl⟩ := mem_routers hr
  obtain ⟨hllane, hlkey⟩ := List.mem_filter.1 hl
  obtain ⟨hmlane, hmkey⟩ := List.mem_filter.1 hm
  simp only [and_eq_true, beq_iff_eq] at hlkey hmkey
  obtain ⟨hchoice, best, x, hbest, hx, hsame⟩ := hused
  have hnames : r.name ∈ f.topology.names := mem_names hr
  rw [slice_overall hnames] at hbest
  cases hbest
  -- the received route is permitted, as it was chosen
  obtain ⟨r', hr', hp, hlmem, -⟩ := lanesHold_of_mem hplan hstate.transfers hllane
  rw [hlkey.1] at hr' hp
  cases hr.symm.trans hr'
  obtain ⟨b, x', -, hx', hiff⟩ := hstate.selection.choices r hmem l.protocol hp l hlmem
  cases hx.symm.trans hx'
  have hpermits := (hiff.1 hchoice).1
  rcases incoming_isMarked hplan hstate.transfers hllane hlkey.2 hlearned hx hpermits with hmarked | htakes
  · -- so the best route is marked, which keeps it back
    have htells : ∃ b, (f.bestRecord r.name "OVERALL" .best).bgpInternal = some b := by
      rw [← hlkey.1]
      exact tells_of_internal hplan hllane hlkey.2 hlearned _ (.inr rfl) _
    have hbestMarked := (Slice.same_of_sameRoute hsame).isMarked htells hmarked
    obtain ⟨r', subnets', best, m₀, hdefined⟩ :=
      definedBy_of_permits hplan hstate.transfers hmlane hsent
    have hrouter := hdefined.router
    rw [hmkey.1] at hrouter
    cases hr.symm.trans hrouter
    have horiginated := hdefined.originated
    rw [hmkey.2] at horiginated
    cases hnets.symm.trans horiginated
    have hoverall := hdefined.overall
    rw [hmkey.1, slice_overall hnames] at hoverall
    cases hoverall
    have hsends := (hdefined.sendsBest hsent (Slice.matching_eq_nil.2 hroot)).1
    obtain rfl := hdefined.unshared (unshared_of_internal hplan hmlane hmkey.2 hinternal)
    exact absurd hsends (Slice.not_sends_of_marked hmkey.2 hinternal hbestMarked)
  · exact ⟨switch_of_unused hplan hllane htakes.1, htakes⟩

namespace Encoding

/-- Three routers with internal sessions in a row.  `C` originates a network. -/
def chainNetwork : Network where
  routers := [
    { name := .text "A"
      interfaces := [.port "ab" (.ofOctets 10 0 0 1 30)]
      bgp := some (.speaker "1.1.1.1" [.peer (.ofOctets 10 0 0 2) 1 1]) },
    { name := .text "B"
      interfaces := [.port "ba" (.ofOctets 10 0 0 2 30), .port "bc" (.ofOctets 10 0 0 5 30)]
      bgp := some (.speaker "2.2.2.2" [.peer (.ofOctets 10 0 0 1) 1 1, .peer (.ofOctets 10 0 0 6) 1 1]) },
    { name := .text "C"
      interfaces := [.port "cb" (.ofOctets 10 0 0 6 30)]
      bgp := some (.speaker "3.3.3.3" [.peer (.ofOctets 10 0 0 5) 1 1])
      filterLists := [.originating [.ofOctets 10 99 0 0 24]] }]
  links := [.cable "A" "ab" "B" "ba", .cable "B" "bc" "C" "cb"]

/-- Packets to the network of `C`. -/
def chainRequest : Request where
  space := { dstIps := [.ofOctets 10 99 0 0 24] }

/-- The state of `chainNetwork` in which the route of `C` comes to `A`. -/
def chainState : Valuation where
  bool name :=
    ["A_OVERALL_none_BEST_permitted", "A_OVERALL_none_BEST_bgpInternal", "B_OVERALL_none_BEST_permitted",
      "B_BGP_ba_EXPORT_permitted", "B_BGP_ba_EXPORT_bgpInternal", "B_BGP_bc_EXPORT_permitted",
      "B_BGP_bc_EXPORT_bgpInternal", "C_BGP_cb_EXPORT_permitted", "A_BGP_ab_IMPORT_choice", "B_BGP_bc_IMPORT_choice",
      "control-forwarding_A_ab", "data-forwarding_A_ab", "control-forwarding_B_bc",
      "data-forwarding_B_bc"].contains (name.drop 11).toString || Text.occursIn "SSA" name
  int name :=
    if name == "SLICE-MAIN_dst-ip" then 174260229
    else if name == "SLICE-MAIN_A_OVERALL_none_BEST_routerID" then 33686018
    else if name == "SLICE-MAIN_B_OVERALL_none_BEST_routerID" then 50529027
    else if ["A_OVERALL_none_BEST_prefixLength", "B_OVERALL_none_BEST_prefixLength", "B_BGP_ba_EXPORT_prefixLength",
      "B_BGP_bc_EXPORT_prefixLength", "C_BGP_cb_EXPORT_prefixLength"].contains (name.drop 11).toString then 24
    else 0
  bits _ := 0

/-- `chainState` is a state of an encoding in which `B` has its route over an internal session and sends it over
another one. -/
def IsChainState (e : Encoding) : Prop :=
  chainState.Satisfies e.ledger ∧ ∃ r, e.slice.topology.router (.text "B") = .ok r ∧
    (∃ subnets, r.originated .bgp = .ok subnets ∧ (e.slice.packet.isBoundFor subnets).eval chainState = false) ∧
    ∃ l ∈ e.slice.lanesOf (.text "B") .bgp, e.slice.topology.isInternal l.edge ∧ e.slice.IsUsed chainState r l ∧
      ∃ m ∈ e.slice.lanesOf (.text "B") .bgp, e.slice.topology.isInternal m.edge ∧
        m.outgoing.permits.eval chainState

instance : DecidablePred IsChainState := fun e => inferInstanceAs (Decidable (chainState.Satisfies e.ledger ∧ _))

theorem chain_takesUnmarked : ∃ e r l m, (encode chainNetwork chainRequest).result = .ok e ∧
    chainState.Satisfies e.ledger ∧ e.slice.topology.router (.text "B") = .ok r ∧
    l ∈ e.slice.lanesOf (.text "B") .bgp ∧ e.slice.topology.isInternal l.edge ∧ e.slice.IsUsed chainState r l ∧
    m ∈ e.slice.lanesOf (.text "B") .bgp ∧ e.slice.topology.isInternal m.edge ∧
    m.outgoing.permits.eval chainState ∧ e.slice.TakesUnmarked chainState l := by
  have hchain : ∃ e, (encode chainNetwork chainRequest).result = .ok e ∧ IsChainState e := by decide +kernel
  obtain ⟨e, he, hv, r, hr, ⟨subnets, hnets, hroot⟩, l, hl, hlearned, hused, m, hm, hinternal, hsent⟩ := hchain
  have htakes := takesUnmarked_of_sent he hv hr hnets hroot hl hlearned hused hm hinternal hsent
  exact ⟨e, r, l, m, he, hv, hr, hl, hlearned, hused, hm, hinternal, hsent, htakes.2⟩

end Encoding

end ControlPlane
