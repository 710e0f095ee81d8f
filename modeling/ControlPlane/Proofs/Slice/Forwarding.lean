import ControlPlane.Proofs.Slice.Ospf

/-!
# Selected routes are forwarded

A router selects in two steps, within a protocol and among protocols, but forwards over the lanes whose route is
the best one of both.  The two steps compare the same attributes, with one exception: only OSPF routes fix the
area of the overall best route, while every lane is compared with the area of its interface.
-/
namespace ControlPlane

open Term Record Frame Comparing

variable {withCommunities : Bool} {c : Comparing} {l : Lane} {p : Protocol} {x y : Record} {r : Router} {t : Term .bool}
  {v : Valuation}

/-! ## §1. The same route, criterion by criterion -/

namespace Comparing

variable {z : Record}

theorem Same.sameRoute (h : c.Same v x y) : Slice.SameRoute v c x y := by
  obtain ⟨area, harea, harea'⟩ := h.area
  obtain ⟨ids, hids, hids'⟩ := h.ids
  refine ⟨_, bind_eq_ok.2 ⟨area, harea, bind_eq_ok.2 ⟨ids, hids, rfl⟩⟩, ?_⟩
  rw [holds_allOf, List.forall_mem_append]
  simp only [List.forall_mem_cons]
  exact ⟨⟨h.number .prefixLength (by decide), h.number .adminDist (by decide), h.number .localPref (by decide),
    h.number .metric (by decide), h.number .med (by decide), h.type, harea', hids', h.history,
    h.internal, nofun⟩, nofun⟩

theorem sameNumber_trans {a b d : Option (Term .int)} {default : Int} (hab : a = none → b = none)
    (hbd : b = none → d = none) (h : (sameNumber a b default).eval v)
    (h' : (sameNumber b d default).eval v) : (sameNumber a d default).eval v := by
  cases a with
  | none => rfl
  | some i =>
    cases b with
    | none =>
      rw [hbd rfl]
      exact h
    | some j =>
      have hij : i.eval v = j.eval v := (eval_eq v _ _).1 h
      have hjd : j.eval v = (d.getD (.intLit default)).eval v := (eval_eq v _ _).1 h'
      exact (eval_eq v _ _).2 (hij.trans hjd)

theorem sameInternal_trans (hy : x.bgpInternal ≠ none → z.bgpInternal ≠ none → y.bgpInternal ≠ none)
    (h : (sameInternal x y).eval v) (h' : (sameInternal y z).eval v) :
    (sameInternal x z).eval v := by
  unfold sameInternal at h h' ⊢
  cases hx : x.bgpInternal with
  | none => rfl
  | some a =>
    cases hz : z.bgpInternal with
    | none => rfl
    | some d =>
      obtain ⟨b, hb⟩ := Option.ne_none_iff_exists'.1 (hy (by simp [hx]) (by simp [hz]))
      rw [hx, hb] at h
      rw [hb, hz] at h'
      exact (eval_eq v _ _).2 (((eval_eq v _ _).1 h).trans ((eval_eq v _ _).1 h'))

theorem sameArea_trans {name name' : String} {areas : List Document} {arrival : Arrival} {s : Term .bool}
    (hx : x.ospfArea = Record.areaOf name areas) (hy : y.ospfArea = Record.areaOf name' areas)
    (ha : c.arrival = some arrival) (hs : c.inside.sameArea x y = .ok s) (hsv : s.eval v)
    (ht : c.sameArea y z = .ok t) (htv : t.eval v) : ∃ u, c.sameArea x z = .ok u ∧ u.eval v := by
  unfold sameArea at hs ht ⊢
  rw [hx] at hs ⊢
  rw [hy] at hs ht
  unfold Record.areaOf at hs ht ⊢
  by_cases hmany : 1 < areas.length
  · rw [if_pos hmany] at hs ht ⊢
    rw [if_pos hmany] at hs
    cases hs
    have hsame := Enumeration.frozen_of_equal hsv
    rw [ha] at ht ⊢
    dsimp only at ht ⊢
    cases harea : arrival.area with
    | null =>
      rw [harea] at ht
      cases ht
      exact ⟨_, rfl, isDefault_of_frozen hsame htv⟩
    | _ =>
      rw [harea] at ht
      obtain ⟨u, hu, huv⟩ := Enumeration.isDocument_of_frozen hsame.symm ht
      exact ⟨u, hu, huv.trans htv⟩
  · rw [if_neg hmany]
    exact ⟨.yes, rfl, rfl⟩

/-- **The best of the best is the same route**, if its area is right: what is compared in two steps can be compared
in one. -/
theorem Same.trans (hxy : x.Covers y) (hyz : y.Covers z) (hx : x.HoldsType) (hy : y.HoldsType) (hz : z.HoldsType)
    (hids : x.routerId ≠ none → c.multipath = .ok false → y.routerId ≠ none) (hhistory : z.history = none)
    (hinternal : x.bgpInternal ≠ none → z.bgpInternal ≠ none → y.bgpInternal ≠ none)
    (harea : ∃ t, c.sameArea x z = .ok t ∧ t.eval v)
    (h : c.inside.Same v x y) (h' : c.Same v y z) : c.Same v x z where
  number a ha := sameNumber_trans (hxy.number a ha) (hyz.number a ha) (h.number a ha) (h'.number a ha)
  type := (holds_sameType hx hz).2 fun _ =>
    (eval_sameType hx hy hxy.ospfType h.type).trans (eval_sameType hy hz hyz.ospfType h'.type)
  area := harea
  ids := by
    obtain ⟨s, hs, hsv⟩ := h.ids
    obtain ⟨t, ht, htv⟩ := h'.ids
    have heq : ∀ i j k : Term .int, (i.eq j).eval v → (j.eq k).eval v → (i.eq k).eval v := by
      intro i j k hij hjk
      rw [eval_eq] at hij hjk ⊢
      exact hij.trans hjk
    obtain ⟨u, hu, himp⟩ := compareIds_trans heq hids hs ht
    exact ⟨u, hu, himp hsv htv⟩
  history := by
    unfold sameHistory
    rw [hhistory]
    cases x.history <;> rfl
  internal := sameInternal_trans hinternal h.internal h'.internal

end Comparing

/-! ## §2. Lanes that a route was selected from -/

namespace Slice

structure Carries (s : Slice) (v : Valuation) (r : Router) (best : Record) (p : Protocol) (l : Lane) : Prop where
  protocol : p ∈ s.protocols r.name
  lane : l ∈ s.lanesOf r.name p
  selected : ∃ b x, s.bestOf r.name p = .ok b ∧ b.permits.eval v ∧
    (s.isSingle r.name = false → SameRoute v (s.comparing r p none) best b) ∧
    s.incoming l = .ok x ∧ x.permits.eval v ∧ SameRoute v (s.comparing r p (some l)) b x

def InAreaOf (v : Valuation) (best : Record) (l : Lane) : Prop :=
  ∀ area, best.ospfArea = some area → (l.edge.start.ospfArea = .null → area.isDefault.eval v) ∧
    (l.edge.start.ospfArea ≠ .null → ∃ t, area.isDocument l.edge.start.ospfArea = .ok t ∧ t.eval v)

theorem sameRoute_of_isSame (h : c.isSame x y withCommunities = .ok t) (ht : t.eval v) : SameRoute v c x y :=
  (same_of_isSame h ht).sameRoute

theorem same_of_sameRoute (h : SameRoute v c x y) : c.Same v x y := by
  obtain ⟨t, ht, htv⟩ := h
  exact same_of_isSame ht htv

theorem sameArea_of_inAreaOf {s : Slice} {best : Record} (h : InAreaOf v best l) :
    ∃ t, (s.comparing r p (some l)).sameArea best x = .ok t ∧ t.eval v := by
  cases harea : best.ospfArea with
  | none =>
    unfold Comparing.sameArea
    rw [harea]
    exact ⟨.yes, rfl, rfl⟩
  | some area =>
    obtain ⟨hnull, hdocument⟩ := h area harea
    obtain ⟨hdefault, hgiven⟩ := sameArea_arrival (c := s.comparing r p (some l)) (y := x) rfl harea
    by_cases hd : l.edge.start.ospfArea = .null
    · exact ⟨_, hdefault hd, hnull hd⟩
    · rw [hgiven hd]
      exact hdocument hd

end Slice

/-! ## §3. Selection and forwarding -/

namespace Frame

variable {f : Frame} {rs : List Redistribution} {basis : Plan.Basis} {name : Name}

theorem overall_areas (hp : .ospf ∈ f.protocols name) :
    ∃ label label' areas, (f.bestRecord name "OVERALL" .best).ospfArea = Record.areaOf label areas ∧
      (f.bestRecord name Protocol.ospf.label .ospf).ospfArea = Record.areaOf label' areas := by
  have hospf : (f.planFor name).protocolList.contains .ospf :=
    List.contains_iff_mem.2 (f.protocolList_planFor name ▸ hp)
  have hareas : ∀ label p, p = .ospf ∨ p = .best →
      Record.areasFor f (f.recordName name label "none" "BEST") name p = Document.sorted (f.topology.areas name) := by
    intro label p hp
    unfold Record.areasFor Record.wantsArea
    rw [isBest_recordName, hospf]
    rcases hp with rfl | rfl <;> rfl
  refine ⟨f.recordName name "OVERALL" "none" "BEST", f.recordName name Protocol.ospf.label "none" "BEST",
    (Document.sorted (f.topology.areas name)).toOption.getD [], ?_, ?_⟩
  · rw [← hareas "OVERALL" .best (.inr rfl)]
    rfl
  · rw [← hareas Protocol.ospf.label .ospf (.inl rfl)]
    rfl

theorem areas_of_overall (h : (f.bestRecord name "OVERALL" .best).ospfArea ≠ none) :
    .ospf ∈ f.protocols name ∧ 1 < (f.topology.areas name).length := by
  have hareas :
      1 < ((Record.areasFor f (f.recordName name "OVERALL" "none" "BEST") name .best).toOption.getD []).length := by
    by_contra hfew
    exact h (if_neg hfew)
  unfold Record.areasFor at hareas
  split at hareas
  next hwants =>
    unfold Record.wantsArea at hwants
    simp only [Bool.and_eq_true, List.contains_iff_mem] at hwants
    refine ⟨f.protocolList_planFor name ▸ hwants.1.2, ?_⟩
    unfold Document.sorted at hareas
    split at hareas
    · rwa [Except.toOption, Option.getD_some, (perm_sortWith _).length_eq] at hareas
    · exact absurd hareas (by simp [Except.toOption])
  next => exact absurd hareas (by simp [Except.toOption])

theorem isUsed_of_carries (hplan : f.IsDecided basis)
    (h : (f.slice rs).SelectionHolds v) (hr : f.topology.router r.name = .ok r)
    (hcarries : (f.slice rs).Carries v r (f.bestRecord r.name "OVERALL" .best) p l)
    (harea : p ≠ .ospf → Slice.InAreaOf v (f.bestRecord r.name "OVERALL" .best) l) :
    (f.slice rs).IsUsed v r l := by
  obtain ⟨hmem, -⟩ := mem_routers hr
  have hnames := mem_names hr
  obtain ⟨b, x, hb, hbv, hoverall, hx, hxv, hsame⟩ := hcarries.selected
  have hp : p ∈ f.protocols r.name := hcarries.protocol
  have hl := hcarries.lane
  have hprotocol := (mem_lanesOf.1 hl).2.2
  have hchoice : l.choice.eval v := by
    obtain ⟨b', x', hb', hx', hiff⟩ := h.choices r hmem p hp l hl
    cases hb.symm.trans hb'
    cases hx.symm.trans hx'
    exact hiff.2 ⟨hxv, hsame⟩
  refine ⟨hchoice, f.bestRecord r.name "OVERALL" .best, x, slice_overall hnames, hx, ?_⟩
  rw [hprotocol]
  rw [slice_bestOf hnames hp] at hb
  cases hsingle : f.isSingle r.name with
  | true =>
    rw [hsingle] at hb
    cases hb
    exact hsame
  | false =>
    rw [hsingle] at hb
    cases hb
    obtain ⟨label, router, rfl⟩ := slice_imports_planned ⟨hp, hl, hx⟩
    obtain ⟨q, hq, hdecides⟩ := decides_protocol hplan hr hp
    obtain ⟨d, hd, hneeds⟩ := hdecides.multipath
    have hbest := hdecides.ne_best
    have hfirst := Slice.same_of_sameRoute (hoverall hsingle)
    have hsecond := Slice.same_of_sameRoute hsame
    refine (Comparing.Same.trans (bestRecord_covers hbest hp) (planned_covers_same hbest)
      planned_holdsType planned_holdsType planned_holdsType ?_ rfl ?_ ?_ hfirst
      hsecond).sameRoute
    · -- the best record of a protocol has a router id wherever ties are broken
      intro _ hfalse
      have hm : (r.isMultipath p).map Document.truthy = .ok false := hfalse
      rw [hd] at hm
      have hm : d.truthy = false := Except.ok.inj hm
      exact bestRecord_routerId hbest hq (by rw [hneeds, hm]; rfl)
    · -- only BGP records and the overall one tell how a route was learned
      intro htells hlane
      by_cases hbgp : p = .bgp
      · subst hbgp
        intro hnone
        rw [bestRecord, planned_bgpInternal, internalIf_eq_none] at hnone
        refine absurd ?_ htells
        rw [bestRecord, planned_bgpInternal, internalIf_eq_none]
        exact hnone
      · refine absurd ?_ hlane
        rw [planned_bgpInternal, internalIf_eq_none]
        simp [hbgp, hbest]
    · by_cases hospf : p = .ospf
      · subst hospf
        obtain ⟨s, hs, hsv⟩ := hfirst.area
        obtain ⟨t, ht, htv⟩ := hsecond.area
        obtain ⟨label, label', areas, hx, hy⟩ := overall_areas hp
        exact sameArea_trans hx hy rfl hs hsv ht htv
      · exact Slice.sameArea_of_inAreaOf (harea hospf)

theorem exists_carries (h : (f.slice rs).SelectionHolds v) (hr : f.topology.router r.name = .ok r)
    (hpermits : (f.bestRecord r.name "OVERALL" .best).permits.eval v) :
    ∃ p l, (f.slice rs).Carries v r (f.bestRecord r.name "OVERALL" .best) p l := by
  -- the best route of a protocol, and the lane that it came over
  obtain ⟨p, hp, b, hb, hbv, -, hoverall⟩ := overall_isOne h hr hpermits
  obtain ⟨-, x, ⟨l, hl, hx, rfl⟩, hxv, t, ht, htv⟩ := (isBest_bestOf h hr hp hb).isOne hbv
  refine ⟨p, l, hp, hl, b, x, hb, hbv, fun hmany => ?_, hx, hxv, Slice.sameRoute_of_isSame ht htv⟩
  obtain ⟨u, hu, huv⟩ := hoverall hmany
  exact Slice.sameRoute_of_isSame hu huv

theorem permits_of_isUsed (h : (f.slice rs).SelectionHolds v) (hr : f.topology.router r.name = .ok r)
    (hp : p ∈ f.protocols r.name) (hl : l ∈ (f.slice rs).lanesOf r.name p)
    (hused : (f.slice rs).IsUsed v r l) :
    (f.bestRecord r.name "OVERALL" .best).permits.eval v := by
  obtain ⟨b, x, hb, hx, hiff⟩ := h.choices r (mem_routers hr).1 p hp l hl
  obtain ⟨hxv, -⟩ := hiff.1 hused.1
  exact overall_permits h hr hp hb ((isBest_bestOf h hr hp hb).permits.2 ⟨_, x, ⟨l, hl, hx, rfl⟩, hxv⟩)

end Frame

structure Slice.IsForwarded (s : Slice) (v : Valuation) (r : Router) (best : Record) : Prop where
  carried : best.permits.eval v → ∃ p l, s.Carries v r best p l
  forwards : ∀ p l, s.Carries v r best p l → (p ≠ .ospf → Slice.InAreaOf v best l) →
    l.edge ∈ s.topology.edges r.name ∧ (s.controlForwarding l.edge).eval v
  /-- Nothing else is forwarded. -/
  selected : ∀ d ∈ s.topology.edges r.name, (s.controlForwarding d).eval v → best.permits.eval v
  areas : best.ospfArea ≠ none → .ospf ∈ s.protocols r.name ∧ 1 < (s.topology.areas r.name).length

/-- **A selected route is forwarded, unless it came from outside of OSPF and its area is not that of the interface.**
In every stable state of an encoding, the overall best route of a router was selected from a lane, and the control
plane forwards over every such lane whose interface is in the area of the best route.  A router that does not run OSPF
in several areas forwards exactly when it has a best route. -/
theorem Encoding.selected_isForwarded {n : Network} {req : Request} {e : Encoding} {v : Valuation} {name : Name}
    {r : Router} (he : (Encoding.encode n req).result = .ok e) (hv : v.Satisfies e.ledger)
    (hr : e.slice.topology.router name = .ok r) :
    ∃ best, e.slice.overall name = .ok best ∧ e.slice.IsForwarded v r best ∧
      (.ospf ∉ e.slice.protocols name ∨ (e.slice.topology.areas name).length ≤ 1 →
        (best.permits.eval v ↔
          ∃ d ∈ e.slice.topology.edges name, (e.slice.controlForwarding d).eval v)) := by
  obtain ⟨f, rs, hof⟩ := Encoding.encode_isOf he
  obtain ⟨encoded, hplan⟩ := Frame.isDecided hof.plan
  have hstate := hof.sound v hv
  rw [hof.slice] at hr hstate ⊢
  obtain ⟨hmem, rfl⟩ := mem_routers hr
  have hselection := hstate.selection
  have hforwarded : (f.slice rs).IsForwarded v r (f.bestRecord r.name "OVERALL" .best) := by
    refine ⟨exists_carries hselection hr, fun p l hcarries harea => ?_, fun d hd hforwards => ?_,
      areas_of_overall⟩
    · have hused := isUsed_of_carries hplan hselection hr hcarries harea
      obtain ⟨hlane, hrouter, -⟩ := mem_lanesOf.1 hcarries.lane
      have hedge : l.edge ∈ f.topology.edges r.name := hrouter ▸ lane_edge hlane
      exact ⟨hedge, (hselection.control r hmem l.edge hedge).2
        ⟨p, hcarries.protocol, l, hcarries.lane, Edge.beq_iff.2 rfl, hused⟩⟩
    · obtain ⟨p, hp, l, hl, -, hused⟩ := (hselection.control r hmem d hd).1 hforwards
      exact permits_of_isUsed hselection hr hp hl hused
  refine ⟨_, slice_overall (mem_names hr), hforwarded, fun hone => ⟨fun hpermits => ?_, ?_⟩⟩
  · -- without areas every selected lane is forwarded over
    have hnone : (f.bestRecord r.name "OVERALL" .best).ospfArea = none := by
      by_contra hsome
      obtain ⟨hospf, hmany⟩ := hforwarded.areas hsome
      exact hone.elim (fun hnot => hnot hospf) fun hfew => absurd hmany (Nat.not_lt.2 hfew)
    obtain ⟨p, l, hcarries⟩ := hforwarded.carried hpermits
    obtain ⟨hedge, hforwards⟩ := hforwarded.forwards p l hcarries fun _ area harea =>
      absurd (hnone.symm.trans harea) (by simp)
    exact ⟨l.edge, hedge, hforwards⟩
  · rintro ⟨d, hd, hforwards⟩
    exact hforwarded.selected d hd hforwards

namespace Encoding

/-- A router that runs OSPF in two areas. -/
def borderNetwork : Network where
  routers := [{
    name := .text "A"
    interfaces := [.ospfPort "i" (.ofOctets 10 0 0 1 30),
      { Interface.ospfPort "j" (.ofOctets 10 0 1 1 30) with ospfArea := .int 1 }]
    ospf := some {} }]

/-- Packets to the network of the second interface. -/
def borderRequest : Request where
  space := { dstIps := [.ofOctets 10 0 1 0 30] }

/-- A state of `borderNetwork` whose best route, a connected one, is said to be in an area. -/
def borderState (area : Nat) : Valuation where
  bool name :=
    ["A_OVERALL_none_BEST_permitted", "A_CONNECTED_none_BEST_permitted", "A_CONNECTED_j_IMPORT_permitted",
      "A_CONNECTED_j_IMPORT_choice", "A_OSPF_i_EXPORT_permitted", "A_OSPF_j_EXPORT_permitted", "SSA_RETURN1",
      "SSA_RETURN5"].contains (name.drop 11).toString ||
    (area == 1 && ["control-forwarding_A_j", "data-forwarding_A_j"].contains (name.drop 11).toString)
  int name :=
    if name == "SLICE-MAIN_dst-ip" then 167772417
    else if ["A_OSPF_i_EXPORT_metric", "A_OSPF_j_EXPORT_metric"].contains (name.drop 11).toString then 1
    else if ["A_OVERALL_none_BEST_prefixLength", "A_CONNECTED_none_BEST_prefixLength",
      "A_CONNECTED_j_IMPORT_prefixLength", "A_OSPF_i_EXPORT_prefixLength",
      "A_OSPF_j_EXPORT_prefixLength"].contains (name.drop 11).toString then 30
    else 0
  bits name :=
    if ["A_OVERALL_none_BEST_history", "A_CONNECTED_none_BEST_history"].contains (name.drop 11).toString then 1
    else if name == "SLICE-MAIN_A_OVERALL_none_BEST_ospfArea" then area
    else 0

/-- Whether `borderState` is a state of an encoding with a best route, which is forwarded exactly in area 1. -/
def isBorderState (e : Encoding) (area : Nat) : Bool :=
  e.ledger.required.all (fun c => c.eval (borderState area)) &&
    (e.slice.topology.router (.text "A")).toOption.isSome &&
    (match e.slice.overall (.text "A") with
      | .ok best => best.permits.eval (borderState area)
      | .error _ => false) &&
    (e.slice.topology.edges (.text "A")).any (fun d => (e.slice.controlForwarding d).eval (borderState area)) ==
      (area == 1)

theorem border_selected_isForwarded : ∃ e r best, (encode borderNetwork borderRequest).result = .ok e ∧
    e.slice.topology.router (.text "A") = .ok r ∧ e.slice.overall (.text "A") = .ok best ∧
    ∀ area ∈ [0, 1], (borderState area).Satisfies e.ledger ∧ best.permits.eval (borderState area) ∧
      e.slice.IsForwarded (borderState area) r best ∧
      ((∃ d ∈ e.slice.topology.edges (.text "A"), (e.slice.controlForwarding d).eval (borderState area)) ↔
        area = 1) := by
  have hborder : ((encode borderNetwork borderRequest).result.toOption.any fun e =>
      isBorderState e 0 && isBorderState e 1) := by decide +kernel
  cases he : (encode borderNetwork borderRequest).result with
  | error f =>
    rw [he] at hborder
    cases hborder
  | ok e =>
    rw [he] at hborder
    have hborder : ∀ area ∈ [0, 1], isBorderState e area := by
      simpa [Except.toOption] using hborder
    simp only [isBorderState, Bool.and_eq_true, List.all_eq_true, beq_iff_eq] at hborder
    obtain ⟨⟨⟨-, hsome⟩, -⟩, -⟩ := hborder 0 (by simp)
    cases hr : e.slice.topology.router (.text "A") with
    | error f =>
      rw [hr] at hsome
      cases hsome
    | ok r =>
      obtain ⟨best, hbest, -⟩ := selected_isForwarded he (hborder 0 (by simp)).1.1.1 hr
      refine ⟨e, r, best, rfl, hr, hbest, fun area harea => ?_⟩
      obtain ⟨⟨⟨hv, -⟩, hpermits⟩, hany⟩ := hborder area harea
      obtain ⟨best', hbest', hforwarded, -⟩ := selected_isForwarded he hv hr
      cases hbest.symm.trans hbest'
      rw [hbest] at hpermits
      refine ⟨hv, hpermits, hforwarded, ?_⟩
      rw [← List.any_eq_true, hany, beq_iff_eq]

end Encoding

end ControlPlane
