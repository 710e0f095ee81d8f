import ControlPlane.Proofs.Slice.Filters
import ControlPlane.Proofs.Slice.Variables

/-!
# What terms about routes mention

A term about records mentions variables of these records, of the packet and of links.  Terms are followed as they are
written, so that nothing is said here about their values.

* `Frame.record_allOver`: the attributes of a record are variables of the layout.
* `Slice.over_originatedRoute` and its neighbours: routes that a router has by itself.
-/
namespace ControlPlane

open List Term Option Frame Slice

variable {xs ys : List Variable} {l : Lane} {n : Option (Term .int)} {α β : Type} {x : Record} {f : Frame}
  {rs : List Redistribution}

/-! ## §1. Enumerations and records -/

namespace Enumeration.Over

variable {e : Enumeration α} {d : Enumeration β}

theorem isValue [BEq α] (h : e.Over xs) (x : α) : (e.isValue x).Over xs := by
  unfold Enumeration.isValue
  split
  · exact within_boolLit _
  next bits hbits =>
    split
    · exact within_no
    · split
      · exact (h bits hbits).eq (within_bitsLit _ _)
      · exact within_no

theorem isDefault (h : e.Over xs) : e.isDefault.Over xs := by
  unfold Enumeration.isDefault
  split
  · exact within_yes
  next bits hbits => exact (h bits hbits).eq (within_bitsLit _ _)

theorem equal (h : e.Over xs) (h' : d.Over xs) : (e.equal d).Over xs := by
  unfold Enumeration.equal
  split
  next a b ha hb => exact (h a ha).eq (h' b hb)
  · exact within_yes

theorem isInternal (h : e.Over xs) : e.isInternal.Over xs := by
  unfold Enumeration.isInternal
  split
  · exact within_yes
  next bits hbits => exact within_bitsCompare.2 ⟨h bits hbits, within_bitsLit _ _⟩

theorem ospfBits {e : Enumeration OspfType} (h : e.Over xs) : e.ospfBits.Over xs := by
  unfold Enumeration.ospfBits
  cases hbits : e.bits with
  | none => exact OspfType.over_literal .O
  | some bits => exact h bits hbits

theorem isDocument {e : Enumeration Document} (h : e.Over xs) (x : Document) :
    Yields (e.isDocument x) fun t => t.Over xs := by
  unfold Enumeration.isDocument isAmong
  split
  · exact .ok (h.isValue x)
  · exact .error

theorem bounds (h : e.Over xs) : ∀ c ∈ e.bounds, c.Over xs := by
  intro c hc
  obtain ⟨b, hb, hc⟩ := bind_eq_some_iff.1 (mem_toList.1 hc)
  unfold bound? at hc
  split at hc
  · cases hc
  · cases hc
    exact within_bitsCompare.2 ⟨h b hb, within_bitsLit _ _⟩

end Enumeration.Over

namespace Record.AllOver

variable (h : x.AllOver xs)
include h

theorem permits : x.permits.Over xs := by
  unfold Record.permits
  cases hpermitted : x.permitted with
  | none => simp
  | some t => exact h.permitted t hpermitted

theorem mono (hs : xs ⊆ ys) : x.AllOver ys :=
  ⟨fun t ht => (h.permitted t ht).mono hs, fun a t ht => (h.number a t ht).mono hs,
    fun t ht => (h.internal t ht).mono hs, fun e he b hb => (h.area e he b hb).mono hs,
    fun e he b hb => (h.type e he b hb).mono hs, fun e he b hb => (h.history e he b hb).mono hs,
    fun e he => (h.community e he).mono hs⟩

theorem community? {c : Community} {t : Term .bool} (ht : x.community? c = some t) : t.Over xs :=
  h.community (c, t) (mem_of_lookup_eq_some ht)

theorem bounds : ∀ c ∈ x.bounds, c.Over xs := by
  have henumeration : ∀ {α : Type} {e : Option (Enumeration α)}, (∀ d, e = some d → d.Over xs) →
      ∀ c ∈ (e.map Enumeration.bounds).getD [], c.Over xs := by
    intro α e he
    cases e with
    | none => simp
    | some d => exact (he d rfl).bounds
  exact forall_mem_append.2 ⟨henumeration h.history, henumeration h.area⟩

theorem marked (value : Bool) : Term.Over xs (match x.bgpInternal with
    | none => .yes
    | some internal => .eq internal (.boolLit value)) := by
  split
  · exact within_yes
  next internal hinternal => exact (h.internal internal hinternal).eq (within_boolLit _)

theorem ofType (value : OspfType) : Term.Over xs (match x.ospfType with
    | none => .yes
    | some type => type.isValue value) := by
  split
  · exact within_yes
  next type htype => exact (h.type type htype).isValue value

end Record.AllOver

/-! ## §2. Transfers -/

namespace Transfer

variable {t : Transfer} {route : Record} (hsource : t.source.AllOver xs) (htarget : t.target.AllOver xs)
  (hkeeps : t.source.Keeps route) (hroute : route.Over xs)

theorem over_sameInt {x : Option (Term .int)} {value : Term .int} (hx : ∀ y, x = some y → y.Over xs)
    (hvalue : value.Over xs) : (sameInt x value).Over xs := by
  cases x with
  | none => exact within_yes
  | some y => exact (hx y rfl).eq hvalue

include htarget

theorem over_communitiesOf (hroute : route.Over xs) : ∀ x ∈ t.communitiesOf route, x.Over xs := by
  intro x hx
  obtain ⟨e, he, hx⟩ := mem_filterMap.1 hx
  have hother : ((route.community? e.1).getD .no).Over xs := by
    cases hc : route.community? e.1 with
    | none => exact within_no
    | some y => exact hroute.community? hc
  split at hx
  · split at hx
    · cases hx
    · exact Option.some.inj hx ▸ (htarget.community e he).eq hother
  · exact Option.some.inj hx ▸ (htarget.community e he).not

include hsource hkeeps hroute

theorem over_typeOf (r : Result) : Yields (t.typeOf route r) fun x => x.Over xs := by
  have htype : ∀ e, route.ospfType = some e → e.Over xs := by
    intro e he b hb
    have hbits := hroute.ospfBits
    rw [ospfBits, he, map_some, Enumeration.ospfBits, hb] at hbits
    exact hbits
  have hcopied : (sameType t.target.ospfType route.ospfType).Over xs := by
    unfold sameType
    split
    · exact within_yes
    next x hx _ => exact (htarget.type x hx).isDefault
    next x y hx hy => exact (htarget.type x hx).equal (htype y hy)
  unfold typeOf
  split
  · exact .ok hcopied
  · split
    · exact .ok hcopied
    next type area x htyped harea hx _ =>
      have harea : area.Over xs := hsource.area area (hkeeps.area ▸ harea)
      refine .bind (harea.isDocument _) fun here hhere => .pure ?_
      simp [(htype type htyped).isInternal, hhere, (htarget.type x hx).isValue, hcopied]
    · exact .ok hcopied

/-- **What a transfer says about its target** mentions the two routes. -/
theorem over_relate (r : Result) : Yields (t.relate route r) fun x => x.Over xs := by
  have hnumber := fun a => t.over_intOrDefault hroute a
  have hpermission : Yields (samePermission t.target route) fun x => x.Over xs := by
    unfold samePermission
    split
    next a b ha hb => exact .ok ((htarget.permitted a ha).eq (hsource.permitted b (hkeeps.permitted ▸ hb)))
    · exact .error
  have harea : Yields (t.areaOf route) fun x => x.Over xs := by
    unfold areaOf
    split
    · exact .ok within_yes
    next x _ hx _ => exact (htarget.area x hx).isDocument _
    · exact .ok within_yes
  have hhistory : (t.historyOf route).Over xs := by
    unfold historyOf
    split
    next x y hx hy => exact (htarget.history x hx).equal fun b hb => hroute.history y b hy hb
    · exact within_yes
  have hlocal : Term.Over xs (if r.isChanged IntAttribute.localPref.key || t.isInternal then
      t.intOrDefault route .localPref else .intLit defaultLocalPref) := by
    split
    · exact hnumber .localPref
    · exact within_intLit _
  refine .after fun cost => ?_
  have hmetric : (Term.add (t.intOrDefault route .metric) (.intLit cost)).Over xs :=
    (hnumber .metric).add (within_intLit cost)
  have hoverflow : (t.noOverflow (Term.add (t.intOrDefault route .metric) (.intLit cost))).Over xs := by
    unfold noOverflow
    split
    · exact within_yes
    · exact hmetric.compare (within_intLit _)
  refine .bind hpermission fun permission hpermission => ?_
  refine .bind harea fun area harea => ?_
  refine .bind (over_typeOf hsource htarget hkeeps hroute r) fun type htype => .pure ?_
  refine hoverflow.ite (within_allOf.2 (forall_mem_append.2 ⟨?_, over_communitiesOf htarget hroute⟩))
    htarget.permits.not
  simp only [forall_mem_cons]
  exact ⟨hpermission, over_sameInt (htarget.number .prefixLength) (hnumber _),
    over_sameInt (htarget.number .adminDist) (hnumber _), over_sameInt (htarget.number .med) (hnumber _),
    over_sameInt (htarget.number .localPref) hlocal, over_sameInt (htarget.number .metric) hmetric,
    over_sameInt (htarget.number .routerId) (hnumber _), htype, harea, hhistory,
    htarget.marked _, by simp⟩

end Transfer

/-! ## §3. Routes over lanes -/

namespace Slice

theorem over_numberIs (hn : ∀ t, n = some t → t.Over xs) (value : Int) : (numberIs n value).Over xs := by
  cases n with
  | none => exact within_yes
  | some t => exact within_is.2 (hn t rfl)

theorem over_writtenIs (hn : ∀ t, n = some t → t.Over xs) (value : Document) :
    Yields (writtenIs n value) fun t => t.Over xs := by
  cases n with
  | none => exact .ok within_yes
  | some t => exact over_isNumber (hn t rfl) value

theorem over_ownRoute (hx : x.AllOver xs) (length : Int) (distance : Document) :
    Yields (ownRoute x length distance) fun t => t.Over xs := by
  refine .bind (over_writtenIs (hx.number .adminDist) distance) fun t ht => .pure (within_allOf.2 ?_)
  simp only [forall_mem_cons]
  exact ⟨hx.permits, over_numberIs (hx.number .prefixLength) _, ht, over_numberIs (hx.number .localPref) _,
    over_numberIs (hx.number .metric) _, by simp⟩

theorem over_originatedRoute (hx : l.outgoing.AllOver xs) (cost : Document) (subnet : Subnet) :
    Yields (originatedRoute l cost subnet) fun t => t.Over xs := by
  have hnumber := fun a value => over_numberIs (hx.number a) value
  refine .bind (over_writtenIs (hx.number .metric) cost) fun metric hmetric => ?_
  cases ha : l.outgoing.ospfArea
  case' none =>
    refine .bind (Q := Term.Over xs) (.pure within_yes) fun area harea => .pure (within_allOf.2 ?_)
  case' some e => refine .bind ((hx.area e ha).isDocument _) fun area harea => .pure (within_allOf.2 ?_)
  all_goals
    simp only [forall_mem_cons]
    exact ⟨hx.permits, hnumber .localPref _, hnumber .adminDist _, hmetric, hnumber .med _, hnumber .prefixLength _,
      hx.ofType .O, harea, hx.marked false, by simp⟩

end Slice

namespace Frame

theorem lane_edge (hl : l ∈ f.allLanes) : l.edge ∈ f.topology.edges l.router := by
  obtain ⟨d, -, q, -, e, he, rfl⟩ := mem_allLanes.1 hl
  exact (mem_filter.1 he).1

theorem record_allOver (hx : x ∈ f.records) : x.AllOver f.layoutVariables :=
  (isPlanned_of_mem hx).1.allOver (isPlanned_of_mem hx).2

theorem outgoing_allOver (hl : l ∈ f.allLanes) : l.outgoing.AllOver f.layoutVariables :=
  record_allOver (mem_outgoing hl)

theorem incoming_allOver (hl : l ∈ f.allLanes) : l.incoming.AllOver f.layoutVariables := by
  cases hused : l.incoming.used with
  | true => exact record_allOver (mem_incoming hl hused)
  | false =>
    -- an unused record has no attributes
    obtain ⟨d, -, q, -, e, -, rfl⟩ := mem_allLanes.1 hl
    show (f.importRecord d.router q e).AllOver f.layoutVariables
    rw [(importRecord_of_unused hused).2]
    exact ⟨nofun, fun a => by cases a <;> exact nofun, nofun, nofun, nofun, nofun, nofun⟩

theorem layout_notFailed (hl : l ∈ f.allLanes) : (f.notFailed l.edge).Over f.layoutVariables :=
  (over_notFailed (lane_edge hl)).mono common_sub_layout

theorem layout_holdsOf (subnet : Subnet) : (subnet.holdsOf f.packet.dstIp).Over f.layoutVariables :=
  subnet.over_holdsOf ((over_field .dstIp).mono common_sub_layout)

theorem layout_usableSubnet (hl : l ∈ f.allLanes) (p : Protocol) (subnet : Subnet) :
    ((f.slice rs).usableSubnet p l.edge subnet).Over f.layoutVariables := by
  refine within_and.2 ?_
  simp only [forall_mem_cons]
  exact ⟨within_boolLit _, layout_holdsOf subnet, layout_notFailed hl, by simp⟩

theorem over_source {t : Transfer} (hframe : t.frame = f) (hs : t.source ∈ f.records) (hl : f.layoutVariables ⊆ xs) :
    t.DestinationOver xs ∧ t.source.Over xs := by
  obtain ⟨hplanned, hdeclared⟩ := isPlanned_of_mem hs
  refine ⟨?_, hplanned.isOver fun _ hz => hl (hdeclared hz)⟩
  unfold Transfer.DestinationOver
  rw [hframe]
  exact (over_field .dstIp).mono fun _ hz => hl (common_sub_layout hz)

theorem over_connectedConstraint (hl : l ∈ f.allLanes) :
    Yields ((f.slice rs).connectedConstraint l) fun t => t.Over f.layoutVariables := by
  have hincoming := incoming_allOver hl
  unfold Slice.connectedConstraint
  split
  · exact .pure hincoming.permits.not
  · exact .bind (over_ownRoute hincoming _ _) fun t ht =>
      .pure ((layout_usableSubnet hl _ _).ite ht hincoming.permits.not)

theorem over_staticConstraint (hl : l ∈ f.allLanes) :
    Yields ((f.slice rs).staticConstraint l) fun t => t.Over f.layoutVariables := by
  refine .foldlM (fun route _ acc hacc => ?_) (incoming_allOver hl).permits.not
  exact .bind (over_ownRoute (incoming_allOver hl) _ _) fun t ht => .pure ((layout_usableSubnet hl _ _).ite ht hacc)

end Frame

end ControlPlane
