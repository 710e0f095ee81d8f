import ControlPlane.Proofs.Slice.State

/-!
# Constraints are about declared variables

A variable that a constraint mentions was declared before: the variables of records, of the packet and of links by the
layout, and those that hold intermediate routes by the transfer that defines them.
-/
namespace ControlPlane

open List Term Option Frame Slice Comparing

variable {xs : List Variable} {α : Type} {x best : Record} {f : Frame} {rs : List Redistribution}

/-! ## §1. Comparisons -/

namespace Comparing

variable {c : Comparing} {other : Record}

section

variable {b o : Option (Term .int)} (hb : ∀ t, b = some t → t.Over xs) (ho : ∀ t, o = some t → t.Over xs)
  (default : Int)
include hb ho default

theorem over_sameNumber : (sameNumber b o default).Over xs := by
  cases b with
  | none => exact within_yes
  | some b => cases o <;> simp_all [sameNumber]

theorem over_numberStep (lower : Bool) :
    (numberStep b o default lower).better.Over xs ∧ (numberStep b o default lower).equal.Over xs := by
  cases b with
  | none => simp [numberStep]
  | some b => cases o <;> cases lower <;> simp_all [numberStep]

end

variable (hbest : best.AllOver xs) (hother : other.AllOver xs)
include hbest hother

theorem over_compareIds {relate : Term .int → Term .int → Term .bool}
    (hrelate : ∀ a b, a.Over xs → b.Over xs → (relate a b).Over xs) :
    Yields (c.compareIds best other relate) fun t => t.Over xs := by
  unfold compareIds
  split
  · exact .ok within_yes
  next b hb =>
    have hb : b.Over xs := hbest.number .routerId b hb
    refine .after fun multipath => ?_
    split
    · exact .pure within_yes
    · split
      next o ho => exact .pure (hrelate b o hb (hother.number .routerId o ho))
      · split
        · exact .pure within_yes
        · refine .after fun id => ?_
          split
          · exact .after fun n => .pure (hrelate b _ hb (within_intLit n))
          · exact .pure within_yes

theorem over_sameArea : Yields (c.sameArea best other) fun t => t.Over xs := by
  unfold sameArea
  split
  · exact .ok within_yes
  next b hb =>
    have hb : b.Over xs := hbest.area b hb
    split
    · split
      · exact .ok hb.isDefault
      · exact hb.isDocument _
    · split
      · exact .ok within_yes
      next o ho => exact .ok (hb.equal (hother.area o ho))

theorem over_isSame (withCommunities : Bool) : Yields (c.isSame best other withCommunities) fun t => t.Over xs := by
  have hnumber : ∀ a default, (sameNumber (best.int? a) (other.int? a) default).Over xs :=
    fun a default => over_sameNumber (hbest.number a) (hother.number a) default
  have htype : (sameType best other).Over xs := by
    unfold sameType
    split
    · exact within_yes
    next b hb _ => exact (hbest.type b hb).isDefault
    next b o hb ho => exact (hbest.type b hb).equal (hother.type o ho)
  have hhistory : (sameHistory best other).Over xs := by
    unfold sameHistory
    split
    next b o hb ho => exact (hbest.history b hb).equal (hother.history o ho)
    · exact within_yes
  have hinternal : (sameInternal best other).Over xs := by
    unfold sameInternal
    split
    next b o hb ho => exact (hbest.internal b hb).eq (hother.internal o ho)
    · exact within_yes
  have hcommunities : (sameCommunities best other).Over xs := by
    refine within_allOf.2 fun t ht => ?_
    obtain ⟨e, he, ht⟩ := mem_filterMap.1 ht
    obtain ⟨o, ho, rfl⟩ := map_eq_some_iff.1 ht
    exact (hbest.community e he).eq (hother.community? ho)
  refine .bind (over_sameArea hbest hother) fun area harea => ?_
  refine .bind (over_compareIds hbest hother fun a b ha hb => ha.eq hb) fun id hid => .pure (within_allOf.2 ?_)
  refine forall_mem_append.2 ⟨?_, fun t ht => ?_⟩
  · simp only [forall_mem_cons]
    exact ⟨hnumber .prefixLength _, hnumber .adminDist _, hnumber .localPref _, hnumber .metric _,
      hnumber .med _, htype,
      harea, hid, hhistory, hinternal, by simp⟩
  · split at ht
    · exact mem_singleton.1 ht ▸ hcommunities
    · cases ht

theorem over_isAtLeast : Yields (c.isAtLeast best other) fun t => t.Over xs := by
  have hnumber : ∀ a default lower, (numberStep (best.int? a) (other.int? a) default lower).better.Over xs ∧
      (numberStep (best.int? a) (other.int? a) default lower).equal.Over xs :=
    fun a default lower => over_numberStep (hbest.number a) (hother.number a) default lower
  have htype : (typeStep best other).better.Over xs ∧ (typeStep best other).equal.Over xs := by
    unfold typeStep
    split
    · simp
    next b hb =>
      have hothers : ((other.ospfType.map Enumeration.ospfBits).getD (OspfType.literal .O)).Over xs := by
        cases ho : other.ospfType with
        | none => exact OspfType.over_literal .O
        | some o => exact (hother.type o ho).ospfBits
      simp [(hbest.type b hb).ospfBits, hothers]
  have hinternal : (internalStep best other).better.Over xs ∧ (internalStep best other).equal.Over xs := by
    unfold internalStep
    split
    next b o hb ho => simp [hbest.internal b hb, hother.internal o ho]
    · simp
  have hsteps : ∀ step ∈ c.steps best other, step.better.Over xs ∧ step.equal.Over xs := by
    unfold steps
    simp only [forall_mem_cons]
    exact ⟨hnumber .prefixLength _ _, hnumber .adminDist _ _, hnumber .localPref _ _, hnumber .metric _ _,
      hnumber .med _ _, htype, hinternal, by simp⟩
  -- the last criterion decides where all others are equal
  refine .bind (over_compareIds hbest hother fun a b ha hb => by simp [ha, hb]) fun last hlast => .pure ?_
  generalize c.steps best other = steps at hsteps
  induction steps with
  | nil => exact hlast
  | cons step rest ih =>
    rw [forall_mem_cons] at hsteps
    have hrest := ih hsteps.2
    simp [hsteps.1, hrest]

end Comparing

/-! ## §2. Records and selection -/

namespace Frame

theorem overall_mem (router : Name) : Yields ((f.slice rs).overall router) (· ∈ f.records) := by
  unfold Slice.overall
  split
  next b hb =>
    obtain ⟨name, hname, rfl⟩ := mem_map.1 (mem_of_find?_eq_some hb)
    exact .ok (mem_overall hname)
  · exact .error

theorem bestOf_mem (router : Name) (p : Protocol) : Yields ((f.slice rs).bestOf router p) (· ∈ f.records) := by
  unfold Slice.bestOf
  split
  · exact .error
  next b hb =>
    obtain ⟨name, hname, rfl⟩ := mem_map.1 (mem_of_find?_eq_some hb)
    split
    · exact .ok (mem_overall hname)
    · split
      next x hx =>
        have hmem : x ∈ (f.bestRecords name).records :=
          mem_cons_of_mem _ (mem_map.2 ⟨(p, x), mem_of_lookup_eq_some hx, rfl⟩)
        exact .ok (mem_append_left _ (mem_append_left _ (mem_flatMap.2 ⟨name, hname, hmem⟩)))
      · exact .error

end Frame

namespace Slice

theorem over_recordBounds (hx : x.AllOver xs) : ∀ c ∈ recordBounds x, c.Over xs := by
  have hoption : ∀ a (g : Term .int → Term .bool), (∀ t, t.Over xs → (g t).Over xs) →
      ∀ c ∈ ((x.int? a).map g).toList, c.Over xs := by
    intro a g hg c hc
    obtain ⟨t, ht, rfl⟩ := map_eq_some_iff.1 (mem_toList.1 hc)
    exact hg t (hx.number a t ht)
  unfold recordBounds
  simp only [forall_mem_append]
  refine ⟨⟨⟨⟨?_, ?_⟩, ?_⟩, fun c hc => ?_⟩, ?_⟩
  · exact hoption .adminDist _ fun t ht => by simp [below, ht]
  · exact hoption .med _ fun t ht => by simp [below, ht]
  · exact hoption .localPref _ fun t ht => by simp [below, ht]
  · split at hc
    · cases hc
    next t ht =>
      have ht : t.Over xs := hx.number .metric t ht
      simp only [mem_append, mem_singleton] at hc
      obtain (rfl | hc) | rfl := hc
      · simp [ht]
      · split at hc
        · exact mem_singleton.1 hc ▸ within_lt.2 ⟨ht, within_intLit _⟩
        · cases hc
      · simp [ht]
  · exact hoption .prefixLength _ fun t ht => by simp [ht]

theorem over_resetConstraints (hx : x.AllOver xs) : ∀ c ∈ resetConstraints x, c.Over xs := by
  have hnone : (Term.not x.permits).Over xs := hx.permits.not
  have hdefault : ∀ {α : Type} (e : Option (Enumeration α)), (∀ d, e = some d → d.Over xs) →
      ∀ c ∈ (e.map fun d => Term.implies (.not x.permits) d.isDefault).toList, c.Over xs := by
    intro α e he c hc
    obtain ⟨d, hd, rfl⟩ := map_eq_some_iff.1 (mem_toList.1 hc)
    exact within_implies.2 ⟨hnone, (he d hd).isDefault⟩
  unfold resetConstraints
  simp only [forall_mem_append]
  refine ⟨⟨⟨⟨⟨fun c hc => ?_, hdefault _ hx.area⟩, hdefault _ hx.type⟩, hdefault _ hx.history⟩, fun c hc => ?_⟩,
    fun c hc => ?_⟩
  · obtain ⟨n, hn, rfl⟩ := mem_map.1 hc
    obtain ⟨a, -, hn⟩ := mem_filterMap.1 hn
    obtain ⟨t, ht, rfl⟩ := map_eq_some_iff.1 hn
    exact within_implies.2 ⟨hnone, within_is.2 (hx.number a t ht)⟩
  · obtain ⟨t, ht, rfl⟩ := map_eq_some_iff.1 (mem_toList.1 hc)
    exact within_implies.2 ⟨hnone, (hx.internal t ht).not⟩
  · obtain ⟨e, he, rfl⟩ := mem_map.1 hc
    exact within_implies.2 ⟨hnone, (hx.community e he).not⟩

structure Candidate.Over (xs : List Variable) (c : Candidate) : Prop where
  permits : c.permits.Over xs
  isBeaten : c.isBeaten.Over xs
  isBest : c.isBest.Over xs

theorem over_candidate {c : Comparing} (hbest : best.AllOver xs) (hx : x.AllOver xs) :
    Yields (candidate c best x) fun d => d.Over xs :=
  .bind (over_isAtLeast hbest hx) fun _ hbeaten =>
    .bind (over_isSame hbest hx true) fun _ hsame => .pure ⟨hx.permits, hbeaten, hsame⟩

theorem over_bestAmong (hbest : best.AllOver xs) {cs : List Candidate} (hcs : ∀ c ∈ cs, c.Over xs) :
    ∀ t ∈ bestAmong best cs, t.Over xs := by
  have hpermitted : (Term.anyOf (cs.map Candidate.permits)).Over xs := by
    refine within_anyOf.2 fun t ht => ?_
    obtain ⟨c, hc, rfl⟩ := mem_map.1 ht
    exact (hcs c hc).permits
  have hsome : (Term.anyOf (cs.map fun c => Term.and [c.permits, c.isBest])).Over xs := by
    refine within_anyOf.2 fun t ht => ?_
    obtain ⟨c, hc, rfl⟩ := mem_map.1 ht
    simp [(hcs c hc).permits, (hcs c hc).isBest]
  unfold bestAmong
  split
  · simp [hbest.permits]
  · refine forall_mem_append.2 ⟨fun t ht => ?_, by simp [hbest.permits, hpermitted, hsome]⟩
    obtain ⟨c, hc, rfl⟩ := mem_map.1 ht
    exact within_implies.2 ⟨(hcs c hc).permits, (hcs c hc).isBeaten⟩

/-- What every router and protocol adds, in order. -/
theorem forall_mem_flatten {Q : α → Prop} {xss : List (List α)} (h : ∀ xs ∈ xss, ∀ x ∈ xs, Q x) :
    ∀ x ∈ xss.flatten, Q x := by
  intro x hx
  obtain ⟨xs, hxs, hx⟩ := mem_flatten.1 hx
  exact h xs hxs x hx

end Slice

namespace Frame

theorem over_communities : ∀ c ∈ (f.slice rs).communityConstraints, c.Over f.layoutVariables := by
  intro c hc
  obtain ⟨x, hx, hc⟩ := mem_flatMap.1 hc
  obtain ⟨e, he, rfl⟩ := mem_map.1 hc
  have hall : x.AllOver f.layoutVariables := record_allOver hx
  refine (hall.community e (mem_of_mem_filter he)).eq (within_anyOf.2 fun t ht => ?_)
  obtain ⟨d, -, ht⟩ := mem_filterMap.1 ht
  exact hall.community? ht

theorem over_cameFrom (hx : x ∈ f.records) (p : Protocol) : Term.Over f.layoutVariables (match x.history with
      | some e => Term.implies x.permits (e.isValue p)
      | none => Term.implies x.permits .yes) := by
  have hall := record_allOver hx
  split
  next e he => exact within_implies.2 ⟨hall.permits, (hall.history e he).isValue p⟩
  · exact within_implies.2 ⟨hall.permits, within_yes⟩

theorem over_history : ∀ c ∈ (f.slice rs).historyConstraints, c.Over f.layoutVariables := by
  intro c hc
  obtain ⟨b, hb, hc⟩ := mem_flatMap.1 hc
  obtain ⟨name, hname, rfl⟩ := mem_map.1 hb
  split at hc
  · obtain ⟨p, -, rfl⟩ := map_eq_some_iff.1 (mem_toList.1 hc)
    exact over_cameFrom (mem_overall hname) p
  · obtain ⟨e, he, rfl⟩ := mem_map.1 hc
    refine over_cameFrom (mem_append_left _ (mem_append_left _ (mem_flatMap.2 ⟨name, hname, ?_⟩))) e.1
    exact mem_cons_of_mem _ (mem_map_of_mem he)

theorem over_bestPerProtocol :
    Yields (f.slice rs).bestPerProtocolConstraints fun cs => ∀ c ∈ cs, c.Over f.layoutVariables := by
  refine .bind (.mapM fun r _ => .mapM fun p _ => ?_) fun css hcss =>
    .pure (forall_mem_flatten (forall_mem_flatten hcss))
  refine .bind (bestOf_mem r.name p) fun best hbest => ?_
  refine .bind (.mapM fun l hl => ?_) fun cs hcs => .pure (over_bestAmong (record_allOver hbest) hcs)
  refine .bind (fun x hx => incoming_mem (mem_of_mem_filter hl) hx) fun x hx => ?_
  exact over_candidate (record_allOver hbest) (record_allOver hx)

theorem over_choices :
    Yields (f.slice rs).choiceConstraints fun cs => ∀ c ∈ cs, c.Over f.layoutVariables := by
  refine .bind (.mapM fun r _ => .mapM fun p _ => ?_) fun css hcss =>
    .pure (forall_mem_flatten (forall_mem_flatten hcss))
  refine .bind (bestOf_mem r.name p) fun best hbest => .mapM fun l hl => ?_
  have hl : l ∈ f.allLanes := mem_of_mem_filter hl
  refine .bind (fun x hx => incoming_mem hl hx) fun x hx => ?_
  refine .bind (over_isSame (record_allOver hbest) (record_allOver hx) false) fun t ht => .pure ?_
  simp [(over_choice hl).mono common_sub_layout, (record_allOver hx).permits, ht]

theorem over_bestOverall :
    Yields (f.slice rs).bestOverallConstraints fun cs => ∀ c ∈ cs, c.Over f.layoutVariables := by
  refine .bind (.mapM fun r _ => ?_) fun css hcss => .pure (forall_mem_flatten hcss)
  split
  · exact .pure (by simp)
  · refine .bind (overall_mem r.name) fun best hbest => ?_
    refine .bind (.mapM fun p _ => ?_) fun cs hcs => .pure (over_bestAmong (record_allOver hbest) hcs)
    exact .bind (bestOf_mem r.name p) fun x hx => over_candidate (record_allOver hbest) (record_allOver hx)

theorem layout_controlForwarding {e : Edge} {router : Name} (he : e ∈ f.topology.edges router) :
    (f.controlForwarding e).Over f.layoutVariables := by
  obtain ⟨site, hsite, -, hmem⟩ := Topology.site_of_edge he
  exact (over_controlForwarding hsite hmem).mono common_sub_layout

theorem over_control :
    Yields (f.slice rs).controlConstraints fun cs => ∀ c ∈ cs, c.Over f.layoutVariables := by
  refine .bind (.mapM fun r _ => ?_) fun css hcss => .pure (forall_mem_flatten hcss)
  refine .bind (overall_mem r.name) fun best hbest => ?_
  refine .bind (.mapM fun p _ => .mapM (R := fun u : Edge × Term .bool =>
    (f.controlForwarding u.1).Over f.layoutVariables ∧ u.2.Over f.layoutVariables) fun l hl => ?_) fun used hused => ?_
  · have hl : l ∈ f.allLanes := mem_of_mem_filter hl
    refine .bind ?_ fun t ht => .pure ⟨layout_controlForwarding (lane_edge hl), ht⟩
    refine .bind (fun x hx => incoming_mem hl hx) fun x hx => ?_
    refine .bind (over_isSame (record_allOver hbest) (record_allOver hx) false) fun t ht => .pure ?_
    simp [(over_choice hl).mono common_sub_layout, ht]
  · have hused := forall_mem_flatten hused
    refine .pure (forall_mem_append.2 ⟨fun c hc => ?_, fun c hc => ?_⟩)
    · obtain ⟨u, hu, rfl⟩ := mem_map.1 hc
      exact within_implies.2 ⟨(hused u hu).2, (hused u hu).1⟩
    · obtain ⟨e, he, rfl⟩ := mem_map.1 hc
      have hcontrol : (Term.not (f.controlForwarding e)).Over f.layoutVariables := (layout_controlForwarding he).not
      split
      · exact hcontrol
      next here hhere =>
        refine within_implies.2 ⟨(within_anyOf.2 fun t ht => ?_).not, hcontrol⟩
        obtain ⟨u, hu, rfl⟩ := mem_map.1 ht
        exact (hused u (mem_of_mem_filter hu)).2

theorem over_data : ∀ c ∈ (f.slice rs).dataConstraints, c.Over f.layoutVariables := by
  intro c hc
  obtain ⟨site, hsite, hc⟩ := mem_flatMap.1 hc
  obtain ⟨e, he, rfl⟩ := mem_map.1 hc
  refine ((over_dataForwarding hsite he).mono common_sub_layout).eq (within_allOf.2 ?_)
  simp only [forall_mem_cons]
  exact ⟨(over_controlForwarding hsite he).mono common_sub_layout,
    (over_permits hsite he .outgoing).mono common_sub_layout, by simp⟩

/-- **The constraints on stable states** mention the variables of the layout. -/
theorem over_stable :
    Yields (f.slice rs).stableConstraints fun cs => ∀ c ∈ cs, c.Over f.layoutVariables := by
  refine .bind over_bestPerProtocol fun perProtocol hper => ?_
  refine .bind over_choices fun choices hchoices => ?_
  refine .bind over_bestOverall fun overall hoverall => ?_
  refine .bind over_control fun control hcontrol => ?_
  refine .bind (HeaderSpace.over_constraints over_packet f.space) fun space hspace => .pure ?_
  simp only [forall_mem_append]
  refine ⟨over_history, hper, hchoices, hoverall, hcontrol, over_data, fun c hc => ?_, fun c hc => ?_,
    fun c hc => (hspace c hc).mono common_sub_layout⟩
  · obtain ⟨x, hx, hc⟩ := mem_flatMap.1 hc
    exact over_resetConstraints (record_allOver hx) c hc
  · obtain ⟨l, hl, rfl⟩ := mem_map.1 hc
    exact (incoming_allOver (mem_of_mem_filter hl)).permits.not

theorem over_bounds : ∀ c ∈ f.bounds, c.Over f.layoutVariables := by
  have hrecords : ∀ {ys : List Record}, ys ⊆ f.records → ∀ c ∈ ys.flatMap Record.bounds, c.Over f.layoutVariables := by
    intro ys hys c hc
    obtain ⟨x, hx, hc⟩ := mem_flatMap.1 hc
    exact (record_allOver (hys hx)).bounds c hc
  unfold bounds
  simp only [forall_mem_append]
  refine ⟨hrecords fun x hx => ?_, hrecords fun x hx => ?_, hrecords fun x hx => ?_, fun c hc => ?_⟩
  · exact mem_append_left _ (mem_append_left _ hx)
  · exact mem_append_left _ (mem_append_right _ hx)
  · exact mem_append_right _ hx
  · exact (over_access c hc).mono common_sub_layout

end Frame

/-! ## §3. Encodings -/

def Ledger.IsClosed (l : Ledger) : Prop := ∀ c ∈ l.required, c.Over l.vars

/-- **Every constraint of an encoding** mentions variables of the encoding. -/
theorem Encoding.ofTopology_isClosed {t : Topology} {r : Request} {e : Encoding} (h : ofTopology t r = .ok e) :
    e.ledger.IsClosed := by
  obtain ⟨tag, f, failures, rs, l₁, l₂, cs, -, hbuild, hfailures, -, hslice, hvars, hrequired, htransfers,
    hstable, hledger⟩ := ofTopology_ok h
  obtain ⟨-, hcommunities, -, rfl, rfl, -⟩ := build_ok hbuild
  rw [hslice] at hrequired htransfers hstable
  have hlayout : f.layoutVariables ⊆ l₁.vars := fun x hx => hvars ▸ hx
  have hscenario : f.scenarioVariables ⊆ f.layoutVariables := fun _ hz =>
    common_sub_layout (scenario_sub_common hz)
  have hdemand := (demands_transfers (Community.nodup_ofRouters hcommunities)).run l₁ () l₂ hlayout htransfers
  -- what was there before the transfers, what they add, and what comes after them
  have hbefore : ∀ c ∈ l₁.required, c.Over f.layoutVariables := by
    rw [hrequired]
    simp only [forall_mem_append]
    refine ⟨⟨fun c hc => ?_, fun c hc => (scenario_failures hfailures c hc).mono hscenario⟩, over_bounds,
      forall_mem_append.2 ⟨fun c hc => ?_, fun c hc => ?_⟩, over_communities⟩
    · obtain ⟨d, hd, rfl⟩ := mem_map.1 hc
      have hmem : (⟨Frame.failureName f.tag d, .int⟩ : Variable) ∈ f.layoutVariables :=
        mem_append_left _ (mem_map_of_mem (f := fun d => (⟨Frame.failureName f.tag d, .int⟩ : Variable)) hd)
      simp [hmem]
    · obtain ⟨limit, -, rfl⟩ := mem_map.1 hc
      have hfield : (f.packet.field limit.1).Over f.layoutVariables := (scenario_field limit.1).mono hscenario
      simp [Slice.below, Frame.slice, hfield]
    · obtain ⟨x, hx, hc⟩ := mem_flatMap.1 hc
      exact over_recordBounds (record_allOver hx) c hc
  have hlayout₂ : f.layoutVariables ⊆ l₂.vars := fun _ hz => hdemand.grows.vars.subset (hlayout hz)
  intro c hc
  rw [hledger.vars, append_nil]
  rw [hledger.required, Ledger.required_since hdemand.grows, mem_append, mem_append] at hc
  obtain (hc | hc) | hc := hc
  · exact (hbefore c hc).mono hlayout₂
  · exact hdemand.about c hc
  · exact (over_stable cs hstable c hc).mono hlayout₂

end ControlPlane
