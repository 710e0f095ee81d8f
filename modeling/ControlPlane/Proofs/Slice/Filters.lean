import ControlPlane.Proofs.Transfer.Matching
import ControlPlane.Slice.Access

/-!
# Filters look at the packet

Access lists and header spaces are terms over the variables of the packet.  A packet of a header space is
bound for one of the listed destinations, if any are listed.
-/
namespace ControlPlane

open List Term Bool

variable {xs : List Variable} {p : Packet}

/-! ## §1. Variables of filters -/

structure Packet.Over (p : Packet) (xs : List Variable) : Prop where
  field : ∀ a, (p.field a).Over xs
  flag : ∀ a, (p.flag a).Over xs

section Numbers

variable {x : Term .int} (hx : x.Over xs)
include hx

theorem Term.over_isNumber (d : Document) : Yields (x.isNumber d) fun t => t.Over xs := by
  unfold Term.isNumber
  split
  · exact .ok within_no
  · exact .after fun _ => .pure (by simpa)

theorem Range.over_boundsOf (r : Range) : Yields (r.boundsOf x) fun t => t.Over xs :=
  .after fun _ => .after fun _ => .pure (by simp [hx])

theorem Range.over_holdsOf (r : Range) : Yields (r.holdsOf x) fun t => t.Over xs := by
  unfold Range.holdsOf
  split
  · exact over_isNumber hx r.start
  · exact r.over_boundsOf hx

end Numbers

theorem AccessLine.over_whenListed {α : Type} {items : List α} {condition : List α → Except Failure (Term .bool)}
    (h : ∀ items, Yields (condition items) fun t => t.Over xs) :
    Yields (whenListed items condition) fun ts => ∀ t ∈ ts, t.Over xs := by
  unfold whenListed
  split
  · exact .pure (by simp)
  · exact .bind (h items) fun t ht => .pure (by simpa)

theorem Yields.flatten {conditions : List (Except Failure (List (Term .bool)))}
    (h : ∀ c ∈ conditions, Yields c fun ts => ∀ t ∈ ts, t.Over xs) :
    Yields (do return (← conditions.mapM id).flatten : Except Failure (List (Term .bool))) fun ts =>
      ∀ t ∈ ts, t.Over xs := by
  refine .bind (.mapM h) fun tss htss => .pure fun t ht => ?_
  obtain ⟨ts, hts, ht⟩ := mem_flatten.1 ht
  exact htss ts hts t ht

section Packet

variable (hp : p.Over xs)
include hp

theorem Packet.over_matchesFlags (items : List FlagMatch) : (p.matchesFlags items).Over xs := by
  refine within_anyOf.2 fun t ht => ?_
  obtain ⟨m, -, rfl⟩ := mem_map.1 ht
  refine within_allOf.2 fun t ht => ?_
  obtain ⟨u, -, rfl⟩ := mem_map.1 ht
  exact (hp.flag u.1).eq (within_boolLit _)

theorem AccessLine.over_inProtocols (items : List Document) : Yields (inProtocols p items) fun t => t.Over xs :=
  .bind (.mapM fun d _ => over_isNumber (hp.field .ipProtocol) d) fun ts hts => .pure (by simpa)

theorem AccessLine.over_conditions (l : AccessLine) : Yields (l.conditions p) fun ts => ∀ t ∈ ts, t.Over xs := by
  have hsubnets : ∀ a (items : List Subnet), Yields
      (do return Term.anyOf (items.map fun s => s.holdsOf (p.field a))) fun t => t.Over xs :=
    fun a items => .pure (by simp [Subnet.over_holdsOf _ (hp.field a)])
  have hranges : ∀ a (items : List Range), Yields
      (do return Term.anyKept (← items.mapM fun r => r.holdsOf (p.field a))) fun t => t.Over xs :=
    fun a items => .bind (.mapM fun r _ => r.over_holdsOf (hp.field a)) fun ts hts => .pure (by simpa)
  refine .flatten ?_
  simp only [forall_mem_cons]
  exact ⟨over_whenListed (hsubnets _), over_whenListed (hsubnets _), over_whenListed (hranges _),
    over_whenListed (hranges _), over_whenListed fun items => .ok (Packet.over_matchesFlags hp items),
    over_whenListed (hranges _), over_whenListed (hranges _), over_whenListed (over_inProtocols hp), by simp⟩

theorem AccessList.over_permits (l : AccessList) : Yields (l.permits p) fun t => t.Over xs := by
  refine .foldrM (fun line _ acc hacc => ?_) within_no
  unfold addLine
  split
  · exact .throw
  · refine .bind (line.over_conditions hp) fun conditions hconditions => ?_
    split
    · exact .pure hacc
    · have hholds : (Term.allOf conditions).Over xs := within_allOf.2 hconditions
      refine .pure (Term.Within.ite ?_ (within_boolLit _) hacc)
      split
      · exact hholds.not
      · exact hholds

namespace HeaderSpace

theorem over_inSubnets (fields : List PacketField) (items : List Subnet) :
    Yields (inSubnets p fields items) fun t => t.Over xs := by
  refine .ok (within_anyOf.2 fun t ht => ?_)
  obtain ⟨a, -, ht⟩ := mem_flatMap.1 ht
  obtain ⟨s, -, rfl⟩ := mem_map.1 ht
  exact s.over_holdsOf (hp.field a)

theorem over_inRanges (fields : List PacketField) (items : List Range) :
    Yields (inRanges p fields items) fun t => t.Over xs := by
  refine .bind (Q := fun ts => ∀ t ∈ ts, t.Over xs) ?_ fun ts hts => .pure (by simpa)
  induction fields with
  | nil => exact .pure (by simp)
  | cons a rest ih =>
    rw [flatMapM_cons]
    exact .bind (.mapM fun r _ => r.over_boundsOf (hp.field a)) fun ts hts => .bind ih fun us hus =>
      .pure (forall_mem_append.2 ⟨hts, hus⟩)

omit hp in
theorem over_outside {α : Type} {condition : List α → Except Failure (Term .bool)}
    (h : ∀ items, Yields (condition items) fun t => t.Over xs) (items : List α) :
    Yields (outside condition items) fun t => t.Over xs :=
  .bind (h items) fun _ ht => .pure ht.not

theorem over_constraints (h : HeaderSpace) : Yields (h.constraints p) fun cs => ∀ c ∈ cs, c.Over xs := by
  have hlisted : ∀ {α : Type} {items : List α} {condition : List α → Except Failure (Term .bool)},
      (∀ items, Yields (condition items) fun t => t.Over xs) →
        Yields (AccessLine.whenListed items condition) fun ts => ∀ t ∈ ts, t.Over xs := AccessLine.over_whenListed
  have hsubnets := over_inSubnets hp
  have hranges := over_inRanges hp
  have hprotocols := AccessLine.over_inProtocols hp
  unfold constraints
  split
  · exact .throw
  · refine .flatten ?_
    simp only [forall_mem_cons]
    exact ⟨hlisted (hsubnets _), hlisted (over_outside (hsubnets _)), hlisted (hsubnets _),
      hlisted (over_outside (hsubnets _)), hlisted (hsubnets _), hlisted (hranges _),
      hlisted (over_outside (hranges _)),
      hlisted (hranges _), hlisted (over_outside (hranges _)), hlisted (hranges _), hlisted (hranges _),
      hlisted (over_outside (hranges _)), hlisted (hranges _), hlisted (over_outside (hranges _)), hlisted hprotocols,
      hlisted (over_outside hprotocols), hlisted fun items => .ok (Packet.over_matchesFlags hp items), by simp⟩

end HeaderSpace

end Packet

/-! ## §2. Destinations -/

namespace Subnet

theorem contains_of_length_zero {s : Subnet} (h : s.length = 0) {n : Nat} (hn : n < addressSpace) :
    s.contains n := by
  have haligned := s.aligned
  rw [h, show blockSize 0 = addressSpace from rfl, Nat.mod_eq_of_lt s.base_lt] at haligned
  simp only [contains, first, last, h, haligned, and_eq_true, decide_eq_true_eq]
  rw [show blockSize 0 = addressSpace from rfl]
  omega

theorem overlaps_of_inSubnet {s t : Subnet} {x : Int} (hs : Policy.inSubnet s x)
    (ht : Policy.inSubnet t x) : s.overlaps t := by
  unfold Policy.inSubnet at hs ht
  simp only [or_eq_true, beq_iff_eq, and_eq_true, decide_eq_true_eq] at hs ht
  unfold overlaps
  by_cases hzero : s.length = 0
  · rw [show s.contains t.first from contains_of_length_zero hzero t.base_lt]
    rfl
  · by_cases hzero' : t.length = 0
    · rw [show t.contains s.first from contains_of_length_zero hzero' s.base_lt]
      simp
    · simp only [contains, or_eq_true, and_eq_true, decide_eq_true_eq]
      omega

end Subnet

theorem HeaderSpace.overlapsDst_of_holdsOf {h : HeaderSpace} {cs : List (Term .bool)} {v : Valuation}
    (hcs : h.constraints p = .ok cs) (hv : ∀ c ∈ cs, c.eval v) {s : Subnet}
    (hs : (s.holdsOf p.dstIp).eval v) : h.overlapsDst s := by
  unfold constraints at hcs
  split at hcs
  · exact absurd hcs (by simp [throw, throwThe, MonadExceptOf.throw])
  · obtain ⟨groups, hgroups, hcs⟩ := bind_eq_ok.1 hcs
    cases hcs
    obtain ⟨group, hmem, hgroup⟩ := exists_of_mapM_eq_ok hgroups mem_cons_self
    unfold overlapsDst
    cases hempty : h.dstIps.isEmpty with
    | true => rfl
    | false =>
      -- the destination is in one of the listed subnets
      unfold AccessLine.whenListed at hgroup
      rw [hempty] at hgroup
      cases hgroup
      have hlisted := hv _ (mem_flatten.2 ⟨_, hmem, mem_singleton_self _⟩)
      rw [eval_anyOf, any_eq_true] at hlisted
      obtain ⟨c, hc, hholds⟩ := hlisted
      rw [flatMap_singleton] at hc
      obtain ⟨t, ht, rfl⟩ := mem_map.1 hc
      rw [Subnet.eval_holdsOf] at hs hholds
      rw [Bool.false_or, any_eq_true]
      exact ⟨t, ht, Subnet.overlaps_of_inSubnet hs hholds⟩

end ControlPlane
