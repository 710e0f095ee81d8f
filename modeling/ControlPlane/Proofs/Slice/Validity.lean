import ControlPlane.Proofs.Slice.Transfers

/-!
# The values that a record may have

A record's numbers are in their ranges, its enumerations stand for listed values, a regular expression is
carried exactly when one of its communities is, and a record without a route rests at its defaults.  All
this is told by the values of the record (`Record.IsValid.congr`).
-/
namespace ControlPlane

open List Term Option

theorem Enumeration.holds_bounds_frozen {α : Type} (v u : Valuation) (e : Enumeration α) :
    (∀ c ∈ (e.frozen v).bounds, c.eval u) ↔ ∀ c ∈ e.bounds, c.eval v := by
  unfold bounds bound?
  cases he : e.bits with
  | none => simp [frozen, he]
  | some a =>
    simp only [frozen, he, map_some, bind_some]
    split
    · simp
    · simp only [toList_some, forall_mem_singleton, eval_bitsCompare, eval_frozen]
      exact Iff.rfl

namespace Record

variable {v w : Valuation} {x y : Record} {dependencies : List (Community × List Community)}

/-! ## §1. Valid records -/

def InRange : IntAttribute → Int → Prop
  | .prefixLength, n => 0 ≤ n ∧ n ≤ Slice.maxPrefixLength
  | .adminDist, n => 0 ≤ n ∧ n < 256
  | .localPref, n => 0 ≤ n ∧ n < 4294967296
  | .metric, n => 0 ≤ n ∧ n < 65536
  | .med, n => 0 ≤ n ∧ n < 4294967296
  | .routerId, _ => True

structure Rests (v : Valuation) (x : Record) : Prop where
  numbers : x.HasNumbers v fun _ n => n = 0
  area : ∀ e, x.ospfArea = some e → e.isDefault.eval v
  type : ∀ e, x.ospfType = some e → e.isDefault.eval v
  history : ∀ e, x.history = some e → e.isDefault.eval v
  internal : ∀ b, x.bgpInternal = some b → b.eval v = false
  communities : ∀ e ∈ x.communities, e.2.eval v = false

structure IsValid (dependencies : List (Community × List Community)) (v : Valuation) (x : Record) : Prop where
  numbers : x.HasNumbers v InRange
  announced : x.isEnvironment → x.HasNumbers v fun a n => a = .metric → n < 256
  places : ∀ c ∈ x.bounds, c.eval v
  patterns : ∀ e ∈ x.communities, e.1.kind = .regex → (e.2.eval v ↔
    ∃ d ∈ (dependencies.lookup e.1).getD [], ∃ t, x.community? d = some t ∧ t.eval v)
  rests : x.permits.eval v = false → x.Rests v

/-! ## §2. Reading the constraints -/

theorem holds_below {t : Term .int} {limit : Int} :
    (Slice.below t limit).eval v ↔ 0 ≤ t.eval v ∧ t.eval v < limit := by
  unfold Slice.below
  rw [holds_and_two, holds_ge, holds_lt]
  exact Iff.rfl

theorem forall_mem_toList_map {ty : Ty} {t : Option (Term ty)} {g : Term ty → Term .bool} :
    (∀ c ∈ (t.map g).toList, c.eval v) ↔ ∀ s, t = some s → (g s).eval v := by
  cases t <;> simp

theorem hasNumbers_iff {R : IntAttribute → Int → Prop} :
    x.HasNumbers v R ↔ ∀ a t, x.int? a = some t → R a (t.eval v) := by
  have hnumber : ∀ a, (x.under v).number a = (x.int? a).map fun t => t.eval v := fun _ => rfl
  unfold HasNumbers
  simp only [hnumber, map_eq_some_iff]
  exact ⟨fun h a t ht => h a _ ⟨t, ht, rfl⟩, fun h a n ⟨t, ht, hn⟩ => hn ▸ h a t ht⟩

theorem holds_metricBounds : (∀ c ∈ (match x.metric with
      | none => []
      | some t => [Term.ge t (.intLit 0)] ++ (if x.isEnvironment then [Term.lt t (.intLit 256)] else []) ++
        [Term.lt t (.intLit 65536)]), c.eval v) ↔
    ∀ t, x.metric = some t → (0 ≤ t.eval v ∧ t.eval v < 65536) ∧ (x.isEnvironment → t.eval v < 256) := by
  cases x.metric with
  | none => simp
  | some t =>
    simp only [forall_mem_append, forall_mem_singleton, Option.some.injEq, forall_eq']
    rw [holds_ge, holds_lt]
    cases x.isEnvironment with
    | true =>
      simp only [if_true, forall_mem_singleton, true_implies]
      rw [holds_lt]
      exact ⟨fun h => ⟨⟨h.1.1, h.2⟩, h.1.2⟩, fun h => ⟨⟨h.1.1, h.2⟩, h.1.2⟩⟩
    | false =>
      simp only [Bool.false_eq_true, if_false, not_mem_nil, false_implies, implies_true, and_true]
      exact Iff.rfl

theorem inRange_zero (a : IntAttribute) : InRange a 0 := by
  cases a with
  | routerId => trivial
  | _ => exact ⟨Int.le_refl 0, by decide⟩

theorem holds_recordBounds : (∀ c ∈ Slice.recordBounds x, c.eval v) ↔
    x.HasNumbers v InRange ∧ (x.isEnvironment → x.HasNumbers v fun a n => a = .metric → n < 256) := by
  unfold Slice.recordBounds
  simp only [forall_mem_append, forall_mem_toList_map, hasNumbers_iff]
  constructor
  · rintro ⟨⟨⟨⟨hdistance, hmed⟩, hlocal⟩, hmetric⟩, hlength⟩
    have hmetric := holds_metricBounds.1 hmetric
    refine ⟨fun a t ht => ?_, fun henv a t ht ha => ?_⟩
    · cases a with
      | prefixLength => exact (holds_and_two v).1 (hlength t ht) |>.imp (holds_ge v).1 (holds_le v).1
      | adminDist => exact holds_below.1 (hdistance t ht)
      | localPref => exact holds_below.1 (hlocal t ht)
      | metric => exact (hmetric t ht).1
      | med => exact holds_below.1 (hmed t ht)
      | routerId => trivial
    · subst ha
      exact (hmetric t ht).2 henv
  · rintro ⟨hnumbers, henv⟩
    refine ⟨⟨⟨⟨fun t ht => holds_below.2 (hnumbers .adminDist t ht), fun t ht => holds_below.2 (hnumbers .med t ht)⟩,
      fun t ht => holds_below.2 (hnumbers .localPref t ht)⟩, holds_metricBounds.2 fun t ht => ?_⟩, fun t ht => ?_⟩
    · exact ⟨hnumbers .metric t ht, fun h => henv h .metric t ht rfl⟩
    · exact (holds_and_two v).2 ((hnumbers .prefixLength t ht).imp (holds_ge v).2 (holds_le v).2)

/-- What a constraint on a record without a route says. -/
theorem holds_unless {t : Term .bool} :
    (Term.implies (.not x.permits) t).eval v ↔ (x.permits.eval v = false → t.eval v) := by
  rw [holds_implies, holds_not]

theorem holds_reset : (∀ c ∈ Slice.resetConstraints x, c.eval v) ↔ (x.permits.eval v = false → x.Rests v) := by
  have hdefault : ∀ {α : Type} (e : Option (Enumeration α)),
      (∀ c ∈ (e.map fun e => Term.implies (.not x.permits) e.isDefault).toList, c.eval v) ↔
        (x.permits.eval v = false → ∀ d, e = some d → d.isDefault.eval v) := by
    intro α e
    cases e with
    | none => simp
    | some e =>
      rw [map_some, toList_some, forall_mem_singleton, holds_unless]
      simp
  have hnumbers : (∀ c ∈ x.numbers.map fun n => Term.implies (.not x.permits) (.is n.2 0), c.eval v) ↔
      (x.permits.eval v = false → x.HasNumbers v fun _ n => n = 0) := by
    have hmem : ∀ a t, (a, t) ∈ x.numbers ↔ x.int? a = some t := by
      intro a t
      unfold numbers
      rw [mem_filterMap]
      constructor
      · rintro ⟨b, -, hb⟩
        obtain ⟨u, hu, hut⟩ := map_eq_some_iff.1 hb
        cases hut
        exact hu
      · intro ha
        exact ⟨a, by cases a <;> decide, by rw [ha]; rfl⟩
    rw [List.forall_mem_map, hasNumbers_iff]
    constructor
    · intro h hp a t ht
      exact (eval_is v t 0).1 (holds_unless.1 (h (a, t) ((hmem a t).2 ht)) hp)
    · intro h n hn
      exact holds_unless.2 fun hp => (eval_is v n.2 0).2 (h hp n.1 n.2 ((hmem n.1 n.2).1 hn))
  have hinternal : (∀ c ∈ (x.bgpInternal.map fun b => Term.implies (.not x.permits) (.not b)).toList,
      c.eval v) ↔ (x.permits.eval v = false → ∀ b, x.bgpInternal = some b → b.eval v = false) := by
    rw [forall_mem_toList_map]
    constructor
    · intro h hp b hb
      exact (holds_not v).1 (holds_unless.1 (h b hb) hp)
    · intro h b hb
      exact holds_unless.2 fun hp => (holds_not v).2 (h hp b hb)
  have hcommunities : (∀ c ∈ x.communities.map fun e => Term.implies (.not x.permits) (.not e.2),
      c.eval v) ↔ (x.permits.eval v = false → ∀ e ∈ x.communities, e.2.eval v = false) := by
    rw [List.forall_mem_map]
    constructor
    · intro h hp e he
      exact (holds_not v).1 (holds_unless.1 (h e he) hp)
    · intro h e he
      exact holds_unless.2 fun hp => (holds_not v).2 (h hp e he)
  unfold Slice.resetConstraints
  simp only [forall_mem_append]
  rw [hnumbers, hdefault, hdefault, hdefault, hinternal, hcommunities]
  constructor
  · rintro ⟨⟨⟨⟨⟨h₁, h₂⟩, h₃⟩, h₄⟩, h₅⟩, h₆⟩ hp
    exact ⟨h₁ hp, h₂ hp, h₃ hp, h₄ hp, h₅ hp, h₆ hp⟩
  · intro h
    exact ⟨⟨⟨⟨⟨fun hp => (h hp).numbers, fun hp => (h hp).area⟩, fun hp => (h hp).type⟩,
      fun hp => (h hp).history⟩, fun hp => (h hp).internal⟩, fun hp => (h hp).communities⟩

def patternConstraints (dependencies : List (Community × List Community)) (x : Record) : List (Term .bool) :=
  (x.communities.filter fun e => e.1.kind == .regex).map fun e =>
    .eq e.2 (.anyOf (((dependencies.lookup e.1).getD []).filterMap x.community?))

theorem holds_patterns : (∀ c ∈ patternConstraints dependencies x, c.eval v) ↔
    ∀ e ∈ x.communities, e.1.kind = .regex → (e.2.eval v ↔
      ∃ d ∈ (dependencies.lookup e.1).getD [], ∃ t, x.community? d = some t ∧ t.eval v) := by
  unfold patternConstraints
  simp only [List.forall_mem_map, mem_filter, beq_iff_eq, and_imp]
  refine forall₂_congr fun e he => forall_congr' fun hkind => ?_
  rw [eval_eq, Bool.eq_iff_iff, holds_anyOf]
  refine iff_congr Iff.rfl ?_
  simp only [mem_filterMap]
  constructor
  · rintro ⟨t, ⟨d, hd, ht⟩, htv⟩
    exact ⟨d, hd, t, ht, htv⟩
  · rintro ⟨d, hd, t, ht, htv⟩
    exact ⟨t, ⟨d, hd, ht⟩, htv⟩

/-- **A record satisfies its constraints exactly when its values are possible.** -/
theorem isValid_iff : x.IsValid dependencies v ↔
    (∀ c ∈ x.bounds, c.eval v) ∧ (∀ c ∈ Slice.recordBounds x, c.eval v) ∧
      (∀ c ∈ patternConstraints dependencies x, c.eval v) ∧
      ∀ c ∈ Slice.resetConstraints x, c.eval v := by
  rw [holds_recordBounds, holds_patterns, holds_reset]
  constructor
  · intro h
    exact ⟨h.places, ⟨h.numbers, h.announced⟩, h.patterns, h.rests⟩
  · rintro ⟨hplaces, ⟨hnumbers, hannounced⟩, hpatterns, hrests⟩
    exact ⟨hnumbers, hannounced, hplaces, hpatterns, hrests⟩

/-! ## §3. Only values count -/

theorem isDefault_of_frozen {α : Type} {e e' : Enumeration α} (h : e'.frozen w = e.frozen v)
    (hd : e.isDefault.eval v) : e'.isDefault.eval w := by
  rw [← e'.eval_isDefault_frozen w v, h, e.eval_isDefault_frozen v v]
  exact hd

theorem SameValues.community? (h : x.SameValues v w y) {d : Community} {t : Term .bool}
    (ht : x.community? d = some t) : ∃ t', y.community? d = some t' ∧ t'.eval w = t.eval v := by
  have hmap : (x.community? d).map (Term.frozen v) = (y.community? d).map (Term.frozen w) := by
    rw [← x.community?_frozen v d, ← y.community?_frozen w d, h]
  rw [ht] at hmap
  obtain ⟨t', ht', hval⟩ := map_eq_some_iff.1 hmap.symm
  exact ⟨t', ht', frozen_eq_iff.1 hval⟩

theorem Rests.congr (h : x.SameValues v w y) (hx : x.Rests v) : y.Rests w where
  numbers := h.hasNumbers.1 hx.numbers
  area e he := by
    obtain ⟨e', he', hsame⟩ := h.symm.ospfArea he
    exact isDefault_of_frozen hsame (hx.area e' he')
  type e he := by
    obtain ⟨e', he', hsame⟩ := h.symm.ospfType he
    exact isDefault_of_frozen hsame (hx.type e' he')
  history e he := by
    obtain ⟨e', he', hsame⟩ := h.symm.history he
    exact isDefault_of_frozen hsame (hx.history e' he')
  internal b hb := by
    obtain ⟨b', hb', hval⟩ := h.symm.bgpInternal hb
    exact hval.trans (hx.internal b' hb')
  communities e he := by
    obtain ⟨e', he', -, hval⟩ := h.symm.community he
    exact hval.trans (hx.communities e' he')

theorem forall_mem_bounds {P : Term .bool → Prop} : (∀ c ∈ x.bounds, P c) ↔
    (∀ e, x.history = some e → ∀ c ∈ e.bounds, P c) ∧ ∀ e, x.ospfArea = some e → ∀ c ∈ e.bounds, P c := by
  unfold bounds areaBounds
  rw [forall_mem_append]
  refine and_congr ?_ ?_
  · cases x.history <;> simp
  · cases x.ospfArea <;> simp

theorem SameValues.bounds (h : x.SameValues v w y) (hx : ∀ c ∈ x.bounds, c.eval v) :
    ∀ c ∈ y.bounds, c.eval w := by
  obtain ⟨hhistory, harea⟩ := forall_mem_bounds.1 hx
  refine forall_mem_bounds.2 ⟨fun e he => ?_, fun e he => ?_⟩
  · obtain ⟨e', he', hsame⟩ := h.symm.history he
    rw [← e.holds_bounds_frozen w v, hsame, e'.holds_bounds_frozen v v]
    exact hhistory e' he'
  · obtain ⟨e', he', hsame⟩ := h.symm.ospfArea he
    rw [← e.holds_bounds_frozen w v, hsame, e'.holds_bounds_frozen v v]
    exact harea e' he'

/-- **Validity is told by values**, and by whether the record is one of routes from outside of the network. -/
theorem IsValid.congr (h : x.SameValues v w y) (henv : x.isEnvironment = y.isEnvironment)
    (hx : x.IsValid dependencies v) : y.IsValid dependencies w where
  numbers := h.hasNumbers.1 hx.numbers
  announced he := h.hasNumbers.1 (hx.announced (henv.trans he))
  places := h.bounds hx.places
  patterns e he hkind := by
    obtain ⟨e', he', hkey, hval⟩ := h.symm.community he
    rw [hval, hx.patterns e' he' (hkey ▸ hkind), hkey]
    constructor
    · rintro ⟨d, hd, t, ht, htv⟩
      obtain ⟨t', ht', hval⟩ := h.community? ht
      exact ⟨d, hd, t', ht', hval.trans htv⟩
    · rintro ⟨d, hd, t, ht, htv⟩
      obtain ⟨t', ht', hval⟩ := h.symm.community? ht
      exact ⟨d, hd, t', ht', hval.trans htv⟩
  rests hp := (hx.rests (h.permits.trans hp)).congr h

end Record

end ControlPlane
