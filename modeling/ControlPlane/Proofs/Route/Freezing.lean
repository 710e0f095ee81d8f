import ControlPlane.Proofs.Route.Ranking

/-!
# Records with values

Under a valuation every term can be replaced by the literal of its value.  A record that is frozen in this
way has no variables left, and everything that is said about a record is said about the frozen one: two
records of different names, each under its own valuation, say the same when they freeze to the same record.
-/
namespace ControlPlane

open List Term Option

/-! ## §1. Terms -/

/-- The literal of a value.  A number has no more bits than its size. -/
def Ty.literal : (ty : Ty) → ty.Carrier → Term ty
  | .bool, b => .boolLit b
  | .int, n => .intLit n
  | .bits, n => .bitsLit n n

namespace Term

variable {ty : Ty} (v u : Valuation)

theorem eval_tyLiteral (a : ty.Carrier) : (ty.literal a).eval u = a := by
  cases ty with
  | bool => rfl
  | int => rfl
  | bits => exact Nat.mod_eq_of_lt Nat.lt_two_pow_self

def frozen (t : Term ty) : Term ty := ty.literal (t.eval v)

@[simp] theorem eval_frozen (t : Term ty) : (t.frozen v).eval u = t.eval v := eval_tyLiteral u _

theorem frozen_eq_iff {v w : Valuation} {s t : Term ty} : s.frozen v = t.frozen w ↔ s.eval v = t.eval w := by
  refine ⟨fun h => ?_, fun h => congrArg ty.literal h⟩
  have h := congrArg (Term.eval v) h
  rwa [eval_frozen, eval_frozen] at h

theorem eval_eq_congr {v u : Valuation} {a b a' b' : Term ty} (ha : a.eval v = a'.eval u)
    (hb : b.eval v = b'.eval u) : (eq a b).eval v = (eq a' b').eval u := by
  rw [Bool.eq_iff_iff, eval_eq, eval_eq, ha, hb]

@[simp] theorem eval_getD_frozen (x : Option (Term ty)) (d : Term ty) (hd : d.eval u = d.eval v) :
    ((x.map (frozen v)).getD d).eval u = (x.getD d).eval v := by
  cases x with
  | none => exact hd
  | some t => exact eval_frozen v u t

end Term

/-! ## §2. Enumerations -/

namespace Enumeration

variable {α β : Type} (v u : Valuation) (e : Enumeration α)

def frozen : Enumeration α where
  name := ""
  values := e.values
  bits := e.bits.map (Term.frozen v)

theorem numberUnder_frozen : (e.frozen v).numberUnder u = e.numberUnder v := by
  simp [numberUnder, frozen, Function.comp_def]

@[simp] theorem eval_isValue_frozen [BEq α] (x : α) : ((e.frozen v).isValue x).eval u = (e.isValue x).eval v := by
  rw [Bool.eq_iff_iff, holds_isValue, holds_isValue, numberUnder_frozen]
  rfl

@[simp] theorem eval_equal_frozen (f : Enumeration β) :
    ((e.frozen v).equal (f.frozen v)).eval u = (e.equal f).eval v := by
  rw [Bool.eq_iff_iff, holds_equal, holds_equal, numberUnder_frozen, numberUnder_frozen]

@[simp] theorem eval_isDefault_frozen : (e.frozen v).isDefault.eval u = e.isDefault.eval v := by
  rw [Bool.eq_iff_iff, holds_isDefault, holds_isDefault, numberUnder_frozen]

theorem valueUnder_frozen [BEq α] : (e.frozen v).valueUnder u = e.valueUnder v := by
  have hwidth : (e.frozen v).width = e.width := rfl
  have hplace : ∀ x, (e.frozen v).placeOf? x = e.placeOf? x := fun _ => rfl
  unfold valueUnder
  cases he : e.bits with
  | none => simp [frozen, he]
  | some b =>
    simp only [frozen, he, map_some, eval_frozen] at hwidth hplace ⊢
    rw [hwidth]
    simp only [hplace]

theorem isDocument_frozen (e : Enumeration Document) (x : Document) :
    ((e.frozen v).isDocument x).map (Term.eval u) = (e.isDocument x).map (Term.eval v) := by
  have hnone : (e.frozen v).bits.isNone = e.bits.isNone := isNone_map
  unfold isDocument isAmong
  rw [hnone]
  split
  · exact congrArg Except.ok (e.eval_isValue_frozen v u x)
  · rfl

end Enumeration

/-! ## §3. Records -/

namespace Record

variable (v u : Valuation) (x : Record)

def frozen : Record where
  name := ""
  protocol := x.protocol
  used := x.used
  permitted := x.permitted.map (Term.frozen v)
  prefixLength := x.prefixLength.map (Term.frozen v)
  adminDist := x.adminDist.map (Term.frozen v)
  localPref := x.localPref.map (Term.frozen v)
  metric := x.metric.map (Term.frozen v)
  med := x.med.map (Term.frozen v)
  routerId := x.routerId.map (Term.frozen v)
  bgpInternal := x.bgpInternal.map (Term.frozen v)
  ospfArea := x.ospfArea.map (Enumeration.frozen v)
  ospfType := x.ospfType.map (Enumeration.frozen v)
  history := x.history.map (Enumeration.frozen v)
  communities := x.communities.map fun e => (e.1, e.2.frozen v)

@[simp] theorem eval_permits_frozen : (x.frozen v).permits.eval u = x.permits.eval v :=
  eval_getD_frozen v u x.permitted _ rfl

theorem int?_frozen (a : IntAttribute) : (x.frozen v).int? a = (x.int? a).map (Term.frozen v) := by
  cases a <;> rfl

theorem community?_frozen (c : Community) :
    (x.frozen v).community? c = (x.community? c).map (Term.frozen v) := by
  unfold community? frozen
  induction x.communities with
  | nil => rfl
  | cons e rest ih =>
    rw [map_cons, lookup_cons, lookup_cons]
    split
    · rfl
    · exact ih

theorem ospfBits_frozen : (Transfer.ospfBits (x.frozen v)).eval u = (Transfer.ospfBits x).eval v := by
  unfold Transfer.ospfBits frozen
  cases x.ospfType with
  | none => rfl
  | some e => exact eval_getD_frozen v u e.bits _ rfl

/-- A frozen record stands for the same route. -/
theorem under_frozen : (x.frozen v).under u = x.under v := by
  refine Route.ext ?_ (funext fun a => ?_) (x.ospfBits_frozen v u) (funext fun c => ?_)
  · show (x.history.map (Enumeration.frozen v)).map (fun h => h.valueUnder u) = x.history.map fun h => h.valueUnder v
    rw [Option.map_map]
    exact congrArg (x.history.map ·) (funext fun h => h.valueUnder_frozen v u)
  · show ((x.frozen v).int? a).map (fun t => t.eval u) = (x.int? a).map fun t => t.eval v
    rw [int?_frozen, Option.map_map]
    exact congrArg ((x.int? a).map ·) (funext fun t => t.eval_frozen v u)
  · show ((x.frozen v).community? c).map (fun t => t.eval u) = (x.community? c).map fun t => t.eval v
    rw [community?_frozen, Option.map_map]
    exact congrArg ((x.community? c).map ·) (funext fun t => t.eval_frozen v u)

/-- Where views are the same, something is there on both sides. -/
theorem exists_some_of_map_eq {α β : Type} {f g : α → β} {o p : Option α} {a : α} (h : o.map f = p.map g)
    (ha : o = some a) : ∃ b, p = some b ∧ f a = g b := by
  rw [ha] at h
  obtain ⟨b, hb, hab⟩ := map_eq_some_iff.1 h.symm
  exact ⟨b, hb, hab.symm⟩

def SameValues (v w : Valuation) (x y : Record) : Prop := x.frozen v = y.frozen w

namespace SameValues

variable {v w : Valuation} {x y : Record} (h : SameValues v w x y)
include h

theorem symm : SameValues w v y x := Eq.symm h

theorem permits : x.permits.eval v = y.permits.eval w := by
  rw [← x.eval_permits_frozen v v, ← y.eval_permits_frozen w v, h]

theorem under : x.under v = y.under w := by
  rw [← x.under_frozen v v, ← y.under_frozen w v, h]

theorem ospfType_isSome : x.ospfType.isSome = y.ospfType.isSome := by
  have h := congrArg (fun z => z.ospfType.isSome) h
  simpa [frozen] using h

theorem bgpInternal {b : Term .bool} (hb : x.bgpInternal = some b) :
    ∃ c, y.bgpInternal = some c ∧ b.eval v = c.eval w := by
  obtain ⟨c, hc, hbc⟩ := exists_some_of_map_eq (f := Term.frozen v) (g := Term.frozen w)
    (congrArg Record.bgpInternal h) hb
  exact ⟨c, hc, frozen_eq_iff.1 hbc⟩

theorem ospfArea {a : Enumeration Document} (ha : x.ospfArea = some a) :
    ∃ b, y.ospfArea = some b ∧ a.frozen v = b.frozen w :=
  exists_some_of_map_eq (congrArg Record.ospfArea h) ha

theorem ospfType {a : Enumeration OspfType} (ha : x.ospfType = some a) :
    ∃ b, y.ospfType = some b ∧ a.frozen v = b.frozen w :=
  exists_some_of_map_eq (congrArg Record.ospfType h) ha

theorem history {a : Enumeration Protocol} (ha : x.history = some a) :
    ∃ b, y.history = some b ∧ a.frozen v = b.frozen w :=
  exists_some_of_map_eq (congrArg Record.history h) ha

theorem community {e : Community × Term .bool} (he : e ∈ x.communities) :
    ∃ f ∈ y.communities, f.1 = e.1 ∧ e.2.eval v = f.2.eval w := by
  have h : (x.communities.map fun e => (e.1, e.2.frozen v)) = y.communities.map fun e => (e.1, e.2.frozen w) :=
    congrArg Record.communities h
  have hmem : (e.1, e.2.frozen v) ∈ y.communities.map fun e => (e.1, e.2.frozen w) :=
    h ▸ mem_map_of_mem he
  obtain ⟨f, hf, hef⟩ := mem_map.1 hmem
  obtain ⟨hc, hvalue⟩ := Prod.mk.inj hef
  exact ⟨f, hf, hc, (frozen_eq_iff.1 hvalue).symm⟩

end SameValues

end Record

/-- Computations with the same view succeed together. -/
theorem exists_ok_of_map_eq {ε α β γ : Type} {f : α → γ} {g : β → γ} {a : Except ε α} {b : Except ε β} {x : α}
    (h : b.map g = a.map f) (ha : a = .ok x) : ∃ y, b = .ok y ∧ g y = f x := by
  subst ha
  cases b with
  | error e => exact absurd h (by simp [Except.map])
  | ok y => exact ⟨y, rfl, Except.ok.inj h⟩

theorem Enumeration.isDocument_of_frozen {v w : Valuation} {a b : Enumeration Document}
    (h : a.frozen v = b.frozen w) {x : Document} {d : Term .bool} (hd : a.isDocument x = .ok d) :
    ∃ d', b.isDocument x = .ok d' ∧ d'.eval w = d.eval v := by
  refine exists_ok_of_map_eq ?_ hd
  rw [← a.isDocument_frozen v v x, h, b.isDocument_frozen w v x]

/-! ## §4. Comparisons -/

namespace Comparing

variable (v u : Valuation) (c : Comparing) (x y : Record)

theorem eval_sameNumber_frozen (a b : Option (Term .int)) (d : Int) :
    (sameNumber (a.map (Term.frozen v)) (b.map (Term.frozen v)) d).eval u = (sameNumber a b d).eval v := by
  cases a with
  | none => rfl
  | some s => exact eval_eq_congr (eval_frozen v u s) (eval_getD_frozen v u b _ rfl)

theorem eval_sameType_frozen : (sameType (x.frozen v) (y.frozen v)).eval u = (sameType x y).eval v := by
  unfold sameType Record.frozen
  cases x.ospfType with
  | none => rfl
  | some a =>
    cases y.ospfType with
    | none => exact a.eval_isDefault_frozen v u
    | some b => exact a.eval_equal_frozen v u b

theorem sameArea_frozen :
    (c.sameArea (x.frozen v) (y.frozen v)).map (Term.eval u) = (c.sameArea x y).map (Term.eval v) := by
  unfold sameArea Record.frozen
  cases x.ospfArea with
  | none => rfl
  | some a =>
    dsimp only [map_some]
    cases c.arrival with
    | none =>
      cases y.ospfArea with
      | none => rfl
      | some b => exact congrArg Except.ok (a.eval_equal_frozen v u b)
    | some arrival =>
      dsimp only
      split
      · exact congrArg Except.ok (a.eval_isDefault_frozen v u)
      · exact a.isDocument_frozen v u _

theorem compareIds_frozen (relate : Term .int → Term .int → Term .bool)
    (hrelate : ∀ a b a' b' : Term .int, a'.eval u = a.eval v → b'.eval u = b.eval v →
      (relate a' b').eval u = (relate a b).eval v) :
    (c.compareIds (x.frozen v) (y.frozen v) relate).map (Term.eval u) =
      (c.compareIds x y relate).map (Term.eval v) := by
  unfold compareIds Record.frozen
  cases x.routerId with
  | none => rfl
  | some a =>
    have ha := a.eval_frozen v u
    refine map_bind_same fun multipath => ?_
    cases multipath with
    | true => rfl
    | false =>
      cases y.routerId with
      | some b => exact congrArg Except.ok (hrelate a b _ _ ha (b.eval_frozen v u))
      | none =>
        cases c.arrival with
        | none => rfl
        | some arrival =>
          refine map_bind_same fun id => ?_
          cases id with
          | none => rfl
          | some d =>
            exact map_bind_same fun n => congrArg Except.ok (hrelate a (.intLit n) _ _ ha rfl)

theorem eval_sameHistory_frozen :
    (sameHistory (x.frozen v) (y.frozen v)).eval u = (sameHistory x y).eval v := by
  unfold sameHistory Record.frozen
  cases x.history with
  | none => rfl
  | some a =>
    cases y.history with
    | none => rfl
    | some b => exact a.eval_equal_frozen v u b

theorem eval_sameInternal_frozen :
    (sameInternal (x.frozen v) (y.frozen v)).eval u = (sameInternal x y).eval v := by
  unfold sameInternal Record.frozen
  cases x.bgpInternal with
  | none => rfl
  | some a =>
    cases y.bgpInternal with
    | none => rfl
    | some b => exact eval_eq_congr (a.eval_frozen v u) (b.eval_frozen v u)

theorem eval_sameCommunities_frozen :
    (sameCommunities (x.frozen v) (y.frozen v)).eval u = (sameCommunities x y).eval v := by
  unfold sameCommunities
  rw [eval_allOf, eval_allOf]
  show ((x.communities.map fun e => (e.1, e.2.frozen v)).filterMap _).all _ = _
  rw [filterMap_map]
  simp only [Function.comp_def, Record.community?_frozen]
  induction x.communities with
  | nil => rfl
  | cons e rest ih =>
    rw [filterMap_cons, filterMap_cons]
    cases y.community? e.1 with
    | none => exact ih
    | some o =>
      exact congrArg _ ih

/-- **Whether two records describe the same route is told by their values.** -/
theorem isSame_frozen (withCommunities : Bool) :
    (c.isSame (x.frozen v) (y.frozen v) withCommunities).map (Term.eval u) =
      (c.isSame x y withCommunities).map (Term.eval v) := by
  have hids := c.compareIds_frozen v u x y .eq fun _ _ _ _ => eval_eq_congr
  refine map_bind_congr (c.sameArea_frozen v u x y) fun area area' harea => map_bind_congr hids fun id id' hid => ?_
  refine congrArg Except.ok ?_
  have hlength := eval_sameNumber_frozen v u x.prefixLength y.prefixLength 0
  have hdistance := eval_sameNumber_frozen v u x.adminDist y.adminDist c.protocol.defaultDistance
  have hlocal := eval_sameNumber_frozen v u x.localPref y.localPref 0
  have hmetric := eval_sameNumber_frozen v u x.metric y.metric 0
  have hmed := eval_sameNumber_frozen v u x.med y.med c.protocol.defaultMed
  rw [eval_allOf, eval_allOf, all_append, all_append]
  congr 1
  · simp only [all_cons, all_nil]
    rw [eval_sameType_frozen, eval_sameHistory_frozen, eval_sameInternal_frozen, harea, hid, ← hlength,
      ← hdistance, ← hlocal, ← hmetric, ← hmed]
    rfl
  · cases withCommunities with
    | false => rfl
    | true =>
      simp only [if_true, all_cons, all_nil]
      rw [eval_sameCommunities_frozen]

theorem orders_frozen : c.orders u (x.frozen v) (y.frozen v) = c.orders v x y := by
  have htype : typeOrder u (x.frozen v) (y.frozen v) = typeOrder v x y := by
    unfold typeOrder
    rw [x.under_frozen, y.under_frozen]
    unfold Record.frozen
    cases x.ospfType <;> rfl
  have hinternal : internalOrder u (x.frozen v) (y.frozen v) = internalOrder v x y := by
    unfold internalOrder Record.frozen
    cases x.bgpInternal with
    | none => rfl
    | some a => cases y.bgpInternal <;> rfl
  unfold orders
  rw [x.under_frozen, y.under_frozen, htype, hinternal]

/-- **Whether a record is preferred is told by the values.** -/
theorem isAtLeast_frozen :
    (c.isAtLeast (x.frozen v) (y.frozen v)).map (Term.eval u) = (c.isAtLeast x y).map (Term.eval v) := by
  refine map_bind_congr (c.compareIds_frozen v u x y .le fun a b a' b' ha hb => ?_) fun tie tie' h => ?_
  · rw [eval_le, eval_le, ha, hb]
  · -- both are decided by the same rankings
    have hlast : tie'.eval v = (if tie'.eval v then .eq else .gt : Ordering).isLE := by cases tie'.eval v <;> rfl
    have hfrozen := eval_decided (steps_ranks (c := c) (v := u) (x := x.frozen v) (y := y.frozen v)) (h.trans hlast)
    rw [orders_frozen] at hfrozen
    exact congrArg Except.ok (hfrozen.trans (eval_decided steps_ranks hlast).symm)

section SameValues

variable {v w : Valuation} {x y x' y' : Record} {c : Comparing} {t : Term .bool}

theorem isSame_of_sameValues {withCommunities : Bool} (hx : x.SameValues v w x') (hy : y.SameValues v w y')
    (h : c.isSame x y withCommunities = .ok t) :
    ∃ t', c.isSame x' y' withCommunities = .ok t' ∧ t'.eval w = t.eval v := by
  refine exists_ok_of_map_eq ?_ h
  rw [← c.isSame_frozen v v x y, ← c.isSame_frozen w v x' y', hx, hy]

theorem isAtLeast_of_sameValues (hx : x.SameValues v w x') (hy : y.SameValues v w y')
    (h : c.isAtLeast x y = .ok t) : ∃ t', c.isAtLeast x' y' = .ok t' ∧ t'.eval w = t.eval v := by
  refine exists_ok_of_map_eq ?_ h
  rw [← c.isAtLeast_frozen v v x y, ← c.isAtLeast_frozen w v x' y', hx, hy]

end SameValues

end Comparing

end ControlPlane
