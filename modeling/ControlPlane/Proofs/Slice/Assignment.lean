import ControlPlane.Proofs.Slice.Variables
import Mathlib.Data.List.Pairwise

/-!
# Giving values to records

The attributes of a planned record are variables, so a valuation can be changed at them such that the record has
the values of any other record of the same form.  Where all variables of a frame have different names, this can be
done for any of its records at once, and leaves the others as they are (`Frame.exists_sameValues`).
-/
namespace ControlPlane

open List Term Enumeration

variable {cs ds : List (Community × Term .bool)} {router : Name} {p : Protocol} {name : String} {ty : Ty}
  {v w : Valuation} {f : Frame} {x y : Record}

/-! ## §1. Assigning to variables -/

/-- A term can have a value: that of a bit vector has to fit into its width. -/
def Term.CanBe {ty : Ty} : Term ty → ty.Carrier → Prop
  | .bitsVar _ width, n => n < Nat.pow 2 width
  | _, _ => True

def Term.names {ty : Ty} (t : Term ty) : List String := t.variable?.toList.map Variable.name

/-- A term that is to have a value. -/
structure Assignment where
  ty : Ty
  target : Term ty
  value : ty.Carrier

namespace Valuation

def assign {ty : Ty} (v : Valuation) : Term ty → ty.Carrier → Valuation
  | .boolVar name, b => v.setBool name b
  | .intVar name, i => v.setInt name i
  | .bitsVar name _, n => v.setBits name n
  | _, _ => v

variable {t : Term ty} {a : ty.Carrier}

theorem eval_assign (ht : t.variable?.isSome) (ha : t.CanBe a) : t.eval (v.assign t a) = a := by
  cases t with
  | boolVar name => simp [assign, setBool]
  | intVar name => simp [assign, setInt]
  | bitsVar name width =>
    simp only [assign, setBits, eval_bitsVar, if_true]
    exact Nat.mod_eq_of_lt ha
  | _ => exact absurd ht (by simp [ Term.variable?])

theorem assign_agreesAt {z : Variable} (hz : z.name ∉ t.names) : v.AgreesAt (v.assign t a) z := by
  have hmem : z ∈ [z] := mem_singleton_self z
  have hother : ∀ name, t.names = [name] → name ∉ [z].map Variable.name := by
    intro name hname
    rw [hname] at hz
    simp only [mem_singleton, map_cons, map_nil] at hz ⊢
    exact Ne.symm hz
  cases t with
  | boolVar name => exact v.setBool_agreesOn a (hother name rfl) z hmem
  | intVar name => exact v.setInt_agreesOn a (hother name rfl) z hmem
  | bitsVar name width => exact v.setBits_agreesOn a (hother name rfl) z hmem
  | _ => exact AgreesAt.refl v z

theorem exists_assigned (as : List Assignment) (hvars : ∀ a ∈ as, a.target.variable?.isSome)
    (hvalues : ∀ a ∈ as, a.target.CanBe a.value) (hnodup : (as.flatMap fun a => a.target.names).Nodup)
    (v : Valuation) : ∃ w : Valuation,
      (∀ z : Variable, z.name ∉ (as.flatMap fun a => a.target.names) → v.AgreesAt w z) ∧
      ∀ a ∈ as, a.target.eval w = a.value := by
  induction as with
  | nil => exact ⟨v, fun z _ => AgreesAt.refl v z, nofun⟩
  | cons a rest ih =>
    rw [forall_mem_cons] at hvars hvalues
    rw [flatMap_cons, nodup_append] at hnodup
    obtain ⟨-, hrest, hdisjoint⟩ := hnodup
    obtain ⟨w, hother, hset⟩ := ih hvars.2 hvalues.2 hrest
    refine ⟨w.assign a.target a.value, fun z hz => ?_, forall_mem_cons.2 ⟨eval_assign hvars.1 hvalues.1, ?_⟩⟩
    · rw [flatMap_cons, mem_append, not_or] at hz
      exact (hother z hz.2).trans (assign_agreesAt hz.1)
    · -- the variables of the rest have other names
      intro b hb
      obtain ⟨x, hx⟩ := Option.isSome_iff_exists.1 (hvars.2 b hb)
      have hname : x.name ∈ b.target.names := by simp [ Term.names, hx]
      have hne : x.name ∉ a.target.names := fun hmem =>
        hdisjoint _ hmem _ (mem_flatMap.2 ⟨b, hb, hname⟩) rfl
      have hover : b.target.Over [x] := over_of_variable? hx (mem_singleton_self x)
      rw [← hset b hb]
      refine (hover.eval_eq w _ fun z hz => ?_).symm
      obtain rfl := mem_singleton.1 hz
      exact assign_agreesAt hne

end Valuation

/-! ## §2. Records of the same form -/

def Enumeration.form {α : Type} (e : Enumeration α) : List α × Bool := (e.values, e.bits.isSome)

def Enumeration.InBits {α : Type} (v : Valuation) (e : Enumeration α) : Prop :=
  ∀ b, e.bits = some b → b.eval v < Nat.pow 2 e.width

namespace Record

/-- Two records model the same attributes. -/
structure SameForm (x y : Record) : Prop where
  protocol : x.protocol = y.protocol
  used : x.used = y.used
  permitted : x.permitted.isSome = y.permitted.isSome
  number : ∀ a, (x.int? a).isSome = (y.int? a).isSome
  internal : x.bgpInternal.isSome = y.bgpInternal.isSome
  area : x.ospfArea.map Enumeration.form = y.ospfArea.map Enumeration.form
  type : x.ospfType.map Enumeration.form = y.ospfType.map Enumeration.form
  history : x.history.map Enumeration.form = y.history.map Enumeration.form
  communities : x.communities.map Prod.fst = y.communities.map Prod.fst

theorem SameForm.ospfType_isSome {x y : Record} (h : x.SameForm y) : x.ospfType.isSome = y.ospfType.isSome := by
  have h := congrArg Option.isSome h.type
  rwa [Option.isSome_map, Option.isSome_map] at h

structure InBits (v : Valuation) (x : Record) : Prop where
  area : ∀ e, x.ospfArea = some e → e.InBits v
  type : ∀ e, x.ospfType = some e → e.InBits v
  history : ∀ e, x.history = some e → e.InBits v

def copy {ty : Ty} (v : Valuation) (s t : Option (Term ty)) : List Assignment :=
  match s, t with
  | some s, some t => [⟨ty, s, t.eval v⟩]
  | _, _ => []

def bitsOf {α : Type} (e : Option (Enumeration α)) : Option (Term .bits) := e.bind Enumeration.bits

def copies (v : Valuation) (x y : Record) : List Assignment :=
  copy v (bitsOf x.history) (bitsOf y.history) ++ (copy v x.permitted y.permitted ++
    (copy v x.prefixLength y.prefixLength ++ (copy v x.metric y.metric ++ (copy v x.localPref y.localPref ++
      (copy v x.adminDist y.adminDist ++ (copy v x.med y.med ++ (copy v x.bgpInternal y.bgpInternal ++
        (copy v (bitsOf x.ospfType) (bitsOf y.ospfType) ++ (copy v (bitsOf x.ospfArea) (bitsOf y.ospfArea) ++
          (copy v x.routerId y.routerId ++ (x.communities.zip y.communities).flatMap fun e =>
            copy v (some e.1.2) (some e.2.2)))))))))))

section Copy

variable {s t : Option (Term ty)}

theorem copy_names : ((copy v s t).flatMap fun a => a.target.names).Sublist ((optional s).map Variable.name) := by
  cases s with
  | none => exact nil_sublist _
  | some s =>
    cases t with
    | none => exact nil_sublist _
    | some t =>
      simp only [copy, flatMap_cons, flatMap_nil, append_nil]
      exact List.Sublist.refl _

theorem copy_isVariable (hs : IsVariable s) : ∀ a ∈ copy v s t, a.target.variable?.isSome := by
  intro a ha
  unfold copy at ha
  split at ha
  · obtain rfl := mem_singleton.1 ha
    exact hs _ rfl
  · cases ha

theorem copy_canBe (hty : ty ≠ .bits) : ∀ a ∈ copy v s t, a.target.CanBe a.value := by
  intro a ha
  unfold copy at ha
  split at ha
  next s t =>
    obtain rfl := mem_singleton.1 ha
    cases s with
    | bitsVar name width => exact absurd rfl hty
    | _ => trivial
  · cases ha

theorem map_frozen_of_isSome (hsome : s.isSome = t.isSome)
    (h : ∀ a b, s = some a → t = some b → a.eval v = b.eval w) : s.map (Term.frozen v) = t.map (Term.frozen w) := by
  cases s with
  | none =>
    cases t with
    | none => rfl
    | some b => cases hsome
  | some a =>
    cases t with
    | none => cases hsome
    | some b => exact congrArg some (frozen_eq_iff.2 (h a b rfl rfl))

theorem frozen_of_copy (hsome : s.isSome = t.isSome) (h : ∀ a ∈ copy v s t, a.target.eval w = a.value) :
    s.map (Term.frozen w) = t.map (Term.frozen v) := by
  refine map_frozen_of_isSome hsome fun a b ha hb => ?_
  subst ha hb
  exact h _ (mem_singleton_self _)

end Copy

section Enumeration

variable {α : Type} {d e : Option (Enumeration α)}

theorem optional_bitsOf : optional (bitsOf e) = (e.map Enumeration.declarations).getD [] := by
  cases e <;> rfl

theorem enumeration_frozen_of_copy (hform : d.map Enumeration.form = e.map Enumeration.form)
    (h : ∀ a ∈ copy v (bitsOf d) (bitsOf e), a.target.eval w = a.value) :
    d.map (Enumeration.frozen w) = e.map (Enumeration.frozen v) := by
  cases d with
  | none =>
    cases e with
    | none => rfl
    | some e => cases hform
  | some d =>
    cases e with
    | none => cases hform
    | some e =>
      obtain ⟨hvalues, hbits⟩ := Prod.mk.inj (Option.some.inj hform)
      have hfrozen := frozen_of_copy hbits h
      simp only [Option.map_some, Option.some.injEq, Enumeration.frozen, Enumeration.mk.injEq, true_and]
      exact ⟨hvalues, hfrozen⟩

theorem enumeration_canBe (hform : d.map Enumeration.form = e.map Enumeration.form)
    (hplanned : ∀ c, d = some c → ∃ name values, c = .planned name values) (he : ∀ c, e = some c → c.InBits v) :
    ∀ a ∈ copy v (bitsOf d) (bitsOf e), a.target.CanBe a.value := by
  intro a ha
  unfold copy at ha
  split at ha
  next s t hs ht =>
    obtain rfl := mem_singleton.1 ha
    obtain ⟨c, rfl, hs⟩ := Option.bind_eq_some_iff.1 hs
    obtain ⟨c', rfl, ht⟩ := Option.bind_eq_some_iff.1 ht
    obtain ⟨name, values, rfl⟩ := hplanned c rfl
    obtain ⟨hvalues, -⟩ := Prod.mk.inj (Option.some.inj hform)
    have hfits := he c' rfl t ht
    rw [Enumeration.width, ← hvalues, planned_values] at hfits
    unfold Enumeration.planned at hs
    split at hs
    · cases hs
    · cases hs
      exact hfits
  · cases ha

theorem enumeration_isVariable (hplanned : ∀ c, d = some c → ∃ name values, c = .planned name values) :
    IsVariable (bitsOf d) := by
  intro s hs
  obtain ⟨c, rfl, hs⟩ := Option.bind_eq_some_iff.1 hs
  obtain ⟨name, values, rfl⟩ := hplanned c rfl
  exact isVariable_planned s hs

end Enumeration

theorem communities_names :
    (((cs.zip ds).flatMap fun e => copy v (some e.1.2) (some e.2.2)).flatMap fun a => a.target.names).Sublist
      ((cs.flatMap fun e => optional (some e.2)).map Variable.name) := by
  induction cs generalizing ds with
  | nil => exact nil_sublist _
  | cons c rest ih =>
    cases ds with
    | nil => exact nil_sublist _
    | cons d others =>
      rw [zip_cons_cons, flatMap_cons, flatMap_append, flatMap_cons, map_append]
      exact copy_names.append ih

theorem communities_frozen (hkeys : cs.map Prod.fst = ds.map Prod.fst)
    (h : ∀ e ∈ cs.zip ds, e.1.1 = e.2.1 → e.1.2.eval v = e.2.2.eval w) :
    (cs.map fun e => (e.1, e.2.frozen v)) = ds.map fun e => (e.1, e.2.frozen w) := by
  induction cs generalizing ds with
  | nil =>
    obtain rfl := map_eq_nil_iff.1 hkeys.symm
    rfl
  | cons c rest ih =>
    cases ds with
    | nil => cases hkeys
    | cons d others =>
      rw [map_cons, map_cons, List.cons.injEq] at hkeys
      rw [zip_cons_cons, forall_mem_cons] at h
      rw [map_cons, map_cons, ih hkeys.2 h.2, hkeys.1, frozen_eq_iff.2 (h.1 hkeys.1)]

theorem copies_names : ((copies v x y).flatMap fun a => a.target.names).Sublist (x.declarations.map Variable.name) := by
  unfold copies declarations ownDeclarations
  simp only [flatMap_append, map_append, ← optional_bitsOf]
  exact copy_names.append (copy_names.append (copy_names.append (copy_names.append (copy_names.append
    (copy_names.append (copy_names.append (copy_names.append (copy_names.append (copy_names.append
      (copy_names.append communities_names))))))))))

theorem sameValues_of_copies (hform : x.SameForm y) (h : ∀ a ∈ copies v x y, a.target.eval w = a.value) :
    x.SameValues w v y := by
  unfold copies at h
  simp only [forall_mem_append] at h
  obtain ⟨hhistory, hpermitted, hlength, hmetric, hlocal, hdistance, hmed, hinternal, htype, harea, hid, hcs⟩ := h
  have hnumber := hform.number
  have hlength := frozen_of_copy (hnumber .prefixLength) hlength
  have hdistance := frozen_of_copy (hnumber .adminDist) hdistance
  have hlocal := frozen_of_copy (hnumber .localPref) hlocal
  have hmetric := frozen_of_copy (hnumber .metric) hmetric
  have hmed := frozen_of_copy (hnumber .med) hmed
  have hid := frozen_of_copy (hnumber .routerId) hid
  simp only [int?] at hlength hdistance hlocal hmetric hmed hid
  unfold SameValues frozen
  rw [hform.protocol, hform.used, frozen_of_copy hform.permitted hpermitted, hlength, hdistance, hlocal, hmetric,
    hmed, hid, frozen_of_copy hform.internal hinternal, enumeration_frozen_of_copy hform.area harea,
    enumeration_frozen_of_copy hform.type htype, enumeration_frozen_of_copy hform.history hhistory,
    communities_frozen hform.communities fun e he _ => hcs _ (mem_flatMap.2 ⟨e, he, mem_singleton_self _⟩)]

namespace IsPlanned

variable (hx : x.IsPlanned f)
include hx

theorem inBits (v : Valuation) : x.InBits v := by
  obtain ⟨harea, htype, hhistory⟩ := hx.enumerations
  have hplanned : ∀ {α : Type} {d : Option (Enumeration α)},
      (∀ e, d = some e → ∃ name values, e = .planned name values) → ∀ e, d = some e → e.InBits v := by
    intro α d hd e he b hb
    obtain ⟨name, values, rfl⟩ := hd e he
    rw [Enumeration.width, planned_values]
    unfold Enumeration.planned at hb
    split at hb
    · cases hb
    · cases hb
      exact Nat.mod_lt _ (Nat.two_pow_pos _)
  exact ⟨hplanned harea, hplanned htype, hplanned hhistory⟩

theorem copies_isVariable : ∀ a ∈ copies v x y, a.target.variable?.isSome := by
  obtain ⟨harea, htype, hhistory⟩ := hx.enumerations
  have harea := enumeration_isVariable harea
  have htype := enumeration_isVariable htype
  have hhistory := enumeration_isVariable hhistory
  obtain ⟨name, router, p, history, rfl, -⟩ := hx
  have hnumber := @planned_int?_isVariable router history p name f
  have hpermitted : IsVariable (planned f name router p history).permitted := by
    intro s hs
    cases hs
    rfl
  unfold copies
  simp only [forall_mem_append]
  refine ⟨copy_isVariable hhistory, copy_isVariable hpermitted, copy_isVariable (hnumber .prefixLength),
    copy_isVariable (hnumber .metric), copy_isVariable (hnumber .localPref), copy_isVariable (hnumber .adminDist),
    copy_isVariable (hnumber .med), copy_isVariable (isVariable_ite rfl), copy_isVariable htype,
    copy_isVariable harea, copy_isVariable (hnumber .routerId), forall_mem_flatMap.2 fun e he => ?_⟩
  exact copy_isVariable (planned_community_isVariable (of_mem_zip he).1)

theorem copies_canBe (hform : x.SameForm y) (hy : y.InBits v) : ∀ a ∈ copies v x y, a.target.CanBe a.value := by
  obtain ⟨harea, htype, hhistory⟩ := hx.enumerations
  unfold copies
  simp only [forall_mem_append]
  have hint : Ty.int ≠ .bits := by decide
  have hbool : Ty.bool ≠ .bits := by decide
  exact ⟨enumeration_canBe hform.history hhistory hy.history, copy_canBe hbool, copy_canBe hint, copy_canBe hint,
    copy_canBe hint, copy_canBe hint, copy_canBe hint, copy_canBe hbool, enumeration_canBe hform.type htype hy.type,
    enumeration_canBe hform.area harea hy.area, copy_canBe hint,
    forall_mem_flatMap.2 fun _ _ => copy_canBe hbool⟩

/-- **A record can have the values of any record of its form.** -/
theorem exists_sameValues (hnodup : (x.declarations.map Variable.name).Nodup) (hform : x.SameForm y)
    (hy : y.InBits v) (u : Valuation) : ∃ w : Valuation,
      (∀ z : Variable, z.name ∉ x.declarations.map Variable.name → u.AgreesAt w z) ∧ x.SameValues w v y := by
  have hnames := @copies_names v x y
  obtain ⟨w, hother, hset⟩ := Valuation.exists_assigned (copies v x y) hx.copies_isVariable
    (hx.copies_canBe hform hy) (hnodup.sublist hnames) u
  exact ⟨w, fun z hz => hother z fun hmem => hz (hnames.subset hmem), sameValues_of_copies hform hset⟩

end IsPlanned

theorem planned_ospfArea (hname : (unused name p).isBest = false) : (planned f name router p).ospfArea = none := by
  have hareas : areasFor f name router p = .ok [] := by
    unfold areasFor wantsArea
    rw [hname]
    rfl
  show areaOf name ((areasFor f name router p).toOption.getD []) = none
  rw [hareas]
  rfl

theorem planned_routerId (hp : p ≠ .best) (hname : (unused name p).isBest = false) :
    (planned f name router p).routerId = none := by
  have hwants : wantsId (f.planFor router) name p = false := by
    unfold wantsId
    rw [if_neg (by simpa using hp), hname, Bool.false_and]
  exact numberIf_eq_none.2 hwants

/-- The records of lanes model the same attributes, where both routers tell how BGP routes were learned or neither
does. -/
theorem planned_sameForm {name' : String} {router' : Name} (hp : p ≠ .best) (hname : (unused name p).isBest = false)
    (hname' : (unused name' p).isBest = false)
    (hinternal : p = .bgp → (f.planFor router).needsBgpInternal = (f.planFor router').needsBgpInternal) :
    (planned f name router p).SameForm (planned f name' router' p) := by
  have hshape : shapeAt f name router p = shapeAt f name' router' p := by
    unfold shapeAt shapeFor
    cases p with
    | best => exact absurd rfl hp
    | bgp =>
      rw [hinternal rfl]
    | _ => rfl
  have hif : ∀ (wanted : Bool) (name : String) (a : IntAttribute), (numberIf wanted name a).isSome = wanted := by
    intro wanted name a
    cases wanted <;> rfl
  constructor
  · rfl
  · rfl
  · rfl
  · intro a
    by_cases ha : a = .routerId
    · subst ha
      show (planned f name router p).routerId.isSome = (planned f name' router' p).routerId.isSome
      rw [planned_routerId hp hname, planned_routerId hp hname']
    · rw [planned_int? ha, planned_int? ha, hif, hif, hshape]
  · show (internalIf (shapeAt f name router p).bgpInternal name).isSome =
      (internalIf (shapeAt f name' router' p).bgpInternal name').isSome
    rw [hshape]
    cases (shapeAt f name' router' p).bgpInternal <;> rfl
  · rw [planned_ospfArea hname, planned_ospfArea hname']
  · show (typeIf (shapeAt f name router p).ospfType name).map Enumeration.form =
      (typeIf (shapeAt f name' router' p).ospfType name').map Enumeration.form
    rw [hshape]
    cases (shapeAt f name' router' p).ospfType <;> rfl
  · rfl
  · show (communitiesOf f (f.planFor router) name p).map Prod.fst =
      (communitiesOf f (f.planFor router') name' p).map Prod.fst
    have hwants : ∀ plan, wantsCommunities plan p = (p == .bgp) := by
      intro plan
      unfold wantsCommunities
      rw [show (p == Protocol.best) = false from by simpa using hp, Bool.and_false, Bool.or_false]
    unfold communitiesOf
    rw [hwants, hwants]
    split
    · rw [map_map, map_map]
      rfl
    · rfl

end Record

/-! ## §3. The records of a frame -/

namespace Frame

theorem eq_of_mem_parts {α β : Type} {g : α → List β} {xs : List α} (h : (xs.flatMap g).Nodup) {a b : α} {x : β}
    (ha : a ∈ xs) (hb : b ∈ xs) (hxa : x ∈ g a) (hxb : x ∈ g b) : a = b := by
  by_contra hne
  have hsymm : Std.Symm (Function.onFun List.Disjoint g) := ⟨fun _ _ h _ hx hy => h hy hx⟩
  exact (nodup_flatMap.1 h).2.forall ha hb hne hxa hxb

def Distinct (f : Frame) : Prop := (f.layoutVariables.map Variable.name).Nodup

theorem Distinct.append (h : f.Distinct) : (f.commonVariables.map Variable.name ++
    f.records.flatMap fun x => x.declarations.map Variable.name).Nodup := by
  have hperm := (layoutVariables_perm (f := f)).map Variable.name
  rw [map_append, map_flatMap] at hperm
  exact hperm.nodup_iff.1 h

theorem Distinct.record (h : f.Distinct) (hx : x ∈ f.records) : (x.declarations.map Variable.name).Nodup :=
  (nodup_flatMap.1 (nodup_append.1 h.append).2.1).1 x hx

theorem Distinct.disjoint (h : f.Distinct) (hx : x ∈ f.records) (hy : y ∈ f.records) (hne : x ≠ y) {z : String}
    (hz : z ∈ x.declarations.map Variable.name) : z ∉ y.declarations.map Variable.name := fun hz' =>
  hne (eq_of_mem_parts (nodup_append.1 h.append).2.1 hx hy hz hz')

theorem Distinct.common (h : f.Distinct) (hx : x ∈ f.records) {z : String}
    (hz : z ∈ f.commonVariables.map Variable.name) : z ∉ x.declarations.map Variable.name := fun hmem =>
  (nodup_append.1 h.append).2.2 z hz z (mem_flatMap.2 ⟨x, hx, hmem⟩) rfl

theorem permitted_declared (hx : x.IsPlanned f) : x.name ++ "_permitted" ∈ x.declarations.map Variable.name := by
  obtain ⟨name, router, p, history, rfl, -⟩ := hx
  exact mem_map_of_mem (mem_append_right _ (mem_append_left _ (mem_singleton_self
    (⟨name ++ "_permitted", .bool⟩ : Variable))))

/-- Every record has a variable of its own, so none is listed twice. -/
theorem Distinct.nodup (h : f.Distinct) : f.records.Nodup := by
  have hpairwise := (nodup_flatMap.1 (nodup_append.1 h.append).2.1).2
  refine hpairwise.imp_of_mem fun {x y} hx _ hdisjoint => ?_
  rintro rfl
  have hname := permitted_declared (isPlanned_of_mem hx).1
  exact hdisjoint hname hname

theorem Distinct.routers (h : f.Distinct) : f.topology.names.Nodup := by
  have hbests := (nodup_append.1 (nodup_append.1 h.nodup).1).1
  refine (nodup_flatMap.1 hbests).2.imp fun {n m} hdisjoint => ?_
  rintro rfl
  exact hdisjoint mem_cons_self mem_cons_self

theorem Distinct.importNames (h : f.Distinct) : (f.allLanes.map fun l => l.incoming.name).Nodup := by
  have hcommon := (nodup_append.1 h.append).1
  have hsub : (f.choiceVariables.map Variable.name).Sublist (f.commonVariables.map Variable.name) := by
    refine List.Sublist.map _ ?_
    exact ((((sublist_append_left _ _).trans (sublist_append_right _ _)).trans
      (sublist_append_right _ _)).trans (sublist_append_right _ _))
  have hchoices := hcommon.sublist hsub
  have hmap : f.choiceVariables.map Variable.name = (f.allLanes.map fun l => l.incoming.name).map (· ++ "_choice") := by
    unfold choiceVariables
    rw [map_map, map_map]
    rfl
  rw [hmap] at hchoices
  exact hchoices.of_map

theorem Distinct.router_eq (h : f.Distinct) {r r' : Router} (hr : r ∈ f.topology.routers)
    (hr' : r' ∈ f.topology.routers) (hname : r.name = r'.name) : r = r' := by
  have hnames : (f.topology.routers.map Router.name).Nodup := by
    have hnames := h.routers
    unfold Topology.routers
    rw [map_map]
    exact hnames
  exact inj_on_of_nodup_map hnames hr hr' hname

theorem Distinct.eq_of_name (hd : f.Distinct) (hx : x ∈ f.records) (hy : y ∈ f.records)
    (h : x.name = y.name) : x = y := by
  by_contra hne
  have hname := permitted_declared (isPlanned_of_mem hy).1
  rw [← h] at hname
  exact hd.disjoint hx hy hne (permitted_declared (isPlanned_of_mem hx).1) hname

theorem Distinct.edge_eq (hd : f.Distinct) {name : Name} {d e : Edge} (hdm : d ∈ f.topology.edges name)
    (hem : e ∈ f.topology.edges name) (hid : d.id = e.id) : d = e := by
  have hcommon := (nodup_append.1 hd.append).1
  have hsub : (f.forwardingVariables.map Variable.name).Sublist (f.commonVariables.map Variable.name) := by
    refine List.Sublist.map _ ?_
    exact (sublist_append_left _ _).trans ((sublist_append_right _ _).trans (sublist_append_right _ _))
  have hnodup := hcommon.sublist hsub
  unfold forwardingVariables at hnodup
  rw [map_flatMap] at hnodup
  unfold Topology.edges at hdm hem
  cases hsite : f.topology.site? name with
  | none =>
    rw [hsite] at hdm
    exact absurd hdm not_mem_nil
  | some site =>
    rw [hsite] at hdm hem
    have hmem := mem_of_find?_eq_some hsite
    have hedges := (nodup_flatMap.1 hnodup).1 site hmem
    rw [map_flatMap] at hedges
    have hbeq := Edge.beq_iff.2 hid
    refine eq_of_mem_parts hedges hdm hem mem_cons_self ?_
    rw [Edge.router_of_beq hbeq, Edge.interface_of_beq hbeq]
    exact mem_cons_self

/-- **Any records of a frame can be given the values of others**, and those that are not keep theirs. -/
theorem exists_sameValues (hd : f.Distinct) (R : Record → Record → Prop)
    (hform : ∀ x y, R x y → x ∈ f.records ∧ x.SameForm y ∧ y.InBits v)
    (hone : ∀ x y y', R x y → R x y' → y.SameValues v v y') :
    ∃ w : Valuation, v.AgreesOn w f.commonVariables ∧
      (∀ x ∈ f.records, (∀ y, ¬R x y) → v.AgreesOn w x.declarations) ∧ ∀ x y, R x y → x.SameValues w v y := by
  -- one record after the other is given its values
  have hsome : ∀ xs : List Record, ∃ w : Valuation, v.AgreesOn w f.commonVariables ∧
      (∀ x ∈ f.records, (x ∈ xs → ∀ y, ¬R x y) → v.AgreesOn w x.declarations) ∧
      ∀ x ∈ xs, ∀ y, R x y → x.SameValues w v y := by
    intro xs
    induction xs with
    | nil => exact ⟨v, .refl v _, fun _ _ _ => .refl v _, fun x hx => absurd hx not_mem_nil⟩
    | cons a rest ih =>
      obtain ⟨w, hcommon, hkept, hset⟩ := ih
      by_cases hany : ∃ b, R a b
      · obtain ⟨b, hb⟩ := hany
        obtain ⟨ha, hab, hbits⟩ := hform a b hb
        obtain ⟨w', hother, hsame⟩ := (isPlanned_of_mem ha).1.exists_sameValues (hd.record ha) hab hbits w
        -- the variables of other records are not changed
        have hkeeps : ∀ x ∈ f.records, x ≠ a → w.AgreesOn w' x.declarations := fun x hx hne z hz =>
          hother z (hd.disjoint hx ha hne (mem_map_of_mem hz))
        refine ⟨w', fun z hz => (hcommon z hz).trans (hother z (hd.common ha (mem_map_of_mem hz))),
          fun x hx hnot => ?_, fun x hx y hy => ?_⟩
        · have hne : x ≠ a := fun heq => hnot (heq ▸ mem_cons_self) b (heq ▸ hb)
          exact (hkept x hx fun hmem => hnot (mem_cons_of_mem _ hmem)).trans (hkeeps x hx hne)
        · by_cases heq : x = a
          · rw [heq] at hy ⊢
            exact hsame.trans (hone a b y hb hy)
          · have hmem := (hform x y hy).1
            exact ((isPlanned_of_mem hmem).1.sameValues (hkeeps x hmem heq)).symm.trans
              (hset x ((mem_cons.1 hx).resolve_left heq) y hy)
      · exact ⟨w, hcommon, fun x hx hnot => hkept x hx fun hmem => hnot (mem_cons_of_mem _ hmem),
          forall_mem_cons.2 ⟨fun y hy => absurd ⟨y, hy⟩ hany, hset⟩⟩
  obtain ⟨w, hcommon, hkept, hset⟩ := hsome f.records
  exact ⟨w, hcommon, fun x hx hnot => hkept x hx fun _ => hnot, fun x y hxy => hset x (hform x y hxy).1 y hxy⟩

end Frame

end ControlPlane
