import ControlPlane.Proofs.Plan.Decisions
import ControlPlane.Proofs.Route.Preference
import ControlPlane.Proofs.Slice.Layout

/-!
# Which attributes the records of a slice have

The overall best record of a router models whatever the best record of one of its protocols does, and that
one models the same numbers as every record of the protocol at any router.  How a route was learned is the
exception: a record of another router follows the decision about that router.
-/
namespace ControlPlane

open List Bool

variable {wanted : Bool} {e : Edge} {a : IntAttribute} {m : Lane} {router : Name} {plan : ProtocolPlan} {f : Frame}
  {p : Protocol}

/-! ## §1. Text in a name -/

theorem Text.occursIn_iff {part whole : String} : occursIn part whole ↔ part.toList <:+: whole.toList := by
  unfold occursIn
  induction whole.toList with
  | nil => simp [occursInChars]
  | cons c rest ih => rw [occursInChars, or_eq_true, ih, isPrefixOf_iff_prefix, infix_cons_iff]

/-- What the plan of a frame is decided from besides its topology and its packets, and the protocols that it encodes. -/
structure Plan.Basis where
  switches : Switches
  failures : Document
  encoded : List (Name × List Protocol)

/-- The plan of a frame is the one that is decided for its topology and its packets. -/
abbrev Frame.IsDecided (f : Frame) (basis : Plan.Basis) : Prop :=
  Plan.Decides basis.switches f.topology f.space basis.failures basis.encoded f.plan

theorem Frame.isDecided {switches : Switches} {failures : Document}
    (h : Plan.compute switches f.topology f.space failures = .ok f.plan) :
    ∃ encoded, f.IsDecided ⟨switches, failures, encoded⟩ := Plan.compute_decides h

/-! ## §2. Attributes -/

namespace Record

variable {name name' : String} {router' : Name} {history history' : Option (Enumeration Protocol)}

theorem numberIf_eq_none : numberIf wanted name a = none ↔ wanted = false := by
  cases wanted <;> simp [numberIf]

theorem internalIf_eq_none : internalIf wanted name = none ↔ wanted = false := by
  cases wanted <;> simp [internalIf]

theorem typeIf_eq_none : typeIf wanted name = none ↔ wanted = false := by
  cases wanted <;> simp [typeIf]

theorem planned_ospfType {e : Enumeration OspfType} (he : (planned f name router p history).ospfType = some e) :
    e = .planned (name ++ "_ospfType") OspfType.all := by
  have he : typeIf _ name = some e := he
  unfold typeIf at he
  split at he
  · exact (Option.some.inj he).symm
  · cases he

theorem planned_holdsType : (planned f name router p history).HoldsType := by
  intro e he
  have hwidth : Enumeration.widthFor OspfType.all.length = 2 := by decide
  rw [planned_ospfType he]
  simp [Enumeration.planned, hwidth]

/-- Whether records of a shape have a number. -/
def Shape.models (s : Shape) : IntAttribute → Bool
  | .prefixLength => true
  | .adminDist => s.adminDist
  | .localPref => s.localPref
  | .metric => s.metric
  | .med => s.med
  | .routerId => false

def shapeAt (f : Frame) (name : String) (router : Name) (p : Protocol) : Shape :=
  shapeFor f.plan (f.planFor router) p (unused name p).isOverall

theorem planned_int? (ha : a ≠ .routerId) :
    (planned f name router p history).int? a = numberIf ((shapeAt f name router p).models a) name a := by
  cases a with
  | routerId => exact absurd rfl ha
  | _ => rfl

theorem planned_covers {q : Protocol}
    (hnumber : ∀ a, (shapeAt f name' router' q).models a → (shapeAt f name router p).models a)
    (htype : (shapeAt f name' router' q).ospfType → (shapeAt f name router p).ospfType) :
    (planned f name router p history).Covers (planned f name' router' q history') := by
  constructor
  · intro a ha h
    rw [planned_int? ha, numberIf_eq_none] at h ⊢
    exact eq_false_iff.2 fun h' => eq_false_iff.1 h (hnumber a h')
  · intro h
    have h := typeIf_eq_none.1 (show typeIf _ name = none from h)
    exact typeIf_eq_none.2 (eq_false_iff.2 fun h' => eq_false_iff.1 h (htype h'))

/-- Records of a protocol model the same attributes. -/
theorem planned_covers_same (hp : p ≠ .best) :
    (planned f name router p history).Covers (planned f name' router' p history') := by
  refine planned_covers ?_ ?_
  · intro a h
    cases p with
    | best => exact absurd rfl hp
    | _ => cases a <;> exact h
  · intro h
    cases p with
    | best => exact absurd rfl hp
    | _ => exact h

theorem planned_best_covers (hp : p ≠ .best) (hmem : p ∈ (f.planFor router).protocolList) :
    (planned f name router .best history).Covers (planned f name' router p history') := by
  refine planned_covers ?_ ?_
  · intro a h
    cases a with
    | prefixLength => rfl
    | metric => rfl
    | routerId => exact h
    | adminDist =>
      have h : f.plan.keepAdminDist := by
        cases p with
        | best => exact absurd rfl hp
        | _ => exact h
      simp [shapeAt, shapeFor, Shape.models, h]
    | localPref =>
      cases p with
      | best => exact absurd rfl hp
      | bgp => exact h
      | ospf => exact h
      | connected => cases h
      | static => cases h
    | med =>
      cases p with
      | best => exact absurd rfl hp
      | bgp => exact h
      | _ => cases h
  · intro h
    cases p with
    | best => exact absurd rfl hp
    | ospf =>
      have h : f.plan.keepOspfType := h
      have hospf : (f.planFor router).protocolList.contains .ospf := contains_iff_mem.2 hmem
      show ((f.planFor router).protocolList.contains .ospf && f.plan.keepOspfType)
      rw [hospf, h, Bool.and_self]
    | _ => cases h

theorem planned_bgpInternal :
    (planned f name router p history).bgpInternal =
      internalIf ((p == .bgp || p == .best) && (f.planFor router).needsBgpInternal) name := by
  cases p <;> rfl

end Record

/-! ## §3. Looking up records -/

namespace Frame

variable {rs : List Redistribution} {name : Name}

theorem find?_map_bestRecords {names : List Name} (h : name ∈ names) :
    (names.map f.bestRecords).find? (fun b => b.router == name) = some (f.bestRecords name) := by
  induction names with
  | nil => cases h
  | cons m rest ih =>
    rw [map_cons]
    by_cases hm : m = name
    · subst hm
      exact find?_cons_of_pos (beq_self_eq_true m)
    · rw [find?_cons_of_neg (by simpa [bestRecords] using hm)]
      exact ih ((mem_cons.1 h).resolve_left (Ne.symm hm))

theorem slice_bestsOf? (h : name ∈ f.topology.names) :
    (f.slice rs).bestsOf? name = some (f.bestRecords name) := find?_map_bestRecords h

theorem slice_overall (h : name ∈ f.topology.names) :
    (f.slice rs).overall name = .ok (f.bestRecord name "OVERALL" .best) := by
  rw [Slice.overall, slice_bestsOf? h]
  rfl

theorem eq_overall (h : name ∈ f.topology.names) {best : Record} (hbest : (f.slice rs).overall name = .ok best) :
    best = f.bestRecord name "OVERALL" .best :=
  Except.ok.inj (hbest.symm.trans (slice_overall h))

theorem slice_bestOf (h : name ∈ f.topology.names) (hp : p ∈ f.protocols name) :
    (f.slice rs).bestOf name p =
      .ok (if f.isSingle name then f.bestRecord name "OVERALL" .best else f.bestRecord name p.label p) := by
  rw [Slice.bestOf, slice_bestsOf? h]
  show (if f.isSingle name then Except.ok _ else _) = _
  cases hs : f.isSingle name with
  | true => rfl
  | false =>
    have hlookup : (f.bestRecords name).perProtocol.lookup p = some (f.bestRecord name p.label p) := by
      show (if f.isSingle name then [] else _ : List (Protocol × Record)).lookup p = _
      rw [hs]
      exact lookup_graph _ hp
    simp only [hlookup]
    rfl

theorem mem_allLanes :
    m ∈ f.allLanes ↔ ∃ d ∈ f.plan.routers, ∃ q ∈ d.protocols, ∃ e ∈ f.usedEdges d.router q.protocol,
      f.laneOf d.router q e = m := by
  simp only [allLanes, protocolLanes, mem_flatMap, mem_map]

theorem exportRecord_planned (router : Name) (plan : ProtocolPlan) (e : Edge) :
    ∃ label, f.exportRecord router plan e = .planned f label router plan.protocol := by
  unfold exportRecord sharedExport
  split
  · exact ⟨_, rfl⟩
  · exact ⟨_, rfl⟩

theorem importRecord_name : (f.importRecord router plan e).name = f.importName router plan.protocol e := by
  unfold importRecord
  split <;> rfl

theorem incoming_name (hm : m ∈ f.allLanes) : m.incoming.name = f.importName m.router m.protocol m.edge := by
  obtain ⟨d, -, q, -, e, -, rfl⟩ := mem_allLanes.1 hm
  exact importRecord_name

theorem importRecord_eq (hused : (f.importRecord router plan e).used) :
    plan.mergedImports.contains e = false ∧
      f.importRecord router plan e = .planned f (f.importName router plan.protocol e) router plan.protocol := by
  unfold importRecord at hused ⊢
  split at hused
  next => cases hused
  next h => exact ⟨eq_false_iff.2 h, if_neg h⟩

theorem importRecord_of_unused (hused : (f.importRecord router plan e).used = false) :
    plan.mergedImports.contains e ∧
      f.importRecord router plan e = .unused (f.importName router plan.protocol e) plan.protocol := by
  unfold importRecord at hused ⊢
  split at hused
  next h => exact ⟨h, if_pos h⟩
  next => exact absurd hused (by simp [Record.planned])

theorem outgoing_planned (hm : m ∈ f.allLanes) :
    ∃ label, m.outgoing = .planned f label m.router m.protocol none := by
  obtain ⟨d, -, q, -, e, -, rfl⟩ := mem_allLanes.1 hm
  exact exportRecord_planned d.router q e

/-- An import has a record of its own, unless it uses the one at the other side. -/
theorem incoming_planned (hm : m ∈ f.allLanes) (hused : m.incoming.used) :
    ∃ label, m.incoming = .planned f label m.router m.protocol none := by
  obtain ⟨d, -, q, -, e, -, rfl⟩ := mem_allLanes.1 hm
  exact ⟨_, (importRecord_eq hused).2⟩

theorem mem_opposite {m' : Lane} (h : (f.slice rs).opposite? m = some m') :
    m' ∈ f.allLanes ∧ m'.protocol = m.protocol ∧
      ∃ back, m.edge.reverse? = some back ∧ m'.router = back.router ∧ (m'.edge == back) := by
  unfold Slice.opposite? at h
  split at h
  next => cases h
  next back hback =>
    have hprop := find?_some h
    simp only [and_eq_true, beq_iff_eq] at hprop
    exact ⟨mem_of_find?_eq_some h, hprop.1.2, back, hback, hprop.1.1, hprop.2⟩

/-- What is received over a lane is in its own record, or in the one that the other side sends. -/
theorem incoming_cases {x : Record} (h : (f.slice rs).incoming m = .ok x) :
    m.incoming.used ∧ x = m.incoming ∨
      m.incoming.used = false ∧ ∃ m', (f.slice rs).opposite? m = some m' ∧ x = m'.outgoing := by
  unfold Slice.incoming at h
  split at h
  next hused => exact .inl ⟨hused, (Except.ok.inj h).symm⟩
  next hunused =>
    split at h
    next m' hm' => exact .inr ⟨eq_false_iff.2 hunused, m', hm', (Except.ok.inj h).symm⟩
    next => cases h

theorem slice_incoming {x : Record} (hm : m ∈ f.allLanes) (h : (f.slice rs).incoming m = .ok x) :
    ∃ label router, x = .planned f label router m.protocol := by
  rcases incoming_cases h with ⟨hused, rfl⟩ | ⟨-, m', hm', rfl⟩
  · obtain ⟨d, -, q, -, e, -, rfl⟩ := mem_allLanes.1 hm
    exact ⟨_, _, (importRecord_eq hused).2⟩
  · obtain ⟨hmem, hprotocol, -⟩ := mem_opposite hm'
    obtain ⟨d, -, q, -, e, -, rfl⟩ := mem_allLanes.1 hmem
    obtain ⟨label, hlabel⟩ := exportRecord_planned (f := f) d.router q e
    exact ⟨label, d.router, hprotocol ▸ hlabel⟩

end Frame

theorem Slice.mem_lanesOf {s : Slice} {l : Lane} :
    l ∈ s.lanesOf router p ↔ l ∈ s.lanes ∧ l.router = router ∧ l.protocol = p := by
  unfold lanesOf
  rw [mem_filter]
  simp only [and_eq_true, beq_iff_eq]

end ControlPlane
