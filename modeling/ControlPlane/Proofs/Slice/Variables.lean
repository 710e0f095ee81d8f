import ControlPlane.Proofs.Slice.Requirements
import ControlPlane.Proofs.Slice.Shape
import ControlPlane.Proofs.Topology.Edges
import ControlPlane.Proofs.Transfer.Relation

/-!
# The variables that a slice is about

The records of a slice consist of variables that the frame declares, and so do the terms about the packet, the
links and the access lists.  What is said about a slice is therefore told by the values of `Frame.layoutVariables`.

* `Frame.mem_outgoing`, `Frame.mem_incoming`, `Frame.mem_overall`, `Frame.mem_announcement`: the records of
  lanes, best routes and announcements are records of the slice.
-/
namespace ControlPlane

open List Term Option Enumeration Topology

variable {made wanted : Bool} {values : List α} {router : Name} {history : Option (Enumeration Protocol)} {p : Protocol}
  {name : String} {v w : Valuation} {xs : List Variable} {f : Frame} {x : Record}

/-! ## §1. Records that consist of variables -/

section Fixed

variable {ty : Ty}

theorem Term.over_of_variable? {t : Term ty} {x : Variable} (h : t.variable? = some x) (hx : x ∈ xs) : t.Over xs := by
  cases t with
  | boolVar name =>
    cases h
    exact within_boolVar.2 hx
  | intVar name =>
    cases h
    exact within_intVar.2 hx
  | bitsVar name width =>
    cases h
    exact within_bitsVar.2 hx
  | _ => exact absurd h (by simp [ Term.variable?])

/-- If there is a term, it is a variable. -/
def Record.IsVariable (t : Option (Term ty)) : Prop := ∀ s, t = some s → s.variable?.isSome

theorem Record.IsVariable.over {t : Option (Term ty)} (h : IsVariable t) (hs : optional t ⊆ xs) {s : Term ty}
    (ht : t = some s) : s.Over xs := by
  obtain ⟨x, hx⟩ := isSome_iff_exists.1 (h s ht)
  refine over_of_variable? hx (hs ?_)
  simp [optional, ht, hx]

theorem Record.isVariable_ite {t : Term ty} (ht : t.variable?.isSome) :
    IsVariable (if wanted then some t else none) := by
  intro s hs
  split at hs
  · exact Option.some.inj hs ▸ ht
  · cases hs

variable {α : Type}

theorem Enumeration.isVariable_planned : Record.IsVariable (planned name values).bits := by
  intro s hs
  unfold planned at hs
  split at hs
  · cases hs
  · cases hs
    rfl

/-- The bits of an enumeration mention given variables only. -/
def Enumeration.Over (xs : List Variable) (e : Enumeration α) : Prop := ∀ b, e.bits = some b → b.Over xs

theorem Term.map_frozen_of_over {t : Option (Term ty)} (h : ∀ s, t = some s → s.Over xs) (hvw : v.AgreesOn w xs) :
    t.map (Term.frozen v) = t.map (Term.frozen w) :=
  map_congr fun s hs => frozen_eq_iff.2 ((h s hs).eval_eq v w hvw)

theorem Enumeration.map_frozen_of_over {e : Option (Enumeration α)} (h : ∀ d, e = some d → d.Over xs)
    (hvw : v.AgreesOn w xs) : e.map (frozen v) = e.map (frozen w) := by
  refine Option.map_congr fun d hd => ?_
  unfold frozen
  rw [Term.map_frozen_of_over (h d hd) hvw]

end Fixed

namespace Record

/-- Records as `Record.create` lays them out. -/
def IsPlanned (f : Frame) (x : Record) : Prop :=
  ∃ name router p history, x = planned f name router p history ∧
    ∀ e, history = some e → ∃ label values, e = .planned label values

theorem IsPlanned.keepAdminDist {f : Frame} {x : Record} (hx : x.IsPlanned f) (hnone : x.adminDist = none) :
    f.plan.keepAdminDist = false := by
  obtain ⟨label, router, p, history, rfl, -⟩ := hx
  have hnone : numberIf _ label .adminDist = none := hnone
  rw [numberIf_eq_none] at hnone
  cases p with
  | best => exact (Bool.or_eq_false_iff.1 hnone).2
  | _ => exact hnone

/-- All that a record consists of mentions given variables only. -/
structure AllOver (xs : List Variable) (x : Record) : Prop where
  permitted : ∀ t, x.permitted = some t → t.Over xs
  number : ∀ a t, x.int? a = some t → t.Over xs
  internal : ∀ t, x.bgpInternal = some t → t.Over xs
  area : ∀ e, x.ospfArea = some e → e.Over xs
  type : ∀ e, x.ospfType = some e → e.Over xs
  history : ∀ e, x.history = some e → e.Over xs
  community : ∀ e ∈ x.communities, e.2.Over xs

/-- **The variables of a record fix the record.** -/
theorem AllOver.sameValues (hall : x.AllOver xs) (hvw : v.AgreesOn w xs) : SameValues v w x x := by
  have hnumber := fun a => map_frozen_of_over (hall.number a) hvw
  have hcommunities : (x.communities.map fun e => (e.1, e.2.frozen v)) =
      x.communities.map fun e => (e.1, e.2.frozen w) :=
    map_congr_left fun e he => by rw [frozen_eq_iff.2 ((hall.community e he).eval_eq v w hvw)]
  unfold SameValues frozen
  simp only [Record.mk.injEq, true_and]
  exact ⟨map_frozen_of_over hall.permitted hvw, hnumber .prefixLength, hnumber .adminDist, hnumber .localPref,
    hnumber .metric, hnumber .med, hnumber .routerId, map_frozen_of_over hall.internal hvw,
    map_frozen_of_over hall.area hvw, map_frozen_of_over hall.type hvw,
    map_frozen_of_over hall.history hvw, hcommunities⟩

/-- The variables of a record are declared. -/
theorem declarations_sub (hs : x.declarations ⊆ xs) :
    optional x.permitted ⊆ xs ∧ (∀ a, optional (x.int? a) ⊆ xs) ∧ optional x.bgpInternal ⊆ xs ∧
      (x.ospfType.map Enumeration.declarations).getD [] ⊆ xs ∧
      (x.ospfArea.map Enumeration.declarations).getD [] ⊆ xs ∧
      (x.history.map Enumeration.declarations).getD [] ⊆ xs ∧
      ∀ e ∈ x.communities, optional (some e.2) ⊆ xs := by
  unfold declarations ownDeclarations at hs
  simp only [append_subset] at hs
  obtain ⟨hhistory, hpermitted, hlength, hmetric, hlocal, hdistance, hmed, hinternal, htype, harea, hid, hcs⟩ := hs
  exact ⟨hpermitted, IntAttribute.forall_iff.2 ⟨hlength, hdistance, hlocal, hmetric, hmed, hid⟩, hinternal,
    htype, harea,
    hhistory, fun e he z hz => hcs (mem_flatMap.2 ⟨e, he, hz⟩)⟩

theorem planned_int?_isVariable (a : IntAttribute) : IsVariable ((planned f name router p history).int? a) := by
  cases a with
  | prefixLength =>
    intro s hs
    cases hs
    rfl
  | _ => exact isVariable_ite rfl

theorem planned_community_isVariable {e : Community × Term .bool}
    (he : e ∈ (planned f name router p history).communities) : IsVariable (some e.2) := by
  have he : e ∈ communitiesOf f (f.planFor router) name p := he
  intro s hs
  cases hs
  unfold communitiesOf at he
  split at he
  · obtain ⟨c, -, rfl⟩ := mem_map.1 he
    rfl
  · cases he

namespace IsPlanned

variable (h : x.IsPlanned f)
include h

theorem holdsType : x.HoldsType := by
  obtain ⟨name, router, p, history, rfl, -⟩ := h
  exact planned_holdsType

theorem listsTypes : x.ListsTypes := by
  obtain ⟨name, router, p, history, rfl, -⟩ := h
  intro e he
  rw [planned_ospfType he]
  exact planned_values _ _

theorem fit (hf : f.communities.Nodup) : x.Fit := by
  obtain ⟨name, router, p, history, rfl, -⟩ := h
  show ((communitiesOf f (f.planFor router) name p).map Prod.fst).Nodup
  unfold communitiesOf
  split
  · rw [List.map_map]
    show (f.communities.map id).Nodup
    rw [List.map_id]
    exact hf
  · exact nodup_nil

theorem enumerations : (∀ e, x.ospfArea = some e → ∃ name values, e = .planned name values) ∧
    (∀ e, x.ospfType = some e → ∃ name values, e = .planned name values) ∧
    ∀ e, x.history = some e → ∃ name values, e = .planned name values := by
  obtain ⟨name, router, p, history, rfl, hhistory⟩ := h
  refine ⟨fun e he => ?_, fun e he => ⟨_, _, planned_ospfType he⟩, hhistory⟩
  have he : areaOf name _ = some e := he
  unfold areaOf at he
  split at he
  · exact ⟨_, _, (Option.some.inj he).symm⟩
  · cases he

/-- **Every attribute of a planned record is one of its variables.** -/
theorem allOver (hs : x.declarations ⊆ xs) : x.AllOver xs := by
  have henumeration {α : Type} {d : Option (Enumeration α)} (hd : (d.map Enumeration.declarations).getD [] ⊆ xs)
      (hplanned : ∀ e, d = some e → ∃ name values, e = .planned name values) (e : Enumeration α) (he : d = some e) :
      e.Over xs := by
    obtain ⟨label, values, rfl⟩ := hplanned e he
    rw [he] at hd
    exact fun _ hb => isVariable_planned.over hd hb
  obtain ⟨harea, htype, hhistory⟩ := h.enumerations
  obtain ⟨name, router, p, history, rfl, -⟩ := h
  obtain ⟨hpermitted, hnumbers, hinternal, htypes, hareas, hhist, hcs⟩ := declarations_sub hs
  refine ⟨fun t ht => ?_, fun a t ht => (planned_int?_isVariable a).over (hnumbers a) ht,
    fun t ht => (isVariable_ite rfl).over hinternal ht, henumeration hareas harea, henumeration htypes htype,
    henumeration hhist hhistory, fun e he => (planned_community_isVariable he).over (hcs e he) rfl⟩
  cases ht
  exact within_boolVar.2 (hpermitted (by simp [optional, planned, Term.variable?]))

/-- What transfers read of a planned record is one of its variables, too. -/
theorem isOver (hs : x.declarations ⊆ xs) : x.Over xs := by
  have hall := h.allOver hs
  have htype := h.holdsType
  refine ⟨hall.number, hall.community, ?_, fun v => ?_, fun e b he hb => hall.history e he b hb⟩
  · unfold Transfer.ospfBits
    cases he : x.ospfType with
    | none => exact OspfType.over_literal .O
    | some e =>
      obtain ⟨b, hb⟩ := isSome_iff_exists.1 (htype e he)
      rw [map_some, Enumeration.ospfBits, hb]
      exact hall.type e he b hb
  · -- an OSPF type is a variable of two bits
    obtain ⟨name, router, p, history, rfl, -⟩ := h
    unfold Transfer.ospfBits
    cases he : (planned f name router p history).ospfType with
    | none => exact OspfType.eval_literal v .O ▸ OspfType.rank_lt .O
    | some e =>
      rw [planned_ospfType he]
      exact Nat.mod_lt _ (by decide)

theorem sameValues (hvw : v.AgreesOn w x.declarations) : SameValues v w x x :=
  (h.allOver (List.Subset.refl _)).sameValues hvw

end IsPlanned

end Record

/-! ## §2. The records of a slice -/

namespace Frame

variable {rs : List Redistribution} {plan : ProtocolPlan} {e : Edge} {es : List Edge} {m : Lane}

/-- The records of a slice: of best routes, of lanes, and of what comes from outside. -/
def records (f : Frame) : List Record := f.allBestRecords ++ f.allLaneRecords ++ f.announcements.map (·.2)

theorem exportRecord_isPlanned : (f.exportRecord router plan e).IsPlanned f := by
  obtain ⟨label, h⟩ := exportRecord_planned (f := f) router plan e
  exact ⟨label, router, plan.protocol, none, h, nofun⟩

theorem exportRecord_mem (he : e ∈ es) : f.exportRecord router plan e ∈ f.newRecords router plan false es := by
  cases hm : plan.mergesExport with
  | true =>
    -- the first edge makes the record that all share
    cases es with
    | nil => cases he
    | cons d rest =>
      have hshared : f.exportRecord router plan e = f.exportRecord router plan d := by
        unfold exportRecord
        rw [hm, if_pos rfl, if_pos rfl]
      rw [hshared]
      simp [newRecords]
  | false =>
    induction es with
    | nil => cases he
    | cons d rest ih =>
      rw [newRecords, hm]
      rcases mem_cons.1 he with rfl | he
      · simp
      · exact mem_append_right _ (ih he)

theorem importRecord_mem (he : e ∈ es) (hused : (f.importRecord router plan e).used) :
    f.importRecord router plan e ∈ f.newRecords router plan made es := by
  induction es generalizing made with
  | nil => cases he
  | cons d rest ih =>
    rcases mem_cons.1 he with rfl | he
    · refine mem_append_left _ (mem_append_right _ ?_)
      rw [ownImport, (importRecord_eq hused).1]
      exact mem_singleton_self _
    · exact mem_append_right _ (ih he)

/-- A new record of a lane is the one that it sends from or the one that it receives into. -/
theorem mem_newRecords (hx : x ∈ f.newRecords router plan made es) : ∃ e ∈ es,
    (made && plan.mergesExport) = false ∧ x = f.exportRecord router plan e ∨
      plan.mergedImports.contains e = false ∧ x = f.importRecord router plan e := by
  induction es generalizing made with
  | nil => cases hx
  | cons d rest ih =>
    rw [newRecords, mem_append, mem_append] at hx
    rcases hx with (hx | hx) | hx
    · split at hx
      next => cases hx
      next hmade => exact ⟨d, mem_cons_self, .inl ⟨by rw [Bool.eq_false_iff.2 hmade]; rfl, mem_singleton.1 hx⟩⟩
    · unfold ownImport at hx
      split at hx
      next => cases hx
      next hmerged => exact ⟨d, mem_cons_self, .inr ⟨Bool.eq_false_iff.2 hmerged, mem_singleton.1 hx⟩⟩
    · obtain ⟨e, he, hx⟩ := ih hx
      rw [Bool.and_self] at hx
      exact ⟨e, mem_cons_of_mem _ he, hx.imp_left fun h => ⟨by rw [h.1, Bool.and_false], h.2⟩⟩

theorem newRecords_isPlanned (hx : x ∈ f.newRecords router plan made es) : x.IsPlanned f := by
  obtain ⟨e, -, ⟨-, rfl⟩ | ⟨hmerged, rfl⟩⟩ := mem_newRecords hx
  · exact exportRecord_isPlanned
  · rw [importRecord, hmerged]
    exact ⟨_, router, plan.protocol, none, rfl, nofun⟩

theorem announcementOf_eq {y : Lane × Record} (h : f.announcementOf m = some y) :
    m.protocol = .bgp ∧ m.edge.far = none ∧ ∃ neighbor, f.topology.session? m.edge = some neighbor ∧
      y = (m, .planned f (f.recordName m.router Protocol.bgp.label ("ENV-" ++ neighbor.address.dotted) "EXPORT")
        m.router .bgp) := by
  unfold announcementOf at h
  split at h
  next neighbor hp hfar hsession => exact ⟨hp, hfar, neighbor, hsession, (Option.some.inj h).symm⟩
  next => cases h

/-- Only BGP is told routes from outside of the network. -/
theorem announcement_none {rs : List Redistribution} (hp : m.protocol ≠ .bgp) :
    (f.slice rs).announcement? m = none := by
  refine Option.map_eq_none_iff.2 (find?_eq_none.2 fun y hy hsame => ?_)
  obtain ⟨l, -, hl⟩ := mem_filterMap.1 (show y ∈ f.announcements from hy)
  obtain ⟨hbgp, -, neighbor, -, rfl⟩ := announcementOf_eq hl
  simp only [Lane.sameAs, Bool.and_eq_true, beq_iff_eq] at hsame
  exact hp (hsame.1.2.symm.trans hbgp)

theorem outgoing_mem_laneRecords (hm : m ∈ f.allLanes) : m.outgoing ∈ f.allLaneRecords := by
  obtain ⟨d, hd, q, hq, e, he, rfl⟩ := mem_allLanes.1 hm
  exact mem_flatMap.2 ⟨d, hd, mem_flatMap.2 ⟨q, hq, exportRecord_mem he⟩⟩

theorem mem_outgoing (hm : m ∈ f.allLanes) : m.outgoing ∈ f.records :=
  mem_append_left _ (mem_append_right _ (outgoing_mem_laneRecords hm))

theorem incoming_mem_laneRecords (hm : m ∈ f.allLanes) (hused : m.incoming.used) :
    m.incoming ∈ f.allLaneRecords := by
  obtain ⟨d, hd, q, hq, e, he, rfl⟩ := mem_allLanes.1 hm
  exact mem_flatMap.2 ⟨d, hd, mem_flatMap.2 ⟨q, hq, importRecord_mem he hused⟩⟩

theorem mem_incoming (hm : m ∈ f.allLanes) (hused : m.incoming.used) : m.incoming ∈ f.records :=
  mem_append_left _ (mem_append_right _ (incoming_mem_laneRecords hm hused))

/-- The three kinds of records. -/
theorem mem_records (hx : x ∈ f.records) : x ∈ f.allBestRecords ∨
    (∃ l ∈ f.allLanes, x = l.outgoing ∨ l.incoming.used ∧ x = l.incoming) ∨ ∃ a ∈ f.announcements, x = a.2 := by
  unfold records at hx
  rw [mem_append, mem_append] at hx
  rcases hx with (hx | hx) | hx
  · exact .inl hx
  · obtain ⟨d, hd, hx⟩ := mem_flatMap.1 hx
    obtain ⟨q, hq, hx⟩ := mem_flatMap.1 hx
    obtain ⟨e, he, hx⟩ := mem_newRecords hx
    refine .inr (.inl ⟨f.laneOf d.router q e, mem_allLanes.2 ⟨d, hd, q, hq, e, he, rfl⟩, hx.imp And.right fun hown =>
      ⟨?_, hown.2⟩⟩)
    show (f.importRecord d.router q e).used
    rw [importRecord, hown.1]
    rfl
  · obtain ⟨a, ha, rfl⟩ := mem_map.1 hx
    exact .inr (.inr ⟨a, ha, rfl⟩)

/-- No record is both sent from and received into. -/
theorem outgoing_name_ne {l : Lane} (hl : l ∈ f.allLanes) (hm : m ∈ f.allLanes) :
    m.incoming.name ≠ l.outgoing.name := by
  have hends : ∀ a b : String, a ++ "IMPORT" ≠ b ++ "EXPORT" := by
    intro a b h
    have h := congrArg String.toList h
    rw [String.toList_append, String.toList_append] at h
    exact absurd (append_inj' h rfl).2 (by decide)
  obtain ⟨d, -, q, -, e, -, rfl⟩ := mem_allLanes.1 hl
  show m.incoming.name ≠ (f.exportRecord d.router q e).name
  rw [incoming_name hm]
  unfold exportRecord
  split
  · have hshared : f.recordName d.router q.protocol.label "" "SINGLE-EXPORT" =
        f.name ++ d.router.shown ++ "_" ++ q.protocol.label ++ "_" ++ "" ++ "_" ++ "SINGLE-" ++ "EXPORT" := by
      have hkind : "SINGLE-EXPORT" = "SINGLE-" ++ "EXPORT" := by decide
      rw [recordName, hkind, ← String.append_assoc]
    show _ ≠ f.recordName d.router q.protocol.label "" "SINGLE-EXPORT"
    rw [hshared]
    exact hends _ _
  · exact hends _ _

theorem mem_overall (h : router ∈ f.topology.names) :
    f.bestRecord router "OVERALL" .best ∈ f.records :=
  mem_append_left _ (mem_append_left _ (mem_flatMap.2 ⟨router, h, mem_cons_self⟩))

theorem mem_perProtocol {y : Protocol × Record} : y ∈ (f.bestRecords router).perProtocol ↔
    f.isSingle router = false ∧ ∃ p ∈ f.protocols router, (p, f.bestRecord router p.label p) = y := by
  show y ∈ (if f.isSingle router then [] else _ : List (Protocol × Record)) ↔ _
  cases f.isSingle router <;> simp

theorem bestRecord_mem (hs : f.isSingle router = false) (hp : p ∈ f.protocols router) :
    f.bestRecord router p.label p ∈ (f.bestRecords router).records :=
  mem_cons_of_mem _ (mem_map.2 ⟨_, mem_perProtocol.2 ⟨hs, p, hp, rfl⟩, rfl⟩)

theorem mem_announcement (h : (f.slice rs).announcement? m = some x) :
    x ∈ f.records := by
  obtain ⟨y, hy, rfl⟩ := map_eq_some_iff.1 h
  exact mem_append_right _ (mem_map_of_mem (mem_of_find?_eq_some hy))

theorem mem_across (h : (f.slice rs).across? m .incoming = some x) :
    x ∈ f.records := by
  unfold Slice.across? at h
  split at h
  next m' hopposite =>
    cases h
    exact mem_outgoing (mem_opposite hopposite).1
  next => exact mem_announcement h

/-! ## §3. The variables of a frame -/

/-- All variables that come before those of transfers. -/
def layoutVariables (f : Frame) : List Variable :=
  Encoding.failureVariables f.topology f.tag ++ (f.packet.declarations ++ f.declarations)

theorem declarations_sub_layout : f.declarations ⊆ f.layoutVariables := fun _ h =>
  mem_append_right _ (mem_append_right _ h)

theorem mem_bestRecords (hx : x ∈ (f.bestRecords router).records) :
    x = f.bestRecord router "OVERALL" .best ∨ ∃ p ∈ f.protocols router, x = f.bestRecord router p.label p := by
  rcases mem_cons.1 hx with rfl | hx
  · exact .inl rfl
  · obtain ⟨y, hy, rfl⟩ := mem_map.1 hx
    obtain ⟨-, p, hp, rfl⟩ := mem_perProtocol.1 hy
    exact .inr ⟨p, hp, rfl⟩

/-- **Every record of a slice is a planned one whose variables are declared.** -/
theorem isPlanned_of_mem (hx : x ∈ f.records) :
    x.IsPlanned f ∧ x.declarations ⊆ f.layoutVariables := by
  have hdeclared : ∀ {xs : List Record}, xs.flatMap Record.declarations ⊆ f.declarations → x ∈ xs →
      x.declarations ⊆ f.layoutVariables := fun hs hx z hz =>
    declarations_sub_layout (hs (mem_flatMap.2 ⟨x, hx, hz⟩))
  rcases mem_append.1 hx with hx | hx
  · rcases mem_append.1 hx with hx | hx
    · refine ⟨?_, @hdeclared f.allBestRecords (fun z hz => ?_) hx⟩
      · obtain ⟨router, -, hx⟩ := mem_flatMap.1 hx
        obtain rfl | ⟨p, -, rfl⟩ := mem_bestRecords hx
        all_goals exact ⟨_, router, _, _, rfl, fun _ h => ⟨_, _, (Option.some.inj h).symm⟩⟩
      · exact mem_append_right _ (mem_append_left _ hz)
    · refine ⟨?_, @hdeclared f.allLaneRecords (fun z hz => ?_) hx⟩
      · obtain ⟨d, -, hx⟩ := mem_flatMap.1 hx
        obtain ⟨q, -, hx⟩ := mem_flatMap.1 hx
        exact newRecords_isPlanned hx
      · exact mem_append_right _ (mem_append_right _ (mem_append_left _ hz))
  · refine ⟨?_, @hdeclared (f.announcements.map (·.2)) (fun z hz => ?_) hx⟩
    · obtain ⟨y, hy, rfl⟩ := mem_map.1 hx
      obtain ⟨m, -, hm⟩ := mem_filterMap.1 hy
      obtain ⟨-, -, neighbor, -, rfl⟩ := announcementOf_eq hm
      exact ⟨_, _, _, none, rfl, nofun⟩
    · exact mem_append_right _ (mem_append_right _ (mem_append_right _ (mem_append_right _
        (mem_append_left _ hz))))

/-- The variables of failures and of the packet. -/
def scenarioVariables (f : Frame) : List Variable :=
  Encoding.failureVariables f.topology f.tag ++ f.packet.declarations

/-- The variables of a frame that belong to no record. -/
def commonVariables (f : Frame) : List Variable :=
  Encoding.failureVariables f.topology f.tag ++ (f.packet.declarations ++ (f.forwardingVariables ++
    (f.choiceVariables ++ f.allAccessVariables)))

theorem scenario_sub_common : f.scenarioVariables ⊆ f.commonVariables := by
  intro z hz
  rcases mem_append.1 hz with hz | hz
  · exact mem_append_left _ hz
  · exact mem_append_right _ (mem_append_left _ hz)

/-- The variables of a frame are those of its records and the common ones. -/
theorem layoutVariables_perm : f.layoutVariables.Perm (f.commonVariables ++ f.records.flatMap Record.declarations) := by
  rw [perm_iff_count]
  intro z
  unfold layoutVariables declarations commonVariables records
  simp only [count_append, flatMap_append]
  omega

theorem common_sub_layout : f.commonVariables ⊆ f.layoutVariables := fun _ h =>
  layoutVariables_perm.symm.subset (mem_append_left _ h)

theorem scenario_field (a : PacketField) : (f.packet.field a).Over f.scenarioVariables := by
  refine within_intVar.2 (mem_append_right _ (mem_append_left _ ?_))
  have ha : a ∈ PacketField.all := by cases a <;> decide
  exact mem_map_of_mem (f := fun a => (⟨f.packet.name ++ a.suffix, .int⟩ : Variable)) ha

theorem scenario_flag (a : TcpFlag) : (f.packet.flag a).Over f.scenarioVariables := by
  refine within_boolVar.2 (mem_append_right _ (mem_append_right _ ?_))
  have ha : a ∈ TcpFlag.all := by cases a <;> decide
  exact mem_map_of_mem (f := fun a => (⟨f.packet.name ++ "tcp-" ++ a.label, .bool⟩ : Variable)) ha

theorem over_field (a : PacketField) : (f.packet.field a).Over f.commonVariables :=
  (scenario_field a).mono scenario_sub_common

theorem over_flag (a : TcpFlag) : (f.packet.flag a).Over f.commonVariables :=
  (scenario_flag a).mono scenario_sub_common

theorem over_isBoundFor (subnets : List Subnet) : (f.packet.isBoundFor subnets).Over f.commonVariables := by
  refine within_anyOf.2 fun t ht => ?_
  obtain ⟨s, -, rfl⟩ := mem_map.1 ht
  exact s.over_holdsOf (over_field .dstIp)

theorem failureName_of_key {tag : String} {d e : Edge} (h : Topology.links.key d = Topology.links.key e) :
    failureName tag d = failureName tag e := by
  unfold Topology.links.key at h
  unfold failureName
  cases hd : d.peer? with
  | none =>
    cases he : e.peer? with
    | none =>
      rw [hd, he] at h
      simp only [Prod.mk.injEq, and_true] at h
      rw [h.1, h.2]
    | some p =>
      rw [hd, he] at h
      dsimp only at h
      split at h <;> simp at h
  | some p =>
    cases he : e.peer? with
    | none =>
      rw [hd, he] at h
      dsimp only at h
      split at h <;> simp at h
    | some q =>
      rw [hd, he] at h
      dsimp only at h ⊢
      split at h <;> split at h <;> simp_all

/-- Every edge has a link that stands for it. -/
theorem mem_links {t : Topology} {e : Edge} (he : e ∈ t.sites.flatMap Site.edges) :
    ∃ d ∈ t.links, Topology.links.key d = Topology.links.key e := by
  unfold Topology.links
  generalize t.sites.flatMap Site.edges = es at he
  -- an edge is added unless its link is there, and what is there stays
  suffices h : ∀ acc : List Edge, (e ∈ es ∨ ∃ d ∈ acc, Topology.links.key d = Topology.links.key e) →
      ∃ d ∈ es.foldl (fun acc e => if acc.any fun d => Topology.links.key d == Topology.links.key e then acc
        else acc ++ [e]) acc, Topology.links.key d = Topology.links.key e from h [] (.inl he)
  clear he
  induction es with
  | nil =>
    rintro acc (h | h)
    · cases h
    · exact h
  | cons a rest ih =>
    intro acc h
    rw [foldl_cons]
    refine ih _ ?_
    rcases h with h | ⟨d, hd, hkey⟩
    · rcases mem_cons.1 h with rfl | h
      · refine .inr ?_
        split
        next hany =>
          obtain ⟨d, hd, hkey⟩ := any_eq_true.1 hany
          exact ⟨d, hd, beq_iff_eq.1 hkey⟩
        next => exact ⟨e, mem_append_right _ (mem_singleton_self e), rfl⟩
      · exact .inl h
    · refine .inr ⟨d, ?_, hkey⟩
      split
      · exact hd
      · exact mem_append_left _ hd

theorem scenario_notFailed (he : e ∈ f.topology.edges router) : (f.notFailed e).Over f.scenarioVariables := by
  obtain ⟨site, hsite, -, hmem⟩ := site_of_edge he
  obtain ⟨d, hd, hkey⟩ := mem_links (mem_flatMap.2 ⟨site, hsite, hmem⟩)
  refine Term.Within.eq (within_intVar.2 (mem_append_left _ ?_)) (within_intLit 0)
  rw [← @failureName_of_key f.tag d e hkey]
  exact mem_map_of_mem (f := fun d => (⟨failureName f.tag d, .int⟩ : Variable)) hd

theorem over_notFailed (he : e ∈ f.topology.edges router) : (f.notFailed e).Over f.commonVariables :=
  (scenario_notFailed he).mono scenario_sub_common

/-! ## §4. Forwarding and access lists -/

variable {site : Site}

section

variable (hsite : site ∈ f.topology.sites) (he : e ∈ site.edges)
include hsite he

theorem forwarding_mem :
    ⟨f.name ++ "control-forwarding_" ++ e.router.shown ++ "_" ++ e.interface.shown, .bool⟩ ∈ f.commonVariables ∧
      ⟨f.name ++ "data-forwarding_" ++ e.router.shown ++ "_" ++ e.interface.shown, .bool⟩ ∈ f.commonVariables := by
  have hdeclared : ∀ x ∈ f.forwardingVariables, x ∈ f.commonVariables := fun x hx =>
    mem_append_right _ (mem_append_right _ (mem_append_left _ hx))
  refine ⟨hdeclared _ ?_, hdeclared _ ?_⟩ <;>
    exact mem_flatMap.2 ⟨site, hsite, mem_flatMap.2 ⟨e, he, by simp⟩⟩

theorem over_controlForwarding :
    (f.controlForwarding e).Over f.commonVariables := within_boolVar.2 (forwarding_mem hsite he).1

theorem over_dataForwarding :
    (f.dataForwarding e).Over f.commonVariables := within_boolVar.2 (forwarding_mem hsite he).2

theorem access_mem {x : Variable}
    (hx : x ∈ f.accessVariables e .outgoing e.start.outgoingFilter ++
      f.accessVariables e .incoming e.start.incomingFilter) :
    x ∈ f.commonVariables :=
  mem_append_right _ (mem_append_right _ (mem_append_right _ (mem_append_right _
    (mem_flatMap.2 ⟨site, hsite, mem_flatMap.2 ⟨e, he, hx⟩⟩))))

theorem over_permits (d : Direction) : (f.permits e.router e.start d).Over f.commonVariables := by
  unfold permits
  cases d with
  | incoming =>
    cases hlist : e.start.incomingFilter with
    | none => exact within_yes
    | some list =>
      refine within_boolVar.2 (access_mem hsite he (mem_append_right _ ?_))
      rw [hlist]
      exact mem_singleton_self _
  | outgoing =>
    cases hlist : e.start.outgoingFilter with
    | none => exact within_yes
    | some list =>
      refine within_boolVar.2 (access_mem hsite he (mem_append_left _ ?_))
      rw [hlist]
      exact mem_singleton_self _

end

/-- Whether the packet crosses an edge is said in common variables. -/
theorem over_forwardsAcross {n : Network} {selection : Document}
    (hbuild : Topology.build n selection = .ok f.topology) (he : e ∈ f.topology.edges router) :
    (f.forwardsAcross e).Over f.commonVariables := by
  refine within_allOf.2 fun t ht => ?_
  simp only [mem_cons, not_mem_nil, or_false] at ht
  rcases ht with rfl | rfl
  · obtain ⟨site, hsite, -, hmem⟩ := site_of_edge he
    exact over_dataForwarding hsite hmem
  · unfold permitsArrival
    split
    next peer finish _ =>
      split
      next back hback =>
        have hmem := mem_of_find?_eq_some hback
        have hrouter := edge_router hbuild hmem
        obtain ⟨site, hsite, -, hback⟩ := site_of_edge hmem
        rw [← hrouter]
        exact over_permits hsite hback .incoming
      next => exact within_yes
    next => exact within_yes

end Frame

end ControlPlane
