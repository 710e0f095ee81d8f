import ControlPlane.Proofs.Text.Joined
import ControlPlane.Proofs.Topology.Names

/-!
# The names of records

The name of a record joins its router, its protocol, the place that it is for and its kind.  The place may be any
text, as none of the other parts has an underscore.

* `Frame.Names.inj` takes the name of a record apart.
-/
namespace ControlPlane

open List

variable {made : Bool} {e : Edge} {a b router : Name} {plan : ProtocolPlan} {x : Record}
  {kind kind' label label' place place' : String}

namespace Frame

variable {f : Frame}

/-! ## §1. The parts of a name -/

theorem recordName_inj (ha : '_' ∉ a.shown.toList) (hb : '_' ∉ b.shown.toList) (hlabel : '_' ∉ label.toList)
    (hlabel' : '_' ∉ label'.toList) (hkind : '_' ∉ kind.toList) (hkind' : '_' ∉ kind'.toList)
    (h : f.recordName a label place kind = f.recordName b label' place' kind') :
    a.shown = b.shown ∧ label = label' ∧ place = place' ∧ kind = kind' := by
  obtain ⟨hfront, hkinds⟩ := joined_inj_right hkind hkind' h
  have hfront : f.name ++ a.shown ++ "_" ++ (label ++ "_" ++ place) =
      f.name ++ b.shown ++ "_" ++ (label' ++ "_" ++ place') := by
    simpa only [String.append_assoc] using hfront
  obtain ⟨hrouters, hrest⟩ := labelled_inj ha hb hfront
  obtain ⟨hlabels, hplaces⟩ := joined_inj hlabel hlabel' hrest
  exact ⟨hrouters, hlabels, hplaces, hkinds⟩

structure Names (f : Frame) (name : String) (router : Name) (label place kind : String) : Prop where
  eq : name = f.recordName router label place kind
  router : router ∈ f.topology.names
  label : '_' ∉ label.toList
  kind : '_' ∉ kind.toList

theorem Names.inj {name name' : String} (hn : f.Names name a label place kind) (h : f.topology.TellsNames)
    (hn' : f.Names name' b label' place' kind') (heq : name = name') :
    a = b ∧ label = label' ∧ place = place' ∧ kind = kind' := by
  obtain ⟨hrouters, hrest⟩ := recordName_inj (h.plain_shown hn.router) (h.plain_shown hn'.router) hn.label hn'.label
    hn.kind hn'.kind (hn.eq.symm.trans (heq.trans hn'.eq))
  exact ⟨h.name_of_shown hn.router hn'.router hrouters, hrest⟩

theorem plain_label (p : Protocol) : '_' ∉ p.label.toList := by cases p <;> decide

theorem label_inj {p q : Protocol} (h : p.label = q.label) : p = q := by
  revert h
  cases p <;> cases q <;> decide

/-! ## §2. Plans -/

/-- The decisions of a plan are in the order of routers, and name no protocol twice. -/
structure PlansOnce (f : Frame) : Prop where
  routers : f.plan.routers.map RouterPlan.router = f.topology.names
  protocols : ∀ d ∈ f.plan.routers, d.protocolList.Nodup

theorem plansOnce_of_compute {s : Switches} {failures : Document}
    (hplan : Plan.compute s f.topology f.space failures = .ok f.plan) : f.PlansOnce := by
  obtain ⟨encoded, hdecides⟩ := Plan.compute_decides hplan
  constructor
  · have hnames : f.topology.routers.map Router.name = f.topology.names := by
      unfold Topology.names Topology.routers
      rw [map_map]
      rfl
    rw [← hnames, eq_comm, ← forall₂_eq_eq_eq, forall₂_map_left_iff, forall₂_map_right_iff]
    exact hdecides.routers.imp fun r d hd => hd.router.symm
  · intro d hd
    obtain ⟨r, -, hdr⟩ := forall₂_mem_right hdecides.routers hd
    rw [← hdr.protocolList]
    cases hlookup : encoded.lookup r.name with
    | none => exact nodup_nil
    | some ps =>
      obtain ⟨r', -, hps⟩ := exists_of_mem_mapM hdecides.running (mem_of_lookup_eq_some hlookup)
      obtain ⟨ps', hps', hpair⟩ := bind_eq_ok.1 hps
      obtain ⟨-, rfl⟩ := Prod.mk.inj (pure_eq_ok.1 hpair)
      obtain ⟨-, rfl⟩ := Plan.filterM_eq_ok hps'
      exact Nodup.filter _ (show Protocol.encodingOrder.Nodup by decide)

theorem PlansOnce.protocols_nodup (h : f.PlansOnce) (router : Name) : (f.protocols router).Nodup := by
  unfold Frame.protocols Plan.protocolsOf
  cases hplan : f.plan.router? router with
  | none => exact nodup_nil
  | some d => exact h.protocols d (mem_of_find?_eq_some hplan)

theorem PlansOnce.router_mem (h : f.PlansOnce) {d : RouterPlan} (hd : d ∈ f.plan.routers) :
    d.router ∈ f.topology.names :=
  h.routers ▸ mem_map_of_mem hd

/-! ## §3. The names of single records -/

section Names

variable {es : List Edge}

section

variable (hrouter : router ∈ f.topology.names)
include hrouter

theorem best_names (hx : x ∈ (f.bestRecords router).records) : ∃ label, f.Names x.name router label "none" "BEST" := by
  obtain rfl | ⟨p, -, rfl⟩ := mem_bestRecords hx
  · exact ⟨"OVERALL", rfl, hrouter, by decide, by decide⟩
  · exact ⟨p.label, rfl, hrouter, plain_label p, by decide⟩

theorem export_names (hmerges : plan.mergesExport = false) :
    f.Names (f.exportRecord router plan e).name router plan.protocol.label e.interface.shown "EXPORT" := by
  refine ⟨?_, hrouter, plain_label _, by decide⟩
  unfold exportRecord
  rw [hmerges]
  rfl

theorem shared_names (hmerges : plan.mergesExport) :
    f.Names (f.exportRecord router plan e).name router plan.protocol.label "" "SINGLE-EXPORT" := by
  refine ⟨?_, hrouter, plain_label _, by decide⟩
  unfold exportRecord
  rw [hmerges]
  rfl

theorem import_names :
    f.Names (f.importRecord router plan e).name router plan.protocol.label e.interface.shown "IMPORT" := by
  exact ⟨importRecord_name, hrouter, plain_label _, by decide⟩

end

variable (h : f.topology.TellsNames) (hrouter : router ∈ f.topology.names)
include h hrouter

theorem export_ne_import {d : Edge} : (f.exportRecord router plan d).name ≠ (f.importRecord router plan e).name := by
  intro hname
  cases hmerges : plan.mergesExport with
  | true =>
    have hkinds := ((shared_names hrouter hmerges).inj h (import_names hrouter) hname).2.2.2
    exact absurd hkinds (by decide)
  | false =>
    have hkinds := ((export_names hrouter hmerges).inj h (import_names hrouter) hname).2.2.2
    exact absurd hkinds (by decide)

theorem newRecords_nodup (hes : (es.map fun e => e.interface.shown).Nodup) :
    ((f.newRecords router plan made es).map Record.name).Nodup := by
  induction es generalizing made with
  | nil => exact nodup_nil
  | cons d rest ih =>
    obtain ⟨hd, hrest⟩ := nodup_cons.1 hes
    -- another edge starts at another interface
    have hplace : ∀ e ∈ rest, d.interface.shown ≠ e.interface.shown := fun e he heq =>
      hd (mem_map.2 ⟨e, he, heq.symm⟩)
    have himport : ∀ y ∈ f.newRecords router plan plan.mergesExport rest,
        (f.importRecord router plan d).name ≠ y.name := by
      intro y hy
      obtain ⟨e, he, ⟨-, rfl⟩ | ⟨-, rfl⟩⟩ := mem_newRecords hy
      · exact (export_ne_import h hrouter).symm
      · intro hname
        exact hplace e he ((import_names hrouter).inj h (import_names hrouter) hname).2.2.1
    have hexport : made = false → ∀ y ∈ f.newRecords router plan plan.mergesExport rest,
        (f.exportRecord router plan d).name ≠ y.name := by
      intro _ y hy
      obtain ⟨e, he, ⟨hmerges, rfl⟩ | ⟨-, rfl⟩⟩ := mem_newRecords hy
      · rw [Bool.and_self] at hmerges
        intro hname
        exact hplace e he ((export_names hrouter hmerges).inj h (export_names hrouter hmerges) hname).2.2.1
      · exact export_ne_import h hrouter
    rw [newRecords, map_append, map_append]
    have hown : ∀ z ∈ (f.ownImport router plan d).map Record.name, z = (f.importRecord router plan d).name := by
      intro z hz
      unfold ownImport at hz
      split at hz
      · cases hz
      · exact mem_singleton.1 hz
    refine nodup_append.2 ⟨nodup_append.2 ⟨?_, ?_, fun a ha b hb => ?_⟩, ih hrest, fun a ha b hb => ?_⟩
    · cases made <;> simp
    · unfold ownImport
      split <;> simp
    · rw [hown b hb]
      cases made with
      | true => cases ha
      | false => exact mem_singleton.1 ha ▸ export_ne_import h hrouter
    · obtain ⟨y, hy, rfl⟩ := mem_map.1 hb
      obtain ha | ha := mem_append.1 ha
      · cases made with
        | true => cases ha
        | false => exact mem_singleton.1 ha ▸ hexport rfl y hy
      · exact hown a ha ▸ himport y hy

end Names

theorem lane_names {z : String} (hrouter : router ∈ f.topology.names)
    (hz : z ∈ (f.laneRecords router plan).map Record.name) :
    ∃ place kind, f.Names z router plan.protocol.label place kind ∧
      kind ≠ "BEST" ∧ (kind = "EXPORT" → ∃ e ∈ f.topology.edges router, place = e.interface.shown) := by
  obtain ⟨x, hx, rfl⟩ := mem_map.1 hz
  obtain ⟨e, he, ⟨-, rfl⟩ | ⟨-, rfl⟩⟩ := mem_newRecords hx
  · cases hmerges : plan.mergesExport with
    | true => exact ⟨_, _, shared_names hrouter hmerges, by decide, nofun⟩
    | false => exact ⟨_, _, export_names hrouter hmerges, by decide, fun _ => ⟨e, (mem_filter.1 he).1, rfl⟩⟩
  · exact ⟨_, _, import_names hrouter, by decide, nofun⟩

structure TellsAnnouncements (f : Frame) : Prop where
  places : ∀ e ∈ f.topology.siteEdges, ∀ x, e.interface.shown ≠ "ENV-" ++ x
  neighbors : ∀ router, ∀ d ∈ f.topology.edges router, ∀ e ∈ f.topology.edges router, ∀ n m,
    f.topology.session? d = some n → f.topology.session? e = some m → n.address = m.address → d.interface = e.interface

theorem announcement_names {z : String} (hrouter : router ∈ f.topology.names)
    (hz : z ∈ ((f.announcementOf (f.laneOf router plan e)).map fun y => y.2.name).toList) :
    ∃ n, f.topology.session? e = some n ∧ plan.protocol = .bgp ∧
      f.Names z router Protocol.bgp.label ("ENV-" ++ n.address.dotted) "EXPORT" := by
  obtain ⟨y, hy, rfl⟩ := Option.map_eq_some_iff.1 (Option.mem_toList.1 hz)
  obtain ⟨hbgp, -, n, hsession, rfl⟩ := announcementOf_eq hy
  exact ⟨n, hsession, hbgp, rfl, hrouter, plain_label _, by decide⟩

theorem announcement_list : (f.announcements.map (·.2)).map Record.name = f.plan.routers.flatMap fun d =>
    d.protocols.flatMap fun q => (f.usedEdges d.router q.protocol).flatMap fun e =>
      ((f.announcementOf (f.laneOf d.router q e)).map fun y => y.2.name).toList := by
  unfold announcements allLanes protocolLanes
  rw [map_map, map_filterMap]
  simp only [filterMap_flatMap, filterMap_map]
  simp only [filterMap_eq_flatMap_toList]
  rfl

/-! ## §4. All records -/

section Nodup

variable (h : f.topology.TellsNames) (hplan : f.PlansOnce)
include h hplan

theorem bests_nodup : (f.allBestRecords.map Record.name).Nodup := by
  unfold allBestRecords
  rw [map_flatMap]
  refine nodup_flatMap_of_key id (by rw [map_id]; exact h.routers) (fun a ha => ?_) fun a ha b hb z hza hzb => ?_
  · -- the labels of protocols are different
    have hlabels : ("OVERALL" :: (f.protocols a).map Protocol.label).Nodup := by
      refine nodup_cons.2 ⟨fun hmem => ?_, (hplan.protocols_nodup a).map_on fun p _ q _ hpq => label_inj hpq⟩
      obtain ⟨p, -, hp⟩ := mem_map.1 hmem
      revert hp
      cases p <;> decide
    have hplain : ∀ label ∈ "OVERALL" :: (f.protocols a).map Protocol.label, '_' ∉ label.toList := by
      intro label hlabel
      obtain rfl | hlabel := mem_cons.1 hlabel
      · decide
      · obtain ⟨p, -, rfl⟩ := mem_map.1 hlabel
        exact plain_label p
    have hnames := hlabels.map_on (f := fun label => f.recordName a label "none" "BEST") fun l hl l' hl' heq =>
      (recordName_inj (h.plain_shown ha) (h.plain_shown ha) (hplain l hl) (hplain l' hl') (by decide)
        (by decide) heq).2.1
    unfold BestRecords.records bestRecords
    split
    · exact nodup_singleton _
    · rw [map_cons, map_map] at hnames
      rw [map_cons, map_map, map_map]
      exact hnames
  · obtain ⟨x, hx, rfl⟩ := mem_map.1 hza
    obtain ⟨y, hy, hname⟩ := mem_map.1 hzb
    obtain ⟨label, hxn⟩ := best_names ha hx
    obtain ⟨label', hyn⟩ := best_names hb hy
    exact (hxn.inj h hyn hname.symm).1

/-- Names that tell their router and protocol are different where those of each protocol are. -/
theorem planned_nodup {names : RouterPlan → ProtocolPlan → List String}
    (hnames : ∀ d ∈ f.plan.routers, ∀ q ∈ d.protocols, (names d q).Nodup ∧
      ∀ z ∈ names d q, ∃ place kind, f.Names z d.router q.protocol.label place kind) :
    (f.plan.routers.flatMap fun d => d.protocols.flatMap (names d)).Nodup := by
  have hrouters : (f.plan.routers.map RouterPlan.router).Nodup := hplan.routers ▸ h.routers
  refine nodup_flatMap_of_key _ hrouters (fun d hd => ?_) fun d hd d' hd' z hz hz' => ?_
  · refine nodup_flatMap_of_key _ (hplan.protocols d hd)
      (fun q hq => (hnames d hd q hq).1) fun q hq q' hq' z hz hz' => ?_
    obtain ⟨_, _, hzn⟩ := (hnames d hd q hq).2 z hz
    obtain ⟨_, _, hzn'⟩ := (hnames d hd q' hq').2 z hz'
    exact label_inj (hzn.inj h hzn' rfl).2.1
  · obtain ⟨q, hq, hz⟩ := mem_flatMap.1 hz
    obtain ⟨q', hq', hz'⟩ := mem_flatMap.1 hz'
    obtain ⟨_, _, hzn⟩ := (hnames d hd q hq).2 z hz
    obtain ⟨_, _, hzn'⟩ := (hnames d' hd' q' hq').2 z hz'
    exact (hzn.inj h hzn' rfl).1

theorem lanes_nodup : (f.allLaneRecords.map Record.name).Nodup := by
  unfold allLaneRecords
  simp only [map_flatMap]
  refine planned_nodup h hplan fun d hd q _ => ⟨?_, fun z hz => ?_⟩
  · exact newRecords_nodup h (hplan.router_mem hd) ((h.edges_nodup d.router).sublist (filter_sublist.map _))
  · obtain ⟨place, kind, hzn, -⟩ := lane_names (hplan.router_mem hd) hz
    exact ⟨place, kind, hzn⟩

theorem announcements_nodup (htells : f.TellsAnnouncements) :
    ((f.announcements.map (·.2)).map Record.name).Nodup := by
  rw [announcement_list]
  refine planned_nodup h hplan fun d hd q _ => ⟨?_, fun z hz => ?_⟩
  · refine nodup_flatMap_of_key _ ((h.edges_nodup d.router).sublist (filter_sublist.map _)) (fun e _ => ?_)
      fun e he e' he' z hz hz' => ?_
    · cases f.announcementOf (f.laneOf d.router q e) <;> simp
    · obtain ⟨n, hn, -, hzn⟩ := announcement_names (hplan.router_mem hd) hz
      obtain ⟨n', hn', -, hzn'⟩ := announcement_names (hplan.router_mem hd) hz'
      have hplace := (hzn.inj h hzn' rfl).2.2.1
      rw [String.append_right_inj] at hplace
      exact congrArg Name.shown (htells.neighbors d.router e (mem_filter.1 he).1 e' (mem_filter.1 he').1 n n' hn
        hn' (Address.dotted_inj hplace))
  · obtain ⟨e, -, hz⟩ := mem_flatMap.1 hz
    obtain ⟨n, -, hq, hzn⟩ := announcement_names (hplan.router_mem hd) hz
    rw [hq]
    exact ⟨_, _, hzn⟩

/-- **No two records have the same name.** -/
theorem records_nodup (htells : f.TellsAnnouncements) : (f.records.map Record.name).Nodup := by
  have hbest : ∀ z ∈ f.allBestRecords.map Record.name, ∃ a label, f.Names z a label "none" "BEST" := by
    intro z hz
    obtain ⟨x, hx, rfl⟩ := mem_map.1 hz
    obtain ⟨a, ha, hx⟩ := mem_flatMap.1 hx
    exact ⟨a, best_names ha hx⟩
  have hlane : ∀ z ∈ f.allLaneRecords.map Record.name, ∃ a label place kind, f.Names z a label place kind ∧
      kind ≠ "BEST" ∧ (kind = "EXPORT" → ∃ e ∈ f.topology.edges a, place = e.interface.shown) := by
    intro z hz
    obtain ⟨x, hx, rfl⟩ := mem_map.1 hz
    obtain ⟨d, hd, hx⟩ := mem_flatMap.1 hx
    obtain ⟨q, -, hx⟩ := mem_flatMap.1 hx
    exact ⟨d.router, q.protocol.label, lane_names (hplan.router_mem hd) (mem_map_of_mem hx)⟩
  have hannounced : ∀ z ∈ (f.announcements.map (·.2)).map Record.name,
      ∃ a label x, f.Names z a label ("ENV-" ++ x) "EXPORT" := by
    intro z hz
    rw [announcement_list] at hz
    obtain ⟨d, hd, hz⟩ := mem_flatMap.1 hz
    obtain ⟨q, -, hz⟩ := mem_flatMap.1 hz
    obtain ⟨e, -, hz⟩ := mem_flatMap.1 hz
    obtain ⟨n, -, -, hzn⟩ := announcement_names (hplan.router_mem hd) hz
    exact ⟨d.router, _, _, hzn⟩
  unfold records
  rw [map_append, map_append]
  refine nodup_append.2 ⟨nodup_append.2 ⟨bests_nodup h hplan, lanes_nodup h hplan, fun x hx y hy => ?_⟩,
    announcements_nodup h hplan htells, fun x hx y hy => ?_⟩
  · rintro rfl
    obtain ⟨a, label, hxn⟩ := hbest x hx
    obtain ⟨a', label', place, kind, hyn, hkind, -⟩ := hlane x hy
    exact hkind (hxn.inj h hyn rfl).2.2.2.symm
  · rintro rfl
    obtain ⟨a', label', n, hyn⟩ := hannounced x hy
    obtain hx | hx := mem_append.1 hx
    · obtain ⟨a, label, hxn⟩ := hbest x hx
      exact absurd (hxn.inj h hyn rfl).2.2.2 (by decide)
    · obtain ⟨a, label, place, kind, hxn, -, hplace⟩ := hlane x hx
      obtain ⟨-, -, hplaces, hkinds⟩ := hxn.inj h hyn rfl
      obtain ⟨e, he, rfl⟩ := hplace hkinds
      obtain ⟨s, hs, -, he⟩ := Topology.site_of_edge he
      exact htells.places e (mem_flatMap.2 ⟨s, hs, he⟩) _ hplaces

end Nodup

end Frame

end ControlPlane
