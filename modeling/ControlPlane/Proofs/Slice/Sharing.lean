import ControlPlane.Proofs.Slice.Failures
import ControlPlane.Proofs.Slice.Identity
import Mathlib.Data.List.Zip

/-!
# Slices that share records in different ways

Whether exports share a record, and whether an import uses the record at the other side, are decisions about one
protocol of a router each.  Plans that only differ in these give slices of the same best routes, announcements and
lanes; only the records of their lanes differ.

* `Plan.Alike` compares plans, where `S` tells how the shared records differ.
-/
namespace ControlPlane

open List Plan

variable {failures : Document} {best : Record} {r : Router} {d d' : RouterPlan} {f : Frame} {plan plan' : Plan}
  {rs : List Redistribution} {v w : Valuation} {l l' m : Lane}

/-! ## §1. Plans -/

/-- Plans of a protocol that differ at most in what is shared, as `S` says. -/
structure ProtocolPlan.Alike (S : ProtocolPlan → ProtocolPlan → Prop) (q q' : ProtocolPlan) : Prop where
  protocol : q.protocol = q'.protocol
  needsRouterId : q.needsRouterId = q'.needsRouterId
  shares : S q q'

/-- Plans of a router whose protocols are planned alike. -/
structure RouterPlan.Alike (S : ProtocolPlan → ProtocolPlan → Prop) (d d' : RouterPlan) : Prop where
  router : d.router = d'.router
  protocols : List.Forall₂ (ProtocolPlan.Alike S) d.protocols d'.protocols
  aggregates : d.aggregates = d'.aggregates
  needsBgpInternal : d.needsBgpInternal = d'.needsBgpInternal

/-- Plans whose routers are planned alike, with the same attributes. -/
structure Plan.Alike (S : ProtocolPlan → ProtocolPlan → Prop) (plan plan' : Plan) : Prop where
  keepLocalPref : plan.keepLocalPref = plan'.keepLocalPref
  keepAdminDist : plan.keepAdminDist = plan'.keepAdminDist
  keepMed : plan.keepMed = plan'.keepMed
  keepOspfType : plan.keepOspfType = plan'.keepOspfType
  routers : List.Forall₂ (RouterPlan.Alike S) plan.routers plan'.routers

variable {S : ProtocolPlan → ProtocolPlan → Prop}

theorem ProtocolPlan.Alike.symm {q q' : ProtocolPlan} (h : q.Alike S q') : q'.Alike (flip S) q :=
  ⟨h.protocol.symm, h.needsRouterId.symm, h.shares⟩

theorem RouterPlan.Alike.symm (h : d.Alike S d') : d'.Alike (flip S) d :=
  ⟨h.router.symm, List.Forall₂.flip (h.protocols.imp fun _ _ hq => hq.symm), h.aggregates.symm,
    h.needsBgpInternal.symm⟩

theorem Plan.Alike.symm (h : plan.Alike S plan') : plan'.Alike (flip S) plan :=
  ⟨h.keepLocalPref.symm, h.keepAdminDist.symm, h.keepMed.symm, h.keepOspfType.symm,
    List.Forall₂.flip (h.routers.imp fun _ _ hd => hd.symm)⟩

/-- What plans that share differently agree on. -/
def ProtocolPlan.core (q : ProtocolPlan) : Protocol × Bool := (q.protocol, q.needsRouterId)

namespace RouterPlan.Alike

variable (h : d.Alike S d')
include h

theorem cores : d.protocols.map ProtocolPlan.core = d'.protocols.map ProtocolPlan.core := by
  rw [← forall₂_eq_eq_eq, forall₂_map_left_iff, forall₂_map_right_iff]
  exact h.protocols.imp fun q q' hq => Prod.ext hq.protocol hq.needsRouterId

theorem protocolList : d.protocolList = d'.protocolList := by
  have hcores := congrArg (List.map Prod.fst) h.cores
  rwa [map_map, map_map] at hcores

theorem length : d.protocols.length = d'.protocols.length := h.protocols.length_eq

theorem anyNeedsRouterId : d.needsRouterId = d'.needsRouterId := by
  have hcores := congrArg (fun cs => cs.any Prod.snd) h.cores
  simp only [any_map] at hcores
  exact hcores

theorem protocolNeedsRouterId (p : Protocol) :
    (d.protocol? p).map ProtocolPlan.needsRouterId = (d'.protocol? p).map ProtocolPlan.needsRouterId := by
  have hcores := congrArg (fun cs => (cs.find? fun c => c.1 == p).map Prod.snd) h.cores
  simp only [find?_map, Option.map_map] at hcores
  exact hcores

end RouterPlan.Alike

/-- **Plans that are decided for one network are alike** unless slicing differs. -/
theorem Plan.Decides.alike {s s' : Switches} {t : Topology} {space : HeaderSpace}
    {encoded encoded' : List (Name × List Protocol)} (h : Decides s t space failures encoded plan)
    (h' : Decides s' t space failures encoded' plan') (hslicing : s.slicing = s'.slicing)
    (hS : ∀ r p q q', DecidesProtocol s t space failures encoded r p q →
      DecidesProtocol s' t space failures encoded r p q' → S q q') :
    plan.Alike S plan' := by
  -- the encoded protocols and the attributes depend on slicing only
  have hprotocols : ∀ r, computeProtocols s r space = computeProtocols s' r space := by
    intro r
    unfold computeProtocols
    rw [hslicing]
  obtain rfl : encoded = encoded' := by
    have hrunning := h.running
    simp only [hprotocols] at hrunning
    exact Except.ok.inj (hrunning.symm.trans h'.running)
  refine ⟨Except.ok.inj (h.keepLocalPref.symm.trans (.trans ?_ h'.keepLocalPref)),
    Except.ok.inj (h.keepAdminDist.symm.trans (.trans ?_ h'.keepAdminDist)), by rw [h.keepMed, h'.keepMed, hslicing],
    Except.ok.inj (h.keepOspfType.symm.trans (.trans ?_ h'.keepOspfType)), ?_⟩
  · rw [computeKeepLocalPref, hslicing, ← computeKeepLocalPref]
  · rw [computeKeepAdminDist, hslicing, ← computeKeepAdminDist]
  · rw [computeKeepOspfType, hslicing, ← computeKeepOspfType]
  · have hflip : List.Forall₂ (fun d r => DecidesRouter s t space failures encoded r d) plan.routers t.routers :=
      List.Forall₂.flip h.routers
    refine (forall₂_trans hflip h'.routers).imp fun d d' ⟨r, hd, hd'⟩ => ?_
    refine ⟨hd.router.trans hd'.router.symm, ?_, hd.aggregates.trans hd'.aggregates.symm,
      hd.needsBgpInternal.trans hd'.needsBgpInternal.symm⟩
    have hflip : List.Forall₂ (fun q p => DecidesProtocol s t space failures encoded r p q) d.protocols
        ((encoded.lookup r.name).getD []) := List.Forall₂.flip hd.protocols
    refine (forall₂_trans hflip hd'.protocols).imp fun q q' ⟨p, hq, hq'⟩ => ?_
    obtain ⟨m, hm, hid⟩ := hq.multipath
    obtain ⟨m', hm', hid'⟩ := hq'.multipath
    cases hm.symm.trans hm'
    exact ⟨hq.protocol.trans hq'.protocol.symm, hid.trans hid'.symm, hS r p q q' hq hq'⟩

/-! ## §2. Frames -/

namespace Frame

/-- The frame with another plan. -/
def withPlan (f : Frame) (plan : Plan) : Frame := { f with plan }

theorem isSingle_eq (f : Frame) (router : Name) : f.isSingle router = (f.planFor router).isSingle :=
  f.getD_planFor router RouterPlan.isSingle

theorem mergesExport_planFor (f : Frame) (rs : List Redistribution) (name : Name) (p : Protocol) :
    (f.slice rs).mergesExport name p =
      (((f.planFor name).protocol? p).map ProtocolPlan.mergesExport).getD false := by
  show (((f.plan.router? name).bind fun r => r.protocol? p).map _).getD false = _
  unfold planFor
  cases f.plan.router? name <;> rfl

variable (h : f.plan.Alike S plan)
include h

theorem planFor_alike (name : Name) : (f.planFor name).Alike S ((f.withPlan plan).planFor name) := by
  unfold planFor
  cases hd : f.plan.router? name with
  | some d =>
    obtain ⟨d', hd', halike⟩ := forall₂_find? h.routers (fun d d' hd => by rw [hd.router]) hd
    rw [show (f.withPlan plan).plan.router? name = some d' from hd']
    exact halike
  | none =>
    have hnone : (f.withPlan plan).plan.router? name = none :=
      forall₂_find?_none h.routers (fun d d' hd => by rw [hd.router]) hd
    rw [hnone]
    exact ⟨rfl, .nil, rfl, rfl⟩

theorem protocols_alike (name : Name) : (f.withPlan plan).protocols name = f.protocols name := by
  rw [← protocolList_planFor, ← protocolList_planFor, (planFor_alike h name).protocolList]

theorem isSingle_alike (name : Name) : (f.withPlan plan).isSingle name = f.isSingle name := by
  rw [isSingle_eq, isSingle_eq]
  unfold RouterPlan.isSingle
  rw [(planFor_alike h name).length]

theorem shapeAt_alike (name : String) (router : Name) (p : Protocol) :
    Record.shapeAt (f.withPlan plan) name router p = Record.shapeAt f name router p := by
  have hd := planFor_alike h router
  have hplan : (f.withPlan plan).plan = plan := rfl
  unfold Record.shapeAt Record.shapeFor
  simp only [hplan, ← hd.protocolList, ← hd.length, ← hd.needsBgpInternal, ← h.keepLocalPref, ← h.keepAdminDist,
    ← h.keepMed, ← h.keepOspfType]

/-- **Records do not depend on what is shared.** -/
theorem planned_alike (name : String) (router : Name) (p : Protocol) (history : Option (Enumeration Protocol)) :
    Record.planned (f.withPlan plan) name router p history = Record.planned f name router p history := by
  have hd := planFor_alike h router
  have hshape : Record.shapeFor (f.withPlan plan).plan ((f.withPlan plan).planFor router) p
      (Record.unused name p).isOverall = Record.shapeFor f.plan (f.planFor router) p (Record.unused name p).isOverall :=
    shapeAt_alike h name router p
  have hareas : Record.areasFor (f.withPlan plan) name router p = Record.areasFor f name router p := by
    unfold Record.areasFor Record.wantsArea
    rw [hd.protocolList]
    rfl
  have hid : Record.wantsId ((f.withPlan plan).planFor router) name p = Record.wantsId (f.planFor router) name p := by
    unfold Record.wantsId
    rw [hd.anyNeedsRouterId, hd.protocolNeedsRouterId]
  have hcommunities : Record.communitiesOf (f.withPlan plan) ((f.withPlan plan).planFor router) name p =
      Record.communitiesOf f (f.planFor router) name p := by
    unfold Record.communitiesOf Record.wantsCommunities
    rw [hd.protocolList]
    rfl
  unfold Record.planned
  simp only [hshape, hareas, hid, hcommunities]

theorem bestRecord_alike (router : Name) (label : String) (p : Protocol) :
    (f.withPlan plan).bestRecord router label p = f.bestRecord router label p := by
  unfold bestRecord historyOf
  simp only [planned_alike h, protocols_alike h]
  rfl

theorem bestRecords_alike (router : Name) : (f.withPlan plan).bestRecords router = f.bestRecords router := by
  unfold bestRecords
  simp only [isSingle_alike h, protocols_alike h, bestRecord_alike h]

theorem allBestRecords_alike : (f.withPlan plan).allBestRecords = f.allBestRecords := by
  unfold allBestRecords
  simp only [bestRecords_alike h]
  rfl

theorem redistributions_alike : (f.withPlan plan).redistributions = f.redistributions := by
  unfold redistributions
  simp only [protocols_alike h]
  rfl

end Frame

/-! ## §3. Lanes -/

/-- The lanes of an edge in two slices that share records in different ways. -/
structure Frame.Mates (S : ProtocolPlan → ProtocolPlan → Prop) (f : Frame) (plan : Plan) (l l' : Lane) : Prop where
  side : (l, l') ∈ f.allLanes.zip (f.withPlan plan).allLanes
  lanes : ∃ router q q' e, ProtocolPlan.Alike S q q' ∧ l = f.laneOf router q e ∧
    l' = (f.withPlan plan).laneOf router q' e

namespace Frame

namespace Mates

variable (hl : Mates S f plan l l')
include hl

theorem mem : l ∈ f.allLanes := (of_mem_zip hl.side).1

theorem mem' : l' ∈ (f.withPlan plan).allLanes := (of_mem_zip hl.side).2

theorem router : l.router = l'.router := by
  obtain ⟨-, router, q, q', e, hq, rfl, rfl⟩ := hl
  rfl

theorem protocol : l.protocol = l'.protocol := by
  obtain ⟨-, router, q, q', e, hq, rfl, rfl⟩ := hl
  exact hq.protocol

theorem edge : l.edge = l'.edge := by
  obtain ⟨-, router, q, q', e, hq, rfl, rfl⟩ := hl
  rfl

theorem isInternalLane (rs : List Redistribution) :
    ((f.withPlan plan).slice rs).isInternalLane l' = (f.slice rs).isInternalLane l := by
  unfold Slice.isInternalLane
  rw [← hl.protocol, ← hl.edge]
  rfl

theorem sendsCommunities (rs : List Redistribution) :
    ((f.withPlan plan).slice rs).sendsCommunities l' = (f.slice rs).sendsCommunities l := by
  unfold Slice.sendsCommunities
  rw [← hl.protocol, ← hl.edge]
  rfl

theorem incomingName : l.incoming.name = l'.incoming.name := by
  rw [incoming_name hl.mem, incoming_name hl.mem', hl.router, hl.protocol, hl.edge]
  rfl

end Mates

variable (h : f.plan.Alike S plan)
include h

/-- The lanes of both slices correspond one by one. -/
theorem lanes_mates : List.Forall₂ (Mates S f plan) f.allLanes (f.withPlan plan).allLanes := by
  have hlanes : List.Forall₂ (fun l l' => ∃ router q q' e, ProtocolPlan.Alike S q q' ∧ l = f.laneOf router q e ∧
      l' = (f.withPlan plan).laneOf router q' e) f.allLanes (f.withPlan plan).allLanes := by
    refine rel_flatMap h.routers fun d d' hd => rel_flatMap hd.protocols fun q q' hq => ?_
    have hedges : (f.withPlan plan).usedEdges d'.router q'.protocol = f.usedEdges d.router q.protocol := by
      rw [← hd.router, ← hq.protocol]
      rfl
    unfold protocolLanes
    rw [hedges, forall₂_map_left_iff, forall₂_map_right_iff, forall₂_same]
    exact fun e _ => ⟨d.router, q, q', e, hq, rfl, by rw [hd.router]⟩
  obtain ⟨hlength, hpairs⟩ := forall₂_iff_zip.1 hlanes
  exact forall₂_iff_zip.2 ⟨hlength, fun hmem => ⟨hmem, hpairs hmem⟩⟩

theorem exists_mate (hl' : l' ∈ (f.withPlan plan).allLanes) : ∃ l, Mates S f plan l l' := by
  obtain ⟨l, -, hl⟩ := forall₂_mem_right (lanes_mates h) hl'
  exact ⟨l, hl⟩

theorem exists_mate' (hl : l ∈ f.allLanes) : ∃ l', Mates S f plan l l' := by
  have hflip : List.Forall₂ (flip (Mates S f plan)) (f.withPlan plan).allLanes f.allLanes := (lanes_mates h).flip
  obtain ⟨l', -, hl⟩ := forall₂_mem_right hflip hl
  exact ⟨l', hl⟩

/-- Lanes are told apart by what is different for all of them. -/
theorem Mates.unique {κ : Type} {key : Lane → κ} (hnodup : ((f.withPlan plan).allLanes.map key).Nodup) {m' : Lane}
    (hl : Mates S f plan l l') (hm : Mates S f plan m m') (heq : key l' = key m') : l = m := by
  have hkeys : (f.allLanes.zip (f.withPlan plan).allLanes).map (fun a => key a.2) =
      (f.withPlan plan).allLanes.map key := by
    have hsnd : (f.allLanes.zip (f.withPlan plan).allLanes).map Prod.snd = (f.withPlan plan).allLanes :=
      map_snd_zip (Nat.le_of_eq (lanes_mates h).length_eq.symm)
    rw [← congrArg (List.map key) hsnd, map_map]
    rfl
  exact congrArg Prod.fst (inj_on_of_nodup_map (hkeys ▸ hnodup) hl.side hm.side heq)

theorem choiceVariables_alike : (f.withPlan plan).choiceVariables = f.choiceVariables := by
  unfold choiceVariables
  rw [← forall₂_eq_eq_eq, forall₂_map_left_iff, forall₂_map_right_iff]
  exact List.Forall₂.flip ((lanes_mates h).imp fun l l' hl =>
    congrArg (fun name => (⟨name ++ "_choice", .bool⟩ : Variable)) hl.incomingName.symm)

theorem commonVariables_alike : (f.withPlan plan).commonVariables = f.commonVariables := by
  unfold commonVariables
  rw [choiceVariables_alike h]
  rfl

/-- The same routes may be announced from outside. -/
theorem announcements_mates :
    List.Forall₂ (fun a a' => Mates S f plan a.1 a'.1 ∧ a.2 = a'.2)
      f.announcements (f.withPlan plan).announcements := by
  refine rel_filterMap (fun l l' hl => ?_) (lanes_mates h)
  unfold announcementOf
  rw [← hl.protocol, ← hl.edge]
  have htopology : (f.withPlan plan).topology = f.topology := rfl
  rw [htopology]
  split
  · refine .some ⟨hl, ?_⟩
    rw [planned_alike h, ← hl.router]
    rfl
  · exact .none

theorem announcementRecords_alike :
    (f.withPlan plan).announcements.map Prod.snd = f.announcements.map Prod.snd := by
  rw [← forall₂_eq_eq_eq, forall₂_map_left_iff, forall₂_map_right_iff]
  have hflip : List.Forall₂ (flip _) (f.withPlan plan).announcements f.announcements := (announcements_mates h).flip
  exact hflip.imp fun a' a ha => ha.2.symm

theorem opposite_mates (hl : Mates S f plan l l') (hm : (f.slice rs).opposite? l = some m) :
    ∃ m', ((f.withPlan plan).slice rs).opposite? l' = some m' ∧ Mates S f plan m m' := by
  unfold Slice.opposite? at hm ⊢
  rw [← hl.edge, ← hl.protocol]
  split at hm
  next => cases hm
  next back hback =>
    exact forall₂_find? (lanes_mates h) (fun m m' hm => by rw [hm.router, hm.protocol, hm.edge]) hm

theorem lanesOf_mates (name : Name) (p : Protocol) : List.Forall₂ (Mates S f plan)
    ((f.slice rs).lanesOf name p) (((f.withPlan plan).slice rs).lanesOf name p) :=
  rel_filter (fun l l' hl => by
    show (l.router == name && l.protocol == p) ↔ (l'.router == name && l'.protocol == p)
    rw [hl.router, hl.protocol]) (lanes_mates h)

end Frame

/-! ## §4. Routes with the same values -/

/-- Two valuations agree on everything but the records of lanes. -/
structure Frame.Agree (f : Frame) (v w : Valuation) : Prop where
  common : v.AgreesOn w f.commonVariables
  bests : ∀ x ∈ f.allBestRecords, x.SameValues v w x
  announced : ∀ a ∈ f.announcements, a.2.SameValues v w a.2

namespace Frame

theorem Mates.symm (hl : Mates S f plan l l') : Mates (flip S) (f.withPlan plan) f.plan l' l := by
  obtain ⟨hside, router, q, q', e, hq, hl, hl'⟩ := hl
  refine ⟨?_, router, q', q, e, hq.symm, hl', hl⟩
  rw [← zip_swap]
  exact mem_map.2 ⟨(l, l'), hside, rfl⟩

theorem Distinct.router_of_mem (hd : f.Distinct) (hr : r ∈ f.topology.routers) : f.topology.router r.name = .ok r := by
  obtain ⟨r', hr'⟩ := router_of_name (Topology.name_mem hr)
  obtain ⟨hmem, hname⟩ := mem_routers hr'
  rw [hr', hd.router_eq hmem hr hname]

theorem mem_allBestRecords {router : Name} {x : Record} (hrouter : router ∈ f.topology.names)
    (hx : x ∈ (f.bestRecords router).records) : x ∈ f.allBestRecords := mem_flatMap.2 ⟨router, hrouter, hx⟩

variable (h : f.plan.Alike S plan)
include h

theorem opposite_none (hl : Mates S f plan l l') (hm : (f.slice rs).opposite? l = none) :
    ((f.withPlan plan).slice rs).opposite? l' = none := by
  cases hm' : ((f.withPlan plan).slice rs).opposite? l' with
  | none => rfl
  | some m' =>
    obtain ⟨m, hsome, -⟩ := opposite_mates h.symm hl.symm hm'
    cases hm.symm.trans hsome

theorem announcement_mates (hl : Mates S f plan l l') :
    (f.slice rs).announcement? l = ((f.withPlan plan).slice rs).announcement? l' := by
  have hlike : ∀ a a' : Lane × Record, Mates S f plan a.1 a'.1 ∧ a.2 = a'.2 → a.1.sameAs l = a'.1.sameAs l' := by
    rintro a a' ⟨ha, -⟩
    unfold Lane.sameAs
    rw [ha.router, ha.protocol, ha.edge, hl.router, hl.protocol, hl.edge]
  exact forall₂_map_find? (announcements_mates h) hlike fun _ _ ha => ha.2

section

variable (ha : f.Agree v w) (hsent : ∀ m m', Mates S f plan m m' → m.outgoing.SameValues v w m'.outgoing)
  (hl : Mates S f plan l l')
include ha hsent hl

/-- The routes at the other sides of two lanes have the same values where those that are sent do. -/
theorem across_mates :
    ((f.slice rs).across? l .incoming).map (Record.frozen v) =
      (((f.withPlan plan).slice rs).across? l' .incoming).map (Record.frozen w) := by
  unfold Slice.across?
  cases hm : (f.slice rs).opposite? l with
  | some m =>
    obtain ⟨m', hm', hmates⟩ := opposite_mates h hl hm
    rw [hm']
    exact congrArg some (hsent m m' hmates)
  | none =>
    rw [opposite_none h hl hm]
    rw [← announcement_mates h hl]
    cases hx : (f.slice rs).announcement? l with
    | none => rfl
    | some x =>
      obtain ⟨a, hfind, rfl⟩ := Option.map_eq_some_iff.1 hx
      exact congrArg some (ha.announced a (mem_of_find?_eq_some hfind))

/-- Imports over mates depend on the same values. -/
theorem import_mates (hin : l.incoming.SameValues v w l'.incoming) :
    Slice.ImportAlike v w (f.slice rs) ((f.withPlan plan).slice rs) l l' where
  protocol := hl.protocol
  edge := hl.edge
  topology := rfl
  destination := (over_field .dstIp).eval_eq v w ha.common
  link := by
    rw [← hl.edge]
    exact (over_notFailed (lane_edge hl.mem)).eval_eq v w ha.common
  source := across_mates h ha hsent hl
  target := hin

end

/-- Exports over mates depend on the same values. -/
theorem export_mates (ha : f.Agree v w) (hbest : best.SameValues v w best) (hl : Mates S f plan l l')
    (hout : l.outgoing.SameValues v w l'.outgoing) :
    Slice.ExportAlike v w (f.slice rs) ((f.withPlan plan).slice rs) r best best l l' where
  protocol := hl.protocol
  destination := (over_field .dstIp).eval_eq v w ha.common
  active := by rw [hl.protocol, hl.edge]
  policy := by
    rw [hl.protocol, hl.edge]
    rfl
  may := by
    have hsending : ((f.withPlan plan).slice rs).sending best l' =
        (f.slice rs).sending best l := by
      unfold Slice.sending
      rw [hl.protocol, hl.edge]
      rfl
    rw [hsending]
    exact Slice.sending_congr hbest
  cost := by
    unfold Slice.sending
    rw [hl.protocol, hl.edge]
    rfl
  link := by
    rw [← hl.edge]
    exact (over_notFailed (lane_edge hl.mem)).eval_eq v w ha.common
  guard := by
    rw [← hl.router, ← hl.protocol]
    exact Slice.redistributionGuard_congr hbest _ _
  source := hbest
  target := hout
  area _ := by rw [hl.edge]
  isInternal := (hl.isInternalLane rs).symm
  sendsCommunity := (hl.sendsCommunities rs).symm
  aggregates := (f.getD_planFor r.name RouterPlan.aggregates).trans
    ((planFor_alike h r.name).aggregates.trans ((f.withPlan plan).getD_planFor r.name _).symm)
  suppressed := by
    refine (f.getD_planFor r.name RouterPlan.suppressed).trans
      (.trans ?_ ((f.withPlan plan).getD_planFor r.name _).symm)
    rw [RouterPlan.suppressed, (planFor_alike h r.name).aggregates, ← RouterPlan.suppressed]

/-- Slices that receive the same routes choose alike. -/
theorem similar_mates (ha : f.Agree v w) (hin : ∀ l l', Mates S f plan l l' →
      ((f.slice rs).incoming l).toOption.map (Record.frozen v) =
        (((f.withPlan plan).slice rs).incoming l').toOption.map (Record.frozen w)) :
    Slice.Similar v w (f.slice rs) ((f.withPlan plan).slice rs) where
  topology := rfl
  protocols name := (protocols_alike h name).symm
  isSingle name := (isSingle_alike h name).symm
  lanes := (lanes_mates h).imp fun l l' hl => by
    have hchoice : l'.choice = l.choice := by
      unfold Lane.choice
      rw [hl.incomingName]
    refine ⟨hl.router, hl.protocol, hl.edge, ?_, hin l l' hl⟩
    rw [hchoice]
    exact (over_choice hl.mem).eval_eq _ _ ha.common
  bests := by
    show List.Forall₂ _ (f.topology.names.map f.bestRecords) (f.topology.names.map (f.withPlan plan).bestRecords)
    rw [funext (bestRecords_alike h), forall₂_same]
    intro b hb
    obtain ⟨n, hn, rfl⟩ := mem_map.1 hb
    have hmem : ∀ x ∈ (f.bestRecords n).records, x.SameValues v w x := fun x hx =>
      ha.bests x (mem_allBestRecords hn hx)
    refine ⟨rfl, hmem _ mem_cons_self, forall₂_same.2 fun e he => ⟨rfl, ?_⟩⟩
    exact hmem _ (mem_cons_of_mem _ (mem_map_of_mem he))
  control site hsite e he := (over_controlForwarding hsite he).eval_eq v w ha.common
  data site hsite e he := (over_dataForwarding hsite he).eval_eq v w ha.common
  permits site hsite e he := (over_permits hsite he .outgoing).eval_eq v w ha.common

theorem exportsHold_mates (ha : f.Agree v w)
    (hsent : ∀ m m', Mates S f plan m m' → m.outgoing.SameValues v w m'.outgoing) {p : Protocol} {subnets : List Subnet}
    (hbest : best.SameValues v w best)
    (hmerges : ((f.withPlan plan).slice rs).mergesExport r.name p = (f.slice rs).mergesExport r.name p)
    (hv : (f.slice rs).ExportsHold r best subnets p v ((f.slice rs).lanesOf r.name p)) :
    ((f.withPlan plan).slice rs).ExportsHold r best subnets p w
      (((f.withPlan plan).slice rs).lanesOf r.name p) := by
  refine Slice.exportsHold_alike hmerges ((lanesOf_mates h r.name p).imp fun m m' hm => ?_) hv
  refine ⟨export_mates h ha hbest hm (hsent m m' hm), ?_⟩
  unfold Slice.laneIsActive
  rw [hm.edge]

/-- What is sent in one slice is sent in the other. -/
def ExportsAlike (f : Frame) (plan : Plan) (rs : List Redistribution) (v w : Valuation) : Prop :=
  ∀ r ∈ f.topology.routers, ∀ p best subnets, r.originated p = .ok subnets →
    (f.slice rs).overall r.name = .ok best → best.SameValues v w best →
    (f.slice rs).ExportsHold r best subnets p v ((f.slice rs).lanesOf r.name p) →
    ((f.withPlan plan).slice rs).ExportsHold r best subnets p w (((f.withPlan plan).slice rs).lanesOf r.name p)

/-- Transfers of one slice hold in the other if imports and exports carry over. -/
theorem transfersHold_mates (hd : f.Distinct) (ha : f.Agree v w)
    (himports : ∀ l l', Mates S f plan l l' → ∀ r, f.topology.router l.router = .ok r →
      (f.slice rs).ImportHolds r l v → ((f.withPlan plan).slice rs).ImportHolds r l' w)
    (hexports : f.ExportsAlike plan rs v w)
    (hv : (f.slice rs).TransfersHold v) : ((f.withPlan plan).slice rs).TransfersHold w := by
  intro r hr p hp
  have hp : p ∈ (f.withPlan plan).protocols r.name := hp
  rw [protocols_alike h] at hp
  obtain ⟨subnets, best, hsubnets, hbest, hin, hout⟩ := hv r hr p hp
  have hname : r.name ∈ f.topology.names := Topology.name_mem hr
  obtain rfl := Except.ok.inj (hbest.symm.trans (slice_overall hname))
  have hsame := ha.bests _ (mem_allBestRecords hname mem_cons_self)
  have hbest' : ((f.withPlan plan).slice rs).overall r.name =
      .ok ((f.withPlan plan).bestRecord r.name "OVERALL" .best) := slice_overall hname
  rw [bestRecord_alike h] at hbest'
  refine ⟨subnets, _, hsubnets, hbest', fun l' hl' => ?_,
    hexports r hr p _ subnets hsubnets (slice_overall hname) hsame hout⟩
  obtain ⟨l, hmem, hmates⟩ := forall₂_mem_right (lanesOf_mates h r.name p) hl'
  exact himports l l' hmates r ((mem_lanesOf.1 hmem).2.1 ▸ hd.router_of_mem hr) (hin l hmem)

omit h in
/-- **States of slices that share records in different ways.**  Where the received routes have the same values, a
state of one slice is one of the other if the records of lanes are valid and the transfers hold. -/
theorem isState_of_similar (ha : f.Agree v w) (hs : Slice.Similar v w (f.slice rs) ((f.withPlan plan).slice rs))
    (hrecords : ∀ x ∈ (f.withPlan plan).records, x.IsValid f.dependencies w)
    (htransfers : ((f.withPlan plan).slice rs).TransfersHold w)
    (hinactive : ∀ l ∈ (f.withPlan plan).allLanes, l.incoming.used →
      Topology.isActive l.protocol l.edge.start = false → l.incoming.permits.eval w = false)
    (hv : (f.slice rs).IsState failures v) : ((f.withPlan plan).slice rs).IsState failures w := by
  have hscenario := isScenario_fixes v w (ha.common.mono scenario_sub_common) hv.isScenario
  refine ⟨hscenario.links, hscenario.failures, hscenario.packet, fun c hc => ?_, hrecords, htransfers,
    hs.selectionHolds hv.selection, hinactive, hscenario.space⟩
  rw [← (over_access (f := f) c hc).eval_eq v w ha.common]
  exact hv.access c hc

end Frame

/-- Encodings that only differ in what they merge are slices of one frame with two plans. -/
theorem Encoding.exists_withPlan {n : Network} {req : Request} {switches : Switches} {e e' : Encoding}
    (he : (encode n req).result = .ok e) (he' : (encode n { req with switches }).result = .ok e')
    (hslicing : req.switches.slicing = switches.slicing) (hd : e.ledger.Distinct) (hd' : e'.ledger.Distinct) :
    ∃ f plan rs encoded encoded', IsOf n req e f rs ∧ IsOf n { req with switches } e' (f.withPlan plan) rs ∧
      f.IsDecided ⟨req.switches, req.failures, encoded⟩ ∧
      (f.withPlan plan).IsDecided ⟨switches, req.failures, encoded'⟩ ∧ f.Distinct ∧ (f.withPlan plan).Distinct := by
  obtain ⟨f, rs, hof⟩ := encode_isOf he
  obtain ⟨⟨tag, topology, plan, space, communities, dependencies⟩, rs', hof'⟩ := encode_isOf he'
  obtain ⟨encoded, hplan⟩ := compute_decides hof.plan
  obtain ⟨encoded', hplan'⟩ := compute_decides hof'.plan
  obtain rfl : f.topology = topology := Except.ok.inj (hof.topology.symm.trans hof'.topology)
  obtain rfl : f.tag = tag := Except.ok.inj (hof.tag.symm.trans hof'.tag)
  obtain rfl : f.communities = communities := Except.ok.inj (hof.communities.symm.trans hof'.communities)
  obtain rfl : f.dependencies = dependencies := Except.ok.inj (hof.dependencies.symm.trans hof'.dependencies)
  obtain rfl : f.space = space := hof.space.trans hof'.space.symm
  have halike : f.plan.Alike (fun _ _ => True) plan := hplan.alike hplan' hslicing fun _ _ _ _ _ _ => trivial
  obtain rfl : rs = rs' := Except.ok.inj
    (hof.redistributions.symm.trans ((Frame.redistributions_alike halike).symm.trans hof'.redistributions))
  exact ⟨f, plan, rs, encoded, encoded', hof, hof', hplan, hplan', hd.sublist (hof.declares.sublist.map Variable.name),
    hd'.sublist (hof'.declares.sublist.map Variable.name)⟩

end ControlPlane
