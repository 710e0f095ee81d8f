import ControlPlane.Proofs.Route.Creation
import ControlPlane.Slice.Layout

/-!
# The slice that a frame gives

Laying out a frame declares the variables of its records, but the records themselves only depend on the
frame.  `Frame.slice` is the slice that comes out, and `Frame.lay_extends` says so, together with the
variables and bounds that were added.
-/
namespace ControlPlane

open List Build

variable {e : Edge} {s s' : LaneProgress} {router : Name} {plan : ProtocolPlan} {p : Protocol} {l l' : Ledger}

namespace Frame

variable (f : Frame)

/-! ## §1. Best routes -/

def historyOf (router : Name) (name : String) : Enumeration Protocol :=
  .planned (name ++ "_history") (f.protocols router)

def bestRecord (router : Name) (label : String) (p : Protocol) : Record :=
  let name := f.recordName router label "none" "BEST"
  .planned f name router p (some (f.historyOf router name))

def bestRecords (router : Name) : BestRecords where
  router := router
  overall := f.bestRecord router "OVERALL" .best
  perProtocol :=
    if f.isSingle router then [] else (f.protocols router).map fun p => (p, f.bestRecord router p.label p)

end Frame

def BestRecords.records (b : BestRecords) : List Record := b.overall :: b.perProtocol.map (·.2)

namespace Frame

variable {f : Frame}

theorem layBest_extends {label : String} {x : Record} (h : (f.layBest router label p).runOn l = (.ok x, l')) :
    x = f.bestRecord router label p ∧ l.Extends l' x.declarations x.bounds := by
  obtain ⟨history, l₁, hh, h⟩ := runOn_bind_ok.1 h
  obtain ⟨rfl, e₁⟩ := Enumeration.create_extends hh
  obtain ⟨rfl, e₂⟩ := Record.create_extends h
  exact ⟨rfl, e₁.trans e₂⟩

theorem layBests_extends {b : BestRecords} (h : (f.layBests router).runOn l = (.ok b, l')) :
    b = f.bestRecords router ∧
      l.Extends l' (b.records.flatMap Record.declarations) (b.records.flatMap Record.bounds) := by
  obtain ⟨overall, l₁, ho, h⟩ := runOn_bind_ok.1 h
  obtain ⟨rfl, e₁⟩ := layBest_extends ho
  unfold bestRecords
  split at h
  next hs =>
    obtain ⟨_, l₂, hp, h⟩ := runOn_bind_ok.1 h
    obtain ⟨rfl, rfl⟩ := runOn_pure_ok.1 hp
    obtain ⟨rfl, rfl⟩ := runOn_pure_ok.1 h
    rw [if_pos hs]
    exact ⟨rfl, e₁.trans (.refl l₁)⟩
  next hs =>
    obtain ⟨ps, l₂, hp, h⟩ := runOn_bind_ok.1 h
    obtain ⟨rfl, rfl⟩ := runOn_pure_ok.1 h
    obtain ⟨rfl, e₂⟩ := runOn_mapM (g := fun p => (p, f.bestRecord router p.label p))
      (V := fun e => e.2.declarations) (C := fun e => e.2.bounds) (fun p _ l y l' hy => by
        obtain ⟨x, l₁, hx, hy⟩ := runOn_bind_ok.1 hy
        obtain ⟨rfl, rfl⟩ := runOn_pure_ok.1 hy
        obtain ⟨rfl, e⟩ := layBest_extends hx
        exact ⟨rfl, e⟩) hp
    rw [if_neg hs]
    refine ⟨rfl, ?_⟩
    simp only [BestRecords.records, flatMap_cons, flatMap_map]
    simp only [flatMap_map] at e₂
    exact e₁.trans e₂

/-! ## §2. Lanes -/

variable (f)

def importName (router : Name) (p : Protocol) (e : Edge) : String :=
  f.recordName router p.label e.interface.shown "IMPORT"

def sharedExport (router : Name) (p : Protocol) : Record :=
  .planned f (f.recordName router p.label "" "SINGLE-EXPORT") router p

def exportRecord (router : Name) (plan : ProtocolPlan) (e : Edge) : Record :=
  if plan.mergesExport then f.sharedExport router plan.protocol
  else .planned f (f.recordName router plan.protocol.label e.interface.shown "EXPORT") router plan.protocol

def importRecord (router : Name) (plan : ProtocolPlan) (e : Edge) : Record :=
  if plan.mergedImports.contains e then .unused (f.importName router plan.protocol e) plan.protocol
  else .planned f (f.importName router plan.protocol e) router plan.protocol

def laneOf (router : Name) (plan : ProtocolPlan) (e : Edge) : Lane where
  router := router
  protocol := plan.protocol
  edge := e
  incoming := f.importRecord router plan e
  outgoing := f.exportRecord router plan e

def usedEdges (router : Name) (p : Protocol) : List Edge :=
  (f.topology.edges router).filter (f.topology.isEdgeUsed p)

def protocolLanes (router : Name) (plan : ProtocolPlan) : List Lane :=
  (f.usedEdges router plan.protocol).map (f.laneOf router plan)

def ownImport (router : Name) (plan : ProtocolPlan) (e : Edge) : List Record :=
  if plan.mergedImports.contains e then [] else [f.importRecord router plan e]

/-- The records made for some edges, after the one that all exports share was made or before. -/
def newRecords (router : Name) (plan : ProtocolPlan) : Bool → List Edge → List Record
  | _, [] => []
  | made, e :: rest =>
    (if made then [] else [f.exportRecord router plan e]) ++ f.ownImport router plan e ++
      newRecords router plan plan.mergesExport rest

def laneRecords (router : Name) (plan : ProtocolPlan) : List Record :=
  f.newRecords router plan false (f.usedEdges router plan.protocol)

variable {f}

theorem create_extends_one {name : String} {x : Record} (h : (Record.create f name router p).runOn l = (.ok x, l')) :
    x = .planned f name router p ∧
      l.Extends l' ([x].flatMap Record.declarations) ([x].flatMap Record.bounds) := by
  obtain ⟨rfl, e⟩ := Record.create_extends h
  rw [flatMap_singleton, flatMap_singleton]
  exact ⟨rfl, e⟩

theorem runOn_import {k : Record × List Record → Build LaneProgress}
    (h : (if plan.mergedImports.contains e then do
        let x ← pure (Record.unused (f.importName router plan.protocol e) plan.protocol, [])
        k x
      else do
        let r ← Record.create f (f.importName router plan.protocol e) router plan.protocol
        let x ← pure (r, [r])
        k x : Build LaneProgress).runOn l = (.ok s, l')) :
    ∃ l₁, l.Extends l₁ ((f.ownImport router plan e).flatMap Record.declarations)
        ((f.ownImport router plan e).flatMap Record.bounds) ∧
      (k (f.importRecord router plan e, f.ownImport router plan e)).runOn l₁ = (.ok s, l') := by
  unfold ownImport importRecord
  split at h
  next hm =>
    rw [if_pos hm, if_pos hm]
    exact ⟨l, .refl l, h⟩
  next hm =>
    obtain ⟨x, l₁, hx, h⟩ := runOn_bind_ok.1 h
    obtain ⟨rfl, e₁⟩ := create_extends_one hx
    rw [if_neg hm, if_neg hm]
    exact ⟨l₁, e₁, h⟩

def sharedOf (f : Frame) (router : Name) (plan : ProtocolPlan) : Option Record :=
  if plan.mergesExport then some (f.sharedExport router plan.protocol) else none

def addLane (f : Frame) (router : Name) (plan : ProtocolPlan) (s : LaneProgress) (e : Edge) : LaneProgress where
  shared := f.sharedOf router plan
  lanes := s.lanes ++ [f.laneOf router plan e]
  records := s.records ++ f.newRecords router plan s.shared.isSome [e]

theorem layLane_extends (hs : s.shared = none ∨ s.shared = f.sharedOf router plan)
    (hused : f.topology.isEdgeUsed plan.protocol e) (h : (f.layLane router plan s e).runOn l = (.ok s', l')) :
    s' = f.addLane router plan s e ∧
      l.Extends l' ((f.newRecords router plan s.shared.isSome [e]).flatMap Record.declarations)
        ((f.newRecords router plan s.shared.isSome [e]).flatMap Record.bounds) := by
  unfold layLane at h
  dsimp only at h
  rw [hused] at h
  unfold sharedOf at hs
  simp only [addLane, laneOf, newRecords, exportRecord, sharedOf, append_nil, flatMap_append]
  cases hm : plan.mergesExport with
  | true =>
    rw [hm, if_pos rfl] at h hs
    cases hshared : s.shared with
    | some r =>
      rw [hshared] at h hs
      obtain ⟨l₁, e₁, h⟩ := runOn_import h
      obtain ⟨rfl, rfl⟩ := runOn_pure_ok.1 h
      obtain rfl : r = f.sharedExport router plan.protocol := by simpa using hs
      simp only [append_nil]
      exact ⟨rfl, e₁⟩
    | none =>
      rw [hshared] at h
      obtain ⟨x, l₁, hx, h⟩ := runOn_bind_ok.1 h
      obtain ⟨rfl, e₁⟩ := create_extends_one hx
      obtain ⟨l₂, e₂, h⟩ := runOn_import h
      obtain ⟨rfl, rfl⟩ := runOn_pure_ok.1 h
      simp only [append_assoc]
      exact ⟨rfl, e₁.trans e₂⟩
  | false =>
    rw [hm] at h hs
    have hnone : s.shared = none := by simpa using hs
    obtain ⟨x, l₁, hx, h⟩ := runOn_bind_ok.1 h
    obtain ⟨rfl, e₁⟩ := create_extends_one hx
    obtain ⟨l₂, e₂, h⟩ := runOn_import h
    obtain ⟨rfl, rfl⟩ := runOn_pure_ok.1 h
    simp only [hnone, append_assoc]
    exact ⟨rfl, e₁.trans e₂⟩

theorem layLane_unused (hused : ¬ f.topology.isEdgeUsed plan.protocol e)
    (h : (f.layLane router plan s e).runOn l = (.ok s', l')) : s = s' ∧ l = l' := by
  unfold layLane at h
  dsimp only at h
  rw [Bool.eq_false_iff.2 hused] at h
  exact runOn_pure_ok.1 h

theorem newRecords_cons (made : Bool) (e : Edge) (rest : List Edge) :
    f.newRecords router plan made (e :: rest) =
      f.newRecords router plan made [e] ++ f.newRecords router plan plan.mergesExport rest := by
  simp only [newRecords, append_nil]

theorem isSome_sharedOf (router : Name) (plan : ProtocolPlan) :
    (f.sharedOf router plan).isSome = plan.mergesExport := by
  unfold sharedOf
  cases plan.mergesExport <;> rfl

theorem layLanes_from {es : List Edge} (hs : s.shared = none ∨ s.shared = f.sharedOf router plan)
    (h : (es.foldlM (f.layLane router plan) s).runOn l = (.ok s', l')) :
    ∃ new, new = f.newRecords router plan s.shared.isSome
        (es.filter (f.topology.isEdgeUsed plan.protocol)) ∧
      s'.lanes = s.lanes ++ (es.filter (f.topology.isEdgeUsed plan.protocol)).map (f.laneOf router plan) ∧
      s'.records = s.records ++ new ∧
      l.Extends l' (new.flatMap Record.declarations) (new.flatMap Record.bounds) := by
  induction es generalizing s l with
  | nil =>
    obtain ⟨rfl, rfl⟩ := runOn_pure_ok.1 h
    exact ⟨[], rfl, (append_nil _).symm, (append_nil _).symm, .refl l⟩
  | cons e rest ih =>
    obtain ⟨s₁, l₁, hstep, h⟩ := runOn_bind_ok.1 h
    by_cases hused : f.topology.isEdgeUsed plan.protocol e
    · obtain ⟨rfl, e₁⟩ := layLane_extends hs hused hstep
      obtain ⟨new, rfl, hlanes, hrecords, e₂⟩ := ih (.inr rfl) h
      simp only [addLane, isSome_sharedOf] at hlanes hrecords e₂
      rw [filter_cons_of_pos hused, newRecords_cons]
      refine ⟨_, rfl, ?_, ?_, ?_⟩
      · rw [hlanes, map_cons, append_assoc, singleton_append]
      · rw [hrecords, append_assoc]
      · rw [flatMap_append, flatMap_append]
        exact e₁.trans e₂
    · obtain ⟨rfl, rfl⟩ := layLane_unused hused hstep
      rw [filter_cons_of_neg hused]
      exact ih hs h

theorem layLanes_extends (h : (f.layLanes router plan).runOn l = (.ok s, l')) :
    (s.lanes, s.records) = (f.protocolLanes router plan, f.laneRecords router plan) ∧
      l.Extends l' (s.records.flatMap Record.declarations) (s.records.flatMap Record.bounds) := by
  obtain ⟨new, hnew, hlanes, hrecords, e⟩ := layLanes_from (s := {}) (.inl rfl) h
  rw [hrecords, hnew]
  exact ⟨Prod.ext hlanes rfl, hnew ▸ e⟩

/-! ## §3. Announcements and access lists -/

variable (f)

def announcementOf (m : Lane) : Option (Lane × Record) :=
  match m.protocol, m.edge.far, f.topology.session? m.edge with
  | .bgp, none, some neighbor =>
    let name := f.recordName m.router Protocol.bgp.label ("ENV-" ++ neighbor.address.dotted) "EXPORT"
    some (m, .planned f name m.router .bgp)
  | _, _, _ => none

def accessVariables (e : Edge) (d : Direction) (list : Option AccessList) : List Variable :=
  (list.map fun a => ⟨f.accessName e.router e.interface d a.name, .bool⟩).toList

def accessTerms (e : Edge) (d : Direction) (list : Option AccessList) : List (Term .bool) :=
  (list.bind fun a => (a.permits f.packet).toOption.map fun t =>
    Term.eq (.boolVar (f.accessName e.router e.interface d a.name)) t).toList

def Reads (list : Option AccessList) : Prop := ∀ a, list = some a → ∃ t, a.permits f.packet = .ok t

/-- So it is for all access lists. -/
def ReadsAll : Prop :=
  ∀ s ∈ f.topology.sites, ∀ e ∈ s.edges, f.Reads e.start.outgoingFilter ∧ f.Reads e.start.incomingFilter

variable {f}

theorem layAnnouncement_extends {m : Lane} {x : Option (Lane × Record)}
    (h : (f.layAnnouncement m).runOn l = (.ok x, l')) :
    x = f.announcementOf m ∧
      l.Extends l' (x.toList.flatMap fun y => y.2.declarations) (x.toList.flatMap fun y => y.2.bounds) := by
  unfold layAnnouncement at h
  unfold announcementOf
  have hnone : (pure none : Build (Option (Lane × Record))).runOn l = (.ok x, l') → x = none ∧
      l.Extends l' (x.toList.flatMap fun y => y.2.declarations) (x.toList.flatMap fun y => y.2.bounds) := by
    intro h
    obtain ⟨rfl, rfl⟩ := runOn_pure_ok.1 h
    exact ⟨rfl, .refl l⟩
  cases hp : m.protocol with
  | bgp =>
    cases hfar : m.edge.far with
    | none =>
      cases hsession : f.topology.session? m.edge with
      | none =>
        rw [hp, hfar, hsession] at h
        exact hnone h
      | some neighbor =>
        rw [hp, hfar, hsession] at h
        obtain ⟨r, l₁, hr, h⟩ := runOn_bind_ok.1 h
        obtain ⟨rfl, rfl⟩ := runOn_pure_ok.1 h
        obtain ⟨rfl, e⟩ := create_extends_one hr
        exact ⟨rfl, e⟩
    | some far =>
      rw [hp, hfar] at h
      exact hnone h
  | _ =>
    rw [hp] at h
    exact hnone h

theorem layAccess_extends {d : Direction} {list : Option AccessList} {x : Unit}
    (h : (f.layAccess e d list).runOn l = (.ok x, l')) :
    l.Extends l' (f.accessVariables e d list) (f.accessTerms e d list) ∧ f.Reads list := by
  cases list with
  | none =>
    obtain ⟨-, rfl⟩ := runOn_pure_ok.1 h
    exact ⟨.refl l, nofun⟩
  | some a =>
    obtain ⟨t, l₁, ht, h⟩ := runOn_bind_ok.1 h
    obtain ⟨rfl, e₁⟩ := runOn_newBool ht
    obtain ⟨u, l₂, hu, h⟩ := runOn_bind_ok.1 h
    obtain ⟨hpermits, rfl⟩ := runOn_lift_ok.1 hu
    have e₂ := e₁.trans (runOn_require_ok h)
    unfold accessVariables accessTerms
    rw [Option.bind_some, hpermits]
    exact ⟨e₂, fun b hb => Option.some.inj hb ▸ ⟨u, hpermits⟩⟩

/-! ## §4. The slice -/

variable (f)

def allLanes : List Lane := f.plan.routers.flatMap fun r => r.protocols.flatMap (f.protocolLanes r.router)

def allLaneRecords : List Record :=
  f.plan.routers.flatMap fun r => r.protocols.flatMap (f.laneRecords r.router)

def allBestRecords : List Record := f.topology.names.flatMap fun n => (f.bestRecords n).records

/-- The routes that may be announced from outside of the network. -/
def announcements : List (Lane × Record) := f.allLanes.filterMap f.announcementOf

def slice (rs : List Redistribution) : Slice where
  toFrame := f
  redistribution := rs
  bests := f.topology.names.map f.bestRecords
  lanes := f.allLanes
  environment := f.announcements
  records := f.allBestRecords ++ f.allLaneRecords ++ f.announcements.map (·.2)

def choiceVariables : List Variable := f.allLanes.map fun m => ⟨m.incoming.name ++ "_choice", .bool⟩

def allAccessVariables : List Variable :=
  f.topology.sites.flatMap fun s => s.edges.flatMap fun e =>
    f.accessVariables e .outgoing e.start.outgoingFilter ++ f.accessVariables e .incoming e.start.incomingFilter

def allAccessTerms : List (Term .bool) :=
  f.topology.sites.flatMap fun s => s.edges.flatMap fun e =>
    f.accessTerms e .outgoing e.start.outgoingFilter ++ f.accessTerms e .incoming e.start.incomingFilter

def declarations : List Variable :=
  f.forwardingVariables ++ (f.allBestRecords.flatMap Record.declarations ++
    (f.allLaneRecords.flatMap Record.declarations ++ (f.choiceVariables ++
      ((f.announcements.map (·.2)).flatMap Record.declarations ++ f.allAccessVariables))))

/-- The constraints that come with the variables of a frame. -/
def bounds : List (Term .bool) :=
  f.allBestRecords.flatMap Record.bounds ++ (f.allLaneRecords.flatMap Record.bounds ++
    ((f.announcements.map (·.2)).flatMap Record.bounds ++ f.allAccessTerms))

variable {f}

theorem layRouterLanes_extends {plans : List ProtocolPlan} {ys : List LaneProgress}
    (h : (plans.mapM (f.layLanes router)).runOn l = (.ok ys, l')) :
    (ys.flatMap LaneProgress.lanes, ys.flatMap LaneProgress.records) =
        (plans.flatMap (f.protocolLanes router), plans.flatMap (f.laneRecords router)) ∧
      l.Extends l' ((ys.flatMap LaneProgress.records).flatMap Record.declarations)
        ((ys.flatMap LaneProgress.records).flatMap Record.bounds) := by
  obtain ⟨hys, e⟩ := runOn_mapM_of (fun y => (y.lanes, y.records))
    (fun _ _ _ _ _ hy => layLanes_extends hy) h
  have hlanes := congrArg (List.flatMap Prod.fst) hys
  have hrecords := congrArg (List.flatMap Prod.snd) hys
  rw [flatMap_map, flatMap_map] at hlanes hrecords
  rw [flatMap_assoc, flatMap_assoc]
  exact ⟨Prod.ext hlanes hrecords, e⟩

theorem layAllLanes_extends {laid : List (List LaneProgress)}
    (h : (f.plan.routers.mapM fun r => r.protocols.mapM (f.layLanes r.router) :
      Build (List (List LaneProgress))).runOn l = (.ok laid, l')) :
    laid.flatten.flatMap LaneProgress.lanes = f.allLanes ∧
      laid.flatten.flatMap LaneProgress.records = f.allLaneRecords ∧
      l.Extends l' (f.allLaneRecords.flatMap Record.declarations) (f.allLaneRecords.flatMap Record.bounds) := by
  obtain ⟨hlaid, e⟩ := runOn_mapM_of
    (fun ys => (ys.flatMap LaneProgress.lanes, ys.flatMap LaneProgress.records))
    (fun _ _ _ _ _ hy => layRouterLanes_extends hy) h
  have hlanes := congrArg (List.flatMap Prod.fst) hlaid
  have hrecords := congrArg (List.flatMap Prod.snd) hlaid
  rw [flatMap_map, flatMap_map] at hlanes hrecords
  have hflat : laid.flatten.flatMap LaneProgress.records = f.allLaneRecords := by
    rw [flatten_eq_flatMap, flatMap_assoc]
    exact hrecords
  refine ⟨?_, hflat, ?_⟩
  · rw [flatten_eq_flatMap, flatMap_assoc]
    exact hlanes
  · rw [← hflat, flatten_eq_flatMap]
    simp only [flatMap_assoc, id] at e ⊢
    exact e

theorem layAllAccess_extends {x : Unit}
    (h : (f.topology.sites.forM fun s => s.edges.forM fun e => do
      f.layAccess e .outgoing e.start.outgoingFilter
      f.layAccess e .incoming e.start.incomingFilter).runOn l = (.ok x, l')) :
    l.Extends l' f.allAccessVariables f.allAccessTerms ∧ f.ReadsAll := by
  constructor
  · refine runOn_forM (fun s _ l _ l' hs => runOn_forM (fun e _ l _ l' he => ?_) hs) h
    obtain ⟨_, l₁, h₁, h₂⟩ := runOn_bind_ok.1 he
    exact (layAccess_extends h₁).1.trans (layAccess_extends h₂).1
  · intro s hs e he
    obtain ⟨k, k', hk⟩ := exists_of_runOn_forM h hs
    obtain ⟨k, k', hk⟩ := exists_of_runOn_forM hk he
    obtain ⟨_, l₁, h₁, h₂⟩ := runOn_bind_ok.1 hk
    exact ⟨(layAccess_extends h₁).2, (layAccess_extends h₂).2⟩

theorem layAllBests_extends {bests : List BestRecords}
    (h : (f.topology.names.mapM f.layBests).runOn l = (.ok bests, l')) :
    bests = f.topology.names.map f.bestRecords ∧
      l.Extends l' (f.allBestRecords.flatMap Record.declarations) (f.allBestRecords.flatMap Record.bounds) := by
  obtain ⟨rfl, e⟩ := runOn_mapM (fun _ _ _ _ _ hy => layBests_extends hy) h
  refine ⟨rfl, ?_⟩
  unfold allBestRecords
  simp only [flatMap_map, flatMap_assoc] at e ⊢
  exact e

theorem layAnnouncements_extends {announced : List (Option (Lane × Record))}
    (h : (f.allLanes.mapM f.layAnnouncement).runOn l = (.ok announced, l')) :
    announced.filterMap id = f.announcements ∧
      l.Extends l' ((f.announcements.map (·.2)).flatMap Record.declarations)
        ((f.announcements.map (·.2)).flatMap Record.bounds) := by
  obtain ⟨rfl, e⟩ := runOn_mapM (fun _ _ _ _ _ hy => layAnnouncement_extends hy) h
  unfold announcements
  simp only [flatMap_map, filterMap_eq_flatMap_toList, flatMap_assoc] at e ⊢
  exact ⟨rfl, e⟩

/-- What is read before a frame is laid out can be read. -/
structure LaysOut (f : Frame) (rs : List Redistribution) : Prop where
  redistributions : f.redistributions = .ok rs
  reads : f.ReadsAll

/-- **Laying out a frame gives its slice**, and declares its variables. -/
theorem lay_extends {s : Slice} (h : f.lay.runOn l = (.ok s, l')) :
    ∃ rs, f.LaysOut rs ∧ s = f.slice rs ∧
      l.Extends l' f.declarations f.bounds := by
  obtain ⟨rs, l₀, h₀, h⟩ := runOn_bind_ok.1 h
  obtain ⟨hredistribution, rfl⟩ := runOn_lift_ok.1 h₀
  obtain ⟨_, l₁, h₁, h⟩ := runOn_bind_ok.1 h
  obtain ⟨bests, l₂, h₂, h⟩ := runOn_bind_ok.1 h
  obtain ⟨laid, l₃, h₃, h⟩ := runOn_bind_ok.1 h
  obtain ⟨_, l₄, h₄, h⟩ := runOn_bind_ok.1 h
  obtain ⟨announced, l₅, h₅, h⟩ := runOn_bind_ok.1 h
  obtain ⟨_, l₆, h₆, h⟩ := runOn_bind_ok.1 h
  obtain ⟨rfl, rfl⟩ := runOn_pure_ok.1 h
  have e₁ := runOn_declareAll h₁
  obtain ⟨rfl, e₂⟩ := layAllBests_extends h₂
  obtain ⟨hlanes, hrecords, e₃⟩ := layAllLanes_extends h₃
  rw [hlanes] at h₄ h₅
  have e₄ := runOn_declareAll h₄
  obtain ⟨hannounced, e₅⟩ := layAnnouncements_extends h₅
  obtain ⟨e₆, hreads⟩ := layAllAccess_extends h₆
  refine ⟨rs, ⟨hredistribution, hreads⟩, ?_, e₁.trans (e₂.trans (e₃.trans (e₄.trans (e₅.trans e₆))))⟩
  rw [hlanes, hrecords, hannounced, flatMap_map]
  rfl

end Frame

end ControlPlane
