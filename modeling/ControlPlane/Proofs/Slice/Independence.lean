import ControlPlane.Config.Reader
import ControlPlane.Proofs.Topology.Names

/-!
# Encodings do not depend on earlier ones

An encoding leaves the costs that it derived in the network, also when it fails half way.  They are what any later
encoding would derive, so nothing is seen of them: an encoding only depends on the network with every cost filled in
that can be derived (`Network.completed`), and that is what no encoding changes.
-/
namespace ControlPlane

open List Router Topology Network

variable {d ref selection : Document} {cost : Int} {is : List Interface} {t : Topology} {r : Router} {n : Network}

/-! ## §1. Lists -/

variable {α β : Type}

theorem insertInto_map {le : β → β → Bool} (g : α → β) (x : α) (xs : List α) :
    insertInto le (g x) (xs.map g) = (insertInto (fun a b => le (g a) (g b)) x xs).map g := by
  induction xs with
  | nil => rfl
  | cons y rest ih =>
    rw [map_cons, insertInto, insertInto]
    split
    · rfl
    · rw [ih, map_cons]

theorem sortNamed_map {name : β → Name} (g : α → β) (xs : List α) :
    sortNamed name (xs.map g) = (sortNamed (fun a => name (g a)) xs).map g := by
  unfold sortNamed
  induction xs with
  | nil => rfl
  | cons x rest ih => rw [map_cons, sortWith, sortWith, ih, insertInto_map]

theorem inOrder_map {name : β → Name} (g : α → β) (xs : List α) :
    inOrder name (xs.map g) = (inOrder (fun a => name (g a)) xs).map (List.map g) := by
  unfold inOrder
  rw [map_map, sortNamed_map]
  show (if Name.areOrdered (xs.map fun a => name (g a)) then _ else _) = _
  split <;> rfl

theorem filterM_map {ε : Type} {test : β → Except ε Bool} (g : α → β) (xs : List α) :
    (xs.map g).filterM test = (xs.filterM fun a => test (g a)).map (List.map g) := by
  -- items are gathered in reverse
  have haux : ∀ acc : List α, List.filterAuxM test (xs.map g) (acc.map g) =
      (List.filterAuxM (fun a => test (g a)) xs acc).map (List.map g) := by
    induction xs with
    | nil => exact fun _ => rfl
    | cons a rest ih =>
      intro acc
      rw [map_cons, List.filterAuxM, List.filterAuxM]
      cases h : test (g a) with
      | error f => rfl
      | ok b => cases b with
        | true => exact ih (a :: acc)
        | false => exact ih acc
  unfold List.filterM
  rw [show ([] : List β) = ([] : List α).map g from rfl, haux]
  cases List.filterAuxM (fun a => test (g a)) xs [] with
  | error f => rfl
  | ok ys => exact congrArg Except.ok map_reverse.symm

/-- What follows a result may be changed with it. -/
theorem bind_map_commutes {α' β' ε : Type} {x : Except ε α} {g : α → α'} {k : α → Except ε β} {k' : α' → Except ε β'}
    {h : β → β'} (hk : ∀ a, k' (g a) = (k a).map h) : (x.map g >>= k') = (x >>= k).map h := by
  cases x with
  | error e => rfl
  | ok a => exact hk a

theorem bind_commutes {β' ε : Type} {x : Except ε α} {k : α → Except ε β} {k' : α → Except ε β'}
    {h : β → β'} (hk : ∀ a, k' a = (k a).map h) : (x >>= k') = (x >>= k).map h := by
  cases x with
  | error e => rfl
  | ok a => exact hk a

theorem mapM_map_commutes {α' β' ε : Type} {f : α → Except ε β} {f' : α' → Except ε β'} {g : α → α'} {g' : β → β'}
    {xs : List α} (h : ∀ x ∈ xs, f' (g x) = (f x).map g') : (xs.map g).mapM f' = (xs.mapM f).map (List.map g') := by
  induction xs with
  | nil => rfl
  | cons x rest ih =>
    rw [map_cons, mapM_cons, mapM_cons, h x mem_cons_self,
      ih fun y hy => h y (mem_cons_of_mem _ hy)]
    cases f x with
    | error e => rfl
    | ok y => cases rest.mapM f <;> rfl

theorem findNamed?_map {κ : Type} [BEq κ] {name : β → κ} (g : α → β) (xs : List α) (key : κ) :
    findNamed? name (xs.map g) key = (findNamed? (fun a => name (g a)) xs key).map g :=
  find?_map

theorem names_putNamed {κ : Type} [BEq κ] [LawfulBEq κ] (name : α → κ) (x : α) (xs : List α) :
    (putNamed name x xs).map name = if name x ∈ xs.map name then xs.map name else xs.map name ++ [name x] := by
  induction xs with
  | nil => rfl
  | cons y rest ih =>
    unfold putNamed
    split
    next hsame => simp [beq_iff_eq.1 hsame]
    next hother =>
      have hother : name x ≠ name y := fun h => hother (by simp [h])
      rw [map_cons, ih]
      by_cases hmem : name x ∈ rest.map name <;> simp [hmem, hother]

theorem nodup_collect {κ : Type} [BEq κ] [LawfulBEq κ] (name : α → κ) (items : List α) :
    ((collect name items).map name).Nodup := by
  have hfold : ∀ acc : List α, (acc.map name).Nodup →
      ((items.foldl (fun acc x => putNamed name x acc) acc).map name).Nodup := by
    induction items with
    | nil => exact fun _ h => h
    | cons x rest ih =>
      intro acc hacc
      refine ih _ ?_
      rw [names_putNamed]
      split
      · exact hacc
      next hnew => exact nodup_append.2 ⟨hacc, nodup_singleton _, by simpa using hnew⟩
  exact hfold [] nodup_nil

theorem mem_collect {κ : Type} [BEq κ] {name : α → κ} {x : α} {items : List α} (h : x ∈ collect name items) :
    x ∈ items := by
  have hput : ∀ (y : α) (xs : List α), ∀ z ∈ putNamed name y xs, z = y ∨ z ∈ xs := by
    intro y xs
    induction xs with
    | nil => simp [putNamed]
    | cons w rest ih =>
      unfold putNamed
      split <;> grind
  have hfold : ∀ (items acc : List α), x ∈ items.foldl (fun acc x => putNamed name x acc) acc →
      x ∈ acc ∨ x ∈ items := by
    intro items
    induction items with
    | nil => exact fun _ h => .inl h
    | cons y rest ih =>
      intro acc hx
      obtain hx | hx := ih _ hx
      · obtain rfl | hx := hput y acc x hx
        · exact .inr mem_cons_self
        · exact .inl hx
      · exact .inr (mem_cons_of_mem _ hx)
  exact (hfold items [] h).resolve_left not_mem_nil

/-! ## §2. Topologies of networks without costs -/

def Edge.withoutCosts (e : Edge) : Edge :=
  ⟨e.router, e.start.withoutCost, e.far.map fun f => (f.1, f.2.withoutCost)⟩

def Site.withoutCosts (s : Site) : Site := ⟨s.router.withoutCosts, s.edges.map Edge.withoutCosts, s.areas⟩

def Topology.withoutCosts (t : Topology) : Topology :=
  ⟨t.sites.map Site.withoutCosts, t.sessions.map fun s => (s.1.withoutCosts, s.2), t.warnings⟩

def Network.withoutCosts (n : Network) : Network := { n with routers := n.routers.map Router.withoutCosts }

@[simp] theorem Interface.name_withoutCost (i : Interface) : i.withoutCost.name = i.name := rfl

@[simp] theorem Interface.address_withoutCost (i : Interface) : i.withoutCost.address = i.address := rfl

@[simp] theorem Router.name_withoutCosts (r : Router) : r.withoutCosts.name = r.name := rfl

@[simp] theorem Router.bgp_withoutCosts (r : Router) : r.withoutCosts.bgp = r.bgp := rfl

theorem Router.interface?_withoutCosts (r : Router) (name : Name) :
    r.withoutCosts.interface? name = (r.interface? name).map Interface.withoutCost :=
  findNamed?_map _ _ _

theorem Router.areas_withoutCosts (r : Router) : r.withoutCosts.areas = r.areas := by
  unfold areas withoutCosts
  rw [filter_map, filterMap_map]
  rfl

theorem findNamed?_withoutCosts (routers : List Router) (name : Name) :
    findNamed? Router.name (routers.map Router.withoutCosts) name =
      (findNamed? Router.name routers name).map Router.withoutCosts :=
  findNamed?_map _ _ _

theorem Wiring.ofLinks_withoutCosts (routers : List Router) (links : List Link) :
    Wiring.ofLinks (routers.map Router.withoutCosts) links = Wiring.ofLinks routers links := by
  have hend : ∀ w a i b j, Wiring.addEnd (routers.map Router.withoutCosts) w a i b j =
      Wiring.addEnd routers w a i b j := by
    intro w a i b j
    refine congrArg (a.asName >>= ·) (funext fun name => ?_)
    rw [findNamed?_withoutCosts]
    cases findNamed? Router.name routers name with
    | none => rfl
    | some r =>
      refine congrArg (i.asName >>= ·) (funext fun port => ?_)
      rw [interface?_withoutCosts]
      cases r.interface? port <;> rfl
  unfold ofLinks
  simp only [hend]

theorem edgeAt_withoutCosts (routers : List Router) (w : Wiring) (r : Router) (i : Interface) :
    edgeAt (routers.map Router.withoutCosts) w r.withoutCosts i.withoutCost =
      (edgeAt routers w r i).map Edge.withoutCosts := by
  unfold edgeAt
  dsimp only [name_withoutCosts, Interface.name_withoutCost]
  rcases w.peers ⟨r.name, i.name⟩ with _ | ⟨p, _ | _⟩
  · rw [apply_ite (Option.map Edge.withoutCosts)]
    rfl
  · dsimp only
    rw [findNamed?_withoutCosts]
    cases findNamed? Router.name routers p.router with
    | none => rfl
    | some peer =>
      dsimp only [Option.map_some]
      rw [interface?_withoutCosts, apply_ite (Option.map Edge.withoutCosts)]
      cases peer.interface? p.interface <;> rfl
  · rfl

theorem sessionsOf_withoutCosts (r : Router) (edges : List Edge) :
    sessionsOf r.withoutCosts (edges.map Edge.withoutCosts) =
      (sessionsOf r edges).map fun s => (s.1.withoutCosts, s.2) := by
  unfold sessionsOf
  rw [bgp_withoutCosts]
  cases r.bgp with
  | none => rfl
  | some p =>
    dsimp only
    rw [filterMap_map, map_filterMap]
    refine congrArg (List.filterMap · edges) (funext fun e => ?_)
    show (sessionOver? p e).map _ = ((sessionOver? p e).map _).map _
    cases sessionOver? p e <;> rfl

theorem unconnectedWarnings_withoutCosts (r : Router) (edges : List Edge) :
    unconnectedWarnings r.withoutCosts (edges.map Edge.withoutCosts) = unconnectedWarnings r edges := by
  unfold unconnectedWarnings
  rw [sessionsOf_withoutCosts]
  rw [bgp_withoutCosts]
  cases r.bgp with
  | none => rfl
  | some p =>
    simp only [map_map]
    rfl

theorem Network.selected_map (n : Network) {g : Router → Router} (hg : ∀ r, (g r).name = r.name)
    (selection : Document) :
    { n with routers := n.routers.map g : Network }.selected selection = (n.selected selection).map (List.map g) := by
  unfold selected
  split
  · rfl
  · rw [filterM_map]
    simp only [hg]

namespace Topology

theorem site_withoutCosts (routers : List Router) (w : Wiring) (r : Router) : (do
      let interfaces ← inOrder Interface.name r.withoutCosts.interfaces
      return ⟨r.withoutCosts, interfaces.filterMap (edgeAt (routers.map Router.withoutCosts) w r.withoutCosts),
        ← r.withoutCosts.areas⟩ : Except Failure Site) =
    (do
      let interfaces ← inOrder Interface.name r.interfaces
      return ⟨r, interfaces.filterMap (edgeAt routers w r), ← r.areas⟩ :
        Except Failure Site).map Site.withoutCosts := by
  rw [areas_withoutCosts, show r.withoutCosts.interfaces = r.interfaces.map Interface.withoutCost from rfl,
    inOrder_map]
  dsimp only [Interface.name_withoutCost]
  cases inOrder Interface.name r.interfaces with
  | error f => rfl
  | ok interfaces =>
    cases r.areas with
    | error f => rfl
    | ok areas =>
      refine congrArg (fun edges => Except.ok (⟨r.withoutCosts, edges, areas⟩ : Site)) ?_
      rw [filterMap_map, map_filterMap]
      exact congrArg (List.filterMap · interfaces) (funext fun i => edgeAt_withoutCosts routers w r i)

/-- **Topologies are built without costs.** -/
theorem build_withoutCosts (n : Network) (selection : Document) :
    build n.withoutCosts selection = (build n selection).map withoutCosts := by
  unfold build
  rw [show n.withoutCosts.selected selection = _ from
    n.selected_map (g := Router.withoutCosts) (fun _ => rfl) selection]
  refine bind_map_commutes fun modeled => ?_
  rw [Wiring.ofLinks_withoutCosts]
  refine bind_commutes fun wiring => ?_
  rw [inOrder_map]
  refine bind_map_commutes fun routers => ?_
  rw [mapM_map_commutes (g := Router.withoutCosts) fun r (_ : r ∈ routers) => site_withoutCosts routers wiring r]
  refine bind_map_commutes fun sites => ?_
  have hsessions : ((sites.map Site.withoutCosts).flatMap fun s =>
      (sessionsOf s.router s.edges).map fun e => (e.1, e.2.2)) =
      (sites.flatMap fun s => (sessionsOf s.router s.edges).map fun e => (e.1, e.2.2)).map
        fun s => (s.1.withoutCosts, s.2) := by
    rw [flatMap_map, map_flatMap]
    refine congrArg (List.flatMap · sites) (funext fun s => ?_)
    rw [show sessionsOf s.withoutCosts.router s.withoutCosts.edges = _ from sessionsOf_withoutCosts _ _, map_map,
      map_map]
    rfl
  have hshared : ((routers.map Router.withoutCosts).flatMap fun r =>
      (sortNamed Interface.name r.interfaces).filterMap (sharedWarning? wiring r)) =
      routers.flatMap fun r => (sortNamed Interface.name r.interfaces).filterMap (sharedWarning? wiring r) := by
    rw [flatMap_map]
    refine congrArg (List.flatMap · routers) (funext fun r => ?_)
    rw [show r.withoutCosts.interfaces = r.interfaces.map Interface.withoutCost from rfl, sortNamed_map,
      filterMap_map]
    rfl
  have hunconnected : ((sites.map Site.withoutCosts).flatMap fun s => unconnectedWarnings s.router s.edges) =
      sites.flatMap fun s => unconnectedWarnings s.router s.edges := by
    rw [flatMap_map]
    exact congrArg (List.flatMap · sites) (funext fun s => unconnectedWarnings_withoutCosts s.router s.edges)
  rw [hsessions, hshared, hunconnected]
  rfl

/-- Topologies of networks that differ in costs have the same routers and warnings. -/
theorem names_withoutCosts (t : Topology) : t.withoutCosts.names = t.names := by
  unfold names withoutCosts
  rw [map_map]
  rfl

end Topology

/-! ## §3. Routers with all costs that can be derived -/

def Interface.needsCost (i : Interface) : Bool := i.runsOspf && i.ospfCost.same .null

namespace Router

/-- The bandwidth that costs one. -/
def reference (process : OspfProcess) : Document :=
  match process.referenceBandwidth with
  | .null => defaultReference
  | d => d

def costFor? (r : Router) (i : Interface) : Option Int := do
  let process ← r.ospf
  if i.needsCost then (ControlPlane.costFor r.name (reference process) i).toOption else none

def complete (r : Router) (i : Interface) : Interface :=
  match r.costFor? i with
  | some cost => { i with ospfCost := .int cost }
  | none => i

/-- A router with every cost that can be derived. -/
def completed (r : Router) : Router := { r with interfaces := r.interfaces.map r.complete }

variable {i : Interface}

/-- Interfaces that are changed twice. -/
theorem map_map_congr (r : Router) {g g' k : Interface → Interface} (h : ∀ i ∈ r.interfaces, g' (g i) = k i) :
    ({ r with interfaces := (r.interfaces.map g).map g' } : Router) = { r with interfaces := r.interfaces.map k } := by
  rw [map_map]
  exact congrArg (fun is => { r with interfaces := is }) (map_congr_left h)

theorem name_complete : (r.complete i).name = i.name := by
  unfold complete
  split <;> rfl

theorem derivedCosts_eq {process : OspfProcess} (h : r.ospf = some process) : derivedCosts r =
    derivedCosts.go r (reference process) ((sortNamed Interface.name r.interfaces).filter Interface.needsCost) := by
  unfold derivedCosts
  rw [h]
  rfl

theorem mem_go {name : Name} (h : (name, cost) ∈ (derivedCosts.go r ref is).1) :
    ∃ i ∈ is, i.name = name ∧ costFor r.name ref i = .ok cost := by
  induction is with
  | nil => cases h
  | cons i rest ih =>
    unfold derivedCosts.go at h
    split at h
    next => cases h
    next c hc =>
      obtain h | h := mem_cons.1 h
      · cases h
        exact ⟨i, mem_cons_self, rfl, hc⟩
      · obtain ⟨j, hj, hcost⟩ := ih h
        exact ⟨j, mem_cons_of_mem _ hj, hcost⟩

theorem mem_go_of_none (h : (derivedCosts.go r ref is).2 = none) (hi : i ∈ is) :
    ∃ cost, (i.name, cost) ∈ (derivedCosts.go r ref is).1 := by
  induction is with
  | nil => cases hi
  | cons j rest ih =>
    unfold derivedCosts.go at h ⊢
    split at h
    next => cases h
    next c hc =>
      obtain rfl | hi := mem_cons.1 hi
      · exact ⟨c, mem_cons_self⟩
      · obtain ⟨cost, hcost⟩ := ih h hi
        exact ⟨cost, mem_cons_of_mem _ hcost⟩

theorem costFor?_of_lookup (hnames : (r.interfaces.map Interface.name).Nodup) (hi : i ∈ r.interfaces)
    (h : (derivedCosts r).1.lookup i.name = some cost) : r.costFor? i = some cost := by
  cases hospf : r.ospf with
  | none =>
    unfold derivedCosts at h
    rw [hospf] at h
    cases h
  | some process =>
    rw [derivedCosts_eq hospf] at h
    obtain ⟨j, hj, hname, hcost⟩ := mem_go (mem_of_lookup_eq_some h)
    obtain ⟨hj, hneeds⟩ := mem_filter.1 hj
    obtain rfl : j = i := inj_on_of_nodup_map hnames (mem_sortWith.1 hj) hi hname
    simp [costFor?, hospf, hneeds, hcost, Except.toOption]

/-- Without a failure all are set that can be derived. -/
theorem costFor?_of_lookup_none (hdone : (derivedCosts r).2 = none) (hi : i ∈ r.interfaces)
    (h : (derivedCosts r).1.lookup i.name = none) : r.costFor? i = none := by
  cases hospf : r.ospf with
  | none => simp [costFor?, hospf]
  | some process =>
    rw [derivedCosts_eq hospf] at h hdone
    cases hneeds : i.needsCost with
    | false => simp [costFor?, hospf, hneeds]
    | true =>
      obtain ⟨cost, hcost⟩ := mem_go_of_none hdone (mem_filter.2 ⟨mem_sortWith.2 hi, hneeds⟩)
      exact absurd (lookup_eq_none_iff.1 h _ hcost) (by simp)

/-- **A router whose costs can all be derived is completed.** -/
theorem setCosts_derivedCosts (hnames : (r.interfaces.map Interface.name).Nodup) (hdone : (derivedCosts r).2 = none) :
    r.setCosts (derivedCosts r).1 = r.completed := by
  refine congrArg (fun is => { r with interfaces := is }) (map_congr_left fun i hi => ?_)
  unfold complete
  cases h : (derivedCosts r).1.lookup i.name with
  | none => rw [costFor?_of_lookup_none hdone hi h]
  | some cost => rw [costFor?_of_lookup hnames hi h]

theorem needsCost_set (cost : Int) : Interface.needsCost { i with ospfCost := .int cost } = false := by
  simp [Interface.needsCost, Document.same, Document.number?]

theorem costFor?_set (cost : Int) : r.costFor? { i with ospfCost := .int cost } = none := by
  unfold costFor?
  rw [needsCost_set]
  cases r.ospf <;> rfl

theorem complete_set (cost : Int) : r.complete { i with ospfCost := .int cost } = { i with ospfCost := .int cost } := by
  unfold complete
  rw [costFor?_set]

theorem complete_complete : r.complete (r.complete i) = r.complete i := by
  cases h : r.costFor? i with
  | none => simp [complete, h]
  | some cost =>
    have hset : r.complete i = { i with ospfCost := .int cost } := by simp [complete, h]
    rw [hset, complete_set]

theorem completed_completed (r : Router) : r.completed.completed = r.completed :=
  r.map_map_congr fun _ _ => complete_complete

/-- **Costs that were derived, be it up to a failure, leave the completed router as it is.** -/
theorem completed_setCosts (hnames : (r.interfaces.map Interface.name).Nodup) :
    (r.setCosts (derivedCosts r).1).completed = r.completed := by
  refine r.map_map_congr fun i hi => ?_
  cases h : (derivedCosts r).1.lookup i.name with
  | none => rfl
  | some cost =>
    rw [complete_set, complete, costFor?_of_lookup hnames hi h]

theorem withoutCosts_completed (r : Router) : r.completed.withoutCosts = r.withoutCosts := by
  refine r.map_map_congr fun i _ => ?_
  unfold complete
  split <;> rfl

theorem failure_completed (r : Router) : (derivedCosts r.completed).2 = (derivedCosts r).2 := by
  cases hospf : r.ospf with
  | none =>
    have hcompleted : r.completed.ospf = none := hospf
    unfold derivedCosts
    rw [hospf, hcompleted]
  | some process =>
    rw [derivedCosts_eq hospf, derivedCosts_eq (show r.completed.ospf = some process from hospf)]
    rw [show r.completed.interfaces = r.interfaces.map r.complete from rfl, sortNamed_map]
    simp only [name_complete]
    -- an interface that gets a cost does not fail
    have hgo : ∀ is : List Interface, (derivedCosts.go r.completed (reference process)
        ((is.map r.complete).filter Interface.needsCost)).2 =
          (derivedCosts.go r (reference process) (is.filter Interface.needsCost)).2 := by
      intro is
      induction is with
      | nil => rfl
      | cons i rest ih =>
        rw [map_cons]
        cases hneeds : i.needsCost with
        | false =>
          have hsame : r.complete i = i := by simp [complete, costFor?, hospf, hneeds]
          rwa [hsame, filter_cons_of_neg (by simp [hneeds]), filter_cons_of_neg (by simp [hneeds])]
        | true =>
          rw [filter_cons_of_pos hneeds, derivedCosts.go]
          cases hcost : costFor r.name (reference process) i with
          | error f =>
            have hsame : r.complete i = i := by simp [complete, costFor?, hospf, hneeds, hcost, Except.toOption]
            rw [hsame, filter_cons_of_pos hneeds, derivedCosts.go,
              show costFor r.completed.name (reference process) i = _ from hcost]
          | ok cost =>
            have hset : r.complete i = { i with ospfCost := .int cost } := by
              simp [complete, costFor?, hospf, hneeds, hcost, Except.toOption]
            rwa [hset, filter_cons_of_neg (by simp [needsCost_set])]
    exact hgo _

theorem names_completed (r : Router) : r.completed.interfaces.map Interface.name = r.interfaces.map Interface.name := by
  show (r.interfaces.map r.complete).map Interface.name = _
  rw [map_map]
  exact map_congr_left fun i _ => name_complete

theorem names_of_ofDocument (name : Name) :
    Yields (Router.ofDocument d) fun u => ((u.build name).interfaces.map Interface.name).Nodup := by
  refine .after fun _ => .after fun _ => .after fun _ => .after fun _ => .after fun _ => .after fun _ => .after fun _ =>
    .after fun _ => .after fun _ => .after fun _ => .after fun _ => .after fun _ => ?_
  -- the interfaces are the first parts that get their names
  refine .bind (Q := fun is => (is.map Interface.name).Nodup)
    (.after fun built => .ok (nodup_collect Interface.name built)) fun _ hinterfaces => ?_
  exact .after fun _ => .after fun _ => .after fun _ => .ok hinterfaces

end Router

/-! ## §4. Networks with all costs that can be derived -/

namespace Network

/-- Routers, and the interfaces of a router, have different names. -/
structure IsKeyed (n : Network) : Prop where
  routers : (n.routers.map Router.name).Nodup
  interfaces : ∀ r ∈ n.routers, (r.interfaces.map Interface.name).Nodup

theorem isKeyed_of_ofDocument (h : ofDocument d = .ok n) : n.IsKeyed := by
  obtain ⟨routers, hrouters, h⟩ := bind_eq_ok.1 h
  obtain ⟨links, -, h⟩ := bind_eq_ok.1 h
  obtain ⟨rs, hrs, h⟩ := bind_eq_ok.1 h
  cases h
  obtain ⟨built, hbuilt, hrs⟩ := bind_eq_ok.1 hrs
  cases hrs
  refine ⟨nodup_collect Router.name built, fun r hr => ?_⟩
  obtain ⟨u, hu, hr⟩ := exists_of_mem_mapM hbuilt (mem_collect hr)
  obtain ⟨name, -, hr⟩ := bind_eq_ok.1 hr
  cases hr
  obtain ⟨items, -, hrouters⟩ := bind_eq_ok.1 hrouters
  obtain ⟨elements, -, hrouters⟩ := bind_eq_ok.1 hrouters
  obtain ⟨d, -, hu⟩ := exists_of_mem_mapM hrouters hu
  exact names_of_ofDocument name u hu

/-- Routers that are changed twice. -/
theorem map_map_congr {g g' k : Router → Router} (h : ∀ r ∈ n.routers, g' (g r) = k r) :
    ({ n with routers := (n.routers.map g).map g' } : Network) = { n with routers := n.routers.map k } := by
  rw [map_map]
  exact congrArg (fun rs => { n with routers := rs }) (map_congr_left h)

/-- A network with every cost that can be derived. -/
def completed (n : Network) : Network := { n with routers := n.routers.map Router.completed }

theorem isKeyed_completed : n.completed.IsKeyed ↔ n.IsKeyed := by
  have hnames : n.completed.routers.map Router.name = n.routers.map Router.name := by
    show (n.routers.map Router.completed).map Router.name = _
    rw [map_map]
    rfl
  constructor
  · intro h
    refine ⟨hnames ▸ h.routers, fun r hr => ?_⟩
    rw [← r.names_completed]
    exact h.interfaces _ (mem_map_of_mem hr)
  · intro h
    refine ⟨hnames ▸ h.routers, forall_mem_map.2 fun r hr => ?_⟩
    rw [r.names_completed]
    exact h.interfaces r hr

theorem completed_completed (n : Network) : n.completed.completed = n.completed :=
  map_map_congr fun r _ => r.completed_completed

theorem withoutCosts_completed (n : Network) : n.completed.withoutCosts = n.withoutCosts :=
  map_map_congr fun r _ => r.withoutCosts_completed

theorem router?_completed (n : Network) (name : Name) :
    n.completed.router? name = (n.router? name).map Router.completed :=
  findNamed?_map Router.completed n.routers name

def derived (n : Network) (name : Name) (r : Router) : Network :=
  { n with routers := n.routers.map fun q => if q.name == name then q.setCosts (derivedCosts r).1 else q }

theorem deriveCosts_cons (n : Network) (name : Name) (rest : List Name) : n.deriveCosts (name :: rest) =
    match n.router? name with
    | none => n.deriveCosts rest
    | some r => match (derivedCosts r).2 with
      | some f => (n.derived name r, some f)
      | none => (n.derived name r).deriveCosts rest := rfl

section

variable (hn : n.IsKeyed) {name : Name} (hr : n.router? name = some r)
include hn hr

theorem eq_of_router? {q : Router} (hq : q ∈ n.routers) (hname : (q.name == name)) : q = r := by
  have hfound := find?_some hr
  refine inj_on_of_nodup_map hn.routers hq (mem_of_find?_eq_some hr) ?_
  rw [beq_iff_eq.1 hname, beq_iff_eq.1 hfound]

theorem completed_derived : (n.derived name r).completed = n.completed := by
  refine map_map_congr fun q hq => ?_
  split
  next hname =>
    obtain rfl := eq_of_router? hn hr hq hname
    exact completed_setCosts (hn.interfaces q hq)
  next => rfl

theorem derived_eq (hdone : (derivedCosts r).2 = none) : n.derived name r =
    { n with routers := n.routers.map fun q => if q.name == name then q.completed else q } := by
  refine congrArg (fun rs => { n with routers := rs }) (map_congr_left fun q hq => ?_)
  split
  next hname =>
    obtain rfl := eq_of_router? hn hr hq hname
    exact setCosts_derivedCosts (hn.interfaces q hq) hdone
  next => rfl

theorem isKeyed_derived : (n.derived name r).IsKeyed :=
  isKeyed_completed.1 (completed_derived hn hr ▸ isKeyed_completed.2 hn)

end

/-- **Deriving costs leaves the completed network as it is**, also when it fails. -/
theorem completed_deriveCosts (hn : n.IsKeyed) (names : List Name) :
    (n.deriveCosts names).1.completed = n.completed := by
  induction names generalizing n with
  | nil => rfl
  | cons name rest ih =>
    rw [deriveCosts_cons]
    split
    next => exact ih hn
    next r hr =>
      split
      next => exact completed_derived hn hr
      next => rw [ih (isKeyed_derived hn hr), completed_derived hn hr]

theorem failure_completed (hn : n.IsKeyed) (names : List Name) :
    (n.completed.deriveCosts names).2 = (n.deriveCosts names).2 := by
  induction names generalizing n with
  | nil => rfl
  | cons name rest ih =>
    rw [deriveCosts_cons, deriveCosts_cons, router?_completed]
    cases hr : n.router? name with
    | none => exact ih hn
    | some r =>
      have hr' : n.completed.router? name = some r.completed := by rw [router?_completed, hr]; rfl
      have hfailure := r.failure_completed
      dsimp only [Option.map_some]
      rw [hfailure]
      cases hdone : (derivedCosts r).2 with
      | some f => rfl
      | none =>
        rw [hdone] at hfailure
        -- nothing is left to derive for a completed router
        have hsame : n.completed.derived name r.completed = n.completed := by
          rw [derived_eq (isKeyed_completed.2 hn) hr' hfailure]
          refine map_map_congr fun q _ => ?_
          split
          · exact q.completed_completed
          · rfl
        rw [hsame, ← completed_derived hn hr]
        exact ih (isKeyed_derived hn hr)

theorem deriveCosts_eq (hn : n.IsKeyed) {names : List Name} (h : (n.deriveCosts names).2 = none) :
    (n.deriveCosts names).1 =
      { n with routers := n.routers.map fun r => if r.name ∈ names then r.completed else r } := by
  induction names generalizing n with
  | nil => simp [deriveCosts]
  | cons name rest ih =>
    rw [deriveCosts_cons] at h ⊢
    cases hr : n.router? name with
    | none =>
      rw [hr] at h
      rw [ih hn h]
      refine congrArg (fun rs => { n with routers := rs }) (map_congr_left fun q hq => ?_)
      have hother : q.name ≠ name := by
        have := find?_eq_none.1 hr q hq
        simpa using this
      simp [hother]
    | some r =>
      rw [hr] at h
      dsimp only at h ⊢
      cases hdone : (derivedCosts r).2 with
      | some f =>
        rw [hdone] at h
        cases h
      | none =>
        rw [hdone] at h
        rw [ih (isKeyed_derived hn hr) h, derived_eq hn hr hdone]
        refine map_map_congr fun q _ => ?_
        by_cases hname : q.name = name <;> by_cases hrest : q.name ∈ rest <;>
          simp [hname, hrest, q.completed_completed]

end Network

/-! ## §5. Encodings -/

theorem Topology.build_congr {n' : Network} (hlinks : n.links = n'.links)
    (hselected : n.selected selection = n'.selected selection) : build n selection = build n' selection := by
  unfold build
  rw [hlinks, hselected]

namespace Encoding

theorem build_completed (n : Network) (selection : Document) :
    (∃ f, Topology.build n.completed selection = .error f ∧ Topology.build n selection = .error f) ∨
    ∃ t' t, Topology.build n.completed selection = .ok t' ∧ Topology.build n selection = .ok t ∧
      t'.names = t.names ∧ t'.warnings = t.warnings := by
  have hbuild : (Topology.build n.completed selection).map Topology.withoutCosts =
      (Topology.build n selection).map Topology.withoutCosts := by
    rw [← build_withoutCosts, ← build_withoutCosts, n.withoutCosts_completed]
  obtain hfails | ⟨t', t, ht', ht, hsame⟩ := map_eq_map hbuild
  · exact .inl hfails
  · refine .inr ⟨t', t, ht', ht, ?_, ?_⟩
    · rw [← t'.names_withoutCosts, hsame, t.names_withoutCosts]
    · show t'.withoutCosts.warnings = t.withoutCosts.warnings
      rw [hsame]

theorem build_deriveCosts (hn : n.IsKeyed) (ht : Topology.build n selection = .ok t)
    (hdone : (n.deriveCosts t.names).2 = none) :
    Topology.build (n.deriveCosts t.names).1 selection = Topology.build n.completed selection := by
  obtain ⟨modeled, -, ⟨hmodeled, -⟩, horder, -, -⟩ := build_ok ht
  rw [deriveCosts_eq hn hdone]
  refine build_congr rfl ?_
  have hkeeps : ∀ r : Router, (if r.name ∈ t.names then r.completed else r).name = r.name := by
    intro r
    split <;> rfl
  rw [n.selected_map hkeeps, show n.completed.selected selection = _ from
    n.selected_map (g := Router.completed) (fun _ => rfl) selection, hmodeled]
  exact congrArg Except.ok (map_congr_left fun r hr => if_pos (name_mem ((perm_of_inOrder horder).mem_iff.2 hr)))

/-- **An encoding of a network is one of the completed network.** -/
theorem encode_completed (hn : n.IsKeyed) (req : Request) :
    (encode n.completed req).result = (encode n req).result ∧
      (encode n.completed req).warnings = (encode n req).warnings := by
  obtain ⟨f, ht', ht⟩ | ⟨t', t, ht', ht, hnames, hwarnings⟩ := build_completed n req.routers
  · simp only [encode, ht, ht', and_self]
  · have hfailure := failure_completed hn t.names
    simp only [encode, ht, ht', hnames, hwarnings, and_true]
    rw [hfailure]
    cases hdone : (n.deriveCosts t.names).2 with
    | some f => rfl
    | none =>
      have hcompleted := build_deriveCosts (isKeyed_completed.2 hn) ht'
        (by rw [hnames, hfailure, hdone])
      rw [hnames, n.completed_completed] at hcompleted
      rw [hcompleted, build_deriveCosts hn ht hdone]

theorem completed_network (hn : n.IsKeyed) (req : Request) : (encode n req).network.completed = n.completed := by
  unfold encode
  split
  · rfl
  · exact completed_deriveCosts hn _

def session (n : Network) (reqs : List Request) : Network := reqs.foldl (fun n req => (encode n req).network) n

theorem completed_session (hn : n.IsKeyed) (reqs : List Request) : (session n reqs).completed = n.completed := by
  induction reqs generalizing n with
  | nil => rfl
  | cons req rest ih =>
    have hnext := completed_network hn req
    have hkeyed : (encode n req).network.IsKeyed :=
      isKeyed_completed.1 (hnext ▸ isKeyed_completed.2 hn)
    exact (ih hkeyed).trans hnext

/-- **Encodings do not depend on earlier ones.**  After any encodings of a network, whatever they select and whether or
not they succeed, a further one has the same result as on the network itself: the same variables and constraints in the
same order, or the same failure, and the same warnings. -/
theorem encode_isIndependent (hn : n.IsKeyed) (reqs : List Request) (req : Request) :
    (encode (session n reqs) req).result = (encode n req).result ∧
      (encode (session n reqs) req).warnings = (encode n req).warnings := by
  have hsame := completed_session hn reqs
  have hkeyed : (session n reqs).IsKeyed := isKeyed_completed.1 (hsame ▸ isKeyed_completed.2 hn)
  obtain ⟨hresult, hwarnings⟩ := encode_completed hkeyed req
  obtain ⟨hresult', hwarnings'⟩ := encode_completed hn req
  rw [hsame] at hresult hwarnings
  exact ⟨hresult.symm.trans hresult', hwarnings.symm.trans hwarnings'⟩

/-- Two linked OSPF routers; the cost of the first can be derived, that of the second cannot. -/
def halfNetwork : Network where
  routers := [
    { name := .text "A"
      interfaces := [{ Interface.ospfPort "i" (.ofOctets 10 0 0 1 30) with
        ospfCost := .null, bandwidth := .int 10000000 }]
      ospf := some {} },
    { name := .text "B"
      interfaces := [{ Interface.ospfPort "i" (.ofOctets 10 0 0 2 30) with ospfCost := .null }]
      ospf := some {} }]
  links := [.cable "A" "i" "B" "i"]

theorem half_isIndependent : halfNetwork.IsKeyed ∧ (encode halfNetwork {}).result.toOption.isNone ∧
    (session halfNetwork [{}]).routers.map (fun r => r.interfaces.map fun i => i.ospfCost.same (.int 10)) =
      [[true], [false]] ∧
    ∃ e, (encode halfNetwork { routers := .list [.text "A"] }).result = .ok e ∧
      (encode (session halfNetwork [{}]) { routers := .list [.text "A"] }).result = .ok e := by
  have hkeyed : halfNetwork.IsKeyed := ⟨by decide +kernel, by decide +kernel⟩
  have hone : ∃ e, (encode halfNetwork { routers := .list [.text "A"] }).result = .ok e ∧ True := by decide +kernel
  obtain ⟨e, he, -⟩ := hone
  refine ⟨hkeyed, by decide +kernel, by decide +kernel, e, he, ?_⟩
  rw [(encode_isIndependent hkeyed [{}] _).1, he]

end Encoding

end ControlPlane
