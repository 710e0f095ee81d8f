import ControlPlane.Proofs.Ledger.Run
import ControlPlane.Topology.Basic

/-!
# Where edges start and lead

Every edge of a built topology starts at an interface of its router.  If it has a far end, that is an
interface of another modeled router.

* `Topology.edge_isOf` and `Topology.peer_mem_names` say where the edges of a router start and lead.
-/
namespace ControlPlane

open List Option

variable {selection : Document} {d e : Edge} {n : Network} {r : Router} {t : Topology} {α : Type}

/-! ## §1. Lists in order -/

theorem perm_insertInto {le : α → α → Bool} (x : α) (xs : List α) : (insertInto le x xs).Perm (x :: xs) := by
  induction xs with
  | nil => exact .refl _
  | cons y rest ih =>
    unfold insertInto
    split
    · exact .refl _
    · exact (ih.cons y).trans (.swap x y rest)

theorem perm_sortWith {le : α → α → Bool} (xs : List α) : (sortWith le xs).Perm xs := by
  induction xs with
  | nil => exact .refl _
  | cons x rest ih => exact (perm_insertInto x _).trans (ih.cons x)

theorem perm_of_inOrder {name : α → Name} {xs ys : List α} (h : inOrder name xs = .ok ys) : ys.Perm xs := by
  unfold inOrder at h
  split at h
  · cases h
    exact perm_sortWith xs
  · cases h

theorem mem_sortWith {le : α → α → Bool} {y : α} {xs : List α} : y ∈ sortWith le xs ↔ y ∈ xs :=
  (perm_sortWith xs).mem_iff

theorem of_findNamed? {α κ : Type} [BEq κ] [LawfulBEq κ] {name : α → κ} {xs : List α} {key : κ} {x : α}
    (h : findNamed? name xs key = some x) : x ∈ xs ∧ name x = key :=
  ⟨mem_of_find?_eq_some h, beq_iff_eq.1 (find?_some (p := fun x => name x == key) h)⟩

/-! ## §2. The edge of an interface -/

theorem Edge.beq_iff : (d == e) ↔ d.id = e.id :=
  beq_iff_eq (a := d.id)

theorem Edge.router_of_beq (h : (d == e)) : d.router = e.router :=
  congrArg (fun i : EdgeId => i.near.router) (Edge.beq_iff.1 h)

theorem Edge.interface_of_beq (h : (d == e)) : d.interface = e.interface :=
  congrArg (fun i : EdgeId => i.near.interface) (Edge.beq_iff.1 h)

theorem Edge.reverse_of_id {back : Edge} (h : d.id = e.id) (hback : d.reverse? = some back) :
    ∃ back', e.reverse? = some back' ∧ back.id = back'.id := by
  obtain ⟨⟨peer, finish⟩, hfar, rfl⟩ := map_eq_some_iff.1 hback
  have hids : (d.far.map fun f => (⟨f.1, f.2.name⟩ : Endpoint)) = e.far.map fun f => ⟨f.1, f.2.name⟩ :=
    congrArg EdgeId.far h
  rw [hfar] at hids
  obtain ⟨⟨peer', finish'⟩, hfar', hend⟩ := map_eq_some_iff.1 hids.symm
  refine ⟨_, by rw [Edge.reverse?, hfar']; rfl, ?_⟩
  have hnear : (⟨d.router, d.start.name⟩ : Endpoint) = ⟨e.router, e.start.name⟩ := congrArg EdgeId.near h
  show (⟨⟨peer, finish.name⟩, some ⟨d.router, d.start.name⟩⟩ : EdgeId) =
    ⟨⟨peer', finish'.name⟩, some ⟨e.router, e.start.name⟩⟩
  rw [hnear, hend]

structure Edge.IsOf (routers : List Router) (r : Router) (e : Edge) : Prop where
  router : e.router = r.name
  start : e.start ∈ r.interfaces
  far : ∀ p j, e.far = some (p, j) → p ≠ r.name ∧ ∃ peer ∈ routers, peer.name = p ∧ j ∈ peer.interfaces

variable {routers : List Router} {w : Wiring} {i : Interface}

theorem edgeAt_ok (h : edgeAt routers w r i = some e) : e.router = r.name ∧ e.start = i ∧
    ∀ p j, e.far = some (p, j) → p ≠ r.name ∧ ∃ peer ∈ routers, peer.name = p ∧ j ∈ peer.interfaces := by
  unfold edgeAt at h
  split at h
  · split at h <;> cases h
    exact ⟨rfl, rfl, nofun⟩
  · split at h
    · cases h
      exact ⟨rfl, rfl, nofun⟩
    · next peer hpeer =>
      split at h
      · cases h
      · next hself =>
        split at h <;> cases h
        next j hj =>
          refine ⟨rfl, rfl, fun q k hq => ?_⟩
          obtain ⟨rfl, rfl⟩ := Prod.mk.inj (Option.some.inj hq)
          exact ⟨by simpa using hself, peer, mem_of_find?_eq_some hpeer, rfl, mem_of_find?_eq_some hj⟩
  · cases h
    exact ⟨rfl, rfl, nofun⟩

/-- Edges start at different interfaces, as far as something tells the interfaces apart. -/
theorem edges_sublist {γ : Type} (g : Name → γ) (is : List Interface) :
    ((is.filterMap (edgeAt routers w r)).map fun e => g e.interface).Sublist (is.map fun i => g i.name) := by
  induction is with
  | nil => exact .refl _
  | cons i rest ih =>
    rw [filterMap_cons]
    split
    · exact ih.cons _
    · next e he =>
      rw [← (edgeAt_ok he).2.1]
      exact ih.cons_cons _

/-! ## §3. Topologies -/

namespace Topology

theorem build_ok (h : build n selection = .ok t) :
    ∃ modeled w, (n.selected selection = .ok modeled ∧ Wiring.ofLinks modeled n.links = .ok w) ∧
      inOrder Router.name modeled = .ok t.routers ∧ t.sessions =
        (t.sites.flatMap fun s => (sessionsOf s.router s.edges).map fun e => (e.1, e.2.2)) ∧
      ∀ site ∈ t.sites, ∃ interfaces, inOrder Interface.name site.router.interfaces = .ok interfaces ∧
      site.edges = interfaces.filterMap (edgeAt t.routers w site.router) ∧ site.router.areas = .ok site.areas := by
  obtain ⟨modeled, hmodeled, h⟩ := bind_eq_ok.1 h
  obtain ⟨w, hw, h⟩ := bind_eq_ok.1 h
  obtain ⟨routers, horder, h⟩ := bind_eq_ok.1 h
  obtain ⟨sites, hsites, h⟩ := bind_eq_ok.1 h
  cases h
  have hsite : ∀ (r : Router) (site : Site), (do
      let interfaces ← inOrder Interface.name r.interfaces
      return { router := r, edges := interfaces.filterMap (edgeAt routers w r), areas := ← r.areas : Site }) =
        Except.ok site → site.router = r ∧ ∃ interfaces, inOrder Interface.name r.interfaces = .ok interfaces ∧
          site.edges = interfaces.filterMap (edgeAt routers w r) ∧ r.areas = .ok site.areas := by
    intro r site hr
    obtain ⟨interfaces, hinterfaces, hr⟩ := bind_eq_ok.1 hr
    obtain ⟨areas, hareas, hr⟩ := bind_eq_ok.1 hr
    cases hr
    exact ⟨rfl, interfaces, hinterfaces, rfl, hareas⟩
  have hrouters : sites.map Site.router = routers := by
    rw [← forall₂_eq_eq_eq, forall₂_map_left_iff]
    exact ((mapM_eq_ok.1 hsites).imp fun r site hr => (hsite r site hr).1).flip
  refine ⟨modeled, w, ⟨hmodeled, hw⟩, horder.trans (congrArg _ hrouters.symm), rfl, fun site hmem => ?_⟩
  obtain ⟨r, -, hr⟩ := exists_of_mem_mapM hsites hmem
  obtain ⟨rfl, interfaces, hinterfaces, hedges, hareas⟩ := hsite r site hr
  refine ⟨interfaces, hinterfaces, ?_, hareas⟩
  show site.edges = interfaces.filterMap (edgeAt (sites.map Site.router) w site.router)
  rw [hrouters]
  exact hedges

variable {name : Name}

theorem name_mem (hr : r ∈ t.routers) : r.name ∈ t.names := by
  obtain ⟨site, hsite, rfl⟩ := mem_map.1 hr
  exact mem_map_of_mem hsite

theorem mem_of_site? {site : Site} (h : t.site? name = some site) : site ∈ t.sites ∧ site.router.name = name :=
  of_findNamed? (show findNamed? (fun s : Site => s.router.name) t.sites name = some site from h)

theorem site_of_edge (he : e ∈ t.edges name) : ∃ site ∈ t.sites, site.router.name = name ∧ e ∈ site.edges := by
  unfold edges at he
  cases hsite : t.site? name with
  | none =>
    rw [hsite] at he
    cases he
  | some site =>
    rw [hsite] at he
    exact ⟨site, (mem_of_site? hsite).1, (mem_of_site? hsite).2, he⟩

theorem site_of_router (h : t.router name = .ok r) :
    ∃ site ∈ t.sites, site.router = r ∧ t.site? name = some site ∧ t.edges name = site.edges := by
  unfold router at h
  cases hsite : t.site? name with
  | none =>
    rw [hsite] at h
    cases h
  | some site =>
    rw [hsite] at h
    refine ⟨site, (mem_of_site? hsite).1, Except.ok.inj h, rfl, ?_⟩
    unfold edges
    rw [hsite]
    rfl

theorem edge_isOf (h : build n selection = .ok t) {site : Site} (hsite : site ∈ t.sites) (he : e ∈ site.edges) :
    e.IsOf t.routers site.router := by
  obtain ⟨-, w, -, -, -, hw⟩ := build_ok h
  obtain ⟨interfaces, hinterfaces, hedges, -⟩ := hw site hsite
  rw [hedges] at he
  obtain ⟨i, hi, he⟩ := mem_filterMap.1 he
  obtain ⟨hrouter, hstart, hfar⟩ := edgeAt_ok he
  exact ⟨hrouter, hstart ▸ (perm_of_inOrder hinterfaces).mem_iff.1 hi, hfar⟩

theorem edge_router (h : build n selection = .ok t) (he : e ∈ t.edges name) : e.router = name := by
  obtain ⟨site, hsite, rfl, hmem⟩ := site_of_edge he
  exact (edge_isOf h hsite hmem).router

theorem peer_mem_names (h : build n selection = .ok t) (he : e ∈ t.edges name) {peer : Name}
    (hpeer : e.peer? = some peer) : peer ∈ t.names := by
  obtain ⟨site, hsite, rfl, hmem⟩ := site_of_edge he
  obtain ⟨⟨p, j⟩, hfar, rfl⟩ := map_eq_some_iff.1 hpeer
  obtain ⟨-, peer, hrouters, hname, -⟩ := (edge_isOf h hsite hmem).far p j hfar
  obtain ⟨site', hsite', rfl⟩ := mem_map.1 hrouters
  exact hname ▸ mem_map_of_mem (f := fun s : Site => s.router.name) hsite'

theorem session?_of_id (h : d.id = e.id) : t.session? d = t.session? e := by
  unfold session?
  induction t.sessions with
  | nil => rfl
  | cons x rest ih =>
    have hbeq : (d == x.1) = (e == x.1) := congrArg (· == x.1.id) h
    rw [lookup_cons, lookup_cons, hbeq, ih]

end Topology

end ControlPlane
