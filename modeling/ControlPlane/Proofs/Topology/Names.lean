import ControlPlane.Proofs.Slice.Ospf

/-!
# Names that are told apart

The names of variables join the names of routers and interfaces by underscores.  They are only told apart when the
name of a router ends at the first underscore (`Network.TellsNames`), and then so are the edges of a topology.
-/
namespace ControlPlane

open List

variable {routers selection : Document} {i : Interface} {a : Name} {n : Network} {r : Router} {t : Topology}

/-! ## §1. Lists with keys -/

/-- What is made from items with different keys is different, when it tells the key. -/
theorem nodup_flatMap_of_key {α β κ : Type} {xs : List α} {g : α → List β} (key : α → κ) (hx : (xs.map key).Nodup)
    (heach : ∀ a ∈ xs, (g a).Nodup) (htells : ∀ a ∈ xs, ∀ b ∈ xs, ∀ z ∈ g a, z ∈ g b → key a = key b) :
    (xs.flatMap g).Nodup := by
  refine nodup_flatMap.2 ⟨heach, ?_⟩
  refine (pairwise_map.1 hx).imp_of_mem fun {a b} ha hb hne z hza hzb => ?_
  exact hne (htells a ha b hb z hza hzb)

/-! ## §2. Networks without costs -/

def Interface.withoutCost (i : Interface) : Interface := { i with ospfCost := .null }

theorem Interface.eq_of_withoutCost {j : Interface} (h : i.withoutCost = j.withoutCost) : i.name = j.name ∧
    i.address = j.address ∧ i.incomingFilter = j.incomingFilter ∧ i.outgoingFilter = j.outgoingFilter := by
  unfold withoutCost at h
  simp only [Interface.mk.injEq] at h
  obtain ⟨hname, haddress, -, -, -, -, -, hincoming, houtgoing⟩ := h
  exact ⟨hname, haddress, hincoming, houtgoing⟩

def Router.withoutCosts (r : Router) : Router := { r with interfaces := r.interfaces.map Interface.withoutCost }

namespace Router

theorem withoutCosts_setCosts (r : Router) (costs : List (Name × Int)) :
    (r.setCosts costs).withoutCosts = r.withoutCosts := by
  unfold withoutCosts setCosts
  rw [map_map]
  refine congrArg (fun is => { r with interfaces := is }) (map_congr_left fun i _ => ?_)
  rw [Function.comp_apply]
  split <;> rfl

variable {r' : Router} (h : r.withoutCosts = r'.withoutCosts)
include h

theorem name_of_withoutCosts : r.name = r'.name := Router.mk.inj h |>.1

theorem bgp_of_withoutCosts : r.bgp = r'.bgp := by
  obtain ⟨-, -, -, -, hbgp, -⟩ := Router.mk.inj h
  exact hbgp

theorem shown_of_withoutCosts : (r.interfaces.map fun i => i.name.shown) = r'.interfaces.map fun i => i.name.shown := by
  have hinterfaces := congrArg (List.map fun i : Interface => i.name.shown) (congrArg Router.interfaces h)
  unfold withoutCosts at hinterfaces
  rwa [map_map, map_map] at hinterfaces

theorem interface_of_withoutCosts (hi : i ∈ r.interfaces) : ∃ j ∈ r'.interfaces, j.withoutCost = i.withoutCost := by
  have hmem : i.withoutCost ∈ r.withoutCosts.interfaces := mem_map_of_mem hi
  rw [h] at hmem
  exact mem_map.1 hmem

end Router

theorem Network.withoutCosts_deriveCosts (n : Network) (names : List Name) :
    (n.deriveCosts names).1.routers.map Router.withoutCosts = n.routers.map Router.withoutCosts := by
  induction names generalizing n with
  | nil => rfl
  | cons name rest ih =>
    unfold deriveCosts
    split
    · exact ih n
    · next r _ =>
      have hset : (n.routers.map fun q => if q.name == name then q.setCosts (derivedCosts r).1 else q).map
          Router.withoutCosts = n.routers.map Router.withoutCosts := by
        rw [map_map]
        refine map_congr_left fun q _ => ?_
        show Router.withoutCosts (if _ then _ else _) = _
        split
        · exact Router.withoutCosts_setCosts q _
        · rfl
      dsimp only
      split
      · exact hset
      · exact (ih _).trans hset

theorem Network.sublist_of_selected {modeled : List Router} (h : n.selected selection = .ok modeled) :
    modeled.Sublist n.routers := by
  unfold selected at h
  split at h
  · cases h
    exact .refl _
  · obtain ⟨-, rfl⟩ := Plan.filterM_eq_ok h
    exact filter_sublist

theorem Topology.perm_of_build (h : build n selection = .ok t) :
    ∃ modeled : List Router, modeled.Sublist n.routers ∧ t.routers.Perm modeled := by
  obtain ⟨modeled, -, ⟨hmodeled, -⟩, horder, -, -⟩ := build_ok h
  exact ⟨modeled, Network.sublist_of_selected hmodeled, perm_of_inOrder horder⟩

theorem Encoding.perm_of_topologyOf (h : topologyOf n routers = .ok t) :
    ∃ modeled : List Router, modeled.Sublist n.routers ∧
      (t.routers.map Router.withoutCosts).Perm (modeled.map Router.withoutCosts) := by
  obtain ⟨t₀, -, h⟩ := bind_eq_ok.1 h
  have hcosts := n.withoutCosts_deriveCosts t₀.names
  split at h
  · cases h
  · next n' heq =>
    rw [heq] at hcosts
    obtain ⟨modeled', hsub, hperm⟩ := Topology.perm_of_build h
    have hsub' := hsub.map Router.withoutCosts
    rw [hcosts] at hsub'
    obtain ⟨modeled, hmodeled, hmap⟩ := sublist_map_iff.1 hsub'
    exact ⟨modeled, hmodeled, hmap ▸ hperm.map _⟩

/-! ## §3. Names of a topology -/

theorem Name.eq_text {s : String} (h : a.text? = some s) : a = .text s := by
  cases a with
  | text s' => exact congrArg Name.text (Option.some.inj h)
  | _ => cases h

/-- Routers have different texts without an underscore as names, and the interfaces of a router show differently. -/
structure Network.TellsNames (n : Network) : Prop where
  routers : (n.routers.map Router.name).Nodup
  plain : ∀ r ∈ n.routers, ∃ s ∈ r.name.text?, '_' ∉ s.toList
  interfaces : ∀ r ∈ n.routers, (r.interfaces.map fun i => i.name.shown).Nodup

/-- The same of the routers of a topology and the interfaces that edges start at. -/
structure Topology.TellsNames (t : Topology) : Prop where
  routers : t.names.Nodup
  plain : ∀ a ∈ t.names, ∃ s, a = .text s ∧ '_' ∉ s.toList
  edges : ∀ s ∈ t.sites, (s.edges.map fun e => e.interface.shown).Nodup

namespace Encoding

variable (h : topologyOf n routers = .ok t)
include h

theorem router_of_topologyOf (hr : r ∈ t.routers) : ∃ r₀ ∈ n.routers, r₀.withoutCosts = r.withoutCosts := by
  obtain ⟨modeled, hsub, hperm⟩ := perm_of_topologyOf h
  obtain ⟨r₀, hr₀, heq⟩ := mem_map.1 (hperm.subset (mem_map_of_mem hr))
  exact ⟨r₀, hsub.subset hr₀, heq⟩

/-- **The edges of an encoded topology are told apart** when the names of the network are. -/
theorem tellsNames_of_topologyOf (hn : n.TellsNames) : t.TellsNames := by
  obtain ⟨modeled, hsub, hperm⟩ := perm_of_topologyOf h
  have hnames : t.names = t.routers.map Router.name := by
    unfold Topology.names Topology.routers
    rw [map_map]
    rfl
  constructor
  · have hmap := hperm.map Router.name
    rw [map_map, map_map] at hmap
    rw [hnames]
    exact hmap.nodup_iff.2 (hn.routers.sublist (hsub.map _))
  · intro a ha
    rw [hnames] at ha
    obtain ⟨r, hr, rfl⟩ := mem_map.1 ha
    obtain ⟨r₀, hr₀, heq⟩ := router_of_topologyOf h hr
    obtain ⟨s, hs, hplain⟩ := hn.plain r₀ hr₀
    rw [← Router.name_of_withoutCosts heq]
    exact ⟨s, Name.eq_text hs, hplain⟩
  · intro site hsite
    obtain ⟨r₀, hr₀, heq⟩ := router_of_topologyOf h (mem_map_of_mem hsite)
    obtain ⟨n', hbuild⟩ := topologyOf_ok h
    obtain ⟨-, w, -, -, -, hw⟩ := Topology.build_ok hbuild
    obtain ⟨interfaces, hinterfaces, hedges, -⟩ := hw site hsite
    have hnodup : (interfaces.map fun i => i.name.shown).Nodup := by
      rw [((perm_of_inOrder hinterfaces).map _).nodup_iff, ← Router.shown_of_withoutCosts heq]
      exact hn.interfaces r₀ hr₀
    rw [hedges]
    exact hnodup.sublist (edges_sublist Name.shown interfaces)

end Encoding

/-! ## §4. Edges -/

namespace Topology

variable {d e : Edge}

def siteEdges (t : Topology) : List Edge := t.sites.flatMap Site.edges

structure OwnsEdges (t : Topology) : Prop where
  router : ∀ s ∈ t.sites, ∀ e ∈ s.edges, e.router = s.router.name
  peer : ∀ s ∈ t.sites, ∀ e ∈ s.edges, ∀ p, e.peer? = some p → p ∈ t.names

theorem ownsEdges_of_build (h : build n selection = .ok t) : t.OwnsEdges where
  router s hs e he := (edge_isOf h hs he).router
  peer s hs e he p hp := by
    obtain ⟨⟨q, j⟩, hfar, rfl⟩ := Option.map_eq_some_iff.1 hp
    obtain ⟨-, peer, hpeer, hname, -⟩ := (edge_isOf h hs he).far q j hfar
    exact hname ▸ name_mem hpeer

namespace TellsNames

variable (h : t.TellsNames)
include h

theorem plain_shown (ha : a ∈ t.names) : '_' ∉ a.shown.toList := by
  obtain ⟨s, rfl, hs⟩ := h.plain a ha
  exact hs

theorem name_of_shown {b : Name} (ha : a ∈ t.names) (hb : b ∈ t.names) (hab : a.shown = b.shown) : a = b := by
  obtain ⟨s, rfl, -⟩ := h.plain a ha
  obtain ⟨s', rfl, -⟩ := h.plain b hb
  exact congrArg Name.text hab

theorem sites : (t.sites.map fun s => s.router.name).Nodup := h.routers

theorem edges_nodup (name : Name) : ((t.edges name).map fun e => e.interface.shown).Nodup := by
  unfold Topology.edges
  cases hsite : t.site? name with
  | none => exact nodup_nil
  | some s => exact h.edges s (mem_of_find?_eq_some hsite)

variable (hown : t.OwnsEdges)
include hown

/-- **An edge is told by the texts of its router and its interface.** -/
theorem edge_of_texts (hd : d ∈ t.siteEdges) (he : e ∈ t.siteEdges) (hrouter : d.router.shown = e.router.shown)
    (hinterface : d.interface.shown = e.interface.shown) : d = e := by
  obtain ⟨s, hs, hd⟩ := mem_flatMap.1 hd
  obtain ⟨s', hs', he⟩ := mem_flatMap.1 he
  rw [hown.router s hs d hd, hown.router s' hs' e he] at hrouter
  have hname := h.name_of_shown (mem_map_of_mem hs) (mem_map_of_mem hs') hrouter
  obtain rfl : s = s' := inj_on_of_nodup_map h.sites hs hs' hname
  exact inj_on_of_nodup_map (h.edges s hs) hd he hinterface

theorem plain_router (hd : d ∈ t.siteEdges) : '_' ∉ d.router.shown.toList := by
  obtain ⟨s, hs, hd⟩ := mem_flatMap.1 hd
  rw [hown.router s hs d hd]
  exact h.plain_shown (mem_map_of_mem hs)

theorem nodup_flatMap_edges {β : Type} {g : Edge → List β} (heach : ∀ e ∈ t.siteEdges, (g e).Nodup)
    (htells : ∀ d ∈ t.siteEdges, ∀ e ∈ t.siteEdges, ∀ z ∈ g d, z ∈ g e →
      d.router.shown = e.router.shown ∧ d.interface.shown = e.interface.shown) :
    (t.sites.flatMap fun s => s.edges.flatMap g).Nodup := by
  have hmem : ∀ {s e}, s ∈ t.sites → e ∈ s.edges → e ∈ t.siteEdges := fun hs he => mem_flatMap.2 ⟨_, hs, he⟩
  refine nodup_flatMap_of_key _ h.sites (fun s hs =>
    nodup_flatMap_of_key _ (h.edges s hs) (fun e he => heach e (hmem hs he))
    fun d hd e he z hzd hze => (htells d (hmem hs hd) e (hmem hs he) z hzd hze).2) fun s hs s' hs' z hz hz' => ?_
  obtain ⟨d, hd, hz⟩ := mem_flatMap.1 hz
  obtain ⟨e, he, hz'⟩ := mem_flatMap.1 hz'
  have hshown := (htells d (hmem hs hd) e (hmem hs' he) z hz hz').1
  rw [hown.router s hs d hd, hown.router s' hs' e he] at hshown
  exact h.name_of_shown (mem_map_of_mem hs) (mem_map_of_mem hs') hshown

end TellsNames

end Topology

end ControlPlane
