import ControlPlane.Proofs.Slice.Failures

/-!
# Slices of one router

Where one router is modeled alone every edge leads out of the network.  Its lanes have no other side then, and a lane
has an announcement exactly when it is one of BGP.

* `Topology.far_alone`: edges of a router that is modeled alone lead out of the network.
* `Frame.announcement_alone`: what may be announced over its lanes.
-/
namespace ControlPlane

open List

variable {n : Network} {selection : Document} {r : Router}

/-! ## §1. Topologies -/

namespace Topology

variable {t : Topology}

theorem site_alone (h : t.routers = [r]) : ∃ site, t.sites = [site] ∧ site.router = r := by
  obtain ⟨site, hsite, hrouter⟩ := map_eq_singleton_iff.1 h
  exact ⟨site, hsite, hrouter⟩

theorem router_alone (h : t.routers = [r]) : t.router r.name = .ok r := by
  obtain ⟨site, hsites, rfl⟩ := site_alone h
  have hsite : t.site? site.router.name = some site := by
    unfold site?
    rw [hsites]
    exact find?_cons_of_pos (beq_self_eq_true _)
  unfold router
  rw [hsite]

theorem far_alone (hbuild : build n selection = .ok t) (h : t.routers = [r]) {name : Name} {e : Edge}
    (he : e ∈ t.edges name) : e.far = none := by
  obtain ⟨site, hsite, -, hmem⟩ := site_of_edge he
  cases hfar : e.far with
  | none => rfl
  | some far =>
    obtain ⟨hne, peer, hpeer, hname, -⟩ := (edge_isOf hbuild hsite hmem).far far.1 far.2 hfar
    have hsite : site.router ∈ t.routers := mem_map_of_mem hsite
    rw [h] at hpeer hsite
    rw [mem_singleton.1 hpeer] at hname
    rw [mem_singleton.1 hsite] at hne
    exact absurd hname.symm hne

end Topology

/-! ## §2. Lanes -/

theorem Record.communities_bgp {f : Frame} {name : String} {router : Name} :
    (Record.planned f name router .bgp).communities.map (·.1) = f.communities := by
  have hcommunities : (Record.planned f name router .bgp).communities =
      f.communities.map fun c => (c, .boolVar (name ++ Record.communitySuffix c)) := rfl
  rw [hcommunities, map_map]
  exact map_id _

namespace Frame

variable {f : Frame} {rs : List Redistribution} {l : Lane} {e : Edge}

theorem isEdgeUsed_of_lane (hl : l ∈ f.allLanes) : f.topology.isEdgeUsed l.protocol l.edge := by
  obtain ⟨d, -, q, -, e, he, rfl⟩ := mem_allLanes.1 hl
  exact (mem_filter.1 he).2

section Alone

variable (hbuild : Topology.build n selection = .ok f.topology) (hr : f.topology.routers = [r]) (hl : l ∈ f.allLanes)
include hbuild hr hl

theorem opposite_alone : (f.slice rs).opposite? l = none := by
  unfold Slice.opposite? Edge.reverse?
  rw [Topology.far_alone hbuild hr (lane_edge hl)]
  rfl

theorem announcement_alone (hp : l.protocol = .bgp) : ∃ neighbor, f.topology.session? l.edge = some neighbor ∧
    (f.slice rs).announcement? l = some (.planned f
      (f.recordName l.router Protocol.bgp.label ("ENV-" ++ neighbor.address.dotted) "EXPORT") l.router .bgp) := by
  have hused := isEdgeUsed_of_lane hl
  rw [hp] at hused
  obtain ⟨neighbor, hneighbor⟩ := Option.isSome_iff_exists.1 hused
  have hown : f.announcementOf l = some (l, .planned f
      (f.recordName l.router Protocol.bgp.label ("ENV-" ++ neighbor.address.dotted) "EXPORT") l.router .bgp) := by
    unfold announcementOf
    rw [hp, Topology.far_alone hbuild hr (lane_edge hl), hneighbor]
  have hmem := mem_filterMap.2 ⟨l, hl, hown⟩
  refine ⟨neighbor, hneighbor, ?_⟩
  show (f.announcements.find? fun a => a.1.sameAs l).map (·.2) = _
  cases hfind : f.announcements.find? fun a => a.1.sameAs l with
  | none =>
    refine absurd ?_ (find?_eq_none.1 hfind _ hmem)
    show (l.router == l.router && l.protocol == l.protocol && l.edge == l.edge)
    rw [beq_self_eq_true, beq_self_eq_true, Edge.beq_iff.2 rfl]
    rfl
  | some a =>
    -- the announcement that is found belongs to the same edge
    have hsame := find?_some hfind
    obtain ⟨m, hm, ha⟩ := mem_filterMap.1 (mem_of_find?_eq_some hfind)
    have hpair : a.1 = m := by
      unfold announcementOf at ha
      split at ha
      · exact (congrArg Prod.fst (Option.some.inj ha)).symm
      · cases ha
    obtain ⟨m', x⟩ := a
    obtain rfl : m' = m := hpair
    unfold Lane.sameAs at hsame
    simp only [Bool.and_eq_true, beq_iff_eq] at hsame
    obtain ⟨⟨hrouter, hprotocol⟩, hedge⟩ := hsame
    unfold announcementOf at ha
    rw [hprotocol, hp, Topology.far_alone hbuild hr (lane_edge hm),
      Topology.session?_of_id (Edge.beq_iff.1 hedge), hneighbor, hrouter] at ha
    exact congrArg (Option.map Prod.snd) ha.symm

end Alone

end Frame

end ControlPlane
