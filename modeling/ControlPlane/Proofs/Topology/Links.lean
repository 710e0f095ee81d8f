import ControlPlane.Proofs.Slice.Independence
import ControlPlane.Proofs.Slice.StaticStates
import Mathlib.Data.List.Induction

/-!
# Edges and links

The edge of an interface is decided by the links at this interface alone, so the two directions of a link may differ:
an interface that is linked to two others starts an edge out of the network, while the edges of the other two lead to
it.  `Network.JoinsOnly` says that an interface has no other link, and with it `Topology.edge_cases` tells where an
edge leads and `Topology.reverse_isMutual` when it can be followed back.
-/
namespace ControlPlane

open List

variable {n : Network} {t : Topology} {selection : Document} {r : Router} {i : Interface} {e : Edge} {w w' : Wiring}
  {p q : Endpoint} {routers : List Router}

/-! ## §1. What links join -/

def Endpoint.ofNames? (router interface : Document) : Option Endpoint :=
  match Name.ofDocument? router, Name.ofDocument? interface with
  | some r, some i => some ⟨r, i⟩
  | _, _ => none

/-- A link joins two interfaces, whichever is named first. -/
def Link.Joins (l : Link) (p q : Endpoint) : Prop :=
  (Endpoint.ofNames? l.router1 l.interface1 = some p ∧ Endpoint.ofNames? l.router2 l.interface2 = some q) ∨
    Endpoint.ofNames? l.router2 l.interface2 = some p ∧ Endpoint.ofNames? l.router1 l.interface1 = some q

namespace Network

def Joins (n : Network) (p q : Endpoint) : Prop := ∃ l ∈ n.links, l.Joins p q

/-- An interface is joined to one other, however often. -/
def JoinsOnly (n : Network) (p q : Endpoint) : Prop := ∀ q', n.Joins p q' ↔ q' = q

theorem Joins.symm (h : n.Joins p q) : n.Joins q p :=
  h.imp fun _ hl => ⟨hl.1, hl.2.symm.imp And.symm And.symm⟩

theorem JoinsOnly.unique {q' : Endpoint} (h : n.JoinsOnly p q) (h' : n.JoinsOnly p q') : q' = q :=
  (h q').1 ((h' q').2 rfl)

end Network

/-! ## §2. Wirings -/

namespace Wiring

structure Holds (routers : List Router) (joins : Endpoint → Endpoint → Prop) (w : Wiring) : Prop where
  peers : ∀ p q, q ∈ w.peers p ↔ (∃ r ∈ routers, r.name = p.router) ∧ joins p q
  nodup : ∀ p, (w.peers p).Nodup
  exist : ∀ p q, q ∈ w.peers p → ∃ r ∈ routers, r.name = p.router ∧ ∃ i ∈ r.interfaces, i.name = p.interface

theorem peers_connect (w : Wiring) (here there p : Endpoint) :
    (w.connect here there).peers p = if p = here then addOnce there (w.peers here) else w.peers p := by
  unfold peers
  induction w with
  | nil => by_cases h : p = here <;> simp [connect, lookup_cons, addOnce, h, beq_false_of_ne]
  | cons x rest ih =>
    obtain ⟨k, set⟩ := x
    unfold connect
    by_cases hk : k = here
    · subst hk
      by_cases hp : p = k <;> simp [lookup_cons, hp, beq_false_of_ne]
    · rw [if_neg hk, lookup_cons, lookup_cons, lookup_cons, beq_false_of_ne (Ne.symm hk)]
      by_cases hp : p = k
      · simp [hp, hk]
      · simpa [beq_false_of_ne hp] using ih

theorem addEnd_holds {joins : Endpoint → Endpoint → Prop} {a b c d : Document} (h : w.Holds routers joins)
    (hw : w.addEnd routers a b c d = .ok w') : w'.Holds routers fun p q => joins p q ∨
      Endpoint.ofNames? a b = some p ∧ Endpoint.ofNames? c d = some q := by
  have hnames : ∀ {a b : Document} {r i : Name}, a.asName = .ok r → b.asName = .ok i →
      Endpoint.ofNames? a b = some ⟨r, i⟩ := by
    intro a b r i ha hb
    unfold Document.asName at ha hb
    unfold Endpoint.ofNames?
    split at ha <;> split at hb <;> cases ha <;> cases hb
    simp only [*]
  obtain ⟨name, ha, hw⟩ := bind_eq_ok.1 hw
  split at hw
  · next hnone =>
    cases hw
    refine ⟨fun p q => ?_, h.nodup, h.exist⟩
    rw [h.peers, and_congr_right_iff]
    rintro ⟨r, hr, hname⟩
    refine (or_iff_left fun hp => find?_eq_none.1 hnone r hr (beq_iff_eq.2 ?_)).symm
    have hrouter := hp.1
    unfold Endpoint.ofNames? at hrouter
    unfold Document.asName at ha
    split at hrouter <;> cases hrouter
    simp_all
  · next r hr =>
    obtain ⟨hmem, hname⟩ := of_findNamed? hr
    obtain ⟨port, hb, hw⟩ := bind_eq_ok.1 hw
    split at hw
    · cases hw
    · next j hj =>
      obtain ⟨far, hc, hw⟩ := bind_eq_ok.1 hw
      obtain ⟨finish, hd, hw⟩ := bind_eq_ok.1 hw
      cases hw
      rw [hnames ha hb, hnames hc hd]
      refine ⟨fun p q => ?_, fun p => ?_, fun p q => ?_⟩ <;> rw [peers_connect] <;> split
      · next hp =>
        subst hp
        have hmodeled : ∃ r ∈ routers, r.name = name := ⟨r, hmem, hname⟩
        rw [mem_addOnce, h.peers, and_iff_right hmodeled, and_iff_right hmodeled, and_iff_right rfl, Option.some_inj,
          or_comm, @eq_comm _ q]
      · next hp => simp [h.peers, Ne.symm hp]
      · unfold addOnce
        split
        · exact h.nodup _
        · next hnot => exact (h.nodup _).append (nodup_singleton _) (by simpa using hnot)
      · exact h.nodup p
      · next hp =>
        subst hp
        exact fun _ => ⟨r, hmem, hname, j, of_findNamed? hj⟩
      · exact h.exist p q

/-- **Links are recorded at both ends**, as far as these are modeled. -/
theorem ofLinks_holds {links : List Link} (hw : ofLinks routers links = .ok w) :
    w.Holds routers fun p q => ∃ l ∈ links, l.Joins p q := by
  induction links using reverseRecOn generalizing w with
  | nil =>
    cases hw
    exact ⟨by simp [peers], by simp [peers], by simp [peers]⟩
  | append_singleton links l ih =>
    unfold ofLinks at hw
    rw [foldlM_append] at hw
    obtain ⟨w₁, hlinks, hw⟩ := bind_eq_ok.1 hw
    obtain ⟨w₂, hl, hw⟩ := bind_eq_ok.1 hw
    obtain ⟨w₃, hone, htwo⟩ := bind_eq_ok.1 hl
    cases hw
    have hholds := addEnd_holds (addEnd_holds (ih hlinks) hone) htwo
    simpa [Link.Joins, or_assoc, exists_or] using hholds

theorem Holds.peers_eq (h : w.Holds routers n.Joins) (hr : r ∈ routers) {port : Name} :
    w.peers ⟨r.name, port⟩ = [q] ↔ n.JoinsOnly ⟨r.name, port⟩ q := by
  rw [← perm_singleton, perm_ext_iff_of_nodup (h.nodup _) (nodup_singleton q)]
  exact forall_congr' fun q' => by rw [h.peers, and_iff_right ⟨r, hr, rfl⟩, mem_singleton]

end Wiring

/-! ## §3. The edge of an interface -/

namespace Topology

structure IsWired (n : Network) (t : Topology) (w : Wiring) : Prop where
  holds : w.Holds t.routers n.Joins
  routers : (t.routers.map Router.name).Nodup
  interfaces : ∀ r ∈ t.routers, (r.interfaces.map Interface.name).Nodup
  edges : ∀ r ∈ t.routers, ∃ is : List Interface, is.Perm r.interfaces ∧
    t.edges r.name = is.filterMap (edgeAt t.routers w r)

theorem exists_isWired (hn : n.IsKeyed) (ht : build n selection = .ok t) : ∃ w, t.IsWired n w := by
  obtain ⟨modeled, w, ⟨hmodeled, hw⟩, horder, -, hsites⟩ := build_ok ht
  have hperm : t.routers.Perm modeled := perm_of_inOrder horder
  have hsub : modeled.Sublist n.routers := Network.sublist_of_selected hmodeled
  have hnames : (t.routers.map Router.name).Nodup :=
    (hperm.map _).nodup_iff.2 (hn.routers.sublist (hsub.map _))
  have hholds := Wiring.ofLinks_holds hw
  refine ⟨w, ⟨?_, hholds.nodup, ?_⟩, hnames, fun r hr => hn.interfaces r (hsub.subset (hperm.subset hr)),
    fun r hr => ?_⟩
  · simpa only [hperm.mem_iff, Network.Joins] using hholds.peers
  · simpa only [hperm.mem_iff] using hholds.exist
  · obtain ⟨site, hsite, rfl⟩ := mem_map.1 hr
    obtain ⟨is, his, hedges, -⟩ := hsites site hsite
    refine ⟨is, perm_of_inOrder his, ?_⟩
    rw [routers, map_map] at hnames
    have hfind : t.site? site.router.name = some site := find?_key hnames hsite
    rw [edges, hfind]
    exact hedges

namespace IsWired

variable (hw : t.IsWired n w) (hr : r ∈ t.routers)
include hw hr

theorem mem_edges_at (hi : i ∈ r.interfaces) :
    e ∈ t.edges r.name ∧ e.interface = i.name ↔ edgeAt t.routers w r i = some e := by
  obtain ⟨is, his, hedges⟩ := hw.edges r hr
  rw [hedges, mem_filterMap]
  constructor
  · rintro ⟨⟨j, hj, he⟩, hname⟩
    have hstart := (edgeAt_ok he).2.1
    obtain rfl : j = i := inj_on_of_nodup_map (hw.interfaces r hr) (his.subset hj) hi (hstart ▸ hname)
    exact he
  · exact fun he => ⟨⟨i, his.symm.subset hi, he⟩, congrArg Interface.name (edgeAt_ok he).2.1⟩

/-- **What decides an edge**: it leads to the only interface that its own is joined to, nowhere if this is of the same
router, and out of the network in all other cases. -/
theorem edge_cases (i : Interface) :
    (∃ q, n.JoinsOnly ⟨r.name, i.name⟩ q ∧ q.router = r.name ∧ edgeAt t.routers w r i = none) ∨
    (∃ peer ∈ t.routers, ∃ j ∈ peer.interfaces, peer.name ≠ r.name ∧
      n.JoinsOnly ⟨r.name, i.name⟩ ⟨peer.name, j.name⟩ ∧
      edgeAt t.routers w r i = some ⟨r.name, i, some (peer.name, j)⟩) ∨
    ((∀ q, n.JoinsOnly ⟨r.name, i.name⟩ q → q.router ∉ t.names) ∧
      (edgeAt t.routers w r i = some ⟨r.name, i, none⟩ ∨
        edgeAt t.routers w r i = none ∧ i.address.isSome = false ∧ ∀ q, ¬ n.Joins ⟨r.name, i.name⟩ q)) := by
  have honly : ∀ {q}, w.peers ⟨r.name, i.name⟩ = [q] ↔ n.JoinsOnly ⟨r.name, i.name⟩ q := hw.holds.peers_eq hr
  unfold edgeAt
  cases hpeers : w.peers ⟨r.name, i.name⟩ with
  | nil =>
    refine .inr (.inr ⟨fun q hq => (cons_ne_nil _ _ ((honly.2 hq).symm.trans hpeers)).elim, ?_⟩)
    cases haddress : i.address.isSome with
    | true => exact .inl rfl
    | false =>
      refine .inr ⟨rfl, rfl, fun q hq => ?_⟩
      have hmem := (hw.holds.peers _ q).2 ⟨⟨r, hr, rfl⟩, hq⟩
      rw [hpeers] at hmem
      cases hmem
  | cons q rest =>
    cases rest with
    | cons q' rest =>
      refine .inr (.inr ⟨fun q hq => ?_, .inl rfl⟩)
      cases hpeers.symm.trans (honly.2 hq)
    | nil =>
      have hq := honly.1 hpeers
      dsimp only
      cases hfind : findNamed? Router.name t.routers q.router with
      | none =>
        refine .inr (.inr ⟨fun q' hq' hname => ?_, .inl rfl⟩)
        obtain rfl := hq.unique hq'
        obtain ⟨site, hsite, hname⟩ := mem_map.1 hname
        exact find?_eq_none.1 hfind site.router (mem_map_of_mem hsite) (beq_iff_eq.2 hname)
      | some peer =>
        obtain ⟨hpeer, hname⟩ := of_findNamed? hfind
        by_cases hself : peer.name = r.name
        · exact .inl ⟨q, hq, hname ▸ hself, by simp [hself]⟩
        · have hback := (hw.holds.peers q _).2 ⟨⟨peer, hpeer, hname⟩, ((hq q).2 rfl).symm⟩
          obtain ⟨peer', hpeer', hname', j, hj, hport⟩ := hw.holds.exist q _ hback
          obtain rfl := inj_on_of_nodup_map hw.routers hpeer hpeer' (hname.trans hname'.symm)
          have hfound : peer.interface? q.interface = some j := hport ▸ find?_key (hw.interfaces peer hpeer) hj
          exact .inr (.inl ⟨peer, hpeer, j, hj, hself, hname ▸ hport ▸ hq, by simp [hself, hfound]⟩)

end IsWired

/-! ## §4. Both directions, and all interfaces -/

variable {name : Name}

/-- **The other direction of an edge** starts where the edge leads, and its own other direction is the edge.  It is an
edge of the peer exactly when the links join the interface there to nothing else; otherwise that interface starts an
edge out of the network. -/
theorem reverse_isMutual (hn : n.IsKeyed) (ht : build n selection = .ok t) (he : e ∈ t.edges name) :
    (e.far = none → e.reverse? = none) ∧ ∀ peer finish, e.far = some (peer, finish) →
      ∃ back, e.reverse? = some back ∧ back.router = peer ∧ back.start = finish ∧ back.far = some (name, e.start) ∧
        back.reverse? = some e ∧
        (back ∈ t.edges peer ↔ n.JoinsOnly ⟨peer, finish.name⟩ ⟨name, e.interface⟩) ∧
        (back ∉ t.edges peer → ⟨peer, finish, none⟩ ∈ t.edges peer) := by
  refine ⟨fun hfar => by rw [Edge.reverse?, hfar]; rfl, fun peerName finish hfar => ?_⟩
  obtain ⟨w, hw⟩ := exists_isWired hn ht
  obtain ⟨site, hsite, rfl, hmem⟩ := site_of_edge he
  have hr : site.router ∈ t.routers := mem_map_of_mem hsite
  obtain ⟨router, start, far⟩ := e
  obtain ⟨hrouter, hstart, -⟩ := edge_isOf ht hsite hmem
  cases hfar
  cases hrouter
  refine ⟨_, rfl, rfl, rfl, rfl, rfl, ?_⟩
  have hedge := (hw.mem_edges_at hr hstart).1 ⟨he, rfl⟩
  obtain ⟨q, -, -, hnone⟩ | ⟨peer, hpeer, j, hj, hself, honly, hsome⟩ | ⟨-, hout⟩ := hw.edge_cases hr start
  · cases hnone.symm.trans hedge
  · cases hsome.symm.trans hedge
    have hback : n.Joins ⟨peer.name, finish.name⟩ ⟨site.router.name, start.name⟩ := ((honly _).2 rfl).symm
    -- what the links say at the far end
    obtain ⟨q, hq, hown, -⟩ | ⟨peer', hpeer', j', hj', -, honly', hsome'⟩ | ⟨hnot, hout⟩ := hw.edge_cases hpeer finish
    · obtain rfl := (hq _).1 hback
      exact (hself hown.symm).elim
    · obtain ⟨hr', hi'⟩ := Endpoint.mk.inj ((honly' _).1 hback)
      obtain rfl := inj_on_of_nodup_map hw.routers hr hpeer' hr'
      obtain rfl := inj_on_of_nodup_map (hw.interfaces _ hr) hstart hj' hi'
      have hmem := ((hw.mem_edges_at hpeer hj).2 hsome').1
      exact ⟨iff_of_true hmem honly', fun hnot => (hnot hmem).elim⟩
    · replace hout := hout.resolve_right fun hnone => hnone.2.2 _ hback
      refine ⟨iff_of_false (fun hmem => ?_) fun honly => hnot _ honly (name_mem hr),
        fun _ => ((hw.mem_edges_at hpeer hj).2 hout).1⟩
      cases hout.symm.trans ((hw.mem_edges_at hpeer hj).1 ⟨hmem, rfl⟩)
  · obtain hout | ⟨hout, -⟩ := hout <;> cases hout.symm.trans hedge

/-- Two routers linked to one interface of a third; two interfaces of the first are linked to each other. -/
def busNetwork : Network where
  routers := ["A", "B", "C"].map fun name =>
    { name := .text name, interfaces := ["i", "j", "k"].map (.port · (.ofOctets 10 0 0 1 24)) }
  links := [.cable "A" "i" "B" "i", .cable "C" "i" "B" "i", .cable "A" "j" "A" "k"]

theorem bus_isKeyed : busNetwork.IsKeyed := ⟨by decide +kernel, by decide +kernel⟩

theorem bus_reverse_isMutual : ∃ t, build busNetwork = .ok t ∧ ∃ e ∈ t.edges (.text "A"), ∃ back,
    e.reverse? = some back ∧ back ∉ t.edges (.text "B") ∧ ⟨.text "B", back.start, none⟩ ∈ t.edges (.text "B") := by
  have hedge : ∃ t, build busNetwork = .ok t ∧ ∃ e ∈ t.edges (.text "A"),
      e.interface = .text "i" ∧ e.far.map (fun f => (f.1, f.2.name)) = some (.text "B", .text "i") := by
    decide +kernel
  obtain ⟨t, ht, e, he, hport, hfar⟩ := hedge
  obtain ⟨⟨peer, finish⟩, hfar, hends⟩ := Option.map_eq_some_iff.1 hfar
  obtain ⟨back, hback, -, hstart, -, -, hmutual, hout⟩ := (reverse_isMutual bus_isKeyed ht he).2 peer finish hfar
  obtain ⟨rfl, hfinish⟩ := Prod.mk.inj hends
  have hnot : back ∉ t.edges (.text "B") := by
    rw [hmutual, hport]
    intro honly
    have hjoins : busNetwork.Joins ⟨.text "B", finish.name⟩ ⟨.text "C", .text "i"⟩ :=
      ⟨_, .tail _ (.head _), .inr ⟨by rw [show finish.name = _ from hfinish]; rfl, rfl⟩⟩
    exact absurd ((honly _).1 hjoins) (by decide)
  exact ⟨t, ht, e, he, back, hback, hnot, hstart ▸ hout hnot⟩

/-- **An interface with an address starts one edge**, unless the links join it only to an interface of its own router.
The edge has a peer exactly when they join it only to an interface of another modeled router. -/
theorem addressed_startsOne (hn : n.IsKeyed) (ht : build n selection = .ok t) (hr : r ∈ t.routers)
    (hi : i ∈ r.interfaces) (haddress : i.address.isSome) :
    ((t.edges r.name).map Edge.interface).Nodup ∧
    (i.name ∉ (t.edges r.name).map Edge.interface ↔ ∃ q, n.JoinsOnly ⟨r.name, i.name⟩ q ∧ q.router = r.name) ∧
    ∀ e ∈ t.edges r.name, e.interface = i.name → e.start = i ∧ ∀ peer, e.peer? = some peer ↔
      peer ∈ t.names ∧ ∃ port, n.JoinsOnly ⟨r.name, i.name⟩ ⟨peer, port⟩ := by
  obtain ⟨w, hw⟩ := exists_isWired hn ht
  have hat := fun e => hw.mem_edges_at hr hi (e := e)
  have hmem : i.name ∈ (t.edges r.name).map Edge.interface ↔ ∃ e, edgeAt t.routers w r i = some e := by
    simp only [mem_map, hat]
  refine ⟨?_, ?_⟩
  · obtain ⟨is, his, hedges⟩ := hw.edges r hr
    rw [hedges]
    exact ((his.map _).nodup_iff.2 (hw.interfaces r hr)).sublist (edges_sublist id is)
  · rw [hmem, not_exists]
    obtain ⟨q, hq, hown, hnone⟩ | ⟨peer, hpeer, j, -, hself, hq, hsome⟩ | ⟨hnot, hout⟩ := hw.edge_cases hr i
    · refine ⟨iff_of_true (fun e he => ?_) ⟨q, hq, hown⟩, fun e he hname => ?_⟩
      · cases hnone.symm.trans he
      · cases hnone.symm.trans ((hat e).1 ⟨he, hname⟩)
    · refine ⟨iff_of_false (fun h => h _ hsome) ?_, fun e he hname => ?_⟩
      · rintro ⟨q', hq', hown⟩
        obtain rfl := hq.unique hq'
        exact hself hown
      · cases hsome.symm.trans ((hat e).1 ⟨he, hname⟩)
        refine ⟨rfl, fun peer' => ⟨?_, ?_⟩⟩
        · rintro ⟨⟩
          exact ⟨name_mem hpeer, _, hq⟩
        · rintro ⟨-, port, hq'⟩
          cases hq.unique hq'
          rfl
    · replace hout := hout.resolve_right fun hnone => by simp [haddress] at hnone
      refine ⟨iff_of_false (fun h => h _ hout) ?_, fun e he hname => ?_⟩
      · rintro ⟨q, hq, hown⟩
        exact hnot q hq (hown ▸ name_mem hr)
      · cases hout.symm.trans ((hat e).1 ⟨he, hname⟩)
        exact ⟨rfl, fun peer => iff_of_false nofun fun ⟨hpeer, port, hq⟩ => hnot _ hq hpeer⟩

theorem bus_addressed_startsOne : ∃ t, build busNetwork = .ok t ∧ ∃ r ∈ t.routers, ∃ i ∈ r.interfaces,
    i.address.isSome ∧ i.name ∉ (t.edges r.name).map Edge.interface := by
  have hport : ∃ t, build busNetwork = .ok t ∧ ∃ r ∈ t.routers, ∃ i ∈ r.interfaces,
      r.name = .text "A" ∧ i.name = .text "j" ∧ i.address.isSome := by
    decide +kernel
  obtain ⟨t, ht, r, hr, i, hi, hname, hport, haddress⟩ := hport
  refine ⟨t, ht, r, hr, i, hi, haddress, ?_⟩
  refine (addressed_startsOne bus_isKeyed ht hr hi haddress).2.1.2 ⟨⟨.text "A", .text "k"⟩, fun q => ?_, hname.symm⟩
  simp [hname, hport, Network.Joins, Link.Joins, busNetwork, Link.cable, Endpoint.ofNames?, Name.ofDocument?, eq_comm]

end Topology

end ControlPlane
