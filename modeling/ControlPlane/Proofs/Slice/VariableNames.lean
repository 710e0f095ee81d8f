import ControlPlane.Proofs.Slice.RecordNames

/-!
# Different objects have different variables

The name of a variable joins the texts of what it is for.  Where the names of a network are told apart, so are the
forwarding variables of edges, the records of a slice and the variables of access lists.  A failure variable is that
of a link: an edge shares it with its other direction, and with every other edge between the same two routers.
-/
namespace ControlPlane

open Option Topology Edge Router Interface

variable {k : Direction} {selection : Document} {d e : Edge} {f : Frame} {p : Name} {n : Network} {site : Site}
  {tag : String} {t : Topology}

/-! ## §1. Forwarding and access lists -/

def Edge.filter (e : Edge) : Direction → Option AccessList
  | .incoming => e.start.incomingFilter
  | .outgoing => e.start.outgoingFilter

theorem Edge.isSome_of_filter (e : Edge) {a : AccessList} (h : e.filter k = some a) :
    e.start.incomingFilter.isSome ∨ e.start.outgoingFilter.isSome := by
  cases k with
  | incoming => exact .inl (isSome_of_mem h)
  | outgoing => exact .inr (isSome_of_mem h)

/-- The text of a direction in the name of an access list's variable. -/
def Direction.side : Direction → String
  | .incoming => "INBOUND"
  | .outgoing => "OUTBOUND"

theorem Direction.side_inj {d e : Direction} (h : d.side = e.side) : d = e := by
  revert h
  cases d <;> cases e <;> decide

namespace Frame

theorem accessName_eq (f : Frame) (router interface : Name) (d : Direction) (list : Document) :
    f.accessName router interface d list =
      f.name ++ router.shown ++ "_" ++ (interface.shown ++ "_" ++ (d.side ++ "_" ++ list.shown)) := by
  cases d <;> simp only [accessName, Direction.side, String.append_assoc]

variable (h : f.topology.TellsNames) (hown : f.topology.OwnsEdges)
include h hown

theorem texts_of_joined (hd : d ∈ f.topology.siteEdges) (he : e ∈ f.topology.siteEdges) {label x y : String}
    (hde : label ++ d.router.shown ++ "_" ++ x = label ++ e.router.shown ++ "_" ++ y) :
    d.router.shown = e.router.shown ∧ x = y :=
  labelled_inj (h.plain_router hown hd) (h.plain_router hown he) hde

theorem forwarding_nodup : (f.forwardingVariables.map Variable.name).Nodup := by
  -- the two kinds of variables differ in the label
  have hlabels : ∀ a b x y : String,
      f.name ++ "control-forwarding_" ++ a ++ "_" ++ b ≠ f.name ++ "data-forwarding_" ++ x ++ "_" ++ y := by
    intro a b x y hxy
    have hlists := congrArg String.toList hxy
    simp at hlists
  unfold forwardingVariables
  simp only [List.map_flatMap, List.map_cons, List.map_nil]
  refine h.nodup_flatMap_edges hown (fun e _ => ?_) fun d hd e he z hzd hze => ?_
  · refine List.nodup_cons.2 ⟨fun hmem => ?_, List.nodup_singleton _⟩
    exact hlabels _ _ _ _ (List.mem_singleton.1 hmem)
  · simp only [List.mem_cons, List.not_mem_nil, or_false] at hzd hze
    obtain rfl | rfl := hzd
    · obtain hze | hze := hze
      · exact texts_of_joined h hown hd he hze
      · exact absurd hze (hlabels _ _ _ _)
    · obtain hze | hze := hze
      · exact absurd hze.symm (hlabels _ _ _ _)
      · exact texts_of_joined h hown hd he hze

omit h hown in
theorem mem_accessNames {z : String}
    (hz : z ∈ (f.accessVariables e .outgoing e.start.outgoingFilter ++
      f.accessVariables e .incoming e.start.incomingFilter).map Variable.name) :
    ∃ k a, e.filter k = some a ∧ z = f.accessName e.router e.interface k a.name := by
  rw [List.map_append, List.mem_append] at hz
  obtain hz | hz := hz
  · obtain ⟨x, hx, rfl⟩ := List.mem_map.1 hz
    obtain ⟨a, ha, rfl⟩ := map_eq_some_iff.1 (mem_toList.1 hx)
    exact ⟨.outgoing, a, ha, rfl⟩
  · obtain ⟨x, hx, rfl⟩ := List.mem_map.1 hz
    obtain ⟨a, ha, rfl⟩ := map_eq_some_iff.1 (mem_toList.1 hx)
    exact ⟨.incoming, a, ha, rfl⟩

variable (hplain : ∀ e ∈ f.topology.siteEdges, e.start.incomingFilter.isSome ∨
  e.start.outgoingFilter.isSome → '_' ∉ e.interface.shown.toList)
include hplain

theorem texts_of_accessName (hd : d ∈ f.topology.siteEdges) (he : e ∈ f.topology.siteEdges) {k' : Direction}
    {a a' : AccessList} (ha : d.filter k = some a) (ha' : e.filter k' = some a')
    (hname : f.accessName d.router d.interface k a.name = f.accessName e.router e.interface k' a'.name) :
    d.router.shown = e.router.shown ∧ d.interface.shown = e.interface.shown ∧ k = k' := by
  have hside : ∀ d : Direction, '_' ∉ d.side.toList := by
    intro d
    cases d <;> decide
  rw [accessName_eq, accessName_eq] at hname
  obtain ⟨hrouter, hrest⟩ := texts_of_joined h hown hd he hname
  obtain ⟨hinterface, hrest⟩ := joined_inj (hplain d hd (d.isSome_of_filter ha)) (hplain e he (e.isSome_of_filter ha'))
    hrest
  exact ⟨hrouter, hinterface, Direction.side_inj (joined_inj (hside k) (hside k') hrest).1⟩

/-- **Access lists have different variables**, if the interfaces that they are at are named without underscores. -/
theorem access_nodup : (f.allAccessVariables.map Variable.name).Nodup := by
  unfold allAccessVariables
  simp only [List.map_flatMap]
  refine h.nodup_flatMap_edges hown (fun e he => ?_) fun d hd e he z hzd hze => ?_
  · rw [List.map_append]
    refine List.nodup_append.2 ⟨?_, ?_, fun x hx y hy => ?_⟩
    · unfold accessVariables
      cases e.start.outgoingFilter <;> simp
    · unfold accessVariables
      cases e.start.incomingFilter <;> simp
    · -- the two lists of an edge differ in the direction
      rintro rfl
      obtain ⟨z, hz, rfl⟩ := List.mem_map.1 hx
      obtain ⟨a, ha, rfl⟩ := map_eq_some_iff.1 (mem_toList.1 hz)
      obtain ⟨z, hz, hname⟩ := List.mem_map.1 hy
      obtain ⟨a', ha', rfl⟩ := map_eq_some_iff.1 (mem_toList.1 hz)
      have hin : e.filter .incoming = some a' := ha'
      have hout : e.filter .outgoing = some a := ha
      exact absurd (texts_of_accessName h hown hplain he he hin hout hname).2.2 nofun
  · obtain ⟨k, a, ha, rfl⟩ := mem_accessNames hzd
    obtain ⟨k', a', ha', hname⟩ := mem_accessNames hze
    obtain ⟨hrouter, hinterface, -⟩ := texts_of_accessName h hown hplain hd he ha ha' hname
    exact ⟨hrouter, hinterface⟩

end Frame

/-! ## §2. Failures -/

/-- Two edges are over one link: they leave the network at one interface, or lie between the same two routers. -/
def Edge.SameLink (d e : Edge) : Prop :=
  match d.peer?, e.peer? with
  | none, none => d.router = e.router ∧ d.interface = e.interface
  | some p, some q => d.router = e.router ∧ p = q ∨ d.router = q ∧ p = e.router
  | _, _ => False

def inTextOrder (a b : Name) : Name × Name := if a.le b then (a, b) else (b, a)

theorem inTextOrder_swap (s t : String) : inTextOrder (.text s) (.text t) = inTextOrder (.text t) (.text s) := by
  have hle : ∀ s t : String, (Name.text s).le (.text t) = decide (s ≤ t) := fun _ _ => rfl
  unfold inTextOrder
  rw [hle, hle]
  by_cases hst : s ≤ t
  · by_cases hts : t ≤ s
    · rw [String.le_antisymm hst hts]
    · simp only [hst, hts, decide_true, decide_false, if_true]
      rfl
  · have hts := (String.le_total s t).resolve_left hst
    simp only [hst, hts, decide_true, decide_false, if_true]
    rfl

theorem inTextOrder_eq_or (a b : Name) : inTextOrder a b = (a, b) ∨ inTextOrder a b = (b, a) := by
  unfold inTextOrder
  split
  · exact .inl rfl
  · exact .inr rfl

namespace Frame

theorem failureName_of_peer (hp : e.peer? = some p) : failureName tag e =
    tag ++ "FAILED-INTERNAL_" ++ (inTextOrder e.router p).1.shown ++ "_" ++ (inTextOrder e.router p).2.shown := by
  unfold failureName inTextOrder
  rw [hp]

theorem failureName_of_none (hp : e.peer? = none) : failureName tag e =
    tag ++ "FAILED-EDGE_" ++ e.router.shown ++ "_" ++ e.interface.shown := by
  unfold failureName
  rw [hp]

theorem failureName_ne (hd : d.peer? = none) (he : e.peer? = some p) : failureName tag d ≠ failureName tag e := by
  rw [failureName_of_none hd, failureName_of_peer he]
  intro hname
  have hlists := congrArg String.toList hname
  simp at hlists

theorem mem_inTextOrder {names : List Name} {a b : Name} (ha : a ∈ names) (hb : b ∈ names) :
    (inTextOrder a b).1 ∈ names ∧ (inTextOrder a b).2 ∈ names := by
  obtain heq | heq := inTextOrder_eq_or a b <;> rw [heq]
  · exact ⟨ha, hb⟩
  · exact ⟨hb, ha⟩

variable (h : t.TellsNames)
include h

theorem inTextOrder_of_failureName {q : Name} (hdp : d.peer? = some p) (hep : e.peer? = some q)
    (hd : d.router ∈ t.names) (hp : p ∈ t.names) (he : e.router ∈ t.names) (hq : q ∈ t.names)
    (hname : failureName tag d = failureName tag e) : inTextOrder d.router p = inTextOrder e.router q := by
  rw [failureName_of_peer hdp, failureName_of_peer hep] at hname
  obtain ⟨hd₁, hd₂⟩ := mem_inTextOrder hd hp
  obtain ⟨he₁, he₂⟩ := mem_inTextOrder he hq
  obtain ⟨hone, htwo⟩ := labelled_inj (h.plain_shown hd₁) (h.plain_shown he₁) hname
  exact Prod.ext (h.name_of_shown hd₁ he₁ hone) (h.name_of_shown hd₂ he₂ htwo)

variable (hown : t.OwnsEdges) (hd : d ∈ t.siteEdges) (he : e ∈ t.siteEdges)
include hown hd he

/-- **Edges share a failure variable exactly when they are over one link.** -/
theorem failureName_eq_iff (tag : String) : failureName tag d = failureName tag e ↔ d.SameLink e := by
  have hmem : ∀ {e}, e ∈ t.siteEdges → e.router ∈ t.names ∧ ∀ p, e.peer? = some p → p ∈ t.names := by
    intro e he
    obtain ⟨s, hs, he⟩ := List.mem_flatMap.1 he
    exact ⟨hown.router s hs e he ▸ List.mem_map_of_mem hs, hown.peer s hs e he⟩
  obtain ⟨hdrouter, hdpeer⟩ := hmem hd
  obtain ⟨herouter, hepeer⟩ := hmem he
  unfold Edge.SameLink
  cases hdp : d.peer? with
  | none =>
    cases hep : e.peer? with
    | none =>
      rw [failureName_of_none hdp, failureName_of_none hep]
      constructor
      · intro hname
        obtain ⟨hrouter, hinterface⟩ := labelled_inj (h.plain_shown hdrouter) (h.plain_shown herouter) hname
        obtain rfl := h.edge_of_texts hown hd he hrouter hinterface
        exact ⟨rfl, rfl⟩
      · rintro ⟨hrouter, hinterface⟩
        rw [hrouter, hinterface]
    | some q => exact ⟨fun hname => failureName_ne hdp hep hname, False.elim⟩
  | some p =>
    cases hep : e.peer? with
    | none => exact ⟨fun hname => failureName_ne hep hdp hname.symm, False.elim⟩
    | some q =>
      constructor
      · intro hname
        have hpair := inTextOrder_of_failureName h hdp hep hdrouter (hdpeer p hdp) herouter (hepeer q hep) hname
        obtain hd | hd := inTextOrder_eq_or d.router p <;> obtain he | he := inTextOrder_eq_or e.router q <;>
          rw [hd, he] at hpair <;> obtain ⟨hone, htwo⟩ := Prod.mk.inj hpair
        · exact .inl ⟨hone, htwo⟩
        · exact .inr ⟨hone, htwo⟩
        · exact .inr ⟨htwo, hone⟩
        · exact .inl ⟨htwo, hone⟩
      · rw [failureName_of_peer hdp, failureName_of_peer hep]
        rintro (⟨hrouter, rfl⟩ | ⟨rfl, rfl⟩)
        · rw [hrouter]
        · -- the other direction names the two routers in the same order
          obtain ⟨s, hs, -⟩ := h.plain d.router hdrouter
          obtain ⟨s', hs', -⟩ := h.plain e.router herouter
          rw [hs, hs', inTextOrder_swap]

end Frame

/-! ## §3. Encodings -/

def Interface.reaches (i : Interface) (x : Neighbor) : Bool :=
  (i.subnet?.map fun s => s.contains x.address.value).getD false

structure Network.TellsAnnouncements (n : Network) : Prop where
  places : ∀ r ∈ n.routers, ∀ i ∈ r.interfaces, Text.startsWith "ENV-" i.name.shown = false
  neighbors : ∀ r ∈ n.routers, ∀ p ∈ r.bgp, ∀ x ∈ p.neighbors, ∀ i ∈ r.interfaces, ∀ j ∈ r.interfaces,
    i.reaches x → j.reaches x → i.name = j.name

def Network.TellsAccess (n : Network) : Prop :=
  ∀ r ∈ n.routers, ∀ i ∈ r.interfaces, i.incomingFilter.isSome ∨ i.outgoingFilter.isSome →
    '_' ∉ i.name.shown.toList

namespace Topology

theorem mem_sessions {x : Neighbor} (h : t.session? e = some x) : ∃ d, d.id = e.id ∧ (d, x) ∈ t.sessions := by
  unfold session? at h
  generalize t.sessions = xs at h
  induction xs with
  | nil => cases h
  | cons y rest ih =>
    rw [List.lookup_cons] at h
    split at h
    · next hbeq => exact ⟨y.1, (beq_iff.1 hbeq).symm, Option.some.inj h ▸ List.mem_cons_self⟩
    · obtain ⟨d, hd, hmem⟩ := ih h
      exact ⟨d, hd, List.mem_cons_of_mem _ hmem⟩

theorem reaches_of_session (hbuild : build n selection = .ok t) (h : t.TellsNames) (hsite : site ∈ t.sites)
    (he : e ∈ site.edges) {x : Neighbor} (hx : t.session? e = some x) :
    ∃ p, site.router.bgp = some p ∧ x ∈ p.neighbors ∧ e.start.reaches x := by
  obtain ⟨d, hid, hmem⟩ := mem_sessions hx
  obtain ⟨-, -, -, -, hsessions, -⟩ := build_ok hbuild
  rw [hsessions] at hmem
  obtain ⟨site', hsite', hmem⟩ := List.mem_flatMap.1 hmem
  obtain ⟨y, hy, hpair⟩ := List.mem_map.1 hmem
  cases hpair
  unfold sessionsOf at hy
  split at hy
  · cases hy
  · next p hp =>
    obtain ⟨d, hd, hy⟩ := List.mem_filterMap.1 hy
    obtain ⟨z, hz, rfl⟩ := map_eq_some_iff.1 hy
    -- the edge that the session was found for is this one
    have hown := ownsEdges_of_build hbuild
    have hbeq := beq_iff.2 hid
    obtain rfl := h.edge_of_texts hown (List.mem_flatMap.2 ⟨_, hsite', hd⟩) (List.mem_flatMap.2 ⟨_, hsite, he⟩)
      (congrArg Name.shown (router_of_beq hbeq)) (congrArg Name.shown (interface_of_beq hbeq))
    have hname : site'.router.name = site.router.name :=
      (hown.router _ hsite' _ hd).symm.trans (hown.router _ hsite _ he)
    obtain rfl : site' = site := List.inj_on_of_nodup_map h.sites hsite' hsite hname
    unfold sessionOver? at hz
    split at hz
    · cases hz
    · next s hs =>
      obtain ⟨w, hw, rfl⟩ := map_eq_some_iff.1 hz
      obtain ⟨hw, hcontains⟩ := List.mem_filter.1 (List.mem_of_getLast? hw)
      refine ⟨p, hp, (List.mem_zipIdx hw).2.2 ▸ List.getElem_mem _, ?_⟩
      unfold Interface.reaches
      rw [hs]
      exact hcontains

end Topology

namespace Encoding

variable {routers : Document} (ht : topologyOf n routers = .ok f.topology)
include ht

theorem interface_of_topologyOf (hsite : site ∈ f.topology.sites) (he : e ∈ site.edges) :
    ∃ r ∈ n.routers, r.withoutCosts = site.router.withoutCosts ∧
      ∃ i ∈ r.interfaces, i.withoutCost = e.start.withoutCost := by
  obtain ⟨r, hr, heq⟩ := router_of_topologyOf ht (List.mem_map_of_mem hsite)
  obtain ⟨n', hbuild⟩ := topologyOf_ok ht
  exact ⟨r, hr, heq, interface_of_withoutCosts heq.symm (edge_isOf hbuild hsite he).start⟩

theorem tellsAnnouncements_of_topologyOf (hn : n.TellsNames) (h : n.TellsAnnouncements) : f.TellsAnnouncements where
  places e he x hx := by
    obtain ⟨site, hsite, he⟩ := List.mem_flatMap.1 he
    obtain ⟨r, hr, -, i, hi, hie⟩ := interface_of_topologyOf ht hsite he
    obtain ⟨hname, -⟩ := eq_of_withoutCost hie
    have hstarts := h.places r hr i hi
    rw [hname, show e.start.name.shown = "ENV-" ++ x from hx] at hstarts
    unfold Text.startsWith at hstarts
    rw [String.toList_append] at hstarts
    exact absurd (List.isPrefixOf_iff_prefix.2 (List.prefix_append _ _)) (Bool.eq_false_iff.1 hstarts)
  neighbors router d hd e he x y hx hy haddress := by
    obtain ⟨n', hbuild⟩ := topologyOf_ok ht
    have htells := tellsNames_of_topologyOf ht hn
    unfold Topology.edges at hd he
    cases hsite : f.topology.site? router with
    | none =>
      rw [hsite] at hd
      cases hd
    | some site =>
      rw [hsite] at hd he
      have hmem := List.mem_of_find?_eq_some hsite
      obtain ⟨p, hp, hxp, hdx⟩ := reaches_of_session hbuild htells hmem hd hx
      obtain ⟨p', hp', -, hey⟩ := reaches_of_session hbuild htells hmem he hy
      obtain ⟨r, hr, heq, i, hi, hid⟩ := interface_of_topologyOf ht hmem hd
      obtain ⟨j, hj, hje⟩ := interface_of_withoutCosts heq.symm (edge_isOf hbuild hmem he).start
      have hreach : ∀ {i i' : Interface} {z z' : Neighbor}, i.address = i'.address → z.address = z'.address →
          i.reaches z = i'.reaches z' := by
        intro i i' z z' haddress hz
        unfold Interface.reaches Interface.subnet?
        rw [haddress, hz]
      have hbgp : r.bgp = some p := (bgp_of_withoutCosts heq).trans hp
      obtain ⟨hiname, hiaddress, -⟩ := eq_of_withoutCost hid
      obtain ⟨hjname, hjaddress, -⟩ := eq_of_withoutCost hje
      have hnames := h.neighbors r hr p hbgp x hxp i hi j hj ((hreach hiaddress rfl).trans hdx)
        ((hreach hjaddress haddress).trans hey)
      exact hiname.symm.trans (hnames.trans hjname)

theorem plainAccess_of_topologyOf (h : n.TellsAccess) : ∀ e ∈ f.topology.siteEdges,
    e.start.incomingFilter.isSome ∨ e.start.outgoingFilter.isSome → '_' ∉ e.interface.shown.toList := by
  intro e he hfilter
  obtain ⟨site, hsite, he⟩ := List.mem_flatMap.1 he
  obtain ⟨r, hr, -, i, hi, hie⟩ := interface_of_topologyOf ht hsite he
  obtain ⟨hname, -, hincoming, houtgoing⟩ := eq_of_withoutCost hie
  have hplain := h r hr i hi
  rw [hincoming, houtgoing, hname] at hplain
  exact hplain hfilter

end Encoding

namespace Encoding

/-- **Different objects have different variables**, where the names of a network are told apart.  The forwarding
variables of all edges are different.  Edges share a failure variable when they are over one link, and only then.  No
two records have the same name, if announcements are told apart as well, and no two access lists have the same
variable, if their interfaces are named without underscores. -/
theorem variables_areDistinct {n : Network} {req : Request} {e : Encoding} (he : (encode n req).result = .ok e)
    (hn : n.TellsNames) :
    (e.slice.forwardingVariables.map Variable.name).Nodup ∧
    (∀ d ∈ e.slice.topology.siteEdges, ∀ d' ∈ e.slice.topology.siteEdges,
      Frame.failureName e.slice.tag d = Frame.failureName e.slice.tag d' ↔ d.SameLink d') ∧
    (n.TellsAnnouncements → (e.slice.records.map Record.name).Nodup) ∧
    (n.TellsAccess → (e.slice.allAccessVariables.map Variable.name).Nodup) := by
  obtain ⟨f, rs, hof⟩ := encode_isOf he
  obtain ⟨n', hbuild⟩ := topologyOf_ok hof.topology
  have h := tellsNames_of_topologyOf hof.topology hn
  have hown := ownsEdges_of_build hbuild
  rw [hof.slice]
  refine ⟨Frame.forwarding_nodup h hown, fun d hd d' hd' => Frame.failureName_eq_iff h hown hd hd' _,
    fun hannounced => ?_, fun haccess => ?_⟩
  · exact Frame.records_nodup h (Frame.plansOnce_of_compute hof.plan)
      (tellsAnnouncements_of_topologyOf hof.topology hn hannounced)
  · exact Frame.access_nodup h hown (plainAccess_of_topologyOf hof.topology haccess)

/-- Two routers with a link, one of them with an access list and a neighbor in another autonomous system. -/
def linkedNetwork : Network where
  routers := [
    { name := .text "A"
      interfaces := [
        { Interface.port "ab" (.ofOctets 10 0 0 1 30) with
          incomingFilter := some ⟨.text "in_none", []⟩, outgoingFilter := some ⟨.text "out_none", []⟩ },
        .port "out" (.ofOctets 10 0 0 5 30)]
      bgp := some (.speaker "1.1.1.1" [.peer (.ofOctets 10 0 0 6) 2 1]) },
    { name := .text "B", interfaces := [.port "ba" (.ofOctets 10 0 0 2 30)] }]
  links := [.cable "A" "ab" "B" "ba"]

theorem linked_variables_areDistinct : linkedNetwork.TellsNames ∧ linkedNetwork.TellsAnnouncements ∧
    linkedNetwork.TellsAccess ∧ ∃ e, (encode linkedNetwork {}).result = .ok e ∧
      e.slice.forwardingVariables.length = 6 ∧ (e.slice.forwardingVariables.map Variable.name).Nodup ∧
      (∃ d ∈ e.slice.topology.siteEdges, ∃ d' ∈ e.slice.topology.siteEdges, d.interface ≠ d'.interface ∧
        d.SameLink d') ∧
      e.slice.records.length = 12 ∧ (e.slice.records.map Record.name).Nodup ∧
      e.slice.allAccessVariables.length = 2 ∧ (e.slice.allAccessVariables.map Variable.name).Nodup := by
  have hnames : linkedNetwork.TellsNames := ⟨by decide +kernel, by decide +kernel, by decide +kernel⟩
  have hannounced : linkedNetwork.TellsAnnouncements := ⟨by decide +kernel, by decide +kernel⟩
  have haccess : linkedNetwork.TellsAccess := by
    unfold Network.TellsAccess
    decide +kernel
  have hlinked : ∃ e, (encode linkedNetwork {}).result = .ok e ∧ e.slice.forwardingVariables.length = 6 ∧
      e.slice.records.length = 12 ∧ e.slice.allAccessVariables.length = 2 ∧
      ∃ d ∈ e.slice.topology.siteEdges, ∃ d' ∈ e.slice.topology.siteEdges, d.interface ≠ d'.interface ∧
        Frame.failureName e.slice.tag d = Frame.failureName e.slice.tag d' := by
    decide +kernel
  obtain ⟨e, he, hforwarding, hrecords, hfilters, d, hd, d', hd', hne, hshared⟩ := hlinked
  obtain ⟨hforward, hlinks, hrecord, hfilter⟩ := variables_areDistinct he hnames
  exact ⟨hnames, hannounced, haccess, e, he, hforwarding, hforward,
    ⟨d, hd, d', hd', hne, (hlinks d hd d' hd').1 hshared⟩,
    hrecords, hrecord hannounced, hfilters, hfilter haccess⟩

/-- Two routers that read the same once the names of their interfaces are appended. -/
def joinedNetwork : Network where
  routers := [
    { name := .text "a", interfaces := [.port "b_c" (.ofOctets 10 0 0 1 30)] },
    { name := .text "a_b", interfaces := [.port "c" (.ofOctets 10 0 1 1 30)] }]

/-- Without `Network.TellsNames`, edges of two routers may share all their variables: the parts of a name are joined by
underscores, and those of the parts are not escaped. -/
theorem joined_variables_areShared : ∃ e, (encode joinedNetwork {}).result = .ok e ∧
    ¬ (e.slice.forwardingVariables.map Variable.name).Nodup ∧
    ∃ d ∈ e.slice.topology.siteEdges, ∃ d' ∈ e.slice.topology.siteEdges, d.router ≠ d'.router ∧
      d.peer? = none ∧ d'.peer? = none ∧ Frame.failureName e.slice.tag d = Frame.failureName e.slice.tag d' := by
  decide +kernel

end Encoding

end ControlPlane
