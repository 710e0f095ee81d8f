import ControlPlane.Proofs.Slice.StaticStates

/-!
# Forwarding by static routes

Where no router runs OSPF or BGP, the packet and the failed links decide where packets are sent: every state forwards
by the routes that routers have by themselves (`Frame.forwardsOwn_of_state`), and there is such a state
(`Frame.exists_state`), so there is exactly one way of forwarding (`Encoding.static_forwarding_isUnique`).
-/
namespace ControlPlane

/-! ## §1. States forward alike -/

namespace Frame

variable {f : Frame} {rs : List Redistribution} {basis : Plan.Basis} {v w : Valuation}

/-- **In a state routers choose and forward by the routes that they have by themselves.** -/
theorem forwardsOwn_of_state (hplan : f.IsDecided basis)
    (hstatic : f.topology.IsStatic) {n : Network} {selection request : Document}
    (hbuild : Topology.build n selection = .ok f.topology) (h : (f.slice rs).IsState request v) :
    f.ForwardsOwn rs v where
  access := h.access
  choices l hl := by
    have hown := holdsOwn_of_state hplan hstatic h.transfers h.selection
    obtain ⟨r, q, hr, hp, -⟩ := lane_owner hplan hl
    obtain ⟨hmem, hname⟩ := mem_routers hr
    rw [← hname] at hp ⊢
    have hlane : l ∈ (f.slice rs).lanesOf r.name l.protocol := mem_lanesOf.2 ⟨hl, hname.symm, rfl⟩
    exact (choiceHolds_iff hplan hstatic hown (Topology.name_mem hmem) hp hlane).1
      (h.selection.choices r hmem l.protocol hp l hlane)
  control r hr e he := by
    have hown := holdsOwn_of_state hplan hstatic h.transfers h.selection
    exact (controlHolds_iff hplan hstatic hown hbuild hr he (h.selection.choices r hr)).1
      (h.selection.control r hr e he)
  data := h.selection.data

theorem mem_edges (hd : f.Distinct) {site : Site} (hsite : site ∈ f.topology.sites) {e : Edge} (he : e ∈ site.edges) :
    e ∈ f.topology.edges site.router.name := by
  have hfind : f.topology.site? site.router.name = some site := find?_key hd.routers hsite
  unfold Topology.edges
  rw [hfind]
  exact he

/-- **Such forwarding is told by the packet and the failed links.** -/
theorem ForwardsOwn.agreesOn (hd : f.Distinct) (hreads : f.ReadsAll) (h : f.ForwardsOwn rs v)
    (h' : f.ForwardsOwn rs w) (hvw : v.AgreesOn w f.scenarioVariables) :
    v.AgreesOn w f.forwardingVariables := by
  have hcontrol : ∀ site ∈ f.topology.sites, ∀ e ∈ site.edges,
      (f.controlForwarding e).eval v = (f.controlForwarding e).eval w := by
    intro site hsite e he
    have hr : site.router ∈ f.topology.routers := List.mem_map_of_mem hsite
    have hmem := mem_edges hd hsite he
    rw [Bool.eq_iff_iff, h.control _ hr e hmem, h'.control _ hr e hmem]
    refine exists_congr fun l => and_congr_right fun hl => and_congr_right fun _ => ?_
    rw [ownAt_congr hvw]
    exact hasBest_congr hvw hl
  have hdata : ∀ site ∈ f.topology.sites, ∀ e ∈ site.edges,
      (f.dataForwarding e).eval v = (f.dataForwarding e).eval w := by
    intro site hsite e he
    have hpermits : (f.permits e.router e.start .outgoing).eval v = (f.permits e.router e.start .outgoing).eval w := by
      rw [eval_permits hreads h.access hsite he, eval_permits hreads h'.access hsite he]
      exact allowsOut_congr hvw e
    rw [Bool.eq_iff_iff]
    calc (f.dataForwarding e).eval v = true
      _ ↔ (f.controlForwarding e).eval v = true ∧ (f.permits e.router e.start .outgoing).eval v = true :=
          h.data site hsite e he
      _ ↔ (f.controlForwarding e).eval w = true ∧ (f.permits e.router e.start .outgoing).eval w = true := by
          rw [hcontrol site hsite e he, hpermits]
      _ ↔ (f.dataForwarding e).eval w = true := (h'.data site hsite e he).symm
  intro z hz
  obtain ⟨site, hsite, hz⟩ := List.mem_flatMap.1 hz
  obtain ⟨e, he, hz⟩ := List.mem_flatMap.1 hz
  simp only [List.mem_cons, List.not_mem_nil, or_false] at hz
  rcases hz with rfl | rfl
  · exact hcontrol site hsite e he
  · exact hdata site hsite e he

end Frame

/-! ## §2. One way of forwarding -/

instance (s : Slice) (failures : Document) (v : Valuation) : Decidable (s.IsScenario failures v) :=
  decidable_of_iff (_ ∧ _ ∧ _ ∧ _)
    ⟨fun h => ⟨h.1, h.2.1, h.2.2.1, h.2.2.2⟩, fun h => ⟨h.links, h.failures, h.packet, h.space⟩⟩

namespace Encoding

/-- **Static networks have exactly one forwarding per packet.**  Where no router runs OSPF or BGP and distances are
below 256, every packet and all failed links that are possible belong to a stable state, and all such states forward
alike. -/
theorem static_forwarding_isUnique {n : Network} {req : Request} {e : Encoding} {v : Valuation}
    (he : (encode n req).result = .ok e) (hstatic : e.slice.topology.IsStatic) (hd : e.ledger.Distinct)
    (hscenario : e.slice.IsScenario req.failures v) :
    (∃ w : Valuation, v.AgreesOn w e.slice.scenarioVariables ∧ w.Satisfies e.ledger) ∧
      ∀ w w' : Valuation, v.AgreesOn w e.slice.scenarioVariables → v.AgreesOn w' e.slice.scenarioVariables →
        w.Satisfies e.ledger → w'.Satisfies e.ledger → w.AgreesOn w' e.slice.forwardingVariables := by
  obtain ⟨f, rs, hof⟩ := encode_isOf he
  obtain ⟨encoded, hplan⟩ := Frame.isDecided hof.plan
  obtain ⟨n', hbuild⟩ := topologyOf_ok hof.topology
  have hdistinct : f.Distinct := hd.sublist (hof.declares.sublist.map Variable.name)
  have hsound := hof.sound
  have hcomplete := hof.complete hd
  rw [hof.slice] at hstatic hscenario hsound hcomplete ⊢
  constructor
  · obtain ⟨u, hvu, hstate⟩ := Frame.exists_state hplan hstatic hdistinct hof.reads hbuild hscenario
    obtain ⟨w, huw, hw⟩ := hcomplete u hstate
    exact ⟨w, hvu.trans (huw.mono fun z hz => Frame.common_sub_layout (Frame.scenario_sub_common hz)), hw⟩
  · intro w w' hvw hvw' hw hw'
    have hforwards := fun u hu => Frame.forwardsOwn_of_state hplan hstatic hbuild (hsound u hu)
    exact (hforwards w hw).agreesOn hdistinct hof.reads (hforwards w' hw') (hvw.symm.trans hvw')

/-- A router with static routes to a network of its neighbor, one of them over another interface and with a longer
prefix. -/
def detourNetwork : Network where
  routers := [
    { name := .text "A"
      interfaces := [.port "i" (.ofOctets 10 0 0 1 30), .port "j" (.ofOctets 10 0 0 5 30)]
      staticRoutes := [
        { subnet := .ofOctets 10 9 0 0 24, nextHopInterface := .text "i", adminCost := .int 5 },
        { subnet := .ofOctets 10 9 0 0 25, nextHopInterface := .text "j", adminCost := .null }] },
    { name := .text "B", interfaces := [.port "i" (.ofOctets 10 0 0 2 30), .port "lan" (.ofOctets 10 9 0 1 24)] }]
  links := [.cable "A" "i" "B" "i"]

/-- Packets to that network, with a link that may fail. -/
def detourRequest : Request where
  space := { dstIps := [.ofOctets 10 9 0 0 24] }
  failures := .int 1

/-- A packet to the network, with all links up. -/
def detourScenario : Valuation where
  bool _ := false
  int name := if name == "SLICE-MAIN_dst-ip" then 168361989 else 0
  bits _ := 0

/-- An encoding meets what is said about `detourNetwork`. -/
def IsDetour (e : Encoding) : Prop :=
  e.slice.topology.IsStatic ∧ e.ledger.Distinct ∧ e.slice.IsScenario detourRequest.failures detourScenario

instance : DecidablePred IsDetour := fun e => inferInstanceAs (Decidable (e.slice.topology.IsStatic ∧ _))

theorem detour_static_forwarding_isUnique : ∃ e, (encode detourNetwork detourRequest).result = .ok e ∧ IsDetour e ∧
    (∃ w : Valuation, detourScenario.AgreesOn w e.slice.scenarioVariables ∧ w.Satisfies e.ledger) ∧
    ∀ w w' : Valuation, detourScenario.AgreesOn w e.slice.scenarioVariables →
      detourScenario.AgreesOn w' e.slice.scenarioVariables → w.Satisfies e.ledger → w'.Satisfies e.ledger →
      w.AgreesOn w' e.slice.forwardingVariables := by
  have hdetour : ∃ e, (encode detourNetwork detourRequest).result = .ok e ∧ IsDetour e := by decide +kernel
  obtain ⟨e, he, hdetour⟩ := hdetour
  exact ⟨e, he, hdetour, static_forwarding_isUnique he hdetour.1 hdetour.2.1 hdetour.2.2⟩

end Encoding

end ControlPlane
