import ControlPlane.Proofs.Slice.Selection
import ControlPlane.Proofs.Slice.Validity

/-!
# Stable states

What an encoding says, in values: `Slice.IsState`.  A valuation that satisfies an encoding is a state of its
slice, and every state can be completed at the helper variables of transfers to a valuation that satisfies the
encoding (`Encoding.IsOf`), so that slices with the same states have encodings with the same solutions
(`Encoding.IsOf.sameOn`).
-/
namespace ControlPlane

open List Term Record

variable {failures : Document} {e : Encoding} {f : Frame} {m : Lane} {cs : List (Term .bool)} {rs : List Redistribution}
  {n : Network} {req : Request} {s : Slice} {v : Valuation}

/-! ## §1. Communities are listed once -/

theorem nodup_eraseDups {α : Type} [BEq α] [LawfulBEq α] (xs : List α) : xs.eraseDups.Nodup := by
  induction h : xs.length using Nat.strongRecOn generalizing xs with
  | ind n ih =>
    cases xs with
    | nil => simp
    | cons x rest =>
      rw [eraseDups_cons, nodup_cons]
      have hlength : (rest.filter fun y => !y == x).length < n := by
        rw [← h]
        exact Nat.lt_succ_of_le (length_filter_le _ _)
      refine ⟨fun hx => ?_, ih _ hlength _ rfl⟩
      simp at hx

theorem Community.nodup_ofRouters {routers : List Router} {cs : List Community}
    (h : Community.ofRouters routers = .ok cs) : cs.Nodup := by
  obtain ⟨ordered, -, h⟩ := bind_eq_ok.1 h
  obtain ⟨found, -, h⟩ := bind_eq_ok.1 h
  dsimp only at h
  split at h
  · exact absurd h (by simp [throw, throwThe, MonadExceptOf.throw, bind, Except.bind])
  · cases h
    exact (perm_sortWith _).nodup_iff.2 (nodup_eraseDups _)

/-! ## §2. States -/

namespace Slice

structure IsState (s : Slice) (failures : Document) (v : Valuation) : Prop where
  links : ∀ e ∈ s.topology.links, 0 ≤ v.int (Frame.failureName s.tag e) ∧ v.int (Frame.failureName s.tag e) ≤ 1
  failures : ∀ cs, failureConstraints failures (s.topology.failureTerms s.tag) = .ok cs → ∀ c ∈ cs, c.eval v
  packet : ∀ l ∈ packetLimits, 0 ≤ (s.packet.field l.1).eval v ∧ (s.packet.field l.1).eval v < l.2
  access : ∀ c ∈ s.allAccessTerms, c.eval v
  records : ∀ x ∈ s.records, x.IsValid s.dependencies v
  transfers : s.TransfersHold v
  selection : s.SelectionHolds v
  /-- Nothing is received over an inactive interface. -/
  inactive : ∀ l ∈ s.lanes, l.incoming.used → Topology.isActive l.protocol l.edge.start = false →
    l.incoming.permits.eval v = false
  space : ∀ cs, s.space.constraints s.packet = .ok cs → ∀ c ∈ cs, c.eval v

structure IsScenario (s : Slice) (failures : Document) (v : Valuation) : Prop where
  links : ∀ e ∈ s.topology.links, 0 ≤ v.int (Frame.failureName s.tag e) ∧ v.int (Frame.failureName s.tag e) ≤ 1
  failures : ∀ cs, failureConstraints failures (s.topology.failureTerms s.tag) = .ok cs → ∀ c ∈ cs, c.eval v
  packet : ∀ l ∈ packetLimits, 0 ≤ (s.packet.field l.1).eval v ∧ (s.packet.field l.1).eval v < l.2
  space : ∀ cs, s.space.constraints s.packet = .ok cs → ∀ c ∈ cs, c.eval v

theorem IsState.isScenario (h : s.IsState failures v) :
    s.IsScenario failures v := ⟨h.links, h.failures, h.packet, h.space⟩

theorem holds_inactive : (∀ c ∈ s.inactiveConstraints, c.eval v) ↔
    ∀ l ∈ s.lanes, l.incoming.used → Topology.isActive l.protocol l.edge.start = false →
      l.incoming.permits.eval v = false := by
  unfold inactiveConstraints
  rw [forall_mem_map]
  constructor
  · intro h l hl hused hactive
    exact (holds_not v).1 (h l (mem_filter.2 ⟨hl, by rw [hused, hactive]; rfl⟩))
  · intro h l hl
    obtain ⟨hl, hprop⟩ := mem_filter.1 hl
    simp only [Bool.and_eq_true, Bool.not_eq_true'] at hprop
    exact (holds_not v).2 (h l hl hprop.1 hprop.2)

theorem holds_stable (hedges : ∀ l ∈ s.lanes, l.edge ∈ s.topology.edges l.router) (h : s.stableConstraints = .ok cs) :
    (∀ c ∈ cs, c.eval v) ↔ s.SelectionHolds v ∧
      (∀ x ∈ s.records, ∀ c ∈ resetConstraints x, c.eval v) ∧
      (∀ l ∈ s.lanes, l.incoming.used → Topology.isActive l.protocol l.edge.start = false →
        l.incoming.permits.eval v = false) ∧
      ∀ cs, s.space.constraints s.packet = .ok cs → ∀ c ∈ cs, c.eval v := by
  obtain ⟨perProtocol, hper, h⟩ := bind_eq_ok.1 h
  obtain ⟨choices, hchoices, h⟩ := bind_eq_ok.1 h
  obtain ⟨overall, hoverall, h⟩ := bind_eq_ok.1 h
  obtain ⟨control, hcontrol, h⟩ := bind_eq_ok.1 h
  obtain ⟨space, hspace, h⟩ := bind_eq_ok.1 h
  cases h
  simp only [forall_mem_append]
  rw [holds_history, holds_perProtocol hper, holds_choices hchoices, holds_overall hoverall,
    holds_control hedges hcontrol, holds_data, holds_inactive, hspace, forall_mem_flatMap]
  have hin : (∀ cs, (Except.ok space : Except Failure _) = .ok cs → ∀ c ∈ cs, c.eval v) ↔
      ∀ c ∈ space, c.eval v :=
    ⟨fun h => h space rfl, fun h cs hcs => Except.ok.inj hcs ▸ h⟩
  rw [hin]
  constructor
  · rintro ⟨h₁, h₂, h₃, h₄, h₅, h₆, h₇, h₈, h₉⟩
    exact ⟨⟨h₁, h₂, h₃, h₄, h₅, h₆⟩, h₇, h₈, h₉⟩
  · rintro ⟨h, h₇, h₈, h₉⟩
    exact ⟨h.history, h.perProtocol, h.choices, h.overall, h.control, h.data, h₇, h₈, h₉⟩

theorem incoming_of_stable (h : s.stableConstraints = .ok cs) {r : Router} (hr : r ∈ s.topology.routers) {p : Protocol}
    (hp : p ∈ s.protocols r.name) {l : Lane} (hl : l ∈ s.lanesOf r.name p) : ∃ x, s.incoming l = .ok x := by
  obtain ⟨perProtocol, hper, -⟩ := bind_eq_ok.1 h
  obtain ⟨groups, hgroups, -⟩ := bind_eq_ok.1 hper
  obtain ⟨group, -, hgroup⟩ := exists_of_mapM_eq_ok hgroups hr
  obtain ⟨terms, -, hterms⟩ := exists_of_mapM_eq_ok hgroup hp
  obtain ⟨best, -, hterms⟩ := bind_eq_ok.1 hterms
  obtain ⟨candidates, hcandidates, -⟩ := bind_eq_ok.1 hterms
  obtain ⟨c, -, hc⟩ := exists_of_mapM_eq_ok hcandidates hl
  obtain ⟨x, hx, -⟩ := bind_eq_ok.1 hc
  exact ⟨x, hx⟩

end Slice

/-! ## §3. States are about the variables of records -/

namespace Frame

variable {w : Valuation}

theorem scenario_packet : f.packet.Over f.scenarioVariables := ⟨scenario_field, scenario_flag⟩

theorem over_packet : f.packet.Over f.commonVariables := ⟨over_field, over_flag⟩

theorem scenario_failureTerms : ∀ t ∈ f.topology.failureTerms f.tag, t.Over f.scenarioVariables := by
  intro t ht
  obtain ⟨e, he, rfl⟩ := mem_map.1 ht
  refine within_intVar.2 (mem_append_left _ ?_)
  exact mem_map_of_mem (f := fun d => (⟨failureName f.tag d, .int⟩ : Variable)) (mem_sortWith.1 he)

theorem scenario_failures (h : failureConstraints failures (f.topology.failureTerms f.tag) = .ok cs) :
    ∀ c ∈ cs, c.Over f.scenarioVariables := by
  unfold failureConstraints at h
  split at h
  · cases h
    exact nofun
  · split at h
    · cases h
      intro c hc
      obtain ⟨t, ht, rfl⟩ := mem_map.1 hc
      exact (scenario_failureTerms t ht).eq (within_intLit 0)
    · obtain ⟨n, -, h⟩ := bind_eq_ok.1 h
      cases h
      exact forall_mem_singleton.2 ((within_sum.2 scenario_failureTerms).compare (within_intLit n))

/-- What is said about the packet and the failed links depends on their variables. -/
theorem isScenario_fixes : Valuation.Fixes f.scenarioVariables ((f.slice rs).IsScenario failures) := by
  intro v w hvw h
  constructor
  · intro e he
    have hmem : (⟨failureName f.tag e, .int⟩ : Variable) ∈ f.scenarioVariables :=
      mem_append_left _ (mem_map.2 ⟨e, he, rfl⟩)
    have hval : v.int (failureName f.tag e) = w.int (failureName f.tag e) := (within_intVar.2 hmem).eval_eq v w hvw
    have hlink := h.links e he
    show 0 ≤ w.int (failureName f.tag e) ∧ w.int (failureName f.tag e) ≤ 1
    rw [← hval]
    exact hlink
  · intro cs hcs c hc
    rw [← (scenario_failures hcs c hc).eval_eq v w hvw]
    exact h.failures cs hcs c hc
  · intro l hl
    have hval : (f.packet.field l.1).eval v = (f.packet.field l.1).eval w := (scenario_field l.1).eval_eq v w hvw
    show 0 ≤ (f.packet.field l.1).eval w ∧ (f.packet.field l.1).eval w < l.2
    rw [← hval]
    exact h.packet l hl
  · intro cs hcs c hc
    rw [← (HeaderSpace.over_constraints scenario_packet _ _ hcs c hc).eval_eq v w hvw]
    exact h.space cs hcs c hc

theorem over_access : ∀ c ∈ f.allAccessTerms, c.Over f.commonVariables := by
  intro c hc
  obtain ⟨site, hsite, hc⟩ := mem_flatMap.1 hc
  obtain ⟨e, he, hc⟩ := mem_flatMap.1 hc
  -- a defined variable and the list that it stands for
  have hterm : ∀ d list, (∀ x ∈ f.accessVariables e d list, x ∈ f.commonVariables) →
      c ∈ f.accessTerms e d list → c.Over f.commonVariables := by
    intro d list hdeclared hc
    cases list with
    | none => cases hc
    | some a =>
      unfold accessTerms at hc
      rw [Option.bind_some] at hc
      cases hpermits : a.permits f.packet with
      | error fault =>
        rw [hpermits] at hc
        cases hc
      | ok t =>
        rw [hpermits] at hc
        obtain rfl := mem_singleton.1 hc
        exact (within_boolVar.2 (hdeclared _ (mem_singleton_self _))).eq
          (AccessList.over_permits over_packet _ _ hpermits)
  rcases mem_append.1 hc with hc | hc
  · exact hterm .outgoing _ (fun x hx => access_mem hsite he (mem_append_left _ hx)) hc
  · exact hterm .incoming _ (fun x hx => access_mem hsite he (mem_append_right _ hx)) hc

theorem over_choice (hm : m ∈ f.allLanes) : m.choice.Over f.commonVariables := by
  have hmem : (⟨m.incoming.name ++ "_choice", .bool⟩ : Variable) ∈ f.choiceVariables := mem_map.2 ⟨m, hm, rfl⟩
  exact within_boolVar.2 (mem_append_right _ (mem_append_right _ (mem_append_right _
    (mem_append_left _ hmem))))

theorem incoming_mem {x : Record} (hm : m ∈ f.allLanes) (hx : (f.slice rs).incoming m = .ok x) : x ∈ f.records := by
  rcases incoming_cases hx with ⟨hused, rfl⟩ | ⟨-, m', hm', rfl⟩
  · exact mem_incoming hm hused
  · exact mem_outgoing (mem_opposite hm').1

theorem twins_self (hm : m ∈ f.allLanes) (hvw : v.AgreesOn w f.layoutVariables) :
    Slice.Twins v w (f.slice rs) (f.slice rs) m m where
  router := rfl
  protocol := rfl
  edge := rfl
  choice := (over_choice hm).eval_eq v w (hvw.mono common_sub_layout)
  incoming := by
    cases hx : (f.slice rs).incoming m with
    | error fault => rfl
    | ok x => exact congrArg some (record_sameValues (incoming_mem hm hx) hvw)

theorem similar_self (hvw : v.AgreesOn w f.layoutVariables) :
    Slice.Similar v w (f.slice rs) (f.slice rs) where
  topology := rfl
  protocols _ := rfl
  isSingle _ := rfl
  lanes := forall₂_same.2 fun m hm => twins_self hm hvw
  bests := forall₂_same.2 fun b hb => by
    have hmem : ∀ x ∈ b.records, x ∈ f.records := by
      obtain ⟨n, hn, rfl⟩ := mem_map.1 hb
      exact fun x hx => mem_append_left _ (mem_append_left _ (mem_flatMap.2 ⟨n, hn, hx⟩))
    refine ⟨rfl, record_sameValues (hmem _ mem_cons_self) hvw, forall₂_same.2 fun e he => ⟨rfl, ?_⟩⟩
    exact record_sameValues (hmem _ (mem_cons_of_mem _ (mem_map_of_mem he))) hvw
  control site hsite e he := (over_controlForwarding hsite he).eval_eq v w (hvw.mono common_sub_layout)
  data site hsite e he := (over_dataForwarding hsite he).eval_eq v w (hvw.mono common_sub_layout)
  permits site hsite e he := (over_permits hsite he .outgoing).eval_eq v w (hvw.mono common_sub_layout)

/-- **Being a state depends on the variables that come before those of transfers.** -/
theorem isState_fixes (hf : f.communities.Nodup) :
    Valuation.Fixes f.layoutVariables ((f.slice rs).IsState failures) := by
  intro v w hvw h
  have hcommon : v.AgreesOn w f.commonVariables := hvw.mono common_sub_layout
  have hscenario := isScenario_fixes v w (hcommon.mono scenario_sub_common) h.isScenario
  refine ⟨hscenario.links, hscenario.failures, hscenario.packet, ?_, ?_, ?_, ?_, ?_, hscenario.space⟩
  · intro c hc
    rw [← (over_access c hc).eval_eq v w hcommon]
    exact h.access c hc
  · intro x hx
    exact (h.records x hx).congr (record_sameValues hx hvw) rfl
  · exact (demands_transfers hf).fixes v w hvw h.transfers
  · exact (similar_self hvw).selectionHolds h.selection
  · intro m hm hused hactive
    rw [← (incoming_sameValues hm hvw).permits]
    exact h.inactive m hm hused hactive

end Frame

/-! ## §4. Encodings and states -/

namespace Encoding

structure IsOf (n : Network) (req : Request) (e : Encoding) (f : Frame) (rs : List Redistribution) : Prop where
  topology : topologyOf n req.routers = .ok f.topology
  tag : Frame.tagOf req.id = .ok f.tag
  space : f.space = req.space
  plan : Plan.compute req.switches f.topology f.space req.failures = .ok f.plan
  communities : Community.ofRouters f.topology.routers = .ok f.communities
  dependencies : Community.dependencies f.communities = .ok f.dependencies
  redistributions : f.redistributions = .ok rs
  slice : e.slice = f.slice rs
  /-- The constraints on failures, packets and access lists can be written. -/
  bounded : ∃ cs, failureConstraints req.failures (f.topology.failureTerms f.tag) = .ok cs
  filtered : ∃ cs, f.space.constraints f.packet = .ok cs
  reads : f.ReadsAll
  received : ∀ r ∈ f.topology.routers, ∀ p ∈ f.protocols r.name, ∀ l ∈ e.slice.lanesOf r.name p,
    ∃ x, e.slice.incoming l = .ok x
  priced : ∀ r ∈ f.topology.routers, .ospf ∈ f.protocols r.name → e.slice.mergesExport r.name .ospf = false →
    ∀ l ∈ e.slice.lanesOf r.name .ospf, Topology.isActive .ospf l.edge.start →
      ∃ cost, l.edge.start.ospfCost.integer = .ok cost
  declares : f.layoutVariables <+: e.ledger.vars
  sound : ∀ v : Valuation, v.Satisfies e.ledger → e.slice.IsState req.failures v
  complete : e.ledger.Distinct → ∀ v : Valuation, e.slice.IsState req.failures v →
    ∃ w : Valuation, v.AgreesOn w f.layoutVariables ∧ w.Satisfies e.ledger

theorem isState_iff {bounds : List (Term .bool)}
    (hbounds : failureConstraints failures (f.topology.failureTerms f.tag) = .ok bounds)
    (hstable : (f.slice rs).stableConstraints = .ok cs) :
    (f.slice rs).IsState failures v ↔
      (∀ c ∈ failureBounds f.topology f.tag ++ bounds ++ (f.bounds ++ ((f.slice rs).boundConstraints ++
        (f.slice rs).communityConstraints)), c.eval v) ∧
      (f.slice rs).TransfersHold v ∧ ∀ c ∈ cs, c.eval v := by
  have hedges : ∀ l ∈ (f.slice rs).lanes, l.edge ∈ (f.slice rs).topology.edges l.router :=
    fun l hl => Frame.lane_edge hl
  have hlinks : (∀ c ∈ failureBounds f.topology f.tag, c.eval v) ↔ ∀ e ∈ f.topology.links,
      0 ≤ v.int (Frame.failureName f.tag e) ∧ v.int (Frame.failureName f.tag e) ≤ 1 := by
    unfold failureBounds
    rw [forall_mem_map]
    refine forall₂_congr fun e _ => ?_
    rw [holds_and_two, holds_ge, holds_le]
    exact Iff.rfl
  have hrecords : (∀ c ∈ f.bounds, c.eval v) ↔
      (∀ x ∈ f.records, ∀ c ∈ x.bounds, c.eval v) ∧ ∀ c ∈ f.allAccessTerms, c.eval v := by
    unfold Frame.bounds Frame.records
    simp only [forall_mem_append, forall_mem_flatMap]
    tauto
  have hpacket : (∀ c ∈ (f.slice rs).boundConstraints, c.eval v) ↔
      (∀ l ∈ Slice.packetLimits, 0 ≤ (f.packet.field l.1).eval v ∧ (f.packet.field l.1).eval v < l.2) ∧
        ∀ x ∈ f.records, ∀ c ∈ Slice.recordBounds x, c.eval v := by
    unfold Slice.boundConstraints
    rw [forall_mem_append, forall_mem_map, forall_mem_flatMap]
    exact and_congr (forall₂_congr fun l _ => holds_below) Iff.rfl
  have hpatterns : (∀ c ∈ (f.slice rs).communityConstraints, c.eval v) ↔
      ∀ x ∈ f.records, ∀ c ∈ Record.patternConstraints f.dependencies x, c.eval v := by
    exact forall_mem_flatMap
  have hfailures : (∀ cs, failureConstraints failures (f.topology.failureTerms f.tag) = .ok cs →
      ∀ c ∈ cs, c.eval v) ↔ ∀ c ∈ bounds, c.eval v :=
    ⟨fun h => h bounds hbounds, fun h cs hcs => Except.ok.inj (hbounds.symm.trans hcs) ▸ h⟩
  simp only [forall_mem_append]
  rw [hlinks, hrecords, hpacket, hpatterns, Slice.holds_stable hedges hstable]
  constructor
  · intro h
    have hvalid : ∀ x ∈ f.records, _ := fun x hx => isValid_iff.1 (h.records x hx)
    exact ⟨⟨⟨h.links, hfailures.1 h.failures⟩, ⟨fun x hx => (hvalid x hx).1, h.access⟩,
      ⟨h.packet, fun x hx => (hvalid x hx).2.1⟩, fun x hx => (hvalid x hx).2.2.1⟩, h.transfers, h.selection,
      fun x hx => (hvalid x hx).2.2.2, h.inactive, h.space⟩
  · rintro ⟨⟨⟨hl, hfail⟩, ⟨hplaces, haccess⟩, ⟨hlimits, hranges⟩, hpat⟩, htransfers, hselection, hreset, hinactive,
      hspace⟩
    exact ⟨hl, hfailures.2 hfail, hlimits, haccess,
      fun x hx => isValid_iff.2 ⟨hplaces x hx, hranges x hx, hpat x hx, hreset x hx⟩, htransfers, hselection,
      hinactive, hspace⟩

/-- **The models of an encoding are the stable states of its slice.** -/
theorem encode_isOf (h : (encode n req).result = .ok e) : ∃ f rs, IsOf n req e f rs := by
  rw [encode_result] at h
  obtain ⟨t, htopology, h⟩ := bind_eq_ok.1 h
  obtain ⟨tag, f, failures, rs, l₁, l₂, cs, htag, hbuild, hfailures, hlays, hslice, hvars,
    hrequired, htransfers, hstable, hledger⟩ := ofTopology_ok h
  obtain ⟨hplan, hcommunities, hdependencies, rfl, rfl, hspace⟩ := Frame.build_ok hbuild
  have hnodup := Community.nodup_ofRouters hcommunities
  rw [hslice] at hrequired htransfers hstable
  have hlayout : l₁.vars = f.layoutVariables := hvars
  have hdemand := (Frame.demands_transfers hnodup).run l₁ () l₂ (fun x hx => hlayout ▸ hx) htransfers
  have hiff := fun v => isState_iff (v := v) hfailures hstable
  -- a ledger is satisfied when all three parts are
  have hsatisfies : ∀ v : Valuation, v.Satisfies e.ledger ↔
      (∀ c ∈ l₁.required, c.eval v) ∧ v.SatisfiesSince l₁ l₂ ∧ ∀ c ∈ cs, c.eval v := by
    intro v
    unfold Valuation.Satisfies Valuation.SatisfiesSince
    rw [hledger.required, Ledger.required_since hdemand.grows, forall_mem_append, forall_mem_append,
      and_assoc]
  refine ⟨f, rs, htopology, htag, hspace, hspace ▸ hplan, hcommunities, hdependencies,
    hlays.redistributions, hslice, ⟨failures, hfailures⟩, ?_, hlays.reads, ?_, ?_, ?_, fun v hv => ?_,
    fun hdistinct v hv => ?_⟩
  · obtain ⟨perProtocol, -, hstable⟩ := bind_eq_ok.1 hstable
    obtain ⟨choices, -, hstable⟩ := bind_eq_ok.1 hstable
    obtain ⟨overall, -, hstable⟩ := bind_eq_ok.1 hstable
    obtain ⟨control, -, hstable⟩ := bind_eq_ok.1 hstable
    obtain ⟨space, hfilters, -⟩ := bind_eq_ok.1 hstable
    exact ⟨space, hfilters⟩
  · rw [hslice]
    exact fun r hr p hp l hl => Slice.incoming_of_stable hstable hr hp hl
  · rw [hslice]
    exact fun r hr hp hmerges l hl hactive => Frame.ospfCost_of_transfers htransfers hr hp hmerges hl hactive
  · rw [hledger.vars, append_nil, ← hlayout]
    exact hdemand.grows.vars
  · obtain ⟨hbefore, hsince, hafter⟩ := (hsatisfies v).1 hv
    rw [hslice]
    exact (hiff v).2 ⟨hrequired ▸ hbefore, hdemand.sound v hsince, hafter⟩
  · rw [hslice] at hv
    have hdistinct : l₂.Distinct := by
      unfold Ledger.Distinct at hdistinct ⊢
      rwa [hledger.vars, append_nil] at hdistinct
    obtain ⟨w, hvw, hsince⟩ := hdemand.complete hdistinct v hv.transfers
    rw [hlayout] at hvw
    obtain ⟨hbefore, -, hafter⟩ := (hiff w).1 (Frame.isState_fixes hnodup v w hvw hv)
    exact ⟨w, hvw, (hsatisfies w).2 ⟨hrequired.symm ▸ hbefore, hsince, hafter⟩⟩

end Encoding

/-! ## §5. Encodings with the same solutions -/

def Ledger.SameOn (vars : List Variable) (l l' : Ledger) : Prop :=
  (∀ v : Valuation, v.Satisfies l → ∃ w : Valuation, v.AgreesOn w vars ∧ w.Satisfies l') ∧
    ∀ w : Valuation, w.Satisfies l' → ∃ v : Valuation, w.AgreesOn v vars ∧ v.Satisfies l

theorem Encoding.IsOf.sameOn {n' : Network} {req' : Request} {e' : Encoding} {f' : Frame} {rs' : List Redistribution}
    (h : IsOf n req e f rs) (h' : IsOf n' req' e' f' rs') (hd : e.ledger.Distinct) (hd' : e'.ledger.Distinct)
    {vars : List Variable} (hvars : vars ⊆ f.layoutVariables) (hvars' : vars ⊆ f'.layoutVariables)
    (hthere : ∀ v : Valuation, (f.slice rs).IsState req.failures v → ∃ w : Valuation, v.AgreesOn w vars ∧
      (f'.slice rs').IsState req'.failures w)
    (hback : ∀ w : Valuation, (f'.slice rs').IsState req'.failures w → ∃ v : Valuation, w.AgreesOn v vars ∧
      (f.slice rs).IsState req.failures v) :
    e.ledger.SameOn vars e'.ledger := by
  constructor
  · intro v hv
    obtain ⟨u, hvu, hu⟩ := hthere v (h.slice ▸ h.sound v hv)
    obtain ⟨w, huw, hw⟩ := h'.complete hd' u (h'.slice.symm ▸ hu)
    exact ⟨w, hvu.trans (huw.mono hvars'), hw⟩
  · intro w hw
    obtain ⟨u, hwu, hu⟩ := hback w (h'.slice ▸ h'.sound w hw)
    obtain ⟨v, huv, hv⟩ := h.complete hd u (h.slice.symm ▸ hu)
    exact ⟨v, hwu.trans (huv.mono hvars), hv⟩

end ControlPlane
