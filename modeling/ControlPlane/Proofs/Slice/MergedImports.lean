import ControlPlane.Proofs.Slice.SentRoutes
import ControlPlane.Proofs.Slice.Sharing

/-!
# Imports that use the record at the other side

An import that would change nothing has no record and no transfer of its own: what is received is what the other side
sends.  The import would still test the link, set the mark of iBGP, and put the local preference and the communities in
order, so that this is only exact where what is sent needs none of it (`Slice.PassesOn`).
-/
namespace ControlPlane

open List Record Bool

variable {p : Protocol} {r : Router} {t : Topology} {failures : Document}
  {encoded encoded' : List (Name × List Protocol)} {plan : Plan} {f : Frame} {l l' m : Lane} {rs : List Redistribution}
  {switches : Switches} {v w : Valuation} {x : Record}

/-! ## §1. Plans in which imports have records -/

namespace Plan

variable {s s' : Switches} {space : HeaderSpace} {plan' : Plan}

def OwnImports (q q' : ProtocolPlan) : Prop := q.mergesExport = q'.mergesExport ∧ q'.mergedImports = []

theorem alike_ownImports (h : Decides s t space failures encoded plan)
    (h' : Decides s' t space failures encoded' plan') (hslicing : s.slicing = s'.slicing)
    (hexport : s.exportMerge = s'.exportMerge) (hoff : s'.importExportMerge = false) :
    plan.Alike OwnImports plan' := by
  refine h.alike h' hslicing fun r p q q' hq hq' => ⟨?_, ?_⟩
  · have hcan := hq.mergesExport
    unfold canMergeExport at hcan
    rw [hexport] at hcan
    exact Except.ok.inj (hcan.symm.trans hq'.mergesExport)
  · have hmerged := hq'.mergedImports
    unfold computeMergedImports at hmerged
    rw [hoff] at hmerged
    exact (pure_eq_ok.1 hmerged).symm

end Plan

namespace Frame

theorem mergesExport_ownImports (h : f.plan.Alike Plan.OwnImports plan) (name : Name) (p : Protocol) :
    ((f.withPlan plan).slice rs).mergesExport name p = (f.slice rs).mergesExport name p := by
  rw [mergesExport_planFor, mergesExport_planFor]
  refine congrArg (Option.getD · false) (Plan.forall₂_map_find? (planFor_alike h name).protocols (fun q q' hq => ?_)
    fun q q' hq => hq.shares.1).symm
  rw [hq.protocol]

namespace Mates

variable (hl : Mates Plan.OwnImports f plan l l') (h : f.plan.Alike Plan.OwnImports plan)
include hl h

theorem outgoing_eq : l'.outgoing = l.outgoing := by
  obtain ⟨-, router, q, q', e, hq, rfl, rfl⟩ := hl
  show (f.withPlan plan).exportRecord router q' e = f.exportRecord router q e
  unfold exportRecord sharedExport
  rw [← hq.shares.1, ← hq.protocol]
  split <;> rw [planned_alike h] <;> rfl

/-- The import has a record of its own. -/
theorem incoming_own : l'.incoming = .planned f l.incoming.name l.router l.protocol := by
  rw [incoming_name hl.mem]
  obtain ⟨-, router, q, q', e, hq, rfl, rfl⟩ := hl
  show (f.withPlan plan).importRecord router q' e = .planned f (f.importName router q.protocol e) router q.protocol
  unfold importRecord
  rw [hq.shares.2, ← hq.protocol, ← planned_alike h]
  rfl

theorem incoming_used : l'.incoming.used := by
  rw [hl.incoming_own h]
  rfl

/-- An import that has a record in both plans has the same one. -/
theorem incoming_eq (hused : l.incoming.used) : l'.incoming = l.incoming := by
  rw [hl.incoming_own h]
  obtain ⟨-, router, q, q', e, hq, rfl, rfl⟩ := hl
  show Record.planned f (f.importRecord router q e).name router q.protocol = f.importRecord router q e
  rw [(importRecord_eq hused).2]
  rfl

end Mates

end Frame

/-! ## §2. Imports that change nothing -/

theorem Plan.importPolicy_of_identity {e : Edge} (hp : p ≠ .best) (h : Plan.isIdentityImport t e p) :
    t.importPolicy r p e = .ok none := by
  unfold Topology.importPolicy
  cases p with
  | best => exact absurd rfl hp
  | bgp =>
    have hsessions := (and_eq_true_iff.1 h).2
    dsimp only at hsessions ⊢
    split at hsessions
    next near far hnear hfar =>
      have hnull := (and_eq_true_iff.1 hsessions).1
      have hnull : near.importPolicy = .null := by
        cases hpolicy : near.importPolicy with
        | null => rfl
        | _ =>
          rw [hpolicy] at hnull
          exact absurd hnull (by simp [Document.same, Document.number?])
      rw [hnear]
      dsimp only
      rw [hnull]
      rfl
    next => cases hsessions
  | connected | static | ospf => rfl

namespace Frame

theorem identity_of_unused (hplan : f.IsDecided ⟨switches, failures, encoded⟩) (hd : f.Distinct)
    (hl : l ∈ f.allLanes) (hused : l.incoming.used = false) (hr : f.topology.router l.router = .ok r) :
    Plan.isIdentityImport f.topology l.edge l.protocol ∧ r.originatesInto l.protocol f.space = .ok false := by
  obtain ⟨r', hmem, hname, hmerged⟩ := isMergedImport_of_unused hplan hl hused
  obtain ⟨hrouter, hrname⟩ := mem_routers hr
  obtain rfl := hd.router_eq hmem hrouter (hname.trans hrname.symm)
  obtain ⟨d, hdm, hid, hidentity⟩ := hmerged.identity
  rw [hname] at hdm
  obtain rfl := hd.edge_eq hdm (lane_edge hl) hid
  exact ⟨hidentity, hmerged.silent⟩

theorem not_bound_of_originatesInto (hfiltered : ∃ cs, f.space.constraints f.packet = .ok cs)
    (h : (f.slice rs).IsScenario failures v) (hnot : r.originatesInto p f.space = .ok false) :
    ∃ subnets, r.originated p = .ok subnets ∧ (f.packet.isBoundFor subnets).eval v = false := by
  obtain ⟨subnets, hsubnets, hnot⟩ := bind_eq_ok.1 hnot
  obtain ⟨cs, hcs⟩ := hfiltered
  have hnone := pure_eq_ok.1 hnot
  refine ⟨subnets, hsubnets, (Slice.matching_eq_nil (s := f.slice rs)).1 ?_⟩
  unfold Slice.matching
  rw [filter_eq_nil_iff]
  intro n hn hholds
  have hoverlaps := HeaderSpace.overlapsDst_of_holdsOf hcs (h.space cs hcs) hholds
  exact any_eq_false.1 hnone n hn hoverlaps

theorem sendsCommunities_of_identity (hm : (f.slice rs).opposite? l = some m)
    (hidentity : Plan.isIdentityImport f.topology l.edge l.protocol) :
    (f.slice rs).sendsCommunities l = (f.slice rs).sendsCommunities m := by
  obtain ⟨-, hprotocol, back, hback, -, hbeq⟩ := mem_opposite hm
  unfold Slice.sendsCommunities
  rw [hprotocol]
  cases hp : l.protocol == .bgp with
  | false => rfl
  | true =>
    unfold Plan.isIdentityImport at hidentity
    rw [beq_iff_eq.1 hp, hback] at hidentity
    have hsessions := (and_eq_true_iff.1 hidentity).2
    rw [Option.bind_some, ← Topology.session?_of_id (Edge.beq_iff.1 hbeq)] at hsessions
    show (true && (f.topology.session? l.edge).any _) = (true && (f.topology.session? m.edge).any _)
    dsimp only at hsessions
    split at hsessions
    next near far hnear hfar =>
      rw [hnear, hfar]
      exact Document.truthy_of_same (and_eq_true_iff.1 hsessions).2
    next => cases hsessions

end Frame

/-! ## §3. Routes that are passed on -/

/-- What is sent over the lane `m` can be received over the lane `l` of the other direction as it is. -/
structure Slice.PassesOn (s : Slice) (failures : Document) (l m : Lane) : Prop where
  link : Frame.failureName s.tag l.edge = Frame.failureName s.tag m.edge
  /-- Both sides take the session for the same kind, and record marks of iBGP alike. -/
  session : s.isInternalLane l = s.isInternalLane m
  marks : l.protocol = .bgp → (s.planFor l.router).needsBgpInternal = (s.planFor m.router).needsBgpInternal
  localPref : s.plan.keepLocalPref = false ∨ s.isInternalLane l ∨
    ∀ r, s.topology.router m.router = .ok r → ∀ q ∈ r.policies, Statement.keepLocalPref q.statements
  origin : (∀ r, s.topology.router m.router = .ok r → r.originatesInto m.protocol s.space = .ok false) ∨
    failures.isPositive = .ok false ∧ s.isInternalLane l = false ∧
      (m.protocol = .bgp → s.sendsCommunities l ∨ s.communities = [])

instance (s : Slice) (failures : Document) (l m : Lane) : Decidable (s.PassesOn failures l m) :=
  decidable_of_iff (_ ∧ _ ∧ _ ∧ _ ∧ _)
    ⟨fun h => ⟨h.1, h.2.1, h.2.2.1, h.2.2.2.1, h.2.2.2.2⟩, fun h => ⟨h.link, h.session, h.marks, h.localPref, h.origin⟩⟩

/-- The records of a lane are not named as those of best routes and of announcements are. -/
structure Lane.NamesApart (l : Lane) : Prop where
  incoming : l.incoming.isBest = false ∧ l.incoming.isEnvironment = false
  outgoing : l.outgoing.isBest = false ∧ l.outgoing.isEnvironment = false

instance (l : Lane) : Decidable l.NamesApart :=
  decidable_of_iff (_ ∧ _) ⟨fun h => ⟨h.1, h.2⟩, fun h => ⟨h.1, h.2⟩⟩

namespace Frame

theorem planned_localPref {label : String} {name : Name} (hkeep : f.plan.keepLocalPref = false) :
    (Record.planned f label name p).localPref = none := by
  refine numberIf_eq_none.2 ?_
  cases p with
  | best | bgp | ospf => exact hkeep
  | connected | static => rfl

/-- **A route that is passed on needs no import of its own.** -/
theorem settled_of_passesOn (hplan : f.IsDecided ⟨switches, failures, encoded⟩)
    (hbounded : ∃ cs, failureConstraints failures (f.topology.failureTerms f.tag) = .ok cs)
    (hfiltered : ∃ cs, f.space.constraints f.packet = .ok cs) (h : (f.slice rs).IsState failures v)
    (hl : l ∈ f.allLanes) (hm : (f.slice rs).opposite? l = some m)
    (hpasses : (f.slice rs).PassesOn failures l m)
    (hidentity : Plan.isIdentityImport f.topology l.edge l.protocol)
    (hpermits : m.outgoing.permits.eval v) : (f.slice rs).Settled l v m.outgoing := by
  obtain ⟨hmem, hprotocol, -⟩ := mem_opposite hm
  obtain ⟨r, subnets, hsent⟩ := sent_of_permits hplan hbounded h hmem hpermits
  have hsends := sendsCommunities_of_identity hm hidentity
  obtain ⟨label, hrecord⟩ := outgoing_planned hmem
  have hbest := lane_ne_best hplan hmem
  -- where the sender originates the destination, the conditions on such networks hold
  have horigin : (f.slice rs).matching subnets v = [] ∨ failures.isPositive = .ok false ∧
      (f.slice rs).isInternalLane l = false ∧
        (m.protocol = .bgp → (f.slice rs).sendsCommunities l ∨ f.communities = []) := by
    refine hpasses.origin.imp_left fun hnot => ?_
    obtain ⟨subnets', hsubnets', hbound⟩ := not_bound_of_originatesInto hfiltered h.isScenario (hnot r hsent.router)
    cases hsent.originated.symm.trans hsubnets'
    exact Slice.matching_eq_nil.2 hbound
  constructor
  · rcases horigin with hnil | ⟨hpositive, -⟩
    · have hup : ((f.slice rs).notFailed m.edge).eval v := hsent.link hnil
      show (Term.is (.intVar (failureName f.tag l.edge)) 0).eval v
      rw [show failureName f.tag l.edge = failureName f.tag m.edge from hpasses.link]
      exact hup
    · exact (Term.eval_is v _ 0).2 (h.not_failed hpositive hbounded (lane_edge hl))
  · exact fun n limit hn hlimit => hsent.metric n limit hn (hprotocol ▸ hlimit)
  · intro n hn
    rcases hpasses.localPref with hkeep | hinternal | hpolicies
    · have hnone : m.outgoing.localPref = none := by
        rw [hrecord]
        exact planned_localPref hkeep
      have hn : m.outgoing.localPref.map _ = some n := hn
      rw [hnone] at hn
      cases hn
    · exact .inl hinternal
    · cases hinternal : (f.slice rs).isInternalLane l with
      | true => exact .inl rfl
      | false =>
        exact .inr (hsent.localPref (hpolicies r hsent.router) (hpasses.session.symm.trans hinternal) n hn)
  · intro b hb
    rw [hsent.internal b hb, ← hpasses.session]
    rcases horigin with hnil | ⟨-, hexternal, -⟩
    · rw [hnil]
      exact and_true _
    · rw [hexternal]
      rfl
  · intro hnot e he
    rcases horigin with hnil | ⟨-, -, hcommunities⟩
    · exact hsent.withheld hnil (hsends ▸ hnot) e he
    · rw [hrecord] at he
      by_cases hp : m.protocol = .bgp
      · have hnone := (hcommunities hp).resolve_left (by simp [hnot])
        exact absurd he (by simp [Record.planned, Record.communitiesOf, hnone])
      · exact absurd he (by simp [Record.planned, Record.communitiesOf, Record.wantsCommunities, hp, hbest])

section Own

variable (h : f.plan.Alike Plan.OwnImports plan)
  (hplan : f.IsDecided ⟨switches, failures, encoded⟩) (hd : f.Distinct)
  (hl : Mates Plan.OwnImports f plan l l') (hused : l.incoming.used = false) (hm : (f.slice rs).opposite? l = some m)
  (hpasses : (f.slice rs).PassesOn failures l m) (hnames : l.incoming.isBest = false)
  (hnames' : m.outgoing.isBest = false)
include h hplan hl hm hpasses hnames hnames'

theorem ownImport_sameForm : l'.incoming.SameForm m.outgoing ∧ m.outgoing.ospfArea = none := by
  obtain ⟨hmem, hprotocol, -⟩ := mem_opposite hm
  obtain ⟨label, hrecord⟩ := outgoing_planned hmem
  have hbest := lane_ne_best hplan hl.mem
  rw [hrecord, hprotocol] at hnames' ⊢
  rw [hl.incoming_own h]
  exact ⟨planned_sameForm hbest hnames hnames' hpasses.marks, planned_ospfArea hnames'⟩

include hd hused

/-- **Where routes are passed on, an own record holds what the other side sends.** -/
theorem receivesFrom_own (hnodup : f.communities.Nodup)
    (hdependencies : Community.dependencies f.communities = .ok f.dependencies)
    (hfiltered : ∃ cs, f.space.constraints f.packet = .ok cs) (hr : f.topology.router l.router = .ok r)
    (hscenario : (f.slice rs).IsScenario failures w) (hvalid : l'.incoming.IsValid f.dependencies w)
    (hvalid' : m.outgoing.IsValid f.dependencies w)
    (hsettled : m.outgoing.permits.eval w → ((f.withPlan plan).slice rs).Settled l' w m.outgoing) :
    ((f.withPlan plan).slice rs).ReceivesFrom r l' w m.outgoing ↔
      l'.incoming.SameValues w w m.outgoing := by
  obtain ⟨hmem, hprotocol, -⟩ := mem_opposite hm
  obtain ⟨hidentity, horiginates⟩ := identity_of_unused hplan hd hl.mem hused hr
  obtain ⟨hform, harea⟩ := ownImport_sameForm h hplan hl hm hpasses hnames hnames'
  obtain ⟨label, hrecord⟩ := outgoing_planned hmem
  have hplanned : m.outgoing.IsPlanned f := (isPlanned_of_mem (mem_outgoing hmem)).1
  have hown : l'.incoming.HoldsType := by
    rw [hl.incoming_own h]
    exact planned_holdsType
  have hbest := lane_ne_best hplan hl.mem
  have hlocal := isLocal_of_unused hplan hl.mem hused
  have hhistory : m.outgoing.history = none := by
    rw [hrecord]
    rfl
  have hmetric : m.outgoing.metric.isSome := by
    rw [hrecord, hprotocol]
    cases hp : l.protocol with
    | connected | static => cases hp ▸ hlocal
    | best => exact absurd hp hbest
    | bgp | ospf => rfl
  obtain ⟨subnets, hsubnets, hroot⟩ := not_bound_of_originatesInto hfiltered hscenario horiginates
  have hpolicy : f.topology.importPolicy r l'.protocol l'.edge = .ok none := by
    rw [← hl.protocol, ← hl.edge]
    exact Plan.importPolicy_of_identity hbest hidentity
  have hactive : Topology.isActive l'.protocol l'.edge.start := by
    rw [← hl.protocol, ← hl.edge]
    exact (and_eq_true_iff.1 hidentity).1
  exact Slice.receivesFrom_iff hpolicy (hl.protocol ▸ hsubnets) hroot hactive hform harea hhistory hown
    hplanned.holdsType (hplanned.fit hnodup) hmetric (fun c d => Community.kind_of_dependency hdependencies) hvalid
    hvalid' hsettled

end Own

end Frame

/-! ## §4. Values of own records -/

namespace Frame

section Own

variable (h : f.plan.Alike Plan.OwnImports plan)
include h

theorem mem_records_own (hx : x ∈ (f.withPlan plan).records) :
    x ∈ f.records ∨ ∃ l l', Mates Plan.OwnImports f plan l l' ∧ l.incoming.used = false ∧ x = l'.incoming := by
  rcases mem_records hx with hx | ⟨l', hl', hx⟩ | ⟨a', ha', rfl⟩
  · left
    exact mem_append_left _ (mem_append_left _ (allBestRecords_alike h ▸ hx))
  · obtain ⟨l, hl⟩ := exists_mate h hl'
    rcases hx with rfl | ⟨-, rfl⟩
    · rw [hl.outgoing_eq h]
      exact .inl (mem_outgoing hl.mem)
    · cases hused : l.incoming.used with
      | false => exact .inr ⟨l, l', hl, hused, rfl⟩
      | true =>
        rw [hl.incoming_eq h hused]
        exact .inl (mem_incoming hl.mem hused)
  · refine .inl (mem_append_right _ ?_)
    rw [← announcementRecords_alike h]
    exact mem_map_of_mem ha'

theorem records_sub_own : f.records ⊆ (f.withPlan plan).records := by
  intro x hx
  rcases mem_records hx with hx | ⟨l, hl, hx⟩ | ⟨a, ha, rfl⟩
  · exact mem_append_left _ (mem_append_left _ ((allBestRecords_alike h).symm ▸ hx))
  · obtain ⟨l', hl⟩ := exists_mate' h hl
    rcases hx with rfl | ⟨hused, rfl⟩
    · rw [← hl.outgoing_eq h]
      exact mem_outgoing hl.mem'
    · rw [← hl.incoming_eq h hused]
      exact mem_incoming hl.mem' (hl.incoming_used h)
  · refine mem_append_right _ ?_
    rw [announcementRecords_alike h]
    exact mem_map_of_mem ha

theorem layout_sub_own : f.layoutVariables ⊆ (f.withPlan plan).layoutVariables := by
  intro z hz
  refine layoutVariables_perm.symm.subset (mem_append.2 ?_)
  rw [commonVariables_alike h]
  refine (mem_append.1 (layoutVariables_perm.subset hz)).imp_right fun hz => ?_
  obtain ⟨x, hx, hz⟩ := mem_flatMap.1 hz
  exact mem_flatMap.2 ⟨x, records_sub_own h hx, hz⟩

theorem passesOn_mates {m' : Lane} (hl : Mates Plan.OwnImports f plan l l') (hm : Mates Plan.OwnImports f plan m m')
    (hpasses : (f.slice rs).PassesOn failures l m) :
    ((f.withPlan plan).slice rs).PassesOn failures l' m' where
  link := by
    rw [← hl.edge, ← hm.edge]
    exact hpasses.link
  session := (hl.isInternalLane rs).trans (hpasses.session.trans (hm.isInternalLane rs).symm)
  marks hp := by
    rw [← hl.router, ← hm.router]
    have hneeds := hpasses.marks (hl.protocol.trans hp)
    show ((f.withPlan plan).planFor l.router).needsBgpInternal = ((f.withPlan plan).planFor m.router).needsBgpInternal
    rw [← (planFor_alike h l.router).needsBgpInternal, ← (planFor_alike h m.router).needsBgpInternal]
    exact hneeds
  localPref := by
    rw [hl.isInternalLane, ← hm.router]
    exact hpasses.localPref.imp_left h.keepLocalPref.symm.trans
  origin := by
    rw [hl.isInternalLane, hl.sendsCommunities, ← hm.router, ← hm.protocol]
    exact hpasses.origin

theorem importHolds_own (hplan : f.IsDecided ⟨switches, failures, encoded⟩)
    (hl : Mates Plan.OwnImports f plan l l') (hused : l.incoming.used = false)
    (hm : (f.slice rs).opposite? l = some m) :
    ((f.withPlan plan).slice rs).ImportHolds r l' w ↔
      ((f.withPlan plan).slice rs).ReceivesFrom r l' w m.outgoing := by
  obtain ⟨m', hm', hmates⟩ := opposite_mates h hl hm
  have hacross : ((f.withPlan plan).slice rs).across? l' .incoming = some m.outgoing := by
    unfold Slice.across?
    rw [hm']
    exact congrArg some (hmates.outgoing_eq h)
  have hlocal : l'.protocol.isLocal = false := hl.protocol ▸ isLocal_of_unused hplan hl.mem hused
  unfold Slice.ImportHolds
  cases hp : l'.protocol with
  | connected | static => cases hp ▸ hlocal
  | best | bgp | ospf =>
    rw [hacross]
    exact ⟨fun hholds => hholds (hl.incoming_used h), fun hholds _ => hholds⟩

omit h in
theorem settled_mates (ha : f.Agree v w) (hl : Mates Plan.OwnImports f plan l l') (hx : x.SameValues v w x)
    (hs : (f.slice rs).Settled l v x) : ((f.withPlan plan).slice rs).Settled l' w x := by
  constructor
  · have hlink : (f.notFailed l.edge).eval v = (f.notFailed l.edge).eval w :=
      (over_notFailed (lane_edge hl.mem)).eval_eq v w ha.common
    rw [← hl.edge]
    exact hlink.symm.trans hs.link
  · intro n limit hn hlimit
    rw [← hx.under] at hn
    exact hs.metric n limit hn (hl.protocol ▸ hlimit)
  · intro n hn
    rw [← hx.under] at hn
    rw [hl.isInternalLane]
    exact hs.localPref n hn
  · intro b hb
    obtain ⟨c, hc, hvalue⟩ := hx.bgpInternal hb
    cases hb.symm.trans hc
    rw [hl.isInternalLane, ← hs.internal b hb, hvalue]
  · intro hnot e he
    obtain ⟨e', he', -, hvalue⟩ := hx.symm.community he
    rw [hvalue]
    exact hs.withheld (hl.sendsCommunities rs ▸ hnot) e' he'

end Own

end Frame

/-! ## §5. States with and without own records -/

namespace Frame

/-- Everything that uses the record at the other side is passed on. -/
def PassesAll (f : Frame) (rs : List Redistribution) (failures : Document) : Prop :=
  ∀ l ∈ f.allLanes, l.incoming.used = false → ∃ m, (f.slice rs).opposite? l = some m ∧
    (f.slice rs).PassesOn failures l m

section States

variable (h : f.plan.Alike Plan.OwnImports plan)
  (hplan : f.IsDecided ⟨switches, failures, encoded⟩) (hd : f.Distinct)
  (hnames : ∀ l ∈ f.allLanes, l.NamesApart) (hpasses : f.PassesAll rs failures) (hnodup : f.communities.Nodup)
  (hdependencies : Community.dependencies f.communities = .ok f.dependencies)
  (hbounded : ∃ cs, failureConstraints failures (f.topology.failureTerms f.tag) = .ok cs)
  (hfiltered : ∃ cs, f.space.constraints f.packet = .ok cs)
include h hplan hd hnames hpasses hnodup hdependencies hbounded hfiltered

section

variable {switches' : Switches} (hplan' : (f.withPlan plan).IsDecided ⟨switches', failures, encoded'⟩)
include hplan'

theorem own_sameValues (hw : ((f.withPlan plan).slice rs).IsState failures w) (hl : Mates Plan.OwnImports f plan l l')
    (hused : l.incoming.used = false) (hm : (f.slice rs).opposite? l = some m) :
    l'.incoming.SameValues w w m.outgoing := by
  obtain ⟨k, hk, hpass⟩ := hpasses l hl.mem hused
  cases hm.symm.trans hk
  obtain ⟨m', hm', hmates⟩ := opposite_mates h hl hm
  obtain ⟨hmem, -⟩ := mem_opposite hm
  obtain ⟨r, hr, -, hmem', -, -, -, -, himports, -⟩ :=
    lanesHold_of_mem (f := f.withPlan plan) hplan' hw.transfers hl.mem'
  have hr : f.topology.router l.router = .ok r := hl.router ▸ hr
  have hvalid := hw.records _ (mem_incoming hl.mem' (hl.incoming_used h))
  have hvalid' := hw.records _ (records_sub_own h (mem_outgoing hmem))
  refine (receivesFrom_own h hplan hd hl hused hm hpass (hnames l hl.mem).incoming.1 (hnames m hmem).outgoing.1 hnodup
    hdependencies hfiltered hr ⟨hw.links, hw.failures, hw.packet, hw.space⟩ hvalid hvalid' fun hpermits => ?_).1
    ((importHolds_own h hplan hl hused hm).1 (himports l' hmem'))
  rw [← hmates.outgoing_eq h] at hpermits ⊢
  refine settled_of_passesOn (f := f.withPlan plan) hplan' hbounded hfiltered hw hl.mem' hm'
    (passesOn_mates h hl hmates hpass) ?_ hpermits
  rw [← hl.edge, ← hl.protocol]
  exact (identity_of_unused hplan hd hl.mem hused hr).1

/-- **A state with own records of imports is one without them.** -/
theorem isState_of_own (hd' : (f.withPlan plan).Distinct) (hw : ((f.withPlan plan).slice rs).IsState failures w) :
    (f.slice rs).IsState failures w := by
  have ha : (f.withPlan plan).Agree w w := ⟨.refl w _, fun _ _ => rfl, fun _ _ => rfl⟩
  have hsent : ∀ m' m, Mates (flip Plan.OwnImports) (f.withPlan plan) f.plan m' m →
      m'.outgoing.SameValues w w m.outgoing := by
    intro m' m hm
    have hm : Mates Plan.OwnImports f plan m m' := hm.symm
    rw [hm.outgoing_eq h]
    rfl
  have hsimilar : Slice.Similar w w ((f.withPlan plan).slice rs) (f.slice rs) := by
    refine similar_mates h.symm ha fun l' l hl => ?_
    have hl : Mates Plan.OwnImports f plan l l' := hl.symm
    show (((f.withPlan plan).slice rs).incoming l').toOption.map _ =
      ((f.slice rs).incoming l).toOption.map _
    unfold Slice.incoming
    rw [if_pos (hl.incoming_used h)]
    cases hused : l.incoming.used with
    | true =>
      rw [if_pos rfl, hl.incoming_eq h hused]
    | false =>
      obtain ⟨m, hm, -⟩ := hpasses l hl.mem hused
      rw [hm]
      exact congrArg some (own_sameValues h hplan hd hnames hpasses hnodup hdependencies hbounded hfiltered hplan' hw hl
        hused hm)
  refine @isState_of_similar failures (f.withPlan plan) f.plan rs w w ha hsimilar
    (fun x hx => hw.records x (records_sub_own h hx)) ?_ ?_ hw
  · refine transfersHold_mates h.symm hd' ha (fun l' l hl r _ hholds => ?_) (fun r _ p best subnets _ _ hbest => ?_)
      hw.transfers
    · intro hused
      have hsame : l'.incoming.SameValues w w l.incoming := by
        have hl : Mates Plan.OwnImports f plan l l' := hl.symm
        rw [hl.incoming_eq h hused]
        rfl
      exact (import_mates h.symm ha hsent hl hsame).importHolds hholds hused
    · exact exportsHold_mates h.symm ha hsent hbest (mergesExport_ownImports h r.name p).symm
  · intro l hl hused hactive
    obtain ⟨l', hmates⟩ := exists_mate' h hl
    rw [← hmates.incoming_eq h hused]
    refine hw.inactive l' hmates.mem' ?_ ?_
    · rw [hmates.incoming_eq h hused]
      exact hused
    · rw [← hmates.protocol, ← hmates.edge]
      exact hactive

end

omit hplan hd hnames hpasses hnodup hdependencies hbounded hfiltered in
theorem own_notMem (hd' : (f.withPlan plan).Distinct) (hl : Mates Plan.OwnImports f plan l l')
    (hused : l.incoming.used = false) : l'.incoming ∉ f.records := by
  have hmem : l'.incoming ∈ (f.withPlan plan).allLaneRecords :=
    incoming_mem_laneRecords hl.mem' (hl.incoming_used h)
  have hnodup := hd'.nodup
  unfold records at hnodup
  intro hx
  rcases mem_records hx with hx | ⟨k, hk, hx⟩ | ⟨a, ha, hx⟩
  · rw [← allBestRecords_alike h] at hx
    exact disjoint_of_nodup_append (nodup_append.1 hnodup).1 hx hmem
  · obtain ⟨k', hmates⟩ := exists_mate' h hk
    rcases hx with hx | ⟨hkused, hx⟩
    · rw [← hmates.outgoing_eq h] at hx
      exact outgoing_name_ne hmates.mem' hl.mem' (congrArg Record.name hx)
    · rw [← hmates.incoming_eq h hkused] at hx
      obtain rfl := Mates.unique h hd'.importNames hl hmates (congrArg Record.name hx)
      cases hused.symm.trans hkused
  · refine disjoint_of_nodup_append hnodup (mem_append_right _ hmem) ?_
    rw [announcementRecords_alike h, hx]
    exact mem_map_of_mem ha

omit hd hnodup hdependencies hbounded hfiltered in
/-- **Own records of imports can have the values of what the other sides send.** -/
theorem exists_own (hd' : (f.withPlan plan).Distinct) (v : Valuation) :
    ∃ w : Valuation, v.AgreesOn w f.layoutVariables ∧ ∀ l l' m, Mates Plan.OwnImports f plan l l' →
      l.incoming.used = false → (f.slice rs).opposite? l = some m →
      m.outgoing.SameValues v w l'.incoming := by
  obtain ⟨w, hcommon, hother, hset⟩ := exists_sameValues (v := v) hd'
    (fun x y => ∃ l l' m, Mates Plan.OwnImports f plan l l' ∧ l.incoming.used = false ∧
      (f.slice rs).opposite? l = some m ∧ x = l'.incoming ∧ y = m.outgoing)
    (by
      rintro - - ⟨l, l', m, hl, hused, hm, rfl, rfl⟩
      obtain ⟨k, hk, hpass⟩ := hpasses l hl.mem hused
      cases hm.symm.trans hk
      have hmem := (mem_opposite hm).1
      exact ⟨mem_incoming hl.mem' (hl.incoming_used h), (ownImport_sameForm h hplan hl hm hpass
        (hnames l hl.mem).incoming.1 (hnames m hmem).outgoing.1).1, (isPlanned_of_mem (mem_outgoing hmem)).1.inBits v⟩)
    (by
      -- imports are told apart by their names
      rintro - - - ⟨l, l', m, hl, -, hm, rfl, rfl⟩ ⟨k, k', n, hk, -, hn, heq, rfl⟩
      obtain rfl := Mates.unique h hd'.importNames hl hk (congrArg Record.name heq)
      cases hm.symm.trans hn
      rfl)
  refine ⟨w, fun z hz => ?_, fun l l' m hl hused hm => (hset _ _ ⟨l, l', m, hl, hused, hm, rfl, rfl⟩).symm⟩
  rcases mem_append.1 (layoutVariables_perm.subset hz) with hz | hz
  · rw [← commonVariables_alike h] at hz
    exact hcommon z hz
  · obtain ⟨x, hx, hz⟩ := mem_flatMap.1 hz
    refine hother x (records_sub_own h hx) ?_ z hz
    rintro - ⟨l, l', m, hl, hused, -, rfl, -⟩
    exact own_notMem h hd' hl hused hx

/-- **A state without own records of imports has one with them.** -/
theorem exists_isState_own (hd' : (f.withPlan plan).Distinct) (hv : (f.slice rs).IsState failures v) :
    ∃ w : Valuation, v.AgreesOn w f.layoutVariables ∧ ((f.withPlan plan).slice rs).IsState failures w := by
  obtain ⟨w, hagrees, hset⟩ := exists_own h hplan hnames hpasses hd' v
  refine ⟨w, hagrees, ?_⟩
  have hsame : ∀ x ∈ f.records, x.SameValues v w x := fun x hx => record_sameValues hx hagrees
  have ha : f.Agree v w := by
    refine ⟨hagrees.mono common_sub_layout, fun x hx => hsame x ?_, fun a ha => hsame a.2 ?_⟩
    · exact mem_append_left _ (mem_append_left _ hx)
    · exact mem_append_right _ (mem_map_of_mem ha)
  have hsent : ∀ m m', Mates Plan.OwnImports f plan m m' → m.outgoing.SameValues v w m'.outgoing := by
    intro m m' hm
    rw [hm.outgoing_eq h]
    exact hsame _ (mem_outgoing hm.mem)
  have hsimilar : Slice.Similar v w (f.slice rs) ((f.withPlan plan).slice rs) := by
    refine similar_mates h ha fun l l' hl => ?_
    unfold Slice.incoming
    rw [if_pos (hl.incoming_used h)]
    cases hused : l.incoming.used with
    | true =>
      rw [hl.incoming_eq h hused]
      exact congrArg some (hsame _ (mem_incoming hl.mem hused))
    | false =>
      obtain ⟨m, hm, -⟩ := hpasses l hl.mem hused
      rw [hm]
      exact congrArg some (hset l l' m hl hused hm)
  have hvalid : ∀ x ∈ (f.withPlan plan).records, x.IsValid f.dependencies w := by
    intro x hx
    rcases mem_records_own h hx with hx | ⟨l, l', hl, hused, rfl⟩
    · exact (hv.records x hx).congr (hsame x hx) rfl
    · obtain ⟨m, hm, -⟩ := hpasses l hl.mem hused
      have hmem := (mem_opposite hm).1
      refine (hv.records _ (mem_outgoing hmem)).congr (hset l l' m hl hused hm) ?_
      rw [(hnames m hmem).outgoing.2, hl.incoming_own h]
      exact (hnames l hl.mem).incoming.2.symm
  refine isState_of_similar ha hsimilar hvalid ?_ (fun l' hl' _ hinactive => ?_) hv
  · refine transfersHold_mates h hd ha (fun l l' hl r hr hholds => ?_)
      (fun r _ p best subnets _ _ hbest => ?_) hv.transfers
    · cases hused : l.incoming.used with
      | true =>
        have hin : l.incoming.SameValues v w l'.incoming := by
          rw [hl.incoming_eq h hused]
          exact hsame _ (mem_incoming hl.mem hused)
        exact (import_mates h ha hsent hl hin).importHolds hholds
      | false =>
        obtain ⟨m, hm, hpass⟩ := hpasses l hl.mem hused
        have hmem := (mem_opposite hm).1
        have hmsame := hsame _ (mem_outgoing hmem)
        have hidentity := (identity_of_unused hplan hd hl.mem hused hr).1
        have hscenario := isScenario_fixes v w (ha.common.mono scenario_sub_common) hv.isScenario
        refine (importHolds_own h hplan hl hused hm).2 ((receivesFrom_own h hplan hd hl hused hm hpass
          (hnames l hl.mem).incoming.1 (hnames m hmem).outgoing.1 hnodup hdependencies hfiltered hr hscenario
          (hvalid _ (mem_incoming hl.mem' (hl.incoming_used h))) (hvalid _ (records_sub_own h (mem_outgoing hmem)))
          fun hpermits => ?_).2 ((hset l l' m hl hused hm).symm.trans hmsame))
        rw [← hmsame.permits] at hpermits
        exact settled_mates ha hl hmsame
          (settled_of_passesOn hplan hbounded hfiltered hv hl.mem hm hpass hidentity hpermits)
    · exact exportsHold_mates h ha hsent hbest (mergesExport_ownImports h r.name p)
  · obtain ⟨l, hl⟩ := exists_mate h hl'
    rw [← hl.protocol, ← hl.edge] at hinactive
    cases hused : l.incoming.used with
    | true =>
      rw [hl.incoming_eq h hused, ← (hsame _ (mem_incoming hl.mem hused)).permits]
      exact hv.inactive l hl.mem hused hinactive
    | false =>
      obtain ⟨r, -, hr, -⟩ := lane_owner hplan hl.mem
      have hidentity := (identity_of_unused hplan hd hl.mem hused hr).1
      cases (and_eq_true_iff.1 hidentity).1.symm.trans hinactive

end States

end Frame

/-! ## §6. Encodings -/

namespace Encoding

def withImportMerge (req : Request) (on : Bool) : Request :=
  { req with switches := { req.switches with importExportMerge := on } }

/-- **Where everything is passed on, it does not matter whether imports use the records at the other sides.** -/
theorem importMerge_isExact {n : Network} {req : Request} {e e' : Encoding}
    (he : (encode n (withImportMerge req true)).result = .ok e)
    (he' : (encode n (withImportMerge req false)).result = .ok e') (hd : e.ledger.Distinct) (hd' : e'.ledger.Distinct)
    (hnames : ∀ l ∈ e.slice.lanes, l.NamesApart)
    (hpasses : ∀ l ∈ e.slice.lanes, l.incoming.used = false → ∀ m ∈ e.slice.opposite? l,
      e.slice.PassesOn req.failures l m) :
    e.ledger.SameOn e.slice.layoutVariables e'.ledger := by
  -- the frames only differ in which imports have records
  obtain ⟨f, plan, rs, encoded, encoded', hof, hof', hplan, hplan', hdistinct, hdistinct'⟩ :=
    exists_withPlan he he' rfl hd hd'
  have halike : f.plan.Alike Plan.OwnImports plan := Plan.alike_ownImports hplan hplan' rfl rfl rfl
  have hreceived := hof.received
  rw [hof.slice] at hnames hpasses hreceived ⊢
  have hall : f.PassesAll rs req.failures := by
    intro l hl hused
    obtain ⟨r, -, hr, hp, -⟩ := Frame.lane_owner hplan hl
    obtain ⟨hmem, hname⟩ := Frame.mem_routers hr
    have hlane : l ∈ (f.slice rs).lanesOf r.name l.protocol := Frame.mem_lanesOf.2 ⟨hl, hname.symm, rfl⟩
    obtain ⟨x, hx⟩ := hreceived r hmem l.protocol (hname ▸ hp) l hlane
    cases hm : (f.slice rs).opposite? l with
    | some m => exact ⟨m, rfl, hpasses l hl hused m hm⟩
    | none =>
      unfold Slice.incoming at hx
      rw [hused, hm] at hx
      cases hx
  have hnodup := Community.nodup_ofRouters hof.communities
  have hsub : f.layoutVariables ⊆ (f.withPlan plan).layoutVariables := Frame.layout_sub_own halike
  exact hof.sameOn hof' hd hd' (fun _ => id) hsub
    (fun v hv => Frame.exists_isState_own halike hplan hdistinct hnames hall hnodup hof.dependencies hof.bounded
      hof.filtered hdistinct' hv)
    fun w hw => ⟨w, .refl w _, Frame.isState_of_own halike hplan hdistinct hnames hall hnodup hof.dependencies
      hof.bounded hof.filtered hplan' hdistinct' hw⟩

/-- Two routers with OSPF and an external session over one link, one of them with a network of its own. -/
def twinNetwork : Network where
  routers := [
    { name := .text "A"
      interfaces := [.ospfPort "ab" (.ofOctets 10 0 0 1 30)]
      ospf := some {}
      bgp := some (.speaker "1.1.1.1" [.peer (.ofOctets 10 0 0 2) 2 1]) },
    { name := .text "B"
      interfaces := [.ospfPort "ba" (.ofOctets 10 0 0 2 30), .ospfPort "lan" (.ofOctets 10 9 0 1 24)]
      ospf := some {}
      bgp := some (.speaker "2.2.2.2" [.peer (.ofOctets 10 0 0 1) 1 2]) }]
  links := [.cable "A" "ab" "B" "ba"]

/-- Packets to that network. -/
def twinRequest : Request where
  space := { dstIps := [.ofOctets 10 9 0 0 24] }

/-- Imports of OSPF and of BGP have no record of their own in an encoding, and everything is passed on. -/
def IsTwin (e : Encoding) : Prop :=
  e.ledger.Distinct ∧ (∀ p ∈ [Protocol.ospf, .bgp], ∃ l ∈ e.slice.lanes, l.protocol = p ∧ l.incoming.used = false) ∧
    (∀ l ∈ e.slice.lanes, l.NamesApart) ∧
    ∀ l ∈ e.slice.lanes, l.incoming.used = false → ∀ m ∈ e.slice.opposite? l, e.slice.PassesOn twinRequest.failures l m

instance : DecidablePred IsTwin := fun e => inferInstanceAs (Decidable (e.ledger.Distinct ∧ _))

theorem twin_importMerge_isExact :
    ∃ e e', (encode twinNetwork (withImportMerge twinRequest true)).result = .ok e ∧
      (encode twinNetwork (withImportMerge twinRequest false)).result = .ok e' ∧ IsTwin e ∧ e'.ledger.Distinct ∧
      e.ledger.SameOn e.slice.layoutVariables e'.ledger := by
  have hmerged : ∃ e, (encode twinNetwork (withImportMerge twinRequest true)).result = .ok e ∧ IsTwin e := by
    decide +kernel
  have hown : ∃ e', (encode twinNetwork (withImportMerge twinRequest false)).result = .ok e' ∧ e'.ledger.Distinct := by
    decide +kernel
  obtain ⟨e, he, htwin⟩ := hmerged
  obtain ⟨e', he', hd'⟩ := hown
  exact ⟨e, e', he, he', htwin, hd', importMerge_isExact he he' htwin.1 hd' htwin.2.2.1 htwin.2.2.2⟩

end Encoding

end ControlPlane
