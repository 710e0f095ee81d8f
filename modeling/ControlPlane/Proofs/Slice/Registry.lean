import ControlPlane.Proofs.Slice.Derivations

/-!
# The registry of communities

The records of an encoding have a variable for every community that some policy refers to.  The communities are
collected from the nodes of all policies before any policy is interpreted, and an interpretation, wherever calls, chains
and default policies take it, stays within these nodes.  Routes that OSPF exports at routers without BGP are the only
ones that have no communities and go through a policy.
-/
namespace ControlPlane

open List

variable {cs : List Community} {node : PolicyNode} {r : Router} {x : Record}

/-! ## §1. Collecting communities -/

theorem Community.registered {routers : List Router} {q : RoutingPolicy} {set : CommunitySet}
    (h : ofRouters routers = .ok cs) (hr : r ∈ routers) (hq : q ∈ r.policies)
    (hnode : node ∈ Statement.nodesOfAll q.statements) (hset : setOfNode? node = some set) :
    ∃ ds, ofSet r set = .ok ds ∧ ds ⊆ cs := by
  obtain ⟨ordered, hordered, h⟩ := bind_eq_ok.1 h
  obtain ⟨found, hfound, h⟩ := bind_eq_ok.1 h
  obtain ⟨own, hown, hrouter⟩ := exists_of_mapM_eq_ok hfound ((perm_of_inOrder hordered).mem_iff.2 hr)
  -- the policy is walked to its end, and the walk visits the node
  obtain ⟨policies, hpolicies, hrouter⟩ := bind_eq_ok.1 hrouter
  obtain ⟨lists, hlists, hrouter⟩ := bind_eq_ok.1 hrouter
  obtain rfl := pure_eq_ok.1 hrouter
  obtain ⟨list, hlist, hwalk⟩ := exists_of_mapM_eq_ok hlists ((perm_of_inOrder hpolicies).mem_iff.2 hq)
  obtain ⟨groups, hgroups, hwalk⟩ := bind_eq_ok.1 hwalk
  cases hend : (r.walk q.statements).failure with
  | some f =>
    rw [hend] at hwalk
    cases hwalk
  | none =>
    rw [hend] at hwalk
    obtain rfl := pure_eq_ok.1 hwalk
    obtain ⟨new, -, hperm⟩ := (r.walk_expands q.statements).names
    obtain ⟨ds, hds, heq⟩ := exists_of_mapM_eq_ok hgroups ((hperm hend).1.mem_iff.2 (mem_append_left _ hnode))
    rw [hset] at heq
    refine ⟨ds, heq, fun c hc => ?_⟩
    have hc : c ∈ found.flatten := mem_flatten.2 ⟨_, hown, mem_flatten.2 ⟨_, hlist, mem_flatten.2 ⟨ds, hds, hc⟩⟩⟩
    dsimp only at h
    split at h
    · exact absurd h (by simp [throw, throwThe, MonadExceptOf.throw, bind, Except.bind])
    · cases h
      exact mem_sortWith.2 (mem_eraseDups.2 (mem_append_left _ hc))

/-! ## §2. What policies reach -/

namespace Router

theorem nodes_of_step {next : PolicyNode} (h : node.Holds r next) :
    next.nodes ⊆ node.nodes ∨ ∃ q ∈ r.policies, next.nodes ⊆ Statement.nodesOfAll q.statements := by
  cases h with
  | conj mem | disj mem | conjChain mem | disjChain mem =>
    exact .inl fun x hx => mem_cons_of_mem _ (BoolExpr.nodes_sub mem hx)
  | not | withEnvironment => exact .inl fun x hx => mem_cons_of_mem _ hx
  | guard => exact .inl fun x hx => mem_cons_of_mem _ (mem_append_left _ (mem_append_left _ hx))
  | trueBranch mem =>
    exact .inl fun x hx => mem_cons_of_mem _ (mem_append_left _ (mem_append_right _ (Statement.nodes_sub mem hx)))
  | falseBranch mem => exact .inl fun x hx => mem_cons_of_mem _ (mem_append_right _ (Statement.nodes_sub mem hx))
  | call policy mem => exact .inr ⟨_, Policy.mem_policies policy, Statement.nodes_sub mem⟩
  | defaultPolicy policy mem => exact .inr ⟨_, Policy.mem_policies policy, Statement.nodes_sub mem⟩

/-- **What statements reach stands in them, or in a policy of the router.** -/
theorem inside_of_reaches {statements : List Statement} (h : r.Reaches statements node) :
    node ∈ Statement.nodesOfAll statements ∨ ∃ q ∈ r.policies, node ∈ Statement.nodesOfAll q.statements := by
  obtain ⟨s, hs, hwithin⟩ := h
  suffices hsub : node.nodes ⊆ Statement.nodesOfAll statements ∨
      ∃ q ∈ r.policies, node.nodes ⊆ Statement.nodesOfAll q.statements from
    hsub.imp (· node.mem_nodes) fun ⟨q, hq, hsub⟩ => ⟨q, hq, hsub node.mem_nodes⟩
  induction hwithin with
  | refl => exact .inl (Statement.nodes_sub hs)
  | tail _ hstep ih =>
    rcases nodes_of_step hstep with hsub | hother
    · exact ih.imp (List.Subset.trans hsub) fun ⟨q, hq, hin⟩ => ⟨q, hq, List.Subset.trans hsub hin⟩
    · exact .inr hother

/-- A policy that accepts at once reaches nothing else. -/
theorem setOfNode?_of_accepts (h : r.Reaches [.simple .exitAccept] node) : Community.setOfNode? node = none := by
  obtain ⟨s, hs, hwithin⟩ := h
  obtain rfl := mem_singleton.1 hs
  cases hwithin.cases_head with
  | inl heq =>
    subst heq
    rfl
  | inr hstep =>
    obtain ⟨next, hstep, -⟩ := hstep
    cases hstep

end Router

/-! ## §3. Versions of a route -/

def Record.Carries (x : Record) (cs : List Community) : Prop := x.communities.map Prod.fst = cs

theorem Record.carries_isInvariant (cs : List Community) : IsInvariant cs (Carries · cs) where
  carries h e he := h ▸ mem_map_of_mem he
  setInt {r} h a t := by cases a <;> exact h
  setCommunity {r} h c t := by
    rw [← h]
    show (r.communities.map _).map _ = _
    rw [map_map]
    refine map_congr_left fun e _ => ?_
    simp only [Function.comp_apply]
    split <;> rfl
  setOspfBits h b := h

theorem Record.Carries.exists {c : Community} (h : x.Carries cs) (hc : c ∈ cs) : ∃ t, x.community? c = some t := by
  rw [← h] at hc
  obtain ⟨e, he, rfl⟩ := mem_map.1 hc
  cases ht : x.community? e.1 with
  | some t => exact ⟨t, rfl⟩
  | none => exact absurd (lookup_eq_none_iff.1 ht e he) (by simp)

namespace Transfer

variable {t : Transfer}

/-- The versions of a route that statements and conditions of a policy can be interpreted on: the source with the
changes that are made before the policy, and what is left after a part of the policy. -/
inductive Works (t : Transfer) : Record → Prop
  | enters {l l' : Ledger} {x : Record} (run : (t.aggregated t.source).runOn l = (.ok x, l')) : Works t x
  | resets {x : Record} (before : Works t x) : Works t (x.setInt .localPref (.intLit defaultLocalPref))
  | expression {depth : Nat} {e : BoolExpr} {p : Param} {r : Result} {l l' : Ledger} {y : Result × Param}
      (before : Works t p.route) (run : (t.expr (t.callPolicy depth) e p r).runOn l = (.ok y, l')) : Works t y.2.route
  | statement {depth : Nat} {s : Statement} {p : Param} {r : Result} {l l' : Ledger} {y : Result × Param}
      (before : Works t p.route) (run : (t.statement (t.callPolicy depth) s p r).runOn l = (.ok y, l')) :
      Works t y.2.route

/-- **All versions of a route have the communities of the source.** -/
theorem Works.communities (h : t.Works x) (hs : t.source.Carries cs) : x.Carries cs := by
  have hcs := Record.carries_isInvariant cs
  induction h with
  | enters run => exact ((aggregated_draws hcs hs).ok run).2
  | resets _ ih => exact hcs.setInt ih _ _
  | expression _ run ih => exact ((expr_draws (callPolicy_draws hcs t False.elim _) _ False.elim ih).ok run).2
  | statement _ run ih => exact ((statement_draws (callPolicy_draws hcs t False.elim _) hcs _ False.elim ih).ok run).2

/-- A policy that accepts at once reads no community. -/
theorem accept_draws (h : t.source.Carries cs) :
    (t.compute [.simple .exitAccept]).Draws True t.freshLabel cs fun _ => True := by
  have hcs := Record.carries_isInvariant cs
  -- nothing is called, so any caller does
  have hcall : t.CallDraws True cs (Record.Carries · cs) fun _ _ _ => throw .endless :=
    fun _ _ _ _ => .throw fun _ => rfl
  exact compute_draws hcs h fun p hp => body_draws hcs hcall [.simple .exitAccept]
    (fun _ => forall_mem_singleton.2 nofun) hp

/-- Where every lookup finds its communities, a policy is interpreted without missing one. -/
theorem compute_finds {policy : List Statement} (h : t.source.Carries cs)
    (hcalled : ∀ q ∈ t.router.policies, ∀ node ∈ Statement.nodesOfAll q.statements, t.Finds (Record.Carries · cs) node)
    (hpolicy : ∀ node ∈ Statement.nodesOfAll policy, t.Finds (Record.Carries · cs) node) :
    (t.compute policy).Draws True t.freshLabel cs fun _ => True := by
  have hcs := Record.carries_isInvariant cs
  have hcall : t.CallDraws True cs (Record.Carries · cs) (t.callPolicy t.callDepth) :=
    callPolicy_draws hcs t (fun _ => hcalled) _
  exact compute_draws hcs h fun p hp => body_draws hcs hcall policy (fun _ => hpolicy) hp

theorem communityOf_ok {c : Community} (hx : x.Carries cs) (hc : c ∈ cs) : ∃ b, communityOf x c = .ok b := by
  obtain ⟨b, hb⟩ := hx.exists hc
  unfold communityOf
  rw [hb]
  exact ⟨b, rfl⟩

theorem matchesCommunitySet_ok {wanted : CommunitySet} {ds : List Community}
    (hx : x.Carries cs) (hwanted : Community.ofSet t.router wanted = .ok ds) (hds : ds ⊆ cs) :
    ∃ b, t.matchesCommunitySet x wanted = .ok b := by
  cases wanted with
  | inline communities =>
    obtain ⟨bs, hbs⟩ := exists_mapM_eq_ok fun c hc => communityOf_ok hx (hds hc)
    exact ⟨_, bind_eq_ok.2 ⟨ds, hwanted, bind_eq_ok.2 ⟨bs, hbs, rfl⟩⟩⟩
  | named name =>
    obtain ⟨list, hlist, -⟩ := bind_eq_ok.1 hwanted
    have hline : ∀ e ∈ (list.lines.zip ds).reverse, ∀ acc : Term .bool, ∃ b, (do
        return .ite (← communityOf x e.2) (.boolLit (e.1.action == .accept)) acc : Except Failure (Term .bool)) =
          .ok b := by
      intro e he acc
      obtain ⟨b, hb⟩ := communityOf_ok hx (hds (of_mem_zip (mem_reverse.1 he)).2)
      exact ⟨_, bind_eq_ok.2 ⟨b, hb, rfl⟩⟩
    obtain ⟨b, hb⟩ := exists_foldlM_eq_ok hline .no
    exact ⟨b, bind_eq_ok.2 ⟨list, hlist, bind_eq_ok.2 ⟨ds, hwanted, hb⟩⟩⟩
  | foreign _ _ => cases hwanted

end Transfer

/-! ## §4. Transfers of a slice -/

namespace Slice

/-- A transfer that computes what is received or sent over a lane, and the policy that it is computed from. -/
inductive Interprets (s : Slice) : Transfer → List Statement → Prop
  | imported {r : Router} {m : Lane} {source : Record} {policy : Option RoutingPolicy} (router : r ∈ s.topology.routers)
      (lane : m ∈ s.lanesOf r.name m.protocol) (across : s.across? m .incoming = some source)
      (chosen : s.topology.importPolicy r m.protocol m.edge = .ok policy) :
      Interprets s (s.importTransfer r m source) (importStatements policy)
  | exported {r : Router} {m : Lane} {best : Record} {policy : Option RoutingPolicy} (router : r ∈ s.topology.routers)
      (lane : m ∈ s.lanesOf r.name m.protocol) (overall : s.overall r.name = .ok best)
      (chosen : s.topology.exportPolicy r m.protocol m.edge = .ok policy) :
      Interprets s (s.exportTransfer r best m) (exportStatements m.protocol policy)

end Slice

def Transfer.IsBare (t : Transfer) : Prop := t.toProtocol = .ospf ∧ t.isExport ∧ t.router.bgp = none

namespace Frame

variable {f : Frame} {rs : List Redistribution} {u : Transfer} {policy : List Statement} {m : Lane}
  {basis : Plan.Basis}

theorem carries_planned {name : String} {router : Name} {p : Protocol} {history : Option (Enumeration Protocol)}
    (h : Record.wantsCommunities (f.planFor router) p) :
    (Record.planned f name router p history).Carries f.communities := by
  show (Record.communitiesOf f (f.planFor router) name p).map Prod.fst = _
  unfold Record.communitiesOf
  rw [if_pos h, map_map]
  exact map_id _

theorem carries_across {source : Record} (hp : m.protocol = .bgp)
    (h : (f.slice rs).across? m .incoming = some source) : source.Carries f.communities := by
  unfold Slice.across? at h
  split at h
  next m' hopposite =>
    cases h
    obtain ⟨hmem, hprotocol, -⟩ := mem_opposite hopposite
    obtain ⟨label, hlabel⟩ := outgoing_planned hmem
    rw [hlabel, hprotocol, hp]
    exact carries_planned rfl
  next =>
    obtain ⟨y, hy, rfl⟩ := Option.map_eq_some_iff.1 h
    obtain ⟨l, -, hl⟩ := mem_filterMap.1 (show y ∈ f.announcements from mem_of_find?_eq_some hy)
    obtain ⟨-, -, neighbor, -, rfl⟩ := announcementOf_eq hl
    exact carries_planned rfl

theorem carries_overall {best : Record} (hr : r ∈ f.topology.routers) (hp : .bgp ∈ f.protocols r.name)
    (h : (f.slice rs).overall r.name = .ok best) : best.Carries f.communities := by
  rw [eq_overall (Topology.name_mem hr) h]
  refine carries_planned ?_
  unfold Record.wantsCommunities
  rw [f.protocolList_planFor r.name, contains_iff_mem.2 hp]
  rfl

theorem bgp_mem_protocols (hplan : f.IsDecided basis) (hnames : f.topology.names.Nodup)
    (hr : r ∈ f.topology.routers) (hbgp : r.bgp ≠ none) : .bgp ∈ f.protocols r.name := by
  obtain ⟨r', hr'⟩ := router_of_name (Topology.name_mem hr)
  obtain ⟨hmem, hname⟩ := mem_routers hr'
  obtain rfl : r' = r := by
    obtain ⟨s, hs, rfl⟩ := mem_map.1 hr
    obtain ⟨s', hs', rfl⟩ := mem_map.1 hmem
    rw [inj_on_of_nodup_map hnames hs' hs hname]
  refine (Plan.mem_filterM (hplan.protocols hr')).2 ⟨by decide, ?_⟩
  have hrun : Topology.isRunning r' .bgp = .ok true := congrArg Except.ok (Option.isSome_iff_ne_none.2 hbgp)
  rw [hrun]
  show (if basis.switches.slicing && false then _ else _) = _
  rw [Bool.and_false]
  rfl

/-- **A transfer has no policy, or all communities, unless it is an export of OSPF at a router without BGP.**  The nodes
of its policy are those of a policy of the router. -/
theorem carries_of_interprets (hplan : f.IsDecided basis) (hnames : f.topology.names.Nodup)
    (h : (f.slice rs).Interprets u policy) (hbare : ¬ u.IsBare) :
    policy = [.simple .exitAccept] ∨ u.router ∈ f.topology.routers ∧ u.source.Carries f.communities ∧
      ∀ node ∈ Statement.nodesOfAll policy, Community.setOfNode? node = none ∨
        ∃ q ∈ u.router.policies, node ∈ Statement.nodesOfAll q.statements := by
  have hnodes : ∀ {r : Router} {chosen : Option RoutingPolicy} (d : SimpleStatement),
      (∀ q, chosen = some q → q ∈ r.policies) → ∀ node ∈ Statement.nodesOfAll
        ((chosen.map RoutingPolicy.statements).getD [.simple d]), Community.setOfNode? node = none ∨
          ∃ q ∈ r.policies, node ∈ Statement.nodesOfAll q.statements := by
    intro r chosen d hmem node hnode
    cases chosen with
    | none =>
      obtain rfl := mem_singleton.1 hnode
      exact .inl rfl
    | some q => exact .inr ⟨q, hmem q rfl, hnode⟩
  cases h with
  | @imported r m source chosen router lane across hchosen =>
    obtain ⟨hm, -, -⟩ := mem_lanesOf.1 lane
    cases hp : m.protocol with
    | bgp =>
      have hmem : ∀ q, chosen = some q → q ∈ r.policies := fun q hq => Topology.importPolicy_mem (hq ▸ hchosen)
      exact .inr ⟨router, carries_across hp across, hnodes _ hmem⟩
    | best => exact absurd hp (lane_ne_best hplan hm)
    | _ =>
      rw [hp] at hchosen
      cases hchosen
      exact .inl rfl
  | @exported r m best chosen router lane overall hchosen =>
    obtain ⟨hm, hrouter, -⟩ := mem_lanesOf.1 lane
    have hmem : ∀ q, chosen = some q → q ∈ r.policies := fun q hq => Topology.exportPolicy_mem (hq ▸ hchosen)
    cases hp : m.protocol with
    | bgp =>
      obtain ⟨-, -, -, hruns, -⟩ := lane_owner hplan hm
      rw [hp, hrouter] at hruns
      exact .inr ⟨router, carries_overall router hruns overall, hnodes _ hmem⟩
    | ospf =>
      have hbgp : r.bgp ≠ none := fun hnone => hbare ⟨hp, rfl, hnone⟩
      refine .inr ⟨router, carries_overall router (bgp_mem_protocols hplan hnames router hbgp) overall, ?_⟩
      -- the policy is inside of a condition on the protocol
      intro node hnode
      simp only [Slice.exportStatements, Statement.nodesOfAll, Statement.nodes, BoolExpr.nodes, append_nil,
        cons_append, nil_append, mem_cons] at hnode
      rcases hnode with rfl | rfl | rfl | hnode
      · exact .inl rfl
      · exact .inl rfl
      · exact .inl rfl
      · exact hnodes _ hmem node hnode
    | best => exact absurd hp (lane_ne_best hplan hm)
    | _ =>
      rw [hp] at hchosen
      cases hchosen
      exact .inl rfl

end Frame

/-! ## §5. Encodings -/

namespace Encoding

open Community Slice

variable {switches : Switches} {t : Topology} {space : HeaderSpace} {failures : Document} {f : Frame} {s : Slice}
  {tag : String} {l l' : Ledger}

/-- **Every community that is looked up is found.**  When an encoding is laid out, interpreting a policy never fails
because of a community that the route does not carry, with the only exception of OSPF exports at routers without BGP.
Whatever a policy reaches by calls, chains and default policies, the communities that it refers to can be read, every
version of the route has them, and matching on them does not fail. -/
theorem registry_isComplete {u : Transfer} {policy : List Statement}
    (hframe : Frame.build tag switches t space failures = .ok f) (hlay : f.lay.runOn l = (.ok s, l'))
    (hnames : t.names.Nodup) (hu : s.Interprets u policy) (hbare : ¬ u.IsBare) :
    (∀ before community record,
      ((u.compute policy).runOn before).1 ≠ .error (.unsupported (.communityNotCarried community record))) ∧
    ∀ x node wanted, u.Works x → u.router.Reaches policy node → setOfNode? node = some wanted →
      ∃ cs, ofSet u.router wanted = .ok cs ∧ (∀ c ∈ cs, ∃ b, x.community? c = some b) ∧
        ∃ b, u.matchesCommunitySet x wanted = .ok b := by
  obtain ⟨hplan, hregistry, -, rfl, rfl, rfl⟩ := Frame.build_ok hframe
  obtain ⟨rs, -, rfl, -⟩ := Frame.lay_extends hlay
  obtain ⟨encoded, hplan⟩ := Frame.isDecided hplan
  obtain rfl | ⟨hrouter, hcarries, hnodes⟩ := Frame.carries_of_interprets hplan hnames hu hbare
  · refine ⟨fun before _ _ hfail => ?_, fun x node wanted _ hreaches hwanted => ?_⟩
    · exact nomatch (Transfer.accept_draws rfl).spares before _ hfail
    · exact nomatch (Router.setOfNode?_of_accepts hreaches).symm.trans hwanted
  · have hsets : ∀ q ∈ u.router.policies, ∀ node ∈ Statement.nodesOfAll q.statements, ∀ wanted,
        setOfNode? node = some wanted → ∃ ds, ofSet u.router wanted = .ok ds ∧ ds ⊆ f.communities :=
      fun q hq node hnode wanted => registered hregistry hrouter hq hnode
    have hfinds : ∀ q ∈ u.router.policies, ∀ node ∈ Statement.nodesOfAll q.statements,
        u.Finds (Record.Carries · f.communities) node := by
      intro q hq node hnode wanted hwanted
      obtain ⟨ds, hds, hsub⟩ := hsets q hq node hnode wanted hwanted
      refine ⟨hds ▸ .ok, fun x hx => ?_⟩
      obtain ⟨b, hb⟩ := Transfer.matchesCommunitySet_ok hx hds hsub
      exact hb ▸ .ok
    have hpolicy : ∀ node ∈ Statement.nodesOfAll policy, u.Finds (Record.Carries · f.communities) node := by
      intro node hnode
      rcases hnodes node hnode with hnone | ⟨q, hq, hin⟩
      · exact fun wanted hwanted => nomatch hnone.symm.trans hwanted
      · exact hfinds q hq node hin
    refine ⟨fun before _ _ hfail => ?_, fun x node wanted hx hreaches hwanted => ?_⟩
    · exact nomatch (Transfer.compute_finds hcarries hfinds hpolicy).spares before _ hfail
    · have hnode : ∃ q ∈ u.router.policies, node ∈ Statement.nodesOfAll q.statements := by
        rcases Router.inside_of_reaches hreaches with hin | hin
        · exact (hnodes node hin).resolve_left fun hnone => absurd (hnone.symm.trans hwanted) (by simp)
        · exact hin
      obtain ⟨q, hq, hin⟩ := hnode
      obtain ⟨ds, hds, hsub⟩ := hsets q hq node hin wanted hwanted
      have hx := hx.communities hcarries
      exact ⟨ds, hds, fun c hc => hx.exists (hsub hc), Transfer.matchesCommunitySet_ok hx hds hsub⟩

/-- A router that looks communities up in a policy that is called and in a default policy. -/
def lookingNetwork : Network where
  routers := [{
    name := .text "A"
    interfaces := [.port "i" (.ofOctets 10 0 0 1 30)]
    bgp := some (.speaker "1.1.1.1" [
      { Neighbor.peer (.ofOctets 10 0 0 2) 2 1 with importPolicy := .text "IN" }])
    communityLists := [⟨.text "L", [⟨.accept, .text "^1:"⟩]⟩]
    policies := [
      ⟨.text "IN", [.setDefaultPolicy (.text "LAST"),
        .cond (.conjChain [.call (.text "MARKED")]) [.simple .exitAccept] []]⟩,
      ⟨.text "MARKED", [.cond (.matchCommunitySet (.named (.text "L"))) [.simple .returnTrue] []]⟩,
      ⟨.text "LAST", [.addCommunity (.inline [.text "1:2"]), .simple .returnTrue]⟩] }]

def LooksUp (s : Slice) (r : Router) (m : Lane) (policy : Option RoutingPolicy) : Prop :=
  m.protocol = .bgp ∧ (s.across? m .incoming).isSome ∧
    ∃ node ∈ (r.walk (importStatements policy)).nodes, (setOfNode? node).isSome

instance (s : Slice) (r : Router) (m : Lane) (policy : Option RoutingPolicy) : Decidable (LooksUp s r m policy) :=
  inferInstanceAs (Decidable (_ ∧ _))

theorem looking_registry_isComplete : ∃ t f s u policy node wanted cs,
    Topology.build lookingNetwork .null = .ok t ∧ Frame.build "" {} t {} (.int 0) = .ok f ∧
    (f.lay.runOn {}).1 = .ok s ∧ s.Interprets u policy ∧ u.toProtocol = .bgp ∧ u.router.Reaches policy node ∧
    setOfNode? node = some wanted ∧ ofSet u.router wanted = .ok cs ∧
    (∀ c ∈ cs, ∃ b, u.source.community? c = some b) ∧ (∃ b, u.matchesCommunitySet u.source wanted = .ok b) ∧
    ∀ before community record,
      ((u.compute policy).runOn before).1 ≠ .error (.unsupported (.communityNotCarried community record)) := by
  have hexists : ∃ t, Topology.build lookingNetwork .null = .ok t ∧
      ∃ f, Frame.build "" {} t {} (.int 0) = .ok f ∧ ∃ s, (f.lay.runOn {}).1 = .ok s ∧ t.names.Nodup ∧
        ∃ r ∈ s.topology.routers, ∃ m ∈ s.lanesOf r.name .bgp,
          ∃ policy, s.topology.importPolicy r m.protocol m.edge = .ok policy ∧ LooksUp s r m policy := by
    decide +kernel
  obtain ⟨t, ht, f, hf, s, hs, hnames, r, hr, m, hm, policy, hpolicy, hbgp, hacross, node, hnode, hsome⟩ := hexists
  obtain ⟨source, hsource⟩ := Option.isSome_iff_exists.1 hacross
  obtain ⟨wanted, hwanted⟩ := Option.isSome_iff_exists.1 hsome
  have hu : s.Interprets (s.importTransfer r m source) (importStatements policy) :=
    .imported hr (hbgp ▸ hm) hsource hpolicy
  have hbare : ¬ (s.importTransfer r m source).IsBare := fun h => absurd h.2.1 Bool.false_ne_true
  have hx : (s.importTransfer r m source).Works source := .enters (l := {}) rfl
  obtain ⟨hcarried, hreached⟩ := registry_isComplete hf (Prod.ext hs rfl) hnames hu hbare
  obtain ⟨cs, hcs, hfound, hmatches⟩ := hreached source node wanted hx (Router.reaches_of_walk hnode) hwanted
  exact ⟨t, f, s, _, _, node, wanted, cs, ht, hf, hs, hu, hbgp, Router.reaches_of_walk hnode, hwanted, hcs, hfound,
    hmatches, hcarried⟩

end Encoding

end ControlPlane
