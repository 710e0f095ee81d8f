import ControlPlane.Proofs.Slice.State
import ControlPlane.Verification.Instrument

/-!
# What instruments add

An instrument declares variables for the routers and requires something of each router, about these variables and the
forwarding over the edges.  Loads are also about the reachability of their edge, which was measured before or is
measured first.

* `Instrument.declareEach_requireAll`: variables of all routers, and then constraints on each.
-/
namespace ControlPlane.Instrument

open List Term Build

variable {s : Slice} {P : Variable → Prop} {target : String} {e : Edge} {r : Name}

/-! ## §1. Variables of routers -/

/-- The variables that an instrument declares for the routers. -/
def variablesOf (s : Slice) (kinds : List (String × VariableSort)) (target : String) : List Variable :=
  s.topology.names.flatMap fun r => kinds.map fun k => ⟨variableName s k.1 target r, k.2⟩

def measuredVariables (s : Slice) (label : String) : List Variable :=
  s.topology.names.flatMap fun r =>
    [⟨variableName s "reachable" label r, .bool⟩, ⟨variableName s "reachable-id" label r, .int⟩]

theorem mem_variablesOf {kinds : List (String × VariableSort)} {k : String × VariableSort} (hk : k ∈ kinds)
    (hr : r ∈ s.topology.names) : (⟨variableName s k.1 target r, k.2⟩ : Variable) ∈ variablesOf s kinds target :=
  mem_flatMap.2 ⟨r, hr, mem_map_of_mem hk⟩

theorem name_of_mem_variablesOf {kinds : List (String × VariableSort)} {x : Variable}
    (hx : x ∈ variablesOf s kinds target) : ∃ kind target r, x.name = variableName s kind target r := by
  obtain ⟨r, -, hx⟩ := mem_flatMap.1 hx
  obtain ⟨k, -, rfl⟩ := mem_map.1 hx
  exact ⟨k.1, target, r, rfl⟩

theorem declareEach_extends (s : Slice) (kinds : List (String × VariableSort)) (target : String) (l : Ledger) :
    ∃ l', (declareEach s kinds target).runOn l = (.ok (), l') ∧ l.Extends l' (variablesOf s kinds target) [] := by
  obtain ⟨l', hrun⟩ : ∃ l', (declareEach s kinds target).runOn l = (.ok (), l') :=
    runOn_forM_total (fun _ _ _ => ⟨_, rfl⟩) l
  have hext := runOn_forM (C := fun _ => []) (fun _ _ _ _ _ h => runOn_declareAll h) hrun
  rw [flatMap_eq_nil_iff.2 fun _ _ => rfl] at hext
  exact ⟨l', hrun, hext⟩

theorem declareEach_requireAll (s : Slice) (kinds : List (String × VariableSort)) (target : String)
    (C : Name → List (Term .bool)) (l : Ledger) :
    ∃ l', (declareEach s kinds target >>= fun _ => s.topology.names.forM fun r => Build.requireAll (C r)).runOn l =
      (.ok (), l') ∧ l.Extends l' (variablesOf s kinds target) (s.topology.names.flatMap C) := by
  obtain ⟨l₁, h₁, e₁⟩ := declareEach_extends s kinds target l
  obtain ⟨l₂, h₂⟩ : ∃ l₂, (s.topology.names.forM fun r => Build.requireAll (C r)).runOn l₁ = (.ok (), l₂) :=
    runOn_forM_total (fun _ _ _ => ⟨_, rfl⟩) l₁
  have e₂ := runOn_forM (V := fun _ => []) (fun _ _ _ _ _ h => runOn_requireAll h) h₂
  rw [flatMap_eq_nil_iff.2 fun _ _ => rfl] at e₂
  have hall := e₁.trans e₂
  rw [append_nil] at hall
  exact ⟨l₂, runOn_bind_ok.2 ⟨(), l₁, h₁, h₂⟩, hall⟩

theorem forM_require_extends {f : Name → Except Failure (Term .bool)} (names : List Name) (l : Ledger) :
    ∃ cs, l.Extends ((names.forM fun r => do Build.require (← f r) : Build Unit).runOn l).2 [] cs ∧
      ∀ c ∈ cs, ∃ r ∈ names, f r = .ok c := by
  induction names generalizing l with
  | nil => exact ⟨[], .refl l, nofun⟩
  | cons r rest ih =>
    show ∃ cs, l.Extends (((do Build.require (← f r) : Build Unit) >>= fun _ => rest.forM _).runOn l).2 [] cs ∧ _
    cases hr : f r with
    | error f => exact ⟨[], .refl l, nofun⟩
    | ok c =>
      obtain ⟨cs, hext, hcs⟩ := ih ((Build.require c).runOn l).2
      refine ⟨c :: cs, (runOn_require_ok (x := ()) rfl).trans hext, ?_⟩
      refine forall_mem_cons.2 ⟨⟨r, mem_cons_self, hr⟩, fun c hc => ?_⟩
      obtain ⟨q, hq, hc⟩ := hcs c hc
      exact ⟨q, mem_cons_of_mem _ hq, hc⟩

/-! ## §2. What is said about a router -/

def IsClosed (s : Slice) : Prop :=
  ∀ r, ∀ e ∈ s.topology.edges r, ∀ peer, e.peer? = some peer → peer ∈ s.topology.names

/-- Every edge of an encoding leads to one of its routers. -/
theorem isClosed_of_encode {n : Network} {req : Request} {d : Encoding} (h : (Encoding.encode n req).result = .ok d) :
    IsClosed d.slice := by
  obtain ⟨f, rs, hof⟩ := Encoding.encode_isOf h
  obtain ⟨n', hbuild⟩ := Encoding.topologyOf_ok hof.topology
  have htopology : d.slice.topology = f.topology := by rw [hof.slice]; rfl
  intro r ed hed peer hpeer
  rw [htopology] at hed ⊢
  exact Topology.peer_mem_names hbuild hed hpeer

theorem mem_innerEdges {x : Edge × Name} :
    x ∈ innerEdges s r ↔ x.1 ∈ s.topology.edges r ∧ x.1.peer? = some x.2 := by
  unfold innerEdges
  rw [mem_filterMap]
  constructor
  · rintro ⟨e, he, h⟩
    obtain ⟨peer, hpeer, rfl⟩ := Option.map_eq_some_iff.1 h
    exact ⟨he, hpeer⟩
  · rintro ⟨he, hpeer⟩
    exact ⟨x.1, he, by rw [hpeer]; rfl⟩

theorem within_forwardsAcross (hdata : (s.dataForwarding e).Within P)
    (haccess : ∀ router i side list, P ⟨s.accessName router i side list, .bool⟩) : (s.forwardsAcross e).Within P := by
  have hpermits : ∀ router i side, (s.permits router i side).Within P := by
    intro router i side
    unfold Frame.permits
    dsimp only
    split
    · exact within_boolVar.2 (haccess ..)
    · exact within_yes
  have harrival : (s.permitsArrival e).Within P := by
    unfold Frame.permitsArrival
    split
    · split
      · exact hpermits _ _ _
      · exact within_yes
    · exact within_yes
  simp [Frame.forwardsAcross, hdata, harrival]

structure IsInScope (s : Slice) (P : Variable → Prop) : Prop where
  peers : IsClosed s
  data : ∀ r, ∀ e ∈ s.topology.edges r, (s.dataForwarding e).Within P
  across : ∀ r, ∀ e ∈ s.topology.edges r, (s.forwardsAcross e).Within P

theorem within_hops {g : Edge × Name → Term .bool} (hs : IsClosed s)
    (hg : ∀ d ∈ s.topology.edges r, ∀ peer ∈ s.topology.names, (g (d, peer)).Within P) :
    ∀ t ∈ (innerEdges s r).map g, t.Within P := by
  intro t ht
  obtain ⟨⟨d, peer⟩, hmem, rfl⟩ := mem_map.1 ht
  obtain ⟨hd, hpeer⟩ := mem_innerEdges.1 hmem
  exact hg d hd peer (hs r d hd peer hpeer)

theorem within_reachConstraints (hs : IsInScope s P) (hown : ∀ x ∈ measuredVariables s target, P x)
    {goal : Name → Option (Term .bool)} (hgoal : ∀ g ∈ goal r, g.Within P) (hr : r ∈ s.topology.names) :
    ∀ c ∈ reachConstraints s target goal r, c.Within P := by
  have hreach : ∀ q ∈ s.topology.names, (reachable s target q).Within P := fun q hq =>
    within_boolVar.2 (hown _ (mem_flatMap.2 ⟨q, hq, by simp⟩))
  have hid : ∀ q ∈ s.topology.names, (reachableId s target q).Within P := fun q hq =>
    within_intVar.2 (hown _ (mem_flatMap.2 ⟨q, hq, by simp⟩))
  refine forall_mem_cons.2 ⟨by simp [hid r hr], ?_⟩
  split
  next g hg => simp [hreach r hr, hgoal g hg]
  next =>
    simp only [forall_mem_cons, within_implies, within_anyOf]
    refine ⟨⟨hreach r hr, within_hops hs.peers fun d hd q hq => ?_⟩,
      ⟨within_hops hs.peers fun d hd q hq => ?_, hreach r hr⟩, by simp⟩
    · simp [hs.across r d hd, hreach q hq, hid r hr, hid q hq]
    · simp [hs.across r d hd, hreach q hq]

theorem within_edgeGoal (he : (s.dataForwarding e).Within P) : ∀ g ∈ edgeGoal s e r, g.Within P := by
  intro g hg
  unfold edgeGoal at hg
  split at hg
  · exact Option.some.inj hg ▸ he
  · cases hg

theorem within_lengthConstraints (hs : IsInScope s P)
    (hown : ∀ x ∈ variablesOf s [("path-length", .int)] (edgeName e), P x) (he : (s.dataForwarding e).Within P)
    (hr : r ∈ s.topology.names) : ∀ c ∈ lengthConstraints s e r, c.Within P := by
  have hlength : ∀ q ∈ s.topology.names, (length s e q).Within P := fun q hq =>
    within_intVar.2 (hown _ (mem_variablesOf (k := ("path-length", .int)) mem_cons_self hq))
  refine forall_mem_cons.2 ⟨by simp [hlength r hr], ?_⟩
  split
  · simp [hlength r hr, he]
  · have hnone : ∀ d ∈ s.topology.edges r, ∀ q ∈ s.topology.names,
        (Term.or [.lt (length s e q) (.intLit 0), .not (s.forwardsAcross d)]).Within P := fun d hd q hq => by
      simp [hlength q hq, hs.across r d hd]
    simp only [forall_mem_cons, within_implies, within_allOf, within_anyOf, within_not]
    refine ⟨⟨within_hops hs.peers hnone, by simp [hlength r hr]⟩,
      ⟨within_hops hs.peers hnone, within_hops hs.peers fun d hd q hq => ?_⟩, by simp⟩
    simp [hlength q hq, hlength r hr, hs.across r d hd]

theorem forwardsAcross_of_id {d : Edge} (h : d.id = e.id) : s.forwardsAcross d = s.forwardsAcross e := by
  obtain ⟨q, i, far⟩ := d
  obtain ⟨q', i', far'⟩ := e
  simp only [Edge.id, EdgeId.mk.injEq, Endpoint.mk.injEq] at h
  obtain ⟨⟨rfl, hi⟩, hfar⟩ := h
  have harrival : s.permitsArrival ⟨q, i, far⟩ = s.permitsArrival ⟨q, i', far'⟩ := by
    cases far <;> cases far' <;> simp_all [Frame.permitsArrival]
  simp [Frame.forwardsAcross, Frame.dataForwarding, Edge.interface, hi, harrival]

theorem exists_of_contains {d : Edge} (h : (s.topology.edges d.router).contains d) :
    ∃ b ∈ s.topology.edges d.router, d.id = b.id := by
  obtain ⟨b, hb, hid⟩ := any_eq_true.1 (contains_eq_any_beq.symm.trans h)
  exact ⟨b, hb, Edge.beq_iff.1 hid⟩

theorem within_backEdge (hs : IsInScope s P) {d back : Edge} (h : backEdge s d = .ok back) :
    (s.forwardsAcross back).Within P := by
  unfold backEdge at h
  split at h
  next => cases h
  next =>
    split at h
    next hmem =>
      cases h
      obtain ⟨b, hb, hid⟩ := exists_of_contains hmem
      rw [forwardsAcross_of_id hid]
      exact hs.across _ b hb
    next => cases h

theorem within_loadConstraint (hs : IsInScope s P) (hreach : ∀ x ∈ measuredVariables s (edgeName e), P x)
    (hown : ∀ x ∈ variablesOf s [("load", .int)] (edgeName e), P x) (hr : r ∈ s.topology.names) :
    Yields (loadConstraint s e r) fun c => c.Within P := by
  have hload : ∀ q ∈ s.topology.names, (loadOf s e q).Within P := fun q hq =>
    within_intVar.2 (hown _ (mem_variablesOf (k := ("load", .int)) mem_cons_self hq))
  have hreaches : (reachable s (edgeName e) r).Within P :=
    within_boolVar.2 (hreach _ (mem_flatMap.2 ⟨r, hr, by simp⟩))
  refine .bind (.mapM (R := fun t : Term .int => t.Within P) fun hop hmem => ?_) fun incoming hincoming => .pure ?_
  · obtain ⟨hd, hpeer⟩ := mem_innerEdges.1 hmem
    refine .bind (fun _ => within_backEdge hs) fun back hback => .pure ?_
    simp [hback, hload hop.2 (hs.peers r hop.1 hd hop.2 hpeer)]
  · simpa [hload r hr, hreaches] using hincoming

theorem within_loopConstraint (hs : IsInScope s P) {router : Document}
    (hown : ∀ x ∈ variablesOf s [("on-loop", .bool)] router.shown, P x) (hr : r ∈ s.topology.names) :
    (loopConstraint s router r).Within P := by
  have hloop : ∀ q ∈ s.topology.names, (onLoop s router q).Within P := fun q hq =>
    within_boolVar.2 (hown _ (mem_variablesOf (k := ("on-loop", .bool)) mem_cons_self hq))
  refine within_eq.2 ⟨hloop r hr, within_anyOf.2 (within_hops hs.peers fun d hd q hq => ?_)⟩
  dsimp only
  split
  · exact hs.data r d hd
  · simp [hs.data r d hd, hloop q hq]

/-! ## §3. Instruments -/

def edge? : Instrument → Option Edge
  | reachability e | pathLength e | load e => some e
  | routerReachability _ | loop _ => none

/-- Variables and constraints as an instrument adds them: the variables are those of the slice, among them those of a
target that was not measured before, and the constraints are about nothing but the forwarding and these. -/
structure Adds (s : Slice) (known : List Name) (i : Instrument) (vs : List Variable)
    (cs : List (Term .bool)) : Prop where
  own : ∀ x ∈ vs, ∃ kind target r, x.name = variableName s kind target r
  targets : ∀ t ∈ i.target?, t ∉ known → measuredVariables s t.shown ⊆ vs
  within : ∀ P, IsInScope s P → (∀ e ∈ i.edge?, (s.dataForwarding e).Within P) →
    (∀ t ∈ i.target?, ∀ x ∈ measuredVariables s t.shown, P x) → (∀ x ∈ vs, P x) → ∀ c ∈ cs, c.Within P

theorem reachability_unless (s : Slice) (known : List Name) (t : Name) (goal : Name → Option (Term .bool))
    (l : Ledger) :
    ∃ vs cs l', (if !known.contains t then addReachability s t.shown goal else pure ()).runOn l = (.ok (), l') ∧
      l.Extends l' vs cs ∧ (∀ x ∈ vs, ∃ kind target r, x.name = variableName s kind target r) ∧
      (t ∉ known → measuredVariables s t.shown ⊆ vs) ∧
      ∀ P, IsInScope s P → (∀ r, ∀ g ∈ goal r, g.Within P) → (∀ x ∈ measuredVariables s t.shown, P x) →
        ∀ c ∈ cs, c.Within P := by
  split
  · obtain ⟨l', hrun, hext⟩ := declareEach_requireAll s [("reachable", .bool), ("reachable-id", .int)] t.shown
      (reachConstraints s t.shown goal) l
    refine ⟨_, _, l', hrun, hext, fun x => name_of_mem_variablesOf, fun _ _ hx => hx, fun P hs hgoal hown c hc => ?_⟩
    obtain ⟨r, hr, hc⟩ := mem_flatMap.1 hc
    exact within_reachConstraints hs hown (hgoal r) hr c hc
  next hmem => exact ⟨[], [], l, rfl, .refl l, nofun, fun h => absurd (by simpa using hmem) h, nofun⟩

theorem addLoads_extends (s : Slice) (e : Edge) (l : Ledger) :
    ∃ cs, l.Extends ((addLoads s e).runOn l).2 (variablesOf s [("load", .int)] (edgeName e)) cs ∧
      ∀ c ∈ cs, ∃ r ∈ s.topology.names, loadConstraint s e r = .ok c := by
  obtain ⟨l₁, h₁, e₁⟩ := declareEach_extends s [("load", .int)] (edgeName e) l
  obtain ⟨cs, e₂, hcs⟩ := forM_require_extends (f := loadConstraint s e) s.topology.names l₁
  refine ⟨cs, ?_, hcs⟩
  have hall := e₁.trans e₂
  rw [append_nil] at hall
  rw [addLoads, runOn_bind, h₁]
  exact hall

theorem addLoop_extends (s : Slice) (router : Document) (l : Ledger) :
    l.Extends ((addLoop s router).runOn l).2 (variablesOf s [("on-loop", .bool)] router.shown)
      (s.topology.names.map (loopConstraint s router)) := by
  obtain ⟨l₁, h₁, e₁⟩ := declareEach_extends s [("on-loop", .bool)] router.shown l
  have e₂ : l₁.Extends _ [] (s.topology.names.map (loopConstraint s router)) := runOn_requireAll (x := ()) rfl
  have hall := e₁.trans e₂
  rw [append_nil] at hall
  rw [addLoop, runOn_bind, h₁]
  show l.Extends (((liftM router.asName : Build Name) >>= _).runOn ((Build.requireAll _).runOn l₁).2).2 _ _
  -- whether the router is one of the topology is only asked in the end
  rw [runOn_bind, runOn_lift]
  cases router.asName with
  | error f => exact hall
  | ok name =>
    dsimp only
    split <;> exact hall

/-- **What an instrument adds**, also when not all of it can be added. -/
theorem add_adds (s : Slice) (known : List Name) (i : Instrument) (l : Ledger) :
    ∃ vs cs, l.Extends ((i.add s known).runOn l).2 vs cs ∧ Adds s known i vs cs := by
  cases i with
  | reachability e =>
    obtain ⟨vs, cs, l', hrun, hext, hown, hnew, hcs⟩ :=
      reachability_unless s known (.text (edgeName e)) (edgeGoal s e) l
    have hrun : (add s known (.reachability e)).runOn l = (.ok (), l') := hrun
    rw [hrun]
    refine ⟨vs, cs, hext, hown, fun t ht => Option.some.inj ht ▸ hnew, fun P hs he hreach _ => ?_⟩
    exact hcs P hs (fun r => within_edgeGoal (he e rfl)) (hreach (.text (edgeName e)) rfl)
  | routerReachability t =>
    obtain ⟨vs, cs, l', hrun, hext, hown, hnew, hcs⟩ :=
      reachability_unless s known t (fun r => if r == t then some .yes else none) l
    have hrun : (add s known (.routerReachability t)).runOn l = (.ok (), l') := hrun
    rw [hrun]
    refine ⟨vs, cs, hext, hown, fun t ht => Option.some.inj ht ▸ hnew, fun P hs _ hreach _ => ?_⟩
    refine hcs P hs (fun r g hg => ?_) (hreach t rfl)
    split at hg
    · exact Option.some.inj hg ▸ within_yes
    · cases hg
  | pathLength e =>
    obtain ⟨l', hrun, hext⟩ := declareEach_requireAll s [("path-length", .int)] (edgeName e) (lengthConstraints s e) l
    have hrun : (add s known (.pathLength e)).runOn l = (.ok (), l') := hrun
    rw [hrun]
    refine ⟨_, _, hext, fun x => name_of_mem_variablesOf, nofun, fun P hs he _ hown c hc => ?_⟩
    obtain ⟨r, hr, hc⟩ := mem_flatMap.1 hc
    exact within_lengthConstraints hs hown (he e rfl) hr c hc
  | load e =>
    obtain ⟨vs, cs, l', hrun, hext, hown, hnew, hcs⟩ :=
      reachability_unless s known (.text (edgeName e)) (edgeGoal s e) l
    obtain ⟨cs', hext', hcs'⟩ := addLoads_extends s e l'
    have hadd : add s known (.load e) =
        ((if !known.contains (.text (edgeName e)) then addReachability s (Name.text (edgeName e)).shown (edgeGoal s e)
          else pure ()) >>= fun _ => addLoads s e) := by
      cases h : known.contains (Name.text (edgeName e)) <;> simp only [add, target?, h] <;> rfl
    have hrun : ((add s known (.load e)).runOn l).2 = ((addLoads s e).runOn l').2 := by
      rw [hadd, runOn_bind, hrun]
    rw [hrun]
    refine ⟨_, _, hext.trans hext', ?_, fun t ht hnot => ?_, fun P hs he hreach hown c hc => ?_⟩
    · exact fun x hx => (mem_append.1 hx).elim (hown x) name_of_mem_variablesOf
    · cases ht
      exact fun x hx => mem_append_left _ (hnew hnot hx)
    · obtain ⟨-, hown⟩ := forall_mem_append.1 hown
      have hreach : ∀ x ∈ measuredVariables s (edgeName e), P x := hreach (.text (edgeName e)) rfl
      obtain hc | hc := mem_append.1 hc
      · exact hcs P hs (fun r => within_edgeGoal (he e rfl)) hreach c hc
      · obtain ⟨r, hr, hc⟩ := hcs' c hc
        exact within_loadConstraint hs hreach hown hr c hc
  | loop router =>
    refine ⟨_, _, addLoop_extends s router l, fun x => name_of_mem_variablesOf, nofun, fun P hs _ _ hown c hc => ?_⟩
    obtain ⟨r, hr, rfl⟩ := mem_map.1 hc
    exact within_loopConstraint hs hown hr

end ControlPlane.Instrument
