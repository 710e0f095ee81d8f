import ControlPlane.Proofs.Slice.Variables

/-!
# What is selected

The constraints on best routes, choices and forwarding, said in values: `Slice.SelectionHolds`.  A best route is one of
some routes and no worse than any of them (`Slice.IsBest`).  The constraints only speak about the values of records, so
that slices whose records have the same values select alike (`Slice.Similar.selectionHolds`).
-/
namespace ControlPlane

open List Term Topology Edge Comparing

variable {b b' : BestRecords} {c : Comparing} {e : Edge} {l l' : Lane} {cs : List (Term .bool)}
  {candidates : List Candidate} {name : Name} {best best' x x' : Record} {s s' : Slice} {v w : Valuation}

namespace Slice

/-! ## §1. Best routes -/

/-- A route is one of some candidates and no worse than any of them. -/
structure IsBestAmong (v : Valuation) (best : Record) (candidates : List Candidate) : Prop where
  permits : best.permits.eval v ↔ ∃ c ∈ candidates, c.permits.eval v
  beats : ∀ c ∈ candidates, c.permits.eval v → c.isBeaten.eval v
  isOne : best.permits.eval v → ∃ c ∈ candidates, c.permits.eval v ∧ c.isBest.eval v

theorem holds_bestAmong :
    (∀ t ∈ bestAmong best candidates, t.eval v) ↔ IsBestAmong v best candidates := by
  unfold bestAmong
  split
  next hempty =>
    obtain rfl := isEmpty_iff.1 hempty
    rw [forall_mem_singleton, holds_not, ← Bool.not_eq_true]
    refine ⟨fun hnot => ⟨⟨fun h => absurd h hnot, ?_⟩, nofun, fun h => absurd h hnot⟩, fun h hp => ?_⟩
    · rintro ⟨_, h, -⟩
      cases h
    · obtain ⟨_, h, -⟩ := h.permits.1 hp
      cases h
  next =>
    have hany : (Term.anyOf (candidates.map Candidate.permits)).eval v ↔
        ∃ c ∈ candidates, c.permits.eval v := by
      simp
    have hone : (Term.anyOf (candidates.map fun c => Term.and [c.permits, c.isBest])).eval v ↔
        ∃ c ∈ candidates, c.permits.eval v ∧ c.isBest.eval v := by
      simp
    rw [forall_mem_append, forall_mem_cons, forall_mem_singleton, forall_mem_map, eval_eq, Bool.eq_iff_iff,
      holds_implies, hany, hone]
    constructor
    · rintro ⟨hbeats, hpermits, hone⟩
      exact ⟨hpermits, fun c hc => (holds_implies v).1 (hbeats c hc), fun hp => hone (hpermits.1 hp)⟩
    · intro h
      exact ⟨fun c hc => (holds_implies v).2 (h.beats c hc), h.permits, fun hc => h.isOne (h.permits.2 hc)⟩

/-- A route is the best of some routes, each of which is compared in a setting of its own. -/
structure IsBest (v : Valuation) (best : Record) (among : Comparing → Record → Prop) : Prop where
  permits : best.permits.eval v ↔ ∃ c x, among c x ∧ x.permits.eval v
  beats : ∀ c x, among c x → x.permits.eval v → ∃ t, c.isAtLeast best x = .ok t ∧ t.eval v
  isOne : best.permits.eval v → ∃ c x, among c x ∧ x.permits.eval v ∧
    ∃ t, c.isSame best x true = .ok t ∧ t.eval v

/-- What a candidate says about its route. -/
theorem candidate_ok {record : Except Failure Record} {k : Candidate}
    (h : (do candidate c best (← record)) = Except.ok k) :
    ∃ x, record = .ok x ∧ k.permits = x.permits ∧ c.isAtLeast best x = .ok k.isBeaten ∧
      c.isSame best x true = .ok k.isBest := by
  obtain ⟨x, hx, h⟩ := bind_eq_ok.1 h
  obtain ⟨beaten, hbeaten, h⟩ := bind_eq_ok.1 h
  obtain ⟨same, hsame, h⟩ := bind_eq_ok.1 h
  cases h
  exact ⟨x, hx, rfl, hbeaten, hsame⟩

theorem holds_candidates {α : Type} {xs : List α} {c : α → Comparing} {record : α → Except Failure Record}
    (h : (xs.mapM fun a => do candidate (c a) best (← record a)) = .ok candidates) :
    (∀ t ∈ bestAmong best candidates, t.eval v) ↔
      IsBest v best fun d x => ∃ a ∈ xs, record a = .ok x ∧ d = c a := by
  -- every candidate is one of the routes, and the other way around
  have hroute : ∀ k ∈ candidates, ∃ a ∈ xs, ∃ x, record a = .ok x ∧ k.permits = x.permits ∧
      (c a).isAtLeast best x = .ok k.isBeaten ∧ (c a).isSame best x true = .ok k.isBest := by
    intro k hk
    obtain ⟨a, ha, hak⟩ := exists_of_mem_mapM h hk
    exact ⟨a, ha, candidate_ok hak⟩
  have hcandidate : ∀ a ∈ xs, ∀ x, record a = .ok x → ∃ k ∈ candidates, k.permits = x.permits ∧
      (c a).isAtLeast best x = .ok k.isBeaten ∧ (c a).isSame best x true = .ok k.isBest := by
    intro a ha x hx
    obtain ⟨k, hk, hak⟩ := exists_of_mapM_eq_ok h ha
    obtain ⟨y, hy, htells⟩ := candidate_ok hak
    cases hx.symm.trans hy
    exact ⟨k, hk, htells⟩
  have hpermits : (∃ k ∈ candidates, k.permits.eval v) ↔
      ∃ d x, (∃ a ∈ xs, record a = .ok x ∧ d = c a) ∧ x.permits.eval v := by
    constructor
    · rintro ⟨k, hk, hp⟩
      obtain ⟨a, ha, x, hx, hpermits, -⟩ := hroute k hk
      exact ⟨_, x, ⟨a, ha, hx, rfl⟩, hpermits ▸ hp⟩
    · rintro ⟨_, x, ⟨a, ha, hx, rfl⟩, hp⟩
      obtain ⟨k, hk, hpermits, -⟩ := hcandidate a ha x hx
      exact ⟨k, hk, hpermits ▸ hp⟩
  rw [holds_bestAmong]
  constructor
  · refine fun hbest => ⟨hbest.permits.trans hpermits, ?_, fun hp => ?_⟩
    · rintro _ x ⟨a, ha, hx, rfl⟩ hp
      obtain ⟨k, hk, hpermits, hbeaten, -⟩ := hcandidate a ha x hx
      exact ⟨k.isBeaten, hbeaten, hbest.beats k hk (hpermits ▸ hp)⟩
    · obtain ⟨k, hk, hp, hbest⟩ := hbest.isOne hp
      obtain ⟨a, ha, x, hx, hpermits, -, hsame⟩ := hroute k hk
      exact ⟨_, x, ⟨a, ha, hx, rfl⟩, hpermits ▸ hp, k.isBest, hsame, hbest⟩
  · refine fun hbest => ⟨hbest.permits.trans hpermits.symm, fun k hk hp => ?_, fun hp => ?_⟩
    · obtain ⟨a, ha, x, hx, hpermits, hbeaten, -⟩ := hroute k hk
      obtain ⟨t, ht, htv⟩ := hbest.beats _ x ⟨a, ha, hx, rfl⟩ (hpermits ▸ hp)
      cases hbeaten.symm.trans ht
      exact htv
    · obtain ⟨_, x, ⟨a, ha, hx, rfl⟩, hxv, t, ht, htv⟩ := hbest.isOne hp
      obtain ⟨k, hk, hpermits, -, hsame⟩ := hcandidate a ha x hx
      cases hsame.symm.trans ht
      exact ⟨k, hk, hpermits ▸ hxv, htv⟩

def imported (s : Slice) (r : Router) (p : Protocol) (c : Comparing) (x : Record) : Prop :=
  ∃ m ∈ s.lanesOf r.name p, s.incoming m = .ok x ∧ c = s.comparing r p (some m)

def bestsOfProtocols (s : Slice) (r : Router) (c : Comparing) (x : Record) : Prop :=
  ∃ p ∈ s.protocols r.name, s.bestOf r.name p = .ok x ∧ c = s.comparing r p none

/-! ## §2. The parts of a selection -/

section Parts

variable (s : Slice) (v : Valuation)

def CameFrom (x : Record) (p : Protocol) : Prop :=
  x.permits.eval v → ∀ h, x.history = some h → (h.isValue p).eval v

def HistoryHolds (b : BestRecords) : Prop :=
  if s.isSingle b.router then ∀ p, (s.protocols b.router).head? = some p → CameFrom v b.overall p
  else ∀ e ∈ b.perProtocol, CameFrom v e.2 e.1

def SameRoute (c : Comparing) (best x : Record) : Prop := ∃ t, c.isSame best x = .ok t ∧ t.eval v

instance (c : Comparing) (best x : Record) : Decidable (SameRoute v c best x) :=
  inferInstanceAs (Decidable (∃ t, c.isSame best x = .ok t ∧ t.eval v))

def ChoiceHolds (r : Router) (p : Protocol) (l : Lane) : Prop :=
  ∃ best x, s.bestOf r.name p = .ok best ∧ s.incoming l = .ok x ∧
    (l.choice.eval v ↔ x.permits.eval v ∧ SameRoute v (s.comparing r p (some l)) best x)

def IsUsed (r : Router) (l : Lane) : Prop :=
  l.choice.eval v ∧ ∃ best x, s.overall r.name = .ok best ∧ s.incoming l = .ok x ∧
    SameRoute v (s.comparing r l.protocol (some l)) best x

instance (r : Router) (l : Lane) : Decidable (s.IsUsed v r l) :=
  decidable_of_iff (l.choice.eval v ∧ ∃ best, s.overall r.name = .ok best ∧ ∃ x, s.incoming l = .ok x ∧
      SameRoute v (s.comparing r l.protocol (some l)) best x)
    ⟨fun ⟨hchoice, best, hbest, x, hx, hsame⟩ => ⟨hchoice, best, x, hbest, hx, hsame⟩,
      fun ⟨hchoice, best, x, hbest, hx, hsame⟩ => ⟨hchoice, best, hbest, x, hx, hsame⟩⟩

def ControlHolds (r : Router) (e : Edge) : Prop :=
  (s.controlForwarding e).eval v ↔
    ∃ p ∈ s.protocols r.name, ∃ l ∈ s.lanesOf r.name p, (l.edge == e) ∧ s.IsUsed v r l

/-- Packets are sent where the control plane forwards, if the access list permits them. -/
def DataHolds (e : Edge) : Prop :=
  (s.dataForwarding e).eval v ↔
    (s.controlForwarding e).eval v ∧ (s.permits e.router e.start .outgoing).eval v

/-- What is said about best routes, choices and forwarding. -/
structure SelectionHolds : Prop where
  history : ∀ b ∈ s.bests, s.HistoryHolds v b
  perProtocol : ∀ r ∈ s.topology.routers, ∀ p ∈ s.protocols r.name, ∃ best, s.bestOf r.name p = .ok best ∧
    (∀ l ∈ s.lanesOf r.name p, ∃ x, s.incoming l = .ok x) ∧ IsBest v best (s.imported r p)
  choices : ∀ r ∈ s.topology.routers, ∀ p ∈ s.protocols r.name, ∀ l ∈ s.lanesOf r.name p, s.ChoiceHolds v r p l
  overall : ∀ r ∈ s.topology.routers, s.isSingle r.name = false → ∃ best, s.overall r.name = .ok best ∧
    IsBest v best (s.bestsOfProtocols r)
  control : ∀ r ∈ s.topology.routers, ∀ e ∈ s.topology.edges r.name, s.ControlHolds v r e
  data : ∀ site ∈ s.topology.sites, ∀ e ∈ site.edges, s.DataHolds v e

end Parts

/-! ## §3. Reading the constraints -/

theorem holds_cameFrom (x : Record) (p : Protocol) : (match x.history with
      | some h => Term.implies x.permits (h.isValue p)
      | none => Term.implies x.permits .yes).eval v ↔ CameFrom v x p := by
  unfold CameFrom
  cases hh : x.history with
  | none => exact (holds_implies v).trans ⟨nofun, fun _ _ => rfl⟩
  | some h =>
    refine (holds_implies v).trans ⟨fun hv hp h' hh' => ?_, fun hv hp => hv hp h rfl⟩
    exact Option.some.inj hh' ▸ hv hp

theorem holds_history : (∀ c ∈ s.historyConstraints, c.eval v) ↔ ∀ b ∈ s.bests, s.HistoryHolds v b := by
  unfold historyConstraints HistoryHolds
  rw [forall_mem_flatMap]
  refine forall₂_congr fun b _ => ?_
  dsimp only
  split
  · cases (s.protocols b.router).head? with
    | none => simp
    | some p =>
      rw [Option.map_some, Option.toList_some, forall_mem_singleton]
      exact (holds_cameFrom _ _).trans ⟨fun h q hq => Option.some.inj hq ▸ h, fun h => h p rfl⟩
  · rw [forall_mem_map]
    exact forall₂_congr fun e _ => holds_cameFrom e.2 e.1

theorem holds_perProtocol (h : s.bestPerProtocolConstraints = .ok cs) :
    (∀ c ∈ cs, c.eval v) ↔ ∀ r ∈ s.topology.routers, ∀ p ∈ s.protocols r.name,
      ∃ best, s.bestOf r.name p = .ok best ∧ (∀ l ∈ s.lanesOf r.name p, ∃ x, s.incoming l = .ok x) ∧
        IsBest v best (s.imported r p) := by
  obtain ⟨groups, hgroups, h⟩ := bind_eq_ok.1 h
  cases h
  rw [forall_mem_flatten, forall_mem_flatten]
  refine forall_mem_mapM hgroups fun r _ group hgroup => forall_mem_mapM hgroup fun p _ here hhere => ?_
  obtain ⟨best, hb, hhere⟩ := bind_eq_ok.1 hhere
  obtain ⟨candidates, hcandidates, hhere⟩ := bind_eq_ok.1 hhere
  cases hhere
  rw [holds_candidates hcandidates, exists_ok_iff hb]
  refine (and_iff_right fun l hl => ?_).symm
  obtain ⟨k, -, hk⟩ := exists_of_mapM_eq_ok hcandidates hl
  obtain ⟨x, hx, -⟩ := candidate_ok hk
  exact ⟨x, hx⟩

theorem holds_overall (h : s.bestOverallConstraints = .ok cs) :
    (∀ c ∈ cs, c.eval v) ↔ ∀ r ∈ s.topology.routers, s.isSingle r.name = false →
      ∃ best, s.overall r.name = .ok best ∧ IsBest v best (s.bestsOfProtocols r) := by
  obtain ⟨groups, hgroups, h⟩ := bind_eq_ok.1 h
  cases h
  rw [forall_mem_flatten]
  refine forall_mem_mapM hgroups fun r _ group hgroup => ?_
  cases hsingle : s.isSingle r.name with
  | true =>
    rw [hsingle] at hgroup
    cases hgroup
    exact ⟨nofun, nofun⟩
  | false =>
    rw [hsingle] at hgroup
    obtain ⟨best, hb, hgroup⟩ := bind_eq_ok.1 hgroup
    obtain ⟨candidates, hcandidates, hgroup⟩ := bind_eq_ok.1 hgroup
    cases hgroup
    rw [holds_candidates hcandidates, exists_ok_iff hb]
    exact ⟨fun hbest _ => hbest, fun h => h rfl⟩

theorem holds_isSame {t : Term .bool} (h : c.isSame best x = .ok t) : t.eval v ↔ SameRoute v c best x := by
  rw [SameRoute, exists_ok_iff h]

theorem holds_choices (h : s.choiceConstraints = .ok cs) :
    (∀ c ∈ cs, c.eval v) ↔ ∀ r ∈ s.topology.routers, ∀ p ∈ s.protocols r.name,
      ∀ l ∈ s.lanesOf r.name p, s.ChoiceHolds v r p l := by
  obtain ⟨groups, hgroups, h⟩ := bind_eq_ok.1 h
  cases h
  rw [forall_mem_flatten, forall_mem_flatten]
  refine forall_mem_mapM hgroups fun r _ group hgroup => forall_mem_mapM hgroup fun p _ here hhere => ?_
  obtain ⟨best, hb, hhere⟩ := bind_eq_ok.1 hhere
  refine forall_mem_mapM hhere fun l _ c hc => ?_
  obtain ⟨x, hx, hc⟩ := bind_eq_ok.1 hc
  obtain ⟨same, hsame, hc⟩ := bind_eq_ok.1 hc
  cases hc
  rw [eval_eq, Bool.eq_iff_iff, holds_and_two, holds_isSame hsame, ChoiceHolds, exists_ok_ok_iff hb hx]

theorem holds_others {used : List (Edge × Term .bool)} :
    (match (used.filter fun u : Edge × Term .bool => u.1 == e).map Prod.snd with
      | [] => Term.not (s.controlForwarding e)
      | here => Term.implies (.not (.anyOf here)) (.not (s.controlForwarding e))).eval v ↔
    ((s.controlForwarding e).eval v → ∃ u ∈ used, (u.1 == e) ∧ u.2.eval v) := by
  have hhere : (∃ t ∈ (used.filter fun u => u.1 == e).map Prod.snd, t.eval v) ↔
      ∃ u ∈ used, (u.1 == e) ∧ u.2.eval v := by
    simp only [mem_map, mem_filter]
    constructor
    · rintro ⟨_, ⟨u, ⟨hu, he⟩, rfl⟩, hv⟩
      exact ⟨u, hu, he, hv⟩
    · rintro ⟨u, hu, he, hv⟩
      exact ⟨_, ⟨u, ⟨hu, he⟩, rfl⟩, hv⟩
  rw [← hhere]
  split
  next hnil =>
    rw [hnil]
    simp
  next here _ =>
    rw [holds_implies, holds_not, holds_not, ← Bool.not_eq_true, ← Bool.not_eq_true,
      holds_anyOf]
    exact not_imp_not

theorem controlForwarding_of_beq {d : Edge} (h : (d == e)) : s.controlForwarding d = s.controlForwarding e := by
  unfold Frame.controlForwarding
  rw [router_of_beq h, interface_of_beq h]

theorem holds_isUsed {r : Router} (hb : s.overall r.name = .ok best) {t : Term .bool} (h : s.isUsed r best l = .ok t) :
    t.eval v ↔ s.IsUsed v r l := by
  obtain ⟨x, hx, h⟩ := bind_eq_ok.1 h
  obtain ⟨same, hsame, h⟩ := bind_eq_ok.1 h
  cases h
  rw [holds_and_two, holds_isSame hsame, IsUsed, exists_ok_ok_iff hb hx]

theorem holds_control (hedges : ∀ l ∈ s.lanes, l.edge ∈ s.topology.edges l.router) (h : s.controlConstraints = .ok cs) :
    (∀ c ∈ cs, c.eval v) ↔
      ∀ r ∈ s.topology.routers, ∀ e ∈ s.topology.edges r.name, s.ControlHolds v r e := by
  obtain ⟨groups, hgroups, h⟩ := bind_eq_ok.1 h
  cases h
  rw [forall_mem_flatten]
  refine forall_mem_mapM hgroups fun r _ group hgroup => ?_
  obtain ⟨best, hb, hgroup⟩ := bind_eq_ok.1 hgroup
  obtain ⟨used, hused, hgroup⟩ := bind_eq_ok.1 hgroup
  cases hgroup
  -- the terms of lanes, and which lanes they belong to
  have hterm : ∀ l u, (do return (l.edge, ← s.isUsed r best l) : Except Failure (Edge × Term .bool)) = .ok u →
      u.1 = l.edge ∧ (u.2.eval v ↔ s.IsUsed v r l) := by
    intro l u hu
    obtain ⟨t, ht, hu⟩ := bind_eq_ok.1 hu
    cases hu
    exact ⟨rfl, holds_isUsed hb ht⟩
  have hover : ∀ e, (∃ u ∈ used.flatten, (u.1 == e) ∧ u.2.eval v) ↔
      ∃ p ∈ s.protocols r.name, ∃ l ∈ s.lanesOf r.name p, (l.edge == e) ∧ s.IsUsed v r l := by
    intro e
    rw [exists_mem_flatten]
    refine exists_mem_mapM hused fun p _ here hhere => exists_mem_mapM hhere fun l _ u hu => ?_
    obtain ⟨hedge, hiff⟩ := hterm l u hu
    rw [hedge, hiff]
  rw [forall_mem_append, forall_mem_map, forall_mem_map]
  constructor
  · rintro ⟨hforwards, hothers⟩ e he
    refine ⟨fun hv => (hover e).1 (holds_others.1 (hothers e he) hv), fun hv => ?_⟩
    obtain ⟨u, hu, hue, huv⟩ := (hover e).2 hv
    rw [← controlForwarding_of_beq hue]
    exact (holds_implies v).1 (hforwards u hu) huv
  · intro hcontrol
    refine ⟨fun u hu => (holds_implies v).2 fun huv => ?_,
      fun e he => holds_others.2 fun hv => (hover e).2 ((hcontrol e he).1 hv)⟩
    obtain ⟨p, hp, l, hl, hedge, hlane⟩ := (hover u.1).1 ⟨u, hu, beq_iff.2 rfl, huv⟩
    obtain ⟨hmem, hrouter, -⟩ := mem_lanesOf.1 hl
    rw [← controlForwarding_of_beq hedge]
    exact (hcontrol l.edge (hrouter ▸ hedges l hmem)).2 ⟨p, hp, l, hl, beq_iff.2 rfl, hlane⟩

theorem holds_data : (∀ c ∈ s.dataConstraints, c.eval v) ↔
    ∀ site ∈ s.topology.sites, ∀ e ∈ site.edges, s.DataHolds v e := by
  unfold dataConstraints DataHolds
  rw [forall_mem_flatMap]
  refine forall₂_congr fun site _ => ?_
  rw [forall_mem_map]
  refine forall₂_congr fun e _ => ?_
  rw [eval_eq, Bool.eq_iff_iff]
  simp

end Slice

/-! ## §4. Best routes of a planned slice -/

namespace Frame

open Record

variable {basis : Plan.Basis} {q : ProtocolPlan} {label : String} {r : Router} {p : Protocol} {f : Frame}
  {router : Name}

theorem isSingle_protocols (h : f.isSingle name) : ∃ p, f.protocols name = [p] := by
  unfold isSingle at h
  unfold protocols Plan.protocolsOf
  cases hd : f.plan.router? name with
  | none =>
    rw [hd] at h
    cases h
  | some d =>
    rw [hd] at h
    have hlength : d.protocols.length = 1 := by simpa [RouterPlan.isSingle] using h
    obtain ⟨q, hq⟩ := length_eq_one_iff.1 hlength
    exact ⟨q.protocol, by simp [RouterPlan.protocolList, hq]⟩

theorem protocolList_planFor (f : Frame) (name : Name) : (f.planFor name).protocolList = f.protocols name :=
  (f.getD_planFor name RouterPlan.protocolList).symm

/-- The records that a comparison of an imported route goes through. -/
theorem bestRecord_covers (hp : p ≠ .best) (hmem : p ∈ f.protocols name) :
    (f.bestRecord name "OVERALL" .best).Covers (f.bestRecord name p.label p) :=
  planned_best_covers hp (f.protocolList_planFor name ▸ hmem)

theorem overall_covers (hp : p ≠ .best) (hmem : p ∈ f.protocols name) :
    (f.bestRecord name "OVERALL" .best).Covers (.planned f label router p) :=
  (bestRecord_covers hp hmem).trans (planned_covers_same hp)

theorem isBest_recordName (label : String) (p : Protocol) :
    (Record.unused (f.recordName name label "none" "BEST") p).isBest :=
  Text.occursIn_iff.2 ⟨(f.name ++ name.shown ++ "_" ++ label ++ "_none").toList, [],
    by simp [Record.unused, recordName]⟩

theorem bestRecord_routerId (hp : p ≠ .best) (hq : (f.planFor name).protocol? p = some q)
    (hneeds : q.needsRouterId) : (f.bestRecord name p.label p).routerId ≠ none := by
  intro h
  have h : Record.numberIf (Record.wantsId (f.planFor name) (f.recordName name p.label "none" "BEST") p) _ _ = none := h
  rw [numberIf_eq_none] at h
  unfold Record.wantsId at h
  rw [if_neg (by simpa using hp), isBest_recordName, hq] at h
  simp [hneeds] at h

theorem decides_protocol (hplan : f.IsDecided basis)
    (hr : f.topology.router name = .ok r) (hp : p ∈ f.protocols name) :
    ∃ q, (f.planFor name).protocol? p = some q ∧
      Plan.DecidesProtocol basis.switches f.topology f.space basis.failures basis.encoded r p q := by
  obtain ⟨d, hd, hdecides⟩ := hplan.router? hr
  rw [← f.protocolList_planFor, planFor_eq hd] at hp
  rw [planFor_eq hd]
  exact hdecides.protocol? hp

theorem mem_routers {t : Topology} (hr : t.router name = .ok r) : r ∈ t.routers ∧ r.name = name := by
  obtain ⟨site, hsite, rfl, hfind, -⟩ := site_of_router hr
  exact ⟨mem_map_of_mem hsite, (mem_of_site? hfind).2⟩

theorem mem_names {t : Topology} (hr : t.router name = .ok r) : name ∈ t.names := by
  obtain ⟨hmem, rfl⟩ := mem_routers hr
  exact name_mem hmem

variable {rs : List Redistribution} (h : (f.slice rs).SelectionHolds v) (hr : f.topology.router name = .ok r)
include h hr

theorem isBest_bestOf (hp : p ∈ f.protocols name) (hb : (f.slice rs).bestOf name p = .ok best) :
    Slice.IsBest v best ((f.slice rs).imported r p) := by
  obtain ⟨hmem, rfl⟩ := mem_routers hr
  obtain ⟨best', hb', -, hbest⟩ := h.perProtocol r hmem p hp
  cases hb.symm.trans hb'
  exact hbest

theorem isBest_overall (hmany : f.isSingle name = false) :
    Slice.IsBest v (f.bestRecord name "OVERALL" .best) ((f.slice rs).bestsOfProtocols r) := by
  obtain ⟨hmem, rfl⟩ := mem_routers hr
  obtain ⟨best, hb, hbest⟩ := h.overall r hmem hmany
  rw [slice_overall (mem_names hr)] at hb
  cases hb
  exact hbest

theorem overall_isOne (hpermits : (f.bestRecord name "OVERALL" .best).permits.eval v) :
    ∃ p ∈ f.protocols name, ∃ b, (f.slice rs).bestOf name p = .ok b ∧ b.permits.eval v ∧
      (f.isSingle name → b = f.bestRecord name "OVERALL" .best) ∧
      (f.isSingle name = false → ∃ t, ((f.slice rs).comparing r p none).isSame
        (f.bestRecord name "OVERALL" .best) b true = .ok t ∧ t.eval v) := by
  cases hsingle : f.isSingle name with
  | true =>
    obtain ⟨p, hps⟩ := isSingle_protocols hsingle
    have hp : p ∈ f.protocols name := hps ▸ mem_singleton_self p
    refine ⟨p, hp, _, slice_bestOf (mem_names hr) hp, ?_⟩
    rw [hsingle]
    exact ⟨hpermits, fun _ => rfl, nofun⟩
  | false =>
    have hisBest := isBest_overall h hr hsingle
    obtain ⟨-, rfl⟩ := mem_routers hr
    obtain ⟨-, b, ⟨p, hp, hb, rfl⟩, hbv, hsame⟩ := hisBest.isOne hpermits
    exact ⟨p, hp, b, hb, hbv, nofun, fun _ => hsame⟩

theorem overall_permits (hp : p ∈ f.protocols name) (hb : (f.slice rs).bestOf name p = .ok best)
    (hpermits : best.permits.eval v) : (f.bestRecord name "OVERALL" .best).permits.eval v := by
  cases hsingle : f.isSingle name with
  | true =>
    rw [slice_bestOf (mem_names hr) hp, hsingle, if_pos rfl] at hb
    exact Except.ok.inj hb ▸ hpermits
  | false =>
    have hisBest := isBest_overall h hr hsingle
    obtain ⟨-, rfl⟩ := mem_routers hr
    exact hisBest.permits.2 ⟨_, best, ⟨p, hp, hb, rfl⟩, hpermits⟩

end Frame

/-! ## §5. Slices that select alike -/

structure Slice.Twins (v w : Valuation) (s s' : Slice) (l l' : Lane) : Prop where
  router : l.router = l'.router
  protocol : l.protocol = l'.protocol
  edge : l.edge = l'.edge
  choice : l.choice.eval v = l'.choice.eval w
  incoming : (s.incoming l).toOption.map (Record.frozen v) = (s'.incoming l').toOption.map (Record.frozen w)

theorem Slice.Twins.symm (h : Slice.Twins v w s s' l l') :
    Slice.Twins w v s' s l' l :=
  ⟨h.router.symm, h.protocol.symm, h.edge.symm, h.choice.symm, h.incoming.symm⟩

structure BestRecords.Twin (v w : Valuation) (b b' : BestRecords) : Prop where
  router : b.router = b'.router
  overall : b.overall.SameValues v w b'.overall
  perProtocol : List.Forall₂ (fun e e' => e.1 = e'.1 ∧ e.2.SameValues v w e'.2) b.perProtocol b'.perProtocol

theorem BestRecords.Twin.symm (h : b.Twin v w b') : b'.Twin w v b where
  router := h.router.symm
  overall := h.overall.symm
  perProtocol := List.Forall₂.flip (h.perProtocol.imp fun _ _ he => ⟨he.1.symm, he.2.symm⟩)

namespace Slice

theorem Twins.record (h : Twins v w s s' l l') (hx : s.incoming l = .ok x) :
    ∃ y, s'.incoming l' = .ok y ∧ x.SameValues v w y := by
  have hsame := h.incoming
  rw [hx] at hsame
  cases hy : s'.incoming l' with
  | error f =>
    rw [hy] at hsame
    exact absurd hsame (by simp [Except.toOption])
  | ok y =>
    rw [hy] at hsame
    exact ⟨y, rfl, Option.some.inj hsame⟩

structure Similar (v w : Valuation) (s s' : Slice) : Prop where
  topology : s.topology = s'.topology
  protocols : ∀ name, s.protocols name = s'.protocols name
  isSingle : ∀ name, s.isSingle name = s'.isSingle name
  lanes : List.Forall₂ (Twins v w s s') s.lanes s'.lanes
  bests : List.Forall₂ (BestRecords.Twin v w) s.bests s'.bests
  control : ∀ site ∈ s.topology.sites, ∀ e ∈ site.edges,
    (s.controlForwarding e).eval v = (s'.controlForwarding e).eval w
  data : ∀ site ∈ s.topology.sites, ∀ e ∈ site.edges,
    (s.dataForwarding e).eval v = (s'.dataForwarding e).eval w
  permits : ∀ site ∈ s.topology.sites, ∀ e ∈ site.edges,
    (s.permits e.router e.start .outgoing).eval v = (s'.permits e.router e.start .outgoing).eval w

namespace Similar

theorem symm (h : Similar v w s s') : Similar w v s' s where
  topology := h.topology.symm
  protocols name := (h.protocols name).symm
  isSingle name := (h.isSingle name).symm
  lanes := List.Forall₂.flip (h.lanes.imp fun _ _ hl => hl.symm)
  bests := List.Forall₂.flip (h.bests.imp fun _ _ hb => hb.symm)
  control site hsite e he := (h.control site (h.topology ▸ hsite) e he).symm
  data site hsite e he := (h.data site (h.topology ▸ hsite) e he).symm
  permits site hsite e he := (h.permits site (h.topology ▸ hsite) e he).symm

variable {r : Router} {p : Protocol}

section

variable (h : Similar v w s s')
include h

theorem bestsOf (hb : s.bestsOf? name = some b) :
    ∃ b', s'.bestsOf? name = some b' ∧ b.Twin v w b' :=
  Plan.forall₂_find? h.bests (fun b b' ht => by rw [ht.router]) hb

theorem overall (hx : s.overall name = .ok x) : ∃ y, s'.overall name = .ok y ∧ x.SameValues v w y := by
  unfold Slice.overall at hx ⊢
  cases hb : s.bestsOf? name with
  | none =>
    rw [hb] at hx
    cases hx
  | some b =>
    rw [hb] at hx
    cases hx
    obtain ⟨b', hb', htwin⟩ := h.bestsOf hb
    exact ⟨b'.overall, by rw [hb'], htwin.overall⟩

theorem bestOf (hx : s.bestOf name p = .ok x) : ∃ y, s'.bestOf name p = .ok y ∧ x.SameValues v w y := by
  unfold Slice.bestOf at hx ⊢
  cases hb : s.bestsOf? name with
  | none =>
    rw [hb] at hx
    cases hx
  | some b =>
    obtain ⟨b', hb', htwin⟩ := h.bestsOf hb
    rw [hb] at hx
    rw [hb', ← h.isSingle name]
    dsimp only at hx ⊢
    split at hx
    next hsingle =>
      cases hx
      exact ⟨b'.overall, by rw [if_pos hsingle], htwin.overall⟩
    next hsingle =>
      rw [if_neg hsingle]
      split at hx
      next y hy =>
        cases hx
        obtain ⟨y', hy', hsame⟩ := Plan.forall₂_lookup htwin.perProtocol hy
        exact ⟨y', by rw [hy'], hsame⟩
      next => cases hx

theorem opposite {m : Lane} (htwin : Twins v w s s' l l') (hm : s.opposite? l = some m) :
    ∃ m', s'.opposite? l' = some m' ∧ Twins v w s s' m m' := by
  unfold Slice.opposite? at hm ⊢
  rw [← htwin.edge, ← htwin.protocol]
  cases hback : l.edge.reverse? with
  | none =>
    rw [hback] at hm
    cases hm
  | some back =>
    rw [hback] at hm
    exact Plan.forall₂_find? h.lanes (fun m m' ht => by rw [ht.router, ht.protocol, ht.edge]) hm

theorem comparing (htwin : Twins v w s s' l l') : s.comparing r p (some l) = s'.comparing r p (some l') := by
  have hid : s.peerId l p = s'.peerId l' p := by
    unfold Slice.peerId
    rw [← h.topology, ← htwin.edge]
    cases hm : s.opposite? l with
    | some m =>
      obtain ⟨m', hm', hmtwin⟩ := h.opposite htwin hm
      rw [hm']
      dsimp only
      rw [hmtwin.router]
    | none =>
      cases hm' : s'.opposite? l' with
      | none => rfl
      | some m' =>
        obtain ⟨m, hm'', -⟩ := h.symm.opposite htwin.symm hm'
        cases hm.symm.trans hm''
  unfold Slice.comparing
  rw [Option.map_some, Option.map_some, ← htwin.edge, hid]

theorem laneOf (hl : l ∈ s.lanesOf r.name p) : ∃ l' ∈ s'.lanesOf r.name p, Twins v w s s' l l' := by
  obtain ⟨hl, hat⟩ := mem_filter.1 hl
  obtain ⟨i, hi, rfl⟩ := getElem_of_mem hl
  have hi' : i < s'.lanes.length := h.lanes.length_eq ▸ hi
  have htwin : Twins v w s s' s.lanes[i] s'.lanes[i] := h.lanes.get hi hi'
  refine ⟨s'.lanes[i], mem_filter.2 ⟨getElem_mem hi', ?_⟩, htwin⟩
  rw [← htwin.router, ← htwin.protocol]
  exact hat

end

theorem isBest {among among' : Comparing → Record → Prop} (hbest : best.SameValues v w best')
    (hforth : ∀ c x, among c x → ∃ y, among' c y ∧ x.SameValues v w y)
    (hback : ∀ c y, among' c y → ∃ x, among c x ∧ x.SameValues v w y) (h : IsBest v best among) :
    IsBest w best' among' := by
  constructor
  · rw [← hbest.permits, h.permits]
    constructor
    · rintro ⟨c, x, hx, hv⟩
      obtain ⟨y, hy, hsame⟩ := hforth c x hx
      exact ⟨c, y, hy, hsame.permits ▸ hv⟩
    · rintro ⟨c, y, hy, hv⟩
      obtain ⟨x, hx, hsame⟩ := hback c y hy
      exact ⟨c, x, hx, hsame.permits ▸ hv⟩
  · intro c y hy hv
    obtain ⟨x, hx, hsame⟩ := hback c y hy
    obtain ⟨t, ht, htv⟩ := h.beats c x hx (hsame.permits ▸ hv)
    obtain ⟨t', ht', hval⟩ := isAtLeast_of_sameValues hbest hsame ht
    exact ⟨t', ht', hval.trans htv⟩
  · intro hv
    obtain ⟨c, x, hx, hxv, t, ht, htv⟩ := h.isOne (hbest.permits ▸ hv)
    obtain ⟨y, hy, hsame⟩ := hforth c x hx
    obtain ⟨t', ht', hval⟩ := isSame_of_sameValues hbest hsame ht
    exact ⟨c, y, hy, hsame.permits ▸ hxv, t', ht', hval.trans htv⟩

theorem cameFrom (hx : x.SameValues v w x') (h : CameFrom v x p) : CameFrom w x' p := by
  intro hv a' ha'
  obtain ⟨a, ha, hsame⟩ := hx.symm.history ha'
  have hval : (a.isValue p).eval v = (a'.isValue p).eval w := by
    rw [← a.eval_isValue_frozen v v, ← a'.eval_isValue_frozen w v, hsame]
  exact hval ▸ h (hx.permits ▸ hv) a ha

theorem sameRoute (hbest : best.SameValues v w best') (hx : x.SameValues v w x') (hsame : SameRoute v c best x) :
    SameRoute w c best' x' := by
  obtain ⟨t, ht, htv⟩ := hsame
  obtain ⟨t', ht', hval⟩ := isSame_of_sameValues hbest hx ht
  exact ⟨t', ht', hval.trans htv⟩

variable (h : Similar v w s s')
include h

theorem imported (hx : s.imported r p c x) : ∃ y, s'.imported r p c y ∧ x.SameValues v w y := by
  obtain ⟨l, hl, hx, rfl⟩ := hx
  obtain ⟨l', hl', htwin⟩ := h.laneOf hl
  obtain ⟨y, hy, hsame⟩ := htwin.record hx
  exact ⟨y, ⟨l', hl', hy, h.comparing htwin⟩, hsame⟩

theorem bestsOfProtocols (hx : s.bestsOfProtocols r c x) : ∃ y, s'.bestsOfProtocols r c y ∧ x.SameValues v w y := by
  obtain ⟨p, hp, hx, rfl⟩ := hx
  obtain ⟨y, hy, hsame⟩ := h.bestOf hx
  exact ⟨y, ⟨p, h.protocols r.name ▸ hp, hy, rfl⟩, hsame⟩

theorem isUsed (htwin : Twins v w s s' l l') (hused : s.IsUsed v r l) :
    s'.IsUsed w r l' := by
  obtain ⟨hchoice, best, x, hbest, hx, hsame⟩ := hused
  obtain ⟨best', hbest', hb⟩ := h.overall hbest
  obtain ⟨x', hx', hxx⟩ := htwin.record hx
  refine ⟨htwin.choice ▸ hchoice, best', x', hbest', hx', ?_⟩
  rw [← htwin.protocol, ← h.comparing htwin]
  exact sameRoute hb hxx hsame

theorem historyHolds (htwin : b.Twin v w b') (hb : s.HistoryHolds v b) : s'.HistoryHolds w b' := by
  unfold HistoryHolds at hb ⊢
  rw [← htwin.router, ← h.isSingle, ← h.protocols]
  split at hb
  next hsingle =>
    rw [if_pos hsingle]
    exact fun p hp => cameFrom htwin.overall (hb p hp)
  next hsingle =>
    rw [if_neg hsingle]
    intro e' he'
    obtain ⟨e, he, hprotocol, hsame⟩ := forall₂_mem_right htwin.perProtocol he'
    exact hprotocol ▸ cameFrom hsame (hb e he)

theorem choiceHolds (htwin : Twins v w s s' l l')
    (hc : s.ChoiceHolds v r p l) : s'.ChoiceHolds w r p l' := by
  obtain ⟨best, x, hbest, hx, hiff⟩ := hc
  obtain ⟨best', hbest', hb⟩ := h.bestOf hbest
  obtain ⟨x', hx', hxx⟩ := htwin.record hx
  refine ⟨best', x', hbest', hx', ?_⟩
  rw [← htwin.choice, hiff, hxx.permits, ← h.comparing htwin]
  exact and_congr_right fun _ => ⟨sameRoute hb hxx, sameRoute hb.symm hxx.symm⟩

theorem controlHolds {site : Site} (hsite : site ∈ s.topology.sites) (he : e ∈ site.edges) (hc : s.ControlHolds v r e) :
    s'.ControlHolds w r e := by
  unfold ControlHolds at hc ⊢
  rw [← h.control site hsite e he, hc]
  constructor
  · rintro ⟨p, hp, l, hl, hedge, hused⟩
    obtain ⟨l', hl', htwin⟩ := h.laneOf hl
    exact ⟨p, h.protocols r.name ▸ hp, l', hl', htwin.edge ▸ hedge,
      h.isUsed htwin hused⟩
  · rintro ⟨p, hp, l', hl', hedge, hused⟩
    obtain ⟨l, hl, htwin⟩ := h.symm.laneOf hl'
    exact ⟨p, h.protocols r.name ▸ hp, l, hl, htwin.edge ▸ hedge,
      h.symm.isUsed htwin hused⟩

/-- **Slices whose records have the same values select alike.** -/
theorem selectionHolds (hv : s.SelectionHolds v) : s'.SelectionHolds w where
  history b' hb' := by
    obtain ⟨b, hb, htwin⟩ := forall₂_mem_right h.bests hb'
    exact h.historyHolds htwin (hv.history b hb)
  perProtocol r hr p hp := by
    obtain ⟨best, hbest, htotal, hisBest⟩ := hv.perProtocol r (h.topology ▸ hr) p (h.protocols r.name ▸ hp)
    obtain ⟨best', hbest', hsame⟩ := h.bestOf hbest
    refine ⟨best', hbest', fun l' hl' => ?_, isBest hsame (fun c x hx => h.imported hx) (fun c y hy => ?_) hisBest⟩
    · obtain ⟨l, hl, htwin⟩ := h.symm.laneOf hl'
      obtain ⟨x, hx⟩ := htotal l hl
      obtain ⟨y, hy, -⟩ := htwin.symm.record hx
      exact ⟨y, hy⟩
    · obtain ⟨x, hx, hxy⟩ := h.symm.imported hy
      exact ⟨x, hx, hxy.symm⟩
  choices r hr p hp l' hl' := by
    obtain ⟨l, hl, htwin⟩ := h.symm.laneOf hl'
    exact h.choiceHolds htwin.symm (hv.choices r (h.topology ▸ hr) p (h.protocols r.name ▸ hp) l hl)
  overall r hr hsingle := by
    obtain ⟨best, hbest, hisBest⟩ := hv.overall r (h.topology ▸ hr) ((h.isSingle r.name).trans hsingle)
    obtain ⟨best', hbest', hsame⟩ := h.overall hbest
    refine ⟨best', hbest', isBest hsame (fun c x hx => h.bestsOfProtocols hx) (fun c y hy => ?_) hisBest⟩
    obtain ⟨x, hx, hxy⟩ := h.symm.bestsOfProtocols hy
    exact ⟨x, hx, hxy.symm⟩
  control r hr e he := by
    rw [← h.topology] at hr he
    obtain ⟨site, hsite, -, hmem⟩ := site_of_edge he
    exact h.controlHolds hsite hmem (hv.control r hr e he)
  data site hsite e he := by
    rw [← h.topology] at hsite
    unfold DataHolds
    rw [← h.data site hsite e he, ← h.control site hsite e he, ← h.permits site hsite e he]
    exact hv.data site hsite e he

end Similar

end Slice

end ControlPlane
