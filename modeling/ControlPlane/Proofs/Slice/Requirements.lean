import ControlPlane.Proofs.Ledger.Emission
import ControlPlane.Proofs.Slice.Layout
import ControlPlane.Slice.Encoding

/-!
# What an encoding requires

An encoding is made in order: link failures, the packet, the records of the slice, transfers, and then the
constraints that need no variable of their own (`Slice.stableConstraints`).  The theorems here take an
encoding apart into these, so that a constraint can be found in its ledger.
-/
namespace ControlPlane

open Build

variable {failures : Document} {e : Encoding} {l l' : Ledger} {n : Network} {r : Request} {tag : String} {t : Topology}
  {x : Unit}

/-! ## §1. Constraints without variables of their own -/

namespace Slice

variable {s : Slice}

def stableConstraints (s : Slice) : Except Failure (List (Term .bool)) := do
  let perProtocol ← s.bestPerProtocolConstraints
  let choices ← s.choiceConstraints
  let overall ← s.bestOverallConstraints
  let control ← s.controlConstraints
  let space ← s.space.constraints s.packet
  return s.historyConstraints ++ (perProtocol ++ (choices ++ (overall ++ (control ++ (s.dataConstraints ++
    (s.records.flatMap resetConstraints ++ (s.inactiveConstraints ++ space)))))))

theorem requireConstraints_ok (h : s.requireConstraints.runOn l = (.ok x, l')) :
    ∃ l₁ l₂ cs, l.Extends l₁ [] (s.boundConstraints ++ s.communityConstraints) ∧
      s.transferConstraints.runOn l₁ = (.ok (), l₂) ∧ s.stableConstraints = .ok cs ∧ l₂.Extends l' [] cs := by
  obtain ⟨_, l₁, h₁, h⟩ := runOn_bind_ok.1 h
  obtain ⟨_, l₂, h₂, h⟩ := runOn_bind_ok.1 h
  obtain ⟨_, l₃, h₃, h⟩ := runOn_bind_ok.1 h
  obtain ⟨_, l₄, h₄, h⟩ := runOn_bind_ok.1 h
  obtain ⟨perProtocol, hper, h⟩ := runOn_lift_bind_ok.1 h
  obtain ⟨_, l₅, h₅, h⟩ := runOn_bind_ok.1 h
  obtain ⟨choices, hchoices, h⟩ := runOn_lift_bind_ok.1 h
  obtain ⟨_, l₆, h₆, h⟩ := runOn_bind_ok.1 h
  obtain ⟨overall, hoverall, h⟩ := runOn_lift_bind_ok.1 h
  obtain ⟨_, l₇, h₇, h⟩ := runOn_bind_ok.1 h
  obtain ⟨control, hcontrol, h⟩ := runOn_lift_bind_ok.1 h
  obtain ⟨_, l₈, h₈, h⟩ := runOn_bind_ok.1 h
  obtain ⟨_, l₉, h₉, h⟩ := runOn_bind_ok.1 h
  obtain ⟨_, l₁₀, h₁₀, h⟩ := runOn_bind_ok.1 h
  obtain ⟨_, l₁₁, h₁₁, h⟩ := runOn_bind_ok.1 h
  obtain ⟨space, hspace, h⟩ := runOn_lift_bind_ok.1 h
  refine ⟨l₂, l₃, _, (runOn_requireAll h₁).trans (runOn_requireAll h₂), h₃, ?_,
    (runOn_requireAll h₄).trans ((runOn_requireAll h₅).trans ((runOn_requireAll h₆).trans
      ((runOn_requireAll h₇).trans ((runOn_requireAll h₈).trans ((runOn_requireAll h₉).trans
        ((runOn_requireAll h₁₀).trans ((runOn_requireAll h₁₁).trans (runOn_requireAll h))))))))⟩
  rw [stableConstraints, hper, hchoices, hoverall, hcontrol, hspace]
  rfl

end Slice

/-! ## §2. Encodings -/

namespace Encoding

def failureVariables (t : Topology) (tag : String) : List Variable :=
  t.links.map fun e => ⟨Frame.failureName tag e, .int⟩

def failureBounds (t : Topology) (tag : String) : List (Term .bool) :=
  t.links.map fun e =>
    let x := Term.intVar (Frame.failureName tag e)
    .and [.ge x (.intLit 0), .le x (.intLit 1)]

theorem layFailures_extends (h : (layFailures t tag failures).runOn l = (.ok x, l')) :
    ∃ cs, failureConstraints failures (t.failureTerms tag) = .ok cs ∧
      l.Extends l' (failureVariables t tag) (failureBounds t tag ++ cs) := by
  obtain ⟨_, l₁, h₁, h⟩ := runOn_bind_ok.1 h
  obtain ⟨cs, hcs, h⟩ := runOn_lift_bind_ok.1 h
  refine ⟨cs, hcs, ?_⟩
  have e₁ := runOn_forM (V := fun e => [⟨Frame.failureName tag e, .int⟩])
    (C := fun e => [.and [.ge (.intVar (Frame.failureName tag e)) (.intLit 0),
      .le (.intVar (Frame.failureName tag e)) (.intLit 1)]]) (fun e _ l _ l' he => by
      obtain ⟨y, l₁, hy, he⟩ := runOn_bind_ok.1 he
      obtain ⟨rfl, e₁⟩ := runOn_newInt hy
      exact e₁.trans (runOn_require_ok he)) h₁
  have e := e₁.trans (runOn_requireAll h)
  rw [List.append_nil, ← List.map_eq_flatMap, ← List.map_eq_flatMap] at e
  exact e

/-- **The parts of an encoding.** -/
theorem ofTopology_ok (h : ofTopology t r = .ok e) :
    ∃ tag f failures rs l₁ l₂ cs, Frame.tagOf r.id = .ok tag ∧
      Frame.build tag r.switches t r.space r.failures = .ok f ∧
      failureConstraints r.failures (t.failureTerms tag) = .ok failures ∧
      f.LaysOut rs ∧ e.slice = f.slice rs ∧
      l₁.vars = failureVariables t tag ++ (Packet.declarations ⟨tag ++ "SLICE-MAIN_"⟩ ++ f.declarations) ∧
      l₁.required = failureBounds t tag ++ failures ++ (f.bounds ++ (e.slice.boundConstraints ++
        e.slice.communityConstraints)) ∧
      e.slice.transferConstraints.runOn l₁ = (.ok (), l₂) ∧ e.slice.stableConstraints = .ok cs ∧
      l₂.Extends e.ledger [] cs := by
  unfold ofTopology at h
  dsimp only at h
  split at h
  next slice ledger hrun =>
    cases h
    obtain ⟨tag, htag, hrun⟩ := runOn_lift_bind_ok.1 hrun
    obtain ⟨_, k₁, h₁, hrun⟩ := runOn_bind_ok.1 hrun
    obtain ⟨_, k₂, h₂, hrun⟩ := runOn_bind_ok.1 hrun
    obtain ⟨f, hf, hrun⟩ := runOn_lift_bind_ok.1 hrun
    obtain ⟨_, k₃, h₃, hrun⟩ := runOn_bind_ok.1 hrun
    obtain ⟨_, k₄, h₄, hrun⟩ := runOn_bind_ok.1 hrun
    obtain ⟨rfl, rfl⟩ := runOn_pure_ok.1 hrun
    obtain ⟨failures, hfailures, e₁⟩ := layFailures_extends h₁
    have e₂ := runOn_declareAll h₂
    obtain ⟨rs, hlays, rfl, e₃⟩ := Frame.lay_extends h₃
    obtain ⟨l₁, l₂, cs, e₄, htransfers, hcs, e₅⟩ := Slice.requireConstraints_ok h₄
    have e := e₁.trans (e₂.trans (e₃.trans e₄))
    refine ⟨tag, f, failures, rs, l₁, l₂, cs, htag, hf, hfailures, hlays, rfl, ?_, ?_,
      htransfers, hcs, e₅⟩
    · rw [e.vars, List.append_nil]
      rfl
    · rw [e.required]
      rfl
  next => cases h

/-- The topology that is encoded, with the costs that were derived. -/
def topologyOf (n : Network) (routers : Document) : Except Failure Topology := do
  let t ← Topology.build n routers
  match n.deriveCosts t.names with
  | (_, some f) => .error f
  | (n, none) => Topology.build n routers

theorem encode_result (n : Network) (r : Request) :
    (encode n r).result = (topologyOf n r.routers >>= fun t => ofTopology t r) := by
  unfold encode topologyOf
  cases Topology.build n r.routers with
  | error f => rfl
  | ok t =>
    rw [ok_bind]
    dsimp only
    rcases n.deriveCosts t.names with ⟨n', _ | f⟩
    · rfl
    · rfl

theorem topologyOf_ok {routers : Document} (h : topologyOf n routers = .ok t) :
    ∃ n', Topology.build n' routers = .ok t := by
  obtain ⟨t₀, -, h⟩ := bind_eq_ok.1 h
  split at h
  · cases h
  · exact ⟨_, h⟩

theorem encode_ok (h : (encode n r).result = .ok e) :
    ∃ n' t, Topology.build n' r.routers = .ok t ∧ ofTopology t r = .ok e := by
  rw [encode_result] at h
  obtain ⟨t, ht, h⟩ := bind_eq_ok.1 h
  obtain ⟨n', hn'⟩ := topologyOf_ok ht
  exact ⟨n', t, hn', h⟩

end Encoding

theorem Frame.build_ok {switches : Switches} {space : HeaderSpace} {f : Frame}
    (h : Frame.build tag switches t space failures = .ok f) :
    Plan.compute switches t space failures = .ok f.plan ∧ Community.ofRouters t.routers = .ok f.communities ∧
      Community.dependencies f.communities = .ok f.dependencies ∧ f.tag = tag ∧ f.topology = t ∧
      f.space = space := by
  obtain ⟨plan, hplan, h⟩ := bind_eq_ok.1 h
  obtain ⟨communities, hcommunities, h⟩ := bind_eq_ok.1 h
  obtain ⟨dependencies, hdependencies, h⟩ := bind_eq_ok.1 h
  cases h
  exact ⟨hplan, hcommunities, hdependencies, rfl, rfl, rfl⟩

end ControlPlane
