import ControlPlane.Proofs.Topology.Samples
import ControlPlane.Proofs.Verification.Instruments
import Mathlib.Data.Nat.Find

/-!
# Reachability is measured exactly

A router reaches a target when the packet can be forwarded from it, hop by hop, until it is at the target.
The constraints of the instrument say this with a number per router: a router that reaches the target has a
next hop that reaches it with a smaller number, so following such hops ends, and it can only end at the
target.
-/
namespace ControlPlane

open List Term Instrument

variable {d : Destination} {i : Instrument} {kind : String} {x : Variable}

namespace Instrument

/-! ## §1. Forwarding paths -/

/-- Routers that the packet crosses, one after the other, until it is at the target for the first time. -/
inductive ForwardingPath (s : Slice) (v : Valuation) (target : Name) : List Name → Prop where
  | arrived : ForwardingPath s v target [target]
  | hop {r peer : Name} {e : Edge} {rest : List Name} (hr : r ≠ target) (he : e ∈ s.topology.edges r)
      (hpeer : e.peer? = some peer) (hforwards : (s.forwardsAcross e).eval v)
      (hrest : ForwardingPath s v target (peer :: rest)) : ForwardingPath s v target (r :: peer :: rest)

def Reaches (s : Slice) (v : Valuation) (target r : Name) : Prop :=
  ∃ rest, ForwardingPath s v target (r :: rest)

variable {s : Slice} {v : Valuation} {label : String} {target r : Name} {g : Term .bool}

theorem reaches_target : Reaches s v target target := ⟨[], .arrived⟩

theorem Reaches.hop {peer : Name} {e : Edge} (hr : r ≠ target) (he : e ∈ s.topology.edges r)
    (hpeer : e.peer? = some peer) (hforwards : (s.forwardsAcross e).eval v)
    (h : Reaches s v target peer) : Reaches s v target r := by
  obtain ⟨rest, hrest⟩ := h
  exact ⟨peer :: rest, .hop hr he hpeer hforwards hrest⟩

/-! ## §2. What the constraints of a router say -/

def goalAt (target : Name) (g : Term .bool) (r : Name) : Option (Term .bool) :=
  if r == target then some g else none

def isReaching (s : Slice) (v : Valuation) (label : String) (r : Name) : Bool :=
  v.bool (variableName s "reachable" label r)

def numberOf (s : Slice) (v : Valuation) (label : String) (r : Name) : Int :=
  v.int (variableName s "reachable-id" label r)

def Measures (s : Slice) (v : Valuation) (label : String) (target : Name) (g : Term .bool) : Prop :=
  ∀ r ∈ s.topology.names, ∀ c ∈ reachConstraints s label (goalAt target g) r, c.eval v

theorem holds_at_target : (∀ c ∈ reachConstraints s label (goalAt target g) target, c.eval v) ↔
    0 ≤ numberOf s v label target ∧ isReaching s v label target = g.eval v := by
  have hgoal : goalAt target g target = some g := if_pos (beq_self_eq_true target)
  rw [reachConstraints, hgoal, forall_mem_cons, forall_mem_singleton, holds_ge, eval_eq]
  rfl

def IsSupported (s : Slice) (v : Valuation) (label : String) (r : Name) : Prop :=
  ∃ e ∈ s.topology.edges r, ∃ peer, e.peer? = some peer ∧ (s.forwardsAcross e).eval v ∧
    isReaching s v label peer ∧ numberOf s v label peer < numberOf s v label r

theorem holds_elsewhere (hr : r ≠ target) :
    (∀ c ∈ reachConstraints s label (goalAt target g) r, c.eval v) ↔
      0 ≤ numberOf s v label r ∧ (isReaching s v label r → IsSupported s v label r) ∧
      ∀ e ∈ s.topology.edges r, ∀ peer, e.peer? = some peer → (s.forwardsAcross e).eval v →
        isReaching s v label peer → isReaching s v label r := by
  have hgoal : goalAt target g r = none := if_neg (by simpa using hr)
  rw [reachConstraints, hgoal, forall_mem_cons, forall_mem_cons, forall_mem_singleton, holds_ge,
    holds_implies, holds_implies, holds_anyOf, holds_anyOf]
  refine and_congr Iff.rfl (and_congr (imp_congr Iff.rfl ?_) ?_)
  · constructor
    · rintro ⟨t, ht, h⟩
      obtain ⟨x, hx, rfl⟩ := mem_map.1 ht
      obtain ⟨he, hpeer⟩ := mem_innerEdges.1 hx
      obtain ⟨hforwards, hreach, hless⟩ := (holds_and_three v).1 h
      exact ⟨x.1, he, x.2, hpeer, hforwards, hreach, (holds_gt v).1 hless⟩
    · rintro ⟨e, he, peer, hpeer, hforwards, hreach, hless⟩
      exact ⟨_, mem_map_of_mem (mem_innerEdges (x := (e, peer)).2 ⟨he, hpeer⟩),
        (holds_and_three v).2 ⟨hforwards, hreach, (holds_gt v).2 hless⟩⟩
  · constructor
    · intro h e he peer hpeer hforwards hreach
      exact h ⟨_, mem_map_of_mem (mem_innerEdges (x := (e, peer)).2 ⟨he, hpeer⟩),
        (holds_and_two v).2 ⟨hforwards, hreach⟩⟩
    · rintro h ⟨t, ht, hboth⟩
      obtain ⟨x, hx, rfl⟩ := mem_map.1 ht
      obtain ⟨he, hpeer⟩ := mem_innerEdges.1 hx
      obtain ⟨hforwards, hreach⟩ := (holds_and_two v).1 hboth
      exact h x.1 he x.2 hpeer hforwards hreach

theorem Measures.nonneg (h : Measures s v label target g) (hr : r ∈ s.topology.names) :
    0 ≤ numberOf s v label r :=
  holds_ge v |>.1 (h r hr _ mem_cons_self)

/-! ## §3. Measurements are exact -/

section

variable (hs : IsClosed s) (h : Measures s v label target g)
include hs h

/-- A router that is measured to reach the target does.  The induction is on its number, which falls along
the supporting hops and stays at least zero. -/
theorem reaches_of_isReaching (k : Nat) :
    ∀ r ∈ s.topology.names, numberOf s v label r < k → isReaching s v label r →
      Reaches s v target r ∧ g.eval v := by
  induction k with
  | zero =>
    intro r hr hlt _
    have := h.nonneg hr
    omega
  | succ k ih =>
    intro r hr hlt hreach
    by_cases htarget : r = target
    · subst htarget
      exact ⟨reaches_target, ((holds_at_target.1 (h r hr)).2).symm.trans hreach⟩
    · obtain ⟨-, hsupport, -⟩ := (holds_elsewhere htarget).1 (h r hr)
      obtain ⟨e, he, peer, hpeer, hforwards, hreach', hless⟩ := hsupport hreach
      obtain ⟨hpath, hg⟩ := ih peer (hs r e he peer hpeer) (by omega) hreach'
      exact ⟨hpath.hop htarget he hpeer hforwards, hg⟩

theorem isReaching_of_path (hg : g.eval v) {path : List Name} (hpath : ForwardingPath s v target path) :
    ∀ r, path.head? = some r → r ∈ s.topology.names → isReaching s v label r := by
  induction hpath with
  | arrived =>
    intro r hhead hr
    cases hhead
    exact (holds_at_target.1 (h target hr)).2.trans hg
  | @hop r peer e rest hne he hpeer hforwards _ ih =>
    intro r' hhead hr
    cases hhead
    obtain ⟨-, -, hclosure⟩ := (holds_elsewhere hne).1 (h r hr)
    exact hclosure e he peer hpeer hforwards (ih peer rfl (hs r e he peer hpeer))

/-- **A measurement tells which routers reach the target.** -/
theorem reachable_iff (hr : r ∈ s.topology.names) :
    (reachable s label r).eval v ↔ Reaches s v target r ∧ g.eval v := by
  constructor
  · exact reaches_of_isReaching hs h ((numberOf s v label r).toNat + 1) r hr (by omega)
  · rintro ⟨⟨rest, hpath⟩, hg⟩
    exact isReaching_of_path hs h hg hpath r rfl hr

end

/-! ## §4. Measurements exist -/

open Classical in
/-- How many hops the shortest path to the target has; zero without one. -/
noncomputable def distance (s : Slice) (v : Valuation) (target r : Name) : Nat :=
  if h : ∃ k rest, rest.length = k ∧ ForwardingPath s v target (r :: rest) then Nat.find h else 0

theorem distance_le {rest : List Name} (h : ForwardingPath s v target (r :: rest)) :
    distance s v target r ≤ rest.length := by
  classical
  have hex : ∃ k rest, rest.length = k ∧ ForwardingPath s v target (r :: rest) := ⟨_, rest, rfl, h⟩
  rw [distance, dif_pos hex]
  exact Nat.find_le ⟨rest, rfl, h⟩

theorem exists_shortest (h : Reaches s v target r) :
    ∃ rest, rest.length = distance s v target r ∧ ForwardingPath s v target (r :: rest) := by
  classical
  have hex : ∃ k rest, rest.length = k ∧ ForwardingPath s v target (r :: rest) := by
    obtain ⟨rest, hrest⟩ := h
    exact ⟨_, rest, rfl, hrest⟩
  rw [distance, dif_pos hex]
  exact Nat.find_spec hex

theorem Reaches.closer (h : Reaches s v target r) (hr : r ≠ target) :
    ∃ e ∈ s.topology.edges r, ∃ peer, e.peer? = some peer ∧ (s.forwardsAcross e).eval v ∧
      Reaches s v target peer ∧ distance s v target peer < distance s v target r := by
  obtain ⟨rest, hlength, hpath⟩ := exists_shortest h
  cases hpath with
  | arrived => exact absurd rfl hr
  | @hop _ peer e rest _ he hpeer hforwards hrest =>
    refine ⟨e, he, peer, hpeer, hforwards, ⟨rest, hrest⟩, ?_⟩
    have := distance_le hrest
    rw [← hlength, length_cons]
    omega

/-- Different routers are written differently. -/
def TellsApart (s : Slice) : Prop :=
  ∀ r ∈ s.topology.names, ∀ r' ∈ s.topology.names, r.shown = r'.shown → r = r'

theorem variableName_inj {r' : Name} (h : variableName s kind label r = variableName s kind label r') :
    r.shown = r'.shown := by
  have happend : ∀ n : Name, (variableName s kind label n).toList =
      (s.name ++ kind ++ "_" ++ label ++ "_").toList ++ n.shown.toList := fun _ => String.toList_append
  have h := congrArg String.toList h
  rw [happend, happend, append_cancel_left_eq] at h
  exact String.toList_inj.1 h

open Classical in
/-- A valuation with the results of a measurement: whether each router reaches the target, and how far it
is. -/
noncomputable def measured (s : Slice) (v : Valuation) (label : String) (target : Name) (g : Term .bool) :
    Valuation where
  bool x :=
    if h : ∃ r ∈ s.topology.names, variableName s "reachable" label r = x then
      decide (Reaches s v target h.choose ∧ g.eval v)
    else v.bool x
  int x :=
    if h : ∃ r ∈ s.topology.names, variableName s "reachable-id" label r = x then
      distance s v target h.choose
    else v.int x
  bits := v.bits

open Classical in
theorem dite_choose (hapart : TellsApart s) (hr : r ∈ s.topology.names) {α : Type} (f : Name → α) (a : α) :
    (if h : ∃ r' ∈ s.topology.names, variableName s kind label r' = variableName s kind label r then f h.choose
      else a) = f r := by
  have hex : ∃ r' ∈ s.topology.names, variableName s kind label r' = variableName s kind label r := ⟨r, hr, rfl⟩
  have hchoose : hex.choose = r := hapart _ hex.choose_spec.1 r hr (variableName_inj hex.choose_spec.2)
  rw [dif_pos hex, hchoose]

open Classical in
noncomputable def withNumbers (s : Slice) (v : Valuation) (kind label : String) (f : Name → Int) : Valuation :=
  { v with int := fun x =>
      if h : ∃ r ∈ s.topology.names, variableName s kind label r = x then f h.choose else v.int x }

/-- Only the variables of the routers change. -/
theorem withNumbers_agreesAt {f : Name → Int} (hx : x ∉ variablesOf s [(kind, .int)] label) :
    v.AgreesAt (withNumbers s v kind label f) x := by
  obtain ⟨name, sort⟩ := x
  cases sort with
  | bool => rfl
  | bits width => rfl
  | int =>
    show v.int name = dite _ _ _
    rw [dif_neg]
    rintro ⟨r, hr, rfl⟩
    exact hx (mem_variablesOf (k := (kind, .int)) mem_cons_self hr)

theorem forwardsAcross_withNumbers {f : Name → Int} (d : Edge) :
    (s.forwardsAcross d).eval (withNumbers s v kind label f) = (s.forwardsAcross d).eval v := by
  have hbool : (s.forwardsAcross d).Within fun x => x.sort = .bool :=
    within_forwardsAcross (within_boolVar.2 rfl) fun _ _ _ _ => rfl
  refine eval_of_mentioned _ fun x hx => ?_
  unfold Valuation.AgreesAt
  rw [hbool x hx]
  rfl

theorem isReaching_measured (hapart : TellsApart s) (hr : r ∈ s.topology.names) :
    isReaching s (measured s v label target g) label r ↔ Reaches s v target r ∧ g.eval v := by
  classical
  unfold isReaching measured
  dsimp only
  rw [dite_choose hapart hr (fun q => decide (Reaches s v target q ∧ g.eval v)), decide_eq_true_eq]

theorem numberOf_measured (hapart : TellsApart s) (hr : r ∈ s.topology.names) :
    numberOf s (measured s v label target g) label r = distance s v target r :=
  dite_choose hapart hr (fun q => (distance s v target q : Int)) _

/-- **Every valuation can be completed to a measurement**, if the measured variables do not occur in the terms
that are measured. -/
theorem exists_measurement (hs : IsClosed s) (hapart : TellsApart s)
    (hg : g.eval (measured s v label target g) = g.eval v)
    (hforwards : ∀ r, ∀ e ∈ s.topology.edges r,
      (s.forwardsAcross e).eval (measured s v label target g) = (s.forwardsAcross e).eval v) :
    Measures s (measured s v label target g) label target g := by
  intro r hr
  by_cases htarget : r = target
  · subst htarget
    rw [holds_at_target, numberOf_measured hapart hr, hg]
    refine ⟨Int.natCast_nonneg _, ?_⟩
    rw [Bool.eq_iff_iff, isReaching_measured hapart hr]
    exact ⟨And.right, fun h => ⟨reaches_target, h⟩⟩
  · rw [holds_elsewhere htarget, numberOf_measured hapart hr, isReaching_measured hapart hr]
    refine ⟨Int.natCast_nonneg _, ?_, ?_⟩
    · rintro ⟨hreaches, hgoal⟩
      obtain ⟨e, he, peer, hpeer, hf, hpath, hless⟩ := hreaches.closer htarget
      have hmem := hs r e he peer hpeer
      refine ⟨e, he, peer, hpeer, (hforwards r e he).trans hf, (isReaching_measured hapart hmem).2 ⟨hpath, hgoal⟩,
        ?_⟩
      rw [numberOf_measured hapart hmem, numberOf_measured hapart hr]
      exact Int.ofNat_lt.2 hless
    · intro e he peer hpeer hf hreach
      have hmem := hs r e he peer hpeer
      obtain ⟨hpath, hgoal⟩ := (isReaching_measured hapart hmem).1 hreach
      exact ⟨hpath.hop htarget he hpeer ((hforwards r e he).symm.trans hf), hgoal⟩

/-! ## §5. Instruments -/

/-- What reachability is measured to: the router, its name inside of variables, and what must hold there. -/
structure Destination where
  router : Name
  label : String
  goal : Term .bool

def destination? (s : Slice) : Instrument → Option Destination
  | reachability e => some ⟨e.router, edgeName e, s.dataForwarding e⟩
  | routerReachability target => some ⟨target, target.shown, .yes⟩
  | _ => none

theorem add_extends (hd : destination? s i = some d) (l : Ledger) :
    ∃ l', (add s [] i).runOn l = (.ok (), l') ∧ l.Extends l' (measuredVariables s d.label)
      (s.topology.names.flatMap (reachConstraints s d.label (goalAt d.router d.goal))) := by
  have hadd : add s [] i = addReachability s d.label (goalAt d.router d.goal) := by
    cases i with
    | reachability e =>
      cases hd
      rfl
    | routerReachability target =>
      cases hd
      rfl
    | pathLength e | load e | loop r => exact absurd hd (by simp [destination?])
  rw [hadd]
  exact declareEach_requireAll s _ d.label _ l

theorem tellsApart_of_texts (h : ∀ r ∈ s.topology.names, ∃ t, r = .text t) : TellsApart s := by
  intro r hr r' hr' hshown
  obtain ⟨t, rfl⟩ := h r hr
  obtain ⟨t', rfl⟩ := h r' hr'
  exact congrArg Name.text hshown

/-- A measurement changes nothing but its own variables. -/
theorem measured_agreesAt (hx : x ∉ measuredVariables s label) : v.AgreesAt (measured s v label target g) x := by
  have hkinds : ∀ r ∈ s.topology.names, (⟨variableName s "reachable" label r, .bool⟩ : Variable) ≠ x ∧
      (⟨variableName s "reachable-id" label r, .int⟩ : Variable) ≠ x := by
    intro r hr
    refine ⟨fun heq => hx (heq ▸ ?_), fun heq => hx (heq ▸ ?_)⟩ <;>
      exact mem_flatMap.2 ⟨r, hr, by simp⟩
  obtain ⟨name, sort⟩ := x
  cases sort with
  | bool =>
    show v.bool name = dite _ _ _
    rw [dif_neg]
    rintro ⟨r, hr, rfl⟩
    exact (hkinds r hr).1 rfl
  | int =>
    show v.int name = dite _ _ _
    rw [dif_neg]
    rintro ⟨r, hr, rfl⟩
    exact (hkinds r hr).2 rfl
  | bits width => rfl

theorem goal_measured (hd : destination? s i = some d) :
    d.goal.eval (measured s v d.label d.router d.goal) = d.goal.eval v := by
  cases i with
  | reachability e =>
    cases hd
    -- the names differ right after the name of the slice
    refine dif_neg ?_
    rintro ⟨r, -, hname⟩
    have hname := congrArg String.toList hname
    simp only [variableName, String.toList_append, append_assoc, append_cancel_left_eq] at hname
    cases hname
  | routerReachability target =>
    cases hd
    rfl
  | pathLength e | load e | loop r => exact absurd hd (by simp [destination?])

end Instrument

/-- **Reachability is measured exactly.**  Measuring reachability on an encoding succeeds.  In every valuation
that satisfies what was added, a router is reachable exactly when the packet can be forwarded from it to the
target, which meets its own condition.  Every valuation can be changed at the new variables, and only there,
so that it satisfies what was added, if these variables are new and routers are written differently. -/
theorem Encoding.reachability_isExact {n : Network} {req : Request} {e : Encoding} {i : Instrument}
    {d : Destination} (he : (Encoding.encode n req).result = .ok e)
    (hd : destination? e.slice i = some d) :
    ∃ l, (add e.slice [] i).runOn e.ledger = (.ok (), l) ∧
      (∀ v : Valuation, v.SatisfiesSince e.ledger l → ∀ r ∈ e.slice.topology.names,
        ((reachable e.slice d.label r).eval v ↔
          Reaches e.slice v d.router r ∧ d.goal.eval v)) ∧
      (TellsApart e.slice →
        (∀ x ∈ measuredVariables e.slice d.label, x.name ∉ e.ledger.vars.map Variable.name) →
        ∀ v : Valuation, ∃ w : Valuation, w.SatisfiesSince e.ledger l ∧
          ∀ x ∉ measuredVariables e.slice d.label, v.AgreesAt w x) := by
  obtain ⟨f, rs, hof⟩ := Encoding.encode_isOf he
  obtain ⟨n', hbuild⟩ := topologyOf_ok hof.topology
  have hclosed := isClosed_of_encode he
  obtain ⟨l, hrun, hext⟩ := add_extends hd e.ledger
  have hsince : ∀ v : Valuation, v.SatisfiesSince e.ledger l ↔
      Measures e.slice v d.label d.router d.goal := by
    intro v
    unfold Valuation.SatisfiesSince Measures
    rw [hext.since, List.forall_mem_flatMap]
  refine ⟨l, hrun, fun v hv r hr => reachable_iff hclosed ((hsince v).1 hv) hr, ?_⟩
  intro hapart hfresh v
  refine ⟨measured e.slice v d.label d.router d.goal, ?_, fun x hx => measured_agreesAt hx⟩
  refine (hsince _).2 (exists_measurement hclosed hapart (goal_measured hd) ?_)
  intro r ed hed
  have hover : (e.slice.forwardsAcross ed).Over f.layoutVariables := by
    rw [hof.slice] at hed ⊢
    exact (Frame.over_forwardsAcross hbuild hed).mono Frame.common_sub_layout
  refine (hover.eval_eq _ _ fun x hx => measured_agreesAt fun hmem => ?_).symm
  exact hfresh x hmem (List.mem_map_of_mem (hof.declares.subset hx))

namespace Encoding

/-- Two linked routers, one of which has a network of its own. -/
def pairNetwork : Network where
  routers := [
    { name := .text "A", interfaces := [.port "i" (.ofOctets 10 0 0 1 30)] },
    { name := .text "B", interfaces := [.port "i" (.ofOctets 10 0 0 2 30), .port "lan" (.ofOctets 10 0 1 1 24)] }]
  links := [.cable "A" "i" "B" "i"]

/-- The packet is forwarded over every edge. -/
def everywhere : Valuation where
  bool _ := true
  int _ := 0
  bits _ := 0

/-- Whether an encoding of `pairNetwork` has the edge to that network, and reachability of it can be measured. -/
def isMeasurable (e : Encoding) : Bool :=
  e.slice.topology.names == [.text "A", .text "B"] &&
    (e.slice.topology.edgeFrom? (.text "B") (.text "lan")).any fun lan =>
      lan.router == .text "B" && (measuredVariables e.slice (edgeName lan)).all fun x =>
        !(e.ledger.vars.map Variable.name).contains x.name

/-- The encoding of `pairNetwork` is one to measure. -/
theorem exists_measurable : ∃ e lan, (encode pairNetwork {}).result = .ok e ∧
    e.slice.topology.edgeFrom? (.text "B") (.text "lan") = some lan ∧ lan.router = .text "B" ∧
    (∀ x ∈ measuredVariables e.slice (edgeName lan), x.name ∉ e.ledger.vars.map Variable.name) ∧
    Name.text "A" ∈ e.slice.topology.names ∧ TellsApart e.slice ∧
    ∃ d ∈ e.slice.topology.edges (.text "A"), d.peer? = some (.text "B") ∧
      (e.slice.forwardsAcross d).eval everywhere := by
  have hpair : ∃ e, (encode pairNetwork {}).result = .ok e ∧ (isMeasurable e && (e.slice.topology.edges (.text "A")).any
      fun d => d.peer? == some (.text "B") && (e.slice.forwardsAcross d).eval everywhere) := by decide +kernel
  obtain ⟨e, he, hpair⟩ := hpair
  unfold isMeasurable at hpair
  simp only [Bool.and_eq_true, beq_iff_eq, any_eq_true, Option.any_eq_true, all_eq_true, Bool.not_eq_true',
    contains_eq_mem, decide_eq_false_iff_not] at hpair
  obtain ⟨⟨hnames, lan, hedge, hrouter, hfresh⟩, d, hd, hpeer, hforwards⟩ := hpair
  refine ⟨e, lan, he, hedge, hrouter, hfresh, by simp [hnames], ?_, d, hd, hpeer, hforwards⟩
  refine tellsApart_of_texts fun r hr => ?_
  rw [hnames] at hr
  rcases mem_cons.1 hr with rfl | hr
  · exact ⟨_, rfl⟩
  · exact ⟨_, mem_singleton.1 hr⟩

theorem pair_reachability_isExact : ∃ e lan l, (encode pairNetwork {}).result = .ok e ∧
    e.slice.topology.edgeFrom? (.text "B") (.text "lan") = some lan ∧
    (add e.slice [] (.reachability lan)).runOn e.ledger = (.ok (), l) ∧
    (∀ v : Valuation, v.SatisfiesSince e.ledger l →
      ((reachable e.slice (edgeName lan) (.text "A")).eval v ↔
        Reaches e.slice v (.text "B") (.text "A") ∧ (e.slice.dataForwarding lan).eval v)) ∧
    ∀ v : Valuation, ∃ w : Valuation, w.SatisfiesSince e.ledger l ∧
      ∀ x ∉ measuredVariables e.slice (edgeName lan), v.AgreesAt w x := by
  obtain ⟨e, lan, he, hedge, hrouter, hfresh, hname, hapart, -⟩ := exists_measurable
  obtain ⟨l, hrun, hexact, hexists⟩ := reachability_isExact he
    (i := .reachability lan) (d := ⟨lan.router, edgeName lan, e.slice.dataForwarding lan⟩) rfl
  rw [hrouter] at hexact
  exact ⟨e, lan, l, he, hedge, hrun, fun v hv => hexact v hv _ hname, hexists hapart hfresh⟩

end Encoding

end ControlPlane
