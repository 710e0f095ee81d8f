import ControlPlane.Proofs.Slice.Scope
import ControlPlane.Proofs.Verification.Reachability

/-!
# Path lengths are measured exactly

The length of a router counts the routers that its packet crosses to leave through an edge.  The constraints are
local: a router is one longer than some next hop that has a length, and has none when no next hop has one.  Lengths
fall along these hops, so a cycle cannot hold itself up, and the hops make up a path on which no router occurs twice.

Every such path can be measured.  Its routers get their places on it, and any other router the least length with
which it comes to a router of the path.

* `Instrument.exists_wayOut_of_length` and `Instrument.length_nonneg_of_path` read the variables of a measurement.
-/
namespace ControlPlane

open List Term Instrument

variable {target : Name} {k : Nat}

namespace Instrument

variable {s : Slice} {v : Valuation} {e : Edge} {r peer : Name} {path rest : List Name}

/-! ## §1. Ways out -/

/-- The packet is forwarded from a router to the next one. -/
def HopsTo (s : Slice) (v : Valuation) (r peer : Name) : Prop :=
  ∃ d ∈ s.topology.edges r, d.peer? = some peer ∧ (s.forwardsAcross d).eval v

/-- Different routers that the packet crosses, one after the other, before it leaves through an edge. -/
structure WayOut (s : Slice) (v : Valuation) (e : Edge) (path : List Name) : Prop where
  distinct : path.Nodup
  forwards : ForwardingPath s v e.router path
  leaves : (s.dataForwarding e).eval v

theorem HopsTo.mem_names (hs : IsClosed s) (h : HopsTo s v r peer) : peer ∈ s.topology.names := by
  obtain ⟨d, hd, hpeer, -⟩ := h
  exact hs r d hd peer hpeer

theorem HopsTo.extend (h : HopsTo s v r peer) (hr : r ≠ target) (hrest : ForwardingPath s v target (peer :: rest)) :
    ForwardingPath s v target (r :: peer :: rest) := by
  obtain ⟨d, hd, hpeer, hforwards⟩ := h
  exact .hop hr hd hpeer hforwards hrest

/-! ## §2. What the constraints of a router say -/

def lengthOf (s : Slice) (v : Valuation) (e : Edge) (r : Name) : Int :=
  v.int (variableName s "path-length" (edgeName e) r)

def MeasuresLengths (s : Slice) (v : Valuation) (e : Edge) : Prop :=
  ∀ r ∈ s.topology.names, ∀ c ∈ lengthConstraints s e r, c.eval v

theorem holds_length_at_exit : (∀ c ∈ lengthConstraints s e e.router, c.eval v) ↔
    lengthOf s v e e.router = if (s.dataForwarding e).eval v then 1 else -1 := by
  rw [lengthConstraints, if_pos (beq_self_eq_true e.router), forall_mem_cons, forall_mem_cons,
    forall_mem_singleton, holds_ge, holds_implies, holds_implies, holds_not]
  show -1 ≤ lengthOf s v e e.router ∧ (_ → decide (lengthOf s v e e.router = 1)) ∧
    (_ → decide (lengthOf s v e e.router = -1)) ↔ _
  cases (s.dataForwarding e).eval v <;> simp <;> omega

def IsCutOff (s : Slice) (v : Valuation) (e : Edge) (r : Name) : Prop :=
  ∀ peer, HopsTo s v r peer → lengthOf s v e peer < 0

/-- The length of a router is one more than that of a next hop. -/
def IsStep (s : Slice) (v : Valuation) (e : Edge) (r : Name) : Prop :=
  ∃ peer, HopsTo s v r peer ∧ 0 ≤ lengthOf s v e peer ∧ lengthOf s v e r = lengthOf s v e peer + 1

/-- A next hop has no length, or the packet does not go there. -/
theorem holds_blocked {t : Term .bool} :
    (Term.or [.lt (length s e peer) (.intLit 0), .not t]).eval v ↔ (t.eval v → lengthOf s v e peer < 0) := by
  rw [eval_or, any_cons, any_cons, any_nil, Bool.or_false, Bool.or_eq_true, holds_lt,
    holds_not]
  show lengthOf s v e peer < 0 ∨ _ ↔ _
  cases t.eval v <;> simp

theorem holds_cutOff : (Term.allOf ((innerEdges s r).map fun (d, peer) =>
    Term.or [.lt (length s e peer) (.intLit 0), .not (s.forwardsAcross d)])).eval v ↔ IsCutOff s v e r := by
  rw [holds_allOf, forall_mem_map]
  constructor
  · rintro h peer ⟨d, hd, hpeer, hforwards⟩
    exact holds_blocked.1 (h (d, peer) (mem_innerEdges.2 ⟨hd, hpeer⟩)) hforwards
  · rintro h ⟨d, peer⟩ hmem
    obtain ⟨hd, hpeer⟩ := mem_innerEdges.1 hmem
    exact holds_blocked.2 fun hforwards => h peer ⟨d, hd, hpeer, hforwards⟩

theorem holds_step : (Term.anyOf ((innerEdges s r).map fun (d, peer) =>
    Term.and [.ge (length s e peer) (.intLit 0), s.forwardsAcross d,
      .eq (length s e r) (.add (length s e peer) (.intLit 1))])).eval v ↔ IsStep s v e r := by
  have hadd : ∀ peer, (Term.eq (length s e r) (.add (length s e peer) (.intLit 1))).eval v ↔
      lengthOf s v e r = lengthOf s v e peer + 1 := by
    intro peer
    rw [eval_eq]
    rfl
  rw [holds_anyOf]
  constructor
  · rintro ⟨t, ht, h⟩
    obtain ⟨⟨d, peer⟩, hmem, rfl⟩ := mem_map.1 ht
    obtain ⟨hd, hpeer⟩ := mem_innerEdges.1 hmem
    obtain ⟨hnonneg, hforwards, hlength⟩ := (holds_and_three v).1 h
    exact ⟨peer, ⟨d, hd, hpeer, hforwards⟩, (holds_ge v).1 hnonneg, (hadd peer).1 hlength⟩
  · rintro ⟨peer, ⟨d, hd, hpeer, hforwards⟩, hnonneg, hlength⟩
    exact ⟨_, mem_map_of_mem (mem_innerEdges (x := (d, peer)).2 ⟨hd, hpeer⟩),
      (holds_and_three v).2 ⟨(holds_ge v).2 hnonneg, hforwards, (hadd peer).2 hlength⟩⟩

/-- Elsewhere the length is one more than that of a next hop, if one has a length, and there is none otherwise. -/
theorem holds_length_elsewhere (hr : r ≠ e.router) : (∀ c ∈ lengthConstraints s e r, c.eval v) ↔
    -1 ≤ lengthOf s v e r ∧ (IsCutOff s v e r → lengthOf s v e r = -1) ∧ (¬ IsCutOff s v e r → IsStep s v e r) := by
  have hne : (r == e.router) = false := beq_eq_false_iff_ne.2 hr
  have hnone : ((length s e r).is (-1)).eval v ↔ lengthOf s v e r = -1 := decide_eq_true_iff
  rw [lengthConstraints, hne, if_neg Bool.false_ne_true, forall_mem_cons, forall_mem_cons,
    forall_mem_singleton, holds_ge, holds_implies, holds_implies, holds_not, ← Bool.not_eq_true,
    holds_cutOff, holds_step, hnone]
  rfl

/-! ## §3. Measurements are exact -/

theorem MeasuresLengths.cases (h : MeasuresLengths s v e) (hr : r ∈ s.topology.names) :
    lengthOf s v e r = -1 ∨ (r = e.router ∧ lengthOf s v e r = 1 ∧ (s.dataForwarding e).eval v) ∨
      (r ≠ e.router ∧ IsStep s v e r) := by
  by_cases hexit : r = e.router
  · subst hexit
    have hlength := holds_length_at_exit.1 (h _ hr)
    split at hlength
    next hleaves => exact .inr (.inl ⟨rfl, hlength, hleaves⟩)
    next => exact .inl hlength
  · obtain ⟨-, hnone, hstep⟩ := (holds_length_elsewhere hexit).1 (h r hr)
    by_cases hcut : IsCutOff s v e r
    · exact .inl (hnone hcut)
    · exact .inr (.inr ⟨hexit, hstep hcut⟩)

/-- **A router that has a length has a way out of that length.**  The induction is on the length, which falls along
the hops, so that no router comes twice. -/
theorem exists_wayOut_of_length (hs : IsClosed s) (h : MeasuresLengths s v e) (k : Nat) :
    ∀ r ∈ s.topology.names, lengthOf s v e r = k → ∃ rest, WayOut s v e (r :: rest) ∧
      (r :: rest).length = k ∧ ∀ q ∈ rest, lengthOf s v e q < k := by
  induction k with
  | zero =>
    intro r hr hlength
    obtain hnone | ⟨-, hone, -⟩ | ⟨-, peer, -, hnonneg, hmore⟩ := h.cases hr <;> omega
  | succ k ih =>
    intro r hr hlength
    obtain hnone | ⟨rfl, hone, hleaves⟩ | ⟨hne, peer, hhop, -, hmore⟩ := h.cases hr
    · omega
    · exact ⟨[], ⟨nodup_singleton _, .arrived, hleaves⟩, by simp; omega, by simp⟩
    · have hpeer : lengthOf s v e peer = k := by omega
      obtain ⟨rest, hway, hcount, hless⟩ := ih peer (hhop.mem_names hs) hpeer
      have hless' : ∀ q ∈ peer :: rest, lengthOf s v e q < (k + 1 : Nat) := by
        intro q hq
        obtain rfl | hq := mem_cons.1 hq
        · omega
        · have := hless q hq
          omega
      have hfresh : r ∉ peer :: rest := fun hmem => by
        have := hless' r hmem
        omega
      exact ⟨peer :: rest, ⟨nodup_cons.2 ⟨hfresh, hway.distinct⟩, hhop.extend hne hway.forwards, hway.leaves⟩,
        by rw [length_cons, hcount], hless'⟩

theorem length_nonneg_of_path (hs : IsClosed s) (h : MeasuresLengths s v e) (hleaves : (s.dataForwarding e).eval v)
    (hpath : ForwardingPath s v e.router path) :
    ∀ r, path.head? = some r → r ∈ s.topology.names → 0 ≤ lengthOf s v e r := by
  induction hpath with
  | arrived =>
    intro r hhead hr
    cases hhead
    have hlength := holds_length_at_exit.1 (h _ hr)
    rw [if_pos hleaves] at hlength
    omega
  | @hop r peer d rest hne hd hpeer hforwards _ ih =>
    intro r' hhead hr
    cases hhead
    obtain ⟨-, -, hstep⟩ := (holds_length_elsewhere hne).1 (h r hr)
    have hhop : HopsTo s v r peer := ⟨d, hd, hpeer, hforwards⟩
    have hnonneg := ih peer rfl (hhop.mem_names hs)
    obtain ⟨q, -, hq, hmore⟩ := hstep fun hcut => absurd (hcut peer hhop) (by omega)
    omega

/-- **Lengths tell ways out**: a router has no length exactly when it has no way out, else the length of one. -/
theorem length_iff (hs : IsClosed s) (h : MeasuresLengths s v e) (hr : r ∈ s.topology.names) :
    (lengthOf s v e r = -1 ↔ ¬ ∃ rest, WayOut s v e (r :: rest)) ∧
      (lengthOf s v e r ≠ -1 → ∃ rest, WayOut s v e (r :: rest) ∧ lengthOf s v e r = (r :: rest).length) := by
  have hsome : lengthOf s v e r ≠ -1 → ∃ rest, WayOut s v e (r :: rest) ∧ lengthOf s v e r = (r :: rest).length := by
    intro hlength
    have hnonneg : 0 ≤ lengthOf s v e r := by
      obtain hnone | ⟨-, hone, -⟩ | ⟨-, peer, -, hnonneg, hmore⟩ := h.cases hr <;> omega
    obtain ⟨rest, hway, hcount, -⟩ := exists_wayOut_of_length hs h _ r hr (Int.toNat_of_nonneg hnonneg).symm
    exact ⟨rest, hway, by omega⟩
  refine ⟨⟨?_, fun hno => ?_⟩, hsome⟩
  · rintro hnone ⟨rest, hway⟩
    have := length_nonneg_of_path hs h hway.leaves hway.forwards r rfl hr
    omega
  · by_contra hlength
    obtain ⟨rest, hway, -⟩ := hsome hlength
    exact hno ⟨rest, hway⟩

/-! ## §4. Measurements exist -/

/-- Over routers that are not on a path, a router comes to one that is; `k` counts the routers up to the end of the
path. -/
inductive Joins (s : Slice) (v : Valuation) (path : List Name) : Name → Nat → Prop where
  | on {r : Name} {rest : List Name} (h : r :: rest <:+ path) : Joins s v path r (rest.length + 1)
  | hop {r peer : Name} {k : Nat} (hr : r ∉ path) (hhop : HopsTo s v r peer) (h : Joins s v path peer k) :
      Joins s v path r (k + 1)

open Classical in
/-- The least count with which a router comes to a path; below zero when it does not. -/
noncomputable def joiningLength (s : Slice) (v : Valuation) (path : List Name) (r : Name) : Int :=
  if h : ∃ k, Joins s v path r k then (Nat.find h : Int) else -1

theorem joiningLength_of_not (h : ¬ ∃ k, Joins s v path r k) : joiningLength s v path r = -1 := dif_neg h

theorem joiningLength_of_joins (h : Joins s v path r k) :
    ∃ j : Nat, joiningLength s v path r = j ∧ j ≤ k ∧ Joins s v path r j := by
  classical
  have hex : ∃ k, Joins s v path r k := ⟨k, h⟩
  exact ⟨Nat.find hex, dif_pos hex, Nat.find_le h, Nat.find_spec hex⟩

theorem neg_one_le_joiningLength (r : Name) : -1 ≤ joiningLength s v path r := by
  by_cases h : ∃ k, Joins s v path r k
  · obtain ⟨k, h⟩ := h
    obtain ⟨j, hj, -⟩ := joiningLength_of_joins h
    omega
  · exact Int.le_of_eq (joiningLength_of_not h).symm

theorem not_joins_nil (h : Joins s v [] r k) : False := by
  induction h with
  | on hsuffix => exact cons_ne_nil _ _ (suffix_nil.1 hsuffix)
  | hop _ _ _ ih => exact ih

theorem joiningLength_on (hpath : path.Nodup) (h : r :: rest <:+ path) :
    joiningLength s v path r = (r :: rest).length := by
  obtain ⟨j, hj, -, hjoins⟩ := joiningLength_of_joins (Joins.on (s := s) (v := v) h)
  rw [hj]
  cases hjoins with
  | hop hr => exact absurd (h.subset mem_cons_self) hr
  | @on _ rest' h' =>
    have hrest : rest' = rest := by
      have hnodup := (nodup_cons.1 (hpath.sublist h.sublist)).1
      have hnodup' := (nodup_cons.1 (hpath.sublist h'.sublist)).1
      rcases suffix_or_suffix_of_suffix h' h with hsuffix | hsuffix
      · rcases suffix_cons_iff.1 hsuffix with heq | hsuffix
        · exact (List.cons.inj heq).2
        · exact absurd (hsuffix.subset mem_cons_self) hnodup
      · rcases suffix_cons_iff.1 hsuffix with heq | hsuffix
        · exact (List.cons.inj heq).2.symm
        · exact absurd (hsuffix.subset mem_cons_self) hnodup'
    rw [hrest, length_cons]

theorem joiningLength_off (hr : r ∉ path) (hhop : HopsTo s v r peer) (h : Joins s v path peer k) :
    ∃ q, HopsTo s v r q ∧ 0 ≤ joiningLength s v path q ∧
      joiningLength s v path r = joiningLength s v path q + 1 := by
  obtain ⟨j, hj, -, hjoins⟩ := joiningLength_of_joins (.hop hr hhop h)
  cases hjoins with
  | on hsuffix => exact absurd (hsuffix.subset mem_cons_self) hr
  | @hop _ q m _ hq hm =>
    obtain ⟨i, hi, him, hjoins⟩ := joiningLength_of_joins hm
    -- neither end of the hop can do better
    obtain ⟨j', hj', hle, -⟩ := joiningLength_of_joins (.hop hr hq hjoins)
    exact ⟨q, hq, by omega, by omega⟩

theorem ForwardingPath.suffix (h : ForwardingPath s v target path) (hsuffix : r :: rest <:+ path) :
    ForwardingPath s v target (r :: rest) := by
  induction h with
  | arrived =>
    rcases suffix_cons_iff.1 hsuffix with heq | hnil
    · rw [heq]
      exact .arrived
    · exact absurd (suffix_nil.1 hnil) (cons_ne_nil _ _)
  | hop hne hd hpeer hforwards hrest ih =>
    rcases suffix_cons_iff.1 hsuffix with heq | hsuffix
    · rw [heq]
      exact .hop hne hd hpeer hforwards hrest
    · exact ih hsuffix

theorem ForwardingPath.target_suffix (h : ForwardingPath s v target path) : [target] <:+ path := by
  induction h with
  | arrived => exact suffix_refl _
  | hop _ _ _ _ _ ih => exact ih.trans (suffix_cons _ _)

/-- A path to measure along: a way out, or none where the packet does not leave. -/
def IsGuide (s : Slice) (v : Valuation) (e : Edge) (path : List Name) : Prop :=
  WayOut s v e path ∨ path = [] ∧ ¬ (e.router ∈ s.topology.names ∧ (s.dataForwarding e).eval v)

theorem exists_guide (s : Slice) (v : Valuation) (e : Edge) : ∃ path, IsGuide s v e path := by
  by_cases h : e.router ∈ s.topology.names ∧ (s.dataForwarding e).eval v
  · exact ⟨[e.router], .inl ⟨nodup_singleton _, .arrived, h.2⟩⟩
  · exact ⟨[], .inr ⟨rfl, h⟩⟩

theorem exists_hop_of_joins (hguide : IsGuide s v e path) (hr : r ≠ e.router) (h : Joins s v path r k) :
    ∃ q j, HopsTo s v r q ∧ Joins s v path q j := by
  cases h with
  | hop _ hhop hjoins => exact ⟨_, _, hhop, hjoins⟩
  | on hsuffix =>
    obtain hway | ⟨rfl, -⟩ := hguide
    · cases hway.forwards.suffix hsuffix with
      | arrived => exact absurd rfl hr
      | hop _ hd hpeer hforwards _ =>
        exact ⟨_, _, ⟨_, hd, hpeer, hforwards⟩, .on ((suffix_cons _ _).trans hsuffix)⟩
    · exact absurd (suffix_nil.1 hsuffix) (cons_ne_nil _ _)

/-- **The counts are lengths as they are needed.** -/
theorem joiningLength_step (hguide : IsGuide s v e path) (hr : r ≠ e.router) (hhop : HopsTo s v r peer)
    (h : 0 ≤ joiningLength s v path peer) : ∃ q, HopsTo s v r q ∧ 0 ≤ joiningLength s v path q ∧
      joiningLength s v path r = joiningLength s v path q + 1 := by
  have hjoins : ∃ k, Joins s v path peer k := by
    by_contra hnone
    rw [joiningLength_of_not hnone] at h
    omega
  obtain ⟨k, hjoins⟩ := hjoins
  by_cases hmem : r ∈ path
  · obtain hway | ⟨rfl, -⟩ := hguide
    · obtain ⟨front, rest, rfl⟩ := append_of_mem hmem
      have hsuffix : r :: rest <:+ front ++ r :: rest := suffix_append _ _
      cases hway.forwards.suffix hsuffix with
      | arrived => exact absurd rfl hr
      | @hop _ q d rest _ hd hq hforwards _ =>
        have hsuffix' := (suffix_cons r (q :: rest)).trans hsuffix
        have hon := joiningLength_on (s := s) (v := v) hway.distinct hsuffix
        have hon' := joiningLength_on (s := s) (v := v) hway.distinct hsuffix'
        rw [length_cons] at hon
        exact ⟨q, ⟨d, hd, hq, hforwards⟩, by omega, by omega⟩
    · cases hmem
  · exact joiningLength_off hmem hhop hjoins

variable {lengths : Name → Int}

/-- The valuation with other lengths. -/
noncomputable def withLengths (s : Slice) (v : Valuation) (e : Edge) (lengths : Name → Int) : Valuation :=
  withNumbers s v "path-length" (edgeName e) lengths

theorem lengthOf_withLengths (hapart : TellsApart s) (hr : r ∈ s.topology.names) :
    lengthOf s (withLengths s v e lengths) e r = lengths r :=
  dite_choose hapart hr lengths _

theorem hopsTo_withLengths : HopsTo s (withLengths s v e lengths) r peer ↔ HopsTo s v r peer := by
  unfold HopsTo withLengths
  simp only [forwardsAcross_withNumbers]

/-- **Every valuation can be completed to a measurement** along a path. -/
theorem exists_lengths (hs : IsClosed s) (hapart : TellsApart s) (hguide : IsGuide s v e path) :
    MeasuresLengths s (withLengths s v e (joiningLength s v path)) e := by
  intro r hr
  by_cases hexit : r = e.router
  · subst hexit
    rw [holds_length_at_exit, lengthOf_withLengths hapart hr]
    show joiningLength s v path e.router = if (s.dataForwarding e).eval v then 1 else -1
    obtain hway | ⟨rfl, hstays⟩ := hguide
    · rw [if_pos hway.leaves]
      exact joiningLength_on hway.distinct hway.forwards.target_suffix
    · rw [if_neg fun hleaves => hstays ⟨hr, hleaves⟩]
      exact joiningLength_of_not fun ⟨_, hjoins⟩ => not_joins_nil hjoins
  · have hpeer : ∀ {q}, HopsTo s v r q → lengthOf s (withLengths s v e (joiningLength s v path)) e q =
        joiningLength s v path q := fun hhop => lengthOf_withLengths hapart (hhop.mem_names hs)
    rw [holds_length_elsewhere hexit, lengthOf_withLengths hapart hr]
    refine ⟨neg_one_le_joiningLength r, fun hcut => joiningLength_of_not ?_, fun hcut => ?_⟩
    · rintro ⟨k, hjoins⟩
      obtain ⟨q, j, hhop, hq⟩ := exists_hop_of_joins hguide hexit hjoins
      obtain ⟨i, hi, -⟩ := joiningLength_of_joins hq
      have hless := hcut q (hopsTo_withLengths.2 hhop)
      rw [hpeer hhop] at hless
      omega
    · simp only [IsCutOff, not_forall, exists_prop, Int.not_lt] at hcut
      obtain ⟨q, hhop, hnonneg⟩ := hcut
      have hhop := hopsTo_withLengths.1 hhop
      rw [hpeer hhop] at hnonneg
      obtain ⟨q', hhop', hnonneg', hmore⟩ := joiningLength_step hguide hexit hhop hnonneg
      refine ⟨q', hopsTo_withLengths.2 hhop', ?_, ?_⟩
      · rw [hpeer hhop']
        exact hnonneg'
      · rw [lengthOf_withLengths hapart hr, hpeer hhop']
        exact hmore

/-! ## §5. The instrument -/

def lengthVariables (s : Slice) (e : Edge) : List Variable :=
  variablesOf s [("path-length", .int)] (edgeName e)

/-- A measurement changes nothing but its own variables. -/
theorem withLengths_agreesAt {x : Variable} (hx : x ∉ lengthVariables s e) :
    v.AgreesAt (withLengths s v e lengths) x :=
  withNumbers_agreesAt hx

theorem addLengths_extends (s : Slice) (known : List Name) (e : Edge) (l : Ledger) :
    ∃ l', (add s known (.pathLength e)).runOn l = (.ok (), l') ∧
      l.Extends l' (lengthVariables s e) (s.topology.names.flatMap (lengthConstraints s e)) :=
  declareEach_requireAll s _ _ _ l

end Instrument

/-- **Path lengths are measured exactly.**  Measuring path lengths on an encoding succeeds.  In every valuation that
satisfies what was added, a router has no length exactly when it has no way out through the edge, and otherwise the
number of routers on one.  Conversely the new variables of any valuation can be given values, all else staying as it is,
so that it satisfies what was added, and then a router can have the number of routers on any of its ways out as its
length; what was required before still holds, if the variables are new. -/
theorem Encoding.pathLength_isExact {n : Network} {req : Request} {e : Encoding} (out : Edge)
    (he : (Encoding.encode n req).result = .ok e) :
    ∃ l, (add e.slice [] (.pathLength out)).runOn e.ledger = (.ok (), l) ∧
      (∀ v : Valuation, v.SatisfiesSince e.ledger l → ∀ r ∈ e.slice.topology.names,
        ((length e.slice out r).eval v = -1 ↔ ¬ ∃ rest, WayOut e.slice v out (r :: rest)) ∧
        ((length e.slice out r).eval v ≠ -1 → ∃ rest, WayOut e.slice v out (r :: rest) ∧
          (length e.slice out r).eval v = (r :: rest).length)) ∧
      (TellsApart e.slice → ∀ v : Valuation,
        (∃ w : Valuation, w.SatisfiesSince e.ledger l ∧
          ∀ x ∉ lengthVariables e.slice out, v.AgreesAt w x) ∧
        ∀ (r : Name) (rest : List Name), r ∈ e.slice.topology.names → WayOut e.slice v out (r :: rest) →
          ∃ w : Valuation, w.SatisfiesSince e.ledger l ∧
            (length e.slice out r).eval w = (r :: rest).length ∧
            (∀ x ∉ lengthVariables e.slice out, v.AgreesAt w x) ∧
            ((∀ x ∈ lengthVariables e.slice out, x.name ∉ e.ledger.vars.map Variable.name) →
              v.Satisfies e.ledger → w.Satisfies l)) := by
  obtain ⟨_, t, -, ht⟩ := Encoding.encode_ok he
  have hclosed := isClosed_of_encode he
  obtain ⟨l, hrun, hext⟩ := addLengths_extends e.slice [] out e.ledger
  have hsince : ∀ v : Valuation, v.SatisfiesSince e.ledger l ↔ MeasuresLengths e.slice v out := by
    intro v
    unfold Valuation.SatisfiesSince MeasuresLengths
    rw [hext.since, List.forall_mem_flatMap]
  refine ⟨l, hrun, fun v hv r hr => length_iff hclosed ((hsince v).1 hv) hr, fun hapart v => ⟨?_, ?_⟩⟩
  · obtain ⟨path, hguide⟩ := exists_guide e.slice v out
    exact ⟨_, (hsince _).2 (exists_lengths hclosed hapart hguide),
      fun x hx => withLengths_agreesAt hx⟩
  · intro r rest hr hway
    have hmeasures := exists_lengths hclosed hapart (.inl hway)
    have hagrees : ∀ x ∉ lengthVariables e.slice out, v.AgreesAt (withLengths e.slice v out
        (joiningLength e.slice v (r :: rest))) x := fun x hx => withLengths_agreesAt hx
    refine ⟨_, (hsince _).2 hmeasures, ?_, hagrees, fun hfresh hv c hc => ?_⟩
    · show lengthOf e.slice _ out r = _
      rw [lengthOf_withLengths hapart hr]
      exact joiningLength_on hway.distinct (List.suffix_refl _)
    · rw [hext.required, List.mem_append] at hc
      obtain hc | hc := hc
      · -- what was required before is about other variables
        rw [← hv c hc]
        refine ((ofTopology_isClosed ht c hc).eval_eq _ _ fun x hx => hagrees x fun hmem => ?_).symm
        exact hfresh x hmem (List.mem_map_of_mem hx)
      · exact (hsince _).2 hmeasures c (hext.since ▸ hc)

theorem Encoding.pair_pathLength_isExact : ∃ e lan l, (encode pairNetwork {}).result = .ok e ∧
    e.slice.topology.edgeFrom? (.text "B") (.text "lan") = some lan ∧
    (add e.slice [] (.pathLength lan)).runOn e.ledger = (.ok (), l) ∧
    (∀ v : Valuation, v.SatisfiesSince e.ledger l →
      ((length e.slice lan (.text "A")).eval v = -1 ↔
        ¬ ∃ rest, WayOut e.slice v lan (.text "A" :: rest))) ∧
    WayOut e.slice everywhere lan [.text "A", .text "B"] ∧
    ∃ w : Valuation, w.SatisfiesSince e.ledger l ∧ (length e.slice lan (.text "A")).eval w = 2 ∧
      ∀ x ∉ lengthVariables e.slice lan, everywhere.AgreesAt w x := by
  obtain ⟨e, lan, he, hedge, hrouter, -, hname, hapart, d, hd, hpeer, hforwards⟩ := exists_measurable
  have hpath : ForwardingPath e.slice everywhere (.text "B") [.text "A", .text "B"] :=
    .hop (by decide) hd hpeer hforwards .arrived
  have hway : WayOut e.slice everywhere lan [.text "A", .text "B"] := ⟨by decide, hrouter ▸ hpath, rfl⟩
  obtain ⟨l, hrun, hexact, hexists⟩ := pathLength_isExact lan he
  obtain ⟨w, hw, hlength, hagrees, -⟩ := (hexists hapart everywhere).2 _ _ hname hway
  exact ⟨e, lan, l, he, hedge, hrun, fun v hv => (hexact v hv _ hname).1, hway, w, hw, hlength, hagrees⟩

end ControlPlane
