import ControlPlane.Proofs.Route.Preference

/-!
# Preference as a lexicographic order

The formula that compares two records is nested from the last criterion to the first one and leaves out operands that
decide nothing.  Its value is that of one lexicographic comparison (`Comparing.ranking`), whatever attributes the two
records lack.
-/
namespace ControlPlane.Comparing

open Term

variable {c : Comparing} {v : Valuation} {x y : Record}

/-! ## §1. Rankings -/

/-- How two numbers rank: the better one comes first.  A number that the best record lacks is not compared, one that
only the other record lacks has its default. -/
def numberOrder (lower : Bool) (best other : Option Int) (default : Int) : Ordering :=
  match best with
  | none => .eq
  | some m => if lower then compare m (other.getD default) else compare (other.getD default) m

def typeOrder (v : Valuation) (best other : Record) : Ordering :=
  match best.ospfType with
  | none => .eq
  | some _ => compare (best.under v).ospfRank (other.under v).ospfRank

/-- Routes that were learned over eBGP come first, where both records tell. -/
def internalOrder (v : Valuation) (best other : Record) : Ordering :=
  match best.bgpInternal, other.bgpInternal with
  | some b, some o => compare (b.eval v) (o.eval v)
  | _, _ => .eq

/-- The router ids that break ties: none where several routes are used at once or an id is not known. -/
def comparedIds (c : Comparing) (best other : Record) : Except Failure (Option (Term .int × Term .int)) :=
  match best.routerId with
  | none => .ok none
  | some b => do
    if ← c.multipath then return none
    else match other.routerId with
      | some o => return some (b, o)
      | none => match c.arrival with
        | none => return none
        | some a => match ← a.peerId with
          | some id => return some (b, .intLit (← id.integer))
          | none => return none

/-- The rankings by the single criteria, the first deciding. -/
def orders (c : Comparing) (v : Valuation) (best other : Record) : List Ordering :=
  (c.criteria.map fun k => numberOrder k.2.2 ((best.under v).number k.1) ((other.under v).number k.1) k.2.1) ++
    [typeOrder v best other, internalOrder v best other]

/-- The lexicographic ranking of two records: `lt` where the best one is strictly preferred. -/
def ranking (c : Comparing) (v : Valuation) (best other : Record) : Except Failure Ordering :=
  (c.comparedIds best other).map fun ids => (c.orders v best other).foldr Ordering.then
    (ids.elim .eq fun i => compare (i.1.eval v) (i.2.eval v))

/-! ## §2. Criteria -/

structure Step.Ranks (v : Valuation) (s : Step) (o : Ordering) : Prop where
  better : s.better.eval v ↔ o = .lt
  equal : s.equal.eval v ↔ o = .eq

theorem eval_decided {steps : List Step} {os : List Ordering} {tie : Term .bool} {last : Ordering}
    (h : List.Forall₂ (Step.Ranks v) steps os) (htie : tie.eval v = last.isLE) :
    (decided steps tie).eval v = (os.foldr Ordering.then last).isLE := by
  induction h with
  | nil => exact htie
  | @cons s o steps os hs _ ih =>
    rw [Bool.eq_iff_iff, eval_decided_cons, hs.better, hs.equal, ih, List.foldr_cons, Ordering.isLE_then_iff_or]

theorem Step.ranks_idle : Step.idle.Ranks v .eq := ⟨⟨nofun, nofun⟩, fun _ => rfl, fun _ => rfl⟩

theorem numberStep_ranks (best other : Option (Term .int)) (default : Int) (lower : Bool) :
    (numberStep best other default lower).Ranks v
      (numberOrder lower (best.map fun t => t.eval v) (other.map fun t => t.eval v) default) := by
  cases best with
  | none => exact Step.ranks_idle
  | some b =>
    have hother : (other.getD (.intLit default)).eval v = (other.map fun t => t.eval v).getD default := by
      cases other <;> rfl
    obtain ⟨hbetter, hequal⟩ := numberStep_compares (v := v) b other default lower
    rw [hother] at hbetter hequal
    cases lower with
    | true => exact ⟨hbetter.trans Int.compare_eq_lt.symm, hequal.trans Std.compare_eq_iff_eq.symm⟩
    | false => exact ⟨hbetter.trans Int.compare_eq_lt.symm, hequal.trans (eq_comm.trans Std.compare_eq_iff_eq.symm)⟩

theorem typeStep_ranks : (typeStep x y).Ranks v (typeOrder v x y) := by
  unfold typeStep typeOrder
  cases hx : x.ospfType with
  | none => exact Step.ranks_idle
  | some e =>
    have hrank : (x.under v).ospfRank = e.ospfBits.eval v := by
      show (Transfer.ospfBits x).eval v = _
      rw [Transfer.ospfBits, hx]
      rfl
    constructor
    · rw [hrank, Nat.compare_eq_lt]
      exact decide_eq_true_iff
    · rw [hrank, Nat.compare_eq_eq]
      exact eval_eq v _ _

theorem internalStep_ranks : (internalStep x y).Ranks v (internalOrder v x y) := by
  unfold internalStep internalOrder
  cases x.bgpInternal with
  | none => exact Step.ranks_idle
  | some b =>
    cases y.bgpInternal with
    | none => exact Step.ranks_idle
    | some o =>
      refine ⟨?_, (eval_eq v b o).trans Std.compare_eq_iff_eq.symm⟩
      rw [holds_and_two, holds_not]
      show _ ↔ compare (b.eval v) (o.eval v) = .lt
      cases b.eval v <;> cases o.eval v <;> decide

theorem steps_ranks : List.Forall₂ (Step.Ranks v) (c.steps x y) (c.orders v x y) := by
  show List.Forall₂ _ [_, _, _, _, _, _, _] [_, _, _, _, _, _, _]
  simp only [List.forall₂_cons, List.forall₂_nil_left_iff, and_true]
  exact ⟨numberStep_ranks .., numberStep_ranks .., numberStep_ranks .., numberStep_ranks .., numberStep_ranks ..,
    typeStep_ranks, internalStep_ranks⟩

/-! ## §3. Router ids -/

theorem compareIds_eq (relate : Term .int → Term .int → Term .bool) :
    c.compareIds x y relate = (c.comparedIds x y).map fun ids => ids.elim .yes fun i => relate i.1 i.2 := by
  unfold compareIds comparedIds
  cases x.routerId with
  | none => rfl
  | some b =>
    cases c.multipath with
    | error cause => rfl
    | ok multipath =>
      cases multipath with
      | true => rfl
      | false =>
        cases y.routerId with
        | some o => rfl
        | none =>
          cases c.arrival with
          | none => rfl
          | some a =>
            obtain ⟨area, peerId⟩ := a
            cases peerId with
            | error cause => rfl
            | ok id =>
              cases id with
              | none => rfl
              | some d =>
                show (d.integer >>= _) = Except.map _ (d.integer >>= _)
                cases d.integer <;> rfl

theorem isAtLeast_eq_ranking (c : Comparing) (v : Valuation) (x y : Record) :
    (c.isAtLeast x y).map (fun t => t.eval v) = (c.ranking v x y).map Ordering.isLE := by
  unfold isAtLeast ranking
  rw [compareIds_eq]
  cases c.comparedIds x y with
  | error cause => rfl
  | ok ids =>
    refine congrArg Except.ok (eval_decided steps_ranks ?_)
    cases ids with
    | none => rfl
    | some i => exact Bool.eq_iff_iff.2 ((holds_le v).trans Int.isLE_compare.symm)

/-! ## §4. The same route -/

theorem decided_of_equal {steps : List Step} {tie : Term .bool} (h : ∀ s ∈ steps, s.equal.eval v)
    (htie : tie.eval v) : (decided steps tie).eval v := by
  induction steps with
  | nil => exact htie
  | cons s rest ih =>
    rw [eval_decided_cons]
    exact .inr ⟨h s List.mem_cons_self, ih fun s hs => h s (List.mem_cons_of_mem _ hs)⟩

theorem equal_of_same (hx : x.HoldsType) (hy : y.HoldsType) (h : c.Same v x y) :
    ∀ s ∈ c.steps x y, s.equal.eval v := by
  have hnumber : ∀ {best other : Option (Term .int)} {default : Int} (lower : Bool),
      (sameNumber best other default).eval v → (numberStep best other default lower).equal.eval v := by
    intro best other default lower h
    cases best with
    | none => rfl
    | some b => exact h
  simp only [steps, List.forall_mem_cons]
  refine ⟨hnumber _ (h.number .prefixLength nofun), hnumber _ (h.number .adminDist nofun),
    hnumber _ (h.number .localPref nofun), hnumber _ (h.number .metric nofun), hnumber _ (h.number .med nofun),
    ?_, ?_, nofun⟩
  · rw [typeStep_ranks.equal, typeOrder]
    cases htype : x.ospfType with
    | none => rfl
    | some e => exact Std.compare_eq_iff_eq.2 ((holds_sameType hx hy).1 h.type (by rw [htype]; rfl))
  · have hinternal := h.internal
    unfold sameInternal at hinternal
    unfold internalStep
    cases hb : x.bgpInternal with
    | none => rfl
    | some b =>
      cases ho : y.bgpInternal with
      | none => rfl
      | some o =>
        rw [hb, ho] at hinternal
        exact hinternal

/-- **Preference is lexicographic.**  For all records, whatever they lack, the formula says that the best record is not
ranked behind the other one: by the longer prefix, the lower distance, the higher local preference, the lower metric,
the lower discriminator, the better OSPF type, how the route was learned, and last by router ids, unless ties are left
open.  Records of the same route are at least as good as each other. -/
theorem preference_isLexicographic (c : Comparing) (v : Valuation) (hx : x.HoldsType) (hy : y.HoldsType) :
    (c.isAtLeast x y).map (fun t => t.eval v) = (c.ranking v x y).map Ordering.isLE ∧
      ∀ withCommunities t, c.isSame x y withCommunities = .ok t → t.eval v →
        ∃ u, c.isAtLeast x y = .ok u ∧ u.eval v := by
  refine ⟨isAtLeast_eq_ranking c v x y, fun _ t ht hholds => ?_⟩
  have hsame := same_of_isSame ht hholds
  obtain ⟨tie, htie, heq⟩ := hsame.ids
  rw [compareIds_eq] at htie
  cases hids : c.comparedIds x y with
  | error cause =>
    rw [hids] at htie
    cases htie
  | ok ids =>
    rw [hids] at htie
    cases htie
    refine ⟨_, bind_eq_ok.2 ⟨_, by rw [compareIds_eq, hids]; rfl, rfl⟩, decided_of_equal (equal_of_same hx hy hsame) ?_⟩
    cases ids with
    | none => rfl
    | some i => exact (holds_le v).2 (Int.le_of_eq ((eval_eq v _ _).1 heq))

/-- Two routes of the same length; the first one was learned over eBGP, and the second one has no metric. -/
def learned (internal : Bool) : Record where
  name := "route"
  protocol := .bgp
  prefixLength := some (.intVar "length")
  metric := if internal then none else some (.intLit 0)
  bgpInternal := some (.boolLit internal)
  ospfType := some { name := "type", values := OspfType.all, bits := some (.bitsVar "type" 2) }

theorem external_preference_isLexicographic : ∃ (c : Comparing) (v : Valuation),
    (learned false).HoldsType ∧ (learned true).HoldsType ∧
      c.ranking v (learned false) (learned true) = .ok .lt ∧ c.ranking v (learned true) (learned false) = .ok .gt ∧
      (c.isAtLeast (learned false) (learned true)).map (fun t => t.eval v) = .ok true := by
  let c : Comparing := ⟨.bgp, .ok false, none⟩
  let v : Valuation := ⟨fun _ => false, fun _ => 24, fun _ => 2⟩
  have hholds : ∀ internal, (learned internal).HoldsType := by
    rintro internal e ⟨⟩
    rfl
  have hfirst : c.ranking v (learned false) (learned true) = .ok .lt := by decide
  obtain ⟨hrank, -⟩ := preference_isLexicographic c v (hholds false) (hholds true)
  exact ⟨c, v, hholds false, hholds true, hfirst, by decide, hrank.trans (by rw [hfirst]; rfl)⟩

end ControlPlane.Comparing
