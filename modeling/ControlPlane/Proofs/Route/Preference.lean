import ControlPlane.Proofs.Route.Denotation
import ControlPlane.Route.Preference

/-!
# Preference through records of different shapes

The overall best route is compared with the best route of a protocol, and that one with every route that was
received.  The three records need not model the same attributes.  Preference is still transitive when each
of them models whatever the next one does (`Record.Covers`), with one exception: where the received record
alone does not tell how the route was learned, a route that was preferred for that reason may lose by its
router id.
-/
namespace ControlPlane

open Term Option

variable {default : Int} {v : Valuation} {x y z : Record} {t tieA tieB tieC : Term .bool}

/-! ## §1. Criteria in a row -/

namespace Comparing

/-- The criterion `c` decides as `a` and `b` do one after the other. -/
structure Step.Chains (v : Valuation) (a b c : Step) : Prop where
  better : a.better.eval v → b.better.eval v ∨ b.equal.eval v → c.better.eval v
  equal_better : a.equal.eval v → b.better.eval v → c.better.eval v
  equal : a.equal.eval v → b.equal.eval v → c.equal.eval v

structure Step.Compares {α : Type} (v : Valuation) (r : α → α → Prop) (s : Step) (x y : α) : Prop where
  better : s.better.eval v ↔ r x y
  equal : s.equal.eval v ↔ x = y

def Step.idle : Step := ⟨.no, .yes⟩

namespace Step

variable {a b c : Step}

theorem Chains.of_compares {α : Type} {r : α → α → Prop} (htrans : ∀ x y z, r x y → r y z → r x z)
    {x y z : α} (ha : a.Compares v r x y) (hb : b.Compares v r y z) (hc : c.Compares v r x z) :
    Chains v a b c := by
  constructor
  · rw [ha.better, hb.better, hb.equal, hc.better]
    rintro hxy (hyz | rfl)
    · exact htrans x y z hxy hyz
    · exact hxy
  · rw [ha.equal, hb.better, hc.better]
    rintro rfl hyz
    exact hyz
  · rw [ha.equal, hb.equal, hc.equal]
    exact Eq.trans

theorem not_better_idle : ¬ Step.idle.better.eval v := Bool.false_ne_true

theorem Chains.idle_right : Chains v a .idle a :=
  ⟨fun h _ => h, fun _ h => absurd h not_better_idle, fun h _ => h⟩

end Step

/-- The first of some criteria that does not tie decides, and then `tie`. -/
def decided (steps : List Step) (tie : Term .bool) : Term .bool :=
  steps.foldr (fun s acc => .anyOf [s.better, .allOf [s.equal, acc]]) tie

theorem eval_decided_cons (s : Step) (rest : List Step) (tie : Term .bool) :
    (decided (s :: rest) tie).eval v ↔
      s.better.eval v ∨ s.equal.eval v ∧ (decided rest tie).eval v := by
  show (Term.anyOf [s.better, .allOf [s.equal, decided rest tie]]).eval v ↔ _
  simp

theorem decided_trans {α : Type} {l : List α} {a b c : α → Step} (h : ∀ k ∈ l, Step.Chains v (a k) (b k) (c k))
    (htie : tieA.eval v → tieB.eval v → tieC.eval v) (ha : (decided (l.map a) tieA).eval v)
    (hb : (decided (l.map b) tieB).eval v) : (decided (l.map c) tieC).eval v := by
  induction l with
  | nil => exact htie ha hb
  | cons k rest ih =>
    have hk := h k List.mem_cons_self
    rw [List.map_cons, eval_decided_cons] at ha hb ⊢
    rcases ha with ha | ⟨ha, harest⟩
    · exact .inl (hk.better ha (hb.imp_right And.left))
    · rcases hb with hb | ⟨hb, hbrest⟩
      · exact .inl (hk.equal_better ha hb)
      · exact .inr ⟨hk.equal ha hb, ih (fun k hk => h k (List.mem_cons_of_mem _ hk)) harest hbrest⟩

theorem decided_one_trans {a b c : Step} (h : Step.Chains v a b c)
    (htie : tieA.eval v → tieB.eval v → tieC.eval v) (ha : (decided [a] tieA).eval v)
    (hb : (decided [b] tieB).eval v) :
    (decided [c] tieC).eval v :=
  decided_trans (l := [()]) (a := fun _ => a) (b := fun _ => b) (c := fun _ => c) (fun _ _ => h) htie ha hb

theorem decided_mono {steps : List Step} {tie tie' : Term .bool}
    (htie : tie.eval v → tie'.eval v) (h : (decided steps tie).eval v) :
    (decided steps tie').eval v := by
  induction steps with
  | nil => exact htie h
  | cons s rest ih =>
    rw [eval_decided_cons] at h ⊢
    exact h.imp_right (And.imp_right ih)

/-- The order in which numbers are better. -/
def before (lower : Bool) (x y : Int) : Prop := if lower then x < y else y < x

theorem before_trans (lower : Bool) (x y z : Int) (hxy : before lower x y) (hyz : before lower y z) :
    before lower x z := by
  cases lower with
  | true => exact Int.lt_trans (show x < y from hxy) hyz
  | false => exact Int.lt_trans (show z < y from hyz) hxy

theorem numberStep_compares (x : Term .int) (other : Option (Term .int)) (default : Int) (lower : Bool) :
    (numberStep (some x) other default lower).Compares v (before lower) (x.eval v)
      ((other.getD (.intLit default)).eval v) := by
  refine ⟨?_, eval_eq v _ _⟩
  cases lower with
  | true => exact decide_eq_true_iff
  | false => exact decide_eq_true_iff

theorem numberStep_chains {a b c : Option (Term .int)} {lower : Bool} (hab : a = none → b = none)
    (hbc : b = none → c = none) :
    Step.Chains v (numberStep a b default lower) (numberStep b c default lower)
      (numberStep a c default lower) := by
  cases a with
  | none =>
    obtain rfl := hab rfl
    exact Step.Chains.idle_right
  | some x =>
    cases b with
    | none =>
      obtain rfl := hbc rfl
      exact Step.Chains.idle_right
    | some y =>
      exact .of_compares (before_trans lower) (numberStep_compares x _ _ _) (numberStep_compares y _ _ _)
        (numberStep_compares x _ _ _)

theorem typeStep_chains (hxy : x.ospfType = none → y.ospfType = none) (hyz : y.ospfType = none → z.ospfType = none) :
    Step.Chains v (typeStep x y) (typeStep y z) (typeStep x z) := by
  unfold typeStep
  cases hx : x.ospfType with
  | none =>
    rw [hxy hx]
    exact Step.Chains.idle_right
  | some e =>
    cases hy : y.ospfType with
    | none =>
      rw [hyz hy]
      exact Step.Chains.idle_right
    | some f =>
      exact .of_compares (r := fun m n : Nat => m < n) (fun _ _ _ => Nat.lt_trans)
        ⟨decide_eq_true_iff, eval_eq v _ _⟩ ⟨decide_eq_true_iff, eval_eq v _ _⟩
        ⟨decide_eq_true_iff, eval_eq v _ _⟩

theorem internalStep_idle (hz : z.bgpInternal = none) : internalStep x z = .idle := by
  unfold internalStep
  rw [hz]
  cases x.bgpInternal <;> rfl

/-- How routes were learned decides transitively, unless the last record alone does not tell. -/
theorem internalStep_chains (hxy : x.bgpInternal = none → y.bgpInternal = none)
    (hyz : y.bgpInternal = none → x.bgpInternal = none ∨ z.bgpInternal = none)
    (hz : z.bgpInternal = none → x.bgpInternal = none ∨ y.bgpInternal = none) :
    Step.Chains v (internalStep x y) (internalStep y z) (internalStep x z) := by
  unfold internalStep
  cases hx : x.bgpInternal with
  | none =>
    rw [hxy hx]
    exact Step.Chains.idle_right
  | some b =>
    cases hy : y.bgpInternal with
    | none =>
      have hz : z.bgpInternal = none := (hyz hy).resolve_left (by simp [hx])
      rw [hz]
      exact Step.Chains.idle_right
    | some c =>
      cases hz' : z.bgpInternal with
      | none => simpa [hx, hy] using hz hz'
      | some d =>
        refine .of_compares (r := fun m n : Bool => m = false ∧ n) ?_
          ⟨?_, eval_eq v _ _⟩ ⟨?_, eval_eq v _ _⟩ ⟨?_, eval_eq v _ _⟩
        · intro m n k hmn hnk
          exact ⟨hmn.1, hnk.2⟩
        · simp
        · simp
        · simp

end Comparing

/-! ## §2. Preference -/

/-- A record models every compared attribute that another one does. -/
structure Record.Covers (x y : Record) : Prop where
  number : ∀ a, a ≠ .routerId → x.int? a = none → y.int? a = none
  ospfType : x.ospfType = none → y.ospfType = none

theorem Record.Covers.trans (hxy : x.Covers y) (hyz : y.Covers z) : x.Covers z where
  number a ha h := hyz.number a ha (hxy.number a ha h)
  ospfType h := hyz.ospfType (hxy.ospfType h)

namespace Comparing

variable {c : Comparing} {s : Term .bool}

def inside (c : Comparing) : Comparing := { c with arrival := none }

/-- The comparison that leaves ties open. -/
def lenient (c : Comparing) : Comparing := { c with multipath := .ok true }

def criteria (c : Comparing) : List (IntAttribute × Int × Bool) :=
  [(.prefixLength, 0, false), (.adminDist, c.protocol.defaultDistance, true), (.localPref, 0, false),
   (.metric, 0, true), (.med, c.protocol.defaultMed, true)]

def numberSteps (c : Comparing) (best other : Record) : List Step :=
  c.criteria.map fun k => numberStep (best.int? k.1) (other.int? k.1) k.2.1 k.2.2

theorem isAtLeast_eq_ok :
    c.isAtLeast x y = .ok t ↔ ∃ tie, c.compareIds x y .le = .ok tie ∧
      t = decided (c.numberSteps x y) (decided [typeStep x y] (decided [internalStep x y] tie)) := by
  unfold isAtLeast
  rw [bind_eq_ok]
  exact exists_congr fun tie => and_congr_right fun _ => pure_eq_ok.trans eq_comm

theorem numberSteps_trans (hxy : x.Covers y) (hyz : y.Covers z)
    (htie : tieA.eval v → tieB.eval v → tieC.eval v)
    (ha : (decided (c.numberSteps x y) tieA).eval v) (hb : (decided (c.numberSteps y z) tieB).eval v) :
    (decided (c.numberSteps x z) tieC).eval v := by
  refine decided_trans ?_ htie ha hb
  intro k hk
  have hid : k.1 ≠ .routerId := by
    have hmem : k.1 ∈ [IntAttribute.prefixLength, .adminDist, .localPref, .metric, .med] := List.mem_map_of_mem hk
    intro h
    rw [h] at hmem
    exact absurd hmem (by decide)
  exact numberStep_chains (hxy.number k.1 hid) (hyz.number k.1 hid)

/-! ## §3. Router ids -/

theorem compareIds_open (h : c.multipath = .ok true) (x y : Record)
    (relate : Term .int → Term .int → Term .bool) : c.compareIds x y relate = .ok .yes := by
  unfold compareIds
  cases x.routerId with
  | none => rfl
  | some b =>
    rw [h]
    rfl

theorem compareIds_trans {relate : Term .int → Term .int → Term .bool}
    (hrelate : ∀ i j k, (relate i j).eval v → (relate j k).eval v → (relate i k).eval v)
    (hids : x.routerId ≠ none → c.multipath = .ok false → y.routerId ≠ none)
    (hs : c.inside.compareIds x y relate = .ok s) (ht : c.compareIds y z relate = .ok t) :
    ∃ u, c.compareIds x z relate = .ok u ∧ (s.eval v → t.eval v → u.eval v) := by
  unfold compareIds at hs ht ⊢
  cases hx : x.routerId with
  | none => exact ⟨.yes, rfl, fun _ _ => rfl⟩
  | some i =>
    rw [hx] at hs
    obtain ⟨m, hm, hs⟩ := bind_eq_ok.1 hs
    have hm : c.multipath = .ok m := hm
    cases m with
    | true => exact ⟨.yes, by rw [hm]; rfl, fun _ _ => rfl⟩
    | false =>
      obtain ⟨j, hj⟩ := ne_none_iff_exists'.1 (hids (by simp [hx]) hm)
      rw [hj] at hs ht
      obtain rfl : relate i j = s := pure_eq_ok.1 hs
      rw [hm] at ht ⊢
      simp only [ok_bind, Bool.false_eq_true, if_false] at ht ⊢
      cases hz : z.routerId with
      | some k =>
        rw [hz] at ht
        cases ht
        exact ⟨_, rfl, hrelate i j k⟩
      | none =>
        rw [hz] at ht
        cases ha : c.arrival with
        | none => exact ⟨_, rfl, fun _ _ => rfl⟩
        | some a =>
          rw [ha] at ht
          obtain ⟨id, hid, ht⟩ := bind_eq_ok.1 ht
          dsimp only
          rw [hid]
          cases id with
          | none => exact ⟨_, rfl, fun _ _ => rfl⟩
          | some d =>
            obtain ⟨n, hn, ht⟩ := bind_eq_ok.1 ht
            cases ht
            exact ⟨_, bind_eq_ok.2 ⟨_, rfl, bind_eq_ok.2 ⟨n, hn, rfl⟩⟩, hrelate i j _⟩

/-! ## §4. Through a record in the middle -/

/-- **Preference is transitive through a record that models no less than the last one and no more than the
first one.** -/
theorem isAtLeast_trans (hxy : x.Covers y) (hyz : y.Covers z)
    (hids : x.routerId ≠ none → c.multipath = .ok false → y.routerId ≠ none)
    (hinternal : x.bgpInternal = none → y.bgpInternal = none)
    (hmiddle : y.bgpInternal = none → x.bgpInternal = none ∨ z.bgpInternal = none)
    (hlast : c.multipath = .ok true ∨ (z.bgpInternal = none → x.bgpInternal = none ∨ y.bgpInternal = none))
    (hs : c.inside.isAtLeast x y = .ok s) (ht : c.isAtLeast y z = .ok t) :
    ∃ u, c.isAtLeast x z = .ok u ∧ (s.eval v → t.eval v → u.eval v) := by
  obtain ⟨tieA, hA, rfl⟩ := isAtLeast_eq_ok.1 hs
  obtain ⟨tieB, hB, rfl⟩ := isAtLeast_eq_ok.1 ht
  have hle : ∀ i j k : Term .int, (i.le j).eval v → (j.le k).eval v → (i.le k).eval v := by
    intro i j k hij hjk
    rw [holds_le] at hij hjk ⊢
    exact Int.le_trans hij hjk
  obtain ⟨tieC, hC, htie⟩ := compareIds_trans hle hids hA hB
  refine ⟨_, isAtLeast_eq_ok.2 ⟨tieC, hC, rfl⟩, numberSteps_trans hxy hyz ?_⟩
  refine decided_one_trans (typeStep_chains hxy.ospfType hyz.ospfType) ?_
  by_cases hlost : z.bgpInternal = none ∧ x.bgpInternal ≠ none ∧ y.bgpInternal ≠ none
  · -- the last record alone does not tell; then ties are left open
    have hopen : c.multipath = .ok true := hlast.resolve_right fun h => by
      rcases h hlost.1 with h | h
      · exact hlost.2.1 h
      · exact hlost.2.2 h
    obtain rfl : Term.yes = tieC := Except.ok.inj ((compareIds_open hopen x z _).symm.trans hC)
    intro _ _
    rw [internalStep_idle hlost.1, eval_decided_cons]
    exact .inr ⟨rfl, rfl⟩
  · refine decided_one_trans (internalStep_chains hinternal hmiddle ?_) htie
    intro hz
    by_contra h
    rw [not_or] at h
    exact hlost ⟨hz, h⟩

/-- Leaving ties open keeps a preference. -/
theorem isAtLeast_lenient (h : c.isAtLeast x y = .ok t) (ht : t.eval v) :
    ∃ u, c.lenient.isAtLeast x y = .ok u ∧ u.eval v := by
  obtain ⟨tie, -, rfl⟩ := isAtLeast_eq_ok.1 h
  refine ⟨_, isAtLeast_eq_ok.2 ⟨.yes, compareIds_open rfl x y _, rfl⟩, ?_⟩
  refine decided_mono (decided_mono (decided_mono ?_)) ht
  exact fun _ => rfl

end Comparing

/-! ## §5. The same route -/

def Protocol.defaultNumber (p : Protocol) : IntAttribute → Int
  | .adminDist => p.defaultDistance
  | .med => p.defaultMed
  | _ => 0

/-- Two routes agree on everything that is compared but router ids; what the second one does not tell takes
the default of a protocol. -/
structure Route.Agrees (p : Protocol) (x y : Route) : Prop where
  number : ∀ a n, a ≠ .routerId → x.number a = some n → n = (y.number a).getD (p.defaultNumber a)
  ospfRank : x.ospfRank = y.ospfRank

theorem Route.Agrees.trans {p : Protocol} {x y z : Route} (hxy : x.Agrees p y) (hyz : y.Agrees p z)
    (hcovers : ∀ a, a ≠ .routerId → y.number a = none → z.number a = none) : x.Agrees p z := by
  refine ⟨?_, hxy.ospfRank.trans hyz.ospfRank⟩
  intro a n ha hn
  have hy := hxy.number a n ha hn
  cases h : y.number a with
  | none => rw [hy, h, hcovers a ha h]
  | some m =>
    rw [h] at hy
    exact hy.trans (hyz.number a m ha h)

def Record.HoldsType (x : Record) : Prop := ∀ e, x.ospfType = some e → e.bits.isSome

theorem Transfer.ospfRank_eq {e : Enumeration OspfType} (h : x.HoldsType) (he : x.ospfType = some e) :
    ∃ b, e.bits = some b ∧ (x.under v).ospfRank = b.eval v := by
  obtain ⟨b, hb⟩ := isSome_iff_exists.1 (h e he)
  refine ⟨b, hb, ?_⟩
  show (Transfer.ospfBits x).eval v = b.eval v
  simp [Transfer.ospfBits, he, Enumeration.ospfBits, hb]

/-- What holds of all attributes holds of each. -/
theorem IntAttribute.forall_iff {P : IntAttribute → Prop} : (∀ a, P a) ↔
    P .prefixLength ∧ P .adminDist ∧ P .localPref ∧ P .metric ∧ P .med ∧ P .routerId := by
  refine ⟨fun h => ⟨h _, h _, h _, h _, h _, h _⟩, fun ⟨hlength, hdistance, hlocal, hmetric, hmed, hid⟩ a => ?_⟩
  cases a <;> assumption

namespace Comparing

variable {c : Comparing} {withCommunities : Bool}

theorem eval_sameNumber {b : Term .int} {other : Option (Term .int)}
    (h : (sameNumber (some b) other default).eval v) :
    b.eval v = (other.map fun t => t.eval v).getD default := by
  have h : b.eval v = (other.getD (.intLit default)).eval v := (eval_eq v _ _).1 h
  rw [h]
  cases other <;> rfl

theorem holds_sameType (hx : x.HoldsType) (hy : y.HoldsType) :
    (sameType x y).eval v ↔
      (x.ospfType.isSome → (x.under v).ospfRank = (y.under v).ospfRank) := by
  unfold sameType
  cases hex : x.ospfType with
  | none => exact ⟨nofun, fun _ => rfl⟩
  | some e =>
    obtain ⟨b, hb, hrank⟩ := Transfer.ospfRank_eq (v := v) hx hex
    rw [hrank]
    cases hey : y.ospfType with
    | none =>
      have hyrank : (y.under v).ospfRank = 0 := by
        show (Transfer.ospfBits y).eval v = 0
        simp [Transfer.ospfBits, hey, OspfType.rank]
      show e.isDefault.eval v ↔ _
      rw [hyrank, Enumeration.isDefault, hb, eval_eq]
      exact ⟨fun h _ => h, fun h => h rfl⟩
    | some f =>
      obtain ⟨c, hc, hrank'⟩ := Transfer.ospfRank_eq (v := v) hy hey
      show (e.equal f).eval v ↔ _
      rw [hrank', Enumeration.equal, hb, hc, eval_eq]
      exact ⟨fun h _ => h, fun h => h rfl⟩

theorem eval_sameType (hx : x.HoldsType) (hy : y.HoldsType) (hxy : x.ospfType = none → y.ospfType = none)
    (h : (sameType x y).eval v) : (x.under v).ospfRank = (y.under v).ospfRank := by
  cases hex : x.ospfType with
  | none =>
    show (Transfer.ospfBits x).eval v = (Transfer.ospfBits y).eval v
    rw [Transfer.ospfBits, Transfer.ospfBits, hex, hxy hex]
  | some e => exact (holds_sameType hx hy).1 h (by rw [hex]; rfl)

theorem sameArea_arrival {a : Arrival} {area : Enumeration Document} (hc : c.arrival = some a)
    (hx : x.ospfArea = some area) : (a.area = .null → c.sameArea x y = .ok area.isDefault) ∧
      (a.area ≠ .null → c.sameArea x y = area.isDocument a.area) := by
  unfold sameArea
  rw [hx, hc]
  dsimp only
  constructor
  · intro hnull
    rw [hnull]
  · intro hgiven
    split
    next hnull => exact absurd hnull hgiven
    · rfl

/-- Two records describe the same route, whatever is compared. -/
structure Same (v : Valuation) (c : Comparing) (x y : Record) : Prop where
  number : ∀ a, a ≠ .routerId → (sameNumber (x.int? a) (y.int? a) (c.protocol.defaultNumber a)).eval v
  type : (sameType x y).eval v
  area : ∃ t, c.sameArea x y = .ok t ∧ t.eval v
  ids : ∃ t, c.compareIds x y .eq = .ok t ∧ t.eval v
  history : (sameHistory x y).eval v
  internal : (sameInternal x y).eval v

theorem same_of_isSame (h : c.isSame x y withCommunities = .ok t) (ht : t.eval v) : c.Same v x y := by
  obtain ⟨area, harea, h⟩ := bind_eq_ok.1 h
  obtain ⟨ids, hids, h⟩ := bind_eq_ok.1 h
  cases h
  rw [holds_allOf, List.forall_mem_append] at ht
  simp only [List.forall_mem_cons] at ht
  obtain ⟨⟨hlength, hadmin, hlocal, hmetric, hmed, htype, harea', hids', hhistory, hinternal, -⟩, -⟩ := ht
  exact ⟨IntAttribute.forall_iff.2 ⟨fun _ => hlength, fun _ => hadmin, fun _ => hlocal, fun _ => hmetric, fun _ => hmed,
    fun ha => absurd rfl ha⟩, htype, ⟨area, harea, harea'⟩, ⟨ids, hids, hids'⟩, hhistory, hinternal⟩

/-- Records that describe the same route agree. -/
theorem isSame_agrees (hx : x.HoldsType) (hy : y.HoldsType)
    (hxy : x.ospfType = none → y.ospfType = none) (h : c.isSame x y withCommunities = .ok t)
    (ht : t.eval v) : (x.under v).Agrees c.protocol (y.under v) := by
  have hsame := same_of_isSame h ht
  refine ⟨fun a n ha hn => ?_, eval_sameType hx hy hxy hsame.type⟩
  obtain ⟨b, hb, rfl⟩ := map_eq_some_iff.1 hn
  have hnumber := hsame.number a ha
  rw [hb] at hnumber
  exact eval_sameNumber hnumber

end Comparing

end ControlPlane
