import ControlPlane.Proofs.Transfer.Emission
import ControlPlane.Proofs.Transfer.FreshVariables
import ControlPlane.Proofs.Transfer.Simulation

/-!
# Transfers are faithful

A transfer interprets a policy with terms.  Under every valuation that satisfies the equations it adds, its
verdict and its final route are those of running the policy on the route that the source stands for.

* `Transfer.compute_simulates` compares it with the run.
-/
namespace ControlPlane

open Term

open Policy (Setting Scope)

variable {policy : List Statement}

/-! ## §1. The route that enters a policy -/

def Policy.suppressedLength (destination : Int) (aggregates : List GeneratedRoute) (suppressed : List Subnet)
    (n : Int) : Int :=
  let covering := aggregates.filter fun g =>
    inSubnet g.subnet destination && decide (n > g.subnet.length) && suppressed.contains g.subnet
  (covering.getLast?.map fun g => (g.subnet.length : Int)).getD n

theorem foldl_ite_eq_getLast {α : Type} {ty : Ty} (v : Valuation) (c : α → Term .bool) (f : α → Term ty)
    (a : Term ty) (xs : List α) :
    (xs.foldl (fun acc x => .ite (c x) (f x) acc) a).eval v =
      (((xs.filter fun x => (c x).eval v).getLast?).map fun x => (f x).eval v).getD (a.eval v) := by
  induction xs generalizing a with
  | nil => rfl
  | cons x rest ih =>
    rw [List.foldl_cons, ih, List.filter_cons]
    cases hc : (c x).eval v with
    | false => simp [eval_ite, hc]
    | true =>
      rw [if_pos rfl, List.getLast?_cons]
      cases (rest.filter fun x => (c x).eval v).getLast? <;> simp [eval_ite, hc]

theorem Route.number_setNumber {r : Route} {a b : IntAttribute} {n : Int} (h : a ≠ b) :
    (r.setNumber b n).number a = r.number a :=
  if_neg h

namespace Transfer

variable {closed : Prop} {xs : List Variable} (t : Transfer)

def aggregates : List GeneratedRoute :=
  ((t.frame.plan.router? t.router.name).map RouterPlan.aggregates).getD []

/-- The networks of those that suppress more specific routes. -/
def suppressed : List Subnet :=
  ((t.frame.plan.router? t.router.name).map RouterPlan.suppressed).getD []

def suppressing (v : Valuation) (r : Route) : Route :=
  if !t.isExport || t.aggregates.isEmpty then r
  else match r.number .prefixLength with
    | none => r
    | some n => r.setNumber .prefixLength
        (Policy.suppressedLength (t.setting v).destination t.aggregates t.suppressed n)

def resetsLocalPref : Bool := !t.isExport && t.toProtocol == .bgp && !t.isInternal

def entering (v : Valuation) : Route :=
  let r := t.suppressing v (t.source.under v)
  if t.resetsLocalPref then r.setNumber .localPref defaultLocalPref else r

variable {t} {v : Valuation} {a : IntAttribute}

theorem number_suppressing (ha : a ≠ .prefixLength) (r : Route) : (t.suppressing v r).number a = r.number a := by
  unfold suppressing
  split
  · rfl
  · split
    · rfl
    · exact Route.number_setNumber ha

theorem number_entering (hlength : a ≠ .prefixLength) (hlocal : a ≠ .localPref) :
    (t.entering v).number a = (t.source.under v).number a := by
  unfold entering
  split
  · exact (Route.number_setNumber hlocal).trans (number_suppressing hlength _)
  · exact number_suppressing hlength _

variable (t)

/-- The aggregate covers the destination, is shorter than the prefix and suppresses it. -/
def suppresses (length : Term .int) (g : GeneratedRoute) : Term .bool :=
  .and [g.subnet.holdsOf t.frame.packet.dstIp, .gt length (.intLit g.subnet.length),
    .boolLit (t.suppressed.contains g.subnet)]

/-- The length of a prefix behind the aggregates. -/
def shortened (length : Term .int) : Term .int :=
  t.aggregates.foldl (fun acc g => .ite (t.suppresses length g) (.intLit g.subnet.length) acc) length

theorem eval_shortened (v : Valuation) (length : Term .int) :
    (t.shortened length).eval v =
      Policy.suppressedLength (t.setting v).destination t.aggregates t.suppressed (length.eval v) := by
  unfold shortened Policy.suppressedLength
  rw [foldl_ite_eq_getLast]
  have hcond : (fun g => (t.suppresses length g).eval v) = fun g : GeneratedRoute =>
      Policy.inSubnet g.subnet (t.setting v).destination && decide (length.eval v > g.subnet.length) &&
        t.suppressed.contains g.subnet := by
    simp only [suppresses, eval_and, List.all_cons, List.all_nil, Bool.and_true, Subnet.eval_holdsOf,
      eval_gt, eval_intLit, eval_boolLit, setting, Bool.and_assoc]
    rfl
  rw [hcond]
  rfl

theorem over_shortened {length : Term .int} (hd : t.DestinationOver xs) (hl : length.Over xs) :
    (t.shortened length).Over xs := by
  have hfold : ∀ (gs : List GeneratedRoute) (acc : Term .int), acc.Over xs →
      (gs.foldl (fun acc g => Term.ite (t.suppresses length g) (.intLit g.subnet.length) acc) acc).Over xs := by
    intro gs
    induction gs with
    | nil => exact fun _ hacc => hacc
    | cons g rest ih => exact fun _ hacc => ih _ (by simp [suppresses, g.subnet.over_holdsOf hd, hl, hacc])
  exact hfold _ _ hl

theorem aggregated_emits {route : Record} (hfit : route.Fit) (hd : closed → t.DestinationOver xs)
    (hr : closed → route.Over xs) :
    Emits closed xs (t.aggregated route) fun v => .ok (t.suppressing v (route.under v)) := by
  show Emits closed xs (if !t.isExport || t.aggregates.isEmpty then pure route else _) _
  split
  next h =>
    refine Emits.pure hfit hr fun v => ?_
    unfold suppressing
    rw [if_pos h]
    rfl
  next h =>
    cases hlength : route.prefixLength with
    | none => exact Emits.throw
    | some length =>
      have hvalue : ∀ v, t.suppressing v (route.under v) =
          (route.under v).setNumber .prefixLength ((t.shortened length).eval v) := by
        intro v
        have hnum : (route.under v).number .prefixLength = some (length.eval v) := by
          show (route.prefixLength).map _ = _
          rw [hlength]
          rfl
        unfold suppressing
        rw [if_neg h, hnum, eval_shortened]
      simp only [hvalue]
      show Emits closed xs (t.freshInt _ (t.shortened length) >>= fun x =>
          pure (route.setInt .prefixLength x))
        fun v => .ok _ >>= fun n => .ok ((route.under v).setNumber .prefixLength n)
      refine Emits.bind (t.freshInt_emits _ fun hq => t.over_shortened (hd hq)
        ((hr hq).number .prefixLength length hlength)) fun x ys hsub _ hx => ?_
      exact Emits.pure (hfit.setInt _ x) (fun hq => ((hr hq).mono hsub).setInt _ (hx hq)) fun v =>
        congrArg Except.ok (route.under_setInt v _ x).symm

/-! ## §2. What a transfer adds to a ledger -/

/-- The values of the policy's result and of its final parameters, as `Ground` computes them. -/
def groundBody (policy : List Statement) (v : Valuation) : Except Failure (Ground.Result × Ground.Param) :=
  Ground.body (t.setting v) (Ground.callPolicy (t.setting v) t.callDepth) policy
    { route := t.entering v, scope := {}, returned := false }

/-- **What a transfer adds only defines variables.**  The term that comes out relates the final route, which
keeps the source, to the target where the verdict is to accept. -/
theorem compute_ok (closed : Prop) {l l' : Ledger} {out : Term .bool}
    (hrun : (t.compute policy).runOn l = (.ok out, l')) (hfit : t.source.Fit) (hd : closed → t.DestinationOver l.vars)
    (hs : closed → t.source.Over l.vars) :
    ∃ (r : Result) (after : Param) (related : Term .bool),
      out = .ite r.value related (.not t.target.permits) ∧ t.relate after.route r = .ok related ∧
        t.source.Keeps after.route ∧ Emission closed (t.groundBody policy) l l' (r, after) := by
  obtain ⟨route, l₁, hroute, hrun⟩ := Build.runOn_bind_ok.1 hrun
  obtain ⟨⟨r, after⟩, l₂, hbody, hrun⟩ := Build.runOn_bind_ok.1 hrun
  obtain ⟨related, l₃, hrelated, hrun⟩ := Build.runOn_bind_ok.1 hrun
  obtain ⟨hrelate, rfl⟩ := Build.runOn_lift_ok.1 hrelated
  obtain ⟨rfl, rfl⟩ := Build.runOn_pure_ok.1 hrun
  refine ⟨r, after, related, rfl, hrelate, ?_, ?_⟩
  · have hinv := Record.keeps_isInvariant (t.source.communities.map Prod.fst) t.source
    have hkeeps := ((aggregated_draws hinv ⟨.refl _, fun _ => List.mem_map_of_mem⟩).ok hroute).2
    refine ((body_draws hinv (callPolicy_draws hinv t False.elim t.callDepth) policy False.elim ?_).ok hbody).2.1
    dsimp only
    split
    · exact hinv.setInt hkeeps _ _
    · exact hkeeps
  have hemits : Emits closed l.vars (t.aggregated t.source >>= fun route =>
      t.body (t.callPolicy t.callDepth) policy
        { route := if t.resetsLocalPref then route.setInt .localPref (.intLit defaultLocalPref) else route })
      (t.groundBody policy) := by
    show Emits closed l.vars _ fun v => .ok (t.suppressing v (t.source.under v)) >>= fun r =>
      Ground.body (t.setting v) (Ground.callPolicy (t.setting v) t.callDepth) policy
        { route := if t.resetsLocalPref then r.setNumber .localPref defaultLocalPref else r
          scope := {}, returned := false }
    refine Emits.bind (t.aggregated_emits hfit hd hs) fun route ys hsub hf hr => ?_
    have hready : ∀ route : Record, route.Fit → (closed → route.Over ys) → t.Ready closed ys { route } {} :=
      fun _ hf hr => ⟨hf, fun hq => (hd hq).mono hsub, fun hq => ⟨hr hq, within_no⟩, fun _ => ⟨within_no, within_no⟩⟩
    cases hreset : t.resetsLocalPref with
    | false => exact body_emits (callPolicy_emits closed t t.callDepth) policy (hready route hf hr)
    | true =>
      refine (body_emits (callPolicy_emits closed t t.callDepth) policy (hready _ (Record.Fit.setInt hf _ _)
        fun hq => Record.Over.setInt (hr hq) .localPref (within_intLit defaultLocalPref))).congr fun v => ?_
      unfold Param.under
      rw [Record.under_setInt]
      rfl
  exact hemits l (r, after) _ (fun _ => List.Subset.refl _) (Build.runOn_bind_ok.2 ⟨route, l₁, hroute, hbody⟩)

/-! ## §3. The run of the policy -/

def ran (reading : Policy.Reading) (policy : List Statement) (v : Valuation) : Except Failure (Bool × Route) :=
  Policy.runPolicy reading (t.setting v) (Policy.callNamed reading (t.setting v) t.callDepth) policy {}
    (t.entering v)

theorem ran_of_groundBody {v : Valuation} {x : Ground.Result × Ground.Param} (h : t.groundBody policy v = .ok x)
    (hm : (t.entering v).Models x.1.changed) :
    t.ran .threaded policy v = .ok (x.1.value, x.2.route) :=
  (Ground.body_sim (Ground.callPolicy_sim (t.setting v) t.callDepth) h hm).2.2 rfl

theorem ran_plain (h : Policy.isPlain policy) (hp : Policy.hasPlainPolicies t.router)
    (reading reading' : Policy.Reading) (v : Valuation) : t.ran reading policy v = t.ran reading' policy v := by
  unfold ran
  rw [Policy.callNamed_plain reading reading' (s := t.setting v) hp]
  exact Policy.runPolicy_plain reading reading' policy h _ _

/-- **Interpreting a policy with terms simulates running it.**  A transfer that succeeds relates a final
record to the target where its verdict is to accept.  Under every valuation that satisfies what the transfer
added, the verdict and the final record are those of the run in which branches hand on their verdict and
their route only, if the entering route has a place for every number that the policy sets.  Where settings
stand outside of branches, and nothing follows a `finish`, they are those of every reading. -/
theorem compute_simulates_run {policy : List Statement} {l l' : Ledger} {out : Term .bool}
    (hrun : (t.compute policy).runOn l = (.ok out, l')) (hfit : t.source.Fit) :
    ∃ (r : Result) (after : Record) (related : Term .bool),
      out = .ite r.value related (.not t.target.permits) ∧ t.relate after r = .ok related ∧
        ∀ v : Valuation, v.SatisfiesSince l l' → (t.entering v).Models r.changed →
          t.ran .threaded policy v = .ok (r.value.eval v, after.under v) ∧
            (Policy.isPlain policy → Policy.hasPlainPolicies t.router →
              ∀ reading, t.ran reading policy v = .ok (r.value.eval v, after.under v)) := by
  obtain ⟨r, after, related, hout, hrelate, -, hem⟩ := t.compute_ok False hrun hfit nofun nofun
  refine ⟨r, after.route, related, hout, hrelate, fun v hv hm => ?_⟩
  have hran : t.ran .threaded policy v = .ok (r.value.eval v, after.route.under v) :=
    t.ran_of_groundBody (hem.sound v hv) hm
  exact ⟨hran, fun hplain hpolicies reading => (t.ran_plain hplain hpolicies reading _ v).trans hran⟩

/-- A transfer over one edge, with a source that models every number. -/
def sample : Transfer where
  frame := {
    tag := ""
    topology := ⟨[], [], []⟩
    plan := ⟨true, true, true, true, []⟩
    space := {}
    communities := []
    dependencies := [] }
  router := {
    name := .text "R"
    policies := [⟨.text "RAISE", [.setMetric (.increaseMetric (.int 10)), .simple .returnTrue,
      .setMetric (.literal (.int 7))]⟩] }
  source := {
    name := "SOURCE", protocol := .bgp
    permitted := some (.boolVar "permitted"), prefixLength := some (.intVar "prefixLength")
    adminDist := some (.intVar "adminDist"), localPref := some (.intVar "localPref")
    metric := some (.intVar "metric"), med := some (.intVar "med"), routerId := some (.intVar "routerId") }
  target := { name := "TARGET", protocol := .bgp, permitted := some (.boolVar "accepted") }
  toProtocol := .bgp
  fromProtocol := .bgp
  addedCost := .int 1
  edge := { router := .text "R", start := { name := .text "eth0" }, far := none }
  isExport := true

/-- A policy that calls another one and returns early. -/
def samplePolicy : List Statement :=
  [.cond (.conj [.matchProtocol .bgp, .call (.text "RAISE")])
      [.setLocalPref (.literal (.int 200)), .simple .exitAccept] [.simple .exitReject],
    .setMetric (.literal (.int 1))]

/-- A valuation of the variables of `samplePolicy`, for a route of metric 5. -/
def sampleValuation : Valuation where
  bool x := x != "SLICE-MAIN_SSA_RETURN7"
  int x :=
    if x = "metric" then 5
    else if x ∈ ["SLICE-MAIN_SSA_METRIC1", "SLICE-MAIN_SSA_METRIC3", "SLICE-MAIN_SSA_METRIC10"] then 15
    else if x ∈ ["SLICE-MAIN_SSA_LOCAL-PREF5", "SLICE-MAIN_SSA_LOCAL-PREF8"] then 200
    else 0
  bits _ := 0

theorem sample_compute_simulates_run : ∃ (out : Term .bool) (l' : Ledger) (r : Result) (after : Record),
    (sample.compute samplePolicy).runOn {} = (.ok out, l') ∧ sample.source.Fit ∧
      sampleValuation.SatisfiesSince {} l' ∧ (sample.entering sampleValuation).Models r.changed ∧
      sample.ran .direct samplePolicy sampleValuation =
        .ok (r.value.eval sampleValuation, after.under sampleValuation) ∧
      r.value.eval sampleValuation ∧ (after.under sampleValuation).number .metric = some 15 := by
  cases hrun : (sample.compute samplePolicy).runOn {} with
  | mk x l' =>
    have hl' : l' = ((sample.compute samplePolicy).runOn {}).2 := by rw [hrun]
    have hx : x = ((sample.compute samplePolicy).runOn {}).1 := by rw [hrun]
    have hok : x.isOk := by rw [hx]; decide +kernel
    cases x with
    | error f => cases hok
    | ok out =>
      have hfit : sample.source.Fit := List.nodup_nil
      have hv : sampleValuation.SatisfiesSince {} l' := by
        rw [hl']
        exact List.all_eq_true.1 (by decide +kernel)
      obtain ⟨r, after, related, -, -, h⟩ := sample.compute_simulates_run hrun hfit
      have hm : (sample.entering sampleValuation).Models r.changed := fun a _ => by cases a <;> rfl
      have hran := (h sampleValuation hv hm).2 (by decide) (by decide) .direct
      have hresult : ((sample.ran .direct samplePolicy sampleValuation).map fun x =>
          (x.1, x.2.number .metric)).toOption = some (true, some 15) := by decide +kernel
      rw [hran] at hresult
      obtain ⟨hvalue, hmetric⟩ := Prod.mk.inj (Option.some.inj hresult)
      exact ⟨out, l', r, after, rfl, hfit, hv, hm, hran, hvalue, hmetric⟩

end Transfer

end ControlPlane
