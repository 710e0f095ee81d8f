import ControlPlane.Proofs.Ledger.Emission
import ControlPlane.Proofs.Policy.Run

/-!
# Policies that are read in one way

The readings of a policy differ in settings that are made inside of a branch and in a `finish` that is not
the last statement.  Where a router's policies have neither, every reading gives the same run.
-/
namespace ControlPlane.Policy

/-! ## §1. Plain policies -/

/-- Statements without arguments that all readings take alike, inside of branches too. -/
def isSteadyKind : SimpleStatement → Bool
  | .setDefaultActionAccept | .setDefaultActionReject | .setLocalDefaultActionAccept
  | .setLocalDefaultActionReject | .finish => false
  | _ => true

mutual
/-- A statement without settings and without `finish`, down to its branches. -/
def isSteady : Statement → Bool
  | .simple kind => isSteadyKind kind
  | .cond _ yes no => allSteady yes && allSteady no
  | .setDefaultPolicy _ => false
  | _ => true

/-- Statements without settings and without `finish`. -/
def allSteady : List Statement → Bool
  | [] => true
  | x :: rest => isSteady x && allSteady rest
end

/-- Settings stand outside of branches, and `finish` only at the end. -/
def isPlain : List Statement → Bool
  | [] => true
  | .simple .finish :: rest => rest.isEmpty
  | .cond _ yes no :: rest => allSteady yes && allSteady no && isPlain rest
  | _ :: rest => isPlain rest

def hasPlainPolicies (router : Router) : Bool := router.policies.all fun p => isPlain p.statements

theorem mem_policies {r : Router} {name : Document} {p : RoutingPolicy} (h : r.policy name = .ok p) :
    p ∈ r.policies := by
  obtain ⟨n, -, h⟩ := bind_eq_ok.1 h
  split at h
  next q hq =>
    cases h
    exact List.mem_of_find?_eq_some hq
  next => cases h

/-! ## §2. Every reading gives the same run -/

variable {s : Setting} {call : Call} (reading reading' : Reading)

def AgreeIn (scope : Scope) (ran ran' : Except Failure State) : Prop :=
  ran = ran' ∧ ∀ after, ran = .ok after → after.scope = scope

theorem AgreeIn.error (scope : Scope) (f : Failure) : AgreeIn scope (.error f) (.error f) :=
  ⟨rfl, nofun⟩

theorem AgreeIn.branch {scope : Scope} {ran ran' : Except Failure State} (h : AgreeIn scope ran ran') :
    AgreeIn scope (do let after ← ran; return if reading.settingsLast then after else { after with scope })
      (do let after ← ran'; return if reading'.settingsLast then after else { after with scope }) := by
  obtain ⟨rfl, hscope⟩ := h
  cases ran with
  | error f => exact .error scope f
  | ok after =>
    have hsame : { after with scope } = after := by rw [← hscope after rfl]
    rw [ok_bind, ok_bind, hsame, ite_self, ite_self]
    refine ⟨rfl, fun after' ha => ?_⟩
    cases ha
    exact hscope _ rfl

theorem runSimple_steady {kind : SimpleStatement} (h : isSteadyKind kind) (scope : Scope) (r : Route) :
    AgreeIn scope (runSimple reading kind scope r) (runSimple reading' kind scope r) := by
  cases kind with
  | setDefaultActionAccept | setDefaultActionReject | setLocalDefaultActionAccept
  | setLocalDefaultActionReject | finish => cases h
  | fallThrough =>
    refine ⟨rfl, fun after ha => ?_⟩
    unfold runSimple at ha
    dsimp only at ha
    split at ha <;> cases ha <;> rfl
  | _ => exact ⟨rfl, fun after ha => by cases ha; rfl⟩

mutual
theorem run_steady (x : Statement) (h : isSteady x) (scope : Scope) (r : Route) :
    AgreeIn scope (run reading s call x scope r) (run reading' s call x scope r) := by
  match x with
  | .simple kind =>
    rw [run, run]
    exact runSimple_steady reading reading' h scope r
  | .cond guard yes no =>
    obtain ⟨hyes, hno⟩ := Bool.and_eq_true_iff.1 h
    rw [run, run]
    cases eval s call guard scope r with
    | error f => exact .error scope f
    | ok x =>
      obtain ⟨b, r⟩ := x
      cases b
      · exact (runAll_steady no hno scope r).branch reading reading'
      · exact (runAll_steady yes hyes scope r).branch reading reading'
  | .setDefaultPolicy policy => exact absurd h (by simp [isSteady])
  | .setMetric e | .setLocalPref e =>
    refine ⟨rfl, fun after ha => ?_⟩
    obtain ⟨n, -, ha⟩ := bind_eq_ok.1 ha
    cases ha
    rfl
  | .addCommunity set | .deleteCommunity set =>
    refine ⟨rfl, fun after ha => ?_⟩
    obtain ⟨cs, -, ha⟩ := bind_eq_ok.1 ha
    cases ha
    rfl
  | .prependAsPath path =>
    refine ⟨rfl, fun after ha => ?_⟩
    obtain ⟨d, -, ha⟩ := bind_eq_ok.1 ha
    obtain ⟨n, -, ha⟩ := bind_eq_ok.1 ha
    cases ha
    rfl
  | .setOspfType _ | .retainCommunity _ | .setOrigin _ =>
    refine ⟨rfl, fun after ha => ?_⟩
    cases ha
    rfl
  | .setForeignOspfType _ | .foreign _ _ => exact .error scope _

theorem runAll_steady (body : List Statement) (h : allSteady body) (scope : Scope) (r : Route) :
    AgreeIn scope (runAll reading s call body scope r) (runAll reading' s call body scope r) := by
  match body with
  | [] =>
    refine ⟨rfl, fun after ha => ?_⟩
    cases ha
    rfl
  | x :: rest =>
    obtain ⟨hx, hrest⟩ := Bool.and_eq_true_iff.1 h
    obtain ⟨hran, hscope⟩ := run_steady x hx scope r
    rw [runAll, runAll, ← hran]
    cases hx : run reading s call x scope r with
    | error f => exact .error scope f
    | ok after =>
      rw [ok_bind, ok_bind, hscope after hx]
      split
      · refine ⟨rfl, fun after' ha => ?_⟩
        cases ha
        exact hscope after hx
      · exact runAll_steady rest hrest scope after.route
end

theorem runPolicy_cons_congr {x : Statement} {rest : List Statement} {scope : Scope} {r : Route}
    (hx : run reading s call x scope r = run reading' s call x scope r)
    (hrest : ∀ scope r, runPolicy reading s call rest scope r = runPolicy reading' s call rest scope r) :
    runPolicy reading s call (x :: rest) scope r = runPolicy reading' s call (x :: rest) scope r := by
  unfold runPolicy
  rw [runAll, runAll, ← hx]
  cases run reading s call x scope r with
  | error f => rfl
  | ok after =>
    rw [ok_bind, ok_bind]
    split
    · rfl
    · exact hrest after.scope after.route

/-- **All readings of a plain policy run it alike.** -/
theorem runPolicy_plain (policy : List Statement) (h : isPlain policy) (scope : Scope) (r : Route) :
    runPolicy reading s call policy scope r = runPolicy reading' s call policy scope r := by
  induction policy generalizing scope r with
  | nil => rfl
  | cons x rest ih =>
    match x with
    | .cond guard yes no =>
      obtain ⟨hbranches, hrest⟩ := Bool.and_eq_true_iff.1 h
      exact runPolicy_cons_congr reading reading'
        (run_steady reading reading' (.cond guard yes no) hbranches scope r).1 (ih hrest)
    | .simple .finish =>
      obtain rfl := List.isEmpty_iff.1 h
      have hend : ∀ reading, runPolicy reading s call [.simple .finish] scope r =
          .ok (scope.defaultAccept, r) := by
        rintro ⟨last, ends⟩
        cases ends <;> rfl
      rw [hend, hend]
    | .simple .exitAccept | .simple .exitReject | .simple .returnTrue | .simple .returnFalse
    | .simple .setDefaultActionAccept | .simple .setDefaultActionReject
    | .simple .setLocalDefaultActionAccept | .simple .setLocalDefaultActionReject
    | .simple .returnLocalDefaultAction | .simple .fallThrough
    | .setDefaultPolicy _ | .setMetric _ | .setLocalPref _ | .setOspfType _ | .setForeignOspfType _
    | .addCommunity _ | .deleteCommunity _ | .retainCommunity _ | .prependAsPath _ | .setOrigin _
    | .foreign _ _ => exact runPolicy_cons_congr reading reading' rfl (ih h)

theorem callNamed_plain (h : hasPlainPolicies s.router) (depth : Nat) :
    callNamed reading s depth = callNamed reading' s depth := by
  induction depth with
  | zero => rfl
  | succ depth ih =>
    funext name scope r
    rw [callNamed, callNamed, ih]
    cases hpolicy : s.router.policy name with
    | error f => rfl
    | ok policy =>
      exact runPolicy_plain reading reading' policy.statements (List.all_eq_true.1 h _ (mem_policies hpolicy)) _ r

end ControlPlane.Policy
