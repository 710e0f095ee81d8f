import ControlPlane.Proofs.Transfer.RouteInvariants

/-!
# Policies that do not lower metrics

A metric changes where a statement sets it or where a path gets longer.  A policy without statements that set
metrics, and without prepends of negative length, gives back a route whose metric is no smaller than before.  The
policies that it calls have to be like it (`Transfer.groundBody_metric`).
-/
namespace ControlPlane

open Statement

/-! ## §1. Statements -/

/-- A prepend that does not make a path shorter. -/
def AsPathList.lengthens (path : AsPathList) : Bool :=
  match path.count.bind Document.integer with
  | .ok n => decide (0 ≤ n)
  | .error _ => true

mutual
def Statement.keepsMetric : Statement → Bool
  | .setMetric _ => false
  | .prependAsPath path => path.lengthens
  | .cond _ yes no => Statement.keepMetric yes && Statement.keepMetric no
  | _ => true

def Statement.keepMetric : List Statement → Bool
  | [] => true
  | s :: rest => s.keepsMetric && Statement.keepMetric rest
end

theorem Statement.keepMetric_iff {body : List Statement} :
    Statement.keepMetric body ↔ ∀ x ∈ body, x.keepsMetric := by
  induction body with
  | nil => simp [Statement.keepMetric]
  | cons x rest ih => rw [Statement.keepMetric, Bool.and_eq_true, ih, List.forall_mem_cons]

/-! ## §2. Policies -/

namespace Ground

open Policy (Setting)

/-- **Statements that keep metrics give back no smaller one.** -/
theorem metric_invariant (s : Setting) (k : Int) :
    RouteInvariant s (fun x => x.keepsMetric) fun route => k ≤ s.numberOf route .metric where
  inside guard yes no h := by
    rw [Statement.keepsMetric, Bool.and_eq_true] at h
    exact h.imp keepMetric_iff.1 keepMetric_iff.1
  join g yes no hyes hno := by
    show k ≤ (joinNumber g yes no .metric).getD _
    rcases joinNumber_eq_or g yes no .metric with h | h
    · rw [h]
      exact hyes
    · rw [h]
      exact hno
  setMetric e p r n he := absurd he (by simp [Statement.keepsMetric])
  setLocalPref _ p r n _ hp := by
    exact hp
  lengthens path p r d n hpath hd hn hp := by
    have hpath : path.lengthens := by simpa only [Statement.keepsMetric] using hpath
    unfold AsPathList.lengthens at hpath
    rw [hd, Except.bind, hn] at hpath
    have hn0 : 0 ≤ n := of_decide_eq_true hpath
    show k ≤ if isReturned p r then s.numberOf p.route .metric else s.numberOf p.route .metric + n
    split
    · exact hp
    · exact Int.le_trans hp (Int.le_add_of_nonneg_right hn0)
  attaches _ _ c _ _ _ p r b hp := by
    show k ≤ ((attach p r c b).2.route.number .metric).getD _
    rw [attach_number]
    exact hp
  setsType _ _ _ hp := hp

end Ground

/-! ## §3. Transfers -/

namespace Transfer

variable {t : Transfer} {v : Valuation}

/-- **A transfer does not lower the metric**, if no policy of the router does. -/
theorem groundBody_metric (hpolicies : ∀ p ∈ t.router.policies, Statement.keepMetric p.statements)
    {policy : List Statement} (hpolicy : Statement.keepMetric policy) {x : Ground.Result × Ground.Param}
    (h : t.groundBody policy v = .ok x) :
    (t.setting v).numberOf (t.entering v) .metric ≤ (t.setting v).numberOf x.2.route .metric :=
  ((Ground.metric_invariant (t.setting v) _).body (fun p hp => keepMetric_iff.1 (hpolicies p hp))
    (keepMetric_iff.1 hpolicy) h (Int.le_refl _)).route

end Transfer

end ControlPlane
