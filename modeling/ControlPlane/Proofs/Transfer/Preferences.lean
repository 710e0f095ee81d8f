import ControlPlane.Proofs.Transfer.Metrics

/-!
# Policies that set no local preference

Whether a policy set the local preference of a route decides if a transfer passes it on.  The modifications of a
policy are recorded on all of its branches, so a policy without statements that set local preferences records none,
if the policies that it calls are like it (`Transfer.groundBody_localPref`).
-/
namespace ControlPlane

open Statement

mutual
def Statement.keepsLocalPref : Statement → Bool
  | .setLocalPref _ => false
  | .cond _ yes no => Statement.keepLocalPref yes && Statement.keepLocalPref no
  | _ => true

def Statement.keepLocalPref : List Statement → Bool
  | [] => true
  | s :: rest => s.keepsLocalPref && Statement.keepLocalPref rest
end

theorem Statement.keepLocalPref_iff {body : List Statement} :
    Statement.keepLocalPref body ↔ ∀ x ∈ body, x.keepsLocalPref := by
  induction body with
  | nil => simp [Statement.keepLocalPref]
  | cons x rest ih => rw [Statement.keepLocalPref, Bool.and_eq_true, ih, List.forall_mem_cons]

namespace Transfer

variable {t : Transfer} {v : Valuation} {policy : List Statement} {x : Ground.Result × Ground.Param}

variable (hpolicies : ∀ p ∈ t.router.policies, Statement.keepLocalPref p.statements)
  (hpolicy : Statement.keepLocalPref policy) (h : t.groundBody policy v = .ok x)
include hpolicies hpolicy h

/-- **A transfer sets no local preference**, if no policy of the router does. -/
theorem groundBody_localPref :
    Ground.Kept (fun s => s.keepsLocalPref)
      (fun route => route.number .localPref = (t.entering v).number .localPref) x.1 x.2 :=
  (Ground.number_invariant (t.setting v) (fun s => s.keepsLocalPref) _ (by decide)
    (fun _ he => absurd he (by simp [Statement.keepsLocalPref]))
    fun _ _ _ h => (Bool.and_eq_true _ _ ▸ h : _ ∧ _).imp keepLocalPref_iff.1
      keepLocalPref_iff.1).body
    (fun p hp => keepLocalPref_iff.1 (hpolicies p hp)) (keepLocalPref_iff.1 hpolicy) h rfl

theorem groundBody_preference : x.1.changed.contains (.attribute IntAttribute.localPref.key) = false := by
  rw [Bool.eq_false_iff]
  intro hmem
  obtain ⟨e, he⟩ := (groundBody_localPref hpolicies hpolicy h).recorded (List.contains_iff_mem.1 hmem)
  exact absurd he (by simp [Statement.keepsLocalPref])

end Transfer

end ControlPlane
