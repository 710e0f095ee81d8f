import ControlPlane.Proofs.Transfer.Relation

/-!
# Policies that let routes through

A policy that only accepts leaves a route as it is, and so does one that accepts the routes of a protocol and
rejects all others.  What a transfer with such a policy says is told by `Transfer.Passes`.
-/
namespace ControlPlane

namespace Transfer

variable {t : Transfer} {v : Valuation} {cost : Int}

/-- A route goes through as it is, if its metric fits. -/
structure Passes (t : Transfer) (v : Valuation) (cost : Int) : Prop where
  conveys : t.Fits (t.sentMetric v cost (t.entering v)) → t.Conveys v [] cost (t.entering v)
  overflows : ¬ t.Fits (t.sentMetric v cost (t.entering v)) → t.target.permits.eval v = false

/-- A route that got through was conveyed. -/
theorem Passes.conveyed (h : t.Passes v cost) (hp : t.target.permits.eval v) :
    t.Fits (t.sentMetric v cost (t.entering v)) ∧ t.Conveys v [] cost (t.entering v) := by
  by_cases hfits : t.Fits (t.sentMetric v cost (t.entering v))
  · exact ⟨hfits, h.conveys hfits⟩
  · cases hp.symm.trans (h.overflows hfits)

theorem holds_of_verdict {policy : List Statement} {accepts : Bool} (hbody : t.groundBody policy v =
      .ok ({ value := accepts, assigned := true }, { route := t.entering v, scope := {}, returned := false })) :
    t.Holds policy v ↔ ∃ cost, t.addedCost.integer = .ok cost ∧ (accepts → t.Passes v cost) ∧
      (accepts = false → t.target.permits.eval v = false) := by
  constructor
  · rintro ⟨x, cost, hx, hcost, hd⟩
    cases hbody.symm.trans hx
    exact ⟨cost, hcost, fun h => ⟨hd.conveys h, hd.overflows h⟩, hd.rejects⟩
  · rintro ⟨cost, hcost, hyes, hno⟩
    exact ⟨_, cost, hbody, hcost, fun h => (hyes h).conveys, fun h => (hyes h).overflows, hno⟩

theorem holds_accept : t.Holds [.simple .exitAccept] v ↔
    ∃ cost, t.addedCost.integer = .ok cost ∧ t.Passes v cost := by
  have hbody : t.groundBody [.simple .exitAccept] v =
      .ok ({ value := true, assigned := true }, { route := t.entering v, scope := {}, returned := false }) := rfl
  rw [holds_of_verdict hbody]
  simp

def only (p : Protocol) : List Statement :=
  [.cond (.matchProtocol p) [.simple .exitAccept] [.simple .exitReject]]

theorem holds_only {p : Protocol} : t.Holds (only p) v ↔
    ∃ cost, t.addedCost.integer = .ok cost ∧
      (Policy.cameFrom (t.setting v) (t.entering v) p → t.Passes v cost) ∧
      (Policy.cameFrom (t.setting v) (t.entering v) p = false → t.target.permits.eval v = false) := by
  have hrun : t.groundBody (only p) v = .ok (
      { value := if (if Policy.cameFrom (t.setting v) (t.entering v) p then true else true) then
          (if Policy.cameFrom (t.setting v) (t.entering v) p then true else false) else false, assigned := true },
      { route := Ground.joinRoutes (Policy.cameFrom (t.setting v) (t.entering v) p) (t.entering v) (t.entering v),
        scope := {}, returned := false }) := rfl
  -- a route that is joined with itself stays as it is
  rw [Ground.joinRoutes_eq _ (.refl _)] at hrun
  refine holds_of_verdict (hrun.trans ?_)
  cases Policy.cameFrom (t.setting v) (t.entering v) p <;> rfl

/-! ## §2. What policies start from -/

/-- Without aggregates and outside of eBGP, a policy starts from the source. -/
theorem entering_eq (haggregates : t.isExport → t.aggregates = [])
    (hreset : t.resetsLocalPref = false) : t.entering v = t.source.under v := by
  unfold entering suppressing
  rw [hreset]
  cases he : t.isExport with
  | false => rfl
  | true =>
    rw [haggregates he]
    rfl

end Transfer

end ControlPlane
