import ControlPlane.Transfer.Interpretation

/-!
# Why interpreting a policy fails

Much of what a policy refers to can be missing or malformed, whatever the route is.  That a community is not carried is
the one cause that depends on the route, and nothing but a match on communities fails with it.
-/
namespace ControlPlane

/-- Whether the cause is a community that the route does not carry. -/
def Failure.isNotCarried : Failure → Bool
  | .unsupported (.communityNotCarried _ _) => true
  | _ => false

theorem StrayCause.isNotCarried_failure (cause : StrayCause) : cause.failure.isNotCarried = false := by
  cases cause <;> rfl

/-- What is computed does not fail because of a community that is not carried. -/
def Spares {α : Type} (e : Except Failure α) : Prop := ∀ cause, e = .error cause → cause.isNotCarried = false

namespace Spares

variable {α β : Type} {e : Except Failure α} {f : α → Except Failure β} {x : α} {cause : Failure} {t : Transfer}
  {r : Record}

protected theorem ok : Spares (.ok x) := nofun

protected theorem error (h : cause.isNotCarried = false) : Spares (.error cause : Except Failure α) := by
  rintro _ ⟨⟩
  exact h

protected theorem bind (he : Spares e) (hf : ∀ x, Spares (f x)) : Spares (e >>= f) := by
  cases e with
  | ok x => exact hf x
  | error cause => exact .error (he cause rfl)

theorem mapM (hf : ∀ x, Spares (f x)) (xs : List α) : Spares (xs.mapM f) := by
  induction xs with
  | nil => exact .ok
  | cons x rest ih =>
    rw [List.mapM_cons]
    exact .bind (hf x) fun _ => .bind ih fun _ => .ok

theorem foldlM {g : β → α → Except Failure β} (hg : ∀ y x, Spares (g y x)) (xs : List α) (y : β) :
    Spares (xs.foldlM g y) := by
  induction xs generalizing y with
  | nil => exact .ok
  | cons x rest ih => exact .bind (hg y x) ih

/-! ## §1. Documents and names -/

theorem integer (d : Document) : Spares d.integer := by
  unfold Document.integer
  repeat' split
  all_goals first | exact .ok | exact .error rfl

theorem asName (d : Document) : Spares d.asName := by
  unfold Document.asName
  split
  · exact .ok
  · exact .error rfl

theorem policy (r : Router) (name : Document) : Spares (r.policy name) := by
  refine .bind (asName name) fun _ => ?_
  split
  · exact .ok
  · exact .error rfl

theorem filterList (r : Router) (name : Document) : Spares (r.filterList name) := by
  refine .bind (asName name) fun _ => ?_
  split
  · exact .ok
  · exact .error rfl

theorem isDocument (e : Enumeration Document) (d : Document) : Spares (e.isDocument d) := by
  unfold Enumeration.isDocument Enumeration.isAmong
  split
  · exact .ok
  · exact .error rfl

/-! ## §2. Parts of a policy -/

theorem isNumber (y : Term .int) (d : Document) : Spares (y.isNumber d) := by
  cases d with
  | null => exact .ok
  | _ => exact .bind (integer _) fun _ => .ok

theorem matchesPrefix (s : Subnet) (lengths : Range) : Spares (t.matchesPrefix r s lengths) := by
  unfold Transfer.matchesPrefix Packet.matchesPrefix
  dsimp only
  split
  · split
    · exact .ok
    · exact .error rfl
  · split
    · exact .bind (isNumber _ _) fun _ => .ok
    · exact .bind (integer _) fun _ => .bind (integer _) fun _ => .ok

theorem matchesPrefixSet (set : PrefixSet) : Spares (t.matchesPrefixSet r set) := by
  match set with
  | .explicit [] => exact .ok
  | .explicit (_ :: _) => exact .bind (mapM (fun _ => matchesPrefix _ _) _) fun _ => .ok
  | .named name =>
    exact .bind (filterList _ name) fun _ => foldlM (fun _ _ => .bind (matchesPrefix _ _) fun _ => .ok) _ _
  | .foreign _ cause => exact .error cause.isNotCarried_failure

theorem matchesForeign (c : Construct) : Spares (Transfer.matchesForeign r c) := by
  unfold Transfer.matchesForeign
  split
  · exact .error rfl
  · exact .ok

theorem applyIntExpr (old : Term .int) (e : IntExpr) : Spares (Transfer.applyIntExpr old e) := by
  cases e with
  | «foreign» c => exact .error rfl
  | _ => exact .bind (integer _) fun _ => .ok

theorem count (path : AsPathList) : Spares path.count := by
  match path with
  | .repeated _ (.literal _) | .literal _ => exact .ok
  | .repeated _ (.increaseMetric _) | .repeated _ (.decreaseMetric _) | .repeated _ (.increaseLocalPref _)
  | .repeated _ (.decreaseLocalPref _) | .repeated _ (.foreign _) => exact .error rfl
  | .foreign _ cause => exact .error cause.isNotCarried_failure

/-- The target of a transfer. -/
theorem relate (after : Transfer.Result) : Spares (t.relate r after) := by
  refine .bind (integer _) fun _ => .bind ?_ fun _ => .bind ?_ fun _ => .bind ?_ fun _ => .ok
  · unfold Transfer.samePermission
    split
    · exact .ok
    · exact .error rfl
  · unfold Transfer.areaOf
    split
    · exact .ok
    · exact isDocument _ _
    · exact .ok
  · unfold Transfer.typeOf
    dsimp only
    repeat' split
    all_goals first | exact .ok | exact .bind (isDocument _ _) fun _ => .ok

end Spares

end ControlPlane
