import ControlPlane.Config.Basic

/-!
# Walking policies

A walk visits every statement and expression that a list of statements can reach, each node before what
is inside of it.  A called or default policy is walked where it is first named, and once only.  A walk
stops at the first name without a policy; what it visited before stays, so that a search which ends
earlier never sees the failure.
-/
namespace ControlPlane

inductive PolicyNode where
  | statement (value : Statement)
  | expression (value : BoolExpr)

/-- What a walk has done: the nodes visited, the policies entered, and why it stopped early, if it
did. -/
structure Trail where
  nodes : List PolicyNode := []
  entered : List Name := []
  failure : Option Failure := none

namespace Trail

/-- Goes on with another walk, unless this one stopped. -/
def andThen (t : Trail) (next : List Name → Trail) : Trail :=
  match t.failure with
  | some _ => t
  | none =>
    let u := next t.entered
    { nodes := t.nodes ++ u.nodes, entered := u.entered, failure := u.failure }

def visit (node : PolicyNode) (entered : List Name) : Trail := { nodes := [node], entered }

/-- Whether a node with a property is visited.  Finding one ends the search; otherwise the walk must
have come to its end. -/
def any (t : Trail) (p : PolicyNode → Bool) : Except Failure Bool :=
  if t.nodes.any p then .ok true
  else match t.failure with
    | some f => .error f
    | none => .ok false

/-- Runs an action on every node, and fails with the walk when it stopped early. -/
def collectM {α : Type} (t : Trail) (f : PolicyNode → Except Failure (List α)) :
    Except Failure (List α) := do
  let found ← t.nodes.mapM f
  match t.failure with
  | some failure => throw failure
  | none => return found.flatten

end Trail

/-! ## Walking syntax -/

mutual
/-- Walks an expression; `enter` walks a called policy. -/
def BoolExpr.walk (enter : Document → List Name → Trail) : BoolExpr → List Name → Trail
  | .conj es, entered => (Trail.visit (.expression (.conj es)) entered).andThen (BoolExpr.walkAll enter es)
  | .disj es, entered => (Trail.visit (.expression (.disj es)) entered).andThen (BoolExpr.walkAll enter es)
  | .conjChain es, entered =>
    (Trail.visit (.expression (.conjChain es)) entered).andThen (BoolExpr.walkAll enter es)
  | .disjChain es, entered =>
    (Trail.visit (.expression (.disjChain es)) entered).andThen (BoolExpr.walkAll enter es)
  | .not e, entered => (Trail.visit (.expression (.not e)) entered).andThen (BoolExpr.walk enter e)
  | .withEnvironment e, entered =>
    (Trail.visit (.expression (.withEnvironment e)) entered).andThen (BoolExpr.walk enter e)
  | .call policy, entered => (Trail.visit (.expression (.call policy)) entered).andThen (enter policy)
  | e, entered => Trail.visit (.expression e) entered

def BoolExpr.walkAll (enter : Document → List Name → Trail) : List BoolExpr → List Name → Trail
  | [], entered => { entered }
  | e :: rest, entered => (BoolExpr.walk enter e entered).andThen (BoolExpr.walkAll enter rest)
end

mutual
def Statement.walk (enter : Document → List Name → Trail) : Statement → List Name → Trail
  | .cond guard yes no, entered =>
    (((Trail.visit (.statement (.cond guard yes no)) entered).andThen (guard.walk enter)).andThen
      (Statement.walkAll enter yes)).andThen (Statement.walkAll enter no)
  | .setDefaultPolicy policy, entered =>
    (Trail.visit (.statement (.setDefaultPolicy policy)) entered).andThen (enter policy)
  | s, entered => Trail.visit (.statement s) entered

def Statement.walkAll (enter : Document → List Name → Trail) : List Statement → List Name → Trail
  | [], entered => { entered }
  | s :: rest, entered => (Statement.walk enter s entered).andThen (Statement.walkAll enter rest)
end

/-! ## Walking policies -/

/-- Enters a policy that was not entered before; null names none.  Every entry adds the name of a policy of the
router, so the number of its policies is enough fuel. -/
def Router.enter (r : Router) : Nat → Document → List Name → Trail
  | fuel, d, entered => match d with
    | .null => { entered }
    | d => match Name.ofDocument? d with
      | none => { entered, failure := some .shape }
      | some name =>
        if entered.contains name then { entered }
        else match r.policy d with
          | .error f => { entered := name :: entered, failure := some f }
          | .ok p => match fuel with
            | 0 => { entered := name :: entered }
            | fuel + 1 => Statement.walkAll (r.enter fuel) p.statements (name :: entered)

def Router.walk (r : Router) (statements : List Statement) : Trail :=
  Statement.walkAll (r.enter r.policies.length) statements []

end ControlPlane
