import ControlPlane.Policy.Walk
import Mathlib.Logic.Relation

/-!
# What a policy reaches

A policy reaches the statements and conditions that stand in it, and those of the policies that it calls or that it
names as a default.
-/
namespace ControlPlane

open Trail

variable {node : PolicyNode} {r : Router}

/-! ## §1. Nodes inside of nodes -/

/-- What stands directly inside of a node, where the policy that a node names is inside of it. -/
inductive PolicyNode.Holds (r : Router) : PolicyNode → PolicyNode → Prop
  | conj {es : List BoolExpr} {e : BoolExpr} (mem : e ∈ es) : Holds r (.expression (.conj es)) (.expression e)
  | disj {es : List BoolExpr} {e : BoolExpr} (mem : e ∈ es) : Holds r (.expression (.disj es)) (.expression e)
  | conjChain {es : List BoolExpr} {e : BoolExpr} (mem : e ∈ es) :
      Holds r (.expression (.conjChain es)) (.expression e)
  | disjChain {es : List BoolExpr} {e : BoolExpr} (mem : e ∈ es) :
      Holds r (.expression (.disjChain es)) (.expression e)
  | not {e : BoolExpr} : Holds r (.expression (.not e)) (.expression e)
  | withEnvironment {e : BoolExpr} : Holds r (.expression (.withEnvironment e)) (.expression e)
  | call {name : Document} {p : RoutingPolicy} {s : Statement} (policy : r.policy name = .ok p)
      (mem : s ∈ p.statements) : Holds r (.expression (.call name)) (.statement s)
  | guard {e : BoolExpr} {yes no : List Statement} : Holds r (.statement (.cond e yes no)) (.expression e)
  | trueBranch {e : BoolExpr} {yes no : List Statement} {s : Statement} (mem : s ∈ yes) :
      Holds r (.statement (.cond e yes no)) (.statement s)
  | falseBranch {e : BoolExpr} {yes no : List Statement} {s : Statement} (mem : s ∈ no) :
      Holds r (.statement (.cond e yes no)) (.statement s)
  | defaultPolicy {name : Document} {p : RoutingPolicy} {s : Statement} (policy : r.policy name = .ok p)
      (mem : s ∈ p.statements) : Holds r (.statement (.setDefaultPolicy name)) (.statement s)

namespace Router

variable (r : Router)

def Within : PolicyNode → PolicyNode → Prop := Relation.ReflTransGen (PolicyNode.Holds r)

def Reaches (statements : List Statement) (node : PolicyNode) : Prop := ∃ s ∈ statements, r.Within (.statement s) node

def PolicyReaches (name : Document) (node : PolicyNode) : Prop :=
  ∃ p, r.policy name = .ok p ∧ r.Reaches p.statements node

end Router

/-! ## §2. Walks -/

theorem Trail.mem_andThen {t : Trail} {next : List Name → Trail} (h : node ∈ (t.andThen next).nodes) :
    node ∈ t.nodes ∨ node ∈ (next t.entered).nodes := by
  unfold andThen at h
  split at h
  · exact .inl h
  · exact List.mem_append.1 h

section Walk

variable {enter : Document → List Name → Trail}

def Router.EntersReached (r : Router) (enter : Document → List Name → Trail) : Prop :=
  ∀ name entered node, node ∈ (enter name entered).nodes → r.PolicyReaches name node

mutual

theorem BoolExpr.within_of_walk (henter : r.EntersReached enter) (e : BoolExpr) (entered : List Name)
    (h : node ∈ (e.walk enter entered).nodes) : r.Within (.expression e) node := by
  -- a walk visits the expression itself, and then what is inside of it
  have hself : ∀ {d : BoolExpr}, node ∈ (Trail.visit (.expression d) entered).nodes →
      r.Within (.expression d) node := by
    intro d hd
    obtain rfl := List.mem_singleton.1 hd
    exact .refl
  cases e with
  | conj es | disj es | conjChain es | disjChain es =>
    rw [BoolExpr.walk] at h
    rcases mem_andThen h with h | h
    · exact hself h
    · obtain ⟨e, he, hin⟩ := within_of_walkAll henter es _ h
      exact .head (by constructor; exact he) hin
  | not e | withEnvironment e =>
    rw [BoolExpr.walk] at h
    rcases mem_andThen h with h | h
    · exact hself h
    · exact .head (by constructor) (within_of_walk henter e _ h)
  | call name =>
    rw [BoolExpr.walk] at h
    rcases mem_andThen h with h | h
    · exact hself h
    · obtain ⟨p, hp, s, hs, hin⟩ := henter _ _ _ h
      exact .head (.call hp hs) hin
  | _ => exact hself h

theorem BoolExpr.within_of_walkAll (henter : r.EntersReached enter) (es : List BoolExpr) (entered : List Name)
    (h : node ∈ (BoolExpr.walkAll enter es entered).nodes) : ∃ e ∈ es, r.Within (.expression e) node := by
  cases es with
  | nil => cases h
  | cons e rest =>
    rw [BoolExpr.walkAll] at h
    rcases mem_andThen h with h | h
    · exact ⟨e, List.mem_cons_self, within_of_walk henter e _ h⟩
    · obtain ⟨d, hd, hin⟩ := within_of_walkAll henter rest _ h
      exact ⟨d, List.mem_cons_of_mem e hd, hin⟩

end

mutual

theorem Statement.within_of_walk (henter : r.EntersReached enter) (s : Statement) (entered : List Name)
    (h : node ∈ (s.walk enter entered).nodes) : r.Within (.statement s) node := by
  have hself : ∀ {d : Statement}, node ∈ (Trail.visit (.statement d) entered).nodes → r.Within (.statement d) node := by
    intro d hd
    obtain rfl := List.mem_singleton.1 hd
    exact .refl
  cases s with
  | cond guard yes no =>
    rw [Statement.walk] at h
    rcases mem_andThen h with h | h
    · rcases mem_andThen h with h | h
      · rcases mem_andThen h with h | h
        · exact hself h
        · exact .head .guard (guard.within_of_walk henter _ h)
      · obtain ⟨s, hs, hin⟩ := reaches_of_walkAll henter yes _ h
        exact .head (.trueBranch hs) hin
    · obtain ⟨s, hs, hin⟩ := reaches_of_walkAll henter no _ h
      exact .head (.falseBranch hs) hin
  | setDefaultPolicy name =>
    rw [Statement.walk] at h
    rcases mem_andThen h with h | h
    · exact hself h
    · obtain ⟨p, hp, s, hs, hin⟩ := henter _ _ _ h
      exact .head (.defaultPolicy hp hs) hin
  | _ => exact hself h

theorem Statement.reaches_of_walkAll (henter : r.EntersReached enter) (ss : List Statement) (entered : List Name)
    (h : node ∈ (Statement.walkAll enter ss entered).nodes) : r.Reaches ss node := by
  cases ss with
  | nil => cases h
  | cons s rest =>
    rw [Statement.walkAll] at h
    rcases mem_andThen h with h | h
    · exact ⟨s, List.mem_cons_self, within_of_walk henter s _ h⟩
    · obtain ⟨d, hd, hin⟩ := reaches_of_walkAll henter rest _ h
      exact ⟨d, List.mem_cons_of_mem s hd, hin⟩

end

end Walk

namespace Router

theorem mem_enter {fuel : Nat} {name : Document} {entered : List Name} (h : node ∈ (r.enter fuel name entered).nodes) :
    ∃ p left visited, name ≠ .null ∧ r.policy name = .ok p ∧ fuel = left + 1 ∧
      node ∈ (Statement.walkAll (r.enter left) p.statements visited).nodes := by
  unfold enter at h
  split at h
  · cases h
  next hnull =>
    split at h
    · cases h
    · split at h
      · cases h
      · split at h
        next => cases h
        next p hp =>
          split at h
          · cases h
          · exact ⟨p, _, _, hnull, hp, rfl, h⟩

theorem entersReached {q : Router} (hq : ∀ name p, name ≠ .null → r.policy name = .ok p → q.policy name = .ok p)
    (fuel : Nat) : q.EntersReached (r.enter fuel) := by
  induction fuel with
  | zero =>
    intro name entered node h
    obtain ⟨p, left, visited, -, -, hfuel, -⟩ := mem_enter h
    exact absurd hfuel (by omega)
  | succ fuel ih =>
    intro name entered node h
    obtain ⟨p, left, visited, hname, hp, hfuel, h⟩ := mem_enter h
    obtain rfl := Nat.succ.inj hfuel
    exact ⟨p, hq name p hname hp, Statement.reaches_of_walkAll ih p.statements visited h⟩

/-- **A walk only visits what its statements reach.** -/
theorem reaches_of_walk {statements : List Statement} (h : node ∈ (r.walk statements).nodes) :
    r.Reaches statements node :=
  Statement.reaches_of_walkAll (entersReached (fun _ _ _ hp => hp) r.policies.length) statements [] h

end Router

end ControlPlane
