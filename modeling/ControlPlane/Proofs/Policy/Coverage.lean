import ControlPlane.Proofs.Ledger.Run
import ControlPlane.Proofs.Policy.Reach
import Mathlib.Data.List.Perm.Basic

/-!
# Walks are complete

Policies may call themselves and each other.  A walk comes to its end all the same, because a policy is entered once;
it visits what its statements reach, and fails exactly if something that they reach names a policy that is not there.
-/
namespace ControlPlane

open List Trail Statement

variable {node : PolicyNode} {own : List PolicyNode} {before : List Name} {r : Router} {t : Trail}
  {enter : Document → List Name → Trail} {fuel : Nat}

/-! ## §1. Nodes without the policies that they name -/

mutual
def BoolExpr.nodes : BoolExpr → List PolicyNode
  | .conj es => .expression (.conj es) :: BoolExpr.nodesOfAll es
  | .disj es => .expression (.disj es) :: BoolExpr.nodesOfAll es
  | .conjChain es => .expression (.conjChain es) :: BoolExpr.nodesOfAll es
  | .disjChain es => .expression (.disjChain es) :: BoolExpr.nodesOfAll es
  | .not e => .expression (.not e) :: e.nodes
  | .withEnvironment e => .expression (.withEnvironment e) :: e.nodes
  | e => [.expression e]

def BoolExpr.nodesOfAll : List BoolExpr → List PolicyNode
  | [] => []
  | e :: rest => e.nodes ++ BoolExpr.nodesOfAll rest
end

mutual
def Statement.nodes : Statement → List PolicyNode
  | .cond guard yes no =>
    .statement (.cond guard yes no) :: (guard.nodes ++ Statement.nodesOfAll yes ++ Statement.nodesOfAll no)
  | s => [.statement s]

def Statement.nodesOfAll : List Statement → List PolicyNode
  | [] => []
  | s :: rest => s.nodes ++ Statement.nodesOfAll rest
end

theorem BoolExpr.nodes_sub {e : BoolExpr} {es : List BoolExpr} (h : e ∈ es) : e.nodes ⊆ BoolExpr.nodesOfAll es := by
  induction es with
  | nil => cases h
  | cons d rest ih =>
    rcases mem_cons.1 h with rfl | h
    · exact subset_append_left _ _
    · exact fun x hx => mem_append_right _ (ih h hx)

theorem Statement.nodes_sub {s : Statement} {ss : List Statement} (h : s ∈ ss) :
    s.nodes ⊆ Statement.nodesOfAll ss := by
  induction ss with
  | nil => cases h
  | cons d rest ih =>
    rcases mem_cons.1 h with rfl | h
    · exact subset_append_left _ _
    · exact fun x hx => mem_append_right _ (ih h hx)

namespace PolicyNode

def nodes : PolicyNode → List PolicyNode
  | .statement s => s.nodes
  | .expression e => e.nodes

theorem mem_nodes (node : PolicyNode) : node ∈ node.nodes := by
  cases node with
  | statement s => cases s <;> exact mem_cons_self
  | expression e => cases e <;> exact mem_cons_self

def policy? : PolicyNode → Option Document
  | .expression (.call name) => some name
  | .statement (.setDefaultPolicy name) => some name
  | _ => none

def Names (node : PolicyNode) (name : Document) : Prop := node.policy? = some name ∧ name ≠ .null

end PolicyNode

/-! ## §2. Policies that can be entered -/

namespace Router

variable {p : RoutingPolicy} {name : Document}

def named (r : Router) : Router := { r with policies := r.policies.filter fun p => p.name != .absent }

def body (r : Router) (a : Name) : List PolicyNode :=
  ((findNamed? RoutingPolicy.name r.policies a).map fun p => Statement.nodesOfAll p.statements).getD []

def left (r : Router) (entered : List Name) : Nat := (r.policies.filter fun p => !entered.contains p.name).length

theorem left_le {new entered : List Name} : r.left (new ++ entered) ≤ r.left entered := by
  refine Sublist.length_le (monotone_filter_right _ fun p hp => ?_)
  simp only [contains_append, Bool.not_or, Bool.and_eq_true] at hp
  exact hp.2

theorem left_lt (hp : p ∈ r.policies) (hnew : before.contains p.name = false) :
    r.left (p.name :: before) < r.left before := by
  have hfilter : (r.policies.filter fun q => !(p.name :: before).contains q.name) =
      (r.policies.filter fun q => !before.contains q.name).filter fun q => q.name != p.name := by
    rw [filter_filter]
    refine filter_congr fun q _ => ?_
    rw [contains_cons, Bool.not_or]
    rfl
  unfold left
  rw [hfilter]
  exact length_filter_lt_length_iff_exists.2 ⟨p, mem_filter.2 ⟨hp, by rw [hnew]; rfl⟩, by simp⟩

theorem policy_eq {a : Name} (h : Name.ofDocument? name = some a) :
    r.policy name = match findNamed? RoutingPolicy.name r.policies a with
      | some p => .ok p
      | none => .error (.configuration (.undefinedPolicy r.name.shown name.shown)) := by
  unfold policy Document.asName
  rw [h]
  rfl

theorem find_of_policy {a : Name} (h : Name.ofDocument? name = some a)
    (hp : r.policy name = .ok p) : findNamed? RoutingPolicy.name r.policies a = some p := by
  rw [policy_eq h] at hp
  split at hp <;> cases hp
  assumption

theorem body_eq {a : Name} (h : findNamed? RoutingPolicy.name r.policies a = some p) :
    r.body a = Statement.nodesOfAll p.statements := by
  unfold body
  rw [h]
  rfl

theorem policy_error (h : Name.ofDocument? name = none) : r.policy name = .error .shape := by
  unfold policy Document.asName
  rw [h]
  rfl

theorem policy_named (hnull : name ≠ .null) : r.named.policy name = r.policy name := by
  cases hname : Name.ofDocument? name with
  | none => rw [policy_error hname, policy_error hname]
  | some a =>
    have ha : a ≠ .absent := by
      rintro rfl
      cases name with
      | null => exact hnull rfl
      | _ => cases hname
    have hfind : findNamed? RoutingPolicy.name r.named.policies a = findNamed? RoutingPolicy.name r.policies a := by
      unfold findNamed? named
      rw [find?_filter]
      congr 1
      funext p
      by_cases hp : p.name = a <;> simp [hp, ha]
    rw [policy_eq hname, policy_eq hname, hfind]
    rfl

theorem policy_null : r.named.policy .null ≠ .ok p := by
  have hnone : findNamed? RoutingPolicy.name r.named.policies .absent = none := by
    refine find?_eq_none.2 fun q hq => ?_
    simpa using (mem_filter.1 hq).2
  rw [policy_eq rfl, hnone]
  exact nofun

end Router

/-! ## §3. Walks from policies that were entered -/

namespace Trail

/-- What a walk does from the policies that were entered before it.  When it comes to its end, it has visited the nodes
that it is about and those of the policies that it entered, each as often as it stands there, and all that is named has
been entered.  Otherwise some node names a policy that is not there. -/
structure Expands (r : Router) (own : List PolicyNode) (before : List Name) (t : Trail) : Prop where
  distinct : before.Nodup → t.entered.Nodup
  names : ∃ new, t.entered = new ++ before ∧ (t.failure = none → t.nodes.Perm (own ++ new.flatMap r.body) ∧
    ∀ a ∈ new, (findNamed? RoutingPolicy.name r.policies a).isSome)
  named : t.failure = none → ∀ node ∈ t.nodes, ∀ name, node.Names name → ∃ a ∈ t.entered, Name.ofDocument? name = some a
  failed : ∀ f, t.failure = some f → ∃ node ∈ t.nodes, ∃ name, node.Names name ∧ r.policy name = .error f

theorem Expands.nothing : ({ entered := before } : Trail).Expands r [] before where
  distinct := id
  names := ⟨[], rfl, fun _ => ⟨.refl _, nofun⟩⟩
  named _ := nofun
  failed := nofun

theorem Expands.visit (node : PolicyNode) (h : node.policy? = none) : (visit node before).Expands r [node] before where
  distinct := id
  names := ⟨[], rfl, fun _ => ⟨.refl _, nofun⟩⟩
  named _ := by
    intro node' hnode' name hname
    obtain rfl := mem_singleton.1 hnode'
    cases h.symm.trans hname.1
  failed := nofun

/-- **A walk goes on with another one.** -/
theorem Expands.andThen {own' : List PolicyNode} {next : List Name → Trail} (h : t.Expands r own before)
    (hnext : (next t.entered).Expands r own' t.entered) : (t.andThen next).Expands r (own ++ own') before := by
  obtain ⟨new, hnew, hperm⟩ := h.names
  unfold Trail.andThen
  cases hfailure : t.failure with
  | some f =>
    have hstops : t.failure ≠ none := by simp [hfailure]
    exact ⟨h.distinct, ⟨new, hnew, (absurd · hstops)⟩, (absurd · hstops), h.failed⟩
  | none =>
    obtain ⟨new', hnew', hperm'⟩ := hnext.names
    obtain ⟨hnodes, hdefined⟩ := hperm hfailure
    refine ⟨fun hbefore => hnext.distinct (h.distinct hbefore), ⟨new' ++ new, ?_, fun hend => ?_⟩, fun hend => ?_, ?_⟩
    · rw [append_assoc, ← hnew]
      exact hnew'
    · obtain ⟨hnodes', hdefined'⟩ := hperm' hend
      refine ⟨?_, fun a ha => (mem_append.1 ha).elim (hdefined' a) (hdefined a)⟩
      rw [flatMap_append]
      calc t.nodes ++ (next t.entered).nodes
        _ ~ own ++ new.flatMap r.body ++ (own' ++ new'.flatMap r.body) := hnodes.append hnodes'
        _ ~ own ++ own' ++ (new.flatMap r.body ++ new'.flatMap r.body) := by
            rw [append_assoc, append_assoc]
            exact (perm_append_comm_assoc _ _ _).append_left own
        _ ~ _ := perm_append_comm.append_left _
    · intro node hnode name hname
      rcases mem_append.1 hnode with hnode | hnode
      · obtain ⟨a, ha, heq⟩ := h.named hfailure node hnode name hname
        exact ⟨a, by rw [hnew']; exact mem_append_right _ ha, heq⟩
      · exact hnext.named hend node hnode name hname
    · intro f hf
      obtain ⟨node, hnode, hundefined⟩ := hnext.failed f hf
      exact ⟨node, mem_append_right _ hnode, hundefined⟩

theorem Expands.left_le (h : t.Expands r own before) (hleft : r.left before ≤ fuel) : r.left t.entered ≤ fuel := by
  obtain ⟨new, hnew, -⟩ := h.names
  rw [hnew]
  exact Nat.le_trans Router.left_le hleft

end Trail

/-- Entering what a node names is as a walk should be, when few policies are left. -/
def Router.Enters (r : Router) (enter : Document → List Name → Trail) (fuel : Nat) : Prop :=
  ∀ node name before, node.policy? = some name → r.left before ≤ fuel →
    ((Trail.visit node before).andThen (enter name)).Expands r [node] before

section Walk

mutual

theorem BoolExpr.walk_expands (henter : r.Enters enter fuel) (e : BoolExpr) (before : List Name)
    (hleft : r.left before ≤ fuel) :
    (e.walk enter before).Expands r e.nodes before := by
  cases e with
  | conj es | disj es | conjChain es | disjChain es =>
    rw [BoolExpr.walk, BoolExpr.nodes]
    exact (Expands.visit _ rfl).andThen (walkAll_expands henter es before hleft)
  | not e | withEnvironment e =>
    rw [BoolExpr.walk, BoolExpr.nodes]
    exact (Expands.visit _ rfl).andThen (walk_expands henter e before hleft)
  | call name => exact henter _ name before rfl hleft
  | _ => exact Expands.visit _ rfl

theorem BoolExpr.walkAll_expands (henter : r.Enters enter fuel) (es : List BoolExpr) (before : List Name)
    (hleft : r.left before ≤ fuel) :
    (BoolExpr.walkAll enter es before).Expands r (BoolExpr.nodesOfAll es) before := by
  cases es with
  | nil => exact Expands.nothing
  | cons e rest =>
    have he := walk_expands henter e before hleft
    rw [BoolExpr.walkAll, BoolExpr.nodesOfAll]
    exact he.andThen (walkAll_expands henter rest _ (he.left_le hleft))

end

mutual

theorem Statement.walk_expands (henter : r.Enters enter fuel) (s : Statement) (before : List Name)
    (hleft : r.left before ≤ fuel) :
    (s.walk enter before).Expands r s.nodes before := by
  cases s with
  | cond guard yes no =>
    rw [Statement.walk, Statement.nodes]
    have hguard := (Expands.visit (.statement (.cond guard yes no)) rfl).andThen
      (guard.walk_expands henter before hleft)
    have hyes := hguard.andThen (walkAll_expands henter yes _ (hguard.left_le hleft))
    exact hyes.andThen (walkAll_expands henter no _ (hyes.left_le hleft))
  | setDefaultPolicy name => exact henter _ name before rfl hleft
  | _ => exact Expands.visit _ rfl

theorem Statement.walkAll_expands (henter : r.Enters enter fuel) (ss : List Statement) (before : List Name)
    (hleft : r.left before ≤ fuel) :
    (Statement.walkAll enter ss before).Expands r (Statement.nodesOfAll ss) before := by
  cases ss with
  | nil => exact Expands.nothing
  | cons s rest =>
    have hs := walk_expands henter s before hleft
    rw [Statement.walkAll, Statement.nodesOfAll]
    exact hs.andThen (walkAll_expands henter rest _ (hs.left_le hleft))

end

end Walk

/-! ## §4. Walks of routers -/

namespace Router

variable {name : Document} {a : Name}

/-- A node that names nothing to enter is visited on its own. -/
theorem expands_only {f : Option Failure} (new : List Name) (hnode : node.policy? = some name)
    (hdistinct : before.Nodup → (new ++ before).Nodup) (hend : f = none → new = [] ∧
      (name ≠ .null → ∃ a ∈ before, Name.ofDocument? name = some a))
    (hfailed : ∀ g, f = some g → name ≠ .null ∧ r.policy name = .error g) :
    Expands r [node] before ⟨[node], new ++ before, f⟩ where
  distinct := hdistinct
  names := ⟨new, rfl, fun hf => by rw [(hend hf).1]; exact ⟨.refl _, nofun⟩⟩
  named hf node' hnode' d hd := by
    obtain rfl := mem_singleton.1 hnode'
    obtain rfl := Option.some.inj (hnode.symm.trans hd.1)
    obtain ⟨a, ha, heq⟩ := (hend hf).2 hd.2
    exact ⟨a, mem_append_right _ ha, heq⟩
  failed g hg := ⟨node, mem_singleton_self _, name, ⟨hnode, (hfailed g hg).1⟩, (hfailed g hg).2⟩

theorem expands_body {p : RoutingPolicy} (hnode : node.policy? = some name) (ha : Name.ofDocument? name = some a)
    (hp : findNamed? RoutingPolicy.name r.policies a = some p) (hnew : before.Nodup → (a :: before).Nodup)
    (h : t.Expands r (Statement.nodesOfAll p.statements) (a :: before)) :
    Expands r [node] before ⟨node :: t.nodes, t.entered, t.failure⟩ := by
  obtain ⟨new, hentered, hperm⟩ := h.names
  constructor
  · exact h.distinct ∘ hnew
  · refine ⟨new ++ [a], by rw [append_assoc]; exact hentered, fun hend => ?_⟩
    obtain ⟨hnodes, hdefined⟩ := hperm hend
    refine ⟨.cons node ?_, fun b hb => ?_⟩
    · rw [flatMap_append, flatMap_singleton, body_eq hp]
      exact hnodes.trans perm_append_comm
    · rcases mem_append.1 hb with hb | hb
      · exact hdefined b hb
      · rw [mem_singleton.1 hb, hp]
        rfl
  · intro hend node' hnode' d hd
    rcases mem_cons.1 hnode' with rfl | hnode'
    · obtain rfl := Option.some.inj (hnode.symm.trans hd.1)
      exact ⟨a, by rw [hentered]; exact mem_append_right _ mem_cons_self, ha⟩
    · exact h.named hend node' hnode' d hd
  · intro f hf
    obtain ⟨node', hnode', hundefined⟩ := h.failed f hf
    exact ⟨node', mem_cons_of_mem _ hnode', hundefined⟩

theorem enters_of_bodies (h : ∀ p ∈ r.policies, ∀ before, r.left before ≤ fuel → before.contains p.name = false →
      ∃ fuel', fuel = fuel' + 1 ∧ (Statement.walkAll (r.enter fuel') p.statements (p.name :: before)).Expands r
        (Statement.nodesOfAll p.statements) (p.name :: before)) : r.Enters (r.enter fuel) fuel := by
  intro node name before hnode hleft
  suffices hu : ∀ u, r.enter fuel name before = u → Expands r [node] before ⟨node :: u.nodes, u.entered, u.failure⟩ from
    hu _ rfl
  intro u hu
  unfold enter at hu
  split at hu
  · subst hu
    exact expands_only [] hnode id (fun _ => ⟨rfl, absurd rfl⟩) (by rintro _ ⟨⟩)
  next hnull =>
    split at hu
    next hname =>
      subst hu
      refine expands_only [] hnode id (by rintro ⟨⟩) ?_
      rintro g ⟨⟩
      exact ⟨hnull, policy_error hname⟩
    next a ha =>
      split at hu
      next hold =>
        subst hu
        exact expands_only [] hnode id (fun _ => ⟨rfl, fun _ => ⟨a, contains_iff_mem.1 hold, ha⟩⟩)
          (by rintro _ ⟨⟩)
      next hnew =>
        have hdistinct : before.Nodup → (a :: before).Nodup :=
          nodup_cons.2 ∘ And.intro fun h => hnew (contains_iff_mem.2 h)
        split at hu
        next f hf =>
          subst hu
          refine expands_only [a] hnode hdistinct (by rintro ⟨⟩) ?_
          rintro g ⟨⟩
          exact ⟨hnull, hf⟩
        next p hp =>
          have hfind := find_of_policy ha hp
          obtain rfl : p.name = a := beq_iff_eq.1 (find?_some (p := fun q : RoutingPolicy => q.name == a) hfind)
          obtain ⟨fuel', rfl, hbody⟩ := h p (mem_of_find?_eq_some hfind) before hleft (by simpa using hnew)
          subst hu
          exact expands_body hnode ha hfind hdistinct hbody

/-- **Every entry leaves fewer policies to enter**, so that as much fuel as there are policies is enough. -/
theorem enters (fuel : Nat) : r.Enters (r.enter fuel) fuel := by
  induction fuel with
  | zero => exact enters_of_bodies fun p hp before hleft hnew => absurd (left_lt hp hnew) (by omega)
  | succ fuel ih =>
    refine enters_of_bodies fun p hp before hleft hnew => ?_
    have hless := left_lt hp hnew
    exact ⟨fuel, rfl, walkAll_expands ih p.statements _ (by omega)⟩

variable {statements : List Statement}

theorem walk_expands (r : Router) (statements : List Statement) :
    (r.walk statements).Expands r (Statement.nodesOfAll statements) [] :=
  walkAll_expands (enters r.policies.length) statements [] (length_filter_le _ _)

theorem nodes_of_holds {next : PolicyNode} (hend : (r.walk statements).failure = none)
    (hnode : node.nodes ⊆ (r.walk statements).nodes) (h : node.Holds r.named next) :
    next.nodes ⊆ (r.walk statements).nodes := by
  obtain ⟨new, hnew, hperm⟩ := (r.walk_expands statements).names
  -- a policy that is named was entered
  have hbody : ∀ {name : Document} {p : RoutingPolicy} {s : Statement}, node.policy? = some name →
      r.named.policy name = .ok p → s ∈ p.statements → s.nodes ⊆ (r.walk statements).nodes := by
    intro name p s hname hp hs x hx
    have hnull : name ≠ .null := by
      rintro rfl
      exact policy_null hp
    obtain ⟨a, ha, heq⟩ := (r.walk_expands statements).named hend node (hnode node.mem_nodes) name ⟨hname, hnull⟩
    rw [policy_named hnull] at hp
    rw [hnew, append_nil] at ha
    refine (hperm hend).1.mem_iff.2 (mem_append_right _ (mem_flatMap.2 ⟨a, ha, ?_⟩))
    rw [body_eq (find_of_policy heq hp)]
    exact nodes_sub hs hx
  cases h with
  | conj mem | disj mem | conjChain mem | disjChain mem =>
    exact fun x hx => hnode (mem_cons_of_mem _ (BoolExpr.nodes_sub mem hx))
  | not | withEnvironment => exact fun x hx => hnode (mem_cons_of_mem _ hx)
  | call policy mem => exact hbody rfl policy mem
  | guard => exact fun x hx => hnode (mem_cons_of_mem _ (mem_append_left _ (mem_append_left _ hx)))
  | trueBranch mem =>
    exact fun x hx => hnode (mem_cons_of_mem _ (mem_append_left _ (mem_append_right _ (nodes_sub mem hx))))
  | falseBranch mem => exact fun x hx => hnode (mem_cons_of_mem _ (mem_append_right _ (nodes_sub mem hx)))
  | defaultPolicy policy mem => exact hbody rfl policy mem

theorem reaches_named (h : node ∈ (r.walk statements).nodes) : r.named.Reaches statements node :=
  reaches_of_walkAll (entersReached (fun _ _ hname hp => (policy_named hname).trans hp) _) statements [] h

theorem mem_walk_iff (hend : (r.walk statements).failure = none) :
    node ∈ (r.walk statements).nodes ↔ r.named.Reaches statements node := by
  refine ⟨reaches_named, ?_⟩
  rintro ⟨s, hs, hwithin⟩
  obtain ⟨new, -, hperm⟩ := (r.walk_expands statements).names
  suffices h : node.nodes ⊆ (r.walk statements).nodes from h node.mem_nodes
  induction hwithin with
  | refl => exact fun x hx => (hperm hend).1.mem_iff.2 (mem_append_left _ (nodes_sub hs hx))
  | tail _ hholds ih => exact nodes_of_holds hend ih hholds

/-- **Walks are complete.**  Whatever policies call, a walk comes to its end exactly if every policy is there that is
named by something that its statements reach.  It then visits what they reach, and has walked the body of each called
policy once.  Otherwise it fails with the name of a policy that is not there. -/
theorem walk_isComplete (r : Router) (statements : List Statement) :
    ((r.walk statements).failure = none ↔
      ∀ node name, r.named.Reaches statements node → node.Names name → ∃ p, r.policy name = .ok p) ∧
    ((r.walk statements).failure = none →
      (∀ node, node ∈ (r.walk statements).nodes ↔ r.named.Reaches statements node) ∧
      (r.walk statements).entered.Nodup ∧
      (r.walk statements).nodes.Perm (Statement.nodesOfAll statements ++ (r.walk statements).entered.flatMap r.body)) ∧
    ∀ f, (r.walk statements).failure = some f → ∃ node name, r.named.Reaches statements node ∧ node.Names name ∧
      r.policy name = .error f ∧ (name.isScalar → f = .configuration (.undefinedPolicy r.name.shown name.shown)) := by
  have hwalk := r.walk_expands statements
  obtain ⟨new, hnew, hperm⟩ := hwalk.names
  rw [append_nil] at hnew
  refine ⟨⟨fun hend node name hnode hname => ?_, fun hall => ?_⟩,
    fun hend => ⟨fun node => mem_walk_iff hend, hwalk.distinct nodup_nil, ?_⟩, fun f hf => ?_⟩
  · obtain ⟨a, ha, heq⟩ := hwalk.named hend node ((mem_walk_iff hend).2 hnode) name hname
    obtain ⟨p, hp⟩ := Option.isSome_iff_exists.1 ((hperm hend).2 a (hnew ▸ ha))
    exact ⟨p, by rw [policy_eq heq, hp]⟩
  · cases hf : (r.walk statements).failure with
    | none => rfl
    | some f =>
      obtain ⟨node, hnode, name, hname, hundefined⟩ := hwalk.failed f hf
      obtain ⟨p, hp⟩ := hall node name (reaches_named hnode) hname
      cases hundefined.symm.trans hp
  · rw [hnew]
    exact (hperm hend).1
  · obtain ⟨node, hnode, name, hname, hundefined⟩ := hwalk.failed f hf
    refine ⟨node, name, reaches_named hnode, hname, hundefined, fun hscalar => ?_⟩
    cases hkey : Name.ofDocument? name with
    | none =>
      cases name with
      | list _ | object _ => cases hscalar
      | _ => cases hkey
    | some a =>
      rw [policy_eq hkey] at hundefined
      split at hundefined <;> cases hundefined
      rfl

end Router

end ControlPlane
