import ControlPlane.Proofs.Policy.Coverage
import ControlPlane.Proofs.Policy.Reading
import ControlPlane.Proofs.Route.Preference
import ControlPlane.Proofs.Transfer.Causes

/-!
# What policies introduce and what they leave alone

Interpreting a policy only adds fresh variables to a ledger, each with the equation that defines it.  The name of a
fresh variable is a base name, which tells what it stands for, and the next number.

A policy sets numbers, communities and the OSPF type of a route.  Whether the route exists, its area and the protocol
that it came from are those of the route that the policy started from, and a route that has an OSPF type keeps one.

* `Transfer.body_draws` follows the syntax of policies, and `Transfer.callPolicy_draws` adds the calls: what every
  modification keeps of a route is kept.  Where policies only match on communities that all routes with this property
  carry, they do not fail because of one that is not carried.
-/
namespace ControlPlane

open List

variable {found : Prop} {attach : Bool} {a : IntAttribute} {guard : Term .bool} {label : String}

/-! ## §1. Fresh variables -/

/-- A fresh variable: its base name, the number that was drawn for it, and the term that it equals. -/
inductive Fresh where
  | bool (base : String) (id : Nat) (value : Term .bool)
  | int (base : String) (id : Nat) (value : Term .int)
  | bits (base : String) (width id : Nat) (value : Term .bits)

namespace Fresh

/-- What the variable stands for. -/
def base : Fresh → String
  | bool b _ _ => b
  | int b _ _ => b
  | bits b _ _ _ => b

/-- The number that was drawn. -/
def id : Fresh → Nat
  | bool _ i _ => i
  | int _ i _ => i
  | bits _ _ i _ => i

def sort : Fresh → VariableSort
  | bool _ _ _ => .bool
  | int _ _ _ => .int
  | bits _ width _ _ => .bits width

def declared (label : String) (d : Fresh) : Variable := ⟨label ++ d.base ++ toString d.id, d.sort⟩

def equation (label : String) (d : Fresh) : Term .bool :=
  match d with
  | bool _ _ value => .eq (.boolVar (d.declared label).name) value
  | int _ _ value => .eq (.intVar (d.declared label).name) value
  | bits _ width _ value => .eq (.bitsVar (d.declared label).name width) value

/-- The base name of a variable that a policy introduces: booleans are verdicts and communities. -/
def IsNamed (cs : List Community) : Fresh → Prop
  | bool b _ _ => b ∈ ["RETURN", "RETURN-ASSIGNED"] ∨ ∃ c ∈ cs, b = c.value
  | int b _ _ => ∃ a, b = Transfer.attributeName a
  | bits b width _ _ => b = Transfer.ospfTypeName ∧ width = 2

end Fresh

def Term.isEquation : Term .bool → Bool
  | .eq _ _ => true
  | _ => false

theorem Fresh.isEquation_equation (label : String) (d : Fresh) : (d.equation label).isEquation := by
  cases d <;> rfl

namespace Ledger

/-- A ledger gained some fresh variables, in order, and requirements that are not equations. -/
inductive Draws (label : String) (cs : List Community) (l : Ledger) : List Fresh → Ledger → Prop where
  | refl : Draws label cs l [] l
  | fresh {ds : List Fresh} {l' : Ledger} (d : Fresh) (h : Draws label cs l ds l') (hid : d.id = l'.lastId + 1)
      (hnamed : d.IsNamed cs) : Draws label cs l (ds ++ [d])
        ⟨l'.declared.push (d.declared label), l'.constraints.push (d.equation label), l'.lastId + 1⟩
  | require {ds : List Fresh} {l' : Ledger} (c : Term .bool) (h : Draws label cs l ds l')
      (hc : c.isEquation = false) : Draws label cs l ds { l' with constraints := l'.constraints.push c }

variable {cs : List Community} {l l' l'' : Ledger} {ds es : List Fresh}

variable (h : Draws label cs l ds l')
include h

theorem Draws.trans (h' : Draws label cs l' es l'') : Draws label cs l (ds ++ es) l'' := by
  induction h' with
  | refl => rwa [append_nil]
  | fresh d _ hid hnamed ih =>
    rw [← append_assoc]
    exact .fresh d ih hid hnamed
  | require c _ hc ih => exact .require c ih hc

theorem Draws.vars : l'.vars = l.vars ++ ds.map (Fresh.declared label) := by
  induction h with
  | refl => exact (append_nil _).symm
  | @fresh ds l' d _ _ _ ih =>
    show (l'.declared.push _).toList = _
    rw [Array.toList_push, map_append, ← append_assoc]
    exact congrArg (· ++ _) ih
  | require _ _ _ ih => exact ih

theorem Draws.equations : ∃ since, l'.required = l.required ++ since ∧
    since.filter Term.isEquation = ds.map (Fresh.equation label) := by
  induction h with
  | refl => exact ⟨[], (append_nil _).symm, rfl⟩
  | @fresh ds l' d _ _ _ ih =>
    obtain ⟨since, hrequired, hsince⟩ := ih
    refine ⟨since ++ [d.equation label], ?_, ?_⟩
    · show (l'.constraints.push _).toList = _
      rw [Array.toList_push, ← append_assoc]
      exact congrArg (· ++ _) hrequired
    · rw [filter_append, hsince, filter_singleton, d.isEquation_equation label, map_append]
      rfl
  | @require ds l' c _ hc ih =>
    obtain ⟨since, hrequired, hsince⟩ := ih
    refine ⟨since ++ [c], ?_, ?_⟩
    · show (l'.constraints.push _).toList = _
      rw [Array.toList_push, ← append_assoc]
      exact congrArg (· ++ _) hrequired
    · rw [filter_append, hsince, filter_singleton, hc]
      exact append_nil _

/-- Numbers are drawn in order. -/
theorem Draws.ids : l'.lastId = l.lastId + ds.length ∧ ds.map Fresh.id = List.range' (l.lastId + 1) ds.length := by
  induction h with
  | refl => exact ⟨rfl, rfl⟩
  | fresh d _ hid _ ih =>
    obtain ⟨hlast, hids⟩ := ih
    rw [length_append, length_singleton]
    refine ⟨by show _ + 1 = _; omega, ?_⟩
    rw [map_append, range'_1_concat, map_singleton]
    congr 2
    omega
  | require _ _ _ ih => exact ih

theorem Draws.isNamed : ∀ d ∈ ds, d.IsNamed cs := by
  induction h with
  | refl => exact nofun
  | fresh d _ _ hnamed ih => exact forall_mem_append.2 ⟨ih, forall_mem_singleton.2 hnamed⟩
  | require _ _ _ ih => exact ih

end Ledger

/-! ## §2. Computations -/

namespace Build

variable {α β : Type} {cs : List Community}

/-- A computation only adds fresh variables and requirements, and its results have a property.  If all communities are
to be found, it does not fail because of one that is not carried. -/
def Draws (found : Prop) (label : String) (cs : List Community) (b : Build α) (P : α → Prop) : Prop :=
  ∀ l result l', b.runOn l = (result, l') → match result with
    | .ok x => (∃ ds, Ledger.Draws label cs l ds l') ∧ P x
    | .error cause => found → cause.isNotCarried = false

namespace Draws

variable {P : α → Prop} {Q : β → Prop} {b : Build α}

protected theorem pure {x : α} (h : P x) : Draws found label cs (pure x) P := by
  intro l y l' hrun
  cases hrun
  exact ⟨⟨[], .refl⟩, h⟩

protected theorem throw {f : Failure} (h : found → f.isNotCarried = false) :
    Draws found label cs (throw f : Build α) P := by
  intro l y l' hrun
  cases hrun
  exact h

protected theorem bind {f : α → Build β} (hb : b.Draws found label cs P)
    (hf : ∀ x, P x → (f x).Draws found label cs Q) : (b >>= f).Draws found label cs Q := by
  intro l y l'' hrun
  rw [runOn_bind] at hrun
  cases hfirst : b.runOn l with
  | mk result l' =>
    have hresult := hb l result l' hfirst
    rw [hfirst] at hrun
    cases result with
    | error cause =>
      cases hrun
      exact hresult
    | ok x =>
      obtain ⟨⟨ds, hds⟩, hP⟩ := hresult
      have hrest := hf x hP l' y l'' hrun
      cases y with
      | error cause => exact hrest
      | ok y =>
        obtain ⟨⟨es, hes⟩, hQ⟩ := hrest
        exact ⟨⟨ds ++ es, hds.trans hes⟩, hQ⟩

/-- What does not touch the ledger. -/
theorem lift {e : Except Failure α} {f : α → Build β} (he : found → Spares e)
    (hf : ∀ x, e = .ok x → (f x).Draws found label cs Q) : ((liftM e : Build α) >>= f).Draws found label cs Q := by
  cases e with
  | ok x => exact hf x rfl
  | error cause => exact .throw fun h => he h cause rfl

theorem foldlM {γ : Type} {f : α → γ → Build α} {xs : List γ} (hf : ∀ c ∈ xs, ∀ x, P x → (f x c).Draws found label cs P)
    {x : α} (h : P x) : (xs.foldlM f x).Draws found label cs P := by
  induction xs generalizing x with
  | nil => exact .pure h
  | cons c rest ih =>
    exact Draws.bind (hf c mem_cons_self x h) fun y hy =>
      ih (fun d hd => hf d (mem_cons_of_mem _ hd)) hy

theorem forM {γ : Type} {f : γ → Build Unit} {xs : List γ}
    (hf : ∀ c ∈ xs, (f c).Draws found label cs fun _ => True) : (xs.forM f).Draws found label cs fun _ => True := by
  induction xs with
  | nil => exact .pure trivial
  | cons c rest ih =>
    exact Draws.bind (hf c mem_cons_self) fun _ _ => ih fun d hd => hf d (mem_cons_of_mem _ hd)

theorem ok {l l' : Ledger} {x : α} (h : b.Draws False label cs P) (hrun : b.runOn l = (.ok x, l')) :
    (∃ ds, Ledger.Draws label cs l ds l') ∧ P x := h _ _ _ hrun

theorem spares (h : b.Draws True label cs P) (l : Ledger) : Spares (b.runOn l).1 :=
  fun _ hcause => h l _ _ (Prod.ext hcause rfl) trivial

theorem require {c : Term .bool} (hc : c.isEquation = false) : (require c).Draws found label cs fun _ => True := by
  intro l x l' hrun
  cases hrun
  exact ⟨⟨[], .require c .refl hc⟩, trivial⟩

end Draws

end Build

/-! ## §3. Records -/

def Record.CarriesOnly (cs : List Community) (r : Record) : Prop := ∀ e ∈ r.communities, e.1 ∈ cs

namespace Record.CarriesOnly

variable {cs : List Community} {r : Record}

theorem setInt (h : r.CarriesOnly cs) (a : IntAttribute) (t : Term .int) : (r.setInt a t).CarriesOnly cs := by
  cases a <;> exact h

theorem setCommunity (h : r.CarriesOnly cs) (c : Community) (t : Term .bool) : (r.setCommunity c t).CarriesOnly cs := by
  intro e he
  obtain ⟨d, hd, rfl⟩ := mem_map.1 he
  split <;> exact h d hd

theorem setOspfBits (h : r.CarriesOnly cs) (b : Term .bits) : (Transfer.setOspfBits r b).CarriesOnly cs := h

end Record.CarriesOnly

/-- The record `y` is `x` up to what policies set. -/
structure Record.Keeps (x y : Record) : Prop where
  permitted : y.permitted = x.permitted
  area : y.ospfArea = x.ospfArea
  history : y.history = x.history
  hasType : x.ospfType.isSome → y.ospfType.isSome
  holdsType : x.HoldsType → y.HoldsType

namespace Record.Keeps

variable {x y z : Record}

theorem refl (x : Record) : x.Keeps x := ⟨rfl, rfl, rfl, id, id⟩

theorem trans (h : x.Keeps y) (h' : y.Keeps z) : x.Keeps z :=
  ⟨h'.permitted.trans h.permitted, h'.area.trans h.area, h'.history.trans h.history,
    fun hx => h'.hasType (h.hasType hx), fun hx => h'.holdsType (h.holdsType hx)⟩

theorem setInt (x : Record) (a : IntAttribute) (t : Term .int) : x.Keeps (x.setInt a t) := by
  cases a <;> exact ⟨rfl, rfl, rfl, id, id⟩

theorem setCommunity (x : Record) (c : Community) (t : Term .bool) : x.Keeps (x.setCommunity c t) :=
  ⟨rfl, rfl, rfl, id, id⟩

theorem setOspfBits (x : Record) (b : Term .bits) : x.Keeps (Transfer.setOspfBits x b) :=
  ⟨rfl, rfl, rfl, fun _ => rfl, fun _ e he => by obtain rfl := Option.some.inj he; rfl⟩

end Record.Keeps

structure Record.IsInvariant (cs : List Community) (P : Record → Prop) : Prop where
  carries : ∀ {r}, P r → r.CarriesOnly cs
  setInt : ∀ {r}, P r → ∀ a t, P (r.setInt a t)
  setCommunity : ∀ {r}, P r → ∀ c t, P (r.setCommunity c t)
  setOspfBits : ∀ {r}, P r → ∀ b, P (Transfer.setOspfBits r b)

theorem Record.carriesOnly_isInvariant (cs : List Community) : IsInvariant cs (CarriesOnly cs) :=
  ⟨id, .setInt, .setCommunity, .setOspfBits⟩

theorem Record.keeps_isInvariant (cs : List Community) (x : Record) :
    IsInvariant cs fun r => x.Keeps r ∧ r.CarriesOnly cs where
  carries h := h.2
  setInt h a t := ⟨h.1.trans (.setInt _ a t), h.2.setInt a t⟩
  setCommunity h c t := ⟨h.1.trans (.setCommunity _ c t), h.2.setCommunity c t⟩
  setOspfBits h b := ⟨h.1.trans (.setOspfBits _ b), h.2.setOspfBits b⟩

/-! ## §4. Modifications and joins -/

namespace Transfer

variable {t : Transfer} {cs : List Community} {P : Record → Prop} {p : Param} {r : Result}

def freshLabel (t : Transfer) : String := t.frame.name ++ "SSA_"

theorem freshBool_draws {base : String} {value : Term .bool}
    (h : base ∈ ["RETURN", "RETURN-ASSIGNED"] ∨ ∃ c ∈ cs, base = c.value) :
    (t.freshBool base value).Draws found t.freshLabel cs fun _ => True := by
  intro l x l' hrun
  cases hrun
  exact ⟨⟨_, .fresh (.bool base (l.lastId + 1) value) .refl rfl h⟩, trivial⟩

theorem freshInt_draws {value : Term .int} :
    (t.freshInt (attributeName a) value).Draws found t.freshLabel cs fun _ => True := by
  intro l x l' hrun
  cases hrun
  exact ⟨⟨_, .fresh (.int (attributeName a) (l.lastId + 1) value) .refl rfl ⟨a, rfl⟩⟩, trivial⟩

theorem freshBits_draws {value : Term .bits} :
    (t.freshBits ospfTypeName 2 value).Draws found t.freshLabel cs fun _ => True := by
  intro l x l' hrun
  cases hrun
  exact ⟨⟨_, .fresh (.bits ospfTypeName 2 (l.lastId + 1) value) .refl rfl ⟨rfl, rfl⟩⟩, trivial⟩

/-- A part of a policy draws fresh variables, and leaves a route with a property behind. -/
def DrawsRoute (found : Prop) (t : Transfer) (cs : List Community) (P : Record → Prop)
    (b : Build (Result × Param)) : Prop :=
  b.Draws found t.freshLabel cs fun y => P y.2.route

theorem giveVerdict_draws {accept : Bool} (hp : P p.route) :
    t.DrawsRoute found cs P (do return (← t.giveVerdict r accept, p)) :=
  .bind (P := fun _ => True) (.bind (freshBool_draws (.inl mem_cons_self)) fun _ _ => .pure trivial)
    fun _ _ => .pure hp

theorem joinBool_draws {name : String} {yes no : Term .bool} (h : name ∈ ["RETURN", "RETURN-ASSIGNED"]) :
    (t.joinBool name guard yes no).Draws found t.freshLabel cs fun _ => True := by
  unfold joinBool
  split
  · exact .pure trivial
  · exact freshBool_draws (.inl h)

theorem joinResults_draws {before yes no : Result} :
    (t.joinResults guard before yes no).Draws found t.freshLabel cs fun _ => True :=
  .bind (joinBool_draws mem_cons_self) fun _ _ =>
    .bind (joinBool_draws (mem_cons_of_mem _ mem_cons_self)) fun _ _ => .pure trivial

section Modifications

variable (hP : Record.IsInvariant cs P)
include hP

section

variable (hp : P p.route)
include hp

theorem modifyInt_draws {new : Term .int} : t.DrawsRoute found cs P (t.modifyInt p r a new) :=
  .bind freshInt_draws fun _ _ => .pure (hP.setInt hp _ _)

theorem setAttribute_draws {e : IntExpr} : t.DrawsRoute found cs P (t.setAttribute a e p r) :=
  .lift (fun _ => .applyIntExpr _ e) fun _ _ => modifyInt_draws hP hp

theorem modifyCommunity_draws {c : Community} : t.DrawsRoute found cs P (t.modifyCommunity p r c attach) := by
  unfold modifyCommunity
  cases hc : p.route.community? c with
  | none => exact .pure hp
  | some old =>
    exact .bind (freshBool_draws (.inr ⟨c, hP.carries hp _ (mem_of_lookup_eq_some hc), rfl⟩)) fun _ _ =>
      .pure (hP.setCommunity hp _ _)

theorem modifyCommunities_draws {ds : List Community} :
    t.DrawsRoute found cs P (t.modifyCommunities attach ds p r) :=
  .foldlM (P := fun y : Result × Param => P y.2.route) (fun _ _ _ hy => modifyCommunity_draws hP hy) hp

theorem modifyOspfType_draws {type : OspfType} : t.DrawsRoute found cs P (t.modifyOspfType p r type) := by
  unfold modifyOspfType
  split
  · exact .bind freshBits_draws fun _ _ => .pure (hP.setOspfBits hp _)
  · exact .throw fun _ => rfl

end

theorem joinRecords_draws {yes no : Record} (h : P yes) :
    (t.joinRecords guard yes no).Draws found t.freshLabel cs P := by
  refine .bind (P := P) ?_ fun joined hjoined => .bind (P := P) ?_ fun joined hjoined => ?_
  · refine .foldlM (fun a _ joined hj => ?_) h
    unfold joinInt
    split
    · split
      · exact .pure hj
      · exact .bind freshInt_draws fun _ _ => .pure (hP.setInt hj _ _)
    · exact .pure hj
  · unfold joinOspfType
    dsimp only
    split
    · exact .pure hjoined
    · split
      · exact .pure hjoined
      · exact .bind freshBits_draws fun _ _ => .pure (hP.setOspfBits hjoined _)
  · refine .foldlM (fun e he joined hj => ?_) hjoined
    unfold joinCommunity
    dsimp only
    split
    · exact .pure hj
    · exact .bind (freshBool_draws (.inr ⟨e.1, hP.carries h e he, rfl⟩)) fun _ _ => .pure (hP.setCommunity hj _ _)

end Modifications

/-! ## §5. Expressions and statements -/

/-- Calls keep a property of routes. -/
def CallDraws (found : Prop) (t : Transfer) (cs : List Community) (P : Record → Prop) (call : Caller) : Prop :=
  ∀ name p r, P p.route → t.DrawsRoute found cs P (call name p r)

/-- The communities of a node can be read, and routes with a property can be matched on them. -/
def Finds (t : Transfer) (P : Record → Prop) (node : PolicyNode) : Prop :=
  ∀ wanted, Community.setOfNode? node = some wanted →
    Spares (Community.ofSet t.router wanted) ∧ ∀ x, P x → Spares (t.matchesCommunitySet x wanted)

theorem inner {node : PolicyNode} {nodes : List PolicyNode} (h : found → ∀ x ∈ node :: nodes, t.Finds P x) :
    found → ∀ x ∈ nodes, t.Finds P x := fun hfound => (forall_mem_cons.1 (h hfound)).2

variable {call : Caller} {s : Progress} {isAnd : Bool}

theorem step_draws {operand : Param → Build (Result × Param)} (h : P s.param.route)
    (hop : ∀ p : Param, P p.route → t.DrawsRoute found cs P (operand p)) :
    (s.step isAnd operand).Draws found t.freshLabel cs fun s' => P s'.param.route :=
  .bind (hop _ h) fun _ hy => .pure hy

theorem simple_draws {kind : SimpleStatement} (h : P p.route) : t.DrawsRoute found cs P (t.simple kind p r) := by
  cases kind with
  | exitAccept | returnTrue | exitReject | returnFalse | returnLocalDefaultAction => exact giveVerdict_draws h
  | setDefaultActionAccept | setDefaultActionReject | setLocalDefaultActionAccept | setLocalDefaultActionReject
  | finish => exact .pure h
  | fallThrough =>
    unfold simple
    dsimp only
    split
    · exact giveVerdict_draws h
    · exact giveVerdict_draws h
    · exact .throw fun _ => rfl

section

variable (hcall : t.CallDraws found cs P call)
include hcall

theorem endChain_draws {policy : Option Document} (h : P s.param.route) :
    (endChain call isAnd policy r s).Draws found t.freshLabel cs fun s' => P s'.param.route := by
  cases policy with
  | none => exact .pure h
  | some name => exact step_draws h fun p hp => hcall name p r hp

theorem chain_draws {isAnd skip : Bool} {es : List BoolExpr} (h : P p.route)
    (hes : (t.sequence call isAnd es r (.start isAnd (enterChain p isAnd))).Draws found t.freshLabel cs fun s =>
      P s.param.route) :
    t.DrawsRoute found cs P (do
      if skip then return (.ofExpr .yes, p)
      else
        let s ← t.sequence call isAnd es r (.start isAnd (enterChain p isAnd))
        let s ← endChain call isAnd p.defaultPolicy r s
        return (s.finish, p.setRoute s.param.route)) := by
  split
  · exact .pure h
  · exact .bind hes fun s hs => .bind (endChain_draws hcall hs) fun s' hs' => .pure hs'

end

mutual
theorem expr_draws (hcall : t.CallDraws found cs P call) (e : BoolExpr)
    (he : found → ∀ node ∈ e.nodes, t.Finds P node) {p : Param} {r : Result} (h : P p.route) :
    t.DrawsRoute found cs P (t.expr call e p r) := by
  match e with
  | .matchIpv4 | .matchIpv6 | .matchPrefix6Set _ | .const _ | .inExprCall | .inStatementCall | .matchProtocol _ =>
    exact .pure h
  | .matchForeignProtocol c => exact .lift (fun _ => .matchesForeign c) fun _ _ => .pure h
  | .matchPrefixSet wanted => exact .lift (fun _ => .matchesPrefixSet wanted) fun _ _ => .pure h
  | .matchCommunitySet wanted =>
    exact .lift (fun hfound => (he hfound _ mem_cons_self wanted rfl).2 _ h) fun _ _ => .pure h
  | .conj es | .disj es => exact .bind (sequence_draws hcall _ es (inner he) h) fun _ hs => .pure hs
  | .conjChain es | .disjChain es => exact chain_draws hcall h (sequence_draws hcall _ es (inner he) h)
  | .not e => exact .bind (expr_draws hcall e (inner he) h) fun _ hy => .pure hy
  | .call policy => exact hcall policy p r h
  | .withEnvironment e => exact expr_draws hcall e (inner he) h
  | .foreign _ cause => exact .throw fun _ => cause.isNotCarried_failure

theorem sequence_draws (hcall : t.CallDraws found cs P call) (isAnd : Bool) (es : List BoolExpr)
    (hes : found → ∀ node ∈ BoolExpr.nodesOfAll es, t.Finds P node) {r : Result} {s : Progress} (h : P s.param.route) :
    (t.sequence call isAnd es r s).Draws found t.freshLabel cs fun s' => P s'.param.route := by
  match es with
  | [] => exact .pure h
  | e :: rest =>
    have hes := fun hfound => forall_mem_append.1 (hes hfound)
    exact .bind (step_draws h fun p hp => expr_draws hcall e (fun hf => (hes hf).1) hp) fun s' hs' =>
      sequence_draws hcall isAnd rest (fun hf => (hes hf).2) hs'
end

mutual
theorem statement_draws (hcall : t.CallDraws found cs P call) (hP : Record.IsInvariant cs P) (s : Statement)
    (hs : found → ∀ node ∈ s.nodes, t.Finds P node) {p : Param} {r : Result} (h : P p.route) :
    t.DrawsRoute found cs P (t.statement call s p r) := by
  match s with
  | .simple kind => exact simple_draws h
  | .cond guard yes no =>
    have hparts := fun hfound => forall_mem_append.1 (inner hs hfound)
    have hguard := fun hfound => forall_mem_append.1 (hparts hfound).1
    refine .bind (expr_draws hcall guard (fun hf => (hguard hf).1) h) fun g hg => ?_
    refine .bind (statements_draws hcall hP yes (fun hf => (hguard hf).2) hg) fun y hy => ?_
    refine .bind (statements_draws hcall hP no (fun hf => (hparts hf).2) hg) fun z _ => ?_
    refine .bind (joinRecords_draws hP hy) fun route hroute => ?_
    exact .bind joinResults_draws fun _ _ => .pure hroute
  | .setDefaultPolicy _ | .retainCommunity _ | .setOrigin _ => exact .pure h
  | .setMetric e | .setLocalPref e => exact setAttribute_draws hP h
  | .setOspfType type => exact modifyOspfType_draws hP h
  | .setForeignOspfType _ => exact .throw fun _ => rfl
  | .foreign _ cause => exact .throw fun _ => cause.isNotCarried_failure
  | .addCommunity wanted | .deleteCommunity wanted =>
    exact .lift (fun hfound => (hs hfound _ mem_cons_self wanted rfl).1) fun _ _ => modifyCommunities_draws hP h
  | .prependAsPath path =>
    exact .lift (fun _ => .count path) fun d _ => .lift (fun _ => .integer d) fun _ _ => modifyInt_draws hP h

theorem statements_draws (hcall : t.CallDraws found cs P call) (hP : Record.IsInvariant cs P) (body : List Statement)
    (hbody : found → ∀ node ∈ Statement.nodesOfAll body, t.Finds P node) {p : Param} {r : Result} (h : P p.route) :
    t.DrawsRoute found cs P (t.statements call body p r) := by
  match body with
  | [] => exact .pure h
  | s :: rest =>
    have hbody := fun hfound => forall_mem_append.1 (hbody hfound)
    exact .bind (statement_draws hcall hP s (fun hf => (hbody hf).1) h) fun _ hy =>
      statements_draws hcall hP rest (fun hf => (hbody hf).2) hy
end

section

variable (hP : Record.IsInvariant cs P)
include hP

theorem body_draws (hcall : t.CallDraws found cs P call) (policy : List Statement)
    (hpolicy : found → ∀ node ∈ Statement.nodesOfAll policy, t.Finds P node) {p : Param} (h : P p.route) :
    t.DrawsRoute found cs P (t.body call policy p) :=
  .bind (statements_draws hcall hP policy hpolicy h) fun _ hy => giveVerdict_draws hy

theorem callPolicy_draws (t : Transfer)
    (ht : found → ∀ q ∈ t.router.policies, ∀ node ∈ Statement.nodesOfAll q.statements, t.Finds P node) (depth : Nat) :
    t.CallDraws found cs P (t.callPolicy depth) := by
  induction depth with
  | zero =>
    intro name p r _
    exact .lift (fun _ => .policy _ name) fun _ _ => .throw fun _ => rfl
  | succ depth ih =>
    intro name p r h
    refine .lift (fun _ => .policy _ name) fun policy hpolicy => ?_
    exact .bind (body_draws hP ih policy.statements (fun hf => ht hf policy (Policy.mem_policies hpolicy)) h)
      fun _ hy => .pure hy

/-! ## §6. Transfers -/

theorem aggregated_draws {route : Record} (h : P route) : (t.aggregated route).Draws found t.freshLabel cs P := by
  unfold aggregated
  dsimp only
  split
  · exact .pure h
  · split
    · exact .throw fun _ => rfl
    · exact .bind freshInt_draws fun _ _ => .pure (hP.setInt h _ _)

/-- **A transfer only adds fresh variables**, named for attributes, verdicts and the communities of its source, if its
policy does. -/
theorem compute_draws {policy : List Statement} (h : P t.source) (hbody : ∀ p : Param, P p.route →
    t.DrawsRoute found cs P (t.body (t.callPolicy t.callDepth) policy p)) :
    (t.compute policy).Draws found t.freshLabel cs fun _ => True := by
  refine .bind (aggregated_draws hP h) fun route hroute => .bind (hbody _ ?_) fun x _ =>
    .lift (fun _ => .relate x.1) fun _ _ => .pure trivial
  dsimp only
  split
  · exact hP.setInt hroute _ _
  · exact hroute

end

end Transfer

end ControlPlane
