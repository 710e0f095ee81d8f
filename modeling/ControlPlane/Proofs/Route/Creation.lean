import ControlPlane.Proofs.Ledger.Run
import ControlPlane.Route.Record

/-!
# The records that a plan gives

Creating a record declares a variable for every attribute that the plan wants.  The record does not depend
on the ledger: `Record.planned` is what comes out, and `Record.declarations` are the variables that were
declared for it.
-/
namespace ControlPlane

open Build

variable {f : Frame} {router : Name} {p : Protocol} {x : Record} {plan : RouterPlan} {name : String} {wanted : Bool}
  {l l' : Ledger}

/-! ## §1. Variables and enumerations -/

def Term.variable? {ty : Ty} : Term ty → Option Variable
  | .boolVar name => some ⟨name, .bool⟩
  | .intVar name => some ⟨name, .int⟩
  | .bitsVar name width => some ⟨name, .bits width⟩
  | _ => none

namespace Enumeration

variable {α : Type} {values : List α}

def planned (name : String) (values : List α) : Enumeration α :=
  if widthFor values.length == 0 then { name, values }
  else { name, values, bits := some (.bitsVar name (widthFor values.length)) }

def declarations (e : Enumeration α) : List Variable := (e.bits.bind Term.variable?).toList

def bounds (e : Enumeration α) : List (Term .bool) := (e.bits.bind (bound? e.values.length)).toList

@[simp] theorem planned_values (name : String) (values : List α) : (planned name values).values = values := by
  unfold planned
  split <;> rfl

theorem widthFor_ne_zero {size : Nat} (h : 1 < size) : widthFor size ≠ 0 := by
  rw [widthFor, if_neg (Nat.not_le.2 h)]
  exact Nat.succ_ne_zero _

theorem bits_planned (h : 1 < values.length) :
    (planned name values).bits = some (.bitsVar name (widthFor values.length)) := by
  rw [planned, if_neg (by simpa using widthFor_ne_zero h)]

theorem bits_planned_of_le (h : values.length ≤ 1) : (planned name values).bits = none := by
  rw [planned, widthFor, if_pos h]
  rfl

theorem bounds_of_fillsWidth (h : fillsWidth values.length) : (planned name values).bounds = [] := by
  simp [bounds, bound?, h]

theorem create_extends {e : Enumeration α} (h : (create name values).runOn l = (.ok e, l')) :
    e = planned name values ∧ l.Extends l' e.declarations e.bounds := by
  unfold create at h
  unfold planned
  dsimp only at h
  split at h
  next hw =>
    obtain ⟨rfl, rfl⟩ := runOn_pure_ok.1 h
    exact ⟨by rw [if_pos hw], .refl l⟩
  next hw =>
    obtain ⟨bits, l₁, hbits, h⟩ := runOn_bind_ok.1 h
    obtain ⟨u, l₂, hreq, h⟩ := runOn_bind_ok.1 h
    obtain ⟨rfl, rfl⟩ := runOn_pure_ok.1 h
    obtain ⟨rfl, hext⟩ := runOn_newBits hbits
    exact ⟨by rw [if_neg hw], hext.trans (runOn_requireAll hreq)⟩

theorem createOf_extends {values : List Document} {e : Enumeration Document}
    (h : (createOf name values).runOn l = (.ok e, l')) :
    e = planned name values ∧ l.Extends l' e.declarations e.bounds := by
  unfold createOf createAmong at h
  split at h
  · exact create_extends h
  · exact absurd h runOn_throw_ok

end Enumeration

/-! ## §2. Records -/

def Frame.planFor (f : Frame) (router : Name) : RouterPlan :=
  (f.plan.router? router).getD { router, protocols := [], aggregates := [], needsBgpInternal := false }

theorem Frame.planFor_eq (h : f.plan.router? router = some plan) : f.planFor router = plan := by
  rw [planFor, h, Option.getD_some]

theorem Frame.getD_planFor {α : Type} (f : Frame) (router : Name) (g : RouterPlan → α) :
    ((f.plan.router? router).map g).getD (g { router, protocols := [], aggregates := [], needsBgpInternal := false }) =
      g (f.planFor router) :=
  Option.getD_map ..

namespace Record

theorem runOn_whenWanted {α : Type} {b : Build α} {y : Option α} (h : (whenWanted wanted b).runOn l = (.ok y, l')) :
    (wanted ∧ ∃ x, y = some x ∧ b.runOn l = (.ok x, l')) ∨ (wanted = false ∧ y = none ∧ l = l') := by
  cases wanted with
  | true =>
    obtain ⟨x, l₁, hx, h⟩ := runOn_bind_ok.1 h
    obtain ⟨rfl, rfl⟩ := runOn_pure_ok.1 h
    exact .inl ⟨rfl, x, rfl, hx⟩
  | false =>
    obtain ⟨rfl, rfl⟩ := runOn_pure_ok.1 h
    exact .inr ⟨rfl, rfl, rfl⟩

def numberIf (wanted : Bool) (name : String) (a : IntAttribute) : Option (Term .int) :=
  if wanted then some (.intVar (name ++ "_" ++ a.suffix)) else none

def optional {ty : Ty} (t : Option (Term ty)) : List Variable := (t.bind Term.variable?).toList

/-- The mark of a route that was learned over iBGP. -/
def internalIf (wanted : Bool) (name : String) : Option (Term .bool) :=
  if wanted then some (.boolVar (name ++ "_bgpInternal")) else none

def typeIf (wanted : Bool) (name : String) : Option (Enumeration OspfType) :=
  if wanted then some (.planned (name ++ "_ospfType") OspfType.all) else none

theorem runOn_internalIf {y : Option (Term .bool)}
    (h : (whenWanted wanted (Build.newBool (name ++ "_bgpInternal"))).runOn l = (.ok y, l')) :
    y = internalIf wanted name ∧ l.Extends l' (optional y) [] := by
  rcases runOn_whenWanted h with ⟨rfl, x, rfl, hx⟩ | ⟨rfl, rfl, rfl⟩
  · obtain ⟨rfl, hext⟩ := runOn_newBool hx
    exact ⟨rfl, hext⟩
  · exact ⟨rfl, .refl l⟩

theorem runOn_typeIf {y : Option (Enumeration OspfType)}
    (h : (whenWanted wanted (Enumeration.createOspfType (name ++ "_ospfType"))).runOn l = (.ok y, l')) :
    y = typeIf wanted name ∧ l.Extends l' ((y.map Enumeration.declarations).getD []) [] := by
  rcases runOn_whenWanted h with ⟨rfl, x, rfl, hx⟩ | ⟨rfl, rfl, rfl⟩
  · -- the four types fill two bits, so there is no bound
    obtain ⟨rfl, hext⟩ := Enumeration.create_extends hx
    have hfills : Enumeration.fillsWidth OspfType.all.length := by decide
    exact ⟨rfl, Enumeration.bounds_of_fillsWidth hfills ▸ hext⟩
  · exact ⟨rfl, .refl l⟩

theorem runOn_numberIf {a : IntAttribute} {y : Option (Term .int)}
    (h : (whenWanted wanted (Build.newInt (name ++ "_" ++ a.suffix))).runOn l = (.ok y, l')) :
    y = numberIf wanted name a ∧ l.Extends l' (optional y) [] := by
  rcases runOn_whenWanted h with ⟨rfl, x, rfl, hx⟩ | ⟨rfl, rfl, rfl⟩
  · obtain ⟨rfl, hext⟩ := runOn_newInt hx
    exact ⟨rfl, hext⟩
  · exact ⟨rfl, .refl l⟩

def wantsArea (plan : RouterPlan) (name : String) (p : Protocol) : Bool :=
  (unused name p).isBest && plan.protocolList.contains .ospf && (p == .ospf || p == .best)

/-- The areas that a record tells apart. -/
def areasFor (f : Frame) (name : String) (router : Name) (p : Protocol) : Except Failure (List Document) :=
  if wantsArea (f.planFor router) name p then Document.sorted (f.topology.areas router) else .ok []

def wantsId (plan : RouterPlan) (name : String) (p : Protocol) : Bool :=
  if p == .best then plan.needsRouterId
  else (unused name p).isBest && ((plan.protocol? p).map ProtocolPlan.needsRouterId).getD false

/-- Whether a record carries communities. -/
def wantsCommunities (plan : RouterPlan) (p : Protocol) : Bool :=
  p == .bgp || (plan.protocolList.contains .bgp && p == .best)

def areaOf (name : String) (areas : List Document) : Option (Enumeration Document) :=
  if 1 < areas.length then some (.planned (name ++ "_ospfArea") areas) else none

def communitiesOf (f : Frame) (plan : RouterPlan) (name : String) (p : Protocol) :
    List (Community × Term .bool) :=
  if wantsCommunities plan p then f.communities.map fun c => (c, .boolVar (name ++ communitySuffix c)) else []

def planned (f : Frame) (name : String) (router : Name) (p : Protocol)
    (history : Option (Enumeration Protocol) := none) : Record :=
  let plan := f.planFor router
  let shape := shapeFor f.plan plan p (unused name p).isOverall
  { name, protocol := p
    permitted := some (.boolVar (name ++ "_permitted"))
    prefixLength := some (.intVar (name ++ "_" ++ IntAttribute.prefixLength.suffix))
    adminDist := numberIf shape.adminDist name .adminDist
    localPref := numberIf shape.localPref name .localPref
    metric := numberIf shape.metric name .metric
    med := numberIf shape.med name .med
    routerId := numberIf (wantsId plan name p) name .routerId
    bgpInternal := internalIf shape.bgpInternal name
    ospfArea := areaOf name ((areasFor f name router p).toOption.getD [])
    ospfType := typeIf shape.ospfType name
    history
    communities := communitiesOf f plan name p }

def ownDeclarations (x : Record) : List Variable :=
  optional x.permitted ++ (optional x.prefixLength ++ (optional x.metric ++ (optional x.localPref ++
    (optional x.adminDist ++ (optional x.med ++ (optional x.bgpInternal ++
      ((x.ospfType.map Enumeration.declarations).getD [] ++ ((x.ospfArea.map Enumeration.declarations).getD [] ++
        (optional x.routerId ++ x.communities.flatMap fun e => optional (some e.2))))))))))

def declarations (x : Record) : List Variable :=
  (x.history.map Enumeration.declarations).getD [] ++ x.ownDeclarations

def areaBounds (x : Record) : List (Term .bool) := (x.ospfArea.map Enumeration.bounds).getD []

def bounds (x : Record) : List (Term .bool) := (x.history.map Enumeration.bounds).getD [] ++ x.areaBounds

theorem runOn_area {k : Option (Enumeration Document) → Build Record}
    (h : (if wantsArea (f.planFor router) name p then do
        let areas ← Document.sorted (f.topology.areas router)
        let area ← whenWanted (1 < areas.length) (Enumeration.createOf (name ++ "_ospfArea") areas)
        k area
      else do
        let area ← pure none
        k area : Build Record).runOn l = (.ok x, l')) :
    ∃ areas l₁, areasFor f name router p = .ok areas ∧
      l.Extends l₁ (((areaOf name areas).map Enumeration.declarations).getD [])
        (((areaOf name areas).map Enumeration.bounds).getD []) ∧
      (k (areaOf name areas)).runOn l₁ = (.ok x, l') := by
  unfold areasFor
  split at h
  next hw =>
    obtain ⟨areas, l₀, hareas, h⟩ := runOn_bind_ok.1 h
    obtain ⟨hsorted, rfl⟩ := runOn_lift_ok.1 hareas
    obtain ⟨area, l₁, harea, h⟩ := runOn_bind_ok.1 h
    refine ⟨areas, l₁, by rw [if_pos hw, hsorted], ?_⟩
    unfold areaOf
    rcases runOn_whenWanted harea with ⟨hmany, e, rfl, he⟩ | ⟨hmany, rfl, rfl⟩
    · obtain ⟨rfl, hext⟩ := Enumeration.createOf_extends he
      rw [if_pos (of_decide_eq_true hmany)]
      exact ⟨hext, h⟩
    · rw [if_neg (of_decide_eq_false hmany)]
      exact ⟨.refl l, h⟩
  next hw => exact ⟨[], l, by rw [if_neg hw], .refl l, h⟩

theorem runOn_communities {k : List (Community × Term .bool) → Build Record}
    (h : (if wantsCommunities plan p then do
        let cs ← f.communities.mapM fun c => do return (c, ← Build.newBool (name ++ communitySuffix c))
        k cs
      else do
        let cs ← pure []
        k cs : Build Record).runOn l = (.ok x, l')) :
    ∃ l₁, l.Extends l₁ ((communitiesOf f plan name p).flatMap fun e => optional (some e.2)) [] ∧
      (k (communitiesOf f plan name p)).runOn l₁ = (.ok x, l') := by
  unfold communitiesOf
  split at h
  next hw =>
    obtain ⟨cs, l₁, hcs, h⟩ := runOn_bind_ok.1 h
    obtain ⟨rfl, hext⟩ := runOn_mapM (g := fun c => (c, .boolVar (name ++ communitySuffix c)))
      (V := fun e => optional (some e.2)) (C := fun _ => []) (fun c _ l y l' hy => by
        obtain ⟨t, l₁, ht, hy⟩ := runOn_bind_ok.1 hy
        obtain ⟨rfl, rfl⟩ := runOn_pure_ok.1 hy
        obtain ⟨rfl, hext⟩ := runOn_newBool ht
        exact ⟨rfl, hext⟩) hcs
    rw [List.flatMap_eq_nil_iff.2 fun _ _ => rfl] at hext
    rw [if_pos hw]
    exact ⟨l₁, hext, h⟩
  next hw =>
    rw [if_neg hw]
    exact ⟨l, .refl l, h⟩

/-- **Creating a record gives the planned one**, and declares exactly its variables. -/
theorem create_extends {history : Option (Enumeration Protocol)}
    (h : (create f name router p history).runOn l = (.ok x, l')) :
    x = planned f name router p history ∧ l.Extends l' x.ownDeclarations x.areaBounds := by
  unfold create at h
  cases hplan : f.plan.router? router with
  | none =>
    rw [hplan] at h
    exact absurd h runOn_throw_ok
  | some plan =>
    rw [hplan] at h
    obtain ⟨_, l₀, h₀, h⟩ := runOn_bind_ok.1 h
    obtain ⟨rfl, rfl⟩ := runOn_pure_ok.1 h₀
    obtain rfl := Frame.planFor_eq hplan
    obtain ⟨permitted, l₁, h₁, h⟩ := runOn_bind_ok.1 h
    obtain ⟨prefixLength, l₂, h₂, h⟩ := runOn_bind_ok.1 h
    obtain ⟨metric, l₃, h₃, h⟩ := runOn_bind_ok.1 h
    obtain ⟨localPref, l₄, h₄, h⟩ := runOn_bind_ok.1 h
    obtain ⟨adminDist, l₅, h₅, h⟩ := runOn_bind_ok.1 h
    obtain ⟨med, l₆, h₆, h⟩ := runOn_bind_ok.1 h
    obtain ⟨bgpInternal, l₇, h₇, h⟩ := runOn_bind_ok.1 h
    obtain ⟨ospfType, l₈, h₈, h⟩ := runOn_bind_ok.1 h
    obtain ⟨areas, l₉, hareas, h₉, h⟩ := runOn_area h
    obtain ⟨routerId, l₁₀, h₁₀, h⟩ := runOn_bind_ok.1 h
    obtain ⟨l₁₁, h₁₁, h⟩ := runOn_communities h
    obtain ⟨rfl, rfl⟩ := runOn_pure_ok.1 h
    obtain ⟨rfl, e₁⟩ := runOn_newBool h₁
    obtain ⟨rfl, e₂⟩ := runOn_newInt h₂
    obtain ⟨rfl, e₃⟩ := runOn_numberIf h₃
    obtain ⟨rfl, e₄⟩ := runOn_numberIf h₄
    obtain ⟨rfl, e₅⟩ := runOn_numberIf h₅
    obtain ⟨rfl, e₆⟩ := runOn_numberIf h₆
    obtain ⟨rfl, e₇⟩ := runOn_internalIf h₇
    obtain ⟨rfl, e₈⟩ := runOn_typeIf h₈
    obtain ⟨rfl, e₁₀⟩ := runOn_numberIf h₁₀
    have hx : areaOf name areas = areaOf name ((areasFor f name router p).toOption.getD []) := by
      rw [hareas]
      rfl
    refine ⟨by unfold planned; rw [← hx]; rfl, ?_⟩
    have e := e₁.trans (e₂.trans (e₃.trans (e₄.trans (e₅.trans (e₆.trans (e₇.trans (e₈.trans (h₉.trans
      (e₁₀.trans h₁₁)))))))))
    simp only [List.nil_append, List.append_nil] at e
    exact e

end Record

end ControlPlane
