import ControlPlane.Proofs.Slice.Assignment
import ControlPlane.Proofs.Slice.OwnRoutes
import Mathlib.Data.Option.Basic

/-!
# States of static networks

Where no router runs OSPF or BGP, every packet and all failed links that are possible belong to a state: the one in
which every record holds the best of the routes that its router has by itself.
-/
namespace ControlPlane

open List Option Topology Slice Enumeration

variable {n : Network} {o : OwnRoute} {f : Frame} {w v : Valuation} {x y : Record} {name : Name} {p : Protocol}
  {rs : List Redistribution} {basis : Plan.Basis} {request selection : Document} {l : Lane}

/-- What has a key is found by it, where different things have different keys. -/
theorem find?_key {α β : Type} [BEq β] [LawfulBEq β] {key : α → β} {xs : List α} (h : (xs.map key).Nodup) {x : α}
    (hx : x ∈ xs) : xs.find? (fun y => key y == key x) = some x := by
  cases hfind : xs.find? fun y => key y == key x with
  | none => exact absurd (beq_self_eq_true (key x)) (find?_eq_none.1 hfind x hx)
  | some y =>
    have hkey : key y = key x := beq_iff_eq.1 (find?_some (p := fun y => key y == key x) hfind)
    rw [inj_on_of_nodup_map h (mem_of_find?_eq_some hfind) hx hkey]

/-! ## §1. Values outside of records -/

namespace Frame

def allowsBy (f : Frame) (v : Valuation) (list : AccessList) : Bool :=
  ((list.permits f.packet).toOption.map fun t => t.eval v).getD false

/-- The outgoing access list of an edge lets the packet pass. -/
def allowsOut (f : Frame) (v : Valuation) (e : Edge) : Bool := (e.start.outgoingFilter.map (f.allowsBy v)).getD true

def accessAssignments (f : Frame) (v : Valuation) (e : Edge) (d : Direction) (list : Option AccessList) :
    List Assignment :=
  (list.map fun a => ⟨.bool, .boolVar (f.accessName e.router e.interface d a.name), f.allowsBy v a⟩).toList

def commonAssignments (f : Frame) (v : Valuation) (chosen : Lane → Bool) (forwards : Edge → Bool) : List Assignment :=
  (f.topology.sites.flatMap fun s => s.edges.flatMap fun e =>
      [⟨.bool, f.controlForwarding e, forwards e⟩, ⟨.bool, f.dataForwarding e, forwards e && f.allowsOut v e⟩]) ++
    ((f.allLanes.map fun l => ⟨.bool, l.choice, chosen l⟩) ++
      f.topology.sites.flatMap fun s => s.edges.flatMap fun e =>
        f.accessAssignments v e .outgoing e.start.outgoingFilter ++
          f.accessAssignments v e .incoming e.start.incomingFilter)

variable {chosen : Lane → Bool} {forwards : Edge → Bool}

theorem accessAssignments_names (e : Edge) (d : Direction) (list : Option AccessList) :
    ((f.accessAssignments v e d list).flatMap fun a => a.target.names) =
      (f.accessVariables e d list).map Variable.name := by
  cases list <;> rfl

theorem commonAssignments_names : ((f.commonAssignments v chosen forwards).flatMap fun a => a.target.names) =
    (f.forwardingVariables ++ (f.choiceVariables ++ f.allAccessVariables)).map Variable.name := by
  unfold commonAssignments forwardingVariables choiceVariables allAccessVariables
  simp only [flatMap_append, map_append, flatMap_assoc, map_flatMap, accessAssignments_names,
    List.map_map]
  refine congrArg₂ (· ++ ·) rfl (congrArg (· ++ _) ?_)
  rw [flatMap_map]
  exact List.flatMap_pure_eq_map (fun l : Lane => l.incoming.name ++ "_choice") f.allLanes

theorem commonAssignments_isVariable : ∀ a ∈ f.commonAssignments v chosen forwards,
    a.target.variable?.isSome ∧ a.target.CanBe a.value := by
  have haccess : ∀ e d list, ∀ a ∈ f.accessAssignments v e d list,
      a.target.variable?.isSome ∧ a.target.CanBe a.value := by
    intro e d list a ha
    cases list with
    | none => cases ha
    | some list =>
      obtain rfl := mem_singleton.1 ha
      exact ⟨rfl, trivial⟩
  unfold commonAssignments
  simp only [forall_mem_append, forall_mem_flatMap, List.forall_mem_map, forall_mem_cons]
  refine ⟨fun s _ e _ => ⟨⟨rfl, trivial⟩, ⟨rfl, trivial⟩, nofun⟩, fun l _ => ⟨rfl, trivial⟩, fun s _ e _ => ?_⟩
  exact ⟨haccess e .outgoing _, haccess e .incoming _⟩

theorem allowsBy_congr (h : v.AgreesOn w f.scenarioVariables) (list : AccessList) :
    f.allowsBy v list = f.allowsBy w list := by
  unfold allowsBy
  cases hpermits : list.permits f.packet with
  | error fault => rfl
  | ok t => exact (AccessList.over_permits scenario_packet _ _ hpermits).eval_eq v w h

theorem allowsOut_congr (h : v.AgreesOn w f.scenarioVariables) (e : Edge) : f.allowsOut v e = f.allowsOut w e := by
  unfold allowsOut
  cases e.start.outgoingFilter with
  | none => rfl
  | some list => exact allowsBy_congr h list

theorem holds_accessTerms {e : Edge} {d : Direction} {list : Option AccessList} (hreads : f.Reads list) :
    (∀ c ∈ f.accessTerms e d list, c.eval v) ↔
      ∀ a ∈ f.accessAssignments v e d list, a.target.eval v = a.value := by
  cases list with
  | none => exact ⟨fun _ => nofun, fun _ => nofun⟩
  | some list =>
    obtain ⟨t, ht⟩ := hreads list rfl
    have hallows : f.allowsBy v list = t.eval v := by
      unfold allowsBy
      rw [ht]
      rfl
    unfold accessTerms accessAssignments
    rw [bind_some, ht]
    refine forall_mem_singleton.trans (Iff.trans ?_ forall_mem_singleton.symm)
    show _ ↔ _ = f.allowsBy v list
    rw [hallows]
    exact Term.eval_eq v _ _

/-- Where the variables of access lists are defined, packets are sent as the lists say. -/
theorem eval_permits (hreads : f.ReadsAll) (haccess : ∀ c ∈ f.allAccessTerms, c.eval v) {site : Site}
    (hsite : site ∈ f.topology.sites) {e : Edge} (he : e ∈ site.edges) :
    (f.permits e.router e.start .outgoing).eval v = f.allowsOut v e := by
  have hterms : ∀ c ∈ f.accessTerms e .outgoing e.start.outgoingFilter, c.eval v := fun c hc =>
    haccess c (mem_flatMap.2 ⟨site, hsite, mem_flatMap.2 ⟨e, he, mem_append_left _ hc⟩⟩)
  have hvalues := (holds_accessTerms (hreads site hsite e he).1).1 hterms
  unfold permits allowsOut
  cases hlist : e.start.outgoingFilter with
  | none => rfl
  | some list =>
    rw [hlist] at hvalues
    exact hvalues _ (mem_singleton_self _)

theorem Distinct.scenario (h : f.Distinct) :
    ((f.forwardingVariables ++ (f.choiceVariables ++ f.allAccessVariables)).map Variable.name).Nodup ∧
      ∀ z ∈ f.scenarioVariables, z.name ∉
        (f.forwardingVariables ++ (f.choiceVariables ++ f.allAccessVariables)).map Variable.name := by
  have hcommon := (nodup_append.1 h.append).1
  have hsplit : f.commonVariables =
      f.scenarioVariables ++ (f.forwardingVariables ++ (f.choiceVariables ++ f.allAccessVariables)) :=
    (append_assoc _ _ _).symm
  rw [hsplit, map_append, nodup_append] at hcommon
  exact ⟨hcommon.2.1, fun z hz hmem => hcommon.2.2 _ (mem_map_of_mem hz) _ hmem rfl⟩

/-- **Choices and forwarding can be as one likes**, whatever the packet and the failed links are. -/
theorem exists_forwarding (hd : f.Distinct) (hreads : f.ReadsAll) (v : Valuation) (chosen : Lane → Bool)
    (forwards : Edge → Bool) : ∃ w : Valuation, v.AgreesOn w f.scenarioVariables ∧
      (∀ c ∈ f.allAccessTerms, c.eval w) ∧ (∀ l ∈ f.allLanes, l.choice.eval w = chosen l) ∧
      ∀ site ∈ f.topology.sites, ∀ e ∈ site.edges, (f.controlForwarding e).eval w = forwards e ∧
        (f.dataForwarding e).eval w = (forwards e && (f.permits e.router e.start .outgoing).eval w) := by
  have hvars := @commonAssignments_isVariable f v chosen forwards
  obtain ⟨hnodup, hother⟩ := hd.scenario
  rw [← @commonAssignments_names f v chosen forwards] at hnodup hother
  obtain ⟨w, hkeeps, hset⟩ := Valuation.exists_assigned _ (fun a ha => (hvars a ha).1) (fun a ha => (hvars a ha).2)
    hnodup v
  have hvw : v.AgreesOn w f.scenarioVariables := fun z hz => hkeeps z (hother z hz)
  unfold commonAssignments at hset
  simp only [forall_mem_append, forall_mem_flatMap, List.forall_mem_map, forall_mem_cons] at hset
  obtain ⟨hforwarding, hchoices, hlists⟩ := hset
  -- the lists say the same about the new valuation, as the packet is the same
  have hassigned : ∀ e d list, f.accessAssignments v e d list = f.accessAssignments w e d list := by
    intro e d list
    unfold accessAssignments
    cases list with
    | none => rfl
    | some a => rw [map_some, map_some, allowsBy_congr hvw]
  have haccess : ∀ c ∈ f.allAccessTerms, c.eval w := by
    unfold allAccessTerms
    simp only [forall_mem_flatMap, forall_mem_append]
    intro s hs e he
    have hlist := hlists s hs e he
    rw [hassigned, hassigned] at hlist
    exact ⟨(holds_accessTerms (hreads s hs e he).1).2 hlist.1, (holds_accessTerms (hreads s hs e he).2).2 hlist.2⟩
  refine ⟨w, hvw, haccess, hchoices, fun site hsite e he => ⟨(hforwarding site hsite e he).1, ?_⟩⟩
  rw [eval_permits hreads haccess hsite he, ← allowsOut_congr hvw]
  exact (hforwarding site hsite e he).2.1

end Frame

/-! ## §2. Records with the values of a route -/

namespace Enumeration

variable {α : Type} [BEq α] (v : Valuation) (e : Enumeration α)

/-- The place of a value, and the first one for values that are not listed. -/
def placeOr (x : Option α) : Nat := (x.bind e.placeOf?).getD 0

def holding (x : Option α) : Enumeration α := { e with bits := e.bits.map fun _ => .bitsLit (e.placeOr x) e.width }

theorem placeOr_le (x : Option α) : e.placeOr x ≤ e.values.length - 1 := by
  unfold placeOr
  cases hplace : x.bind e.placeOf? with
  | none => exact Nat.zero_le _
  | some i =>
    obtain ⟨a, -, hi⟩ := bind_eq_some_iff.1 hplace
    obtain ⟨y, hy, rfl⟩ := map_eq_some_iff.1 hi
    have hmem := (mem_filter.1 (mem_of_getLast? hy)).1
    have hlt := snd_lt_of_mem_zipIdx hmem
    show y.2 ≤ _
    omega

theorem holding_inBits (x : Option α) : (e.holding x).InBits v := by
  intro b hb
  obtain ⟨c, -, rfl⟩ := map_eq_some_iff.1 hb
  exact Nat.mod_lt _ (Nat.two_pow_pos _)

omit e in
theorem map_holding_form (e : Option (Enumeration α)) (x : Option α) :
    (e.map fun e => e.holding x).map form = e.map form := by
  rw [Option.map_map]
  refine congrArg (e.map ·) (funext fun e => ?_)
  unfold form holding
  rw [Function.comp_apply, isSome_map]

theorem holding_bounds (x : Option α) : ∀ c ∈ (e.holding x).bounds, c.eval v := by
  intro c hc
  obtain ⟨b, hb, hc⟩ := bind_eq_some_iff.1 (mem_toList.1 hc)
  obtain ⟨a, -, rfl⟩ := map_eq_some_iff.1 hb
  unfold bound? at hc
  split at hc
  next => cases hc
  next =>
    cases hc
    have hplace := e.placeOr_le x
    have hwidth : e.values.length ≤ 2 ^ widthFor e.values.length := e.length_le_two_pow_width
    have hpos : 0 < 2 ^ widthFor e.values.length := Nat.two_pow_pos _
    show decide (e.placeOr x % 2 ^ widthFor e.values.length ≤ (e.values.length - 1) % 2 ^ widthFor e.values.length)
    rw [Nat.mod_eq_of_lt (by omega), Nat.mod_eq_of_lt (by omega)]
    exact decide_eq_true hplace

theorem numberUnder_holding (x : Option α) :
    (e.holding x).numberUnder v = (e.numberUnder v).map fun _ => e.placeOr x % 2 ^ e.width := by
  simp [numberUnder, holding, Function.comp_def]

theorem holding_isDefault : (e.holding none).isDefault.eval v := by
  rw [holds_isDefault, numberUnder_holding]
  exact Option.forall_mem_map.2 fun _ _ => Nat.zero_mod _

theorem holding_isValue_of_place {x : α} (hbits : e.bits.isSome) (hwidth : e.width ≠ 0)
    (hx : (e.placeOf? x).isSome) : ((e.holding (some x)).isValue x).eval v := by
  obtain ⟨b, hb⟩ := isSome_iff_exists.1 hbits
  obtain ⟨i, hi⟩ := isSome_iff_exists.1 hx
  have hplace : e.placeOr (some x) = i := by rw [placeOr, bind_some, hi, getD_some]
  have hnumber : (e.holding (some x)).numberUnder v = some (i % 2 ^ e.width) := by
    rw [numberUnder_holding, numberUnder, hb, hplace]
    rfl
  rw [holds_isValue, hnumber]
  exact ⟨fun h => absurd h (some_ne_none _), fun k hk => ⟨hwidth, i, hi, (Option.some.inj hk).symm⟩⟩

theorem holding_isValue [LawfulBEq α] (name : String) {values : List α} {x : α} (hx : x ∈ values) :
    (((planned name values).holding (some x)).isValue x).eval v := by
  by_cases hone : values.length ≤ 1
  · -- there is only one value
    match values, hone with
    | [y], _ =>
      obtain rfl := mem_singleton.1 hx
      exact beq_self_eq_true _
  · have hmany := Nat.lt_of_not_le hone
    have hwidth : (planned name values).width ≠ 0 := by
      rw [width, planned_values]
      exact widthFor_ne_zero hmany
    obtain ⟨i, hi⟩ := (planned name values).exists_placeOf? ((planned_values name values).symm ▸ hx)
      (beq_self_eq_true x)
    exact holding_isValue_of_place v _ (by rw [bits_planned hmany]; rfl) hwidth (by rw [hi]; rfl)

theorem equal_of_isValue {d : Enumeration α} {x : α} (hvalues : d.values = e.values) (hd : (d.isValue x).eval v)
    (he : (e.isValue x).eval v) : (d.equal e).eval v := by
  have hplace : d.placeOf? x = e.placeOf? x := by rw [placeOf?, hvalues, ← placeOf?]
  have hwidth : d.width = e.width := by rw [width, hvalues, ← width]
  refine (holds_equal v d e).2 fun a ha b hb => ?_
  obtain ⟨-, i, hi, rfl⟩ := ((holds_isValue v d x).1 hd).2 a ha
  obtain ⟨-, j, hj, rfl⟩ := ((holds_isValue v e x).1 he).2 b hb
  rw [hplace, hj] at hi
  rw [hwidth, Option.some.inj hi]

end Enumeration

namespace Record

def IsBounded (v : Valuation) (x : Record) : Prop :=
  (∀ c ∈ x.bounds, c.eval v) ∧ ∀ c ∈ Slice.recordBounds x, c.eval v

/-- What a record is to tell about a route. -/
structure Content where
  number : IntAttribute → Int
  type : OspfType
  area : Document
  internal : Bool
  carries : Community → Bool
  history : Option Protocol

def telling (x : Record) (c : Option Content) : Record :=
  let number := fun (a : IntAttribute) => (x.int? a).map fun _ => Term.intLit ((c.map fun d => d.number a).getD 0)
  { x with
    permitted := x.permitted.map fun _ => .boolLit c.isSome
    prefixLength := number .prefixLength
    adminDist := number .adminDist
    localPref := number .localPref
    metric := number .metric
    med := number .med
    routerId := number .routerId
    bgpInternal := x.bgpInternal.map fun _ => .boolLit (c.any Content.internal)
    ospfArea := x.ospfArea.map fun e => e.holding (c.map Content.area)
    ospfType := x.ospfType.map fun e => e.holding (c.map Content.type)
    history := x.history.map fun e => e.holding (c.bind Content.history)
    communities := x.communities.map fun e => (e.1, .boolLit (c.any fun d => d.carries e.1)) }

variable {c : Option Content}

theorem telling_int? (a : IntAttribute) : (x.telling c).int? a =
    (x.int? a).map fun _ => Term.intLit ((c.map fun d => d.number a).getD 0) := by
  cases a <;> rfl

theorem telling_sameForm : x.SameForm (x.telling c) where
  protocol := rfl
  used := rfl
  permitted := by
    show _ = (x.permitted.map _).isSome
    rw [isSome_map]
  number a := by rw [telling_int?, isSome_map]
  internal := by
    show _ = (x.bgpInternal.map _).isSome
    rw [isSome_map]
  area := (map_holding_form _ _).symm
  type := (map_holding_form _ _).symm
  history := (map_holding_form _ _).symm
  communities := by
    show _ = (x.communities.map _).map _
    rw [List.map_map]
    rfl

theorem telling_inBits : (x.telling c).InBits v where
  area := Option.forall_mem_map.2 fun d _ => d.holding_inBits v _
  type := Option.forall_mem_map.2 fun d _ => d.holding_inBits v _
  history := Option.forall_mem_map.2 fun d _ => d.holding_inBits v _

theorem telling_permits (hx : x.permitted.isSome) : (x.telling c).permits.eval v = c.isSome := by
  obtain ⟨t, ht⟩ := isSome_iff_exists.1 hx
  unfold permits telling
  rw [ht]
  rfl

structure Content.IsIn (x : Record) (d : Content) : Prop where
  range : ∀ a, (x.int? a).isSome → InRange a (d.number a)
  announced : x.isEnvironment → x.metric.isSome → d.number .metric < 256

theorem telling_isBounded (hc : ∀ d, c = some d → d.IsIn x) : (x.telling c).IsBounded v := by
  have hnumber : ∀ {a t}, (x.telling c).int? a = some t →
      (x.int? a).isSome ∧ t.eval v = (c.map fun d => d.number a).getD 0 := by
    intro a t ht
    rw [telling_int?] at ht
    obtain ⟨u, hu, rfl⟩ := map_eq_some_iff.1 ht
    exact ⟨by rw [hu]; rfl, rfl⟩
  refine ⟨forall_mem_bounds.2 ⟨?_, ?_⟩, holds_recordBounds.2 ⟨?_, fun henv => ?_⟩⟩
  · exact Option.forall_mem_map.2 fun d _ => d.holding_bounds v _
  · exact Option.forall_mem_map.2 fun d _ => d.holding_bounds v _
  · rw [hasNumbers_iff]
    intro a t ht
    obtain ⟨hsome, hvalue⟩ := hnumber ht
    rw [hvalue]
    cases c with
    | none => exact inRange_zero a
    | some d => exact (hc d rfl).range a hsome
  · rw [hasNumbers_iff]
    rintro a t ht rfl
    obtain ⟨hsome, hvalue⟩ := hnumber ht
    rw [hvalue]
    cases c with
    | none => exact (by decide : (0 : Int) < 256)
    | some d => exact (hc d rfl).announced henv hsome

theorem telling_rests : (x.telling none).Rests v where
  numbers := by
    rw [hasNumbers_iff]
    intro a t ht
    rw [telling_int?] at ht
    obtain ⟨u, -, rfl⟩ := map_eq_some_iff.1 ht
    rfl
  area := Option.forall_mem_map.2 fun d _ => d.holding_isDefault v
  type := Option.forall_mem_map.2 fun d _ => d.holding_isDefault v
  history := Option.forall_mem_map.2 fun d _ => d.holding_isDefault v
  internal := Option.forall_mem_map.2 fun _ _ => rfl
  communities := List.forall_mem_map.2 fun _ _ => rfl

def contentOf (r : OwnRoute) : Content := ⟨r.number, .O, .null, false, fun _ => false, some r.protocol⟩

def holding (x : Record) (o : Option OwnRoute) : Record := x.telling (o.map contentOf)

structure Fits (x : Record) (r : OwnRoute) : Prop where
  length : r.length ≤ 32
  distance : 0 ≤ r.distance ∧ r.distance < 256
  default : ∀ a, a ≠ .routerId → x.int? a = none → r.protocol.defaultNumber a = r.number a

variable {o : Option OwnRoute}

theorem holding_permits (hx : x.permitted.isSome) : (x.holding o).permits.eval v = o.isSome :=
  (telling_permits hx).trans isSome_map

theorem holding_holds (hx : x.permitted.isSome) (hfits : ∀ r, o = some r → x.Fits r) :
    (x.holding o).Holds v o := by
  refine ⟨holding_permits hx, fun r hr a ha => ?_⟩
  subst hr
  show (((x.holding (some r)).int? a).map fun t => t.eval v).getD _ = _
  rw [holding, telling_int?]
  cases hint : x.int? a with
  | none => exact (hfits r rfl).default a ha hint
  | some t => rfl

theorem holding_isValid (hplain : x.IsPlain) (hx : x.permitted.isSome) (hfits : ∀ r, o = some r → x.Fits r)
    (dependencies : List (Community × List Community)) : (x.holding o).IsValid dependencies v := by
  have hin : ∀ d, o.map contentOf = some d → d.IsIn x := by
    intro d hd
    obtain ⟨r, hr, rfl⟩ := map_eq_some_iff.1 hd
    refine ⟨fun a _ => ?_, fun _ _ => (by decide : (0 : Int) < 256)⟩
    cases a with
    | prefixLength => exact ⟨Int.natCast_nonneg r.length, Int.ofNat_le.2 (hfits r hr).length⟩
    | adminDist => exact (hfits r hr).distance
    | _ => exact inRange_zero _
  obtain ⟨hplaces, hbounds⟩ : (x.holding o).IsBounded v := telling_isBounded hin
  obtain ⟨hnumbers, hannounced⟩ := holds_recordBounds.1 hbounds
  refine ⟨hnumbers, hannounced, hplaces, fun e he => ?_, fun hp => ?_⟩
  · obtain ⟨d, hd, -⟩ := mem_map.1 he
    rw [hplain.communities] at hd
    cases hd
  · rw [holding_permits hx] at hp
    obtain rfl := isSome_eq_false_iff.1 hp |> isNone_iff_eq_none.1
    exact telling_rests

theorem Holds.congr (h : x.SameValues v w y) (hx : x.Holds v o) : y.Holds w o where
  permits := h.permits ▸ hx.permits
  shows r hr a ha := by
    rw [← h.under]
    exact hx.shows r hr a ha

theorem isValue_of_holding {name : String} {values : List Protocol} {r : OwnRoute}
    (h : (x.holding (some r)).SameValues v w y) (hx : x.history = some (.planned name values))
    (hr : r.protocol ∈ values)
    {e : Enumeration Protocol} (he : y.history = some e) : (e.isValue r.protocol).eval w := by
  obtain ⟨d, hd, hsame⟩ := h.symm.history he
  have hd : x.history.map _ = some d := hd
  rw [hx] at hd
  cases hd
  rw [← e.eval_isValue_frozen w v, hsame, eval_isValue_frozen]
  exact holding_isValue v name hr

end Record

/-! ## §3. The route of every record -/

namespace Slice

variable (s : Slice) (v : Valuation)

def ownRoutes (name : Name) (p : Protocol) : List OwnRoute := (s.lanesOf name p).filterMap (s.ownRoute? v)

def bestRoute? (name : Name) (p : Protocol) : Option OwnRoute :=
  OwnRoute.best? (if p == .best then (s.protocols name).flatMap (s.ownRoutes v name) else s.ownRoutes v name p)

def heldRoute (x : Record) : Option OwnRoute :=
  match x.history with
  | none => (s.lanes.find? fun l => l.incoming.name == x.name).bind (s.ownRoute? v)
  | some _ =>
    (s.bests.find? fun b => b.records.any fun y => y.name == x.name).bind fun b => s.bestRoute? v b.router x.protocol

variable {s v}

theorem mem_ownRoutes : o ∈ s.ownRoutes v name p ↔ s.OwnOf v name p o := mem_filterMap

theorem isBestOf_bestRoute (hp : p ≠ .best) : OwnRoute.IsBestOf (s.OwnOf v name p) (s.bestRoute? v name p) := by
  have hroutes : s.OwnOf v name p = (· ∈ s.ownRoutes v name p) := funext fun o => propext mem_ownRoutes.symm
  rw [hroutes, bestRoute?, if_neg (by simpa using hp)]
  exact OwnRoute.isBestOf_best _

theorem isBestOf_overallRoute : OwnRoute.IsBestOf (s.OwnAt v name) (s.bestRoute? v name .best) := by
  have hroutes : s.OwnAt v name = (· ∈ (s.protocols name).flatMap (s.ownRoutes v name)) := by
    funext o
    rw [mem_flatMap]
    exact propext (exists_congr fun p => and_congr Iff.rfl mem_ownRoutes.symm)
  rw [hroutes]
  exact OwnRoute.isBestOf_best _

theorem lane_of_bestRoute (h : s.bestRoute? v name p = some o) : ∃ l ∈ s.lanes, s.ownRoute? v l = some o := by
  have hlane : ∀ q, o ∈ s.ownRoutes v name q → ∃ l ∈ s.lanes, s.ownRoute? v l = some o := by
    intro q ho
    obtain ⟨l, hl, ho⟩ := mem_ownRoutes.1 ho
    exact ⟨l, (mem_filter.1 hl).1, ho⟩
  have ho := (OwnRoute.isBestOf_best _).mem o h
  split at ho
  · obtain ⟨q, -, ho⟩ := mem_flatMap.1 ho
    exact hlane q ho
  · exact hlane p ho

theorem lane_of_heldRoute (h : s.heldRoute v x = some o) : ∃ l ∈ s.lanes, s.ownRoute? v l = some o := by
  unfold heldRoute at h
  split at h
  · obtain ⟨l, hl, ho⟩ := bind_eq_some_iff.1 h
    exact ⟨l, mem_of_find?_eq_some hl, ho⟩
  · obtain ⟨b, -, ho⟩ := bind_eq_some_iff.1 h
    exact lane_of_bestRoute ho

end Slice

namespace Frame

/-- Best routes tell which protocol of their router they came from. -/
theorem history_of_best (hx : x ∈ (f.bestRecords name).records) :
    ∃ label, x.history = some (.planned label (f.protocols name)) := by
  rcases mem_bestRecords hx with rfl | ⟨p, -, rfl⟩
  · exact ⟨_, rfl⟩
  · exact ⟨_, rfl⟩

theorem mem_of_best (hn : name ∈ f.topology.names) (hx : x ∈ (f.bestRecords name).records) : x ∈ f.records :=
  mem_append_left _ (mem_append_left _ (mem_flatMap.2 ⟨name, hn, hx⟩))

theorem held_best (hd : f.Distinct) (hn : name ∈ f.topology.names) (hx : x ∈ (f.bestRecords name).records) :
    (f.slice rs).heldRoute v x = (f.slice rs).bestRoute? v name x.protocol := by
  obtain ⟨label, hhistory⟩ := history_of_best hx
  unfold Slice.heldRoute
  rw [hhistory]
  cases hfind : (f.slice rs).bests.find? fun b => b.records.any fun y => y.name == x.name with
  | none =>
    have hb := find?_eq_none.1 hfind _ (mem_map_of_mem hn)
    exact absurd (any_eq_true.2 ⟨x, hx, beq_self_eq_true x.name⟩) hb
  | some b =>
    -- the records that were found have the name of this one, so they are those of this router
    obtain ⟨other, hother, rfl⟩ := mem_map.1 (mem_of_find?_eq_some hfind)
    have hany : (f.bestRecords other).records.any (fun y => y.name == x.name) :=
      find?_some (p := fun b : BestRecords => b.records.any fun y => y.name == x.name) hfind
    obtain ⟨y, hy, hname⟩ := any_eq_true.1 hany
    obtain rfl := hd.eq_of_name (mem_of_best hother hy) (mem_of_best hn hx) (beq_iff_eq.1 hname)
    obtain rfl := eq_of_mem_parts (nodup_append.1 (nodup_append.1 hd.nodup).1).1 hother hn hy hx
    rfl

theorem held_incoming (hd : f.Distinct) (hl : l ∈ f.allLanes) (hx : l.incoming.history = none) :
    (f.slice rs).heldRoute v l.incoming = (f.slice rs).ownRoute? v l := by
  have hfind : (f.slice rs).lanes.find? (fun m => m.incoming.name == l.incoming.name) = some l :=
    find?_key hd.importNames hl
  unfold Slice.heldRoute
  rw [hx]
  rw [hfind]
  rfl

theorem held_outgoing (hl : l ∈ f.allLanes) : (f.slice rs).heldRoute v l.outgoing = none := by
  have hhistory : l.outgoing.history = none := by
    obtain ⟨label, h⟩ := outgoing_planned hl
    rw [h]
    rfl
  have hfind : (f.slice rs).lanes.find? (fun m => m.incoming.name == l.outgoing.name) = none := by
    rw [find?_eq_none]
    exact fun m hm hname => outgoing_name_ne hl hm (beq_iff_eq.1 hname)
  unfold Slice.heldRoute
  rw [hhistory]
  rw [hfind]
  rfl

end Frame

/-! ## §4. All records hold their routes -/

namespace Frame

section Congr

variable (h : v.AgreesOn w f.scenarioVariables)
include h

/-- **The routes that routers have by themselves are told by the packet and the failed links.** -/
theorem ownRoute?_congr (hl : l ∈ f.allLanes) :
    (f.slice rs).ownRoute? v l = (f.slice rs).ownRoute? w l := by
  have husable : ∀ p n, ((f.slice rs).usableSubnet p l.edge n).eval v =
      ((f.slice rs).usableSubnet p l.edge n).eval w := by
    intro p n
    have hover : ((f.slice rs).usableSubnet p l.edge n).Over f.scenarioVariables := by
      refine Term.within_and.2 fun t ht => ?_
      simp only [mem_cons, not_mem_nil, or_false] at ht
      rcases ht with rfl | rfl | rfl
      · exact Term.within_boolLit _
      · exact n.over_holdsOf (scenario_field .dstIp)
      · exact scenario_notFailed (lane_edge hl)
    exact hover.eval_eq v w h
  unfold Slice.ownRoute? Slice.usableRoutes
  simp only [husable]

theorem ownOf_congr (name : Name) (p : Protocol) :
    (f.slice rs).OwnOf v name p = (f.slice rs).OwnOf w name p := by
  funext o
  refine propext (exists_congr fun l => and_congr_right fun hl => ?_)
  rw [ownRoute?_congr h (mem_lanesOf.1 hl).1]

theorem ownAt_congr (name : Name) : (f.slice rs).OwnAt v name = (f.slice rs).OwnAt w name := by
  funext o
  refine propext (exists_congr fun p => and_congr_right fun _ => ?_)
  rw [ownOf_congr h]

theorem hasBest_congr (hl : l ∈ f.allLanes) {routes : OwnRoute → Prop} :
    (f.slice rs).HasBest v routes l ↔ (f.slice rs).HasBest w routes l := by
  unfold Slice.HasBest
  rw [ownRoute?_congr h hl]

end Congr

theorem ownRoute?_numbers (hstatic : f.topology.IsStatic) (h : (f.slice rs).ownRoute? v l = some o) :
    o.protocol.isLocal ∧ o.length ≤ 32 ∧
      (0 ≤ o.distance ∧ o.distance < 256) ∧
        (f.plan.keepAdminDist = false → o.distance = o.protocol.defaultDistance) := by
  have hdistance : ∀ p written n, Document.integer written = .ok n → 0 ≤ n ∧ n < 256 → p.isLocal →
      (0 ≤ (f.slice rs).distanceOf p written ∧ (f.slice rs).distanceOf p written < 256) ∧
        (f.plan.keepAdminDist = false → (f.slice rs).distanceOf p written = p.defaultDistance) := by
    intro p written n hn hrange hp
    have hkeep : (f.slice rs).distanceOf p written = if f.plan.keepAdminDist then n else p.defaultDistance := by
      unfold Slice.distanceOf
      rw [hn]
      rfl
    rw [hkeep]
    cases f.plan.keepAdminDist with
    | true => exact ⟨hrange, nofun⟩
    | false =>
      refine ⟨?_, fun _ => rfl⟩
      show 0 ≤ p.defaultDistance ∧ p.defaultDistance < 256
      cases p with
      | connected | static => exact ⟨by decide, by decide⟩
      | _ => cases hp
  unfold Slice.ownRoute? at h
  split at h
  · obtain ⟨n, -, rfl⟩ := map_eq_some_iff.1 h
    exact ⟨rfl, n.length_le, hdistance .connected _ _ rfl ⟨by decide, by decide⟩ rfl⟩
  · obtain ⟨route, hroute, rfl⟩ := map_eq_some_iff.1 h
    have hmem := (mem_filter.1 (mem_of_getLast? hroute)).1
    obtain ⟨n, hn, hrange⟩ := hstatic.distance_of_mem hmem
    exact ⟨rfl, route.subnet.length_le, hdistance .static _ n hn hrange rfl⟩
  · cases h

theorem fits_of_ownRoute (hstatic : f.topology.IsStatic) (hx : x.IsPlanned f)
    (h : (f.slice rs).ownRoute? v l = some o) :
    x.Fits o := by
  obtain ⟨hlocal, hlength, hrange, hdefault⟩ := ownRoute?_numbers hstatic h
  have hkeep := hx.keepAdminDist
  obtain ⟨label, router, p, history, rfl, -⟩ := hx
  refine ⟨hlength, hrange, fun a ha hnone => ?_⟩
  cases a with
  | routerId => exact absurd rfl ha
  | prefixLength => exact absurd hnone (by simp [Record.int?, Record.planned])
  | adminDist => exact (hdefault (hkeep hnone)).symm
  | localPref | metric => rfl
  | med =>
    generalize o.protocol = q at hlocal
    cases q with
    | connected | static => rfl
    | _ => cases hlocal

theorem fits_of_held (hstatic : f.topology.IsStatic) (hx : x ∈ f.records) :
    ∀ o, (f.slice rs).heldRoute v x = some o → x.Fits o := by
  intro o ho
  obtain ⟨l, -, ho⟩ := lane_of_heldRoute ho
  exact fits_of_ownRoute hstatic (isPlanned_of_mem hx).1 ho

section Static

variable (hplan : f.IsDecided basis) (hstatic : f.topology.IsStatic)
include hplan hstatic

theorem record_cases (hx : x ∈ f.records) : (∃ name ∈ f.topology.names, x ∈ (f.bestRecords name).records) ∨
    ∃ l ∈ f.allLanes, x = l.incoming ∨ x = l.outgoing := by
  rcases mem_records hx with hx | ⟨l, hl, hx⟩ | ⟨y, hy, rfl⟩
  · obtain ⟨name, hname, hx⟩ := mem_flatMap.1 hx
    exact .inl ⟨name, hname, hx⟩
  · exact .inr ⟨l, hl, hx.symm.imp (fun h => h.2) id⟩
  · -- there are no BGP sessions
    obtain ⟨m, hm, hy⟩ := mem_filterMap.1 hy
    have hlocal := (lane_of_static hplan hstatic hm).1
    rw [(announcementOf_eq hy).1] at hlocal
    cases hlocal

theorem record_isPlain (hx : x ∈ f.records) : x.IsPlain := by
  rcases record_cases hplan hstatic hx with ⟨name, hname, hx⟩ | ⟨l, hl, hx⟩
  · obtain ⟨r, hr⟩ := router_of_name hname
    rcases mem_bestRecords hx with rfl | ⟨p, hp, rfl⟩
    · exact overall_isPlain hplan hstatic hr
    · exact planned_isPlain hplan hstatic hr (isLocal_of_static hplan hstatic hr hp)
  · obtain ⟨r, -, hr, -⟩ := lane_owner hplan hl
    obtain ⟨hlocal, label, hin⟩ := lane_of_static hplan hstatic hl
    rcases hx with rfl | rfl
    · rw [hin]
      exact planned_isPlain hplan hstatic hr hlocal
    · obtain ⟨label, hout⟩ := outgoing_planned hl
      rw [hout]
      exact planned_isPlain hplan hstatic hr hlocal

end Static

def IsHeld (f : Frame) (rs : List Redistribution) (v w : Valuation) : Prop :=
  ∀ x ∈ f.records, (x.holding ((f.slice rs).heldRoute v x)).SameValues v w x

/-- **All records can hold the routes that are theirs**, and nothing else changes. -/
theorem exists_held (hd : f.Distinct) (rs : List Redistribution) (v : Valuation) :
    ∃ w : Valuation, v.AgreesOn w f.commonVariables ∧ f.IsHeld rs v w := by
  obtain ⟨w, hcommon, -, hvalues⟩ := exists_sameValues (v := v) hd
    (fun x y => x ∈ f.records ∧ y = x.holding ((f.slice rs).heldRoute v x))
    (by
      rintro x - ⟨hx, rfl⟩
      exact ⟨hx, Record.telling_sameForm, Record.telling_inBits⟩)
    (by
      rintro x - - ⟨-, rfl⟩ ⟨-, rfl⟩
      rfl)
  exact ⟨w, hcommon, fun x hx => (hvalues x _ ⟨hx, rfl⟩).symm⟩

end Frame

/-! ## §5. The state -/

namespace Frame

variable {r : Router}

/-- Routers choose and forward by the routes that they have by themselves. -/
structure ForwardsOwn (f : Frame) (rs : List Redistribution) (v : Valuation) : Prop where
  access : ∀ c ∈ f.allAccessTerms, c.eval v
  choices : ∀ l ∈ f.allLanes, (l.choice.eval v ↔
    (f.slice rs).HasBest v ((f.slice rs).OwnOf v l.router l.protocol) l)
  control : ∀ r ∈ f.topology.routers, ∀ e ∈ f.topology.edges r.name, ((f.controlForwarding e).eval v ↔
    ∃ l ∈ f.allLanes, (l.edge == e) ∧
      (f.slice rs).HasBest v ((f.slice rs).OwnAt v l.router) l)
  data : ∀ site ∈ f.topology.sites, ∀ e ∈ site.edges, (f.slice rs).DataHolds v e

theorem exists_forwardsOwn (hd : f.Distinct) (hreads : f.ReadsAll) (rs : List Redistribution)
    (v : Valuation) : ∃ w : Valuation, v.AgreesOn w f.scenarioVariables ∧ f.ForwardsOwn rs w := by
  classical
  obtain ⟨w, hvw, haccess, hchoices, hforwards⟩ := exists_forwarding hd hreads v
    (fun l => decide ((f.slice rs).HasBest v ((f.slice rs).OwnOf v l.router l.protocol) l))
    (fun e => decide (∃ l ∈ f.allLanes, (l.edge == e) ∧
      (f.slice rs).HasBest v ((f.slice rs).OwnAt v l.router) l))
  refine ⟨w, hvw, haccess, fun l hl => ?_, fun r _ e he => ?_, fun site hsite e he => ?_⟩
  · rw [hchoices l hl, decide_eq_true_iff, ownOf_congr hvw]
    exact hasBest_congr hvw hl
  · obtain ⟨site, hsite, -, hmem⟩ := site_of_edge he
    rw [(hforwards site hsite e hmem).1, decide_eq_true_iff]
    refine exists_congr fun l => and_congr_right fun hl => and_congr_right fun _ => ?_
    rw [ownAt_congr hvw]
    exact hasBest_congr hvw hl
  · obtain ⟨hcontrol, hdata⟩ := hforwards site hsite e he
    show (f.dataForwarding e).eval w ↔ (f.controlForwarding e).eval w ∧ _
    rw [hdata, hcontrol, Bool.and_eq_true]
    exact Iff.rfl

/-- It stays so when records get other values. -/
theorem ForwardsOwn.congr (h : f.ForwardsOwn rs v) (hvw : v.AgreesOn w f.commonVariables) :
    f.ForwardsOwn rs w where
  access c hc := (over_access c hc).eval_eq v w hvw ▸ h.access c hc
  choices l hl := by
    have hscenario := hvw.mono scenario_sub_common
    rw [← (over_choice hl).eval_eq v w hvw, h.choices l hl, ownOf_congr hscenario]
    exact hasBest_congr hscenario hl
  control r hr e he := by
    have hscenario := hvw.mono scenario_sub_common
    obtain ⟨site, hsite, -, hmem⟩ := site_of_edge he
    rw [← (over_controlForwarding hsite hmem).eval_eq v w hvw, h.control r hr e he]
    refine exists_congr fun l => and_congr_right fun hl => and_congr_right fun _ => ?_
    rw [ownAt_congr hscenario]
    exact hasBest_congr hscenario hl
  data site hsite e he := by
    have hdata := h.data site hsite e he
    unfold Slice.DataHolds at hdata ⊢
    have hd : ((f.slice rs).dataForwarding e).eval v = _ := (over_dataForwarding hsite he).eval_eq v w hvw
    have hc : ((f.slice rs).controlForwarding e).eval v = _ := (over_controlForwarding hsite he).eval_eq v w hvw
    have ha : ((f.slice rs).permits e.router e.start .outgoing).eval v = _ :=
      (over_permits hsite he .outgoing).eval_eq v w hvw
    rw [hd, hc, ha] at hdata
    exact hdata

section Control

variable (hplan : f.IsDecided basis) (hstatic : f.topology.IsStatic)
  (h : f.HoldsOwn rs v)
include hplan hstatic h

theorem controlHolds_iff (hbuild : Topology.build n selection = .ok f.topology) (hr : r ∈ f.topology.routers) {e : Edge}
    (he : e ∈ f.topology.edges r.name)
    (hchoices : ∀ p ∈ f.protocols r.name, ∀ l ∈ (f.slice rs).lanesOf r.name p, (f.slice rs).ChoiceHolds v r p l) :
    (f.slice rs).ControlHolds v r e ↔ ((f.controlForwarding e).eval v ↔
      ∃ l ∈ f.allLanes, (l.edge == e) ∧
        (f.slice rs).HasBest v ((f.slice rs).OwnAt v l.router) l) := by
  have hname := name_mem hr
  refine iff_congr Iff.rfl ⟨?_, ?_⟩
  · rintro ⟨p, hp, l, hl, hedge, hused⟩
    obtain ⟨hmem, hrouter, -⟩ := mem_lanesOf.1 hl
    have hbest := (isUsed_iff hplan hstatic h hname hp hl (hchoices p hp l hl)).1 hused
    exact ⟨l, hmem, hedge, hrouter ▸ hbest⟩
  · rintro ⟨l, hmem, hedge, hbest⟩
    -- the lane starts where the edge does
    have hrouter : l.router = r.name := by
      rw [← edge_router hbuild (lane_edge hmem), Edge.router_of_beq hedge, edge_router hbuild he]
    obtain ⟨-, -, -, hp, -⟩ := lane_owner hplan hmem
    rw [hrouter] at hp hbest
    have hl : l ∈ (f.slice rs).lanesOf r.name l.protocol := mem_lanesOf.2 ⟨hmem, hrouter, rfl⟩
    exact ⟨l.protocol, hp, l, hl, hedge, (isUsed_iff hplan hstatic h hname hp hl (hchoices _ hp l hl)).2 hbest⟩

end Control

theorem permitted_of_mem (hx : x ∈ f.records) : x.permitted.isSome := by
  obtain ⟨label, router, p, history, rfl, -⟩ := (isPlanned_of_mem hx).1
  rfl

theorem isBestOf_bestOwn {o : Option OwnRoute} (h : OwnRoute.IsBestOf ((f.slice rs).OwnAt v name) o) :
    OwnRoute.IsBestOf (f.BestOwn rs v name) o := by
  have hown : ∀ b, f.BestOwn rs v name b → (f.slice rs).OwnAt v name b := by
    rintro b ⟨p, hp, hb⟩
    exact ⟨p, hp, hb.mem b rfl⟩
  refine ⟨fun hnone b hb => h.none hnone b (hown b hb), fun b hb => ?_, fun b hb b' hb' => h.le b hb b' (hown b' hb')⟩
  obtain ⟨p, hp, hmem⟩ := h.mem b hb
  have hsome : ∀ c, some b = some c → b = c := fun c hc => Option.some.inj hc
  exact ⟨p, hp, nofun, fun c hc => hsome c hc ▸ hmem,
    fun c hc b' hb' => hsome c hc ▸ h.le b hb b' ⟨p, hp, hb'⟩⟩

section Held

variable (hstatic : f.topology.IsStatic) (hheld : f.IsHeld rs v w)
include hstatic hheld

theorem holds_of_held (hx : x ∈ f.records) : x.Holds w ((f.slice rs).heldRoute v x) :=
  (Record.holding_holds (permitted_of_mem hx) (fits_of_held hstatic hx)).congr (hheld x hx)

variable (hd : f.Distinct)
include hd

theorem best_holds (hn : name ∈ f.topology.names) (hx : x ∈ (f.bestRecords name).records) :
    x.Holds w ((f.slice rs).bestRoute? v name x.protocol) := by
  rw [← held_best hd hn hx]
  exact holds_of_held hstatic hheld (mem_of_best hn hx)

omit hstatic in
theorem isValue_of_held (hn : name ∈ f.topology.names) (hx : x ∈ (f.bestRecords name).records)
    (ho : (f.slice rs).bestRoute? v name x.protocol = some o) (hp : o.protocol ∈ f.protocols name)
    {e : Enumeration Protocol} (he : x.history = some e) :
    e.values = f.protocols name ∧ (e.isValue o.protocol).eval w := by
  have hsame := hheld x (mem_of_best hn hx)
  rw [held_best hd hn hx, ho] at hsame
  obtain ⟨label, hplanned⟩ := history_of_best hx
  refine ⟨?_, Record.isValue_of_holding hsame hplanned hp he⟩
  cases hplanned.symm.trans he
  exact planned_values _ _

variable (hplan : f.IsDecided basis)
  (hvw : v.AgreesOn w f.scenarioVariables)
include hplan hvw

/-- All records hold the routes that routers have by themselves. -/
theorem holdsOwn_of_held : f.HoldsOwn rs w where
  imports l hl := by
    obtain ⟨-, label, hx⟩ := lane_of_static hplan hstatic hl
    have hhistory : l.incoming.history = none := by rw [hx]; rfl
    have hused : l.incoming.used := by rw [hx]; rfl
    rw [← ownRoute?_congr hvw hl, ← held_incoming hd hl hhistory]
    exact holds_of_held hstatic hheld (mem_incoming hl hused)
  bests name hname p hp := by
    obtain ⟨r, hr⟩ := router_of_name hname
    cases hsingle : f.isSingle name with
    | true =>
      obtain ⟨q, hps⟩ := isSingle_protocols hsingle
      obtain rfl : p = q := mem_singleton.1 (hps ▸ hp)
      refine ⟨_, _, slice_bestOf hname hp, ?_, ownOf_congr hvw name p ▸ ownAt_of_single hps ▸ isBestOf_overallRoute⟩
      rw [hsingle]
      exact best_holds hstatic hheld hd hname mem_cons_self
    | false =>
      have hbest : p ≠ .best := by
        rintro rfl
        cases isLocal_of_static hplan hstatic hr hp
      refine ⟨_, _, slice_bestOf hname hp, ?_, ownOf_congr hvw name p ▸ isBestOf_bestRoute hbest⟩
      rw [hsingle]
      exact best_holds hstatic hheld hd hname (bestRecord_mem hsingle hp)
  overall name hname :=
    ⟨_, best_holds hstatic hheld hd hname mem_cons_self, ownAt_congr hvw name ▸ isBestOf_overallRoute⟩

omit hvw in
/-- Best routes came from the protocols that they are of. -/
theorem history_of_held (hname : name ∈ f.topology.names) :
    (f.slice rs).HistoryHolds w (f.bestRecords name) := by
  obtain ⟨r, hr⟩ := router_of_name hname
  -- a record holds a route of the protocol it is said to come from
  have hcame : ∀ x ∈ (f.bestRecords name).records, ∀ p ∈ f.protocols name,
      (∀ o, (f.slice rs).bestRoute? v name x.protocol = some o → o.protocol = p) → Slice.CameFrom w x p := by
    intro x hx p hp hprotocol hpermits e he
    rw [(best_holds hstatic hheld hd hname hx).permits, isSome_iff_exists] at hpermits
    obtain ⟨o, ho⟩ := hpermits
    obtain rfl := hprotocol o ho
    exact (isValue_of_held hheld hd hname hx ho hp he).2
  unfold Slice.HistoryHolds
  split
  next hsingle =>
    intro p hp
    have hsingle : f.isSingle name := hsingle
    obtain ⟨q, hps⟩ := isSingle_protocols hsingle
    have hp : (f.protocols name).head? = some p := hp
    rw [hps] at hp
    obtain rfl := Option.some.inj hp
    refine hcame _ mem_cons_self q (hps ▸ mem_singleton_self q) fun o ho => ?_
    have hmem := isBestOf_overallRoute.mem o ho
    rw [ownAt_of_single hps] at hmem
    exact protocol_of_ownOf hmem
  next =>
    intro e he
    obtain ⟨hmany, p, hp, rfl⟩ := mem_perProtocol.1 he
    have hbest : p ≠ .best := by
      rintro rfl
      cases isLocal_of_static hplan hstatic hr hp
    refine hcame _ (bestRecord_mem hmany hp) p hp fun o ho => ?_
    exact protocol_of_ownOf ((isBestOf_bestRoute hbest).mem o ho)

theorem perProtocol_of_held (hr : r.name ∈ f.topology.names) (hp : p ∈ f.protocols r.name) :
    ∃ best, (f.slice rs).bestOf r.name p = .ok best ∧
      (∀ l ∈ (f.slice rs).lanesOf r.name p, ∃ x, (f.slice rs).incoming l = .ok x) ∧
      Slice.IsBest w best ((f.slice rs).imported r p) := by
  have hown := holdsOwn_of_held hstatic hheld hd hplan hvw
  obtain ⟨best, o, hb, hholds, ho⟩ := hown.bests r.name hr p hp
  refine ⟨best, hb, fun l hl => ⟨_, incoming_of_static hplan hstatic (mem_lanesOf.1 hl).1⟩, ?_⟩
  refine (offers_imports hplan hstatic hown.imports hr rfl hp hb).isBest hholds ho fun b hb => ?_
  obtain ⟨l, hl, hlo⟩ := ho.mem b hb
  have hmem := (mem_lanesOf.1 hl).1
  have hx := hown.imports l hmem
  obtain ⟨-, label, hplanned⟩ := lane_of_static hplan hstatic hmem
  refine ⟨_, l.incoming, ⟨l, hl, incoming_of_static hplan hstatic hmem, rfl⟩, ?_, (protocol_of_ownOf ⟨l, hl, hlo⟩).symm,
    hx.shows b hlo, ?_⟩
  · rw [hx.permits, hlo]
    rfl
  · unfold Comparing.sameHistory
    rw [hplanned]
    cases best.history <;> rfl

theorem overall_of_held (hr : r.name ∈ f.topology.names) (hmany : f.isSingle r.name = false) :
    ∃ best, (f.slice rs).overall r.name = .ok best ∧
      Slice.IsBest w best ((f.slice rs).bestsOfProtocols r) := by
  have hown := holdsOwn_of_held hstatic hheld hd hplan hvw
  have hbests := hown.bests r.name hr
  have ho : OwnRoute.IsBestOf ((f.slice rs).OwnAt w r.name)
      ((f.slice rs).bestRoute? v r.name .best) := ownAt_congr hvw r.name ▸ isBestOf_overallRoute
  have hoverall : f.bestRecord r.name "OVERALL" .best ∈ (f.bestRecords r.name).records := mem_cons_self
  refine ⟨_, slice_overall hr, (offers_bests hbests hplan hstatic hr rfl hmany).isBest
    (best_holds hstatic hheld hd hr hoverall) (isBestOf_bestOwn ho) fun b hb => ?_⟩
  obtain ⟨p, hp, hbp⟩ := (isBestOf_bestOwn ho).mem b hb
  obtain ⟨r', hr'⟩ := router_of_name hr
  have hlocal := isLocal_of_static hplan hstatic hr' hp
  have hprotocol := protocol_of_ownOf (hbp.mem b rfl)
  obtain ⟨best, hbest, hholds⟩ := holds_of_isBestOf hbests hp hbp
  refine ⟨_, best, ⟨p, hp, hbest, rfl⟩, hholds.permits, hprotocol.symm, hholds.shows b rfl, ?_⟩
  -- both records say that the route came from the protocol
  rw [slice_bestOf hr hp, hmany] at hbest
  cases hbest
  have hheldBest : (f.slice rs).bestRoute? v r.name p = some b :=
    bestOf_unique (ownOf_congr hvw r.name p ▸ isBestOf_bestRoute fun h => absurd (h ▸ hlocal) (by decide)) hbp
  obtain ⟨hvalues, hvalue⟩ := isValue_of_held hheld hd hr hoverall hb (hprotocol ▸ hp) rfl
  obtain ⟨hvalues', hvalue'⟩ := isValue_of_held hheld hd hr (bestRecord_mem hmany hp) hheldBest (hprotocol ▸ hp) rfl
  exact equal_of_isValue w _ (hvalues.trans hvalues'.symm) hvalue hvalue'

/-- Local protocols send nothing. -/
theorem transfers_of_held : (f.slice rs).TransfersHold w := by
  have hown := holdsOwn_of_held hstatic hheld hd hplan hvw
  intro r hr p hp
  have hname := name_mem hr
  obtain ⟨r', hr'⟩ := router_of_name hname
  have hlocal := isLocal_of_static hplan hstatic hr' hp
  have hsilent : ∀ l ∈ (f.slice rs).lanesOf r.name p, l.outgoing.permits.eval w = false := by
    intro l hl
    have hmem := (mem_lanesOf.1 hl).1
    rw [(holds_of_held hstatic hheld (mem_outgoing hmem)).permits, held_outgoing hmem]
    rfl
  have hexport : ∀ best subnets, ∀ l ∈ (f.slice rs).lanesOf r.name p,
      (f.slice rs).ExportHolds r best subnets l w := by
    intro best subnets l hl
    exact (exportHolds_of_silent (.inl ((mem_lanesOf.1 hl).2.2 ▸ hlocal))).2 (hsilent l hl)
  have horiginated : ∃ subnets, r.originated p = .ok subnets := by
    cases p with
    | connected | static => exact ⟨_, rfl⟩
    | _ => cases hlocal
  obtain ⟨subnets, hsubnets⟩ := horiginated
  refine ⟨subnets, _, hsubnets, slice_overall hname, fun l hl => ?_, ?_⟩
  · have hmem := (mem_lanesOf.1 hl).1
    obtain ⟨hl', label, hx⟩ := lane_of_static hplan hstatic hmem
    exact (importHolds_iff hstatic hl' hx).2 (hown.imports l hmem)
  · exact exportsHold_iff.2 ⟨fun _ => hexport _ subnets, fun _ l hl => hexport _ subnets l (mem_of_find?_eq_some hl),
      fun _ _ l hl => hsilent l (mem_of_getLast? hl)⟩

/-- **Where all records hold the routes that are theirs, there is a state.** -/
theorem isState_of_held (hbuild : Topology.build n selection = .ok f.topology) (hforwards : f.ForwardsOwn rs w)
    (hscenario : (f.slice rs).IsScenario request w) : (f.slice rs).IsState request w := by
  have hown := holdsOwn_of_held hstatic hheld hd hplan hvw
  have hchoices : ∀ r ∈ f.topology.routers, ∀ p ∈ f.protocols r.name, ∀ l ∈ (f.slice rs).lanesOf r.name p,
      (f.slice rs).ChoiceHolds w r p l := by
    intro r hr p hp l hl
    obtain ⟨hmem, hrouter, hprotocol⟩ := mem_lanesOf.1 hl
    have hchoice := hforwards.choices l hmem
    rw [hrouter, hprotocol] at hchoice
    exact (choiceHolds_iff hplan hstatic hown (name_mem hr) hp hl).2 hchoice
  refine ⟨hscenario.links, hscenario.failures, hscenario.packet, hforwards.access, fun x hx => ?_,
    transfers_of_held hstatic hheld hd hplan hvw, ⟨?_, ?_, hchoices, ?_, ?_, hforwards.data⟩, ?_, hscenario.space⟩
  · exact (Record.holding_isValid (record_isPlain hplan hstatic hx) (permitted_of_mem hx) (fits_of_held hstatic hx)
      f.dependencies).congr (hheld x hx) rfl
  · intro b hb
    obtain ⟨name, hname, rfl⟩ := mem_map.1 hb
    exact history_of_held hstatic hheld hd hplan hname
  · exact fun r hr p hp => perProtocol_of_held hstatic hheld hd hplan hvw (name_mem hr) hp
  · exact fun r hr hmany => overall_of_held hstatic hheld hd hplan hvw (name_mem hr) hmany
  · intro r hr e he
    exact (controlHolds_iff hplan hstatic hown hbuild hr he (hchoices r hr)).2 (hforwards.control r hr e he)
  · -- no route leads over an inactive interface
    intro l hl _ hactive
    rw [(hown.imports l hl).permits, isSome_eq_false_iff, isNone_iff_eq_none]
    exact ownRoute?_of_inactive hactive

end Held

/-- **Every packet and all failed links that are possible belong to a state.** -/
theorem exists_state (hplan : f.IsDecided basis)
    (hstatic : f.topology.IsStatic) (hd : f.Distinct) (hreads : f.ReadsAll)
    (hbuild : Topology.build n selection = .ok f.topology) (hscenario : (f.slice rs).IsScenario request v) :
    ∃ w : Valuation, v.AgreesOn w f.scenarioVariables ∧ (f.slice rs).IsState request w := by
  obtain ⟨u, hvu, hforwards⟩ := exists_forwardsOwn hd hreads rs v
  obtain ⟨w, huw, hheld⟩ := exists_held hd rs u
  have hscenarios := huw.mono scenario_sub_common
  refine ⟨w, hvu.trans hscenarios, isState_of_held hstatic hheld hd hplan hscenarios hbuild (hforwards.congr huw) ?_⟩
  exact isScenario_fixes v w (hvu.trans hscenarios) hscenario

end Frame

end ControlPlane
