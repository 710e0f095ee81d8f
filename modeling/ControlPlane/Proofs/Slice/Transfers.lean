import ControlPlane.Proofs.Ledger.Demand
import ControlPlane.Proofs.Slice.Mentions

/-!
# What flows over the edges of a slice

The constraints on lanes, said in values.  A received route comes through a transfer from the other side, or is
one that the router has by itself; a sent route is the best one after a transfer, or one that the router
originates.

* `Slice.ImportHolds` and `Slice.ExportHolds` say this for one lane, `Slice.LanesHold` for all of a protocol.
-/
namespace ControlPlane

open List Term Build Slice Transfer

variable {b : Bool} {cost distance : Document} {length : Int} {l l' : Ledger} {source x y : Record} {subnet : Subnet}
  {c : Term .bool}

/-! ## §1. The last condition that holds decides -/

theorem holds_foldlM_ite {ε α : Type} {cond : α → Term .bool} {g : α → Except ε (Term .bool)} {xs : List α}
    {init : Term .bool} {v : Valuation} {R : α → Prop} {I : Prop}
    (h : xs.foldlM (fun acc a => do return .ite (cond a) (← g a) acc) init = Except.ok c)
    (hread : ∀ a t, g a = .ok t → (t.eval v ↔ R a)) (hinit : init.eval v ↔ I) :
    c.eval v ↔ (xs.filter fun a => (cond a).eval v).getLast?.elim I R := by
  induction xs generalizing init I with
  | nil =>
    cases h
    exact hinit
  | cons a rest ih =>
    obtain ⟨next, hnext, h⟩ := bind_eq_ok.1 h
    obtain ⟨t, ht, hnext⟩ := bind_eq_ok.1 hnext
    cases hnext
    rw [filter_cons]
    cases hc : (cond a).eval v with
    | false =>
      refine ih h ?_
      rw [holds_ite, hc, hinit]
      exact ⟨fun h => h.2 rfl, fun h => ⟨nofun, fun _ => h⟩⟩
    | true =>
      have hfirst : (Term.ite (cond a) t init).eval v ↔ R a := by
        rw [holds_ite, hc, hread a t ht]
        exact ⟨fun h => h.1 rfl, fun h => ⟨fun _ => h, nofun⟩⟩
      rw [ih h hfirst, if_pos rfl, getLast?_cons]
      cases (rest.filter fun a => (cond a).eval v).getLast? <;> rfl

theorem Build.runOn_foldlM_lift {α β γ : Type} {g : α → Except Failure γ} {k : β → α → γ → β} {xs : List α} {init y : β}
    (h : (xs.foldlM (fun acc a => do return k acc a (← g a)) init : Build β).runOn l = (.ok y, l')) :
    xs.foldlM (fun acc a => do return k acc a (← g a)) init = Except.ok y ∧ l = l' := by
  induction xs generalizing init l with
  | nil =>
    obtain ⟨rfl, rfl⟩ := runOn_pure_ok.1 h
    exact ⟨rfl, rfl⟩
  | cons a rest ih =>
    obtain ⟨b, l₁, hb, h⟩ := runOn_bind_ok.1 h
    obtain ⟨z, hz, hb⟩ := runOn_lift_bind_ok.1 hb
    obtain ⟨rfl, rfl⟩ := runOn_pure_ok.1 hb
    obtain ⟨hrest, rfl⟩ := ih h
    refine ⟨?_, rfl⟩
    exact bind_eq_ok.2 ⟨_, bind_eq_ok.2 ⟨z, hz, rfl⟩, hrest⟩

/-! ## §2. Routes that a router has by itself -/

def Record.HasNumbers (x : Record) (v : Valuation) (R : IntAttribute → Int → Prop) : Prop :=
  ∀ a n, (x.under v).number a = some n → R a n

theorem Record.SameValues.hasNumbers {v w : Valuation} (h : x.SameValues v w y) {R : IntAttribute → Int → Prop} :
    x.HasNumbers v R ↔ y.HasNumbers w R := by
  unfold Record.HasNumbers
  rw [h.under]

namespace Slice

variable {v w : Valuation}

theorem holds_numberIs {t : Option (Term .int)} {value : Int} :
    (numberIs t value).eval v ↔ ∀ n, t.map (fun x => x.eval v) = some n → n = value := by
  cases t with
  | none => exact ⟨nofun, fun _ => rfl⟩
  | some t => exact (eval_is v t value).trans ⟨fun h n hn => (Option.some.inj hn).symm.trans h, fun h => h _ rfl⟩

theorem holds_writtenIs {t : Option (Term .int)} {value : Document} (h : writtenIs t value = .ok c) :
    c.eval v ↔ ∀ n, t.map (fun x => x.eval v) = some n → value.integer = .ok n := by
  cases t with
  | none =>
    cases h
    exact ⟨nofun, fun _ => rfl⟩
  | some t =>
    have hread : ∀ n, value.integer = .ok n → c = .is t n → (c.eval v ↔
        ∀ m, (some t).map (fun x => x.eval v) = some m → value.integer = .ok m) := by
      rintro n hn rfl
      rw [hn]
      refine (eval_is v t n).trans ⟨fun h m hm => ?_, fun h => (Except.ok.inj (h _ rfl)).symm⟩
      exact congrArg Except.ok (h.symm.trans (Option.some.inj hm))
    cases value with
    | null =>
      cases h
      exact ⟨nofun, fun h => absurd (h _ rfl) (by simp [Document.integer])⟩
    | _ =>
      obtain ⟨n, hn, hc⟩ := bind_eq_ok.1 h
      exact hread n hn (pure_eq_ok.1 hc).symm

/-- The numbers of a route that a router has by itself. -/
def ownNumber (length : Int) (distance : Document) : IntAttribute → Int → Prop
  | .prefixLength, n => n = length
  | .adminDist, n => distance.integer = .ok n
  | .localPref, n => n = 0
  | .metric, n => n = 0
  | _, _ => True

/-- A record holds a route that the router has by itself. -/
def IsOwn (x : Record) (v : Valuation) (length : Int) (distance : Document) : Prop :=
  x.permits.eval v ∧ x.HasNumbers v (ownNumber length distance)

theorem holds_ownRoute (h : ownRoute x length distance = .ok c) : c.eval v ↔ IsOwn x v length distance := by
  obtain ⟨d, hd, h⟩ := bind_eq_ok.1 h
  cases h
  rw [holds_allOf]
  simp only [forall_mem_cons, not_mem_nil, false_implies, implies_true, and_true]
  rw [holds_numberIs, holds_numberIs, holds_numberIs, holds_writtenIs hd]
  constructor
  · rintro ⟨hp, hlength, hdistance, hlocal, hmetric⟩
    exact ⟨hp, IntAttribute.forall_iff.2 ⟨hlength, hdistance, hlocal, hmetric, fun _ _ => trivial, fun _ _ => trivial⟩⟩
  · rintro ⟨hp, hnumbers⟩
    exact ⟨hp, hnumbers .prefixLength, hnumbers .adminDist, hnumbers .localPref, hnumbers .metric⟩

theorem isOwn_congr (h : x.SameValues v w y) : IsOwn x v length distance ↔ IsOwn y w length distance := by
  unfold IsOwn
  rw [h.permits, h.hasNumbers]

def originatedNumber (p : Protocol) (cost : Document) (length : Int) : IntAttribute → Int → Prop
  | .prefixLength, n => n = length
  | .adminDist, n => n = p.defaultDistance
  | .localPref, n => n = defaultLocalPref
  | .metric, n => cost.integer = .ok n
  | .med, n => n = Protocol.bgpMed
  | .routerId, _ => True

structure IsOriginated (x : Record) (v : Valuation) (p : Protocol) (area cost : Document) (length : Int) : Prop where
  permits : x.permits.eval v
  numbers : x.HasNumbers v (originatedNumber p cost length)
  type : x.ospfType.isSome → (x.under v).ospfRank = OspfType.O.rank
  area : ∀ a, x.ospfArea = some a → ∃ d, a.isDocument area = .ok d ∧ d.eval v
  internal : ∀ b, x.bgpInternal = some b → b.eval v = false

theorem holds_originatedType (hx : x.HoldsType) (hlists : x.ListsTypes) : (match x.ospfType with
      | none => Term.yes
      | some type => type.isValue .O).eval v ↔
        (x.ospfType.isSome → (x.under v).ospfRank = OspfType.O.rank) := by
  cases he : x.ospfType with
  | none => exact ⟨nofun, fun _ => rfl⟩
  | some e => exact (holds_isType hx hlists he .O).trans ⟨fun h _ => h, fun h => h rfl⟩

theorem holds_originatedRoute {l : Lane} (hx : l.outgoing.HoldsType) (hlists : l.outgoing.ListsTypes)
    (h : originatedRoute l cost subnet = .ok c) :
    c.eval v ↔ IsOriginated l.outgoing v l.protocol l.edge.start.ospfArea cost subnet.length := by
  obtain ⟨metric, hmetric, h⟩ := bind_eq_ok.1 h
  have htype := holds_originatedType (v := v) hx hlists
  -- the area is only compared where it is modeled
  have hall : ∀ area : Term .bool, (area.eval v ↔ ∀ a, l.outgoing.ospfArea = some a →
      ∃ d, a.isDocument l.edge.start.ospfArea = .ok d ∧ d.eval v) → ∀ type internal : Term .bool,
      (type.eval v ↔ (l.outgoing.ospfType.isSome → (l.outgoing.under v).ospfRank = OspfType.O.rank)) →
      (internal.eval v ↔ ∀ b, l.outgoing.bgpInternal = some b → b.eval v = false) →
      ((Term.allOf [l.outgoing.permits, numberIs l.outgoing.localPref defaultLocalPref,
        numberIs l.outgoing.adminDist l.protocol.defaultDistance, metric, numberIs l.outgoing.med Protocol.bgpMed,
        numberIs l.outgoing.prefixLength subnet.length, type, area, internal]).eval v ↔
      IsOriginated l.outgoing v l.protocol l.edge.start.ospfArea cost subnet.length) := by
    intro area harea type internal htype hinternal
    rw [holds_allOf]
    simp only [forall_mem_cons, not_mem_nil, false_implies, implies_true, and_true]
    rw [holds_numberIs, holds_numberIs, holds_numberIs, holds_numberIs, holds_writtenIs hmetric, harea, htype,
      hinternal]
    constructor
    · rintro ⟨hp, hlocal, hdistance, hmet, hmed, hlength, ht, ha, hi⟩
      exact ⟨hp, IntAttribute.forall_iff.2 ⟨hlength, hdistance, hlocal, hmet, hmed, fun _ _ => trivial⟩, ht, ha, hi⟩
    · intro ho
      exact ⟨ho.permits, ho.numbers .localPref, ho.numbers .adminDist, ho.numbers .metric, ho.numbers .med,
        ho.numbers .prefixLength, ho.type, ho.area, ho.internal⟩
  have hinternal := @holds_marked v l.outgoing.bgpInternal false
  dsimp only at h
  split at h
  next hnone =>
    cases h
    exact hall .yes (by simp [hnone]) _ _ htype hinternal
  next a ha =>
    obtain ⟨area, harea, h⟩ := bind_eq_ok.1 h
    cases h
    exact hall area (by simp only [ha, Option.some.injEq, forall_eq', exists_ok_iff harea]) _ _ htype hinternal

theorem IsOriginated.congr {p : Protocol} {area area' cost' : Document} (h : x.SameValues v w y)
    (harea : x.ospfArea.isSome → area = area') (hcost : cost.integer = cost'.integer)
    (ho : IsOriginated x v p area cost length) : IsOriginated y w p area' cost' length where
  permits := h.permits.symm.trans ho.permits
  numbers := by
    have hnumber : originatedNumber p cost length = originatedNumber p cost' length := by
      funext a n
      cases a with
      | metric => simp only [originatedNumber, hcost]
      | _ => rfl
    rw [← hnumber, ← h.hasNumbers]
    exact ho.numbers
  type hs := by
    rw [← h.under]
    exact ho.type (h.ospfType_isSome.trans hs)
  area b hb := by
    obtain ⟨a, ha, hvalues⟩ := h.symm.ospfArea hb
    obtain ⟨d, hd, hdv⟩ := ho.area a ha
    obtain ⟨d', hd', heval⟩ := Enumeration.isDocument_of_frozen hvalues.symm hd
    exact ⟨d', harea (by rw [ha]; rfl) ▸ hd', heval.trans hdv⟩
  internal b hb := by
    obtain ⟨c, hc, hvalue⟩ := h.symm.bgpInternal hb
    exact hvalue.trans (ho.internal c hc)

/-! ## §3. Received routes -/

section Import

variable (s s' : Slice) (r : Router) (l l' : Lane) (v w : Valuation)

def importTransfer (source : Record) : Transfer where
  frame := s.toFrame
  router := r
  source := source
  target := l.incoming
  toProtocol := l.protocol
  fromProtocol := l.protocol
  addedCost := .int 0
  edge := l.edge
  isExport := false

def importStatements (policy : Option RoutingPolicy) : List Statement :=
  (policy.map RoutingPolicy.statements).getD [.simple .exitAccept]

/-- A route can be received: the router does not originate the destination, the protocol runs over the interface,
the other side sends a route, and the link is up. -/
structure Receives (subnets : List Subnet) (source : Record) : Prop where
  notRoot : (s.packet.isBoundFor subnets).eval v = false
  active : Topology.isActive l.protocol l.edge.start
  permits : source.permits.eval v
  link : (s.notFailed l.edge).eval v

/-- The received route is the one of the other side, after a transfer. -/
def ReceivesFrom (source : Record) : Prop :=
  ∃ subnets policy, r.originated l.protocol = .ok subnets ∧
    s.topology.importPolicy r l.protocol l.edge = .ok policy ∧
    (s.Receives l v subnets source → (s.importTransfer r l source).Holds (importStatements policy) v) ∧
    (¬ s.Receives l v subnets source → l.incoming.permits.eval v = false)

structure Reaches (e : Edge) (p : Protocol) (subnet : Subnet) : Prop where
  active : Topology.isActive p e.start
  subnet : (subnet.holdsOf s.packet.dstIp).eval v
  link : (s.notFailed e).eval v

/-- The received route is that of the interface's network. -/
def ConnectedHolds : Prop :=
  match l.edge.start.subnet? with
  | none => l.incoming.permits.eval v = false
  | some subnet =>
    (s.Reaches v l.edge l.protocol subnet →
      IsOwn l.incoming v subnet.length (.int l.protocol.defaultDistance)) ∧
    (¬ s.Reaches v l.edge l.protocol subnet → l.incoming.permits.eval v = false)

def staticDistance (p : Protocol) (route : StaticRoute) : Document :=
  match route.adminCost with
  | .null => .int p.defaultDistance
  | cost => cost

def usableRoutes (e : Edge) (p : Protocol) : List StaticRoute :=
  (s.topology.staticRoutesOver e).filter fun route => (s.usableSubnet p e route.subnet).eval v

def StaticHolds : Prop :=
  (s.usableRoutes v l.edge l.protocol).getLast?.elim (l.incoming.permits.eval v = false) fun route =>
    IsOwn l.incoming v route.subnet.length (staticDistance l.protocol route)

/-- What is said about the route that is received over a lane. -/
def ImportHolds : Prop :=
  l.incoming.used → match l.protocol with
    | .connected => s.ConnectedHolds l v
    | .static => s.StaticHolds l v
    | _ => match s.across? l .incoming with
      | none => l.incoming.permits.eval v = false
      | some source => s.ReceivesFrom r l v source

variable {s s' r l l' v w}

theorem ImportHolds.across (h : s.ImportHolds r l v) (hused : l.incoming.used)
    (hlocal : l.protocol.isLocal = false) : (s.across? l .incoming = none → l.incoming.permits.eval v = false) ∧
      ∀ source, s.across? l .incoming = some source → s.ReceivesFrom r l v source := by
  have hholds := h hused
  cases hp : l.protocol with
  | connected | static => cases hp ▸ hlocal
  | ospf | bgp | best =>
    rw [hp] at hholds
    constructor
    · intro hnone
      rwa [hnone] at hholds
    · intro source hsource
      rwa [hsource] at hholds

theorem holds_usableSubnet {p : Protocol} {e : Edge} :
    (s.usableSubnet p e subnet).eval v ↔ s.Reaches v e p subnet :=
  (holds_and_three v).trans ⟨fun h => ⟨h.1, h.2.1, h.2.2⟩, fun h => ⟨h.active, h.subnet, h.link⟩⟩

/-- Without a static route that can be used nothing is received. -/
theorem StaticHolds.rests (h : s.StaticHolds l v) (hnone : ∀ route ∈ s.topology.staticRoutesOver l.edge,
      ¬ s.Reaches v l.edge l.protocol route.subnet) : l.incoming.permits.eval v = false := by
  have hroutes : s.usableRoutes v l.edge l.protocol = [] :=
    filter_eq_nil_iff.2 fun route hroute husable => hnone route hroute (holds_usableSubnet.1 husable)
  rwa [StaticHolds, hroutes] at h

theorem holds_connected (h : s.connectedConstraint l = .ok c) : c.eval v ↔ s.ConnectedHolds l v := by
  unfold connectedConstraint at h
  unfold ConnectedHolds
  cases hsubnet : l.edge.start.subnet? with
  | none =>
    rw [hsubnet] at h
    cases h
    exact holds_not v
  | some subnet =>
    rw [hsubnet] at h
    obtain ⟨own, hown, h⟩ := bind_eq_ok.1 h
    cases h
    rw [holds_ite, ← Bool.not_eq_true, holds_usableSubnet, holds_ownRoute hown, holds_not]

theorem holds_static (h : s.staticConstraint l = .ok c) : c.eval v ↔ s.StaticHolds l v := by
  exact holds_foldlM_ite h (fun _ _ => holds_ownRoute) (holds_not v)

/-- Two lanes receive alike: they are of the same edge, and the routes at their two ends have the same values. -/
structure ImportAlike (v w : Valuation) (s s' : Slice) (l l' : Lane) : Prop where
  protocol : l.protocol = l'.protocol
  edge : l.edge = l'.edge
  topology : s.topology = s'.topology
  destination : s.packet.dstIp.eval v = s'.packet.dstIp.eval w
  link : (s.notFailed l.edge).eval v = (s'.notFailed l'.edge).eval w
  source : (s.across? l .incoming).map (Record.frozen v) = (s'.across? l' .incoming).map (Record.frozen w)
  target : l.incoming.SameValues v w l'.incoming

theorem holdsOf_congr (h : s.packet.dstIp.eval v = s'.packet.dstIp.eval w) (subnet : Subnet) :
    (subnet.holdsOf s.packet.dstIp).eval v = (subnet.holdsOf s'.packet.dstIp).eval w := by
  rw [Subnet.eval_holdsOf, Subnet.eval_holdsOf, h]

theorem isBoundFor_congr (h : s.packet.dstIp.eval v = s'.packet.dstIp.eval w) (subnets : List Subnet) :
    (s.packet.isBoundFor subnets).eval v = (s'.packet.isBoundFor subnets).eval w := by
  unfold Packet.isBoundFor
  rw [eval_anyOf, eval_anyOf, any_map, any_map]
  exact congrArg subnets.any (funext fun subnet => holdsOf_congr h subnet)

namespace ImportAlike

variable (h : ImportAlike v w s s' l l')
include h

theorem reaches_iff (subnet : Subnet) : s.Reaches v l.edge l.protocol subnet ↔
    s'.Reaches w l'.edge l'.protocol subnet := by
  have hsubnet := holdsOf_congr h.destination subnet
  constructor <;> intro hr
  all_goals exact ⟨h.protocol ▸ h.edge ▸ hr.active, hsubnet ▸ hr.subnet, h.link ▸ hr.link⟩

theorem connectedHolds (hv : s.ConnectedHolds l v) : s'.ConnectedHolds l' w := by
  unfold ConnectedHolds at hv ⊢
  rw [← h.edge]
  cases hsubnet : l.edge.start.subnet? with
  | none =>
    rw [hsubnet] at hv
    exact h.target.permits ▸ hv
  | some subnet =>
    rw [hsubnet] at hv
    dsimp only at hv ⊢
    rw [h.edge, ← h.reaches_iff, ← h.protocol, ← isOwn_congr h.target, ← h.target.permits]
    exact hv

theorem staticHolds (hv : s.StaticHolds l v) : s'.StaticHolds l' w := by
  unfold StaticHolds at hv ⊢
  have hroutes : s.usableRoutes v l.edge l.protocol = s'.usableRoutes w l'.edge l'.protocol := by
    unfold usableRoutes
    rw [h.topology, ← h.edge, ← h.protocol]
    refine filter_congr fun route _ => ?_
    rw [Bool.eq_iff_iff, holds_usableSubnet, holds_usableSubnet, h.reaches_iff, h.edge, h.protocol]
  rw [← hroutes]
  cases hlast : (s.usableRoutes v l.edge l.protocol).getLast? with
  | none =>
    rw [hlast] at hv
    exact h.target.permits ▸ hv
  | some route =>
    rw [hlast] at hv
    rw [Option.elim_some, ← h.protocol, ← isOwn_congr h.target]
    exact hv

section

variable {source' : Record} (hs : source.SameValues v w source')
include hs

theorem transfer :
    Transfer.Alike v w (s.importTransfer r l source) (s'.importTransfer r l' source') where
  source := hs
  target := h.target
  router := rfl
  toProtocol := h.protocol
  fromProtocol := h.protocol
  isExport := rfl
  addedCost := rfl
  area _ _ := congrArg (fun e : Edge => e.start.ospfArea) h.edge
  isInternal := by
    unfold Transfer.isInternal importTransfer
    rw [h.protocol, h.topology, h.edge]
  sendsCommunity := by
    unfold Transfer.sendsCommunity importTransfer
    rw [h.protocol, h.topology, h.edge]
  destination := h.destination
  aggregates he := absurd he Bool.false_ne_true
  suppressed he := absurd he Bool.false_ne_true

theorem receives_iff (subnets : List Subnet) : s.Receives l v subnets source ↔ s'.Receives l' w subnets source' := by
  have hroot := isBoundFor_congr h.destination subnets
  constructor <;> intro hr
  all_goals exact ⟨hroot ▸ hr.notRoot, h.protocol ▸ h.edge ▸ hr.active, hs.permits ▸ hr.permits, h.link ▸ hr.link⟩

theorem receivesFrom (hv : s.ReceivesFrom r l v source) : s'.ReceivesFrom r l' w source' := by
  obtain ⟨subnets, policy, hsubnets, hpolicy, hyes, hno⟩ := hv
  refine ⟨subnets, policy, h.protocol ▸ hsubnets, ?_, ?_, ?_⟩
  · rw [← h.topology, ← h.protocol, ← h.edge]
    exact hpolicy
  · rw [← h.receives_iff hs, ← (h.transfer hs).holds_iff]
    exact hyes
  · rw [← h.receives_iff hs, ← h.target.permits]
    exact hno

end

/-- **What is received is told by the values at the two ends of a lane.** -/
theorem importHolds (hv : s.ImportHolds r l v) : s'.ImportHolds r l' w := by
  intro hused
  have hv := hv ((congrArg Record.used h.target).trans hused)
  have hother : (match s.across? l .incoming with
      | none => l.incoming.permits.eval v = false
      | some source => s.ReceivesFrom r l v source) → match s'.across? l' .incoming with
      | none => l'.incoming.permits.eval w = false
      | some source => s'.ReceivesFrom r l' w source := by
    intro hv
    cases hsource : s.across? l .incoming with
    | none =>
      have hsource' := h.source
      rw [hsource] at hv hsource'
      rw [Option.map_eq_none_iff.1 hsource'.symm]
      exact h.target.permits ▸ hv
    | some source =>
      have hsource' := h.source
      rw [hsource] at hv hsource'
      obtain ⟨source', hsome, hsame⟩ := Option.map_eq_some_iff.1 hsource'.symm
      rw [hsome]
      exact h.receivesFrom (Eq.symm hsame) hv
  rw [← h.protocol]
  cases hp : l.protocol with
  | connected =>
    rw [hp] at hv
    exact h.connectedHolds hv
  | static =>
    rw [hp] at hv
    exact h.staticHolds hv
  | ospf | bgp | best =>
    rw [hp] at hv
    exact hother hv

end ImportAlike

end Import

/-! ## §4. Sent routes -/

section Export

variable (s s' : Slice) (r : Router) (best best' : Record) (subnets : List Subnet) (l l' : Lane) (v w : Valuation)

/-- Whether the best route may be sent over a lane, and what that adds to its metric.  Routes that were learned over
iBGP are not sent over iBGP. -/
def sending : Term .bool × Document :=
  match l.protocol, s.topology.isInternal l.edge, best.bgpInternal with
  | .bgp, true, some internal => (.not internal, .int 0)
  | _, _, _ => (.yes, addedCost l.protocol l.edge)

def exportTransfer : Transfer where
  frame := s.toFrame
  router := r
  source := best
  target := l.outgoing
  toProtocol := l.protocol
  fromProtocol := l.protocol
  addedCost := (s.sending best l).2
  edge := l.edge
  isExport := true

/-- The best route can be sent. -/
structure Sends : Prop where
  may : (s.sending best l).1.eval v
  permits : best.permits.eval v
  link : (s.notFailed l.edge).eval v
  source : (s.redistributionGuard l.router l.protocol best).eval v

/-- The term that says so, over an interface that is active. -/
def sendable : Term .bool :=
  .allOf [.boolLit (Topology.isActive l.protocol l.edge.start), (s.sending best l).1, best.permits, s.notFailed l.edge,
    s.redistributionGuard l.router l.protocol best]

/-- The sent route is the best one, after a transfer. -/
def SendsBest : Prop :=
  ∃ policy, s.topology.exportPolicy r l.protocol l.edge = .ok policy ∧
    (s.Sends best l v → (s.exportTransfer r best l).Holds (exportStatements l.protocol policy) v) ∧
    (¬ s.Sends best l v → l.outgoing.permits.eval v = false)

def matching : List Subnet := subnets.filter fun n => (n.holdsOf s.packet.dstIp).eval v

/-- What is said about the route that is sent over a lane: where the router originates the destination, it is the
originated route, and the best one otherwise. -/
def ExportHolds : Prop :=
  if l.protocol.isLocal || !Topology.isActive l.protocol l.edge.start then l.outgoing.permits.eval v = false
  else (s.matching subnets v).getLast?.elim (s.SendsBest r best l v) fun subnet =>
    IsOriginated l.outgoing v l.protocol l.edge.start.ospfArea (s.sending best l).2 subnet.length

variable {s s' r best best' subnets l l' v w}

structure ExportAlike (v w : Valuation) (s s' : Slice) (r : Router) (best best' : Record) (l l' : Lane) : Prop where
  protocol : l.protocol = l'.protocol
  destination : s.packet.dstIp.eval v = s'.packet.dstIp.eval w
  active : Topology.isActive l.protocol l.edge.start = Topology.isActive l'.protocol l'.edge.start
  policy : (s.topology.exportPolicy r l.protocol l.edge).map (exportStatements l.protocol) =
    (s'.topology.exportPolicy r l'.protocol l'.edge).map (exportStatements l'.protocol)
  may : (s.sending best l).1.eval v = (s'.sending best' l').1.eval w
  cost : (s.sending best l).2.integer = (s'.sending best' l').2.integer
  link : (s.notFailed l.edge).eval v = (s'.notFailed l'.edge).eval w
  guard : (s.redistributionGuard l.router l.protocol best).eval v =
    (s'.redistributionGuard l'.router l'.protocol best').eval w
  source : best.SameValues v w best'
  target : l.outgoing.SameValues v w l'.outgoing
  area : l.outgoing.ospfType.isSome ∧ best.ospfArea.isSome ∨ l.outgoing.ospfArea.isSome →
    l.edge.start.ospfArea = l'.edge.start.ospfArea
  isInternal : (s.exportTransfer r best l).isInternal = (s'.exportTransfer r best' l').isInternal
  sendsCommunity : (s.exportTransfer r best l).sendsCommunity = (s'.exportTransfer r best' l').sendsCommunity
  aggregates : (s.exportTransfer r best l).aggregates = (s'.exportTransfer r best' l').aggregates
  suppressed : (s.exportTransfer r best l).suppressed = (s'.exportTransfer r best' l').suppressed

namespace ExportAlike

variable (h : ExportAlike v w s s' r best best' l l')
include h

theorem transfer : Transfer.Alike v w (s.exportTransfer r best l) (s'.exportTransfer r best' l') where
  source := h.source
  target := h.target
  router := rfl
  toProtocol := h.protocol
  fromProtocol := h.protocol
  isExport := rfl
  addedCost := h.cost
  area htells hs := h.area (htells.imp (fun htype => ⟨htype, hs⟩) id)
  isInternal := h.isInternal
  sendsCommunity := h.sendsCommunity
  destination := h.destination
  aggregates _ := h.aggregates
  suppressed _ := h.suppressed

theorem sends_iff : s.Sends best l v ↔ s'.Sends best' l' w := by
  constructor <;> intro hs
  all_goals exact ⟨h.may ▸ hs.may, h.source.permits ▸ hs.permits, h.link ▸ hs.link, h.guard ▸ hs.source⟩

theorem sendsBest (hv : s.SendsBest r best l v) : s'.SendsBest r best' l' w := by
  obtain ⟨policy, hpolicy, hyes, hno⟩ := hv
  have hstatements := h.policy
  rw [hpolicy] at hstatements
  cases hpolicy' : s'.topology.exportPolicy r l'.protocol l'.edge with
  | error fault =>
    rw [hpolicy'] at hstatements
    exact absurd hstatements (by simp [Except.map])
  | ok policy' =>
    rw [hpolicy'] at hstatements
    have hstatements : exportStatements l.protocol policy = exportStatements l'.protocol policy' :=
      Except.ok.inj hstatements
    refine ⟨policy', hpolicy', fun hs => ?_, fun hs => ?_⟩
    · rw [← hstatements]
      exact h.transfer.holds (hyes (h.sends_iff.2 hs))
    · rw [← h.target.permits]
      exact hno fun h' => hs (h.sends_iff.1 h')

/-- **What is sent is told by the values of the best route and the sent one.** -/
theorem exportHolds (hv : s.ExportHolds r best subnets l v) : s'.ExportHolds r best' subnets l' w := by
  unfold ExportHolds at hv ⊢
  rw [← h.active, ← h.protocol]
  split at hv
  next hlocal =>
    rw [if_pos hlocal, ← h.target.permits]
    exact hv
  next hlocal =>
    have hmatching : s.matching subnets v = s'.matching subnets w := by
      exact filter_congr fun subnet _ => holdsOf_congr h.destination subnet
    rw [if_neg hlocal, ← hmatching]
    cases hlast : (s.matching subnets v).getLast? with
    | none =>
      rw [hlast] at hv
      exact h.sendsBest hv
    | some subnet =>
      rw [hlast] at hv
      exact IsOriginated.congr h.target (fun ha => h.area (.inr ha)) h.cost hv

end ExportAlike

theorem exportHolds_of_silent
    (hsilent : l.protocol.isLocal ∨ Topology.isActive l.protocol l.edge.start = false) :
    s.ExportHolds r best subnets l v ↔ l.outgoing.permits.eval v = false := by
  have hcond : (l.protocol.isLocal || !Topology.isActive l.protocol l.edge.start) := by
    rcases hsilent with hlocal | hinactive
    · rw [hlocal, Bool.true_or]
    · rw [hinactive, Bool.not_false, Bool.or_true]
  unfold ExportHolds
  rw [if_pos hcond]

theorem holds_sendable (hactive : Topology.isActive l.protocol l.edge.start) :
    (s.sendable best l).eval v ↔ s.Sends best l v := by
  rw [sendable, holds_allOf]
  simp only [forall_mem_cons, not_mem_nil, false_implies, implies_true, and_true]
  exact ⟨fun h => ⟨h.2.1, h.2.2.1, h.2.2.2.1, h.2.2.2.2⟩, fun h => ⟨hactive, h.may, h.permits, h.link, h.source⟩⟩

theorem sending_congr (h : best.SameValues v w best) : (s.sending best l).1.eval v = (s.sending best l).1.eval w := by
  unfold sending
  split
  next internal hinternal =>
    obtain ⟨c, hc, heval⟩ := h.bgpInternal hinternal
    cases hinternal.symm.trans hc
    exact congrArg (!·) heval
  next => rfl

theorem redistributionGuard_congr (h : best.SameValues v w best) (name : Name) (p : Protocol) :
    (s.redistributionGuard name p best).eval v = (s.redistributionGuard name p best).eval w := by
  unfold redistributionGuard
  split
  next => rfl
  next e he =>
    obtain ⟨b, hb, hfrozen⟩ := h.history he
    cases he.symm.trans hb
    rw [eval_anyOf, eval_anyOf, any_map, any_map]
    refine congrArg _ (funext fun p => ?_)
    show (e.isValue p).eval v = (e.isValue p).eval w
    rw [← e.eval_isValue_frozen v v p, ← e.eval_isValue_frozen w v p, hfrozen]

end Export

/-! ## §5. All lanes of a protocol -/

section Lanes

variable (s : Slice) (r : Router) (best : Record) (subnets : List Subnet) (p : Protocol) (v : Valuation)

def laneIsActive (l : Lane) : Bool := Topology.isActive p l.edge.start

/-- What is said about the routes that are sent over some lanes.  A shared record is that of the first active lane,
and holds no route without one. -/
def ExportsHold (lanes : List Lane) : Prop :=
  if s.mergesExport r.name p then
    (lanes.find? (laneIsActive p)).elim (∀ l, lanes.getLast? = some l → l.outgoing.permits.eval v = false) fun l =>
      s.ExportHolds r best subnets l v
  else ∀ l ∈ lanes, s.ExportHolds r best subnets l v

def LanesHold : Prop :=
  ∃ subnets best, r.originated p = .ok subnets ∧ s.overall r.name = .ok best ∧
    (∀ l ∈ s.lanesOf r.name p, s.ImportHolds r l v) ∧ s.ExportsHold r best subnets p v (s.lanesOf r.name p)

def TransfersHold : Prop := ∀ r ∈ s.topology.routers, ∀ p ∈ s.protocols r.name, s.LanesHold r p v

variable {s s' : Slice} {r best best' subnets p v} {w : Valuation} {lanes lanes' : List Lane}

theorem exportsHold_iff : s.ExportsHold r best subnets p v lanes ↔
    (s.mergesExport r.name p = false → ∀ l ∈ lanes, s.ExportHolds r best subnets l v) ∧
    (s.mergesExport r.name p → ∀ l, lanes.find? (laneIsActive p) = some l →
      s.ExportHolds r best subnets l v) ∧
    (s.mergesExport r.name p → lanes.find? (laneIsActive p) = none →
      ∀ l, lanes.getLast? = some l → l.outgoing.permits.eval v = false) := by
  unfold ExportsHold
  cases s.mergesExport r.name p with
  | false => simp
  | true => cases lanes.find? (laneIsActive p) <;> simp

/-- **The exports of a protocol hold alike where the same ones share a record.** -/
theorem exportsHold_alike (hmerges : s'.mergesExport r.name p = s.mergesExport r.name p)
    (hlanes : List.Forall₂ (fun l l' => ExportAlike v w s s' r best best' l l' ∧ laneIsActive p l = laneIsActive p l')
      lanes lanes') (hv : s.ExportsHold r best subnets p v lanes) : s'.ExportsHold r best' subnets p w lanes' := by
  obtain ⟨hown, hfirst, hsilent⟩ := exportsHold_iff.1 hv
  have hflip := hlanes.flip
  rw [exportsHold_iff, hmerges]
  refine ⟨fun hm l' hl' => ?_, fun hm l' hl' => ?_, fun hm hnone l' hl' => ?_⟩
  · obtain ⟨l, hl, halike, -⟩ := forall₂_mem_right hlanes hl'
    exact halike.exportHolds (hown hm l hl)
  · obtain ⟨l, hl, halike, -⟩ := Plan.forall₂_find? hflip (fun _ _ h => h.2.symm) hl'
    exact halike.exportHolds (hfirst hm l hl)
  · obtain ⟨l, hl, halike, -⟩ := Plan.forall₂_getLast? hlanes hl'
    rw [← halike.target.permits]
    exact hsilent hm (Plan.forall₂_find?_none hflip (fun _ _ h => h.2.symm) hnone) l hl

end Lanes

end Slice

/-! ## §6. What received routes demand -/

namespace Frame

variable {f : Frame} {rs : List Redistribution} {r : Router} {m : Lane} {v w : Valuation}

theorem record_sameValues (hx : x ∈ f.records) (hvw : v.AgreesOn w f.layoutVariables) : x.SameValues v w x :=
  (record_allOver hx).sameValues hvw

theorem incoming_sameValues (hm : m ∈ f.allLanes) (hvw : v.AgreesOn w f.layoutVariables) :
    m.incoming.SameValues v w m.incoming :=
  (incoming_allOver hm).sameValues hvw

theorem readsTypes {t : Transfer} (hs : t.source.IsPlanned f) (ht : t.target.IsPlanned f) : t.ReadsTypes where
  source := hs.holdsType
  target := ht.holdsType
  lists := ht.listsTypes
  area htype harea := by
    -- a record with a type keeps types, and one with an area is of a router that runs OSPF
    have hkeep : f.plan.keepOspfType := by
      obtain ⟨name, router, p, history, hx, -⟩ := ht
      rw [hx] at htype
      have htype : (Record.typeIf (Record.shapeAt f name router p).ospfType name).isSome := htype
      have hshape : (Record.shapeAt f name router p).ospfType := by
        by_contra h
        rw [Bool.eq_false_iff.2 h] at htype
        cases htype
      cases p with
      | ospf => exact hshape
      | best => exact (Bool.and_eq_true _ _ ▸ hshape : _ ∧ _).2
      | _ => cases hshape
    obtain ⟨name, router, p, history, hx, -⟩ := hs
    rw [hx] at harea ⊢
    have harea : (Record.areaOf name ((Record.areasFor f name router p).toOption.getD [])).isSome := harea
    have hwants : Record.wantsArea (f.planFor router) name p := by
      by_contra h
      rw [Record.areasFor, if_neg h] at harea
      exact absurd harea (by simp [Record.areaOf, Except.toOption])
    have hshape : (Record.shapeAt f name router p).ospfType := by
      simp only [Record.wantsArea, Bool.and_eq_true, Bool.or_eq_true, beq_iff_eq] at hwants
      obtain ⟨⟨-, hospf⟩, rfl | rfl⟩ := hwants
      · exact hkeep
      · show ((f.planFor router).protocolList.contains .ospf && f.plan.keepOspfType)
        rw [hospf, hkeep, Bool.and_self]
    show (Record.typeIf (Record.shapeAt f name router p).ospfType name).isSome
    rw [hshape]
    rfl

theorem import_alike (hm : m ∈ f.allLanes) (hvw : v.AgreesOn w f.layoutVariables) :
    Slice.ImportAlike v w (f.slice rs) (f.slice rs) m m where
  protocol := rfl
  edge := rfl
  topology := rfl
  destination := (over_field .dstIp).eval_eq v w (hvw.mono common_sub_layout)
  link := (over_notFailed (lane_edge hm)).eval_eq v w (hvw.mono common_sub_layout)
  source := by
    cases hsource : (f.slice rs).across? m .incoming with
    | none => rfl
    | some source => exact congrArg some (record_sameValues (mem_across hsource) hvw)
  target := incoming_sameValues hm hvw

/-- The transfers of a slice only define variables, and then say what they say in values. -/
theorem compute_tells (hf : f.communities.Nodup) {t : Transfer} (hframe : t.frame = f) (hs : t.source ∈ f.records)
    (ht : t.target ∈ f.records) {policy : List Statement} (hl : f.layoutVariables ⊆ l.vars)
    (hrun : (t.compute policy).runOn l = (.ok c, l')) : Tells (t.Holds policy) l l' c := by
  have hplanned := (isPlanned_of_mem hs).1
  obtain ⟨hdestination, hover⟩ := over_source hframe hs hl
  obtain ⟨hgrows, hreads, habout, hcomplete⟩ := t.compute_holds True (readsTypes hplanned (isPlanned_of_mem ht).1) hrun
    (hplanned.fit hf) (fun _ => hdestination) (fun _ => hover)
  obtain ⟨r, after, related, rfl, hrelate, hkeeps, hem⟩ := t.compute_ok True hrun (hplanned.fit hf)
    (fun _ => hdestination) (fun _ => hover)
  have hsub : f.layoutVariables ⊆ l'.vars := fun _ hz => hgrows.vars.subset (hl hz)
  have htarget := (record_allOver ht).mono hsub
  obtain ⟨hresult, hafter⟩ := hem.scope trivial
  have hrelated := over_relate ((record_allOver hs).mono hsub) htarget hkeeps hafter.1 r related hrelate
  exact ⟨hgrows, hreads, hresult.1.ite hrelated htarget.permits.not, habout trivial, hcomplete trivial⟩

theorem demands_receives (hf : f.communities.Nodup) (hm : m ∈ f.allLanes) (hused : m.incoming.used)
    (hsource : source ∈ f.records) :
    Demands f.layoutVariables (do
      let isRoot := (f.slice rs).packet.isBoundFor (← r.originated m.protocol)
      let usable := Term.and [.not isRoot, .boolLit (Topology.isActive m.protocol m.edge.start), source.permits,
        (f.slice rs).notFailed m.edge]
      let policy ← (f.slice rs).topology.importPolicy r m.protocol m.edge
      Build.require (.ite usable
        (← ((f.slice rs).importTransfer r m source).compute (Slice.importStatements policy))
        (.not m.incoming.permits))) ((f.slice rs).ReceivesFrom r m · source) := by
  have hfixes : Valuation.Fixes f.layoutVariables ((f.slice rs).ReceivesFrom r m · source) :=
    fun v w hvw hv => (import_alike hm hvw).receivesFrom (record_sameValues hsource hvw) hv
  refine Demands.lift hfixes fun subnets hsubnets => Demands.lift hfixes fun policy hpolicy => ?_
  refine Demands.tell (k := fun c => pure (Term.ite _ c _)) hfixes (fun l c l' hl hrun =>
    compute_tells hf rfl hsource (mem_incoming hm hused) hl hrun) fun c l d l' hd => ?_
  obtain ⟨rfl, rfl⟩ := runOn_pure_ok.1 hd
  refine ⟨rfl, fun hl hc => ?_, fun v hc => ?_⟩
  · refine Term.Within.ite (within_and.2 ?_) hc ((incoming_allOver hm).permits.not.mono hl)
    simp only [forall_mem_cons]
    exact ⟨((over_isBoundFor subnets).mono fun _ hz => hl (common_sub_layout hz)).not, within_boolLit _,
      (record_allOver hsource).permits.mono hl, (layout_notFailed hm).mono hl, by simp⟩
  have husable : (Term.and [.not ((f.slice rs).packet.isBoundFor subnets),
      .boolLit (Topology.isActive m.protocol m.edge.start), source.permits,
      (f.slice rs).notFailed m.edge]).eval v ↔
        (f.slice rs).Receives m v subnets source := by
    rw [holds_and]
    simp only [forall_mem_cons, not_mem_nil, false_implies, implies_true, and_true]
    rw [holds_not]
    exact ⟨fun h => ⟨h.1, h.2.1, h.2.2.1, h.2.2.2⟩, fun h => ⟨h.notRoot, h.active, h.permits, h.link⟩⟩
  rw [holds_ite, ← Bool.not_eq_true, husable, hc, holds_not, Slice.ReceivesFrom, exists_ok_ok_iff hsubnets hpolicy]

theorem demands_import (hf : f.communities.Nodup) (hm : m ∈ f.allLanes) :
    Demands f.layoutVariables ((f.slice rs).importConstraint r m)
      ((f.slice rs).ImportHolds r m) := by
  have hfixes : Valuation.Fixes f.layoutVariables ((f.slice rs).ImportHolds r m) :=
    fun v w hvw hv => (import_alike hm hvw).importHolds hv
  unfold Slice.ImportHolds at hfixes ⊢
  unfold Slice.importConstraint
  cases hused : m.incoming.used with
  | false =>
    refine Demands.pure.congr fun v => ⟨fun _ h => ?_, fun _ => trivial⟩
    cases h
  | true =>
    rw [hused] at hfixes
    -- all protocols but those of the router's own
    have hother : ∀ p, m.protocol = p → Demands f.layoutVariables
        (match (f.slice rs).across? m .incoming with
          | none => Build.require (.not m.incoming.permits)
          | some source => do
            let isRoot := (f.slice rs).packet.isBoundFor (← r.originated p)
            let usable := Term.and [.not isRoot, .boolLit (Topology.isActive p m.edge.start), source.permits,
              (f.slice rs).notFailed m.edge]
            let policy ← (f.slice rs).topology.importPolicy r p m.edge
            let t : Transfer := {
              frame := f, router := r, source, target := m.incoming, toProtocol := p, fromProtocol := p
              addedCost := .int 0, edge := m.edge, isExport := false }
            Build.require (.ite usable (← t.compute (Slice.importStatements policy)) (.not m.incoming.permits)))
        fun v => match (f.slice rs).across? m .incoming with
          | none => m.incoming.permits.eval v = false
          | some source => (f.slice rs).ReceivesFrom r m v source := by
      rintro _ rfl
      cases hsource : (f.slice rs).across? m .incoming with
      | none => exact Demands.requireReading (incoming_allOver hm).permits.not fun v => holds_not v
      | some source => exact demands_receives hf hm hused (mem_across hsource)
    cases hp : m.protocol with
    | connected =>
      rw [hp] at hfixes
      refine Demands.lift hfixes fun c hc => Demands.requireReading (over_connectedConstraint hm c hc) fun v => ?_
      exact (holds_connected hc).trans ⟨fun h _ => h, fun h => h rfl⟩
    | static =>
      rw [hp] at hfixes
      refine Demands.lift hfixes fun c hc => Demands.requireReading (over_staticConstraint hm c hc) fun v => ?_
      exact (holds_static hc).trans ⟨fun h _ => h, fun h => h rfl⟩
    | ospf | bgp | best => exact (hother _ hp).congr fun v => ⟨fun h _ => h, fun h => h rfl⟩

/-! ## §7. What sent routes demand -/

theorem export_alike {best : Record} (hm : m ∈ f.allLanes) (hbest : best ∈ f.records)
    (hvw : v.AgreesOn w f.layoutVariables) :
    Slice.ExportAlike v w (f.slice rs) (f.slice rs) r best best m m where
  protocol := rfl
  destination := (over_field .dstIp).eval_eq v w (hvw.mono common_sub_layout)
  active := rfl
  policy := rfl
  may := sending_congr (record_sameValues hbest hvw)
  cost := rfl
  link := (over_notFailed (lane_edge hm)).eval_eq v w (hvw.mono common_sub_layout)
  guard := redistributionGuard_congr (record_sameValues hbest hvw) _ _
  source := record_sameValues hbest hvw
  target := record_sameValues (mem_outgoing hm) hvw
  area _ := rfl
  isInternal := rfl
  sendsCommunity := rfl
  aggregates := rfl
  suppressed := rfl

theorem over_sendable {best : Record} (hm : m ∈ f.allLanes) (hbest : best ∈ f.records) :
    ((f.slice rs).sendable best m).Over f.layoutVariables := by
  have hall := record_allOver hbest
  refine within_allOf.2 ?_
  simp only [forall_mem_cons]
  refine ⟨within_boolLit _, ?_, hall.permits, layout_notFailed hm, ?_, by simp⟩
  · unfold Slice.sending
    split
    next internal _ _ hinternal => exact (hall.internal internal hinternal).not
    · exact within_yes
  · unfold Slice.redistributionGuard
    split
    · exact within_yes
    next history hhistory =>
      refine within_anyOf.2 fun t ht => ?_
      obtain ⟨q, -, rfl⟩ := mem_map.1 ht
      exact (hall.history history hhistory).isValue q

theorem demands_export (hf : f.communities.Nodup) {best : Record} (hm : m ∈ f.allLanes) (hbest : best ∈ f.records)
    (subnets : List Subnet) :
    Demands f.layoutVariables ((f.slice rs).exportConstraint r best subnets m)
      ((f.slice rs).ExportHolds r best subnets m) := by
  have hfixes : Valuation.Fixes f.layoutVariables ((f.slice rs).ExportHolds r best subnets m) :=
    fun v w hvw hv => (export_alike hm hbest hvw).exportHolds hv
  have hplanned := (isPlanned_of_mem (mem_outgoing hm)).1
  have houtgoing := outgoing_allOver hm
  unfold Slice.ExportHolds at hfixes ⊢
  unfold Slice.exportConstraint
  by_cases hlocal : (m.protocol.isLocal || !Topology.isActive m.protocol m.edge.start)
  · simp only [if_pos hlocal] at hfixes ⊢
    exact Demands.requireReading houtgoing.permits.not fun v => holds_not v
  · simp only [if_neg hlocal] at hfixes ⊢
    have hactive : Topology.isActive m.protocol m.edge.start := by
      simp only [Bool.or_eq_true, Bool.not_eq_true', not_or, Bool.not_eq_false] at hlocal
      exact hlocal.2
    show Demands f.layoutVariables (do
      let policy ← (f.slice rs).topology.exportPolicy r m.protocol m.edge
      let c ← ((f.slice rs).exportTransfer r best m).compute (Slice.exportStatements m.protocol policy)
      let d ← subnets.foldlM (fun acc subnet => do
        return Term.ite (.and [.boolLit (Topology.isActive m.protocol m.edge.start),
            subnet.holdsOf (f.slice rs).packet.dstIp])
          (← Slice.originatedRoute m ((f.slice rs).sending best m).2 subnet) acc)
        (Term.ite ((f.slice rs).sendable best m) c (.not m.outgoing.permits))
      Build.require d) _
    refine Demands.lift hfixes fun policy hpolicy => ?_
    refine Demands.tell hfixes (fun l c l' hl hrun => compute_tells hf rfl hbest (mem_outgoing hm) hl hrun)
      fun c l d l' hd => ?_
    obtain ⟨hfold, rfl⟩ := runOn_foldlM_lift hd
    refine ⟨rfl, fun hl hc => ?_, fun v hc => ?_⟩
    · refine Yields.foldlM (fun subnet _ acc hacc => ?_) ?_ d hfold
      · refine .bind (over_originatedRoute (houtgoing.mono hl) _ subnet) fun t ht => .pure ?_
        refine Term.Within.ite (within_and.2 ?_) ht hacc
        simp only [forall_mem_cons]
        exact ⟨within_boolLit _, (layout_holdsOf subnet).mono hl, by simp⟩
      · exact ((over_sendable hm hbest).mono hl).ite hc (houtgoing.permits.not.mono hl)
    have hbestRoute : (Term.ite ((f.slice rs).sendable best m) c (.not m.outgoing.permits)).eval v ↔
        (f.slice rs).SendsBest r best m v := by
      rw [holds_ite, ← Bool.not_eq_true, holds_sendable hactive, hc, holds_not, Slice.SendsBest,
        exists_ok_iff hpolicy]
    have hmatching : (subnets.filter fun n => (Term.and [.boolLit (Topology.isActive m.protocol m.edge.start),
        n.holdsOf (f.slice rs).packet.dstIp]).eval v) =
          (f.slice rs).matching subnets v := by
      refine filter_congr fun n _ => ?_
      rw [Bool.eq_iff_iff, holds_and_two]
      exact ⟨fun h => h.2, fun h => ⟨hactive, h⟩⟩
    rw [holds_foldlM_ite hfold (fun _ _ => holds_originatedRoute hplanned.holdsType hplanned.listsTypes)
      hbestRoute, hmatching]

/-! ## §8. What all lanes demand -/

/-- One lane; `exported` says whether the shared record has its constraint. -/
def laneStep (f : Frame) (rs : List Redistribution) (r : Router) (best : Record) (subnets : List Subnet)
    (p : Protocol) (merged exported : Bool) (m : Lane) : Build Bool := do
  (f.slice rs).importConstraint r m
  if merged && (exported || !Topology.isActive p m.edge.start) then return exported
  else
    (f.slice rs).exportConstraint r best subnets m
    return true

/-- Whether the shared record has its constraint after some lanes. -/
def isExported (p : Protocol) (merged exported : Bool) (lanes : List Lane) : Bool :=
  if merged then exported || lanes.any (Slice.laneIsActive p) else exported || !lanes.isEmpty

section Lanes

variable {best : Record} {subnets : List Subnet} {p : Protocol} {merged exported : Bool} {lanes : List Lane}

theorem laneStep_result (h : (f.laneStep rs r best subnets p merged exported m).runOn l = (.ok b, l')) :
    b = isExported p merged exported [m] := by
  obtain ⟨_, l₁, -, h⟩ := runOn_bind_ok.1 h
  unfold isExported
  split at h
  next hskip =>
    obtain ⟨rfl, -⟩ := runOn_pure_ok.1 h
    cases merged with
    | false => cases hskip
    | true => cases hactive : Topology.isActive p m.edge.start <;> simp_all [Slice.laneIsActive]
  next hskip =>
    obtain ⟨_, l₂, -, h⟩ := runOn_bind_ok.1 h
    obtain ⟨rfl, -⟩ := runOn_pure_ok.1 h
    cases merged <;> simp_all [Slice.laneIsActive]

theorem lanes_result (h : (lanes.foldlM (f.laneStep rs r best subnets p merged) exported).runOn l = (.ok b, l')) :
    b = isExported p merged exported lanes := by
  induction lanes generalizing exported l with
  | nil =>
    obtain ⟨rfl, -⟩ := runOn_pure_ok.1 h
    cases merged <;> simp [isExported]
  | cons m rest ih =>
    obtain ⟨c, l₁, hc, h⟩ := runOn_bind_ok.1 h
    obtain rfl := laneStep_result hc
    rw [ih h]
    cases merged <;> simp [isExported, Bool.or_assoc]

theorem integer_of_exportConstraint {u : Unit}
    (h : ((f.slice rs).exportConstraint r best subnets m).runOn l = (.ok u, l')) (hlocal : m.protocol.isLocal = false)
    (hactive : Topology.isActive m.protocol m.edge.start) :
    ∃ cost, ((f.slice rs).sending best m).2.integer = .ok cost := by
  unfold Slice.exportConstraint at h
  dsimp only at h
  rw [hlocal, hactive] at h
  obtain ⟨policy, l₁, -, h⟩ := runOn_bind_ok.1 h
  obtain ⟨c, l₂, hcompute, -⟩ := runOn_bind_ok.1 h
  exact ((f.slice rs).exportTransfer r best m).integer_of_compute hcompute

theorem exists_of_runOn_lanes (h : (lanes.foldlM (f.laneStep rs r best subnets p false) exported).runOn l = (.ok b, l'))
    (hm : m ∈ lanes) : ∃ k k', ((f.slice rs).exportConstraint r best subnets m).runOn k = (.ok (), k') := by
  induction lanes generalizing exported l with
  | nil => cases hm
  | cons k rest ih =>
    obtain ⟨c, l₁, hc, h⟩ := runOn_bind_ok.1 h
    rcases mem_cons.1 hm with rfl | hm
    · obtain ⟨_, l₂, -, hc⟩ := runOn_bind_ok.1 hc
      obtain ⟨_, l₃, hexport, -⟩ := runOn_bind_ok.1 hc
      exact ⟨l₂, l₃, hexport⟩
    · exact ih h hm

theorem demands_laneStep (hf : f.communities.Nodup) (hm : m ∈ f.allLanes) (hbest : best ∈ f.records) :
    Demands f.layoutVariables (f.laneStep rs r best subnets p merged exported m) fun v =>
      (f.slice rs).ImportHolds r m v ∧ ((merged && (exported || !Slice.laneIsActive p m)) = false →
        (f.slice rs).ExportHolds r best subnets m v) := by
  refine Demands.seq (demands_import hf hm) ?_
  split
  next hskip =>
    refine Demands.pure.congr fun v => ⟨fun _ h => ?_, fun _ => trivial⟩
    exact absurd (hskip.symm.trans h) (by simp)
  next hskip =>
    refine (Demands.seq (f := fun _ => pure true) (demands_export hf hm hbest subnets) Demands.pure).congr fun v => ?_
    exact ⟨fun h _ => h.1, fun h => ⟨h (Bool.eq_false_iff.2 hskip), trivial⟩⟩

theorem demands_lanes (hf : f.communities.Nodup) (hbest : best ∈ f.records) (hlanes : ∀ m ∈ lanes, m ∈ f.allLanes) :
    Demands f.layoutVariables (lanes.foldlM (f.laneStep rs r best subnets p merged) exported) fun v =>
      (∀ m ∈ lanes, (f.slice rs).ImportHolds r m v) ∧
        (merged = false → ∀ m ∈ lanes, (f.slice rs).ExportHolds r best subnets m v) ∧
        (merged → exported = false → ∀ m, lanes.find? (Slice.laneIsActive p) = some m →
          (f.slice rs).ExportHolds r best subnets m v) := by
  induction lanes generalizing exported with
  | nil =>
    refine Demands.pure.congr fun v => ⟨fun _ => ?_, fun _ => trivial⟩
    simp
  | cons m rest ih =>
    have hrest := fun exported => @ih exported fun m hm => hlanes m (mem_cons_of_mem _ hm)
    have hstep := @demands_laneStep f rs r m best subnets p merged exported hf
      (hlanes m mem_cons_self) hbest
    refine (Demands.bind _ hstep (fun _ _ _ => laneStep_result) (hrest _)).congr fun v => ?_
    -- without a shared record every lane has its constraint, and with one only the first active lane
    cases merged with
    | false => simp; tauto
    | true =>
      cases exported with
      | true => simp [isExported]
      | false =>
        cases hactive : Slice.laneIsActive p m with
        | true => simp [isExported, hactive]; tauto
        | false => simp [isExported, hactive]; tauto

/-- The last lane stands for the shared record when no lane is active. -/
theorem demands_unexported (hlanes : ∀ m ∈ lanes, m ∈ f.allLanes) : Demands f.layoutVariables
    (match merged && !isExported p merged false lanes, lanes.getLast? with
      | true, some m => Build.require (.not m.outgoing.permits)
      | _, _ => pure ()) fun v => merged → lanes.find? (Slice.laneIsActive p) = none →
        ∀ m, lanes.getLast? = some m → m.outgoing.permits.eval v = false := by
  unfold isExported
  cases merged with
  | false => exact Demands.pure.congr fun v => ⟨nofun, fun _ => trivial⟩
  | true =>
    cases hactive : lanes.any (Slice.laneIsActive p) with
    | true =>
      refine Demands.pure.congr fun v => ⟨fun _ _ hnone => ?_, fun _ => trivial⟩
      obtain ⟨m, hm, hm'⟩ := any_eq_true.1 hactive
      exact absurd hm' (find?_eq_none.1 hnone m hm)
    | false =>
      have hnone : lanes.find? (Slice.laneIsActive p) = none := by
        refine find?_eq_none.2 fun m hm hm' => ?_
        cases hactive.symm.trans (any_eq_true.2 ⟨m, hm, hm'⟩)
      cases hlast : lanes.getLast? with
      | none => exact Demands.pure.congr fun v => ⟨fun _ _ _ m hm => absurd hm (by simp), fun _ => trivial⟩
      | some m =>
        have hm := hlanes m (mem_of_mem_getLast? hlast)
        refine Demands.requireReading (outgoing_allOver hm).permits.not fun v => (holds_not v).trans ?_
        exact ⟨fun h _ _ m' hm' => Option.some.inj hm' ▸ h, fun h => h rfl hnone m rfl⟩

end Lanes

theorem ospfCost_of_transfers (h : (f.slice rs).transferConstraints.runOn l = (.ok (), l'))
    (hr : r ∈ f.topology.routers) (hp : .ospf ∈ f.protocols r.name)
    (hmerges : (f.slice rs).mergesExport r.name .ospf = false) (hm : m ∈ (f.slice rs).lanesOf r.name .ospf)
    (hactive : Topology.isActive .ospf m.edge.start) : ∃ cost, m.edge.start.ospfCost.integer = .ok cost := by
  have hprotocol := (mem_lanesOf.1 hm).2.2
  obtain ⟨k, k', h⟩ := exists_of_runOn_forM h hr
  obtain ⟨k, k', h⟩ := exists_of_runOn_forM h hp
  obtain ⟨subnets, -, h⟩ := runOn_lift_bind_ok.1 h
  obtain ⟨best, -, h⟩ := runOn_lift_bind_ok.1 h
  obtain ⟨b, k₁, hlanes, -⟩ := runOn_bind_ok.1 h
  rw [hmerges] at hlanes
  obtain ⟨k, k', hexport⟩ := exists_of_runOn_lanes hlanes hm
  obtain ⟨cost, hcost⟩ := integer_of_exportConstraint hexport (by rw [hprotocol]; rfl) (hprotocol ▸ hactive)
  unfold Slice.sending at hcost
  rw [hprotocol] at hcost
  exact ⟨cost, hcost⟩

theorem demands_laneConstraints (hf : f.communities.Nodup) (hname : r.name ∈ f.topology.names) (p : Protocol) :
    Demands f.layoutVariables ((f.slice rs).laneConstraints r p)
      ((f.slice rs).LanesHold r p) := by
  have hbest := mem_overall hname
  have hlanes : ∀ m ∈ (f.slice rs).lanesOf r.name p, m ∈ f.allLanes := fun _ hm => (mem_filter.1 hm).1
  have hoverall := @slice_overall f rs r.name hname
  have hfixes : Valuation.Fixes f.layoutVariables ((f.slice rs).LanesHold r p) := by
    rintro v w hvw ⟨subnets, best, hsubnets, hb, himports, hexports⟩
    cases hoverall.symm.trans hb
    exact ⟨subnets, _, hsubnets, hb, fun m hm => (import_alike (hlanes m hm) hvw).importHolds (himports m hm),
      exportsHold_alike rfl (forall₂_same.2 fun m hm => ⟨export_alike (hlanes m hm) hbest hvw, rfl⟩) hexports⟩
  refine Demands.lift hfixes fun subnets hsubnets => Demands.lift hfixes fun best hb => ?_
  cases hoverall.symm.trans hb
  have hfold := @demands_lanes f rs r _ subnets p ((f.slice rs).mergesExport r.name p) false
    _ hf hbest hlanes
  have hrest := @demands_unexported f p ((f.slice rs).mergesExport r.name p) _ hlanes
  refine (Demands.bind _ hfold (fun _ _ _ => lanes_result) hrest).congr fun v => ?_
  constructor
  · rintro ⟨⟨himports, heach, hfirst⟩, hnone⟩
    exact ⟨subnets, _, hsubnets, hb, himports, exportsHold_iff.2 ⟨heach, fun hm => hfirst hm rfl, hnone⟩⟩
  · rintro ⟨subnets', best', hsubnets', hb', himports, hall⟩
    cases hsubnets.symm.trans hsubnets'
    obtain rfl := Except.ok.inj (hoverall.symm.trans hb')
    obtain ⟨heach, hfirst, hnone⟩ := exportsHold_iff.1 hall
    exact ⟨⟨himports, heach, fun hm _ => hfirst hm⟩, hnone⟩

/-- **The transfers of a slice demand what is said about its lanes**, and nothing else. -/
theorem demands_transfers (hf : f.communities.Nodup) :
    Demands f.layoutVariables (f.slice rs).transferConstraints (f.slice rs).TransfersHold := by
  refine Demands.forM _ fun r hr => Demands.forM _ fun p _ => demands_laneConstraints hf ?_ p
  obtain ⟨site, hsite, rfl⟩ := mem_map.1 hr
  exact mem_map_of_mem (f := fun site : Site => site.router.name) hsite

end Frame

end ControlPlane
