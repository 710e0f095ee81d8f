import ControlPlane.Proofs.Slice.Propagation
import ControlPlane.Proofs.Transfer.RouteInvariants

/-!
# Which of several networks a route is for

Networks that hold a destination are nested.  Of the static routes over an interface, of the networks that a router
originates and of its aggregates, the last one decides that holds the destination, in the order in which they are
configured.  It is the most specific one, or the least specific one for aggregates, if the configuration lists them in
that order.
-/
namespace ControlPlane

open List Frame Slice Record Subnet

variable {f : Frame} {rs : List Redistribution} {basis : Plan.Basis} {v : Valuation} {x : Record} {l m : Lane}
  {lengths : List Nat}

/-! ## §1. The last of several networks -/

theorem rel_getLast {α : Type} {R : α → α → Prop} (hrefl : ∀ a, R a a) {xs : List α} (h : xs.Pairwise R) {a b : α}
    (ha : a ∈ xs) (hb : xs.getLast? = some b) : R a b := by
  obtain ⟨ys, rfl⟩ := getLast?_eq_some_iff.1 hb
  rcases mem_append.1 ha with ha | ha
  · exact (pairwise_append.1 h).2.2 a ha b (mem_singleton_self b)
  · exact mem_singleton.1 ha ▸ hrefl _

/-- A record has the length of the last of some networks, which is the greatest one if none of them comes before a
less specific one. -/
structure Record.HasLast (x : Record) (v : Valuation) (lengths : List Nat) : Prop where
  last : ∀ n, lengths.getLast? = some n → (x.under v).number .prefixLength = some (n : Int)
  longest : lengths.Pairwise (· ≤ ·) → ∀ n ∈ lengths, ∃ m : Nat, m ∈ lengths ∧
    (x.under v).number .prefixLength = some (m : Int) ∧ n ≤ m

theorem Record.hasLast_of_last
    (h : ∀ n, lengths.getLast? = some n → (x.under v).number .prefixLength = some (n : Int)) :
    x.HasLast v lengths where
  last := h
  longest hsorted n hn := by
    obtain ⟨m, hm⟩ := Option.ne_none_iff_exists'.1 fun hnone => ne_nil_of_mem hn (getLast?_eq_none_iff.1 hnone)
    exact ⟨m, mem_of_getLast? hm, h m hm, rel_getLast Nat.le_refl hsorted hn hm⟩

def Slice.lengthsFor (s : Slice) (v : Valuation) (networks : List Subnet) : List Nat :=
  (networks.filter fun n => Policy.inSubnet n (s.packet.dstIp.eval v)).map Subnet.length

theorem Slice.lengthsFor_eq {s : Slice} {α : Type} (network : α → Subnet) (xs : List α) :
    s.lengthsFor v (xs.map network) =
      (xs.filter fun x => ((network x).holdsOf s.packet.dstIp).eval v).map fun x => (network x).length := by
  unfold lengthsFor
  rw [filter_map, List.map_map]
  refine congrArg (List.map _) (filter_congr fun x _ => ?_)
  exact (eval_holdsOf v (network x) _).symm

theorem Record.planned_length {name : String} {router : Name} {p : Protocol} {history : Option (Enumeration Protocol)}
    (hx : x = .planned f name router p history) : ∃ n, (x.under v).number .prefixLength = some n := by
  subst hx
  exact ⟨_, rfl⟩

theorem Record.hasLast_of_planned {α : Type} (length : α → Nat) {xs : List α}
    (hx : ∃ n, (x.under v).number .prefixLength = some n)
    (h : ∀ a, xs.getLast? = some a → ∀ n, (x.under v).number .prefixLength = some n → n = length a) :
    x.HasLast v (xs.map length) := by
  refine hasLast_of_last fun n hn => ?_
  rw [getLast?_map] at hn
  obtain ⟨a, ha, rfl⟩ := Option.map_eq_some_iff.1 hn
  obtain ⟨k, hk⟩ := hx
  rw [hk, h a ha k hk]

/-! ## §2. Static routes and originated networks -/

/-- **A static route is for the last network that holds the destination.** -/
theorem Frame.static_hasLast (hplan : f.IsDecided basis)
    (h : (f.slice rs).TransfersHold v) (hl : l ∈ f.allLanes) (hp : l.protocol = .static)
    (hactive : Topology.isActive .static l.edge.start) (hlink : ((f.slice rs).notFailed l.edge).eval v) :
    (l.incoming.permits.eval v ↔
      ∃ route ∈ f.topology.staticRoutesOver l.edge, Policy.inSubnet route.subnet (f.packet.dstIp.eval v)) ∧
    l.incoming.HasLast v
      ((f.slice rs).lengthsFor v ((f.topology.staticRoutesOver l.edge).map StaticRoute.subnet)) := by
  have hused := used_of_isLocal hplan hl (by rw [hp]; rfl)
  obtain ⟨r, -, -, hmem, -, -, -, -, himports, -⟩ := lanesHold_of_mem hplan h hl
  have hstatic := himports l hmem hused
  rw [hp] at hstatic
  -- the interface is active and the link up, so that routes are usable where they hold the destination
  have husable : (f.slice rs).usableRoutes v l.edge l.protocol =
      (f.topology.staticRoutesOver l.edge).filter fun route => (route.subnet.holdsOf f.packet.dstIp).eval v := by
    refine filter_congr fun route _ => ?_
    rw [Bool.eq_iff_iff, holds_usableSubnet]
    exact ⟨fun h => h.subnet, fun h => ⟨hp ▸ hactive, h, hlink⟩⟩
  unfold Slice.StaticHolds at hstatic
  rw [husable] at hstatic
  obtain ⟨label, hplanned⟩ := incoming_planned hl hused
  rw [lengthsFor_eq]
  refine ⟨?_, hasLast_of_planned _ (planned_length hplanned) fun route hlast n hn => ?_⟩
  · simp only [← eval_holdsOf]
    cases hlast : ((f.topology.staticRoutesOver l.edge).filter fun route =>
        (route.subnet.holdsOf f.packet.dstIp).eval v).getLast? with
    | none =>
      rw [hlast] at hstatic
      rw [getLast?_eq_none_iff, filter_eq_nil_iff] at hlast
      exact ⟨fun hyes => (nomatch hstatic.symm.trans hyes),
        fun ⟨route, hroute, hin⟩ => absurd hin (hlast route hroute)⟩
    | some route =>
      rw [hlast] at hstatic
      obtain ⟨hroute, hin⟩ := mem_filter.1 (mem_of_getLast? hlast)
      exact ⟨fun _ => ⟨route, hroute, hin⟩, fun _ => hstatic.1⟩
  · have hlast : ((f.topology.staticRoutesOver l.edge).filter fun route =>
        (route.subnet.holdsOf f.packet.dstIp).eval v).getLast? = some route := hlast
    rw [hlast] at hstatic
    exact hstatic.2 .prefixLength n hn

theorem Slice.lengthsFor_matching {s : Slice} {subnets : List Subnet} :
    s.lengthsFor v subnets = (s.matching subnets v).map Subnet.length := by
  rw [← List.map_id subnets, lengthsFor_eq, List.map_id]
  rfl

theorem Slice.lengthsFor_eq_nil {s : Slice} {subnets : List Subnet} :
    s.lengthsFor v subnets = [] ↔ s.matching subnets v = [] := by
  rw [lengthsFor_matching, map_eq_nil_iff]

/-- **A route to a network that the router originates is for the last one that holds the destination.** -/
theorem Frame.originated_hasLast (hplan : f.IsDecided basis)
    (h : (f.slice rs).TransfersHold v) (hm : m ∈ f.allLanes) (hlocal : m.protocol.isLocal = false)
    (hactive : Topology.isActive m.protocol m.edge.start) {r : Router} {subnets : List Subnet}
    (hr : f.topology.router m.router = .ok r) (hsubnets : r.originated m.protocol = .ok subnets)
    (hsome : (f.slice rs).lengthsFor v subnets ≠ []) :
    m.outgoing.permits.eval v ∧ m.outgoing.HasLast v ((f.slice rs).lengthsFor v subnets) := by
  obtain ⟨r', subnets', best, m₀, hdefined, hactive₀⟩ := definedBy_of_active hplan h hm hactive
  cases hr.symm.trans hdefined.router
  cases hsubnets.symm.trans hdefined.originated
  have hholds := hdefined.holds
  unfold Slice.ExportHolds at hholds
  rw [hdefined.protocol, hdefined.record, hlocal, hactive₀] at hholds
  have horiginated : ∀ n, ((f.slice rs).matching subnets v).getLast? = some n →
      Slice.IsOriginated m.outgoing v m.protocol m₀.edge.start.ospfArea ((f.slice rs).sending best m₀).2 n.length := by
    intro n hn
    rw [hn] at hholds
    exact hholds
  obtain ⟨n, hn⟩ := Option.ne_none_iff_exists'.1 fun hnone =>
    hsome (lengthsFor_eq_nil.2 (getLast?_eq_none_iff.1 hnone))
  obtain ⟨label, hplanned⟩ := outgoing_planned hm
  rw [lengthsFor_matching]
  exact ⟨(horiginated n hn).permits, hasLast_of_planned _ (planned_length hplanned) fun k hk =>
    (horiginated k hk).numbers .prefixLength⟩

/-! ## §3. Aggregates -/

def Slice.suppressing (s : Slice) (v : Valuation) (r : Router) : List Nat :=
  s.lengthsFor v ((r.generatedRoutes.filter fun g => r.generatedRoutes.any fun h =>
    h.summaryOnly.truthy && h.subnet == g.subnet).map GeneratedRoute.subnet)

/-- The length of a route behind the aggregates that suppress it: the last one that is shorter decides. -/
def suppressed (lengths : List Nat) (n : Int) : Int :=
  ((lengths.filter fun k : Nat => decide (n > k)).getLast?.map fun k : Nat => (k : Int)).getD n

/-- Nothing is longer than any aggregate, if no aggregate comes before a more specific one. -/
theorem suppressed_le {n : Int} (hsorted : lengths.Pairwise (· ≥ ·)) {k : Nat} (hk : k ∈ lengths) :
    suppressed lengths n ≤ k := by
  unfold suppressed
  cases hlast : (lengths.filter fun k : Nat => decide (n > k)).getLast? with
  | none =>
    rw [getLast?_eq_none_iff, filter_eq_nil_iff] at hlast
    exact Int.not_lt.1 (by simpa using hlast k hk)
  | some i =>
    show (i : Int) ≤ k
    have hi : (i : Int) < n := by simpa using (mem_filter.1 (mem_of_getLast? hlast)).2
    by_cases hkn : (k : Int) < n
    · exact Int.ofNat_le.2 (rel_getLast (R := (· ≥ ·)) Nat.le_refl (hsorted.filter _)
        (mem_filter.2 ⟨hk, by simpa using hkn⟩) hlast)
    · omega

theorem suppressedLength_eq {r : Router} {d : RouterPlan} {cs : List (Term .bool)} (n : Int)
    (hd : d.aggregates = r.generatedRoutes.filter fun g => f.space.overlapsDst g.subnet)
    (hcs : f.space.constraints f.packet = .ok cs) (hv : ∀ c ∈ cs, c.eval v) :
    Policy.suppressedLength (f.packet.dstIp.eval v) d.aggregates d.suppressed n =
      suppressed ((f.slice rs).suppressing v r) n := by
  have hoverlaps : ∀ g : GeneratedRoute, Policy.inSubnet g.subnet (f.packet.dstIp.eval v) →
      f.space.overlapsDst g.subnet := fun g hg =>
    HeaderSpace.overlapsDst_of_holdsOf hcs hv ((eval_holdsOf v g.subnet _).trans hg)
  have hsuppressed : ∀ g : GeneratedRoute, Policy.inSubnet g.subnet (f.packet.dstIp.eval v) →
      d.suppressed.contains g.subnet =
        r.generatedRoutes.any fun h => h.summaryOnly.truthy && h.subnet == g.subnet := by
    intro g hg
    rw [Bool.eq_iff_iff, contains_iff_mem, any_eq_true]
    unfold RouterPlan.suppressed
    rw [mem_eraseDups, mem_map, hd]
    constructor
    · rintro ⟨h, hh, hsubnet⟩
      obtain ⟨hh, honly⟩ := mem_filter.1 hh
      exact ⟨h, mem_of_mem_filter hh, by simp [honly, hsubnet]⟩
    · rintro ⟨h, hh, hkey⟩
      obtain ⟨honly, hsubnet⟩ := by simpa using hkey
      exact ⟨h, mem_filter.2 ⟨mem_filter.2 ⟨hh, hsubnet ▸ hoverlaps g hg⟩, honly⟩, hsubnet⟩
  have hlengths : (d.aggregates.filter fun g => Policy.inSubnet g.subnet (f.packet.dstIp.eval v) &&
      decide (n > g.subnet.length) && d.suppressed.contains g.subnet).map (fun g => g.subnet.length) =
      ((f.slice rs).suppressing v r).filter fun k : Nat => decide (n > k) := by
    unfold Slice.suppressing
    rw [lengthsFor_eq, filter_map, filter_filter, filter_filter, hd, filter_filter]
    refine congrArg (List.map _) (filter_congr fun g _ => ?_)
    rw [eval_holdsOf]
    show _ = (decide (n > g.subnet.length) && Policy.inSubnet g.subnet (f.packet.dstIp.eval v) && _)
    cases hin : Policy.inSubnet g.subnet (f.packet.dstIp.eval v) with
    | false => simp
    | true => rw [hsuppressed g hin, hoverlaps g hin, Bool.true_and, Bool.and_true, Bool.and_true]
  unfold Policy.suppressedLength suppressed
  rw [← hlengths, getLast?_map, Option.map_map]
  rfl

theorem Transfer.entering_suppressed {t : Transfer} (hexport : t.isExport) {n : Int}
    (hn : (t.source.under v).number .prefixLength = some n) : (t.entering v).number .prefixLength =
      some (Policy.suppressedLength (t.setting v).destination t.aggregates t.suppressed n) := by
  unfold entering resetsLocalPref suppressing
  rw [hexport, hn]
  cases haggregates : t.aggregates.isEmpty with
  | true =>
    rw [isEmpty_iff.1 haggregates]
    exact hn
  | false => rfl

/-- **What is sent of the best route is behind the aggregates.** -/
theorem Frame.sent_isSuppressed (hplan : f.IsDecided basis)
    {cs : List (Term .bool)} (hcs : f.space.constraints f.packet = .ok cs) (hv : ∀ c ∈ cs, c.eval v)
    {r : Router} {subnets : List Subnet} {best : Record} {m₀ : Lane}
    (hdefined : (f.slice rs).DefinedBy v r subnets best m₀ m) (hpermits : m.outgoing.permits.eval v)
    (hroot : (f.slice rs).matching subnets v = []) {n k : Int} (hn : (best.under v).number .prefixLength = some n)
    (hk : (m.outgoing.under v).number .prefixLength = some k) :
    k = suppressed ((f.slice rs).suppressing v r) n := by
  obtain ⟨-, policy, -, hholds⟩ := hdefined.sendsBest hpermits hroot
  obtain ⟨y, cost, hy, -, -, -, hconveys⟩ := hholds.conveyed (t := (f.slice rs).exportTransfer r best m₀)
    (by rw [← hpermits, ← hdefined.record]; rfl)
  have hnumber := hconveys.number .prefixLength k (by rw [← hk, ← hdefined.record]; rfl)
  have hlength := (Transfer.groundBody_number (by decide) (by decide) hy).trans (Transfer.entering_suppressed rfl hn)
  have hr := hdefined.router
  obtain ⟨hmem, hname⟩ := mem_routers hr
  obtain ⟨d, hd, hdecides⟩ := hplan.router? hr
  rw [← suppressedLength_eq n hdecides.aggregates hcs hv, hnumber]
  show (y.2.route.number .prefixLength).getD _ = _
  rw [hlength]
  have hd : f.plan.router? r.name = some d := hname ▸ hd
  show Policy.suppressedLength _ (((f.plan.router? r.name).map RouterPlan.aggregates).getD [])
    (((f.plan.router? r.name).map RouterPlan.suppressed).getD []) n = _
  rw [hd]
  rfl

/-! ## §4. Encodings -/

namespace Encoding

variable {n : Network} {req : Request} {e : Encoding} {r : Router} {subnets : List Subnet}

/-- A router with nested static routes, networks and aggregates, and a neighbor outside of the network. -/
def edgeNetwork : Network where
  routers := [
    { name := .text "A"
      interfaces := [.port "i" (.ofOctets 10 0 0 1 30)]
      staticRoutes := [
        { subnet := .ofOctets 10 9 0 0 16, nextHopInterface := .text "i" },
        { subnet := .ofOctets 10 9 0 0 24, nextHopInterface := .text "i" }]
      generatedRoutes := [
        { subnet := .ofOctets 10 9 0 0 16, summaryOnly := .bool true },
        { subnet := .ofOctets 10 0 0 0 8, summaryOnly := .bool true }]
      bgp := some (.speaker "1.1.1.1" [.peer (.ofOctets 10 0 0 2) 2 1])
      filterLists := [.originating [.ofOctets 10 99 0 0 16, .ofOctets 10 99 0 0 24]] }]

/-- Packets to the network of the static routes, and to the network that is originated. -/
def edgeRequest : Request where
  space := { dstIps := [.ofOctets 10 9 0 0 24, .ofOctets 10 99 0 0 24] }

/-- A packet to the network of the static routes, to which the neighbor announces a longer one. -/
def announcedState : Valuation where
  bool name := name != "SLICE-MAIN_A_STATIC__SINGLE-EXPORT_permitted"
  int name :=
    if name == "SLICE-MAIN_dst-ip" then 168361989
    else if name == "SLICE-MAIN_A_BGP__SINGLE-EXPORT_metric" then 1
    else if Text.occursIn "STATIC__SINGLE" name then 0
    else if Text.occursIn "BGP__SINGLE" name || Text.occursIn "PREFIX-LEN" name then 8
    else if Text.occursIn "prefixLength" name then if Text.occursIn "STATIC" name then 24 else 28
    else if Text.occursIn "routerID" name then 167772162
    else if Text.occursIn "adminDist" name then 20 else 0
  bits name := if Text.occursIn "STATIC" name then 1 else 0

def originatedState : Valuation where
  bool name := Text.occursIn "BGP__SINGLE" name || Text.occursIn "SSA" name
  int name :=
    if name == "SLICE-MAIN_dst-ip" then 174260229
    else if name == "SLICE-MAIN_A_BGP__SINGLE-EXPORT_prefixLength" then 24
    else if name == "SLICE-MAIN_A_BGP__SINGLE-EXPORT_metric" then 1 else 0
  bits _ := 0

/-- In `announcedState`, two static routes over a lane hold the destination. -/
def HasStaticRoutes (e : Encoding) (l : Lane) : Prop :=
  l.protocol = .static ∧ Topology.isActive .static l.edge.start ∧
    (e.slice.notFailed l.edge).eval announcedState ∧
    e.slice.lengthsFor announcedState ((e.slice.topology.staticRoutesOver l.edge).map StaticRoute.subnet) = [16, 24]

instance (e : Encoding) (l : Lane) : Decidable (HasStaticRoutes e l) :=
  inferInstanceAs (Decidable (l.protocol = .static ∧ _))

/-- In `announcedState`, a route of 28 bits is sent over a lane behind two aggregates. -/
def SendsAnnounced (e : Encoding) (m : Lane) (r : Router) : Prop :=
  m.protocol = .bgp ∧ m.outgoing.permits.eval announcedState ∧ e.slice.suppressing announcedState r = [16, 8] ∧
    ∃ subnets, r.originated m.protocol = .ok subnets ∧ e.slice.lengthsFor announcedState subnets = []

instance (e : Encoding) (m : Lane) (r : Router) : Decidable (SendsAnnounced e m r) :=
  inferInstanceAs (Decidable (m.protocol = .bgp ∧ _))

theorem exists_announced : ∃ e, (encode edgeNetwork edgeRequest).result = .ok e ∧ announcedState.Satisfies e.ledger ∧
    (∃ l ∈ e.slice.lanes, HasStaticRoutes e l) ∧
    ∃ m ∈ e.slice.lanes, ∃ r, e.slice.topology.router m.router = .ok r ∧ SendsAnnounced e m r := by
  decide +kernel

/-- **Of the static routes over an interface, the last one that holds the destination counts**, which is the longest
one if no route comes before a less specific one. -/
theorem static_isLastMatch (he : (encode n req).result = .ok e) (hv : v.Satisfies e.ledger) (hl : l ∈ e.slice.lanes)
    (hp : l.protocol = .static) (hactive : Topology.isActive .static l.edge.start)
    (hlink : (e.slice.notFailed l.edge).eval v) :
    (l.incoming.permits.eval v ↔ ∃ route ∈ e.slice.topology.staticRoutesOver l.edge,
      Policy.inSubnet route.subnet (e.slice.packet.dstIp.eval v)) ∧
    l.incoming.HasLast v (e.slice.lengthsFor v
      ((e.slice.topology.staticRoutesOver l.edge).map StaticRoute.subnet)) := by
  obtain ⟨f, rs, hof⟩ := encode_isOf he
  obtain ⟨encoded, hplan⟩ := Frame.isDecided hof.plan
  have hstate := hof.sound v hv
  rw [hof.slice] at hl hlink hstate ⊢
  exact static_hasLast hplan hstate.transfers hl hp hactive hlink

theorem edge_static_isLastMatch : ∃ e l, (encode edgeNetwork edgeRequest).result = .ok e ∧
    announcedState.Satisfies e.ledger ∧ l ∈ e.slice.lanes ∧ HasStaticRoutes e l ∧
    (l.incoming.under announcedState).number .prefixLength = some 24 := by
  obtain ⟨e, he, hv, ⟨l, hl, hroutes⟩, -⟩ := exists_announced
  obtain ⟨hp, hactive, hlink, hlengths⟩ := id hroutes
  exact ⟨e, l, he, hv, hl, hroutes, (static_isLastMatch he hv hl hp hactive hlink).2.last 24 (by rw [hlengths]; rfl)⟩

/-- **A router that originates the destination sends it over every active interface, as the last network that holds
it**, which is the longest one if no network comes before a less specific one. -/
theorem originated_isLastMatch (he : (encode n req).result = .ok e) (hv : v.Satisfies e.ledger)
    (hm : m ∈ e.slice.lanes) (hlocal : m.protocol.isLocal = false)
    (hactive : Topology.isActive m.protocol m.edge.start) (hr : e.slice.topology.router m.router = .ok r)
    (hsubnets : r.originated m.protocol = .ok subnets)
    (hsome : ∃ subnet ∈ subnets, Policy.inSubnet subnet (e.slice.packet.dstIp.eval v)) :
    m.outgoing.permits.eval v ∧ m.outgoing.HasLast v (e.slice.lengthsFor v subnets) := by
  obtain ⟨f, rs, hof⟩ := encode_isOf he
  obtain ⟨encoded, hplan⟩ := Frame.isDecided hof.plan
  have hstate := hof.sound v hv
  rw [hof.slice] at hm hr hsome hstate ⊢
  refine originated_hasLast hplan hstate.transfers hm hlocal hactive hr hsubnets ?_
  obtain ⟨subnet, hsubnet, hin⟩ := hsome
  exact ne_nil_of_mem (mem_map_of_mem (mem_filter.2 ⟨hsubnet, hin⟩))

/-- In `originatedState`, two networks that are originated over a lane hold the destination. -/
def Originates (e : Encoding) (m : Lane) (subnets : List Subnet) : Prop :=
  m.protocol.isLocal = false ∧ Topology.isActive m.protocol m.edge.start ∧
    (∃ subnet ∈ subnets, Policy.inSubnet subnet (e.slice.packet.dstIp.eval originatedState)) ∧
    e.slice.lengthsFor originatedState subnets = [16, 24]

instance (e : Encoding) (m : Lane) (subnets : List Subnet) : Decidable (Originates e m subnets) :=
  inferInstanceAs (Decidable (m.protocol.isLocal = false ∧ _))

theorem edge_originated_isLastMatch : ∃ e m r subnets, (encode edgeNetwork edgeRequest).result = .ok e ∧
    originatedState.Satisfies e.ledger ∧ m ∈ e.slice.lanes ∧ e.slice.topology.router m.router = .ok r ∧
    r.originated m.protocol = .ok subnets ∧ Originates e m subnets ∧ m.outgoing.permits.eval originatedState ∧
    (m.outgoing.under originatedState).number .prefixLength = some 24 := by
  have hedge : ∃ e, (encode edgeNetwork edgeRequest).result = .ok e ∧ originatedState.Satisfies e.ledger ∧
      ∃ m ∈ e.slice.lanes, ∃ r, e.slice.topology.router m.router = .ok r ∧
        ∃ subnets, r.originated m.protocol = .ok subnets ∧ Originates e m subnets := by
    decide +kernel
  obtain ⟨e, he, hv, m, hm, r, hr, subnets, hsubnets, horiginates⟩ := hedge
  obtain ⟨hlocal, hactive, hsome, hlengths⟩ := id horiginates
  obtain ⟨hpermits, hlast⟩ := originated_isLastMatch he hv hm hlocal hactive hr hsubnets hsome
  exact ⟨e, m, r, subnets, he, hv, hm, hr, hsubnets, horiginates, hpermits, hlast.last 24 (by rw [hlengths]; rfl)⟩

/-- **What is sent of the best route is behind the aggregates of the router.**  The last aggregate that is shorter
counts, so that no longer route is sent than any of them if none comes before a more specific one.  Networks that the
router originates are sent as they are. -/
theorem sent_isBehindAggregates (he : (encode n req).result = .ok e) (hv : v.Satisfies e.ledger)
    (hm : m ∈ e.slice.lanes) (hr : e.slice.topology.router m.router = .ok r)
    (hpermits : m.outgoing.permits.eval v) :
    ∃ subnets best length k, r.originated m.protocol = .ok subnets ∧ e.slice.overall m.router = .ok best ∧
      (best.under v).number .prefixLength = some length ∧ (m.outgoing.under v).number .prefixLength = some k ∧
      (e.slice.lengthsFor v subnets ≠ [] → m.outgoing.HasLast v (e.slice.lengthsFor v subnets)) ∧
      (e.slice.lengthsFor v subnets = [] → k = suppressed (e.slice.suppressing v r) length ∧
        ((e.slice.suppressing v r).Pairwise (· ≥ ·) → ∀ i ∈ e.slice.suppressing v r, k ≤ i)) := by
  obtain ⟨f, rs, hof⟩ := encode_isOf he
  obtain ⟨encoded, hplan⟩ := Frame.isDecided hof.plan
  obtain ⟨cs, hcs⟩ := hof.filtered
  have hstate := hof.sound v hv
  rw [hof.slice] at hm hr hstate ⊢
  have hr : f.topology.router m.router = .ok r := hr
  obtain ⟨r', subnets, best, m₀, hdefined⟩ := definedBy_of_permits hplan hstate.transfers hm hpermits
  cases hr.symm.trans hdefined.router
  have hoverall := hdefined.overall
  rw [slice_overall (mem_names hr)] at hoverall
  cases hoverall
  obtain ⟨length, hlength⟩ := planned_length (v := v) (x := f.bestRecord m.router "OVERALL" .best) rfl
  obtain ⟨label, hplanned⟩ := outgoing_planned hm
  obtain ⟨k, hk⟩ := planned_length (v := v) hplanned
  refine ⟨subnets, _, length, k, hdefined.originated, hdefined.overall, hlength, hk, fun _ => ?_, fun hnone => ?_⟩
  · rw [lengthsFor_matching]
    refine hasLast_of_planned _ ⟨k, hk⟩ fun subnet hlast => ?_
    have hsent := hdefined.sent hpermits
    rw [hlast] at hsent
    exact hsent.numbers .prefixLength
  · have hlen := sent_isSuppressed hplan hcs (hstate.space cs hcs) hdefined hpermits
      (lengthsFor_eq_nil.1 hnone) hlength hk
    exact ⟨hlen, fun hsorted i hi => hlen ▸ suppressed_le hsorted hi⟩

theorem edge_sent_isBehindAggregates : ∃ e m r, (encode edgeNetwork edgeRequest).result = .ok e ∧
    announcedState.Satisfies e.ledger ∧ m ∈ e.slice.lanes ∧ e.slice.topology.router m.router = .ok r ∧
    SendsAnnounced e m r ∧ ∃ k, (m.outgoing.under announcedState).number .prefixLength = some k ∧ k ≤ 8 := by
  obtain ⟨e, he, hv, -, m, hm, r, hr, hsends⟩ := exists_announced
  obtain ⟨-, hpermits, hsuppressing, subnets, hsubnets, hnone⟩ := id hsends
  obtain ⟨subnets', best, length, k, hsubnets', -, -, hk, -, hbehind⟩ := sent_isBehindAggregates he hv hm hr hpermits
  cases hsubnets.symm.trans hsubnets'
  refine ⟨e, m, r, he, hv, hm, hr, hsends, k, hk, (hbehind hnone).2 ?_ 8 ?_⟩
  · rw [hsuppressing]
    decide
  · rw [hsuppressing]
    decide

end Encoding

end ControlPlane
