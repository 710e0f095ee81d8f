import ControlPlane.Proofs.Slice.SingleRouter
import ControlPlane.Verification.Consistency

/-!
# Which routers can be compared

Whether two routers can be compared is asked from the side of the first one: its lanes are looked up at the second
one, not the other way around.  So a BGP session that only the second router has is never noticed, and the question
has two answers then.  It is symmetric exactly where no such session decides.
-/
namespace ControlPlane

open List Frame Topology

/-! ## §1. Computations with two kinds of failure -/

section Run

variable {α β ε : Type}

theorem not_exists_error {x : β} : ¬ ∃ e : ε, (Except.ok x : Except ε β) = .error e := fun ⟨_, h⟩ => nomatch h

theorem run_mapM_finds {φ : Type} {f : α → ExceptT ε (Except φ) β} {P : α → Prop} {xs : List α}
    (h : ∀ a ∈ xs, ∃ g, (f a).run = .ok g ∧ ((∃ e, g = .error e) ↔ P a)) :
    ∃ g, (xs.mapM f).run = .ok g ∧ ((∃ e, g = .error e) ↔ ∃ a ∈ xs, P a) := by
  induction xs with
  | nil => exact ⟨.ok [], rfl, iff_of_false not_exists_error nofun⟩
  | cons a rest ih =>
    obtain ⟨⟨g, hg, hiff⟩, hrest⟩ := forall_mem_cons.1 h
    obtain ⟨gs, hgs, hiffs⟩ := ih hrest
    rw [mapM_cons, ExceptT.run_bind, hg, ok_bind]
    simp only [exists_mem_cons_iff]
    cases g with
    | error e => exact ⟨.error e, rfl, iff_of_true ⟨e, rfl⟩ (.inl (hiff.1 ⟨e, rfl⟩))⟩
    | ok y =>
      have hfirst : ¬ P a := fun hP => not_exists_error (hiff.2 hP)
      dsimp only
      rw [ExceptT.run_bind, hgs, or_iff_right hfirst, ← hiffs]
      cases gs with
      | error e => exact ⟨.error e, rfl, iff_of_true ⟨e, rfl⟩ ⟨e, rfl⟩⟩
      | ok ys => exact ⟨.ok (y :: ys), rfl, iff_of_false not_exists_error not_exists_error⟩

end Run

def Router.HasPlainAreas (r : Router) : Prop := ∀ i ∈ r.interfaces, i.ospfArea.isScalar

instance (r : Router) : Decidable r.HasPlainAreas :=
  inferInstanceAs (Decidable (∀ i ∈ r.interfaces, i.ospfArea.isScalar))

namespace Consistency

theorem sameElements_iff {α : Type} [BEq α] [LawfulBEq α] {xs ys : List α} :
    sameElements xs ys ↔ ∀ x, x ∈ xs ↔ x ∈ ys := by
  unfold sameElements
  simp only [Bool.and_eq_true, all_eq_true, contains_iff_mem]
  exact ⟨fun h x => ⟨h.1 x, h.2 x⟩, fun h => ⟨fun x => (h x).1, fun x => (h x).2⟩⟩

/-! ## §2. Sides -/

def Side.interfaces (s : Side) : List Name := s.edges.map Edge.interface

def Side.protocols (s : Side) : List Protocol := s.slice.protocols s.name

def Side.sessions (s : Side) : List Name := (s.lanes .bgp).map fun l => l.edge.interface

/-- A router that is modeled alone: every protocol has a lane over every edge, but for BGP, whose lanes have
announcements. -/
structure Side.IsAlone (s : Side) : Prop where
  protocol : ∀ p, ∀ l ∈ s.lanes p, l.protocol = p
  edge : ∀ p, ∀ l ∈ s.lanes p, l.edge ∈ s.edges
  lane : ∀ p ∈ s.protocols, p ≠ .bgp → ∀ e ∈ s.edges, ∃ l ∈ s.lanes p, l.edge = e
  known : ∀ p, ∀ l ∈ s.lanes p, p ∈ s.protocols
  announced : ∀ l ∈ s.lanes .bgp, ∃ x, s.slice.announcement? l = some x ∧
    x.communities.map (·.1) = s.slice.communities
  silent : ∀ p, p ≠ .bgp → ∀ l ∈ s.lanes p, s.slice.announcement? l = none
  compares : ∀ p, ∀ l ∈ s.lanes p, ∀ x y, ∃ t, (s.slice.comparing s.router p (some l)).isSame x y = .ok t

/-! ## §3. Lanes -/

variable {one two : Side} {p : Protocol} {l : Lane}

def SameCommunities (one two : Side) : Prop := ∀ c, c ∈ one.slice.communities ↔ c ∈ two.slice.communities

/-- A lane that cannot be compared: there is none over the interface at the other router, or its announcements have
other communities. -/
def Unmatched (one two : Side) (p : Protocol) (l : Lane) : Prop :=
  (∀ m ∈ two.lanes p, m.edge.interface ≠ l.edge.interface) ∨ p = .bgp ∧ ¬ SameCommunities one two

theorem run_lift_bind_ne {α β : Type} {e : Except Failure α} {k : α → Comparison? β} {m : Mismatch}
    (hk : ∀ a, (k a).run ≠ .ok (.error m)) : (liftM e >>= k).run ≠ .ok (.error m) := by
  cases e with
  | error f => exact nofun
  | ok a => exact hk a

theorem sameExports_ok (h : one.IsAlone) (hl : l ∈ one.lanes p) (m : Lane) : ∃ ts, sameExports one l m = .ok ts := by
  obtain ⟨t, ht⟩ := h.compares p l hl l.outgoing m.outgoing
  rw [← h.protocol p l hl] at ht
  exact ⟨_, bind_eq_ok.2 ⟨t, ht, rfl⟩⟩

theorem compareLane_run (h : one.IsAlone) (h' : two.IsAlone) (hl : l ∈ one.lanes p) :
    ∃ g, (compareLane one two l).run = .ok g ∧ ((∃ m, g = .error m) ↔ Unmatched one two p l) := by
  obtain rfl := h.protocol p l hl
  unfold compareLane
  split
  next hfind =>
    refine ⟨_, rfl, fun _ => .inl fun m hm heq => ?_, fun _ => ⟨_, rfl⟩⟩
    exact absurd (beq_iff_eq.2 heq) (find?_eq_none.1 hfind m hm)
  next m hfind =>
    have hm := mem_of_find?_eq_some hfind
    have hsame := find?_some hfind
    have hinterface : m.edge.interface = l.edge.interface := beq_iff_eq.1 hsame
    obtain ⟨ts, hts⟩ := sameExports_ok h hl m
    -- there is a lane, so that only communities can differ
    have hunmatched : Unmatched one two l.protocol l ↔ l.protocol = .bgp ∧ ¬ SameCommunities one two :=
      or_iff_right fun hnone => hnone m hm hinterface
    rw [hunmatched]
    unfold sameAnnouncements
    by_cases hp : l.protocol = .bgp
    · rw [hp] at hl hm
      obtain ⟨x, hx, hxs⟩ := h.announced l hl
      obtain ⟨y, hy, hys⟩ := h'.announced m hm
      obtain ⟨same, hsame⟩ := h.compares _ l hl x y
      rw [hx, hy]
      dsimp only
      rw [hxs, hys, hts, hp, hsame]
      by_cases hsameElements : sameElements one.slice.communities two.slice.communities
      · rw [if_pos hsameElements]
        exact ⟨.ok _, rfl, iff_of_false not_exists_error fun hdiffer => hdiffer.2 (sameElements_iff.1 hsameElements)⟩
      · rw [if_neg hsameElements]
        exact ⟨.error _, rfl,
          iff_of_true ⟨_, rfl⟩ ⟨rfl, fun hsame => hsameElements (sameElements_iff.2 hsame)⟩⟩
    · rw [h.silent _ hp l hl, h'.silent _ hp m hm, hts]
      exact ⟨.ok _, rfl, iff_of_false not_exists_error fun hbgp => hp hbgp.1⟩

/-! ## §4. Routers -/

structure Comparable (one two : Side) : Prop where
  interfaces : ∀ i, i ∈ one.interfaces ↔ i ∈ two.interfaces
  protocols : ∀ p, p ∈ one.protocols ↔ p ∈ two.protocols
  sessions : one.sessions ⊆ two.sessions
  communities : one.sessions ≠ [] → SameCommunities one two

/-- The comparison finds that the routers cannot be compared. -/
def Raises (one two : Side) : Prop := ∃ m, (terms one two).run = .ok (.error m)

theorem exists_unmatched_iff (h : one.IsAlone) (h' : two.IsAlone)
    (hinterfaces : ∀ i, i ∈ one.interfaces ↔ i ∈ two.interfaces)
    (hprotocols : ∀ p, p ∈ one.protocols ↔ p ∈ two.protocols) :
    (∃ l ∈ one.protocols.flatMap one.lanes, Unmatched one two l.protocol l) ↔ ¬ Comparable one two := by
  constructor
  · rintro ⟨l, hl, hunmatched⟩ hcomparable
    obtain ⟨p, hp, hl⟩ := mem_flatMap.1 hl
    obtain rfl := h.protocol p l hl
    have hmem : l.protocol = .bgp → l.edge.interface ∈ one.sessions := fun hbgp =>
      mem_map_of_mem (f := fun l : Lane => l.edge.interface) (show l ∈ one.lanes .bgp from hbgp ▸ hl)
    rcases hunmatched with hnone | ⟨hbgp, hdiffer⟩
    · by_cases hbgp : l.protocol = .bgp
      · obtain ⟨m, hm, hsame⟩ := mem_map.1 (hcomparable.sessions (hmem hbgp))
        exact hnone m (hbgp ▸ hm) hsame
      · have hinterface : l.edge.interface ∈ two.interfaces :=
          (hinterfaces _).1 (mem_map_of_mem (h.edge _ l hl))
        obtain ⟨e, he, hsame⟩ := mem_map.1 hinterface
        obtain ⟨m, hm, rfl⟩ := h'.lane _ ((hprotocols _).1 hp) hbgp e he
        exact hnone m hm hsame
    · exact hdiffer (hcomparable.communities (ne_nil_of_mem (hmem hbgp)))
  · intro hnot
    by_contra hall
    have hmatched : ∀ l ∈ one.lanes .bgp, ¬ Unmatched one two .bgp l := fun l hl hunmatched =>
      hall ⟨l, mem_flatMap.2 ⟨_, h.known _ l hl, hl⟩, (h.protocol _ l hl).symm ▸ hunmatched⟩
    refine hnot ⟨hinterfaces, hprotocols, fun i hi => ?_, fun hsome => ?_⟩
    · obtain ⟨l, hl, rfl⟩ := mem_map.1 hi
      by_contra hmissing
      exact hmatched l hl (.inl fun m hm hsame => hmissing (mem_map.2 ⟨m, hm, hsame⟩))
    · obtain ⟨i, hi⟩ := exists_mem_of_ne_nil _ hsome
      obtain ⟨l, hl, rfl⟩ := mem_map.1 hi
      by_contra hdiffer
      exact hmatched l hl (.inr ⟨rfl, hdiffer⟩)

/-- **A mismatch is found exactly when two routers are not comparable.** -/
theorem raises_iff (h : one.IsAlone) (h' : two.IsAlone) : Raises one two ↔ ¬ Comparable one two := by
  unfold Raises terms
  by_cases hinterfaces : sameElements one.interfaces two.interfaces
  · have hi : sameElements (one.edges.map Edge.interface) (two.edges.map Edge.interface) := hinterfaces
    by_cases hprotocols : sameElements one.protocols two.protocols
    · have hp : sameElements (one.slice.protocols one.name) (two.slice.protocols two.name) := hprotocols
      simp only [hi, hp, Bool.not_true, Bool.false_eq_true, if_false]
      -- the comparison of the lanes decides
      obtain ⟨found, hfound, hiff⟩ : ∃ g, ((one.protocols.flatMap one.lanes).mapM (compareLane one two)).run = .ok g ∧
          ((∃ m, g = .error m) ↔ ∃ l ∈ one.protocols.flatMap one.lanes, Unmatched one two l.protocol l) :=
        run_mapM_finds fun l hl => by
          obtain ⟨p, -, hl⟩ := mem_flatMap.1 hl
          obtain rfl := h.protocol p l hl
          exact compareLane_run h h' hl
      have hfound : (((one.slice.protocols one.name).flatMap one.lanes).mapM (compareLane one two)).run = .ok found :=
        hfound
      rw [← exists_unmatched_iff h h' (sameElements_iff.1 hinterfaces) (sameElements_iff.1 hprotocols), ← hiff]
      refine exists_congr fun m => ?_
      rw [ExceptT.run_bind, hfound]
      cases found with
      | error m' =>
        constructor
        · intro hm
          rw [Except.error.inj (Except.ok.inj hm)]
        · intro hm
          rw [Except.error.inj hm]
          rfl
      | ok ts => exact iff_of_false (run_lift_bind_ne fun a => run_lift_bind_ne fun b => nofun) nofun
    · have hp : sameElements (one.slice.protocols one.name) (two.slice.protocols two.name) = false :=
        Bool.eq_false_iff.2 hprotocols
      simp only [hi, hp, Bool.not_true, Bool.false_eq_true, if_false, Bool.not_false, if_true]
      exact iff_of_true ⟨_, rfl⟩ fun hc => hprotocols (sameElements_iff.2 hc.protocols)
  · have hi : sameElements (one.edges.map Edge.interface) (two.edges.map Edge.interface) = false :=
      Bool.eq_false_iff.2 hinterfaces
    simp only [hi, Bool.not_false, if_true]
    exact iff_of_true ⟨_, rfl⟩ fun hc => hinterfaces (sameElements_iff.2 hc.interfaces)

theorem Comparable.symm_iff (h : Comparable one two) : Comparable two one ↔ two.sessions ⊆ one.sessions := by
  refine ⟨Comparable.sessions, fun hsessions => ⟨fun i => (h.interfaces i).symm, fun p => (h.protocols p).symm,
    hsessions, fun hsome c => ?_⟩⟩
  obtain ⟨i, hi⟩ := exists_mem_of_ne_nil _ hsome
  exact (h.communities (ne_nil_of_mem (hsessions hi)) c).symm

/-! ## §5. Encodings -/

theorem isSame_alone {s : Slice} {r : Router} {m : Document} (hm : r.isMultipath p = .ok m)
    (harea : l.edge.start.ospfArea.isScalar) (hopposite : s.opposite? l = none) (x y : Record) :
    ∃ t, (s.comparing r p (some l)).isSame x y = .ok t := by
  have hsameArea : ∃ t, (s.comparing r p (some l)).sameArea x y = .ok t := by
    cases hx : x.ospfArea with
    | none =>
      unfold Comparing.sameArea
      rw [hx]
      exact ⟨_, rfl⟩
    | some b =>
      obtain ⟨hdefault, hgiven⟩ := Comparing.sameArea_arrival (c := s.comparing r p (some l)) (y := y) rfl hx
      by_cases hd : l.edge.start.ospfArea = .null
      · exact ⟨_, hdefault hd⟩
      · rw [hgiven hd]
        unfold Enumeration.isDocument Enumeration.isAmong
        rw [harea, Bool.or_true]
        exact ⟨_, rfl⟩
  have hsameId : ∃ t, (s.comparing r p (some l)).compareIds x y .eq = .ok t := by
    unfold Comparing.compareIds
    cases x.routerId with
    | none => exact ⟨_, rfl⟩
    | some b =>
      have hmultipath : (s.comparing r p (some l)).multipath = .ok m.truthy := by
        show (r.isMultipath p).map Document.truthy = _
        rw [hm]
        rfl
      have harrival : (s.comparing r p (some l)).arrival =
          some { area := l.edge.start.ospfArea, peerId := s.peerId l p } := rfl
      have hpeer : s.peerId l p = .ok ((s.topology.session? l.edge).map fun n => .int n.address.value) := by
        unfold Slice.peerId
        rw [hopposite]
      rw [hmultipath, harrival]
      rw [hpeer]
      cases m.truthy with
      | true => exact ⟨_, rfl⟩
      | false =>
        cases y.routerId with
        | some o => exact ⟨_, rfl⟩
        | none => cases s.topology.session? l.edge <;> exact ⟨_, rfl⟩
  obtain ⟨a, ha⟩ := hsameArea
  obtain ⟨i, hi⟩ := hsameId
  exact ⟨_, bind_eq_ok.2 ⟨a, ha, bind_eq_ok.2 ⟨i, hi, rfl⟩⟩⟩

theorem isAlone_of_encode {n : Network} {q : Request} {e : Encoding} {r : Router}
    (he : (Encoding.encode n q).result = .ok e) (hr : e.slice.topology.routers = [r]) (hareas : r.HasPlainAreas) :
    Side.IsAlone ⟨e.slice, r⟩ := by
  obtain ⟨f, rs, hof⟩ := Encoding.encode_isOf he
  obtain ⟨n', hbuild⟩ := Encoding.topologyOf_ok hof.topology
  obtain ⟨encoded, hplan⟩ := Frame.isDecided hof.plan
  rw [hof.slice] at hr ⊢
  have hr : f.topology.routers = [r] := hr
  have hrouter := router_alone hr
  have hlane : ∀ {p : Protocol} {l : Lane}, l ∈ (f.slice rs).lanesOf r.name p →
      l ∈ f.allLanes ∧ l.router = r.name ∧ l.protocol = p := mem_lanesOf.1
  have hknown : ∀ p, ∀ l ∈ (f.slice rs).lanesOf r.name p, p ∈ f.protocols r.name := by
    intro p l hl
    obtain ⟨hmem, hname, rfl⟩ := hlane hl
    obtain ⟨-, -, -, hp, -⟩ := lane_owner hplan hmem
    exact hname ▸ hp
  constructor
  · exact fun p l hl => (hlane hl).2.2
  · intro p l hl
    obtain ⟨hmem, hname, -⟩ := hlane hl
    show l.edge ∈ f.topology.edges r.name
    rw [← hname]
    exact lane_edge hmem
  · intro p hp hbgp d hd
    refine lane_of_edge hplan hrouter hp hd ?_
    cases p <;> first | rfl | exact absurd rfl hbgp
  · exact hknown
  · intro l hl
    obtain ⟨hl, -, hp⟩ := hlane hl
    obtain ⟨neighbor, -, hx⟩ := announcement_alone hbuild hr hl hp
    exact ⟨_, hx, Record.communities_bgp⟩
  · intro p hp l hl
    obtain ⟨-, -, rfl⟩ := hlane hl
    exact announcement_none hp
  · intro p l hl x y
    obtain ⟨hl', hname, rfl⟩ := hlane hl
    obtain ⟨d, -, hd⟩ := decides_protocol hplan hrouter (hknown _ l hl)
    obtain ⟨m, hm, -⟩ := hd.multipath
    obtain ⟨site, hsite, -, hmem⟩ := site_of_edge (lane_edge hl')
    have hstart := (edge_isOf hbuild hsite hmem).start
    have hsite : site.router ∈ f.topology.routers := mem_map_of_mem hsite
    rw [hr, mem_singleton] at hsite
    exact isSame_alone hm (hareas _ (hsite ▸ hstart)) (opposite_alone hbuild hr hl') x y

/-- **When comparability is symmetric.**  A mismatch is found exactly when the routers are not comparable, and then
also in the other direction, where both have sessions over the same interfaces.  Routers that are comparable in one
direction are in the other one exactly if no session of the second router is missing at the first one. -/
theorem comparability_isSymmetric {n n' : Network} {q q' : Request} {e e' : Encoding} {r r' : Router}
    (he : (Encoding.encode n q).result = .ok e) (he' : (Encoding.encode n' q').result = .ok e')
    (hr : e.slice.topology.routers = [r]) (hr' : e'.slice.topology.routers = [r'])
    (hareas : r.HasPlainAreas) (hareas' : r'.HasPlainAreas) :
    (Raises ⟨e.slice, r⟩ ⟨e'.slice, r'⟩ ↔ ¬ Comparable ⟨e.slice, r⟩ ⟨e'.slice, r'⟩) ∧
    ((∀ i, i ∈ Side.sessions ⟨e.slice, r⟩ ↔ i ∈ Side.sessions ⟨e'.slice, r'⟩) →
      (Raises ⟨e.slice, r⟩ ⟨e'.slice, r'⟩ ↔ Raises ⟨e'.slice, r'⟩ ⟨e.slice, r⟩)) ∧
    (¬ Raises ⟨e.slice, r⟩ ⟨e'.slice, r'⟩ → (Raises ⟨e'.slice, r'⟩ ⟨e.slice, r⟩ ↔
      ∃ i ∈ Side.sessions ⟨e'.slice, r'⟩, i ∉ Side.sessions ⟨e.slice, r⟩)) := by
  have h := isAlone_of_encode he hr hareas
  have h' := isAlone_of_encode he' hr' hareas'
  have hiff := raises_iff h h'
  have hiff' := raises_iff h' h
  refine ⟨hiff, fun hsessions => ?_, fun hnot => ?_⟩
  · rw [hiff, hiff', not_iff_not]
    constructor
    · exact fun hc => hc.symm_iff.2 fun i => (hsessions i).2
    · exact fun hc => hc.symm_iff.2 fun i => (hsessions i).1
  · rw [hiff, not_not] at hnot
    rw [hiff', hnot.symm_iff, List.subset_def, not_forall]
    exact exists_congr fun i => Classical.not_imp

/-- Two routers with sessions over their first interface, one of which has another session over the second one. -/
def unevenNetwork : Network where
  routers := [("A", [.peer (.ofOctets 10 0 0 2) 2 1]),
      ("B", [.peer (.ofOctets 10 0 0 2) 2 1, .peer (.ofOctets 10 0 1 2) 3 1])].map fun (name, neighbors) =>
    { name := .text name
      interfaces := [.port "i" (.ofOctets 10 0 0 1 30), .port "j" (.ofOctets 10 0 1 1 30)]
      bgp := some (.speaker "1.1.1.1" neighbors) }

/-- The session that only the second router has is a mismatch in one direction only. -/
theorem uneven_comparability_isSymmetric : ∃ e e' r r',
    (Encoding.encode unevenNetwork { routers := .list [.text "A"] }).result = .ok e ∧
    (Encoding.encode unevenNetwork { routers := .list [.text "B"], id := .int 1 }).result = .ok e' ∧
    e.slice.topology.routers = [r] ∧ e'.slice.topology.routers = [r'] ∧ r.HasPlainAreas ∧ r'.HasPlainAreas ∧
    ¬ Raises ⟨e.slice, r⟩ ⟨e'.slice, r'⟩ ∧ Raises ⟨e'.slice, r'⟩ ⟨e.slice, r⟩ := by
  have huneven : ∃ e, (Encoding.encode unevenNetwork { routers := .list [.text "A"] }).result = .ok e ∧
      ∃ e', (Encoding.encode unevenNetwork { routers := .list [.text "B"], id := .int 1 }).result = .ok e' ∧
      e.slice.topology.routers.length = 1 ∧ e'.slice.topology.routers.length = 1 ∧
      ∀ r ∈ e.slice.topology.routers, ∀ r' ∈ e'.slice.topology.routers, r.HasPlainAreas ∧ r'.HasPlainAreas ∧
        sameElements (Side.interfaces ⟨e.slice, r⟩) (Side.interfaces ⟨e'.slice, r'⟩) ∧
        sameElements (Side.protocols ⟨e.slice, r⟩) (Side.protocols ⟨e'.slice, r'⟩) ∧
        sameElements e.slice.communities e'.slice.communities ∧
        (∀ i ∈ Side.sessions ⟨e.slice, r⟩, i ∈ Side.sessions ⟨e'.slice, r'⟩) ∧
        ∃ i ∈ Side.sessions ⟨e'.slice, r'⟩, i ∉ Side.sessions ⟨e.slice, r⟩ := by
    decide +kernel
  obtain ⟨e, he, e', he', hone, htwo, hsides⟩ := huneven
  obtain ⟨r, hr⟩ := List.length_eq_one_iff.1 hone
  obtain ⟨r', hr'⟩ := List.length_eq_one_iff.1 htwo
  obtain ⟨hareas, hareas', hinterfaces, hprotocols, hcommunities, hsessions, hextra⟩ :=
    hsides r (hr ▸ List.mem_singleton_self r) r' (hr' ▸ List.mem_singleton_self r')
  obtain ⟨hraises, -, hother⟩ := comparability_isSymmetric he he' hr hr' hareas hareas'
  have hcomparable : Comparable ⟨e.slice, r⟩ ⟨e'.slice, r'⟩ := ⟨sameElements_iff.1 hinterfaces,
    sameElements_iff.1 hprotocols, fun i hi => hsessions i hi, fun _ => sameElements_iff.1 hcommunities⟩
  have hnot : ¬ Raises ⟨e.slice, r⟩ ⟨e'.slice, r'⟩ := fun h => hraises.1 h hcomparable
  exact ⟨e, e', r, r', he, he', hr, hr', hareas, hareas', hnot, (hother hnot).2 hextra⟩

end Consistency

end ControlPlane
