import ControlPlane.Proofs.Slice.Assignment
import ControlPlane.Proofs.Slice.Validity
import ControlPlane.Proofs.Transfer.Passing

/-!
# Transfers and the values of their targets

What a transfer conveys fixes the values of a valid target (`Transfer.Conveys.sameValues`).  A transfer whose target
is its source changes nothing if the marks and the communities that it gives are those of the route
(`Transfer.conveys_self`).
-/
namespace ControlPlane

open List Option Transfer

variable {c : Community} {dependencies : List (Community × List Community)} {v : Valuation} {y : Record}

/-! ## §1. Communities -/

/-- Regular expressions do not decide about regular expressions. -/
theorem Community.kind_of_dependency {all : List Community} (h : Community.dependencies all = .ok dependencies)
    {d : Community} (hd : d ∈ (dependencies.lookup c).getD []) : d.kind ≠ .regex := by
  cases hc : dependencies.lookup c with
  | none =>
    rw [hc] at hd
    cases hd
  | some ds =>
    rw [hc] at hd
    obtain ⟨c', -, hc'⟩ := exists_of_mem_mapM h (mem_of_lookup_eq_some hc)
    split at hc'
    · obtain ⟨-, rfl⟩ := Prod.mk.inj (Except.ok.inj hc')
      intro hkind
      simp [dependenciesOf, hkind] at hd
    · cases hc'

namespace Record

variable {w : Valuation} {x : Record}

/-- A record with the same communities has a place for each. -/
theorem exists_community? (hkeys : x.communities.map Prod.fst = y.communities.map Prod.fst) {t : Term .bool}
    (h : x.community? c = some t) : ∃ t', y.community? c = some t' := by
  have hmem : c ∈ y.communities.map Prod.fst := hkeys ▸ mem_map_of_mem (mem_of_lookup_eq_some h)
  obtain ⟨e, he, rfl⟩ := mem_map.1 hmem
  exact isSome_iff_exists.1 (lookup_isSome_iff.2 ⟨e, he, beq_self_eq_true _⟩)

section

variable (hdeps : ∀ c d, d ∈ (dependencies.lookup c).getD [] → d.kind ≠ .regex)
  (hkeys : x.communities.map Prod.fst = y.communities.map Prod.fst) (hx : x.IsValid dependencies v)
  (hy : y.IsValid dependencies w)
include hdeps hkeys hx hy

theorem pattern_of_patterns
    (hplain : ∀ e ∈ x.communities, ∀ e' ∈ y.communities, e.1 = e'.1 → e.1.kind ≠ .regex → e.2.eval v = e'.2.eval w)
    {e e' : Community × Term .bool} (he : e ∈ x.communities) (he' : e' ∈ y.communities) (hee : e.1 = e'.1)
    (hkind : e.1.kind = .regex) (hv : e.2.eval v) : e'.2.eval w := by
  obtain ⟨d, hd, t, ht, htv⟩ := (hx.patterns e he hkind).1 hv
  obtain ⟨t', ht'⟩ := exists_community? hkeys ht
  refine (hy.patterns e' he' (hee ▸ hkind)).2 ⟨d, hee ▸ hd, t', ht', ?_⟩
  rw [← hplain (d, t) (mem_of_lookup_eq_some ht) (d, t') (mem_of_lookup_eq_some ht') rfl (hdeps _ d hd)]
  exact htv

theorem communities_eq
    (hplain : ∀ e ∈ x.communities, ∀ e' ∈ y.communities, e.1 = e'.1 → e.1.kind ≠ .regex → e.2.eval v = e'.2.eval w) :
    ∀ e ∈ x.communities, ∀ e' ∈ y.communities, e.1 = e'.1 → e.2.eval v = e'.2.eval w := by
  intro e he e' he' hee
  by_cases hkind : e.1.kind = .regex
  · rw [Bool.eq_iff_iff]
    refine ⟨pattern_of_patterns hdeps hkeys hx hy hplain he he' hee hkind, ?_⟩
    refine pattern_of_patterns hdeps hkeys.symm hy hx (fun d hd d' hd' hdd hplain' => ?_) he' he hee.symm (hee ▸ hkind)
    exact (hplain d' hd' d hd hdd.symm (hdd ▸ hplain')).symm
  · exact hplain e he e' he' hee hkind

end

/-! ## §2. Records with given values -/

variable (hform : x.SameForm y) (harea : y.ospfArea = none) (hhistory : y.history = none) (hx : x.HoldsType)
  (hy : y.HoldsType)
include hform harea hhistory hx hy

/-- **The values of a record, attribute by attribute.** -/
theorem sameValues_of_values (hpermits : x.permits.eval v = y.permits.eval w)
    (hnumber : ∀ a n m, (x.under v).number a = some n → (y.under w).number a = some m → n = m)
    (htype : x.ospfType.isSome → (x.under v).ospfRank = (y.under w).ospfRank)
    (hinternal : ∀ b c, x.bgpInternal = some b → y.bgpInternal = some c → b.eval v = c.eval w)
    (hcommunities : ∀ e ∈ x.communities, ∀ e' ∈ y.communities, e.1 = e'.1 → e.2.eval v = e'.2.eval w) :
    x.SameValues v w y := by
  have hnumbers : ∀ a, (x.int? a).map (Term.frozen v) = (y.int? a).map (Term.frozen w) := by
    intro a
    refine map_frozen_of_isSome (hform.number a) fun s t hs ht => hnumber a _ _ ?_ ?_
    · show (x.int? a).map _ = _
      rw [hs]
      rfl
    · show (y.int? a).map _ = _
      rw [ht]
      rfl
  obtain ⟨hlength, hdistance, hlocal, hmetric, hmed, hid⟩ := IntAttribute.forall_iff.1 hnumbers
  simp only [int?] at hlength hdistance hlocal hmetric hmed hid
  have hpermitted : x.permitted.map (Term.frozen v) = y.permitted.map (Term.frozen w) := by
    refine map_frozen_of_isSome hform.permitted fun s t hs ht => ?_
    rw [permits, permits, hs, ht] at hpermits
    exact hpermits
  have harea' : x.ospfArea = none := by
    have hform := hform.area
    rw [harea] at hform
    exact map_eq_none_iff.1 hform
  have hhistory' : x.history = none := by
    have hform := hform.history
    rw [hhistory] at hform
    exact map_eq_none_iff.1 hform
  -- the place of an OSPF type is its rank
  have htypes : x.ospfType.map (Enumeration.frozen v) = y.ospfType.map (Enumeration.frozen w) := by
    have hform := hform.type
    cases hex : x.ospfType with
    | none =>
      rw [hex] at hform
      rw [map_eq_none_iff.1 hform.symm]
      rfl
    | some e =>
      rw [hex] at hform
      obtain ⟨e', hey, hsame⟩ := map_eq_some_iff.1 hform.symm
      obtain ⟨b, hb, hrank⟩ := ospfRank_eq (v := v) hx hex
      obtain ⟨c, hc, hrank'⟩ := ospfRank_eq (v := w) hy hey
      have hbits : b.eval v = c.eval w := by
        rw [← hrank, ← hrank']
        exact htype (by rw [hex]; rfl)
      rw [hey, map_some, map_some, Enumeration.frozen, Enumeration.frozen, hb, hc, map_some,
        map_some, Term.frozen_eq_iff.2 hbits, (Prod.mk.inj hsame).1]
  unfold SameValues frozen
  rw [hform.protocol, hform.used, hpermitted, hlength, hdistance, hlocal, hmetric, hmed, hid,
    map_frozen_of_isSome hform.internal fun s t hs ht => hinternal s t hs ht, htypes, harea, harea',
    hhistory, hhistory',
    communities_frozen hform.communities fun e he => hcommunities e.1 (of_mem_zip he).1 e.2 (of_mem_zip he).2]
  rfl

theorem sameValues_of_rests (hpx : x.permits.eval v = false) (hpy : y.permits.eval w = false)
    (hvx : x.IsValid dependencies v) (hvy : y.IsValid dependencies w) : x.SameValues v w y := by
  have hrx := hvx.rests hpx
  have hry := hvy.rests hpy
  have hrank : ∀ {z : Record} {u : Valuation}, z.HoldsType → z.Rests u → z.ospfType.isSome →
      (z.under u).ospfRank = 0 := by
    intro z u hz hrest hsome
    obtain ⟨e, he⟩ := isSome_iff_exists.1 hsome
    obtain ⟨b, hb, hrank⟩ := ospfRank_eq (v := u) hz he
    have hdefault := hrest.type e he
    rw [Enumeration.isDefault, hb, Term.eval_eq] at hdefault
    rw [hrank]
    exact hdefault
  refine sameValues_of_values hform harea hhistory hx hy (hpx.trans hpy.symm) (fun a n m hn hm => ?_) (fun hs => ?_)
    (fun b c hb hc => ?_) fun e he e' he' _ => ?_
  · rw [hrx.numbers a n hn, hry.numbers a m hm]
  · rw [hrank hx hrx hs, hrank hy hry (hform.ospfType_isSome ▸ hs)]
  · rw [hrx.internal b hb, hry.internal c hc]
  · rw [hrx.communities e he, hry.communities e' he']

end Record

/-! ## §3. What a transfer conveys -/

namespace Transfer

variable {t u : Transfer} {changed : List Change} {cost : Int} {route : Route}

/-- **A transfer fixes the values of its target.** -/
theorem Conveys.sameValues (ht : t.Conveys v changed cost route) (hu : u.Conveys v changed cost route)
    (hform : t.target.SameForm u.target) (harea : u.target.ospfArea = none) (hhistory : u.target.history = none)
    (htype : t.target.HoldsType) (htype' : u.target.HoldsType)
    (hdeps : ∀ c d, d ∈ (dependencies.lookup c).getD [] → d.kind ≠ .regex)
    (hvalid : t.target.IsValid dependencies v) (hvalid' : u.target.IsValid dependencies v)
    (hpermits : t.source.permits.eval v = u.source.permits.eval v)
    (hnumber : ∀ a, t.sentNumber v changed cost route a = u.sentNumber v changed cost route a)
    (hcrosses : t.Crosses v changed route ↔ u.Crosses v changed route) (hinternal : t.isInternal = u.isInternal)
    (hsends : t.sendsCommunity = u.sendsCommunity) : t.target.SameValues v v u.target := by
  have hsome := hform.ospfType_isSome
  refine Record.sameValues_of_values hform harea hhistory htype htype' ?_ (fun a n m hn hm => ?_) (fun hs => ?_)
    (fun b c hb hc => ?_) ?_
  · rw [ht.permits, hu.permits, hpermits]
  · rw [ht.number a n hn, hu.number a m hm, hnumber]
  · by_cases hcross : t.Crosses v changed route
    · rw [ht.crossing hs hcross, hu.crossing (hsome ▸ hs) (hcrosses.1 hcross)]
    · rw [ht.type hs hcross, hu.type (hsome ▸ hs) fun h => hcross (hcrosses.2 h)]
  · rw [ht.internal b hb, hu.internal c hc, hinternal]
  · cases hsent : t.sendsCommunity with
    | false =>
      intro e he e' he' _
      rw [ht.withheld hsent e he, hu.withheld (hsends ▸ hsent) e' he']
    | true =>
      refine Record.communities_eq hdeps hform.communities hvalid hvalid' fun e he e' he' hee hkind => ?_
      rw [ht.sent hsent e he hkind, hu.sent (hsends ▸ hsent) e' he' (hee ▸ hkind), hee]

theorem entering_of_import (himport : t.isExport = false) : t.entering v =
    if t.resetsLocalPref then (t.source.under v).setNumber .localPref defaultLocalPref else t.source.under v := by
  unfold entering suppressing
  rw [himport, Bool.not_false, Bool.true_or, if_pos rfl]

theorem entering_number (himport : t.isExport = false) {a : IntAttribute} (ha : a ≠ .localPref) :
    (t.entering v).number a = (t.source.under v).number a := by
  rw [entering_of_import himport]
  split
  · exact if_neg ha
  · rfl

/-- An import whose target is its source changes nothing: local preferences are those that the import gives, and so
are the marks of iBGP and the communities. -/
theorem conveys_self (htarget : t.target = t.source) (himport : t.isExport = false) (hfit : t.source.Fit)
    (harea : t.source.ospfArea = none)
    (hlocal : ∀ n, (t.source.under v).number .localPref = some n → t.isInternal ∨ n = defaultLocalPref)
    (hinternal : ∀ b, t.source.bgpInternal = some b → b.eval v = t.isInternal)
    (hwithheld : t.sendsCommunity = false → ∀ e ∈ t.source.communities, e.2.eval v = false) :
    t.Conveys v [] 0 (t.entering v) where
  permits := by rw [htarget]
  number a n hn := by
    rw [htarget] at hn
    have hother : ∀ b, b ≠ .localPref → (t.source.under v).number b = some n →
        (t.setting v).numberOf (t.entering v) b = n := by
      intro b hb hbn
      unfold Policy.Setting.numberOf
      rw [entering_number himport hb, hbn, getD_some]
    cases a with
    | metric =>
      show n = (t.setting v).numberOf (t.entering v) .metric + 0
      rw [hother .metric (by decide) hn, Int.add_zero]
    | localPref =>
      show n = if [].contains _ || t.isInternal then _ else _
      rw [show ([] : List Change).contains (.attribute IntAttribute.localPref.key) = false from rfl, Bool.false_or]
      cases hi : t.isInternal with
      | true =>
        have hreset : t.resetsLocalPref = false := by
          unfold resetsLocalPref
          rw [hi, Bool.not_true, Bool.and_false]
        rw [if_pos rfl, entering_of_import himport, hreset, if_neg Bool.false_ne_true]
        unfold Policy.Setting.numberOf
        rw [hn, getD_some]
      | false =>
        exact (hlocal n hn).resolve_left (by rw [hi]; exact Bool.false_ne_true)
    | prefixLength | adminDist | med | routerId => exact (hother _ (by decide) hn).symm
  crossing _ hcross := by
    obtain ⟨-, -, -, area, d, hsome, -⟩ := hcross
    cases harea.symm.trans hsome
  type _ _ := by
    rw [htarget, entering_of_import himport]
    split <;> rfl
  area _ x hx := by
    rw [htarget, harea] at hx
    cases hx
  history x y hx hy := by
    rw [htarget] at hx
    cases hx.symm.trans hy
    unfold Enumeration.equal
    cases x.bits with
    | none => rfl
    | some b => exact (Term.eval_eq v b b).2 rfl
  internal b hb := hinternal b (htarget ▸ hb)
  sent _ e he _ := by
    rw [htarget] at he
    have hcarries : (t.entering v).carries = (t.source.under v).carries := by
      rw [entering_of_import himport]
      split <;> rfl
    have hlookup : t.source.community? e.1 = some e.2 := lookup_of_mem hfit he
    rw [hcarries]
    show _ = ((t.source.community? e.1).map _).getD false
    rw [hlookup]
    rfl
  withheld hs e he := hwithheld hs e (htarget ▸ he)

end Transfer

/-! ## §4. Received routes that stay as they were sent -/

namespace Slice

variable (s : Slice)

def isInternalLane (l : Lane) : Bool := l.protocol == .bgp && s.topology.isInternal l.edge

def sendsCommunities (l : Lane) : Bool :=
  l.protocol == .bgp && (s.topology.session? l.edge).any fun n => n.sendCommunity.truthy

/-- Receiving a route over a lane would change nothing about it. -/
structure Settled (l : Lane) (v : Valuation) (y : Record) : Prop where
  link : (s.notFailed l.edge).eval v
  metric : ∀ n limit, (y.under v).number .metric = some n → l.protocol.maxMetric? = some limit → n ≤ limit
  localPref : ∀ n, (y.under v).number .localPref = some n → s.isInternalLane l ∨ n = defaultLocalPref
  internal : ∀ b, y.bgpInternal = some b → b.eval v = s.isInternalLane l
  withheld : s.sendsCommunities l = false → ∀ e ∈ y.communities, e.2.eval v = false

variable {s} {r : Router} {l : Lane}

theorem Settled.passes (h : s.Settled l v y) (hfit : y.Fit) (harea : y.ospfArea = none)
    (hmetric : y.metric.isSome) : (s.importTransfer r { l with incoming := y } y).Passes v 0 := by
  have hself := conveys_self (v := v) (t := s.importTransfer r { l with incoming := y } y) rfl rfl hfit harea
    h.localPref h.internal h.withheld
  refine ⟨fun _ => hself, fun hfits => absurd (fun limit hlimit => ?_) hfits⟩
  obtain ⟨metric, hsome⟩ := isSome_iff_exists.1 hmetric
  have hnumber : (y.under v).number .metric = some (metric.eval v) := by
    show y.metric.map _ = _
    rw [hsome]
    rfl
  exact Int.le_trans (Int.le_of_eq (hself.number .metric _ hnumber).symm) (h.metric _ limit hnumber hlimit)

/-- **Where receiving changes nothing, the received route is the one that was sent**, and nothing else is said about
it. -/
theorem receivesFrom_iff {subnets : List Subnet} (hpolicy : s.topology.importPolicy r l.protocol l.edge = .ok none)
    (hsubnets : r.originated l.protocol = .ok subnets) (hroot : (s.packet.isBoundFor subnets).eval v = false)
    (hactive : Topology.isActive l.protocol l.edge.start) (hform : l.incoming.SameForm y)
    (harea : y.ospfArea = none) (hhistory : y.history = none) (htype : l.incoming.HoldsType) (htype' : y.HoldsType)
    (hfit : y.Fit) (hmetric : y.metric.isSome)
    (hdeps : ∀ c d, d ∈ (dependencies.lookup c).getD [] → d.kind ≠ .regex) (hvalid : l.incoming.IsValid dependencies v)
    (hvalid' : y.IsValid dependencies v) (hsettled : y.permits.eval v → s.Settled l v y) :
    s.ReceivesFrom r l v y ↔ l.incoming.SameValues v v y := by
  have hreceives : s.Receives l v subnets y ↔ y.permits.eval v :=
    ⟨fun h => h.permits, fun h => ⟨hroot, hactive, h, (hsettled h).link⟩⟩
  constructor
  · rintro ⟨subnets', policy, hsubnets', hpolicy', hyes, hno⟩
    cases hsubnets.symm.trans hsubnets'
    cases hpolicy.symm.trans hpolicy'
    cases hp : y.permits.eval v with
    | false =>
      have hrests := hno fun h => absurd (hp.symm.trans (hreceives.1 h)) Bool.false_ne_true
      exact Record.sameValues_of_rests hform harea hhistory htype htype' hrests hp hvalid hvalid'
    | true =>
      have hself := (hsettled hp).passes (r := r) hfit harea hmetric
      obtain ⟨cost, hcost, hpasses⟩ := holds_accept.1 (hyes (hreceives.2 hp))
      obtain rfl := Except.ok.inj (show Except.ok 0 = Except.ok cost from hcost)
      -- the same route comes through, whichever record it is put into
      have hfits : (s.importTransfer r l y).Fits ((s.importTransfer r l y).sentMetric v 0
          ((s.importTransfer r l y).entering v)) := (hself.conveyed hp).1
      exact (hpasses.conveys hfits).sameValues (hself.conveys hfits) hform harea hhistory htype htype' hdeps hvalid
        hvalid' rfl (fun _ => rfl) Iff.rfl rfl rfl
  · intro hsame
    refine ⟨subnets, none, hsubnets, hpolicy, fun h => ?_, fun h => ?_⟩
    · have hself := (hsettled (hreceives.1 h)).passes (r := r) hfit harea hmetric
      have halike : Transfer.Alike v v (s.importTransfer r { l with incoming := y } y) (s.importTransfer r l y) :=
        ⟨rfl, hsame.symm, rfl, rfl, rfl, rfl, rfl, fun _ _ => rfl, rfl, rfl, rfl, fun _ => rfl, fun _ => rfl⟩
      exact halike.holds (holds_accept.2 ⟨0, rfl, hself⟩)
    · rw [hsame.permits]
      exact Bool.eq_false_iff.2 fun hp => h (hreceives.2 hp)

end Slice

end ControlPlane
