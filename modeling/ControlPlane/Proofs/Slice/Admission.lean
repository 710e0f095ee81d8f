import ControlPlane.Proofs.Slice.StaticStates
import ControlPlane.Proofs.Transfer.Preferences

/-!
# Which routes a transfer has room for

The numbers of a record are bounded, and a policy computes with numbers that are not.  A metric that is too large is
given up by the transfer itself; for everything else that does not fit, the constraints have no solution, and the
route at the source is shut out.
-/
namespace ControlPlane

open Option Record Frame

variable {cost : Int} {a : IntAttribute} {changed : List Change} {route : Route} {v w : Valuation} {t : Transfer}
  {policy : List Statement}

/-! ## §1. Bounded records -/

namespace Record

variable {x y : Record} {d : Content}

/-- Bounds are told by values, and by whether the record is one of routes from outside of the network. -/
theorem IsBounded.congr (h : x.SameValues v w y) (henv : x.isEnvironment = y.isEnvironment) (hx : x.IsBounded v) :
    y.IsBounded w := by
  obtain ⟨hnumbers, hannounced⟩ := holds_recordBounds.1 hx.2
  exact ⟨h.bounds hx.1, holds_recordBounds.2 ⟨h.hasNumbers.1 hnumbers,
    fun he => h.hasNumbers.1 (hannounced (henv.trans he))⟩⟩

theorem telling_number {n : Int} (h : ((x.telling (some d)).under v).number a = some n) : n = d.number a := by
  obtain ⟨t, ht, rfl⟩ := map_eq_some_iff.1 h
  rw [telling_int?] at ht
  obtain ⟨u, -, rfl⟩ := map_eq_some_iff.1 ht
  rfl

theorem telling_ospfRank (hx : x.HoldsType) (hlists : x.ListsTypes) (hsome : x.ospfType.isSome) :
    ((x.telling (some d)).under v).ospfRank = d.type.rank := by
  obtain ⟨e, he⟩ := isSome_iff_exists.1 hsome
  have htype : (x.telling (some d)).ospfType = some (e.holding (some d.type)) := by
    show x.ospfType.map _ = _
    rw [he]
    rfl
  obtain ⟨b, hb⟩ := isSome_iff_exists.1 (hx e he)
  have hwidth : e.width = 2 := by
    unfold Enumeration.width
    rw [hlists e he]
    decide
  have hplace : e.placeOr (some d.type) = d.type.rank := by
    unfold Enumeration.placeOr Enumeration.placeOf?
    rw [hlists e he]
    cases d.type <;> decide
  show (Transfer.ospfBits (x.telling (some d))).eval v = _
  rw [Transfer.ospfBits, htype]
  show (Enumeration.ospfBits (e.holding (some d.type))).eval v = _
  rw [Enumeration.holding, hb, hwidth, hplace]
  show d.type.rank % Nat.pow 2 2 = _
  cases d.type <;> decide

end Record

/-! ## §2. Numbers behind a policy -/

theorem Policy.suppressedLength_inRange {destination n : Int} {aggregates : List GeneratedRoute}
    {suppressed : List Subnet} (hn : Record.InRange .prefixLength n) :
    Record.InRange .prefixLength (suppressedLength destination aggregates suppressed n) := by
  unfold suppressedLength
  dsimp only
  generalize aggregates.filter _ = covering
  cases covering.getLast? with
  | none => exact hn
  | some g => exact ⟨Int.natCast_nonneg _, Int.ofNat_le.2 g.subnet.length_le⟩

namespace Transfer

open Policy (Setting)

variable {x : Ground.Result × Ground.Param}

theorem entering_length : (t.entering v).number .prefixLength =
    (t.suppressing v (t.source.under v)).number .prefixLength := by
  unfold entering
  split
  · exact Route.number_setNumber (by decide)
  · rfl

theorem default_inRange (a : IntAttribute) : Record.InRange a (t.defaultOf a) := by
  cases a with
  | adminDist =>
    show 0 ≤ t.fromProtocol.defaultDistance t.isInternal ∧ t.fromProtocol.defaultDistance t.isInternal < 256
    cases t.fromProtocol <;> cases t.isInternal <;> decide
  | med =>
    show 0 ≤ t.fromProtocol.defaultMed ∧ t.fromProtocol.defaultMed < 4294967296
    cases t.fromProtocol <;> decide
  | routerId => trivial
  | prefixLength | metric | localPref => exact Record.inRange_zero _

theorem inRange_of_source (hv : t.source.IsBounded v) (a : IntAttribute) :
    Record.InRange a ((t.setting v).numberOf (t.source.under v) a) := by
  have hnumbers := (holds_recordBounds.1 hv.2).1
  unfold Setting.numberOf
  cases hn : (t.source.under v).number a with
  | none => exact t.default_inRange a
  | some n => exact hnumbers a n hn

/-- **Only metrics and local preferences can leave their ranges.** -/
theorem sentNumber_inRange (hv : t.source.IsBounded v) (h : t.groundBody policy v = .ok x) (hmetric : a ≠ .metric)
    (hlocal : a ≠ .localPref) (cost : Int) : Record.InRange a (t.sentNumber v x.1.changed cost x.2.route a) := by
  have hsent : t.sentNumber v x.1.changed cost x.2.route a = (t.setting v).numberOf x.2.route a := by
    cases a with
    | metric => exact absurd rfl hmetric
    | localPref => exact absurd rfl hlocal
    | _ => rfl
  rw [hsent, Setting.numberOf, groundBody_number hmetric hlocal h]
  have hsource := inRange_of_source hv a
  by_cases hlength : a = .prefixLength
  · subst hlength
    rw [entering_length]
    unfold suppressing
    split
    · exact hsource
    · unfold Setting.numberOf at hsource
      cases hn : (t.source.under v).number .prefixLength with
      | none =>
        rw [hn]
        exact t.default_inRange _
      | some n =>
        rw [hn] at hsource
        exact Policy.suppressedLength_inRange hsource
  · rw [number_entering hlength hlocal]
    exact hsource

/-! ## §3. Room at the target -/

/-- The target has room for what a policy made of a route: the metric is not negative, and small enough for an
announcement; the local preference fits into its range, and the area of the edge is a listed one. -/
structure HasRoom (t : Transfer) (v : Valuation) (changed : List Change) (cost : Int) (route : Route) : Prop where
  metric : t.target.metric.isSome → 0 ≤ t.sentMetric v cost route
  announced : t.target.metric.isSome → t.target.isEnvironment → t.sentMetric v cost route < 256
  localPref : t.target.localPref.isSome →
    Record.InRange .localPref (t.sentNumber v changed cost route .localPref)
  area : t.edge.start.ospfArea ≠ .null → t.source.ospfArea.isSome → ∀ e, t.target.ospfArea = some e →
    (e.placeOf? t.edge.start.ospfArea).isSome

theorem hasRoom_of_conveys (h : t.Conveys v changed cost route) (hb : t.target.IsBounded v)
    (hwide : ∀ e, t.target.ospfArea = some e → e.bits.isSome) : t.HasRoom v changed cost route := by
  obtain ⟨hrange, hannounced⟩ := holds_recordBounds.1 hb.2
  have hnumber : ∀ {a}, (t.target.int? a).isSome → ∃ n, (t.target.under v).number a = some n ∧
      n = t.sentNumber v changed cost route a := by
    intro a hs
    obtain ⟨u, hu⟩ := isSome_iff_exists.1 hs
    have hn : (t.target.under v).number a = some (u.eval v) := congrArg (Option.map _) hu
    exact ⟨_, hn, h.number a _ hn⟩
  refine ⟨fun hs => ?_, fun hs henv => ?_, fun hs => ?_, fun hnull hsource e he => ?_⟩
  · obtain ⟨n, hn, hsent⟩ := hnumber (a := .metric) hs
    exact le_of_le_of_eq (hrange .metric n hn).1 hsent
  · obtain ⟨n, hn, hsent⟩ := hnumber (a := .metric) hs
    exact lt_of_eq_of_lt hsent.symm (hannounced henv .metric n hn rfl)
  · obtain ⟨n, hn, hsent⟩ := hnumber (a := .localPref) hs
    exact hsent ▸ hrange .localPref n hn
  · obtain ⟨d, hd, hdv⟩ := h.area hnull e he hsource
    obtain ⟨b, hb⟩ := isSome_iff_exists.1 (hwide e he)
    unfold Enumeration.isDocument Enumeration.isAmong at hd
    split at hd
    · cases hd
      unfold Enumeration.isValue at hdv
      rw [hb] at hdv
      dsimp only at hdv
      split at hdv
      · cases hdv
      · cases hplace : e.placeOf? t.edge.start.ospfArea with
        | none =>
          rw [hplace] at hdv
          cases hdv
        | some i => rfl
    · cases hd

structure IsContent (t : Transfer) (v : Valuation) (changed : List Change) (cost : Int) (route : Route)
    (d : Record.Content) : Prop where
  number : ∀ a, d.number a = t.sentNumber v changed cost route a
  crossing : t.Crosses v changed route → d.type = .OIA
  type : ¬ t.Crosses v changed route → d.type.rank = route.ospfRank
  area : d.area = t.edge.start.ospfArea
  internal : d.internal = t.isInternal
  carries : ∀ c, d.carries c = (t.sendsCommunity && (route.carries c).getD false)

theorem exists_isContent (changed : List Change) (cost : Int) (hrank : route.ospfRank < 4) :
    ∃ d, t.IsContent v changed cost route d := by
  have htype : ∃ type : OspfType, type.rank = route.ospfRank := by
    match route.ospfRank, hrank with
    | 0, _ => exact ⟨.O, rfl⟩
    | 1, _ => exact ⟨.OIA, rfl⟩
    | 2, _ => exact ⟨.E1, rfl⟩
    | 3, _ => exact ⟨.E2, rfl⟩
  obtain ⟨type, htype⟩ := htype
  by_cases hcross : t.Crosses v changed route
  · exact ⟨⟨t.sentNumber v changed cost route, .OIA, t.edge.start.ospfArea, t.isInternal, _, none⟩, fun _ => rfl,
      fun _ => rfl, fun h => absurd hcross h, rfl, rfl, fun _ => rfl⟩
  · exact ⟨⟨t.sentNumber v changed cost route, type, t.edge.start.ospfArea, t.isInternal, _, none⟩, fun _ => rfl,
      fun h => absurd h hcross, fun _ => htype, rfl, rfl, fun _ => rfl⟩

theorem conveys_of_isContent {d : Record.Content} (hd : t.IsContent w changed cost route d) (ht : t.ReadsTypes)
    (hroom : t.HasRoom w changed cost route) (hsame : t.target.SameValues w v (t.target.telling (some d)))
    (hpermitted : t.target.permitted.isSome) (hsource : t.source.permits.eval w)
    (hhistory : t.target.history = none) (hwide : ∀ e, t.target.ospfArea = some e → e.bits.isSome ∧ e.width ≠ 0)
    (hdocument : t.edge.start.ospfArea ≠ .null → t.source.ospfArea.isSome → ∀ e, t.target.ospfArea = some e →
      ∃ c, e.isDocument t.edge.start.ospfArea = .ok c) :
    t.Conveys w changed cost route where
  permits := by rw [hsame.permits, telling_permits hpermitted, hsource]; rfl
  number a n hn := by
    rw [hsame.under] at hn
    exact (telling_number hn).trans (hd.number a)
  crossing hs hc := by rw [hsame.under, telling_ospfRank ht.target ht.lists hs, hd.crossing hc]
  type hs hc := by rw [hsame.under, telling_ospfRank ht.target ht.lists hs, hd.type hc]
  area hnull e he hs := by
    obtain ⟨c, hc⟩ := hdocument hnull hs e he
    refine ⟨c, hc, ?_⟩
    have hvalue : c = e.isValue t.edge.start.ospfArea := by
      unfold Enumeration.isDocument Enumeration.isAmong at hc
      split at hc
      · exact (Except.ok.inj hc).symm
      · cases hc
    obtain ⟨e', he', hfrozen⟩ := hsame.ospfArea he
    have he' : t.target.ospfArea.map (fun e => e.holding (some d.area)) = some e' := he'
    rw [he] at he'
    cases he'
    rw [hvalue, ← e.eval_isValue_frozen w w, hfrozen, Enumeration.eval_isValue_frozen, hd.area]
    exact e.holding_isValue_of_place v (hwide e he).1 (hwide e he).2 (hroom.area hnull hs e he)
  history e _ he := absurd (hhistory.symm.trans he) (by simp)
  internal b hb := by
    obtain ⟨b', hb', hvalue⟩ := hsame.bgpInternal hb
    obtain ⟨u, -, rfl⟩ := map_eq_some_iff.1 hb'
    exact hvalue.trans hd.internal
  sent hs e he _ := by
    obtain ⟨e', he', hkey, hvalue⟩ := hsame.community he
    obtain ⟨u, -, rfl⟩ := List.mem_map.1 he'
    rw [hvalue]
    show d.carries u.1 = _
    rw [hd.carries, hs, Bool.true_and, ← hkey]
  withheld hs e he := by
    obtain ⟨e', he', hkey, hvalue⟩ := hsame.community he
    obtain ⟨u, -, rfl⟩ := List.mem_map.1 he'
    rw [hvalue]
    show d.carries u.1 = _
    rw [hd.carries, hs, Bool.false_and]

/-! ## §4. Only the source counts -/

theorem alike_self (hsource : t.source.SameValues v w t.source) (htarget : t.target.SameValues v w t.target)
    (hdestination : t.frame.packet.dstIp.eval v = t.frame.packet.dstIp.eval w) : Alike v w t t where
  source := hsource
  target := htarget
  router := rfl
  toProtocol := rfl
  fromProtocol := rfl
  isExport := rfl
  addedCost := rfl
  area _ _ := rfl
  isInternal := rfl
  sendsCommunity := rfl
  destination := hdestination
  aggregates _ := rfl
  suppressed _ := rfl

section Source

variable (hsource : t.source.SameValues v w t.source)
  (hdestination : t.frame.packet.dstIp.eval v = t.frame.packet.dstIp.eval w)

include hsource hdestination

theorem alike_source : Alike v w { t with target := t.source } { t with target := t.source } :=
  alike_self hsource hsource hdestination

theorem setting_of_source : t.setting v = t.setting w := (alike_source hsource hdestination).setting

theorem groundBody_of_source : t.groundBody policy v = t.groundBody policy w :=
  (alike_source hsource hdestination).groundBody policy

theorem sentNumber_of_source (changed : List Change) (cost : Int) (route : Route) :
    t.sentNumber v changed cost route = t.sentNumber w changed cost route := by
  unfold sentNumber sentMetric
  rw [setting_of_source hsource hdestination]

theorem hasRoom_of_source (h : t.HasRoom v changed cost route) : t.HasRoom w changed cost route := by
  have hsent := sentNumber_of_source hsource hdestination changed cost route
  have hmetric : t.sentMetric v cost route = t.sentMetric w cost route := congrFun hsent .metric
  exact ⟨hmetric ▸ h.metric, hmetric ▸ h.announced, hsent ▸ h.localPref, h.area⟩

theorem isContent_of_source {d : Record.Content} (h : t.IsContent v changed cost route d) :
    t.IsContent w changed cost route d := by
  have halike := alike_source hsource hdestination
  -- a source that leaves its area tells it
  have hcrosses : t.Crosses v changed route ↔ t.Crosses w changed route := by
    refine and_congr_right fun _ => and_congr_right fun _ => ⟨fun hl => ?_, fun hl => ?_⟩
    · obtain ⟨-, area, -, harea, -⟩ := id hl
      exact halike.leavesArea (.inr (isSome_of_mem harea)) hl
    · obtain ⟨-, area, -, harea, -⟩ := id hl
      exact halike.symm.leavesArea (.inr (isSome_of_mem harea)) hl
  have hsent := sentNumber_of_source hsource hdestination changed cost route
  exact ⟨fun a => (h.number a).trans (congrFun hsent a), fun hc => h.crossing (hcrosses.2 hc),
    fun hc => h.type fun hv => hc (hcrosses.1 hv), h.area, h.internal, h.carries⟩

end Source

end Transfer

/-! ## §5. Transfers between the records of a frame -/

def Valuation.AgreesBeside (v w : Valuation) (xs : List Variable) (x : Record) : Prop :=
  ∀ z ∈ xs, z.name ∉ x.declarations.map Variable.name → v.AgreesAt w z

namespace Transfer

open Policy (Setting)

structure RunsIn (f : Frame) (t : Transfer) : Prop where
  frame : t.frame = f
  source : t.source ∈ f.records
  target : t.target ∈ f.allLaneRecords
  other : t.source ≠ t.target
  protocol : t.toProtocol = .ospf ∨ t.toProtocol = .bgp

/-- The transfer excludes no route: with the source and all else as they are, the target and the new variables can be
given values such that the equations of the new variables, the term of the transfer and the bounds of the target
hold. -/
def Admits (t : Transfer) (l l' : Ledger) (out : Term .bool) (v : Valuation) : Prop :=
  ∃ w : Valuation, v.AgreesBeside w l.vars t.target ∧ w.SatisfiesSince l l' ∧ out.eval w ∧ t.target.IsBounded w

/-- The policies of a transfer set neither metrics nor local preferences, and no cost is negative.  The name of the
target is not that of an announcement or of a best route. -/
structure KeepsNumbers (t : Transfer) (policy : List Statement) : Prop where
  metric : Statement.keepMetric policy
  metrics : ∀ p ∈ t.router.policies, Statement.keepMetric p.statements
  localPref : Statement.keepLocalPref policy
  localPrefs : ∀ p ∈ t.router.policies, Statement.keepLocalPref p.statements
  cost : ∀ cost, t.addedCost.integer = .ok cost → 0 ≤ cost
  announced : t.target.isEnvironment = false
  best : t.target.isBest = false

variable {f : Frame} {x : Ground.Result × Ground.Param} {l l' : Ledger} {out : Term .bool}

namespace RunsIn

variable (ht : t.RunsIn f)
include ht

theorem mem_target : t.target ∈ f.records := List.mem_append_left _ (List.mem_append_right _ ht.target)

/-- The records of lanes tell no history. -/
theorem target_planned : ∃ name router p, t.target = .planned f name router p := by
  obtain ⟨d, -, hx⟩ := List.mem_flatMap.1 ht.target
  obtain ⟨q, -, hx⟩ := List.mem_flatMap.1 hx
  obtain ⟨e, -, ⟨-, hx⟩ | ⟨hmerged, hx⟩⟩ := mem_newRecords hx
  · obtain ⟨label, hlabel⟩ := exportRecord_planned (f := f) d.router q e
    exact ⟨label, _, _, hx.trans hlabel⟩
  · rw [Frame.importRecord, hmerged] at hx
    exact ⟨_, _, _, hx⟩

theorem target_wide {e : Enumeration Document} (he : t.target.ospfArea = some e) :
    e.bits.isSome ∧ e.width ≠ 0 := by
  obtain ⟨name, router, p, hx⟩ := ht.target_planned
  rw [hx] at he
  have he : Record.areaOf name _ = some e := he
  unfold Record.areaOf at he
  split at he
  next hlength =>
    cases he
    have hwidth : Enumeration.widthFor ((Record.areasFor f name router p).toOption.getD []).length ≠ 0 := by
      unfold Enumeration.widthFor
      rw [if_neg (by omega)]
      omega
    rw [Enumeration.planned, if_neg (by simpa using hwidth)]
    exact ⟨rfl, hwidth⟩
  next => cases he

theorem sameSource (hd : f.Distinct) (hl : f.layoutVariables ⊆ l.vars) (h : v.AgreesBeside w l.vars t.target) :
    t.source.SameValues v w t.source ∧ t.frame.packet.dstIp.eval v = t.frame.packet.dstIp.eval w := by
  obtain ⟨hplanned, hdeclared⟩ := isPlanned_of_mem ht.source
  constructor
  · exact hplanned.sameValues fun z hz => h z (hl (hdeclared hz))
      (hd.disjoint ht.source ht.mem_target ht.other (List.mem_map_of_mem hz))
  · rw [ht.frame]
    exact (over_field .dstIp).eval_eq v w fun z hz => h z (hl (common_sub_layout hz))
      (hd.common ht.mem_target (List.mem_map_of_mem hz))

theorem ground_of_compute (hf : f.communities.Nodup) (hd : f.Distinct) (hl : f.layoutVariables ⊆ l.vars)
    (hrun : (t.compute policy).runOn l = (.ok out, l')) (hd' : l'.Distinct) (v : Valuation) :
    ∃ x cost, t.groundBody policy v = .ok x ∧ t.addedCost.integer = .ok cost ∧
    x.2.route.ospfRank < 4 ∧ (t.edge.start.ospfArea ≠ .null → t.source.ospfArea.isSome →
      ∀ e, t.target.ospfArea = some e → ∃ c, e.isDocument t.edge.start.ospfArea = .ok c) := by
  have hplanned := (isPlanned_of_mem ht.source).1
  obtain ⟨hdestination, hover⟩ := over_source ht.frame ht.source hl
  obtain ⟨r, after, related, -, hrelate, hkeeps, hem⟩ := t.compute_ok True hrun (hplanned.fit hf)
    (fun _ => hdestination) (fun _ => hover)
  obtain ⟨cost, hcost, h⟩ := bind_eq_ok.1 hrelate
  obtain ⟨permission, -, h⟩ := bind_eq_ok.1 h
  obtain ⟨area, harea, -⟩ := bind_eq_ok.1 h
  obtain ⟨w, hagree, hsat⟩ := hem.complete trivial hd' v
  obtain ⟨hsource, hdest⟩ := ht.sameSource hd hl fun z hz _ => hagree z hz
  refine ⟨_, cost, (groundBody_of_source hsource hdest).trans (hem.sound w hsat), hcost,
    (hem.scope trivial).2.1.ospfBits_lt w, fun hnull hs e he => ?_⟩
  obtain ⟨d, hd⟩ := isSome_iff_exists.1 hs
  unfold areaOf at harea
  rw [hkeeps.area, hd, he] at harea
  split at harea
  next hnull' => exact absurd hnull' hnull
  next hsome htarget _ =>
    cases htarget
    exact ⟨area, harea⟩
  next hother => exact absurd rfl (hother d e rfl)

end RunsIn

theorem Fits.lt {metric : Int} (h : t.Fits metric) (hp : t.toProtocol = .ospf ∨ t.toProtocol = .bgp) :
    metric < 65536 := by
  rcases hp with hp | hp
  · have hle := h 65535 (by rw [hp]; rfl)
    omega
  · have hle := h 255 (by rw [hp]; rfl)
    omega

theorem IsContent.isIn {d : Record.Content} (hd : t.IsContent v x.1.changed cost x.2.route d)
    (hv : t.source.IsBounded v) (hx : t.groundBody policy v = .ok x) (hp : t.toProtocol = .ospf ∨ t.toProtocol = .bgp)
    (hfits : t.Fits (t.sentMetric v cost x.2.route)) (hroom : t.HasRoom v x.1.changed cost x.2.route) :
    d.IsIn t.target where
  range a hs := by
    rw [hd.number]
    by_cases hmetric : a = .metric
    · subst hmetric
      exact ⟨hroom.metric hs, hfits.lt hp⟩
    by_cases hlocal : a = .localPref
    · subst hlocal
      exact hroom.localPref hs
    exact sentNumber_inRange hv hx hmetric hlocal cost
  announced henv hs := by
    rw [hd.number]
    exact hroom.announced hs henv

/-- Policies that set neither metrics nor local preferences leave room. -/
theorem hasRoom_of_keepsNumbers (ht : t.RunsIn f) (hkeeps : t.KeepsNumbers policy) (hv : t.source.IsBounded v)
    (hx : t.groundBody policy v = .ok x) (hcost : t.addedCost.integer = .ok cost) :
    t.HasRoom v x.1.changed cost x.2.route where
  metric _ := by
    have hsource : 0 ≤ (t.setting v).numberOf (t.source.under v) .metric := (inRange_of_source hv .metric).1
    have hentering : (t.setting v).numberOf (t.entering v) .metric =
        (t.setting v).numberOf (t.source.under v) .metric := by
      unfold Setting.numberOf
      rw [number_entering (by decide) (by decide)]
    have hgrows := groundBody_metric hkeeps.metrics hkeeps.metric hx
    have hcost := hkeeps.cost cost hcost
    unfold sentMetric
    omega
  announced _ henv := absurd (hkeeps.announced.symm.trans henv) (by simp)
  localPref _ := by
    have hdefault : Record.InRange .localPref defaultLocalPref := ⟨by decide, by decide⟩
    -- the route still has the local preference that it entered with
    have hsame := (groundBody_localPref hkeeps.localPrefs hkeeps.localPref hx).route
    have hentering : Record.InRange .localPref ((t.setting v).numberOf (t.entering v) .localPref) := by
      unfold entering
      split
      · exact hdefault
      · unfold Setting.numberOf
        rw [number_suppressing (by decide)]
        exact inRange_of_source hv .localPref
    show Record.InRange .localPref (if _ || t.isInternal then (t.setting v).numberOf x.2.route .localPref else _)
    split
    · unfold Setting.numberOf at hentering ⊢
      rw [hsame]
      exact hentering
    · exact hdefault
  area _ _ e he := by
    obtain ⟨name, router, p, htarget⟩ := ht.target_planned
    have hname : (Record.unused name p).isBest = false := by
      have hbest := hkeeps.best
      rw [htarget] at hbest
      exact hbest
    rw [htarget, planned_ospfArea hname] at he
    cases he

section Admission

variable (hf : f.communities.Nodup) (ht : t.RunsIn f) (hl : f.layoutVariables.Sublist l.vars)
  (hrun : (t.compute policy).runOn l = (.ok out, l')) (hd : l'.Distinct)

include hf ht hl hrun hd

theorem tells_of_compute : f.Distinct ∧ ControlPlane.Tells (t.Holds policy) l l' out := by
  have htells := compute_tells hf ht.frame ht.source ht.mem_target hl.subset hrun
  exact ⟨hd.sublist ((hl.trans htells.grows.vars.sublist).map Variable.name), htells⟩

theorem exists_telling (c : Option Record.Content) (v : Valuation) : ∃ w : Valuation,
    v.AgreesBeside w l.vars t.target ∧ w.SatisfiesSince l l' ∧ t.target.SameValues w v (t.target.telling c) := by
  obtain ⟨hdistinct, htells⟩ := tells_of_compute hf ht hl hrun hd
  obtain ⟨hplanned, hdeclared⟩ := isPlanned_of_mem ht.mem_target
  obtain ⟨u, hother, hsame⟩ := hplanned.exists_sameValues (hdistinct.record ht.mem_target)
    (telling_sameForm (c := c)) (telling_inBits (v := v)) v
  obtain ⟨w, hagree, hsat⟩ := htells.complete hd u
  have hkept := hplanned.sameValues fun z hz => hagree z (hl.subset (hdeclared hz))
  exact ⟨w, fun z hz hne => (hother z hne).trans (hagree z hz), hsat, hkept.symm.trans hsame⟩

theorem hasRoom_of_admits (h : t.Admits l l' out v) :
    ∃ x cost, t.groundBody policy v = .ok x ∧ t.addedCost.integer = .ok cost ∧
      (x.1.value → t.Fits (t.sentMetric v cost x.2.route) → t.HasRoom v x.1.changed cost x.2.route) := by
  obtain ⟨hdistinct, htells⟩ := tells_of_compute hf ht hl hrun hd
  obtain ⟨w, hagree, hsat, hout, hbounded⟩ := h
  obtain ⟨x, cost, hx, hcost, hdelivers⟩ := (htells.reads w hsat).1 hout
  obtain ⟨hsource, hdest⟩ := ht.sameSource hdistinct hl.subset hagree
  have hmetric : t.sentMetric v cost x.2.route = t.sentMetric w cost x.2.route :=
    congrFun (sentNumber_of_source hsource hdest [] cost x.2.route) .metric
  refine ⟨x, cost, (groundBody_of_source hsource hdest).trans hx, hcost, fun haccept hfits => ?_⟩
  have hconveys := hdelivers.conveys haccept (hmetric ▸ hfits)
  exact hasRoom_of_source hsource.symm hdest.symm (hasRoom_of_conveys hconveys hbounded fun e he =>
    (ht.target_wide he).1)

theorem admits_of_hasRoom (hv : t.source.IsBounded v) (hpermits : t.source.permits.eval v)
    (hx : t.groundBody policy v = .ok x) (hcost : t.addedCost.integer = .ok cost)
    (hroom : x.1.value → t.Fits (t.sentMetric v cost x.2.route) → t.HasRoom v x.1.changed cost x.2.route) :
    t.Admits l l' out v := by
  obtain ⟨hdistinct, htells⟩ := tells_of_compute hf ht hl hrun hd
  have hplanned := (isPlanned_of_mem ht.mem_target).1
  obtain ⟨x', -, hx', -, hrank, hdocument⟩ := ht.ground_of_compute hf hdistinct hl.subset hrun hd v
  cases hx.symm.trans hx'
  obtain ⟨name, router, p, htarget⟩ := ht.target_planned
  have hpermitted : t.target.permitted.isSome := by rw [htarget]; rfl
  have hhistory : t.target.history = none := by rw [htarget]; rfl
  -- an accepted route arrives as it is, and nothing arrives otherwise
  obtain ⟨c, hsome, hnone⟩ : ∃ c : Option Record.Content,
      (∀ d, c = some d → x.1.value ∧ t.Fits (t.sentMetric v cost x.2.route) ∧
        t.IsContent v x.1.changed cost x.2.route d) ∧
      (c = none → x.1.value → ¬ t.Fits (t.sentMetric v cost x.2.route)) := by
    by_cases haccept : x.1.value ∧ t.Fits (t.sentMetric v cost x.2.route)
    · obtain ⟨d, hd⟩ := exists_isContent (t := t) (v := v) x.1.changed cost hrank
      exact ⟨some d, fun _ h => Option.some.inj h ▸ ⟨haccept.1, haccept.2, hd⟩, nofun⟩
    · exact ⟨none, nofun, fun _ hacc hfits => haccept ⟨hacc, hfits⟩⟩
  obtain ⟨w, hagree, hsat, hsame⟩ := exists_telling hf ht hl hrun hd c v
  obtain ⟨hsource, hdest⟩ := ht.sameSource hdistinct hl.subset hagree
  have hpermit : t.target.permits.eval w = c.isSome := hsame.permits.trans (telling_permits hpermitted)
  refine ⟨w, hagree, hsat, (htells.reads w hsat).2 ⟨x, cost, (groundBody_of_source hsource hdest).symm.trans hx, hcost,
    fun haccept hfits => ?_, fun haccept hfits => ?_, fun hreject => ?_⟩, ?_⟩
  · cases c with
    | none => exact absurd hfits (hnone rfl haccept)
    | some d =>
      exact conveys_of_isContent (isContent_of_source hsource hdest (hsome d rfl).2.2)
        (Frame.readsTypes (isPlanned_of_mem ht.source).1 hplanned)
        (hasRoom_of_source hsource hdest (hroom haccept hfits)) hsame hpermitted
        (hsource.permits.symm.trans hpermits) hhistory (fun e he => ht.target_wide he) hdocument
  · cases c with
    | none => exact hpermit
    | some d => exact absurd (hsome d rfl).2.1 hfits
  · cases c with
    | none => exact hpermit
    | some d => cases (hsome d rfl).1.symm.trans hreject
  · refine Record.IsBounded.congr hsame.symm rfl (telling_isBounded fun d hd => ?_)
    obtain ⟨haccept, hfits, hcontent⟩ := hsome d hd
    exact hcontent.isIn hv hx ht.protocol hfits (hroom haccept hfits)

end Admission

/-- **A transfer shuts out exactly the routes that its target has no room for.**  A route at the source that the policy
rejects, or whose metric is too large for the protocol, is always admitted, and so is every route of a transfer whose
policies set neither metrics nor local preferences; any other route is admitted just if the metric is not negative,
the local preference is in its range, and the area is known. -/
theorem admits_iff (hf : f.communities.Nodup) (ht : t.RunsIn f) (hl : f.layoutVariables.Sublist l.vars)
    (hrun : (t.compute policy).runOn l = (.ok out, l')) (hd : l'.Distinct) (hv : t.source.IsBounded v)
    (hpermits : t.source.permits.eval v) :
    (t.Admits l l' out v ↔ ∃ x cost, t.groundBody policy v = .ok x ∧ t.addedCost.integer = .ok cost ∧
      (x.1.value → t.Fits (t.sentMetric v cost x.2.route) → t.HasRoom v x.1.changed cost x.2.route)) ∧
    (t.KeepsNumbers policy → t.Admits l l' out v) := by
  refine ⟨⟨hasRoom_of_admits hf ht hl hrun hd, ?_⟩, fun hkeeps => ?_⟩
  · rintro ⟨x, cost, hx, hcost, hroom⟩
    exact admits_of_hasRoom hf ht hl hrun hd hv hpermits hx hcost hroom
  · have hdistinct := (tells_of_compute hf ht hl hrun hd).1
    obtain ⟨x, cost, hx, hcost, -⟩ := ht.ground_of_compute hf hdistinct hl.subset hrun hd v
    exact admits_of_hasRoom hf ht hl hrun hd hv hpermits hx hcost fun _ _ =>
      hasRoom_of_keepsNumbers ht hkeeps hv hx hcost

def lowering : List Statement := [.setMetric (.decreaseMetric (.int 5)), .simple .exitAccept]

def announced (metric : Int) : Valuation where
  bool _ := true
  int name := if Text.occursIn "metric" name then metric else 0
  bits _ := 0

def Lowers (t : Transfer) (metric : Int) : Prop :=
  t.source.IsBounded (announced metric) ∧ t.source.permits.eval (announced metric) ∧
    ∃ x, t.groundBody lowering (announced metric) = .ok x ∧ x.1.value ∧
      t.sentMetric (announced metric) 0 x.2.route = metric - 5

instance (x : Record) (v : Valuation) : Decidable (x.IsBounded v) := inferInstanceAs (Decidable (_ ∧ _))

instance (t : Transfer) (metric : Int) : Decidable (t.Lowers metric) := inferInstanceAs (Decidable (_ ∧ _))

def IsLowering (e : Encoding) (r : Router) (m : Lane) (source : Record) : Prop :=
  m.protocol = .bgp ∧ m.incoming.used ∧ source.name ≠ m.incoming.name ∧ m.incoming.metric.isSome ∧
    m.incoming.localPref.isSome = false ∧ m.incoming.ospfArea.isSome = false ∧ m.incoming.isEnvironment = false ∧
    (((e.slice.importTransfer r m source).compute lowering).runOn e.ledger).2.Distinct ∧
    (((e.slice.importTransfer r m source).compute lowering).runOn e.ledger).1.isOk ∧
    (e.slice.importTransfer r m source).Lowers 3 ∧ (e.slice.importTransfer r m source).Lowers 8

instance (e : Encoding) (r : Router) (m : Lane) (source : Record) : Decidable (IsLowering e r m source) :=
  inferInstanceAs (Decidable (_ ∧ _))

theorem lowering_admits_iff : ∃ (e : Encoding) (t : Transfer) (out : Term .bool) (l' : Ledger),
    (Encoding.encode peeredNetwork {}).result = .ok e ∧ (t.compute lowering).runOn e.ledger = (.ok out, l') ∧
    t.Lowers 3 ∧ ¬ t.Admits e.ledger l' out (announced 3) ∧
    t.Lowers 8 ∧ t.Admits e.ledger l' out (announced 8) := by
  have hedge : ∃ e, (Encoding.encode peeredNetwork {}).result = .ok e ∧
      ∃ r, e.slice.topology.router (.text "A") = .ok r ∧
      ∃ m ∈ e.slice.lanes, ∃ source ∈ e.slice.across? m .incoming, IsLowering e r m source := by
    decide +kernel
  obtain ⟨e, he, r, -, m, hm, source, hsource, hp, hused, hother, hmetric, hlocal, harea, henv, hd, hok, hlow, hhigh⟩ :=
    hedge
  obtain ⟨f, rs, hof⟩ := Encoding.encode_isOf he
  have hruns : (e.slice.importTransfer r m source).RunsIn f := by
    rw [hof.slice] at hm hsource ⊢
    exact ⟨rfl, Frame.mem_across hsource, Frame.incoming_mem_laneRecords hm hused,
      fun h => hother (congrArg Record.name h),
      .inr hp⟩
  cases hrun : ((e.slice.importTransfer r m source).compute lowering).runOn e.ledger with
  | mk result l' =>
    rw [hrun] at hd hok
    cases result with
    | error cause => cases hok
    | ok out =>
      have hiff := fun {n} (h : (e.slice.importTransfer r m source).Lowers n) =>
        (admits_iff (v := announced n) (Community.nodup_ofRouters hof.communities) hruns hof.declares.sublist hrun hd
          h.1 h.2.1).1
      refine ⟨e, _, out, l', he, hrun, hlow, fun hadmits => ?_, hhigh, (hiff hhigh).2 ?_⟩
      · -- the metric would have to be negative
        obtain ⟨x, cost, hx, hcost, hroom⟩ := (hiff hlow).1 hadmits
        obtain ⟨-, -, x', hx', haccept, hsent⟩ := hlow
        obtain rfl := Except.ok.inj (hx'.symm.trans hx)
        obtain rfl : 0 = cost := Except.ok.inj hcost
        have hfits : (e.slice.importTransfer r m source).Fits
            ((e.slice.importTransfer r m source).sentMetric (announced 3) 0 x'.2.route) := by
          intro limit hlimit
          have hlimit : m.protocol.maxMetric? = some limit := hlimit
          rw [hp] at hlimit
          obtain rfl : (255 : Int) = limit := Option.some.inj hlimit
          rw [hsent]
          decide
        have hnonneg := (hroom haccept hfits).metric hmetric
        rw [hsent] at hnonneg
        cases hnonneg
      · obtain ⟨-, -, x, hx, haccept, hsent⟩ := hhigh
        refine ⟨x, 0, hx, rfl, fun _ _ => ⟨fun _ => ?_, fun _ h => absurd (henv.symm.trans h) (by simp),
          fun h => absurd (hlocal.symm.trans h) (by simp), fun _ _ area h => ?_⟩⟩
        · rw [hsent]
          decide
        · have h : m.incoming.ospfArea = some area := h
          rw [h] at harea
          cases harea

end Transfer

end ControlPlane
