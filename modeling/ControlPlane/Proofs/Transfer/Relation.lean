import ControlPlane.Proofs.Route.Freezing
import ControlPlane.Proofs.Transfer.Faithfulness

/-!
# What a transfer says about its two routes

Where a policy accepts a route, the target is the route that the policy ended with, unless its metric does not
fit into the protocol; otherwise there is no route at the target.
-/
namespace ControlPlane

open Term Build Option

open Policy (Setting Scope)

variable {e : Enumeration OspfType} {l l' : Ledger} {policy : List Statement} {route y : Record} {r : Result}
  {out : Term .bool}

/-! ## §1. The route that arrives -/

def Record.ListsTypes (x : Record) : Prop := ∀ e, x.ospfType = some e → e.values = OspfType.all

namespace Transfer

variable (t : Transfer) (v : Valuation)

def Fits (metric : Int) : Prop := ∀ limit, t.toProtocol.maxMetric? = some limit → metric ≤ limit

def sentMetric (cost : Int) (route : Route) : Int := (t.setting v).numberOf route .metric + cost

def sentNumber (changed : List Change) (cost : Int) (route : Route) : IntAttribute → Int
  | .metric => t.sentMetric v cost route
  | .localPref =>
    if changed.contains (.attribute IntAttribute.localPref.key) || t.isInternal then
      (t.setting v).numberOf route .localPref
    else defaultLocalPref
  | a => (t.setting v).numberOf route a

def LeavesArea : Prop :=
  t.edge.start.ospfArea ≠ .null ∧ ∃ area d, t.source.ospfArea = some area ∧
    area.isDocument t.edge.start.ospfArea = .ok d ∧ d.eval v = false

/-- An intra or inter area route becomes an inter area one, because the policy set no type. -/
def Crosses (changed : List Change) (route : Route) : Prop :=
  changed.contains (.attribute "ospf_type") = false ∧ route.ospfRank ≤ 1 ∧ t.LeavesArea v

/-- The target has what it models of a route, and exists if the source does. -/
structure Conveys (changed : List Change) (cost : Int) (route : Route) : Prop where
  permits : t.target.permits.eval v = t.source.permits.eval v
  number : ∀ a n, (t.target.under v).number a = some n → n = t.sentNumber v changed cost route a
  crossing : t.target.ospfType.isSome → t.Crosses v changed route →
    (t.target.under v).ospfRank = OspfType.OIA.rank
  type : t.target.ospfType.isSome → ¬ t.Crosses v changed route →
    (t.target.under v).ospfRank = route.ospfRank
  area : t.edge.start.ospfArea ≠ .null → ∀ x, t.target.ospfArea = some x → t.source.ospfArea.isSome →
    ∃ d, x.isDocument t.edge.start.ospfArea = .ok d ∧ d.eval v
  history : ∀ x y, t.target.history = some x → t.source.history = some y → (x.equal y).eval v
  internal : ∀ b, t.target.bgpInternal = some b → b.eval v = t.isInternal
  sent : t.sendsCommunity → ∀ e ∈ t.target.communities, e.1.kind ≠ .regex →
    e.2.eval v = (route.carries e.1).getD false
  withheld : t.sendsCommunity = false → ∀ e ∈ t.target.communities, e.2.eval v = false

/-! ## §2. Reading the relation -/

variable {t v} {x : Record}

theorem holds_sameInt {s : Option (Term .int)} {value : Term .int} :
    (sameInt s value).eval v ↔ ∀ n, s.map (fun x => x.eval v) = some n → n = value.eval v := by
  cases s with
  | none => exact ⟨nofun, fun _ => rfl⟩
  | some x =>
    show (Term.eq x value).eval v ↔ _
    rw [eval_eq]
    exact ⟨fun h n hn => (Option.some.inj hn).symm.trans h, fun h => h _ rfl⟩

theorem holds_isType (hx : x.HoldsType) (hlists : x.ListsTypes) (he : x.ospfType = some e) (type : OspfType) :
    (e.isValue type).eval v ↔ (x.under v).ospfRank = type.rank := by
  obtain ⟨b, hb, hrank⟩ := ospfRank_eq (v := v) hx he
  have hwidth : e.width = 2 := by
    unfold Enumeration.width
    rw [hlists e he]
    decide
  have hplace : e.placeOf? type = some type.rank := by
    unfold Enumeration.placeOf?
    rw [hlists e he]
    cases type <;> decide
  rw [hrank, Enumeration.isValue, hb]
  simp only [hwidth, hplace]
  rw [if_neg (by decide), eval_eq]
  cases type <;> rfl

theorem holds_isInternal (hy : y.HoldsType) (he : y.ospfType = some e) :
    e.isInternal.eval v ↔ (y.under v).ospfRank ≤ 1 := by
  obtain ⟨b, hb, hrank⟩ := ospfRank_eq (v := v) hy he
  rw [hrank, Enumeration.isInternal, hb]
  exact decide_eq_true_iff

/-- A transfer that reads OSPF types as it should: the two routes hold their types in bits, and where the target
tells its type, so does a source that tells its area. -/
structure ReadsTypes (t : Transfer) : Prop where
  source : t.source.HoldsType
  target : t.target.HoldsType
  lists : t.target.ListsTypes
  area : t.target.ospfType.isSome → t.source.ospfArea.isSome → t.source.ospfType.isSome

theorem holds_typeOf (ht : t.ReadsTypes) (hkeeps : t.source.Keeps route) {type : Term .bool}
    (h : t.typeOf route r = .ok type) :
    type.eval v ↔
      (t.target.ospfType.isSome → t.Crosses v r.changed (route.under v) →
        (t.target.under v).ospfRank = OspfType.OIA.rank) ∧
      (t.target.ospfType.isSome → ¬ t.Crosses v r.changed (route.under v) →
        (t.target.under v).ospfRank = (route.under v).ospfRank) := by
  have hroute : route.HoldsType := hkeeps.holdsType ht.source
  have hcopied : (sameType t.target.ospfType route.ospfType).eval v ↔ _ :=
    Comparing.holds_sameType ht.target hroute
  -- where nothing crosses, the type is copied
  have hstays : (t.target.ospfType.isSome → ¬ t.Crosses v r.changed (route.under v)) →
      ((sameType t.target.ospfType route.ospfType).eval v ↔
        (t.target.ospfType.isSome → t.Crosses v r.changed (route.under v) →
          (t.target.under v).ospfRank = OspfType.OIA.rank) ∧
        (t.target.ospfType.isSome → ¬ t.Crosses v r.changed (route.under v) →
          (t.target.under v).ospfRank = (route.under v).ospfRank)) := by
    intro hnot
    rw [hcopied]
    exact ⟨fun h => ⟨fun hs hc => absurd hc (hnot hs), fun hs _ => h hs⟩, fun h hs => h.2 hs (hnot hs)⟩
  unfold typeOf at h
  split at h
  next hchanged =>
    cases h
    exact hstays fun _ hc => absurd (hchanged.symm.trans hc.1) (by simp)
  next hchanged =>
    have hchanged : r.changed.contains (.attribute "ospf_type") = false := Bool.eq_false_iff.2 hchanged
    split at h
    next hnull =>
      cases h
      exact hstays fun _ hc => hc.2.2.1 hnull
    next type area x htype harea htarget hnull =>
      obtain ⟨d, hd, h⟩ := bind_eq_ok.1 h
      cases h
      have hcross : t.Crosses v r.changed (route.under v) ↔
          (Term.and [type.isInternal, .not d]).eval v := by
        rw [holds_and_two, holds_not, holds_isInternal hroute htype]
        rw [hkeeps.area] at harea
        constructor
        · rintro ⟨-, hrank, -, area', d', harea', hd', hfalse⟩
          cases harea.symm.trans harea'
          cases hd.symm.trans hd'
          exact ⟨hrank, hfalse⟩
        · rintro ⟨hrank, hfalse⟩
          exact ⟨hchanged, hrank, hnull, area, d, harea, hd, hfalse⟩
      have hsome : t.target.ospfType.isSome := by rw [htarget]; rfl
      rw [holds_ite, ← Bool.not_eq_true, ← hcross, holds_isType ht.target ht.lists htarget .OIA, hcopied]
      exact ⟨fun h => ⟨fun _ => h.1, fun hs hc => h.2 hc hs⟩, fun h => ⟨h.1 hsome, fun hc hs => h.2 hs hc⟩⟩
    next hnull hother =>
      cases h
      refine hstays fun hs hc => ?_
      obtain ⟨-, -, -, area, -, harea, -⟩ := hc
      obtain ⟨x, hx⟩ := isSome_iff_exists.1 hs
      obtain ⟨type, htype⟩ := isSome_iff_exists.1 (hkeeps.hasType (ht.area hs (by rw [harea]; rfl)))
      exact hother type area x htype (hkeeps.area.trans harea) hx

theorem holds_areaOf (hkeeps : t.source.Keeps route) {area : Term .bool} (h : t.areaOf route = .ok area) :
    area.eval v ↔ (t.edge.start.ospfArea ≠ .null → ∀ x, t.target.ospfArea = some x →
      t.source.ospfArea.isSome → ∃ d, x.isDocument t.edge.start.ospfArea = .ok d ∧ d.eval v) := by
  unfold areaOf at h
  rw [hkeeps.area] at h
  split at h
  next hnull =>
    cases h
    exact ⟨fun _ hne => absurd hnull hne, fun _ => rfl⟩
  next source x hsource htarget hnull =>
    simp [htarget, hsource, exists_ok_iff h, show t.edge.start.ospfArea ≠ .null from hnull]
  next hnull hother =>
    cases h
    refine ⟨fun _ _ x hx hs => ?_, fun _ => rfl⟩
    obtain ⟨source, hsource⟩ := isSome_iff_exists.1 hs
    exact (hother source x hsource hx).elim

theorem holds_historyOf (hkeeps : t.source.Keeps route) :
    (t.historyOf route).eval v ↔
      ∀ x y, t.target.history = some x → t.source.history = some y → (x.equal y).eval v := by
  unfold historyOf
  rw [hkeeps.history]
  split
  next x y hx hy =>
    refine ⟨fun h x' y' hx' hy' => ?_, fun h => h x y hx hy⟩
    cases hx.symm.trans hx'
    cases hy.symm.trans hy'
    exact h
  next hother => exact ⟨fun _ x y hx hy => (hother x y hx hy).elim, fun _ => rfl⟩

theorem holds_communitiesOf :
    (∀ c ∈ t.communitiesOf route, c.eval v) ↔
      (t.sendsCommunity → ∀ e ∈ t.target.communities, e.1.kind ≠ .regex →
        e.2.eval v = ((route.under v).carries e.1).getD false) ∧
      (t.sendsCommunity = false → ∀ e ∈ t.target.communities, e.2.eval v = false) := by
  have hcarries : ∀ c, ((route.community? c).getD .no).eval v = ((route.under v).carries c).getD false := by
    intro c
    show _ = ((route.community? c).map _).getD false
    cases route.community? c <;> rfl
  unfold communitiesOf
  simp only [List.mem_filterMap]
  cases t.sendsCommunity with
  | true =>
    simp only [if_true, Bool.true_eq_false, false_implies, and_true, true_implies]
    constructor
    · intro h e he hkind
      have := h (.eq e.2 ((route.community? e.1).getD .no)) ⟨e, he, if_neg (by simpa using hkind)⟩
      rw [eval_eq] at this
      exact this.trans (hcarries e.1)
    · rintro h c ⟨e, he, hc⟩
      split at hc
      · cases hc
      · next hkind =>
        cases hc
        rw [eval_eq]
        exact (h e he (by simpa using hkind)).trans (hcarries e.1).symm
  | false =>
    simp only [Bool.false_eq_true, if_false, false_implies, true_and, true_implies, Option.some.injEq]
    constructor
    · intro h e he
      exact (holds_not v).1 (h _ ⟨e, he, rfl⟩)
    · rintro h c ⟨e, he, rfl⟩
      exact (holds_not v).2 (h e he)

theorem holds_samePermission {x : Record} {c : Term .bool} (h : samePermission x y = .ok c) :
    c.eval v ↔ x.permits.eval v = y.permits.eval v := by
  unfold samePermission at h
  split at h
  next a b ha hb =>
    cases h
    rw [eval_eq, Record.permits, Record.permits, ha, hb]
    rfl
  next => cases h

theorem holds_noOverflow {metric : Term .int} :
    (t.noOverflow metric).eval v ↔ t.Fits (metric.eval v) := by
  unfold noOverflow Fits
  cases t.toProtocol.maxMetric? with
  | none => exact ⟨nofun, fun _ => rfl⟩
  | some limit =>
    exact (holds_le v).trans ⟨fun h _ hl => Option.some.inj hl ▸ h, fun h => h limit rfl⟩

theorem holds_marked {x : Option (Term .bool)} {value : Bool} :
    (match x with
      | none => Term.yes
      | some internal => .eq internal (.boolLit value)).eval v ↔ ∀ b, x = some b → b.eval v = value := by
  cases x with
  | none => exact ⟨nofun, fun _ => rfl⟩
  | some b => exact (eval_eq v b _).trans ⟨fun h _ hb => Option.some.inj hb ▸ h, fun h => h b rfl⟩

/-- **The relation between the target and the final route, in values.** -/
theorem holds_relate (ht : t.ReadsTypes) (hkeeps : t.source.Keeps route) {related : Term .bool}
    (h : t.relate route r = .ok related) :
    ∃ cost, t.addedCost.integer = .ok cost ∧ (related.eval v ↔
      (t.Fits (t.sentMetric v cost (route.under v)) → t.Conveys v r.changed cost (route.under v)) ∧
      (¬ t.Fits (t.sentMetric v cost (route.under v)) → t.target.permits.eval v = false)) := by
  obtain ⟨cost, hcost, h⟩ := bind_eq_ok.1 h
  obtain ⟨permission, hpermission, h⟩ := bind_eq_ok.1 h
  obtain ⟨area, harea, h⟩ := bind_eq_ok.1 h
  obtain ⟨type, htype, h⟩ := bind_eq_ok.1 h
  cases h
  refine ⟨cost, hcost, ?_⟩
  have hmetric : (Term.add (t.intOrDefault route .metric) (.intLit cost)).eval v =
      t.sentMetric v cost (route.under v) := by
    rw [eval_add, eval_intOrDefault]
    rfl
  have hlocal : (if r.isChanged IntAttribute.localPref.key || t.isInternal then t.intOrDefault route .localPref
      else .intLit defaultLocalPref).eval v = t.sentNumber v r.changed cost (route.under v) .localPref := by
    show _ = if r.isChanged IntAttribute.localPref.key || t.isInternal then _ else _
    split
    · exact t.eval_intOrDefault v route .localPref
    · rfl
  have hpermits : permission.eval v ↔ t.target.permits.eval v = t.source.permits.eval v := by
    rw [holds_samePermission hpermission]
    unfold Record.permits
    rw [hkeeps.permitted]
  rw [holds_ite, ← Bool.not_eq_true, holds_noOverflow, hmetric, holds_not]
  refine and_congr (imp_congr_right fun _ => ?_) Iff.rfl
  rw [holds_allOf, List.forall_mem_append]
  simp only [List.forall_mem_cons, List.not_mem_nil, false_implies, implies_true, and_true]
  rw [hpermits, holds_sameInt, holds_sameInt, holds_sameInt, holds_sameInt, holds_sameInt, holds_sameInt, hlocal,
    hmetric, holds_typeOf ht hkeeps htype, holds_areaOf hkeeps harea, holds_historyOf hkeeps, holds_communitiesOf,
    eval_intOrDefault, eval_intOrDefault, eval_intOrDefault, eval_intOrDefault]
  constructor
  · rintro ⟨⟨hp, hlength, hdist, hmed, hpref, hmet, hid, ⟨hcross, hstay⟩, ha, hh, hi⟩, hsent, hwithheld⟩
    exact ⟨hp, IntAttribute.forall_iff.2 ⟨hlength, hdist, hpref, hmet, hmed, hid⟩, hcross, hstay, ha, hh,
      holds_marked.1 hi, hsent, hwithheld⟩
  · intro hc
    exact ⟨⟨hc.permits, hc.number .prefixLength, hc.number .adminDist, hc.number .med, hc.number .localPref,
      hc.number .metric, hc.number .routerId, ⟨hc.crossing, hc.type⟩, hc.area, hc.history,
      holds_marked.2 hc.internal⟩, hc.sent, hc.withheld⟩

/-! ## §3. Transfers in values -/

/-- What happens at the target after a policy: an accepted route arrives if its metric fits, and nothing else
does. -/
structure Delivers (t : Transfer) (v : Valuation) (x : Ground.Result × Ground.Param) (cost : Int) : Prop where
  conveys : x.1.value → t.Fits (t.sentMetric v cost x.2.route) → t.Conveys v x.1.changed cost x.2.route
  overflows : x.1.value → ¬ t.Fits (t.sentMetric v cost x.2.route) → t.target.permits.eval v = false
  rejects : x.1.value = false → t.target.permits.eval v = false

def Holds (t : Transfer) (policy : List Statement) (v : Valuation) : Prop :=
  ∃ x cost, t.groundBody policy v = .ok x ∧ t.addedCost.integer = .ok cost ∧ t.Delivers v x cost

/-- A transfer that can be written adds a number to the metric. -/
theorem integer_of_compute (h : (t.compute policy).runOn l = (.ok out, l')) :
    ∃ cost, t.addedCost.integer = .ok cost := by
  obtain ⟨route, l₁, -, h⟩ := runOn_bind_ok.1 h
  obtain ⟨x, l₂, -, h⟩ := runOn_bind_ok.1 h
  obtain ⟨related, l₃, hrelated, -⟩ := runOn_bind_ok.1 h
  obtain ⟨hrelate, -⟩ := runOn_lift_ok.1 hrelated
  obtain ⟨cost, hcost, -⟩ := bind_eq_ok.1 hrelate
  exact ⟨cost, hcost⟩

/-- **The term of a transfer says what the transfer says in values**, once its new variables have their
values. -/
theorem compute_holds (closed : Prop) (ht : t.ReadsTypes) (hrun : (t.compute policy).runOn l = (.ok out, l'))
    (hfit : t.source.Fit) (hd : closed → t.DestinationOver l.vars) (hs : closed → t.source.Over l.vars) :
    l.Grows l' ∧ (∀ v : Valuation, v.SatisfiesSince l l' → (out.eval v ↔ t.Holds policy v)) ∧
      (closed → ∀ c ∈ l.since l', c.Over l'.vars) ∧
      (closed → l'.Distinct → ∀ v : Valuation, ∃ w : Valuation, v.AgreesOn w l.vars ∧ w.SatisfiesSince l l') := by
  obtain ⟨r, after, related, rfl, hrelate, hkeeps, hem⟩ := t.compute_ok closed hrun hfit hd hs
  refine ⟨hem.grows, fun v hv => ?_, hem.about, hem.complete⟩
  have hground : t.groundBody policy v = .ok (r.under v, after.under v) := hem.sound v hv
  obtain ⟨cost, hcost, hrelated⟩ := holds_relate (v := v) ht hkeeps hrelate
  rw [holds_ite, hrelated, holds_not]
  constructor
  · rintro ⟨haccept, hreject⟩
    exact ⟨_, cost, hground, hcost, fun h => (haccept h).1, fun h => (haccept h).2, hreject⟩
  · rintro ⟨x, cost', hx, hcost', hdelivers⟩
    cases hground.symm.trans hx
    cases hcost.symm.trans hcost'
    exact ⟨fun h => ⟨hdelivers.conveys h, hdelivers.overflows h⟩, hdelivers.rejects⟩

/-! ## §4. Transfers of different slices -/

def TellsArea (t : Transfer) : Prop := t.target.ospfType.isSome ∨ t.target.ospfArea.isSome

/-- Two transfers run the same policies over the same kind of edge, and their routes have the same values. -/
structure Alike (v w : Valuation) (t u : Transfer) : Prop where
  source : t.source.SameValues v w u.source
  target : t.target.SameValues v w u.target
  router : t.router = u.router
  toProtocol : t.toProtocol = u.toProtocol
  fromProtocol : t.fromProtocol = u.fromProtocol
  isExport : t.isExport = u.isExport
  addedCost : t.addedCost.integer = u.addedCost.integer
  area : t.TellsArea → t.source.ospfArea.isSome → t.edge.start.ospfArea = u.edge.start.ospfArea
  isInternal : t.isInternal = u.isInternal
  sendsCommunity : t.sendsCommunity = u.sendsCommunity
  destination : t.frame.packet.dstIp.eval v = u.frame.packet.dstIp.eval w
  aggregates : t.isExport → t.aggregates = u.aggregates
  suppressed : t.isExport → t.suppressed = u.suppressed

namespace Alike

variable {v w : Valuation} {t u : Transfer} {changed : List Change} {cost : Int} {route : Route}

theorem tellsArea_iff (h : Alike v w t u) : t.TellsArea ↔ u.TellsArea := by
  have harea : t.target.ospfArea.isSome = u.target.ospfArea.isSome := by
    have hareas := congrArg (fun x : Record => x.ospfArea.isSome) h.target
    simpa [Record.frozen] using hareas
  unfold TellsArea
  rw [h.target.ospfType_isSome, harea]

theorem symm (h : Alike v w t u) : Alike w v u t where
  source := h.source.symm
  target := h.target.symm
  router := h.router.symm
  toProtocol := h.toProtocol.symm
  fromProtocol := h.fromProtocol.symm
  isExport := h.isExport.symm
  addedCost := h.addedCost.symm
  area htells hs := by
    obtain ⟨a, ha⟩ := isSome_iff_exists.1 hs
    obtain ⟨b, hb, -⟩ := h.source.symm.ospfArea ha
    exact (h.area (h.tellsArea_iff.2 htells) (by rw [hb]; rfl)).symm
  isInternal := h.isInternal.symm
  sendsCommunity := h.sendsCommunity.symm
  destination := h.destination.symm
  aggregates he := (h.aggregates (h.isExport.trans he)).symm
  suppressed he := (h.suppressed (h.isExport.trans he)).symm

variable (h : Alike v w t u)
include h

theorem setting : t.setting v = u.setting w := by
  have hdefault : t.defaultOf = u.defaultOf := by
    unfold defaultOf
    rw [h.fromProtocol, h.isInternal]
  unfold Transfer.setting
  rw [h.router, h.destination, h.fromProtocol, hdefault]

theorem groundBody (policy : List Statement) : t.groundBody policy v = u.groundBody policy w := by
  have hsuppressing : ∀ r, t.suppressing v r = u.suppressing w r := by
    intro r
    unfold suppressing
    cases he : t.isExport with
    | false => rw [← h.isExport, he, Bool.not_false, Bool.true_or, Bool.true_or, if_pos rfl, if_pos rfl]
    | true => rw [← h.isExport, he, h.aggregates he, h.suppressed he, h.setting]
  have hentering : t.entering v = u.entering w := by
    unfold entering resetsLocalPref
    rw [h.source.under, hsuppressing, h.isExport, h.toProtocol, h.isInternal]
  have hdepth : t.callDepth = u.callDepth := by
    unfold callDepth
    rw [h.router]
  unfold Transfer.groundBody
  rw [h.setting, hentering, hdepth]

theorem sentMetric : t.sentMetric v cost route = u.sentMetric w cost route := by
  unfold Transfer.sentMetric
  rw [h.setting]

theorem fits (n : Int) : t.Fits n ↔ u.Fits n := by
  unfold Fits
  rw [h.toProtocol]

theorem leavesArea (htells : t.TellsArea) (hl : t.LeavesArea v) : u.LeavesArea w := by
  obtain ⟨hnull, area, d, harea, hd, hfalse⟩ := hl
  have hsame := h.area htells (by rw [harea]; rfl)
  obtain ⟨area', harea', hvalues⟩ := h.source.ospfArea harea
  obtain ⟨d', hd', heval⟩ := Enumeration.isDocument_of_frozen hvalues hd
  exact ⟨hsame ▸ hnull, area', d', harea', hsame ▸ hd', heval.trans hfalse⟩

theorem crosses (htells : t.TellsArea) : t.Crosses v changed route ↔ u.Crosses w changed route :=
  and_congr_right fun _ => and_congr_right fun _ =>
    ⟨h.leavesArea htells, h.symm.leavesArea (h.tellsArea_iff.1 htells)⟩

theorem conveys (hc : t.Conveys v changed cost route) : u.Conveys w changed cost route where
  permits := by rw [← h.target.permits, hc.permits, h.source.permits]
  number a n hn := by
    have hsent : t.sentNumber v changed cost route a = u.sentNumber w changed cost route a := by
      unfold sentNumber
      rw [h.sentMetric, h.isInternal, h.setting]
    rw [← hsent]
    exact hc.number a n (by rw [h.target.under]; exact hn)
  crossing hs hcross := by
    have hs := h.target.ospfType_isSome.trans hs
    rw [← h.target.under]
    exact hc.crossing hs ((h.crosses (.inl hs)).2 hcross)
  type hs hcross := by
    have hs := h.target.ospfType_isSome.trans hs
    rw [← h.target.under]
    exact hc.type hs fun hc => hcross ((h.crosses (.inl hs)).1 hc)
  area hnull x hx hs := by
    obtain ⟨a, ha⟩ := isSome_iff_exists.1 hs
    obtain ⟨b, hb, -⟩ := h.source.symm.ospfArea ha
    have hsource : t.source.ospfArea.isSome := by rw [hb]; rfl
    obtain ⟨y, hy, hvalues⟩ := h.target.symm.ospfArea hx
    have hsame := h.area (.inr (by rw [hy]; rfl)) hsource
    obtain ⟨d, hd, hdv⟩ := hc.area (hsame ▸ hnull) y hy hsource
    obtain ⟨d', hd', heval⟩ := Enumeration.isDocument_of_frozen hvalues.symm hd
    exact ⟨d', hsame ▸ hd', heval.trans hdv⟩
  history x y hx hy := by
    obtain ⟨x', hx', hxx⟩ := h.target.symm.history hx
    obtain ⟨y', hy', hyy⟩ := h.source.symm.history hy
    rw [← x.eval_equal_frozen w w y, hxx, hyy, x'.eval_equal_frozen v w y']
    exact hc.history x' y' hx' hy'
  internal b hb := by
    obtain ⟨c, hc', hbc⟩ := h.target.symm.bgpInternal hb
    rw [hbc, hc.internal c hc', h.isInternal]
  sent hs e he hkind := by
    obtain ⟨f, hf, hfe, hvalue⟩ := h.target.symm.community he
    rw [hvalue, hc.sent (h.sendsCommunity.trans hs) f hf (hfe ▸ hkind), hfe]
  withheld hs e he := by
    obtain ⟨f, hf, -, hvalue⟩ := h.target.symm.community he
    rw [hvalue, hc.withheld (h.sendsCommunity.trans hs) f hf]

theorem delivers {x : Ground.Result × Ground.Param} (hd : t.Delivers v x cost) : u.Delivers w x cost where
  conveys haccept hfits := h.conveys (hd.conveys haccept ((h.fits _).2 (h.sentMetric ▸ hfits)))
  overflows haccept hfits := by
    rw [← h.target.permits]
    exact hd.overflows haccept fun hf => hfits (h.sentMetric ▸ (h.fits _).1 hf)
  rejects hreject := by
    rw [← h.target.permits]
    exact hd.rejects hreject

theorem holds (hh : t.Holds policy v) : u.Holds policy w := by
  obtain ⟨x, cost, hx, hcost, hd⟩ := hh
  exact ⟨x, cost, h.groundBody policy ▸ hx, h.addedCost ▸ hcost, h.delivers hd⟩

/-- **What a transfer says is told by the values of its routes.** -/
theorem holds_iff (policy : List Statement) : t.Holds policy v ↔ u.Holds policy w := ⟨h.holds, h.symm.holds⟩

end Alike

end Transfer

end ControlPlane
