import ControlPlane.Proofs.Slice.Admission

/-!
# Branches that are always or never taken

A condition on a constant still has both of its branches interpreted.  A branch that is always taken hands on its
verdict and its route, but none of its settings; one that is never taken hands on nothing, but what it would change is
recorded, and the rules for local preferences and OSPF types ask for that.
-/
namespace ControlPlane

open Frame

open Transfer (Change)

variable {f : Frame} {t : Transfer} {v w : Valuation} {policy taken rest skipped : List Statement}
  {l l' l₁ l₂ m m' : Ledger} {out out' : Term .bool}

/-! ## §1. Runs -/

namespace Policy

variable {s : Setting} {call : Call} {r : Route}

theorem runAll_append (reading : Reading) (body : List Statement) (scope : Scope) :
    runAll reading s call (body ++ rest) scope r = runAll reading s call body scope r >>= fun after =>
      if after.verdict.isSome then .ok after else runAll reading s call rest after.scope after.route := by
  induction body generalizing scope r with
  | nil => rfl
  | cons x body ih =>
    rw [List.cons_append, runAll, runAll]
    cases run reading s call x scope r with
    | error cause => rfl
    | ok after =>
      rw [ok_bind, ok_bind]
      split
      next hverdict => exact (if_pos hverdict).symm
      next => exact ih after.scope

def LeavesSettings (s : Setting) (call : Call) (body : List Statement) (r : Route) : Prop :=
  ∀ after, runAll .threaded s call body {} r = .ok after → after.verdict = none → after.scope = {}

theorem runPolicy_taken (h : LeavesSettings s call taken r) :
    runPolicy .threaded s call (.cond (.const true) taken [] :: rest) {} r =
      runPolicy .threaded s call (taken ++ rest) {} r := by
  have hcond : run .threaded s call (.cond (.const true) taken []) {} r =
      runAll .threaded s call taken {} r >>= fun after => .ok { after with scope := {} } := by
    rfl
  unfold runPolicy
  rw [runAll_append, runAll, hcond]
  cases hran : runAll .threaded s call taken {} r with
  | error cause => rfl
  | ok after =>
    obtain ⟨verdict, scope, route⟩ := after
    cases verdict with
    | some b => rfl
    | none =>
      obtain rfl : scope = {} := h _ hran rfl
      rfl

theorem runPolicy_skipped (reading : Reading) (scope : Scope) :
    runPolicy reading s call (.cond (.const false) skipped [] :: policy) scope r =
      runPolicy reading s call policy scope r := by
  unfold runPolicy
  rw [runAll, run]
  cases reading.settingsLast <;> rfl

end Policy

/-! ## §2. A branch that is taken -/

namespace Transfer

def EndsWith (t : Transfer) (out : Term .bool) (r : Result) (after : Record) : Prop :=
  ∃ related, out = .ite r.value related (.not t.target.permits) ∧ t.relate after r = .ok related

/-- **A branch that is always taken can be written out**, if it leaves the settings as they are: the verdict and the
final record are the same for the same source. -/
theorem taken_isTransparent (hrun : (t.compute (.cond (.const true) taken [] :: rest)).runOn l = (.ok out, l'))
    (hrun' : (t.compute (taken ++ rest)).runOn m = (.ok out', m')) (hfit : t.source.Fit) :
    ∃ r after r' after', t.EndsWith out r after ∧ t.EndsWith out' r' after' ∧
      ∀ v w : Valuation, v.SatisfiesSince l l' → w.SatisfiesSince m m' → t.source.SameValues v w t.source →
        t.frame.packet.dstIp.eval v = t.frame.packet.dstIp.eval w →
        (t.entering v).Models r.changed → (t.entering v).Models r'.changed →
        Policy.LeavesSettings (t.setting v) (Policy.callNamed .threaded (t.setting v) t.callDepth) taken
          (t.entering v) →
        r.value.eval v = r'.value.eval w ∧ after.under v = after'.under w := by
  obtain ⟨r, after, related, hout, hrelate, -, hem⟩ := t.compute_ok False hrun hfit nofun nofun
  obtain ⟨r', after', related', hout', hrelate', -, hem'⟩ := t.compute_ok False hrun' hfit nofun nofun
  refine ⟨r, after.route, r', after'.route, ⟨related, hout, hrelate⟩, ⟨related', hout', hrelate'⟩, ?_⟩
  intro v w hv hw hsource hdestination hmodels hmodels' hsettings
  have hran := t.ran_of_groundBody (hem.sound v hv) hmodels
  have hran' := t.ran_of_groundBody ((groundBody_of_source hsource hdestination).trans (hem'.sound w hw)) hmodels'
  have htaken : t.ran .threaded (.cond (.const true) taken [] :: rest) v = t.ran .threaded (taken ++ rest) v :=
    Policy.runPolicy_taken hsettings
  exact Prod.mk.inj (Except.ok.inj (hran.symm.trans (htaken.trans hran')))

def raising : List Statement := [.setMetric (.literal (.int 7))]

/-- A route of metric 5, and new variables that say 7. -/
def raised : Valuation where
  bool _ := true
  int x := if x = "metric" then 5 else 7
  bits _ := 0

theorem raised_taken_isTransparent : ∃ out out' r after r' after',
    ((sample.compute (.cond (.const true) raising [] :: [.simple .exitAccept])).runOn {}).1 = .ok out ∧
    ((sample.compute (raising ++ [.simple .exitAccept])).runOn {}).1 = .ok out' ∧
    sample.EndsWith out r after ∧ sample.EndsWith out' r' after' ∧ (sample.entering raised).number .metric = some 5 ∧
    r.value.eval raised = r'.value.eval raised ∧ after.under raised = after'.under raised := by
  have hrun : ∃ out, ((sample.compute (.cond (.const true) raising [] :: [.simple .exitAccept])).runOn {}).1 = .ok out ∧
      ∀ c ∈ ({} : Ledger).since
        ((sample.compute (.cond (.const true) raising [] :: [.simple .exitAccept])).runOn {}).2, c.eval raised := by
    decide +kernel
  have hrun' : ∃ out, ((sample.compute (raising ++ [.simple .exitAccept])).runOn {}).1 = .ok out ∧
      ∀ c ∈ ({} : Ledger).since ((sample.compute (raising ++ [.simple .exitAccept])).runOn {}).2,
        c.eval raised := by
    decide +kernel
  obtain ⟨out, hout, hv⟩ := hrun
  obtain ⟨out', hout', hw⟩ := hrun'
  obtain ⟨r, after, r', after', hends, hends', h⟩ :=
    taken_isTransparent (t := sample) (Prod.ext hout rfl) (Prod.ext hout' rfl) List.nodup_nil
  have hmodels : ∀ changed, (sample.entering raised).Models changed := fun _ a _ => by cases a <;> rfl
  have hsame := h raised raised hv hw rfl rfl (hmodels _) (hmodels _) fun _ hran _ => by cases hran; rfl
  exact ⟨out, out', r, after, r', after', hout, hout', hends, hends', rfl, hsame⟩

/-! ## §3. A branch that is not taken -/

/-- What the rules for local preferences and OSPF types ask of the recorded changes. -/
def regards (t : Transfer) (changed : List Change) : Bool × Bool :=
  (changed.contains (.attribute IntAttribute.localPref.key) || t.isInternal, changed.contains (.attribute "ospf_type"))

theorem Conveys.congr {changed changed' : List Change} {cost : Int} {route : Route}
    (h : t.Conveys v changed cost route) (hsame : t.regards changed = t.regards changed') :
    t.Conveys v changed' cost route := by
  obtain ⟨hlocal, htype⟩ := Prod.mk.inj hsame
  have hnumber : t.sentNumber v changed cost route = t.sentNumber v changed' cost route := by
    funext a
    cases a with
    | localPref =>
      unfold sentNumber
      rw [hlocal]
    | _ => rfl
  have hcrosses : t.Crosses v changed route = t.Crosses v changed' route := by
    unfold Crosses
    rw [htype]
  exact { h with number := hnumber ▸ h.number, crossing := hcrosses ▸ h.crossing, type := hcrosses ▸ h.type }

theorem Holds.of_ran {policy' : List Statement} {x y : Ground.Result × Ground.Param} (h : t.Holds policy v)
    (hx : t.groundBody policy v = .ok x) (hy : t.groundBody policy' v = .ok y)
    (hran : t.ran .threaded policy v = t.ran .threaded policy' v) (hmx : (t.entering v).Models x.1.changed)
    (hmy : (t.entering v).Models y.1.changed) (hsame : t.regards x.1.changed = t.regards y.1.changed) :
    t.Holds policy' v := by
  obtain ⟨x', cost, hx', hcost, hdelivers⟩ := h
  cases hx.symm.trans hx'
  have hend := (t.ran_of_groundBody hx hmx).symm.trans (hran.trans (t.ran_of_groundBody hy hmy))
  obtain ⟨hvalue, hroute⟩ := Prod.mk.inj (Except.ok.inj hend)
  refine ⟨y, cost, hy, hcost, fun haccept hfits => ?_, fun haccept hfits => ?_, fun hreject => ?_⟩
  · rw [← hroute] at hfits ⊢
    exact (hdelivers.conveys (hvalue.trans haccept) hfits).congr hsame
  · rw [← hroute] at hfits
    exact hdelivers.overflows (hvalue.trans haccept) hfits
  · exact hdelivers.rejects (hvalue.trans hreject)

def Relates (l l' : Ledger) (out : Term .bool) (v : Valuation) : Prop :=
  ∃ w : Valuation, v.AgreesOn w l.vars ∧ w.SatisfiesSince l l' ∧ out.eval w

section

variable (hf : f.communities.Nodup) (hframe : t.frame = f) (hs : t.source ∈ f.records) (ht : t.target ∈ f.records)
  (hl : f.layoutVariables ⊆ l.vars) (hrun : (t.compute policy).runOn l = (.ok out, l')) (hd : l'.Distinct)
include hframe hs ht hl

theorem alike_of_agrees (hvw : v.AgreesOn w l.vars) : Alike v w t t := by
  have hlayout := hvw.mono hl
  refine alike_self (record_sameValues hs hlayout) (record_sameValues ht hlayout) ?_
  rw [hframe]
  exact (over_field .dstIp).eval_eq v w (hlayout.mono common_sub_layout)

include hf hrun hd

theorem exists_groundBody (v : Valuation) : ∃ x, t.groundBody policy v = .ok x := by
  obtain ⟨hdestination, hover⟩ := over_source hframe hs hl
  obtain ⟨r, after, -, -, -, -, hem⟩ := t.compute_ok True hrun ((isPlanned_of_mem hs).1.fit hf)
    (fun _ => hdestination) fun _ => hover
  obtain ⟨w, hvw, hw⟩ := hem.complete trivial hd v
  exact ⟨_, ((alike_of_agrees hframe hs ht hl hvw).groundBody policy).trans (hem.sound w hw)⟩

theorem relates_iff (v : Valuation) : Relates l l' out v ↔ t.Holds policy v := by
  have htells := compute_tells hf hframe hs ht hl hrun
  constructor
  · rintro ⟨w, hvw, hw, hout⟩
    exact (alike_of_agrees hframe hs ht hl hvw.symm).holds ((htells.reads w hw).1 hout)
  · intro hv
    obtain ⟨w, hvw, hw⟩ := htells.complete hd v
    exact ⟨w, hvw, hw, (htells.reads w hw).2 ((alike_of_agrees hframe hs ht hl hvw).holds hv)⟩

end

/-- **A branch that is never taken can be left out**, if the rules for local preferences and OSPF types do not notice
what it would change: with it and without it, a transfer relates the same routes. -/
theorem skipped_leavesNoTrace (hf : f.communities.Nodup) (hframe : t.frame = f) (hs : t.source ∈ f.records)
    (ht : t.target ∈ f.records) (hl : f.layoutVariables ⊆ l.vars)
    (hrun : (t.compute (.cond (.const false) skipped [] :: policy)).runOn l = (.ok out, l₁)) (hd : l₁.Distinct)
    (hrun' : (t.compute policy).runOn l = (.ok out', l₂)) (hd' : l₂.Distinct) (v : Valuation) :
    ∃ x y, t.groundBody (.cond (.const false) skipped [] :: policy) v = .ok x ∧ t.groundBody policy v = .ok y ∧
      ((t.entering v).Models x.1.changed → (t.entering v).Models y.1.changed →
        t.regards x.1.changed = t.regards y.1.changed → (Relates l l₁ out v ↔ Relates l l₂ out' v)) := by
  obtain ⟨x, hx⟩ := exists_groundBody hf hframe hs ht hl hrun hd v
  obtain ⟨y, hy⟩ := exists_groundBody hf hframe hs ht hl hrun' hd' v
  refine ⟨x, y, hx, hy, fun hmx hmy hsame => ?_⟩
  have hran : t.ran .threaded (.cond (.const false) skipped [] :: policy) v = t.ran .threaded policy v :=
    Policy.runPolicy_skipped _ _
  rw [relates_iff hf hframe hs ht hl hrun hd, relates_iff hf hframe hs ht hl hrun' hd']
  exact ⟨fun h => h.of_ran hx hy hran hmx hmy hsame, fun h => h.of_ran hy hx hran.symm hmy hmx hsame.symm⟩

def Interprets (t : Transfer) (l : Ledger) (policy : List Statement) (changed : List Change) : Prop :=
  (∃ out, ((t.compute policy).runOn l).1 = .ok out ∧ ((t.compute policy).runOn l).2.Distinct) ∧
    ∃ x, t.groundBody policy (announced 3) = .ok x ∧ x.1.changed = changed

instance (t : Transfer) (l : Ledger) (policy : List Statement) (changed : List Change) :
    Decidable (t.Interprets l policy changed) := inferInstanceAs (Decidable (_ ∧ _))

theorem raising_skipped_leavesNoTrace : ∃ (e : Encoding) (t : Transfer) (out out' : Term .bool) (l₁ l₂ : Ledger),
    (Encoding.encode peeredNetwork {}).result = .ok e ∧
    (t.compute (.cond (.const false) raising [] :: [.simple .exitAccept])).runOn e.ledger = (.ok out, l₁) ∧
    (t.compute [.simple .exitAccept]).runOn e.ledger = (.ok out', l₂) ∧
    (Relates e.ledger l₁ out (announced 3) ↔ Relates e.ledger l₂ out' (announced 3)) := by
  have hedge : ∃ e, (Encoding.encode peeredNetwork {}).result = .ok e ∧
      ∃ r, e.slice.topology.router (.text "A") = .ok r ∧ ∃ m ∈ e.slice.lanes, ∃ source ∈ e.slice.across? m .incoming,
        m.incoming.used ∧ (((e.slice.importTransfer r m source).entering (announced 3)).number .metric).isSome ∧
        (e.slice.importTransfer r m source).Interprets e.ledger
          (.cond (.const false) raising [] :: [.simple .exitAccept]) [.attribute IntAttribute.metric.key] ∧
        (e.slice.importTransfer r m source).Interprets e.ledger [.simple .exitAccept] [] := by
    decide +kernel
  obtain ⟨e, he, r, -, m, hm, source, hsource, hused, hmetric, ⟨⟨out, hout, hd⟩, x, hx, hchanged⟩,
    ⟨out', hout', hd'⟩, y, hy, hunchanged⟩ := hedge
  obtain ⟨f, rs, hof⟩ := Encoding.encode_isOf he
  have hmodels : ((e.slice.importTransfer r m source).entering (announced 3)).Models x.1.changed := by
    rw [hchanged]
    intro a ha
    have hkey := Change.attribute.inj (List.mem_singleton.1 ha)
    cases a <;> first | exact hmetric | exact absurd hkey (by decide)
  have htrace := skipped_leavesNoTrace (t := e.slice.importTransfer r m source) (f := f) (l := e.ledger)
    (Community.nodup_ofRouters hof.communities) (by rw [hof.slice]; rfl)
    (by rw [hof.slice] at hsource; exact mem_across hsource)
    (by rw [hof.slice] at hm; exact mem_incoming hm hused) hof.declares.subset
    (Prod.ext hout rfl) hd (Prod.ext hout' rfl) hd' (announced 3)
  obtain ⟨x', y', hx', hy', hrelates⟩ := htrace
  cases hx.symm.trans hx'
  cases hy.symm.trans hy'
  refine ⟨e, _, out, out', _, _, he, Prod.ext hout rfl, Prod.ext hout' rfl, hrelates hmodels ?_ ?_⟩
  · rw [hunchanged]
    exact nofun
  · rw [hchanged, hunchanged]
    rfl

end Transfer

end ControlPlane
