import ControlPlane.Proofs.Transfer.Ground
import ControlPlane.Proofs.Transfer.Matching

/-!
# The variables of an interpretation

Interpreting a policy adds equations to the ledger, each of which defines a new variable.  This module has
the single definitions and the modifications that consist of one.
-/
namespace ControlPlane

open List Term

open Policy (Setting Scope)

variable {p : Param} {closed : Prop} {r : Result}

/-! ## §1. One new variable -/

def Ledger.define (l : Ledger) (x : Variable) (c : Term .bool) : Ledger :=
  { declared := l.declared.push x, constraints := l.constraints.push c, lastId := l.lastId + 1 }

theorem Emission.define {ty : Ty} {value y : Term ty} (x : Variable) {l : Ledger} (hy : y.Over [x])
    (hvalue : closed → value.Over l.vars)
    (hset : closed → ∀ v : Valuation, x.name ∉ l.vars.map Variable.name → ∃ w : Valuation, v.AgreesOn w l.vars ∧
      y.eval w = value.eval v) :
    Emission closed (fun v => .ok (value.eval v)) l (l.define x (.eq y value)) y := by
  have hvars : (l.define x (.eq y value)).vars = l.vars ++ [x] := Array.toList_push
  have hreq : (l.define x (.eq y value)).required = l.required ++ [.eq y value] := Array.toList_push
  have hgrows : l.Grows (l.define x (.eq y value)) := ⟨⟨[x], hvars.symm⟩, ⟨[.eq y value], hreq.symm⟩⟩
  have hsince : l.since (l.define x (.eq y value)) = [.eq y value] := by
    rw [Ledger.since, hreq, drop_left]
  have hx : [x] ⊆ (l.define x (.eq y value)).vars := by
    rw [hvars]
    exact subset_append_right _ _
  refine ⟨hgrows, trivial, ?_, fun _ => hy.mono hx, ?_, ?_⟩
  · intro v hv
    have heq := hv _ (by rw [hsince]; exact mem_singleton_self _)
    exact congrArg Except.ok ((eval_eq v y value).1 heq).symm
  · intro hq c hc
    rw [hsince, mem_singleton] at hc
    subst hc
    exact (hy.mono hx).eq ((hvalue hq).mono hgrows.vars.subset)
  · intro hq hd v
    have hname : x.name ∉ l.vars.map Variable.name := by
      unfold Ledger.Distinct at hd
      rw [hvars, map_append, nodup_append] at hd
      intro hmem
      exact hd.2.2 _ hmem _ (by simp) rfl
    obtain ⟨w, hvw, hw⟩ := hset hq v hname
    refine ⟨w, hvw, ?_⟩
    intro c hc
    rw [hsince, mem_singleton] at hc
    subst hc
    rw [eval_eq, hw]
    exact (hvalue hq).eval_eq v w hvw

namespace Transfer

variable {xs : List Variable} (t : Transfer)

def nextName (l : Ledger) (name : String) : String :=
  t.frame.name ++ "SSA_" ++ name ++ toString (l.lastId + 1)

theorem runOn_freshBits (name : String) (w : Nat) (value : Term .bits) (l : Ledger) :
    (t.freshBits name w value).runOn l = (.ok (.bitsVar (t.nextName l name) w),
      l.define ⟨t.nextName l name, .bits w⟩ (.eq (.bitsVar (t.nextName l name) w) value)) := rfl

theorem freshInt_emits (name : String) {value : Term .int} (h : closed → value.Over xs) :
    Emits closed xs (t.freshInt name value) fun v => .ok (value.eval v) := by
  intro l x l' hl hrun
  cases hrun
  refine Emission.define _ (within_intVar.2 (mem_singleton_self _)) (fun hq => (h hq).mono (hl hq)) ?_
  intro _ v hname
  exact ⟨v.setInt _ (value.eval v), v.setInt_agreesOn _ hname, if_pos rfl⟩

theorem freshBool_emits (name : String) {value : Term .bool} (h : closed → value.Over xs) :
    Emits closed xs (t.freshBool name value) fun v => .ok (value.eval v) := by
  intro l x l' hl hrun
  cases hrun
  refine Emission.define _ (within_boolVar.2 (mem_singleton_self _)) (fun hq => (h hq).mono (hl hq)) ?_
  intro _ v hname
  exact ⟨v.setBool _ (value.eval v), v.setBool_agreesOn _ hname, if_pos rfl⟩

theorem freshBits_emits (name : String) (w : Nat) {value : Term .bits} (h : closed → value.Over xs)
    (hlt : closed → ∀ v, value.eval v < 2 ^ w) :
    Emits closed xs (t.freshBits name w value) fun v => .ok (value.eval v) := by
  intro l x l' hl hrun
  obtain ⟨rfl, rfl⟩ := hrun
  refine Emission.define _ (within_bitsVar.2 (mem_singleton_self _)) (fun hq => (h hq).mono (hl hq)) ?_
  intro hq v hname
  refine ⟨v.setBits _ (value.eval v), v.setBits_agreesOn _ hname, ?_⟩
  rw [eval_bitsVar]
  show (if _ = _ then _ else _) % _ = _
  rw [if_pos rfl, Nat.mod_eq_of_lt (hlt hq v)]

theorem freshBits_lt (name : String) (w : Nat) (value : Term .bits) (l : Ledger) (x : Term .bits)
    (l' : Ledger) (h : (t.freshBits name w value).runOn l = (.ok x, l')) (v : Valuation) :
    x.eval v < 2 ^ w := by
  rw [runOn_freshBits, Prod.mk.injEq, Except.ok.injEq] at h
  rw [← h.1]
  exact Nat.mod_lt _ (Nat.two_pow_pos w)

/-! ## §2. The values of parameters and results -/

def Param.scope (p : Param) : Scope where
  callContext := p.callContext
  chainContext := p.chainContext
  defaultAccept := p.defaultAccept
  defaultAcceptLocal := p.defaultAcceptLocal
  defaultPolicy := p.defaultPolicy

def Param.under (v : Valuation) (p : Param) : Ground.Param := ⟨p.route.under v, p.scope, p.returned.eval v⟩

def Result.under (v : Valuation) (r : Result) : Ground.Result := ⟨r.value.eval v, r.assigned.eval v, r.changed⟩

def Progress.under (v : Valuation) (s : Progress) : Ground.Progress :=
  ⟨s.value.eval v, s.param.under v, s.changes.under v⟩

instance : Valued Param Ground.Param where
  Fit p := p.route.Fit
  Over xs p := p.route.Over xs ∧ p.returned.Over xs
  under := Param.under
  over_mono hs h := ⟨h.1.mono hs, h.2.mono hs⟩

instance : Valued Result Ground.Result where
  Fit _ := True
  Over xs r := r.value.Over xs ∧ r.assigned.Over xs
  under := Result.under
  over_mono hs h := ⟨h.1.mono hs, h.2.mono hs⟩

instance : Valued Progress Ground.Progress where
  Fit s := s.param.route.Fit
  Over xs s := s.value.Over xs ∧ s.param.route.Over xs ∧ s.param.returned.Over xs
  under := Progress.under
  over_mono hs h := ⟨h.1.mono hs, h.2.1.mono hs, h.2.2.mono hs⟩

/-! ## §3. Modifications -/

theorem eval_isReturned (v : Valuation) (p : Param) (r : Result) :
    (isReturned p r).eval v = Ground.isReturned (p.under v) (r.under v) := by
  unfold isReturned
  rw [eval_anyOf]
  simp only [any_cons, any_nil, Bool.or_false]
  rfl

/-- What the next step may rely on. -/
structure Ready (closed : Prop) (xs : List Variable) (p : Param) (r : Result) : Prop where
  fit : p.route.Fit
  destination : closed → t.DestinationOver xs
  param : closed → Valued.Over xs p
  result : closed → Valued.Over xs r

namespace Ready

variable {t} {ys : List Variable} (h : t.Ready closed xs p r)
include h

theorem mono (hs : xs ⊆ ys) : t.Ready closed ys p r :=
  ⟨h.fit, fun hq => (h.destination hq).mono hs, fun hq => Valued.over_mono hs (h.param hq), fun hq =>
    Valued.over_mono hs (h.result hq)⟩

/-- The step after one with result `x`. -/
theorem next (hs : xs ⊆ ys) {x : Result × Param} (hfit : Valued.Fit x) (hx : closed → Valued.Over ys x) :
    t.Ready closed ys x.2 x.1 :=
  ⟨hfit.2, (h.mono hs).destination, fun hq => (hx hq).2, fun hq => (hx hq).1⟩

/-- A step that does nothing. -/
theorem emits : Emits closed xs (pure (r, p)) fun v => .ok (r.under v, p.under v) :=
  Emits.pure ⟨trivial, h.fit⟩ (fun hq => ⟨h.result hq, h.param hq⟩) fun _ => rfl

theorem over_isReturned (hq : closed) : (isReturned p r).Over xs := by
  refine within_anyOf.2 ?_
  simp only [mem_cons, not_mem_nil, or_false, forall_eq_or_imp, forall_eq]
  exact ⟨(h.param hq).2, (h.result hq).2⟩

end Ready

theorem giveVerdict_emits (accept : Bool) (hr : closed → Valued.Over xs r) :
    Emits closed xs (t.giveVerdict r accept) fun v => .ok (Ground.giveVerdict (r.under v) accept) := by
  show Emits closed xs (t.freshBool "RETURN" (.ite r.assigned r.value (.boolLit accept)) >>= fun value =>
      pure { r with value, assigned := .yes })
    fun v => .ok _ >>= fun value => .ok { r.under v with value, assigned := true }
  refine Emits.bind ((t.freshBool_emits "RETURN" fun hq =>
    (hr hq).2.ite (hr hq).1 (within_boolLit accept)).congr fun v => ?_) ?_
  · rw [eval_ite]
    rfl
  · intro value ys _ _ hv
    exact Emits.pure trivial (fun hq => ⟨hv hq, within_yes⟩) fun v => rfl

theorem eval_intOrDefault (v : Valuation) (r : Record) (a : IntAttribute) :
    (t.intOrDefault r a).eval v = (t.setting v).numberOf (r.under v) a := by
  unfold intOrDefault Setting.numberOf Record.under
  cases h : r.int? a with
  | none => simp [h, setting]
  | some x => simp [h]

theorem over_intOrDefault {r : Record} (hr : r.Over xs) (a : IntAttribute) :
    (t.intOrDefault r a).Over xs := by
  unfold intOrDefault
  cases h : r.int? a with
  | none => exact within_intLit _
  | some x => exact hr.number a x h

variable {t} (h : t.Ready closed xs p r)
include h

theorem modifyInt_emits (a : IntAttribute) {new : Term .int} (hnew : closed → new.Over xs) :
    Emits closed xs (t.modifyInt p r a new) fun v =>
      .ok (Ground.setNumber (t.setting v) (p.under v) (r.under v) a (new.eval v)) := by
  show Emits closed xs (t.freshInt (attributeName a) (.ite (isReturned p r) (t.intOrDefault p.route a) new) >>=
      fun x => pure (r.addChange (.attribute a.key), p.setRoute (p.route.setInt a x)))
    fun v => .ok _ >>= fun n => .ok ((r.under v).addChange (.attribute a.key),
      { p.under v with route := (p.route.under v).setNumber a n })
  refine Emits.bind ((t.freshInt_emits (attributeName a) fun hq => (h.over_isReturned hq).ite
    (t.over_intOrDefault (h.param hq).1 a) (hnew hq)).congr fun v => ?_) ?_
  · rw [eval_ite, eval_isReturned, eval_intOrDefault]
    rfl
  · intro x ys hs _ hx
    have h := h.mono hs
    refine Emits.pure ⟨trivial, h.fit.setInt a x⟩ (fun hq => ⟨h.result hq, ?_⟩) fun v => ?_
    · exact ⟨(h.param hq).1.setInt a (hx hq), (h.param hq).2⟩
    · show Except.ok (_, ({ p.under v with route := _ } : Ground.Param)) = .ok (_, Param.under v _)
      simp only [Param.under, Param.setRoute, Record.under_setInt]
      rfl

theorem modifyCommunity_emits (c : Community) (attach : Bool) :
    Emits closed xs (t.modifyCommunity p r c attach) fun v =>
      .ok (Ground.attach (p.under v) (r.under v) c attach) := by
  unfold modifyCommunity
  cases hc : p.route.community? c with
  | none =>
    refine h.emits.congr fun v => ?_
    simp [Ground.attach, Param.under, Record.under, hc]
  | some old =>
    have hground : ∀ v, Ground.attach (p.under v) (r.under v) c attach =
        let b := if Ground.isReturned (p.under v) (r.under v) then old.eval v else attach
        ((r.under v).addChange (.community c), { p.under v with route := (p.route.under v).attach c b }) := by
      intro v
      simp [Ground.attach, Param.under, Record.under, hc]
    simp only [hground]
    show Emits closed xs (t.freshBool c.value (.ite (isReturned p r) old (.boolLit attach)) >>= fun x =>
        pure (r.addChange (.community c), p.setRoute (p.route.setCommunity c x)))
      fun v => .ok _ >>= fun b => .ok ((r.under v).addChange (.community c),
        { p.under v with route := (p.route.under v).attach c b })
    refine Emits.bind ((t.freshBool_emits c.value fun hq => (h.over_isReturned hq).ite
      ((h.param hq).1.community? hc) (within_boolLit attach)).congr fun v => ?_) ?_
    · rw [eval_ite, eval_isReturned]
      rfl
    · intro x ys hs _ hx
      have h := h.mono hs
      refine Emits.pure ⟨trivial, h.fit.setCommunity c x⟩ (fun hq => ⟨h.result hq,
        (h.param hq).1.setCommunity c (hx hq), (h.param hq).2⟩) fun v => ?_
      show Except.ok (_, ({ p.under v with route := _ } : Ground.Param)) = .ok (_, Param.under v _)
      simp only [Param.under, Param.setRoute, Record.under_setCommunity]
      rfl

theorem modifyCommunities_emits (attach : Bool) (cs : List Community) :
    Emits closed xs (t.modifyCommunities attach cs p r) fun v =>
      .ok (Ground.attachAll attach cs (p.under v) (r.under v)) := by
  induction cs generalizing p r xs with
  | nil => exact h.emits
  | cons c rest ih =>
    refine Emits.bind (modifyCommunity_emits h c attach) (F := fun v q =>
      .ok (rest.foldl (fun q c => Ground.attach q.2 q.1 c attach) q)) ?_
    rintro ⟨r', p'⟩ ys hs hf hover
    exact ih (h.next hs hf hover)

theorem modifyOspfType_emits (type : OspfType) :
    Emits closed xs (t.modifyOspfType p r type) fun v =>
      .ok (Ground.setType (p.under v) (r.under v) type) := by
  unfold modifyOspfType
  split
  next =>
    show Emits closed xs (t.freshBits ospfTypeName 2 (.ite (isReturned p r) (ospfBits p.route) type.literal) >>=
        fun x => pure (r.addChange (.attribute "ospf_type"), p.setRoute (setOspfBits p.route x)))
      fun v => .ok _ >>= fun k => .ok ((r.under v).addChange (.attribute "ospf_type"),
        { p.under v with route := { p.route.under v with ospfRank := k } })
    refine Emits.bindWith ((t.freshBits_emits ospfTypeName 2 (fun hq => (h.over_isReturned hq).ite
      (h.param hq).1.ospfBits type.over_literal) fun hq v => ?_).congr fun v => ?_)
      (t.freshBits_lt ospfTypeName 2 _) ?_
    · rw [eval_ite, OspfType.eval_literal]
      split
      · exact (h.param hq).1.ospfBits_lt v
      · exact type.rank_lt
    · rw [eval_ite, eval_isReturned, OspfType.eval_literal]
      rfl
    · intro x ys hs hlt _ hx
      have h := h.mono hs
      exact Emits.pure ⟨trivial, h.fit⟩ (fun hq => ⟨h.result hq, (h.param hq).1.setOspfBits (hx hq) hlt,
        (h.param hq).2⟩) fun v => rfl
  next => exact Emits.throw

end Transfer

end ControlPlane
