import ControlPlane.Proofs.Route.Denotation
import ControlPlane.Transfer.Interpretation

/-!
# The values of match conditions

The terms that a policy matches on, and what they say about the route that a record stands for.
-/
namespace ControlPlane

open List Term

open Policy (Setting)

/-! ## §1. Subnets and lengths -/

theorem Subnet.eval_holdsOf (v : Valuation) (s : Subnet) (x : Term .int) :
    (s.holdsOf x).eval v = Policy.inSubnet s (x.eval v) := by
  unfold holdsOf Policy.inSubnet
  split
  next h => rw [h]; rfl
  next h =>
    rw [Bool.eq_false_iff.2 h, eval_and]
    simp only [all_cons, all_nil, Bool.and_true]
    rfl

theorem Subnet.over_holdsOf {xs : List Variable} (s : Subnet) {x : Term .int} (h : x.Over xs) :
    (s.holdsOf x).Over xs := by
  unfold holdsOf
  split <;> simp [h]

/-- A term that is computed without new variables has the given values, and is over `xs` where the inputs
of the computation are. -/
def Reads (closed : Prop) (xs : List Variable) (e : Except Failure (Term .bool))
    (value : Valuation → Except Failure Bool) : Prop :=
  ∀ c, e = .ok c → (∀ v, value v = .ok (c.eval v)) ∧ (closed → c.Over xs)

variable {closed : Prop} {xs : List Variable}

theorem reads_isNumber {x : Term .int} (d : Document) (hx : closed → x.Over xs) :
    Reads closed xs (x.isNumber d) fun v => Policy.isNumber (x.eval v) d := by
  intro c h
  cases d with
  | null =>
    cases h
    exact ⟨fun v => rfl, fun _ => within_boolLit _⟩
  | _ =>
    obtain ⟨n, hn, hc⟩ := bind_eq_ok.1 h
    cases hc
    refine ⟨fun v => ?_, fun hq => (hx hq).eq (within_intLit n)⟩
    simp only [Policy.isNumber, hn, ok_bind]
    rfl

theorem reads_matchesPrefix {p : Packet} {length : Option (Term .int)} (s : Subnet) (lengths : Range)
    (hp : closed → p.dstIp.Over xs) (hx : closed → ∀ x, length = some x → x.Over xs) :
    Reads closed xs (p.matchesPrefix length s lengths) fun v => do
      return (← Policy.inRange lengths (length.map fun x => x.eval v)) &&
        Policy.inSubnet s (p.dstIp.eval v) := by
  intro c h
  unfold Packet.matchesPrefix at h
  have hs := fun hq => s.over_holdsOf (hp hq)
  cases length with
  | none =>
    simp only at h
    split at h
    next =>
      cases h
      refine ⟨fun v => rfl, fun hq => within_and.2 ?_⟩
      simp [hs hq]
    next => cases h
  | some x =>
    simp only at h
    split at h
    next hsingle =>
      obtain ⟨d, hd, hc⟩ := bind_eq_ok.1 h
      cases hc
      obtain ⟨hval, hover⟩ := reads_isNumber lengths.start (fun hq => hx hq x rfl) d hd
      refine ⟨fun v => ?_, fun hq => within_and.2 ?_⟩
      · simp only [Option.map_some, Policy.inRange, hsingle, if_true, hval v, ok_bind, eval_and,
          all_cons, all_nil, Bool.and_true, Subnet.eval_holdsOf]
        rfl
      · simp [hs hq, hover hq]
    next hsingle =>
      obtain ⟨m, hm, hc⟩ := bind_eq_ok.1 h
      obtain ⟨n, hn, hc⟩ := bind_eq_ok.1 hc
      cases hc
      refine ⟨fun v => ?_, fun hq => within_and.2 ?_⟩
      · simp only [Option.map_some, Policy.inRange, hsingle, hm, hn, ok_bind, eval_and,
          all_cons, all_nil, Bool.and_true, Subnet.eval_holdsOf, eval_ge, eval_le,
          eval_intLit, ← Bool.and_assoc]
        rfl
      · have hx := hx hq x rfl
        simp only [mem_cons, not_mem_nil, or_false, forall_eq_or_imp, forall_eq]
        exact ⟨hx.compare (within_intLit m), hx.compare (within_intLit n), hs hq⟩

/-! ## §2. Prefix sets -/

namespace Transfer

variable (t : Transfer)

/-- Where a transfer runs its policies, under a valuation. -/
def setting (v : Valuation) : Setting where
  router := t.router
  destination := t.frame.packet.dstIp.eval v
  protocol := t.fromProtocol
  default := t.defaultOf

def DestinationOver (xs : List Variable) : Prop := t.frame.packet.dstIp.Over xs

variable {t} {r : Record} (hd : closed → t.DestinationOver xs) (hr : closed → r.Over xs)
include hd hr

theorem reads_matchesPrefix (s : Subnet) (lengths : Range) :
    Reads closed xs (t.matchesPrefix r s lengths) fun v =>
      Policy.matchesPrefix (t.setting v) (r.under v) s lengths :=
  ControlPlane.reads_matchesPrefix s lengths hd fun hq x hx => (hr hq).number .prefixLength x hx

theorem reads_matchesFilterList (list : FilterList) :
    Reads closed xs (t.matchesFilterList r list) fun v =>
      Policy.matchesLines (t.setting v) (r.under v) list.lines := by
  intro c h
  unfold matchesFilterList at h
  generalize list.lines = lines at h ⊢
  induction lines generalizing c with
  | nil =>
    cases h
    exact ⟨fun v => rfl, fun _ => within_no⟩
  | cons line rest ih =>
    rw [foldrM_cons] at h
    obtain ⟨acc, hacc, h⟩ := bind_eq_ok.1 h
    obtain ⟨m, hm, h⟩ := bind_eq_ok.1 h
    cases h
    obtain ⟨hval, hover⟩ := reads_matchesPrefix hd hr line.subnet line.lengths m hm
    obtain ⟨ihval, ihover⟩ := ih acc hacc
    refine ⟨fun v => ?_, fun hq => (hover hq).ite (within_boolLit _) (ihover hq)⟩
    simp only [Policy.matchesLines, hval v, ihval v, ok_bind, eval_ite]
    cases m.eval v <;> rfl

theorem reads_anyPrefix (ranges : List PrefixRange) (cs : List (Term .bool))
    (h : ranges.mapM (fun p => t.matchesPrefix r p.subnet p.lengths) = .ok cs) :
    (∀ v, Policy.matchesSome (t.setting v) (r.under v) ranges = .ok (cs.any fun c => c.eval v)) ∧
      (closed → ∀ c ∈ cs, c.Over xs) := by
  induction ranges generalizing cs with
  | nil =>
    cases h
    exact ⟨fun v => rfl, nofun⟩
  | cons p rest ih =>
    rw [mapM_cons] at h
    obtain ⟨c, hc, h⟩ := bind_eq_ok.1 h
    obtain ⟨ds, hds, h⟩ := bind_eq_ok.1 h
    cases h
    obtain ⟨hval, hover⟩ := reads_matchesPrefix hd hr p.subnet p.lengths c hc
    obtain ⟨ihval, ihover⟩ := ih ds hds
    refine ⟨fun v => ?_, fun hq => forall_mem_cons.2 ⟨hover hq, ihover hq⟩⟩
    simp only [Policy.matchesSome, hval v, ihval v, ok_bind, any_cons]
    cases c.eval v <;> rfl

theorem reads_matchesPrefixSet (set : PrefixSet) :
    Reads closed xs (t.matchesPrefixSet r set) fun v =>
      Policy.matchesPrefixSet (t.setting v) (r.under v) set := by
  intro c h
  match set with
  | .explicit [] =>
    cases h
    exact ⟨fun v => rfl, fun _ => within_yes⟩
  | .explicit (p :: rest) =>
    obtain ⟨cs, hcs, h⟩ := bind_eq_ok.1 h
    cases h
    obtain ⟨hval, hover⟩ := reads_anyPrefix hd hr (p :: rest) cs hcs
    refine ⟨fun v => ?_, fun hq => within_anyOf.2 (hover hq)⟩
    rw [eval_anyOf]
    exact hval v
  | .named name =>
    obtain ⟨list, hlist, h⟩ := bind_eq_ok.1 h
    obtain ⟨hval, hover⟩ := reads_matchesFilterList hd hr list c h
    refine ⟨fun v => ?_, hover⟩
    show (t.router.filterList name >>= _) = _
    rw [hlist]
    exact hval v
  | .foreign _ cause => exact absurd h (by simp [matchesPrefixSet])

/-! ## §3. Communities and protocols -/

omit hd

theorem reads_communityOf {c : Community} {x : Term .bool} (h : communityOf r c = .ok x) :
    (∀ v, Policy.hasCommunity (r.under v) c = x.eval v) ∧ (closed → x.Over xs) := by
  unfold communityOf at h
  split at h
  next y hy =>
    cases h
    refine ⟨fun v => ?_, fun hq => (hr hq).community? hy⟩
    show ((r.community? c).map _).getD false = _
    rw [hy]
    rfl
  next => cases h

theorem reads_allCommunities (cs : List Community) (ts : List (Term .bool))
    (h : cs.mapM (communityOf r) = .ok ts) :
    (∀ v, cs.all (Policy.hasCommunity (r.under v)) = ts.all fun x => x.eval v) ∧
      (closed → ∀ x ∈ ts, x.Over xs) := by
  induction cs generalizing ts with
  | nil =>
    cases h
    exact ⟨fun v => rfl, nofun⟩
  | cons c rest ih =>
    rw [mapM_cons] at h
    obtain ⟨x, hx, h⟩ := bind_eq_ok.1 h
    obtain ⟨us, hus, h⟩ := bind_eq_ok.1 h
    cases h
    obtain ⟨hval, hover⟩ := reads_communityOf hr hx
    obtain ⟨ihval, ihover⟩ := ih us hus
    refine ⟨fun v => ?_, fun hq => forall_mem_cons.2 ⟨hover hq, ihover hq⟩⟩
    rw [all_cons, all_cons, hval v, ihval v]

theorem reads_communityLines (lines : List (CommunityLine × Community)) (c : Term .bool)
    (h : lines.foldrM (fun (line, d) acc => do
      return Term.ite (← communityOf r d) (.boolLit (line.action == Action.accept)) acc) Term.no = .ok c) :
    (∀ v, Policy.matchesCommunityLines (r.under v) lines = c.eval v) ∧ (closed → c.Over xs) := by
  induction lines generalizing c with
  | nil =>
    cases h
    exact ⟨fun v => rfl, fun _ => within_no⟩
  | cons line rest ih =>
    rw [foldrM_cons] at h
    obtain ⟨acc, hacc, h⟩ := bind_eq_ok.1 h
    obtain ⟨x, hx, h⟩ := bind_eq_ok.1 h
    cases h
    obtain ⟨hval, hover⟩ := reads_communityOf hr hx
    obtain ⟨ihval, ihover⟩ := ih acc hacc
    refine ⟨fun v => ?_, fun hq => (hover hq).ite (within_boolLit _) (ihover hq)⟩
    simp only [Policy.matchesCommunityLines, hval v, ihval v, eval_ite]
    rfl

theorem reads_matchesCommunitySet (set : CommunitySet) :
    Reads closed xs (t.matchesCommunitySet r set) fun v =>
      Policy.matchesCommunitySet (t.setting v) (r.under v) set := by
  intro c h
  cases set with
  | inline communities =>
    obtain ⟨cs, hcs, h⟩ := bind_eq_ok.1 h
    obtain ⟨ts, hts, h⟩ := bind_eq_ok.1 h
    cases h
    obtain ⟨hval, hover⟩ := reads_allCommunities hr cs ts hts
    refine ⟨fun v => ?_, fun hq => within_allOf.2 (hover hq)⟩
    show (Community.ofSet t.router _ >>= _) = _
    rw [hcs, eval_allOf, ← hval v]
    rfl
  | named name =>
    obtain ⟨list, hlist, h⟩ := bind_eq_ok.1 h
    obtain ⟨cs, hcs, h⟩ := bind_eq_ok.1 h
    obtain ⟨hval, hover⟩ := reads_communityLines hr _ c h
    refine ⟨fun v => ?_, hover⟩
    show (t.router.communityList name >>= fun list => Community.ofSet t.router _ >>= _) = _
    rw [hlist, hcs, ← hval v]
    rfl
  | foreign _ cause => exact absurd h (by simp [matchesCommunitySet])

omit hr in
theorem eval_matchesProtocol (v : Valuation) (p : Protocol) :
    (t.matchesProtocol r p).eval v = Policy.cameFrom (t.setting v) (r.under v) p := by
  unfold matchesProtocol Policy.cameFrom Record.under
  cases r.history with
  | none => rfl
  | some h => exact h.eval_isValue v p

theorem over_matchesProtocol (hq : closed) (p : Protocol) : (t.matchesProtocol r p).Over xs := by
  unfold matchesProtocol
  cases hh : r.history with
  | none => exact within_boolLit _
  | some h =>
    simp only [Enumeration.isValue]
    cases hb : h.bits with
    | none => exact within_boolLit _
    | some b =>
      simp only
      split
      next => exact within_no
      next =>
        split
        next => exact ((hr hq).history h b hh hb).eq (within_bitsLit _ _)
        next => exact within_no

end Transfer

end ControlPlane
