import ControlPlane.Proofs.Transfer.Definitions

/-!
# Joining branches

After a condition the two branches are joined: where they differ, a new variable takes the value of the
branch that the guard picks.  In values that is `Ground.joinRoutes` and `Ground.joinResults`.
-/
namespace ControlPlane

open List Term Build

variable {g : Bool} {e : Community × Term .bool} {a : IntAttribute} {joined yes no after : Record} {guard : Term .bool}
  {l l' : Ledger}

/-! ## §1. Values that are set to what they are -/

theorem Record.int?_setInt_of_ne (r : Record) {b : IntAttribute} (t : Term .int) (h : b ≠ a) :
    (r.setInt a t).int? b = r.int? b := by
  cases a <;> cases b <;> first | rfl | exact absurd rfl h

namespace Transfer

variable {closed : Prop} {xs : List Variable} (t : Transfer)

/-! ## §2. Numbers -/

structure JoinKeeps (a : IntAttribute) (before after : Record) : Prop where
  int? : ∀ b, b ≠ a → after.int? b = before.int? b
  communities : after.communities = before.communities
  ospfType : after.ospfType = before.ospfType

def joinedNumber (g : Bool) (yes no joined : Route) (a : IntAttribute) : Route :=
  match yes.number a, no.number a with
  | some x, some y => joined.setNumber a (if g then x else y)
  | _, _ => joined

theorem joinedNumber_of_some {yes no : Route} (j : Route) {x y : Int} (hx : yes.number a = some x)
    (hy : no.number a = some y) : joinedNumber g yes no j a = j.setNumber a (if g then x else y) := by
  unfold joinedNumber
  rw [hx, hy]

theorem joinedNumber_of_none {yes no : Route} (j : Route) (h : yes.number a = none ∨ no.number a = none) :
    joinedNumber g yes no j a = j := by
  unfold joinedNumber
  rcases h with h | h
  · rw [h]
  · rw [h]
    cases yes.number a <;> rfl

theorem joinInt_keeps (h : (t.joinInt guard yes no joined a).runOn l = (.ok after, l')) :
    JoinKeeps a joined after := by
  unfold joinInt at h
  split at h
  next x y _ _ =>
    split at h
    next =>
      obtain ⟨rfl, -⟩ := runOn_pure_ok.1 h
      exact ⟨fun _ _ => rfl, rfl, rfl⟩
    next =>
      obtain ⟨z, l₁, -, h⟩ := runOn_bind_ok.1 h
      obtain ⟨rfl, -⟩ := runOn_pure_ok.1 h
      exact ⟨fun b hb => joined.int?_setInt_of_ne z hb, joined.setInt_communities a z, by cases a <;> rfl⟩
  next =>
    obtain ⟨rfl, -⟩ := runOn_pure_ok.1 h
    exact ⟨fun _ _ => rfl, rfl, rfl⟩

/-- What the next step of a join may rely on. -/
structure Joinable (closed : Prop) (xs : List Variable) (guard : Term .bool) (yes no joined : Record) : Prop where
  fit : joined.Fit
  guard : closed → guard.Over xs
  yes : closed → yes.Over xs
  no : closed → no.Over xs
  joined : closed → joined.Over xs

theorem Joinable.next {ys : List Variable} (h : Joinable closed xs guard yes no joined) (hs : xs ⊆ ys)
    (hfit : after.Fit) (hafter : closed → after.Over ys) : Joinable closed ys guard yes no after :=
  ⟨hfit, fun hq => (h.guard hq).mono hs, fun hq => (h.yes hq).mono hs, fun hq => (h.no hq).mono hs, hafter⟩

variable (h : Joinable closed xs guard yes no joined)
include h

theorem joinInt_emits (ha : joined.int? a = yes.int? a) :
    Emits closed xs (t.joinInt guard yes no joined a) fun v =>
      .ok (joinedNumber (guard.eval v) (yes.under v) (no.under v) (joined.under v) a) := by
  unfold joinInt
  split
  next x y hx hy =>
    have hvalue : ∀ v, joinedNumber (guard.eval v) (yes.under v) (no.under v) (joined.under v) a =
        (joined.under v).setNumber a (if guard.eval v then x.eval v else y.eval v) :=
      fun v => joinedNumber_of_some _ (congrArg (Option.map _) hx) (congrArg (Option.map _) hy)
    simp only [hvalue]
    split
    next hsame =>
      refine Emits.pure h.fit h.joined fun v => ?_
      have hnum : (joined.under v).number a = some (y.eval v) := by
        rw [← eval_of_same v hsame]
        exact congrArg (Option.map _) (ha.trans hx)
      rw [eval_of_same v hsame, ite_self, Route.setNumber_self hnum]
      rfl
    next =>
      show Emits closed xs (t.freshInt (attributeName a) (.ite guard x y) >>= fun z =>
          pure (joined.setInt a z))
        fun v => .ok _ >>= fun n => .ok ((joined.under v).setNumber a n)
      refine Emits.bind ((t.freshInt_emits (attributeName a) fun hq => (h.guard hq).ite
        ((h.yes hq).number a x hx) ((h.no hq).number a y hy)).congr fun v => ?_) ?_
      · rw [eval_ite]
      · intro z ys hs _ hz
        exact Emits.pure (h.fit.setInt a z) (fun hq => ((h.joined hq).mono hs).setInt a (hz hq)) fun v =>
          congrArg Except.ok (joined.under_setInt v a z).symm
  next hnone =>
    refine Emits.pure h.fit h.joined fun v => ?_
    rw [joinedNumber_of_none]
    · rfl
    · cases hx : yes.int? a with
      | none => exact .inl (congrArg (Option.map _) hx)
      | some x =>
        cases hy : no.int? a with
        | none => exact .inr (congrArg (Option.map _) hy)
        | some y => exact absurd hy (hnone x y hx)

/-- Joining numbers one after another, each once, in a record that still has those of `yes`. -/
theorem joinInts_emits (as : List IntAttribute) (hnodup : as.Nodup) (ha : ∀ a ∈ as, joined.int? a = yes.int? a) :
    Emits closed xs (as.foldlM (t.joinInt guard yes no) joined) fun v =>
      .ok (as.foldl (joinedNumber (guard.eval v) (yes.under v) (no.under v)) (joined.under v)) := by
  induction as generalizing joined xs with
  | nil => exact Emits.pure h.fit h.joined fun v => rfl
  | cons a rest ih =>
    obtain ⟨hnot, hrest⟩ := nodup_cons.1 hnodup
    refine Emits.bindWith (t.joinInt_emits h (ha a mem_cons_self)) (fun _ _ _ => t.joinInt_keeps) (F := fun v j =>
      .ok (rest.foldl (joinedNumber (guard.eval v) (yes.under v) (no.under v)) j)) ?_
    intro after ys hs hkeeps hfit' hafter
    refine ih (h.next hs hfit' hafter) hrest fun b hb => ?_
    rw [hkeeps.int? b fun e => hnot (e ▸ hb), ha b (mem_cons_of_mem a hb)]

omit h

theorem joinedNumber_number (g : Bool) (yes no j : Route) (a b : IntAttribute) :
    (joinedNumber g yes no j a).number b = if b = a then
      match yes.number a, no.number a with
      | some x, some y => some (if g then x else y)
      | _, _ => j.number a
    else j.number b := by
  unfold joinedNumber
  by_cases hb : b = a
  · subst hb
    rw [if_pos rfl]
    split
    next => exact if_pos rfl
    next => rfl
  · rw [if_neg hb]
    split
    next => exact if_neg hb
    next => rfl

theorem joinedNumber_rest (g : Bool) (yes no j : Route) (a : IntAttribute) :
    (joinedNumber g yes no j a).origin = j.origin ∧ (joinedNumber g yes no j a).ospfRank = j.ospfRank ∧
      (joinedNumber g yes no j a).carries = j.carries := by
  unfold joinedNumber
  split <;> exact ⟨rfl, rfl, rfl⟩

theorem joinedNumbers_eq (g : Bool) (yes no : Route) :
    joinOrder.foldl (joinedNumber g yes no) yes = { yes with number := Ground.joinNumber g yes no } := by
  simp only [joinOrder, foldl_cons, foldl_nil]
  apply Route.ext
  · simp only [(joinedNumber_rest ..).1]
  · funext b
    simp only [joinedNumber_number, Ground.joinNumber]
    cases b <;> simp [joinOrder] <;> cases yes.number _ <;> cases no.number _ <;> rfl
  · simp only [(joinedNumber_rest ..).2.1]
  · simp only [(joinedNumber_rest ..).2.2]

/-! ## §3. OSPF types and communities -/

include h in
theorem joinOspfType_emits (ht : joined.ospfType = yes.ospfType) :
    Emits closed xs (t.joinOspfType guard yes no joined) fun v => .ok { joined.under v with
      ospfRank := if guard.eval v then (yes.under v).ospfRank else (no.under v).ospfRank } := by
  have hrank : ∀ v, (joined.under v).ospfRank = (yes.under v).ospfRank := by
    intro v
    show (ospfBits joined).eval v = (ospfBits yes).eval v
    unfold ospfBits
    rw [ht]
  -- where nothing is bound both branches have the same type
  have hkept : (∀ v, (yes.under v).ospfRank = (no.under v).ospfRank) →
      Emits closed xs (pure joined) fun v => .ok { joined.under v with
        ospfRank := if guard.eval v then (yes.under v).ospfRank else (no.under v).ospfRank } := by
    intro hsame
    refine Emits.pure h.fit h.joined fun v => ?_
    rw [← hsame, ite_self, ← hrank]
    rfl
  unfold joinOspfType
  split
  next hnone =>
    rw [Bool.and_eq_true, Option.isNone_iff_eq_none, Option.isNone_iff_eq_none] at hnone
    refine hkept fun v => ?_
    show (ospfBits yes).eval v = (ospfBits no).eval v
    unfold ospfBits
    rw [hnone.1, hnone.2]
  next =>
    dsimp only
    split
    next hsame => exact hkept fun v => eval_of_same v hsame
    next =>
      show Emits closed xs (t.freshBits ospfTypeName 2 (.ite guard (ospfBits yes) (ospfBits no)) >>= fun z =>
          pure (setOspfBits joined z))
        fun v => .ok _ >>= fun k => .ok { joined.under v with ospfRank := k }
      refine Emits.bindWith ((t.freshBits_emits ospfTypeName 2 (fun hq => (h.guard hq).ite (h.yes hq).ospfBits
        (h.no hq).ospfBits) fun hq v => ?_).congr fun v => ?_) (t.freshBits_lt ospfTypeName 2 _) ?_
      · rw [eval_ite]
        split
        · exact (h.yes hq).ospfBits_lt v
        · exact (h.no hq).ospfBits_lt v
      · rw [eval_ite]
        rfl
      · intro z ys hs hlt _ hz
        exact Emits.pure h.fit (fun hq => ((h.joined hq).mono hs).setOspfBits (hz hq) hlt) fun v => rfl

def joinedCommunities (g : Bool) (no : Route) (entries : List (Community × Bool)) (joined : Route) : Route :=
  entries.foldl (fun j e => j.attach e.1 (if g then e.2 else (no.carries e.1).getD e.2)) joined

include h in
theorem joinCommunity_emits (he : joined.community? e.1 = some e.2) :
    Emits closed xs (t.joinCommunity guard no joined e) fun v => .ok ((joined.under v).attach e.1
      (if guard.eval v then e.2.eval v else ((no.under v).carries e.1).getD (e.2.eval v))) := by
  obtain ⟨c, x⟩ := e
  have hother : ∀ v, ((no.under v).carries c).getD (x.eval v) = ((no.community? c).getD x).eval v := by
    intro v
    show ((no.community? c).map _).getD _ = _
    cases no.community? c <;> rfl
  have hover : closed → ((no.community? c).getD x).Over xs := by
    intro hq
    cases hc : no.community? c with
    | none => exact (h.joined hq).community? he
    | some y => exact (h.no hq).community? hc
  unfold joinCommunity
  simp only [hother]
  split
  next hsame =>
    refine Emits.pure h.fit h.joined fun v => ?_
    have hcarries : (joined.under v).carries c = some (((no.community? c).getD x).eval v) := by
      rw [← eval_of_same v hsame]
      exact congrArg (Option.map _) he
    rw [eval_of_same v hsame, ite_self, Route.attach_self hcarries]
    rfl
  next =>
    show Emits closed xs (t.freshBool c.value (.ite guard x ((no.community? c).getD x)) >>= fun z =>
        pure (joined.setCommunity c z))
      fun v => .ok _ >>= fun b => .ok ((joined.under v).attach c b)
    refine Emits.bind ((t.freshBool_emits c.value fun hq => (h.guard hq).ite ((h.joined hq).community? he)
      (hover hq)).congr fun v => ?_) ?_
    · rw [eval_ite]
    · intro z ys hs _ hz
      exact Emits.pure (h.fit.setCommunity c z) (fun hq => ((h.joined hq).mono hs).setCommunity c (hz hq)) fun v =>
        congrArg Except.ok (joined.under_setCommunity v c z).symm

theorem joinCommunity_keeps (h : (t.joinCommunity guard no joined e).runOn l = (.ok after, l')) (d : Community)
    (hd : d ≠ e.1) :
    after.community? d = joined.community? d := by
  unfold joinCommunity at h
  dsimp only at h
  split at h
  next =>
    obtain ⟨rfl, -⟩ := runOn_pure_ok.1 h
    rfl
  next =>
    obtain ⟨rfl, -⟩ := runOn_pure_ok.1 h
    exact (Record.lookup_set _).trans (if_neg hd)

include h in
theorem joinCommunities_emits (entries : List (Community × Term .bool)) (hnodup : (entries.map Prod.fst).Nodup)
    (he : ∀ e ∈ entries, joined.community? e.1 = some e.2) :
    Emits closed xs (entries.foldlM (t.joinCommunity guard no) joined) fun v =>
      .ok (joinedCommunities (guard.eval v) (no.under v) (entries.map fun e => (e.1, e.2.eval v))
        (joined.under v)) := by
  induction entries generalizing joined xs with
  | nil => exact Emits.pure h.fit h.joined fun v => rfl
  | cons e rest ih =>
    simp only [foldlM_cons, map_cons] at hnodup ⊢
    obtain ⟨hnot, hrest⟩ := nodup_cons.1 hnodup
    show Emits closed xs (t.joinCommunity guard no joined e >>= fun j =>
        rest.foldlM (t.joinCommunity guard no) j)
      fun v => .ok _ >>= fun j =>
        .ok (joinedCommunities (guard.eval v) (no.under v) (rest.map fun e => (e.1, e.2.eval v)) j)
    refine Emits.bindWith (t.joinCommunity_emits h (he e mem_cons_self)) (fun _ _ _ => t.joinCommunity_keeps) ?_
    intro after ys hs hkeeps hfit' hafter
    refine ih (h.next hs hfit' hafter) hrest fun f hf => ?_
    rw [hkeeps f.1 fun h => hnot (h ▸ mem_map_of_mem hf), he f (mem_cons_of_mem e hf)]

theorem joinedCommunities_carries (g : Bool) (no : Route) (entries : List (Community × Bool))
    (hnodup : (entries.map Prod.fst).Nodup) (j : Route) (c : Community) :
    (joinedCommunities g no entries j).carries c = (entries.lookup c).elim (j.carries c) fun x =>
      (j.carries c).map fun _ => if g then x else (no.carries c).getD x := by
  induction entries generalizing j with
  | nil => rfl
  | cons e rest ih =>
    obtain ⟨d, x⟩ := e
    rw [map_cons, nodup_cons] at hnodup
    show (joinedCommunities g no rest (j.attach d _)).carries c = _
    rw [ih hnodup.2, lookup_cons]
    by_cases hd : c = d
    · subst hd
      have hnone : rest.lookup c = none := by
        rw [lookup_eq_none_iff]
        intro p hp
        rw [bne_iff_ne]
        intro h
        exact hnodup.1 (mem_map.2 ⟨p, hp, h.symm⟩)
      rw [hnone, beq_self_eq_true]
      exact if_pos rfl
    · rw [beq_eq_false_iff_ne.2 hd]
      have hcarries : ∀ b, (j.attach d b).carries c = j.carries c := fun b => if_neg hd
      simp only [hcarries]

/-! ## §4. Routes and results -/

theorem joinInts_keeps {as : List IntAttribute}
    (h : (as.foldlM (t.joinInt guard yes no) joined).runOn l = (.ok after, l')) :
    after.communities = joined.communities ∧ after.ospfType = joined.ospfType := by
  induction as generalizing joined l with
  | nil =>
    obtain ⟨rfl, -⟩ := runOn_pure_ok.1 h
    exact ⟨rfl, rfl⟩
  | cons a rest ih =>
    obtain ⟨next, l₁, hnext, h⟩ := runOn_bind_ok.1 h
    have hkeeps := t.joinInt_keeps hnext
    rw [← hkeeps.communities, ← hkeeps.ospfType]
    exact ih h

theorem joinOspfType_keeps (h : (t.joinOspfType guard yes no joined).runOn l = (.ok after, l')) :
    after.communities = joined.communities := by
  unfold joinOspfType at h
  dsimp only at h
  split at h
  next =>
    obtain ⟨rfl, -⟩ := runOn_pure_ok.1 h
    rfl
  next =>
    split at h
    next =>
      obtain ⟨rfl, -⟩ := runOn_pure_ok.1 h
      rfl
    next =>
      obtain ⟨rfl, -⟩ := runOn_pure_ok.1 h
      rfl

theorem lookup_of_mem {entries : List (Community × Term .bool)} (hnodup : (entries.map Prod.fst).Nodup)
    (he : e ∈ entries) : entries.lookup e.1 = some e.2 := by
  induction entries with
  | nil => cases he
  | cons f rest ih =>
    rw [map_cons, nodup_cons] at hnodup
    rw [lookup_cons]
    rcases mem_cons.1 he with rfl | he
    · rw [beq_self_eq_true]
    · have hne : e.1 ≠ f.1 := fun h => hnodup.1 (mem_map.2 ⟨e, he, h⟩)
      rw [beq_eq_false_iff_ne.2 hne]
      exact ih hnodup.2 he

theorem lookup_values (v : Valuation) (entries : List (Community × Term .bool)) (c : Community) :
    (entries.map fun e => (e.1, e.2.eval v)).lookup c = (entries.lookup c).map fun x => x.eval v := by
  induction entries with
  | nil => rfl
  | cons e rest ih =>
    rw [map_cons, lookup_cons, lookup_cons, ih]
    cases c == e.1 <;> rfl

theorem joinedCommunities_rest (g : Bool) (no : Route) (entries : List (Community × Bool)) (j : Route) :
    (joinedCommunities g no entries j).origin = j.origin ∧
      (joinedCommunities g no entries j).number = j.number ∧
      (joinedCommunities g no entries j).ospfRank = j.ospfRank := by
  induction entries generalizing j with
  | nil => exact ⟨rfl, rfl, rfl⟩
  | cons e rest ih => exact ih (j.attach e.1 _)

/-- **The route after a branch is that of the branch that the guard picks.** -/
theorem joinRecords_emits (hfit : yes.Fit) (hg : closed → guard.Over xs) (hyes : closed → yes.Over xs)
    (hno : closed → no.Over xs) :
    Emits closed xs (t.joinRecords guard yes no) fun v =>
      .ok (Ground.joinRoutes (guard.eval v) (yes.under v) (no.under v)) := by
  have hjoined : ∀ v, Ground.joinRoutes (guard.eval v) (yes.under v) (no.under v) =
      joinedCommunities (guard.eval v) (no.under v) (yes.communities.map fun e => (e.1, e.2.eval v))
        { yes.under v with
          number := Ground.joinNumber (guard.eval v) (yes.under v) (no.under v)
          ospfRank := if guard.eval v then (yes.under v).ospfRank else (no.under v).ospfRank } := by
    intro v
    have hkeys : ((yes.communities.map fun e => (e.1, e.2.eval v)).map Prod.fst).Nodup := by
      rw [map_map]
      exact hfit
    apply Route.ext
    · rw [(joinedCommunities_rest ..).1]
      rfl
    · rw [(joinedCommunities_rest ..).2.1]
      rfl
    · rw [(joinedCommunities_rest ..).2.2]
      rfl
    · funext c
      rw [joinedCommunities_carries _ _ _ hkeys, lookup_values]
      show ((yes.under v).carries c).map _ = Option.elim _ ((yes.under v).carries c) fun x =>
        ((yes.under v).carries c).map _
      have hc : (yes.under v).carries c = (yes.communities.lookup c).map fun x => x.eval v := rfl
      rw [hc]
      cases yes.communities.lookup c <;> rfl
  simp only [hjoined]
  show Emits closed xs (joinOrder.foldlM (t.joinInt guard yes no) yes >>= fun joined =>
      t.joinOspfType guard yes no joined >>= fun joined =>
        yes.communities.foldlM (t.joinCommunity guard no) joined)
    fun v => .ok { yes.under v with number := Ground.joinNumber (guard.eval v) (yes.under v) (no.under v) } >>=
      fun j => .ok { j with
        ospfRank := if guard.eval v then (yes.under v).ospfRank else (no.under v).ospfRank } >>= fun j =>
          .ok (joinedCommunities (guard.eval v) (no.under v) (yes.communities.map fun e => (e.1, e.2.eval v)) j)
  have h : Joinable closed xs guard yes no yes := ⟨hfit, hg, hyes, hno, hyes⟩
  refine Emits.bindWith ((t.joinInts_emits h joinOrder (by decide) fun _ _ => rfl).congr fun v => by
    rw [joinedNumbers_eq]) (fun _ _ _ => t.joinInts_keeps) ?_
  rintro joined ys hs ⟨hcomm, htype⟩ hfit' hj
  have h := h.next hs hfit' hj
  refine Emits.bindWith (t.joinOspfType_emits h htype) (fun _ _ _ => t.joinOspfType_keeps) ?_
  intro typed zs hs' hcomm' hfit'' htyped
  refine t.joinCommunities_emits (h.next hs' hfit'' htyped) yes.communities hfit fun e he => ?_
  show typed.communities.lookup e.1 = some e.2
  rw [hcomm', hcomm]
  exact lookup_of_mem hfit he

theorem joinBool_emits (name : String) {yes no : Term .bool} (hg : closed → guard.Over xs) (hyes : closed → yes.Over xs)
    (hno : closed → no.Over xs) :
    Emits closed xs (t.joinBool name guard yes no) fun v =>
      .ok (if guard.eval v then yes.eval v else no.eval v) := by
  unfold joinBool
  split
  next hsame =>
    refine Emits.pure trivial hyes fun v => ?_
    rw [← eval_of_same v hsame, ite_self]
    rfl
  next =>
    refine (t.freshBool_emits name fun hq => (hg hq).ite (hyes hq) (hno hq)).congr fun v => ?_
    rw [eval_ite]

theorem joinResults_emits {before yes no : Result} (hg : closed → guard.Over xs) (hyes : closed → Valued.Over xs yes)
    (hno : closed → Valued.Over xs no) :
    Emits closed xs (t.joinResults guard before yes no) fun v =>
      .ok (Ground.joinResults (guard.eval v) (before.under v) (yes.under v) (no.under v)) := by
  show Emits closed xs (t.joinBool "RETURN" guard yes.value no.value >>= fun value =>
      t.joinBool "RETURN-ASSIGNED" guard yes.assigned no.assigned >>= fun assigned =>
        pure ((({ value, assigned, changed := before.changed : Result }).addChanges yes).addChanges no))
    fun v => .ok _ >>= fun value => .ok _ >>= fun assigned =>
      .ok ((({ value, assigned, changed := before.changed : Ground.Result }).addChanges (yes.under v)).addChanges
        (no.under v))
  refine Emits.bind (t.joinBool_emits "RETURN" hg (fun hq => (hyes hq).1) fun hq => (hno hq).1) ?_
  intro value ys hs _ hvalue
  refine Emits.bind (t.joinBool_emits "RETURN-ASSIGNED" (fun hq => (hg hq).mono hs)
    (fun hq => (hyes hq).2.mono hs) fun hq => (hno hq).2.mono hs) ?_
  intro assigned zs hs' _ hassigned
  exact Emits.pure trivial (fun hq => ⟨(hvalue hq).mono hs', hassigned hq⟩) fun v => rfl

end Transfer

end ControlPlane
