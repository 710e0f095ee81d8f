import ControlPlane.Proofs.Transfer.RouteInvariants

/-!
# What policies do to the communities of a route

A regular expression has a flag of its own beside those of the communities that decide about it.  Adding and deleting
communities changes the flags that a set names and no others: a set that is written out names exact communities, one
that is given by name its regular expressions.  So a regular expression follows what decides about it only as long as
the policy names none of them.
-/
namespace ControlPlane

open List

variable {c : Community} {b : Bool} {s : Policy.Setting}

/-! ## §1. Flags -/

theorem Route.carries_attachAll (r : Route) (cs : List Community) :
    (r.attachAll cs b).carries c = if c ∈ cs then (r.carries c).map fun _ => b else r.carries c := by
  induction cs generalizing r with
  | nil => rfl
  | cons d rest ih =>
    have hd : (r.attach d b).carries c = if c = d then (r.carries d).map fun _ => b else r.carries c := rfl
    refine (ih (r.attach d b)).trans ?_
    rw [hd]
    by_cases hc : c = d
    · subst hc
      by_cases hrest : c ∈ rest
      · simp [hrest, Function.comp_def]
      · simp [hrest]
    · simp only [mem_cons, hc, false_or, if_false]

theorem Ground.carries_attachAll (b : Bool) (cs : List Community) (p : Param) (r : Result) :
    (attachAll b cs p r).2.route.carries c =
      if c ∈ cs then (p.route.carries c).map fun old => if isReturned p r then old else b else p.route.carries c := by
  rw [(attachAll_eq b cs p r).1]
  cases isReturned p r with
  | true => simp
  | false => exact p.route.carries_attachAll cs

/-- The flag of a community is given by the flags of others: it is up if one of them is. -/
def Route.Follows (r : Route) (dependencies : List (Community × List Community)) : Prop :=
  ∀ e ∈ dependencies, ∀ b, r.carries e.1 = some b → b = (e.2.filterMap r.carries).any id

theorem Route.Follows.congr {r r' : Route} {dependencies : List (Community × List Community)}
    (h : r.Follows dependencies) (hsame : ∀ e ∈ dependencies, ∀ c ∈ e.1 :: e.2, r'.carries c = r.carries c) :
    r'.Follows dependencies := by
  intro e he b hb
  obtain ⟨hown, hothers⟩ := forall_mem_cons.1 (hsame e he)
  rw [filterMap_congr hothers]
  exact h e he b (hown ▸ hb)

/-! ## §2. Statements that leave a community alone -/

def PolicyNode.changed? : PolicyNode → Option CommunitySet
  | .statement (.addCommunity changed) | .statement (.deleteCommunity changed) => some changed
  | _ => none

/-- Neither a statement nor what stands in it adds or deletes a community. -/
def Statement.Leaves (r : Router) (c : Community) (x : Statement) : Prop :=
  ∀ node ∈ x.nodes, ∀ changed cs, node.changed? = some changed → Community.ofSet r changed = .ok cs → c ∉ cs

theorem Statement.Leaves.inside {r : Router} {guard : BoolExpr} {yes no : List Statement}
    (h : (Statement.cond guard yes no).Leaves r c) : (∀ x ∈ yes, x.Leaves r c) ∧ ∀ x ∈ no, x.Leaves r c :=
  ⟨fun _ hx node hnode => h node (mem_cons_of_mem _ (mem_append_left _ (mem_append_right _ (nodes_sub hx hnode)))),
    fun _ hx node hnode => h node (mem_cons_of_mem _ (mem_append_right _ (nodes_sub hx hnode)))⟩

theorem Statement.leaves_setLocalPref (r : Router) (c : Community) (e : IntExpr) : (setLocalPref e).Leaves r c := by
  intro node hnode changed cs hchanged
  obtain rfl := mem_singleton.1 hnode
  cases hchanged

/-- **A community that no statement adds or deletes stays as it is.** -/
theorem Ground.carries_invariant (s : Policy.Setting) (c : Community) (b : Option Bool) :
    RouteInvariant s (Statement.Leaves s.router c) fun route => route.carries c = b where
  inside _ _ _ h := h.inside
  join g yes no hyes hno := by
    show (yes.carries c).map _ = b
    rw [hyes, hno]
    cases b with
    | none => rfl
    | some b => exact congrArg some (ite_self b)
  setMetric _ _ _ _ _ hp := hp
  setLocalPref _ _ _ _ _ hp := hp
  lengthens _ _ _ _ _ _ _ _ hp := hp
  attaches changed cs d hkind hcs hd p r b' hp := by
    have hne : c ≠ d := by
      rintro rfl
      exact hkind.elim (fun h => h _ mem_cons_self changed cs rfl hcs hd)
        fun h => h _ mem_cons_self changed cs rfl hcs hd
    refine Eq.trans ?_ hp
    simpa [attachAll, hne] using carries_attachAll (c := c) b' [d] p r
  setsType _ _ _ hp := hp

/-! ## §3. Interpreted statements -/

def Statement.changing (b : Bool) (changed : CommunitySet) : Statement :=
  if b then .addCommunity changed else .deleteCommunity changed

theorem Community.kind_of_exactOf {d : Document} (h : exactOf d = .ok c) : c.kind = .exact := by
  unfold exactOf exactOfText at h
  split at h
  next =>
    split at h
    next =>
      split at h
      next =>
        obtain ⟨high, -, h⟩ := bind_eq_ok.1 h
        obtain ⟨low, -, h⟩ := bind_eq_ok.1 h
        cases h
        rfl
      next => cases h
    next => cases h
  next => cases h

theorem Community.kind_of_ofRegex {d : Document} (h : ofRegex d = .ok c) : c.kind = .regex := by
  unfold ofRegex at h
  split at h
  next =>
    cases h
    rfl
  next =>
    obtain ⟨shown, -, h⟩ := bind_eq_ok.1 h
    cases h
    rfl

theorem Community.kinds_of_ofSet {r : Router} {changed : CommunitySet} {cs : List Community}
    (h : ofSet r changed = .ok cs) :
    (∃ written, changed = .inline written ∧ ∀ c ∈ cs, c.kind = .exact) ∨
      ∃ name, changed = .named name ∧ ∀ c ∈ cs, c.kind = .regex := by
  cases changed with
  | inline written =>
    refine .inl ⟨written, rfl, fun c hc => ?_⟩
    obtain ⟨d, -, hd⟩ := exists_of_mem_mapM h hc
    exact kind_of_exactOf hd
  | named name =>
    refine .inr ⟨name, rfl, fun c hc => ?_⟩
    obtain ⟨list, -, hlines⟩ := bind_eq_ok.1 h
    obtain ⟨line, -, hline⟩ := exists_of_mem_mapM hlines hc
    exact kind_of_ofRegex hline
  | foreign _ _ => cases h

theorem Ground.statements_changing {call : Caller} {changed : CommunitySet} {cs : List Community}
    (p : Param) (r : Result)
    (hcs : Community.ofSet s.router changed = .ok cs) :
    statements s call [.changing b changed] p r = .ok (attachAll b cs p r) := by
  cases b with
  | true => exact bind_eq_ok.2 ⟨_, bind_eq_ok.2 ⟨cs, hcs, rfl⟩, rfl⟩
  | false => exact bind_eq_ok.2 ⟨_, bind_eq_ok.2 ⟨cs, hcs, rfl⟩, rfl⟩

namespace Transfer

variable {t : Transfer} {v : Valuation} {l l' : Ledger} {depth : Nat} {body : List Statement} {p p' : Param}
  {r r' : Result} {changed : CommunitySet} {cs : List Community}

/-- **A flag changes only where its community is named.**  Statements leave the flag of a community alone that neither
they nor a policy of the router adds or deletes, so regular expressions go on to follow what decides about them if none
of them is named.  A statement that does add or delete communities sets the flags of its own, which are exact ones or
regular expressions but not both. -/
theorem flags_followTheirNames (hrun : (t.statements (t.callPolicy depth) body p r).runOn l = (.ok (r', p'), l'))
    (hfit : p.route.Fit) (hv : v.SatisfiesSince l l') :
    (∀ c, (∀ x ∈ body, x.Leaves t.router c) → (∀ q ∈ t.router.policies, ∀ x ∈ q.statements, x.Leaves t.router c) →
      (p'.route.under v).carries c = (p.route.under v).carries c) ∧
    (∀ dependencies, (p.route.under v).Follows dependencies →
      (∀ e ∈ dependencies, ∀ c ∈ e.1 :: e.2, (∀ x ∈ body, x.Leaves t.router c) ∧
        ∀ q ∈ t.router.policies, ∀ x ∈ q.statements, x.Leaves t.router c) →
      (p'.route.under v).Follows dependencies) ∧
    ∀ b changed cs, body = [.changing b changed] → Community.ofSet t.router changed = .ok cs →
      (∀ c, (p'.route.under v).carries c = if c ∈ cs
        then ((p.route.under v).carries c).map fun old => if (isReturned p r).eval v then old else b
        else (p.route.under v).carries c) ∧
      ((∃ written, changed = .inline written ∧ ∀ c ∈ cs, c.kind = .exact) ∨
        ∃ name, changed = .named name ∧ ∀ c ∈ cs, c.kind = .regex) := by
  have hready : t.Ready False l.vars p r := ⟨hfit, nofun, nofun, nofun⟩
  have hground := (statements_emits (callPolicy_emits False t depth) body hready l _ l' nofun hrun).sound v hv
  have hkept : ∀ c, (∀ x ∈ body, x.Leaves t.router c) →
      (∀ q ∈ t.router.policies, ∀ x ∈ q.statements, x.Leaves t.router c) →
      (p'.route.under v).carries c = (p.route.under v).carries c := by
    intro c hbody hpolicies
    have hinv := Ground.carries_invariant (t.setting v) c ((p.route.under v).carries c)
    have hstart : Ground.Kept (Statement.Leaves t.router c) (·.carries c = (p.route.under v).carries c) (r.under v)
        (p.under v) := ⟨rfl, fun _ => ⟨.literal (.int 0), Statement.leaves_setLocalPref _ c _⟩⟩
    exact (hinv.statements (hinv.callPolicy hpolicies depth) body hbody hstart _ hground).route
  refine ⟨hkept, fun dependencies hfollows hleaves => hfollows.congr fun e he c hc => ?_, ?_⟩
  · obtain ⟨hbody, hpolicies⟩ := hleaves e he c hc
    exact hkept c hbody hpolicies
  · rintro b changed cs rfl hcs
    refine ⟨fun c => ?_, Community.kinds_of_ofSet hcs⟩
    have hafter := (Ground.statements_changing (p.under v) (r.under v) hcs).symm.trans hground
    have hroute : (Ground.attachAll b cs (p.under v) (r.under v)).2.route = p'.route.under v :=
      congrArg (·.2.route) (Except.ok.inj hafter)
    rw [← hroute, eval_isReturned]
    exact Ground.carries_attachAll b cs (p.under v) (r.under v)

def exactOne : Community := { kind := .exact, value := "65000:1", number := some 4259840001 }

def pattern : Community := { kind := .regex, value := "^65000:" }

/-- A route that carries a community, and the regular expression that matches it. -/
def tagged : Record where
  name := "SOURCE"
  protocol := .bgp
  communities := [(exactOne, .boolVar "one"), (pattern, .boolVar "some")]

def cleaning : Transfer where
  __ := sample
  router := { name := .text "R", communityLists := [⟨.text "CUSTOMERS", [⟨.accept, .text "^65000:"⟩]⟩] }

def cleared : Valuation where
  bool x := x = "one" || x = "some"
  int _ := 0
  bits _ := 0

theorem cleared_flags_followTheirNames : ∃ r' p',
    ((cleaning.statements (cleaning.callPolicy 0) [.deleteCommunity (.named (.text "CUSTOMERS"))] { route := tagged }
      {}).runOn {}).1 = .ok (r', p') ∧
    (tagged.under cleared).Follows [(pattern, [exactOne])] ∧ (p'.route.under cleared).carries pattern = some false ∧
    (p'.route.under cleared).carries exactOne = some true ∧
    ¬ (p'.route.under cleared).Follows [(pattern, [exactOne])] := by
  have hrun : ∃ x, ((cleaning.statements (cleaning.callPolicy 0) [.deleteCommunity (.named (.text "CUSTOMERS"))]
      { route := tagged } {}).runOn {}).1 = .ok x ∧
      ∀ c ∈ ({} : Ledger).since ((cleaning.statements (cleaning.callPolicy 0)
        [.deleteCommunity (.named (.text "CUSTOMERS"))] { route := tagged } {}).runOn {}).2, c.eval cleared := by
    decide +kernel
  obtain ⟨⟨r', p'⟩, hok, hv⟩ := hrun
  have hfit : (tagged.communities.map Prod.fst).Nodup := by decide
  obtain ⟨-, -, hchanging⟩ := flags_followTheirNames (t := cleaning) (Prod.ext hok rfl) hfit hv
  obtain ⟨hflags, -⟩ := hchanging false (.named (.text "CUSTOMERS")) [pattern] rfl rfl
  have hpattern : (p'.route.under cleared).carries pattern = some false := hflags pattern
  have hone : (p'.route.under cleared).carries exactOne = some true := hflags exactOne
  refine ⟨r', p', hok, ?_, hpattern, hone, fun hfollows => ?_⟩
  · intro e he b hb
    obtain rfl := mem_singleton.1 he
    exact (Option.some.inj hb).symm
  · have hfalse := hfollows _ mem_cons_self false hpattern
    simp [hone] at hfalse

end Transfer

end ControlPlane
