import ControlPlane.Plan
import ControlPlane.Proofs.Ledger.Run

/-!
# The decisions of a plan

`Plan.compute` decides router by router and protocol by protocol.  `Plan.compute_decides` says what was
decided for each, in the order of the topology, so that two plans can be compared decision by decision.
-/
namespace ControlPlane.Plan

open List

variable {name : Name} {plan : Plan} {r : Router} {d : RouterPlan} {p : Protocol}

/-! ## §1. Members side by side -/

section Forall₂

variable {α β γ : Type} {R : α → β → Prop}

section

variable {xs : List α} {ys : List β} (h : List.Forall₂ R xs ys) {q : β → Bool} {p : α → Bool}
include h

theorem forall₂_trans {S : β → γ → Prop} {zs : List γ} (h' : List.Forall₂ S ys zs) :
    List.Forall₂ (fun x z => ∃ y, R x y ∧ S y z) xs zs := by
  induction h generalizing zs with
  | nil => cases h'; exact .nil
  | @cons x y _ _ hxy _ ih =>
    cases h' with
    | cons hyz hrest => exact .cons ⟨y, hxy, hyz⟩ (ih hrest)

theorem forall₂_zip {S : α × β → γ → Prop} {zs : List γ} (h' : List.Forall₂ S (xs.zip ys) zs) :
    List.Forall₂ (fun x z => ∃ y, R x y ∧ S (x, y) z) xs zs := by
  induction h generalizing zs with
  | nil => cases h'; exact .nil
  | @cons x y _ _ hxy _ ih =>
    cases h' with
    | cons hyz hrest => exact .cons ⟨y, hxy, hyz⟩ (ih hrest)

theorem forall₂_find? {x : α} (hpq : ∀ x y, R x y → p x = q y) (hx : xs.find? p = some x) :
    ∃ y, ys.find? q = some y ∧ R x y := by
  induction h with
  | nil => cases hx
  | @cons a b _ _ hab _ ih =>
    cases ha : p a with
    | true =>
      rw [find?_cons_of_pos ha] at hx
      obtain rfl := Option.some.inj hx
      exact ⟨b, find?_cons_of_pos ((hpq a b hab).symm.trans ha), hab⟩
    | false =>
      rw [find?_cons_of_neg (Bool.eq_false_iff.1 ha)] at hx
      rw [find?_cons_of_neg (Bool.eq_false_iff.1 ((hpq a b hab).symm.trans ha))]
      exact ih hx

theorem forall₂_map_find? {g : α → γ} {k : β → γ} (hpq : ∀ x y, R x y → p x = q y)
    (hg : ∀ x y, R x y → g x = k y) : (xs.find? p).map g = (ys.find? q).map k := by
  induction h with
  | nil => rfl
  | @cons a b _ _ hab _ ih =>
    rw [find?_cons, find?_cons, hpq a b hab]
    split
    · exact congrArg some (hg a b hab)
    · exact ih

theorem forall₂_find?_none (hpq : ∀ x y, R x y → p x = q y) (hx : xs.find? p = none) : ys.find? q = none := by
  have hfind := forall₂_map_find? h hpq (fun _ _ _ => rfl : ∀ x y, R x y → () = ())
  rwa [hx, Option.map_none, eq_comm, Option.map_eq_none_iff] at hfind

theorem forall₂_getLast? {y : β} (hy : ys.getLast? = some y) : ∃ x, xs.getLast? = some x ∧ R x y := by
  induction h with
  | nil => cases hy
  | @cons a b as bs hab hrest ih =>
    rw [getLast?_cons] at hy ⊢
    cases hlast : bs.getLast? with
    | none =>
      obtain rfl := getLast?_eq_none_iff.1 hlast
      cases hrest
      exact ⟨a, rfl, Option.some.inj hy ▸ hab⟩
    | some b' =>
      rw [hlast] at hy
      cases hy
      obtain ⟨x, hx, hxy⟩ := ih hlast
      exact ⟨x, by rw [hx]; rfl, hxy⟩

end

theorem forall₂_lookup {κ : Type} [BEq κ] {xs : List (κ × α)} {ys : List (κ × β)} {k : κ} {x : α}
    (h : List.Forall₂ (fun e e' => e.1 = e'.1 ∧ R e.2 e'.2) xs ys) (hx : xs.lookup k = some x) :
    ∃ y, ys.lookup k = some y ∧ R x y := by
  induction h with
  | nil => cases hx
  | @cons a b _ _ hab _ ih =>
    rw [lookup_cons] at hx ⊢
    rw [← hab.1]
    cases ha : k == a.1 with
    | true =>
      rw [ha] at hx
      exact ⟨b.2, rfl, Option.some.inj hx ▸ hab.2⟩
    | false =>
      rw [ha] at hx
      exact ih hx

end Forall₂

/-! ## §2. Decisions -/

variable (s : Switches) (t : Topology) (space : HeaderSpace) (failures : Document)

/-- What a plan says about one protocol of a router, when `encoded` are the protocols of all routers. -/
structure DecidesProtocol (encoded : List (Name × List Protocol)) (r : Router) (p : Protocol)
    (d : ProtocolPlan) : Prop where
  protocol : d.protocol = p
  multipath : ∃ m, r.isMultipath p = .ok m ∧ d.needsRouterId = !m.truthy
  mergesExport : canMergeExport s t r.name p failures = .ok d.mergesExport
  mergedImports : computeMergedImports s t encoded r p space = .ok d.mergedImports

structure DecidesRouter (encoded : List (Name × List Protocol)) (r : Router) (d : RouterPlan) : Prop where
  router : d.router = r.name
  protocols : List.Forall₂ (DecidesProtocol s t space failures encoded r)
    ((encoded.lookup r.name).getD []) d.protocols
  aggregates : d.aggregates = r.generatedRoutes.filter fun g => space.overlapsDst g.subnet
  needsBgpInternal : d.needsBgpInternal =
    (((encoded.lookup r.name).getD []).any (· == .bgp) && (t.edges r.name).any t.isInternal)

structure Decides (encoded : List (Name × List Protocol)) (plan : Plan) : Prop where
  running : t.routers.mapM (fun r => do return (r.name, ← computeProtocols s r space)) = .ok encoded
  keepLocalPref : computeKeepLocalPref s t = .ok plan.keepLocalPref
  keepAdminDist : computeKeepAdminDist s t = .ok plan.keepAdminDist
  keepOspfType : computeKeepOspfType s t = .ok plan.keepOspfType
  keepMed : plan.keepMed = !s.slicing
  routers : List.Forall₂ (DecidesRouter s t space failures encoded) t.routers plan.routers

variable {s t space failures}

/-- **A computed plan decides about every router and every protocol that it runs.** -/
theorem compute_decides (h : compute s t space failures = .ok plan) :
    ∃ encoded, Decides s t space failures encoded plan := by
  obtain ⟨encoded, hencoded, h⟩ := bind_eq_ok.1 h
  obtain ⟨shared, hshared, h⟩ := bind_eq_ok.1 h
  obtain ⟨keepLocalPref, hlocal, h⟩ := bind_eq_ok.1 h
  obtain ⟨keepAdminDist, hadmin, h⟩ := bind_eq_ok.1 h
  obtain ⟨keepOspfType, htype, h⟩ := bind_eq_ok.1 h
  obtain ⟨routers, hrouters, h⟩ := bind_eq_ok.1 h
  cases h
  refine ⟨encoded, hencoded, hlocal, hadmin, htype, rfl, ?_⟩
  refine (forall₂_zip (mapM_eq_ok.1 hshared) (mapM_eq_ok.1 hrouters)).imp ?_
  rintro r d ⟨decisions, hdecisions, hd⟩
  obtain ⟨plans, hplans, hd⟩ := bind_eq_ok.1 hd
  cases hd
  have hdecisions := (mapM_eq_ok.1 hdecisions).imp fun p d hd => by
    obtain ⟨m, hm, hd⟩ := bind_eq_ok.1 hd
    obtain ⟨merges, hmerges, hd⟩ := bind_eq_ok.1 hd
    exact (⟨m, merges, hm, hmerges, pure_eq_ok.1 hd⟩ : ∃ m merges, r.isMultipath p = .ok m ∧
      canMergeExport s t r.name p failures = .ok merges ∧ (p, !m.truthy, merges) = d)
  refine ⟨rfl, (forall₂_trans hdecisions (mapM_eq_ok.1 hplans)).imp ?_, rfl, ?_⟩
  · rintro p q ⟨d, ⟨m, merges, hm, hmerges, rfl⟩, hq⟩
    obtain ⟨imports, himports, hq⟩ := bind_eq_ok.1 hq
    cases hq
    exact ⟨rfl, ⟨m, hm, rfl⟩, hmerges, himports⟩
  · have hnames : (encoded.lookup r.name).getD [] = decisions.map Prod.fst := by
      rw [← forall₂_eq_eq_eq, forall₂_map_right_iff]
      exact hdecisions.imp fun p d ⟨_, _, _, _, hd⟩ => hd ▸ rfl
    rw [hnames, any_map]
    rfl

/-! ## §3. Looking up decisions -/

variable {encoded : List (Name × List Protocol)}

theorem find?_of_router (hr : t.router name = .ok r) : t.routers.find? (fun r => r.name == name) = some r := by
  unfold Topology.router at hr
  unfold Topology.routers
  rw [find?_map]
  cases hsite : t.site? name with
  | none =>
    rw [hsite] at hr
    cases hr
  | some site =>
    rw [hsite] at hr
    have hsite : t.sites.find? ((fun r => r.name == name) ∘ Site.router) = some site := hsite
    rw [hsite]
    exact congrArg some (Except.ok.inj hr)

theorem Decides.router? (h : Decides s t space failures encoded plan) (hr : t.router name = .ok r) :
    ∃ d, plan.router? name = some d ∧ DecidesRouter s t space failures encoded r d :=
  forall₂_find? h.routers (fun r d hd => by rw [hd.router]) (find?_of_router hr)

theorem DecidesRouter.protocolList (h : DecidesRouter s t space failures encoded r d) :
    (encoded.lookup r.name).getD [] = d.protocolList := by
  unfold RouterPlan.protocolList
  rw [← forall₂_eq_eq_eq, forall₂_map_right_iff]
  exact h.protocols.imp fun _ _ hq => hq.protocol.symm

theorem DecidesRouter.protocol? (h : DecidesRouter s t space failures encoded r d)
    (hp : p ∈ d.protocolList) : ∃ q, d.protocol? p = some q ∧ DecidesProtocol s t space failures encoded r p q := by
  have hfind : d.protocolList.find? (fun q => q == p) = some p := by
    cases hfind : d.protocolList.find? (fun q => q == p) with
    | none => exact absurd (beq_self_eq_true p) (find?_eq_none.1 hfind p hp)
    | some q =>
      have hq := find?_some hfind
      rw [beq_iff_eq.1 hq]
  rw [← h.protocolList] at hfind
  exact forall₂_find? h.protocols (fun p q hq => by rw [hq.protocol]) hfind

theorem lookup_of_mapM {α β κ : Type} [BEq κ] {ε : Type} {key : α → κ} {g : α → Except ε β} {k : κ} {xs : List α}
    {ys : List (κ × β)} {x : α} (h : xs.mapM (fun a => do return (key a, ← g a)) = .ok ys)
    (hx : xs.find? (fun a => k == key a) = some x) : ∃ y, g x = .ok y ∧ ys.lookup k = some y := by
  replace h := mapM_eq_ok.1 h
  induction h with
  | nil => cases hx
  | @cons a e rest es he _ ih =>
    obtain ⟨y, hy, he⟩ := bind_eq_ok.1 he
    cases he
    rw [lookup_cons]
    rw [find?_cons] at hx
    cases hk : k == key a with
    | true =>
      rw [hk] at hx
      cases hx
      exact ⟨y, hy, rfl⟩
    | false =>
      rw [hk] at hx
      exact ih hx

theorem filterM_eq_ok {α ε : Type} {test : α → Except ε Bool} {xs ys : List α} (h : xs.filterM test = .ok ys) :
    (∀ x ∈ xs, ∃ b, test x = .ok b) ∧ ys = xs.filter fun x => (test x).toOption.getD false := by
  -- items are gathered in reverse
  have haux : ∀ {xs acc zs : List α}, List.filterAuxM test xs acc = .ok zs → (∀ x ∈ xs, ∃ b, test x = .ok b) ∧
      zs = (xs.filter fun x => (test x).toOption.getD false).reverse ++ acc := by
    intro xs
    induction xs with
    | nil =>
      intro acc zs h
      cases h
      exact ⟨nofun, rfl⟩
    | cons a rest ih =>
      intro acc zs h
      obtain ⟨b, hb, h⟩ := bind_eq_ok.1 h
      obtain ⟨hrest, rfl⟩ := ih h
      refine ⟨forall_mem_cons.2 ⟨⟨b, hb⟩, hrest⟩, ?_⟩
      cases b <;> simp [hb, Except.toOption]
  obtain ⟨zs, hzs, h⟩ := bind_eq_ok.1 h
  cases h
  obtain ⟨hall, rfl⟩ := haux hzs
  exact ⟨hall, by simp⟩

theorem mem_filterM {α ε : Type} {test : α → Except ε Bool} {xs ys : List α} (h : xs.filterM test = .ok ys) {x : α} :
    x ∈ ys ↔ x ∈ xs ∧ test x = .ok true := by
  obtain ⟨hall, rfl⟩ := filterM_eq_ok h
  rw [mem_filter]
  refine and_congr_right fun hx => ?_
  obtain ⟨b, hb⟩ := hall x hx
  simp [hb, Except.toOption]

theorem isRunning_of_mem {s : Switches} {space : HeaderSpace} {ps : List Protocol}
    (h : computeProtocols s r space = .ok ps) (hp : p ∈ ps) : Topology.isRunning r p = .ok true := by
  obtain ⟨b, hb, hp⟩ := bind_eq_ok.1 ((mem_filterM h).1 hp).2
  cases b with
  | true => exact hb
  | false => cases hp

theorem Decides.protocols (h : Decides s t space failures encoded plan) (hr : t.router name = .ok r) :
    computeProtocols s r space = .ok (plan.protocolsOf name) := by
  obtain ⟨d, hd, hdecides⟩ := h.router? hr
  have hname : r.name = name := by
    have hd := find?_some (show plan.routers.find? (fun d => d.router == name) = some d from hd)
    exact hdecides.router ▸ beq_iff_eq.1 hd
  have hfind : t.routers.find? (fun a => name == a.name) = some r := by
    rw [show (fun a : Router => name == a.name) = fun a => a.name == name from funext fun a => BEq.comm]
    exact find?_of_router hr
  obtain ⟨ps, hps, hlookup⟩ := lookup_of_mapM h.running hfind
  rw [Plan.protocolsOf, hd, Option.map_some, ← hdecides.protocolList, hname, hlookup]
  exact hps

theorem DecidesProtocol.ne_best {q : ProtocolPlan} (h : DecidesProtocol s t space failures encoded r p q) :
    p ≠ .best := by
  rintro rfl
  obtain ⟨m, hm, -⟩ := h.multipath
  exact absurd hm (by simp [Router.isMultipath])

end ControlPlane.Plan
