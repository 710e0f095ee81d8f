import ControlPlane.Proofs.Slice.VariableNames
import Mathlib.Data.Finset.Card
import Mathlib.Data.Sym.Sym2

/-!
# Which sets of links may fail

A link is the connection of two interfaces, whatever its direction, or the place where an interface leaves the
network.  All connections between the same two routers have one failure variable, so that they fail together and
count as one: they are a bundle.  The failure constraints admit exactly the sets of whole bundles of which there are
no more than the number of failures that is asked for.
-/
namespace ControlPlane

open List Edge Frame Term

variable {d e : Edge} {cs : List (Term .bool)} {t : Topology}

/-! ## §1. Links and bundles -/

/-- A link: where an interface leaves the network, or the connection of two interfaces in both directions. -/
inductive Wire where
  | outer (router interface : Name)
  | inner (ends : Sym2 (Name × Name))

/-- What fails as one: a link that leaves the network, or all connections between two routers. -/
inductive Bundle where
  | outer (router interface : Name)
  | inner (routers : Sym2 Name)

-- derived instances rewrite along the equality of unordered pairs and do not evaluate
instance : DecidableEq Wire
  | .outer r i, .outer r' i' => decidable_of_iff (r = r' ∧ i = i') (Wire.outer.injEq r i r' i' ▸ Iff.rfl)
  | .inner x, .inner y => decidable_of_iff (x = y) (Wire.inner.injEq x y ▸ Iff.rfl)
  | .outer _ _, .inner _ => .isFalse nofun
  | .inner _, .outer _ _ => .isFalse nofun

instance : DecidableEq Bundle
  | .outer r i, .outer r' i' => decidable_of_iff (r = r' ∧ i = i') (Bundle.outer.injEq r i r' i' ▸ Iff.rfl)
  | .inner x, .inner y => decidable_of_iff (x = y) (Bundle.inner.injEq x y ▸ Iff.rfl)
  | .outer _ _, .inner _ => .isFalse nofun
  | .inner _, .outer _ _ => .isFalse nofun

def Edge.wire (e : Edge) : Wire :=
  match e.far with
  | none => .outer e.router e.interface
  | some far => .inner s((e.router, e.interface), (far.1, far.2.name))

def Wire.bundle : Wire → Bundle
  | outer router interface => .outer router interface
  | inner ends => .inner (ends.map Prod.fst)

theorem Edge.bundle_of_none (h : e.peer? = none) : e.wire.bundle = .outer e.router e.interface := by
  have hfar : e.far = none := Option.map_eq_none_iff.1 h
  unfold Edge.wire
  rw [hfar]
  rfl

theorem Edge.bundle_of_peer {p : Name} (h : e.peer? = some p) : e.wire.bundle = .inner s(e.router, p) := by
  obtain ⟨far, hfar, rfl⟩ := Option.map_eq_some_iff.1 h
  unfold Edge.wire
  rw [hfar]
  rfl

theorem Edge.bundle_eq_iff : d.wire.bundle = e.wire.bundle ↔ d.SameLink e := by
  unfold Edge.SameLink
  cases hd : d.peer? with
  | none =>
    rw [bundle_of_none hd]
    cases he : e.peer? with
    | none => rw [bundle_of_none he, Bundle.outer.injEq]
    | some q => rw [bundle_of_peer he]; exact ⟨nofun, nofun⟩
  | some p =>
    rw [bundle_of_peer hd]
    cases he : e.peer? with
    | none => rw [bundle_of_none he]; exact ⟨nofun, nofun⟩
    | some q => rw [bundle_of_peer he, Bundle.inner.injEq, Sym2.eq_iff]

namespace Topology

def wires (t : Topology) : Finset Wire := (t.siteEdges.map Edge.wire).toFinset

/-- No two routers have more than one connection. -/
def IsSimple (t : Topology) : Prop := ∀ x ∈ t.wires, ∀ y ∈ t.wires, x.bundle = y.bundle → x = y

/-- A set of links holds either all links of a bundle or none. -/
def IsWhole (t : Topology) (failed : Finset Wire) : Prop :=
  ∀ x ∈ t.wires, ∀ y ∈ t.wires, x.bundle = y.bundle → (x ∈ failed ↔ y ∈ failed)

def FailsExactly (t : Topology) (tag : String) (failed : Finset Wire) (v : Valuation) : Prop :=
  ∀ e ∈ t.siteEdges, v.int (Frame.failureName tag e) = if e.wire ∈ failed then 1 else 0

instance (t : Topology) (failed : Finset Wire) : Decidable (t.IsWhole failed) :=
  inferInstanceAs (Decidable (∀ x ∈ t.wires, ∀ y ∈ t.wires, x.bundle = y.bundle → (x ∈ failed ↔ y ∈ failed)))

def Admits (t : Topology) (tag : String) (l : Ledger) (failed : Finset Wire) : Prop :=
  ∃ v : Valuation, v.Satisfies l ∧ t.FailsExactly tag failed v

def FailsShared (t : Topology) (tag : String) (failed : Finset Wire) : Prop :=
  ∀ d ∈ t.siteEdges, ∀ e ∈ t.siteEdges, Frame.failureName tag d = Frame.failureName tag e →
    (d.wire ∈ failed ↔ e.wire ∈ failed)

theorem mem_wires {x : Wire} : x ∈ t.wires ↔ ∃ e ∈ t.siteEdges, e.wire = x := by
  unfold wires
  rw [mem_toFinset, mem_map]

theorem wire_mem (he : e ∈ t.siteEdges) : e.wire ∈ t.wires := mem_wires.2 ⟨e, he, rfl⟩

theorem links_areKeyed (t : Topology) :
    t.links ⊆ t.siteEdges ∧ t.links.Pairwise fun d e => links.key d ≠ links.key e := by
  unfold links siteEdges
  generalize hes : t.sites.flatMap Site.edges = es
  clear hes
  -- an edge is added only if its key is new
  suffices h : ∀ acc : List Edge, (acc.Pairwise fun d e => links.key d ≠ links.key e) →
      let out := es.foldl (fun acc e => if acc.any fun d => links.key d == links.key e then acc else acc ++ [e]) acc
      out ⊆ acc ++ es ∧ out.Pairwise fun d e => links.key d ≠ links.key e from h [] .nil
  induction es with
  | nil => exact fun acc hacc => ⟨subset_append_left acc [], hacc⟩
  | cons a rest ih =>
    intro acc hacc
    rw [foldl_cons]
    split
    next =>
      obtain ⟨hsub, hpairs⟩ := ih acc hacc
      exact ⟨List.Subset.trans hsub (append_subset.2 ⟨subset_append_left _ _,
        List.Subset.trans (subset_cons_self a rest) (subset_append_right _ _)⟩), hpairs⟩
    next hnew =>
      have hfresh : ∀ d ∈ acc, links.key d ≠ links.key a := by
        intro d hd hkey
        exact hnew (any_eq_true.2 ⟨d, hd, beq_iff_eq.2 hkey⟩)
      obtain ⟨hsub, hpairs⟩ := ih (acc ++ [a]) (pairwise_append.2
        ⟨hacc, pairwise_singleton _ a, fun d hd e he => mem_singleton.1 he ▸ hfresh d hd⟩)
      rw [append_assoc] at hsub
      exact ⟨hsub, hpairs⟩

/-! ## §2. Failures that are counted -/

variable {tag : String} {failed : Finset Wire} {v : Valuation} {k : Nat}

theorem FailsExactly.eval_sum (h : t.FailsExactly tag failed v) {es : List Edge} (hes : es ⊆ t.siteEdges) :
    (Term.sum (es.map fun e => .intVar (Frame.failureName tag e))).eval v = es.countP fun e => e.wire ∈ failed := by
  show (Term.evalInts v _).foldr Int.add 0 = _
  rw [evalInts_eq]
  induction es with
  | nil => rfl
  | cons e rest ih =>
    obtain ⟨he, hrest⟩ := cons_subset.1 hes
    have hvalue : (Term.intVar (Frame.failureName tag e)).eval v = if e.wire ∈ failed then 1 else 0 := h e he
    simp only [map_cons, foldr_cons, ih hrest, hvalue, countP_cons, decide_eq_true_eq]
    split
    · exact Int.add_comm 1 _
    · exact Int.zero_add _

theorem FailsExactly.holds_iff (h : t.FailsExactly tag failed v)
    (hcs : failureConstraints (.int k) (t.failureTerms tag) = .ok cs) :
    (∀ c ∈ Encoding.failureBounds t tag ++ cs, c.eval v) ↔ t.links.countP (fun e => e.wire ∈ failed) ≤ k := by
  obtain ⟨hlinks, -⟩ := t.links_areKeyed
  have hperm : t.sortedLinks.Perm t.links := perm_sortWith _
  have hbounds : ∀ c ∈ Encoding.failureBounds t tag, c.eval v := by
    unfold Encoding.failureBounds
    rw [forall_mem_map]
    intro e he
    have hvalue : (Term.intVar (Frame.failureName tag e)).eval v = if e.wire ∈ failed then 1 else 0 := h e (hlinks he)
    rw [holds_and_two, holds_ge, holds_le, hvalue]
    show 0 ≤ _ ∧ _ ≤ 1
    split <;> decide
  rw [forall_mem_append, and_iff_right hbounds]
  have hnone : t.links.countP (fun e => e.wire ∈ failed) = 0 ↔
      ∀ e ∈ t.sortedLinks, v.int (Frame.failureName tag e) = 0 := by
    rw [countP_eq_zero]
    constructor
    · intro hzero e he
      have hzero := hzero e (hperm.subset he)
      rw [h e (hlinks (hperm.subset he)), if_neg (by simpa using hzero)]
    · intro hzero e he hfailed
      have hvalue := h e (hlinks he)
      rw [hzero e (hperm.symm.subset he), if_pos (by simpa using hfailed)] at hvalue
      exact absurd hvalue (by decide)
  unfold failureConstraints at hcs
  split at hcs
  next hempty =>
    -- there is no link
    obtain rfl := pure_eq_ok.1 hcs
    have hnil : t.sortedLinks = [] := map_eq_nil_iff.1 (isEmpty_iff.1 hempty)
    rw [hnone.2 fun e he => absurd (hnil ▸ he) not_mem_nil]
    exact ⟨fun _ => Nat.zero_le k, fun _ c hc => absurd hc not_mem_nil⟩
  next =>
    split at hcs
    next hzero =>
      -- no link may fail
      obtain rfl := pure_eq_ok.1 hcs
      have hk : k = 0 := by
        simpa [Document.same, Document.number?, Document.numberEq, Document.scaled] using hzero
      rw [hk, Nat.le_zero, hnone, failureTerms, forall_mem_map, forall_mem_map]
      exact forall₂_congr fun e _ => eval_is v _ 0
    next =>
      obtain ⟨n, hn, hcs⟩ := bind_eq_ok.1 hcs
      obtain rfl := pure_eq_ok.1 hcs
      have hn : (k : Int) = n := Except.ok.inj hn
      rw [forall_mem_singleton, holds_le, failureTerms,
        h.eval_sum fun e he => hlinks (hperm.subset he), hperm.countP_eq]
      show _ ≤ n ↔ _
      rw [← hn, Int.ofNat_le]

/-- **Which links may fail**: edges that share a variable fail together, and no more than a number of the edges that
are counted are over failed links. -/
theorem admits_iff_edges {l : Ledger} (hcs : failureConstraints (.int k) (t.failureTerms tag) = .ok cs)
    (hl : l.required = Encoding.failureBounds t tag ++ cs) :
    t.Admits tag l failed ↔ t.FailsShared tag failed ∧ t.links.countP (fun e => e.wire ∈ failed) ≤ k := by
  unfold Admits Valuation.Satisfies
  rw [hl]
  constructor
  · rintro ⟨v, hv, hexactly⟩
    refine ⟨fun d hd e he hname => ?_, (hexactly.holds_iff hcs).1 hv⟩
    have hone := hexactly d hd
    rw [hname, hexactly e he] at hone
    by_cases hdf : d.wire ∈ failed <;> by_cases hef : e.wire ∈ failed <;> simp_all
  · rintro ⟨hshared, hcount⟩
    classical
    -- a variable is one when some failed link has it
    let v : Valuation :=
      { bool := fun _ => false
        int := fun name => if ∃ e ∈ t.siteEdges, Frame.failureName tag e = name ∧ e.wire ∈ failed then 1 else 0
        bits := fun _ => 0 }
    have hexactly : t.FailsExactly tag failed v := by
      intro d hd
      have hiff : (∃ e ∈ t.siteEdges, Frame.failureName tag e = Frame.failureName tag d ∧ e.wire ∈ failed) ↔
          d.wire ∈ failed :=
        ⟨fun ⟨e, he, hname, hfailed⟩ => (hshared e he d hd hname).1 hfailed, fun hfailed => ⟨d, hd, rfl, hfailed⟩⟩
      show (if _ then (1 : Int) else 0) = _
      simp only [hiff]
    exact ⟨v, (hexactly.holds_iff hcs).2 hcount, hexactly⟩

/-! ## §3. Bundles that are counted -/

section Named

variable (h : t.TellsNames) (hown : t.OwnsEdges)
include h hown

theorem key_eq_of_sameLink (hd : d ∈ t.siteEdges) (he : e ∈ t.siteEdges) (hsame : d.SameLink e) :
    links.key d = links.key e := by
  have hname : ∀ {e : Edge}, e ∈ t.siteEdges → ∃ s, e.router = .text s := by
    intro e he
    obtain ⟨s, hs, he⟩ := mem_flatMap.1 he
    obtain ⟨x, hx, -⟩ := h.plain e.router (hown.router s hs e he ▸ mem_map_of_mem hs)
    exact ⟨x, hx⟩
  have hinner : ∀ {e : Edge} {p : Name}, e.peer? = some p →
      links.key e = ((inTextOrder e.router p).1, (inTextOrder e.router p).2, false) := by
    intro e p hp
    unfold links.key inTextOrder
    rw [hp]
    dsimp only
    split <;> rfl
  unfold Edge.SameLink at hsame
  cases hdp : d.peer? with
  | none =>
    cases hep : e.peer? with
    | none =>
      rw [hdp, hep] at hsame
      unfold links.key
      rw [hdp, hep, hsame.1, hsame.2]
    | some q => rw [hdp, hep] at hsame; exact hsame.elim
  | some p =>
    cases hep : e.peer? with
    | none => rw [hdp, hep] at hsame; exact hsame.elim
    | some q =>
      rw [hdp, hep] at hsame
      rw [hinner hdp, hinner hep]
      rcases hsame with ⟨hrouter, rfl⟩ | ⟨hrouter, hpeer⟩
      · rw [hrouter]
      · -- the other direction has the two routers in the same order
        obtain ⟨s, hs⟩ := hname hd
        obtain ⟨s', hs'⟩ := hname he
        rw [← hrouter, hpeer, hs, hs', inTextOrder_swap]

theorem failsShared_iff : t.FailsShared tag failed ↔ t.IsWhole failed := by
  constructor
  · intro hshared x hx y hy hbundle
    obtain ⟨d, hd, rfl⟩ := mem_wires.1 hx
    obtain ⟨e, he, rfl⟩ := mem_wires.1 hy
    exact hshared d hd e he ((failureName_eq_iff h hown hd he tag).2 (bundle_eq_iff.1 hbundle))
  · intro hwhole d hd e he hname
    exact hwhole _ (wire_mem hd) _ (wire_mem he)
      (bundle_eq_iff.2 ((failureName_eq_iff h hown hd he tag).1 hname))

theorem countP_links (hfailed : failed ⊆ t.wires) (hwhole : t.IsWhole failed) :
    t.links.countP (fun e => e.wire ∈ failed) = (failed.image Wire.bundle).card := by
  obtain ⟨hlinks, hkeys⟩ := t.links_areKeyed
  have hnodup : ((t.links.filter fun e => e.wire ∈ failed).map fun e => e.wire.bundle).Nodup := by
    refine pairwise_map.2 ((hkeys.filter _).imp_of_mem fun {d e} hd he hkey hbundle => hkey ?_)
    exact key_eq_of_sameLink h hown (hlinks (mem_of_mem_filter hd)) (hlinks (mem_of_mem_filter he))
      (bundle_eq_iff.1 hbundle)
  have himage : failed.image Wire.bundle =
      ((t.links.filter fun e => e.wire ∈ failed).map fun e => e.wire.bundle).toFinset := by
    ext b
    simp only [Finset.mem_image, mem_toFinset, mem_map, mem_filter, decide_eq_true_eq]
    constructor
    · rintro ⟨x, hx, rfl⟩
      obtain ⟨e, he, rfl⟩ := mem_wires.1 (hfailed hx)
      obtain ⟨d, hd, hkey⟩ := mem_links he
      have hbundle : d.wire.bundle = e.wire.bundle := bundle_eq_iff.2
        ((failureName_eq_iff h hown (hlinks hd) he "").1 (failureName_of_key hkey))
      exact ⟨d, ⟨hd, (hwhole _ (wire_mem (hlinks hd)) _ (wire_mem he) hbundle).2 hx⟩, hbundle⟩
    · rintro ⟨d, ⟨-, hd⟩, rfl⟩
      exact ⟨d.wire, hd, rfl⟩
  rw [himage, toFinset_card_of_nodup hnodup, length_map, countP_eq_length_filter]

end Named

/-- Where no links are parallel every set is whole and links are counted one by one. -/
theorem IsSimple.isWhole (hsimple : t.IsSimple) (failed : Finset Wire) : t.IsWhole failed := by
  intro x hx y hy hbundle
  rw [hsimple x hx y hy hbundle]

theorem IsSimple.card_image (hsimple : t.IsSimple) (hfailed : failed ⊆ t.wires) :
    (failed.image Wire.bundle).card = failed.card :=
  Finset.card_image_of_injOn fun x hx y hy hbundle => hsimple x (hfailed hx) y (hfailed hy) hbundle

end Topology

/-! ## §4. Encodings -/

namespace Encoding

theorem layFailures_grows {n : Network} {r : Request} {e : Encoding} (he : (encode n r).result = .ok e) :
    ∃ cs l, failureConstraints r.failures (e.slice.topology.failureTerms e.slice.tag) = .ok cs ∧
      (layFailures e.slice.topology e.slice.tag r.failures).runOn {} = (.ok (), l) ∧
      l.required = failureBounds e.slice.topology e.slice.tag ++ cs ∧ l.Grows e.ledger := by
  rw [encode_result] at he
  obtain ⟨t, -, he⟩ := bind_eq_ok.1 he
  obtain ⟨tag, f, cs, rs, l₁, l₂, stable, -, hbuild, hcs, -, hslice, hvars, hrequired, htransfers, -,
    hledger⟩ := ofTopology_ok he
  obtain ⟨-, hcommunities, -, rfl, rfl, -⟩ := build_ok hbuild
  have htopology : e.slice.topology = f.topology := congrArg (fun s : Slice => s.topology) hslice
  have htag : e.slice.tag = f.tag := congrArg (fun s : Slice => s.tag) hslice
  rw [htopology, htag]
  -- laying the failures succeeds on the empty ledger
  obtain ⟨l₀, h₀⟩ : ∃ l₀, (f.topology.links.forM fun e => do
      let x ← Build.newInt (Frame.failureName f.tag e)
      Build.require (.and [.ge x (.intLit 0), .le x (.intLit 1)])).runOn {} = (.ok (), l₀) :=
    Build.runOn_forM_total (fun e _ l => ⟨_, rfl⟩) {}
  have hrun : ∃ l, (layFailures f.topology f.tag r.failures).runOn {} = (.ok (), l) :=
    ⟨_, Build.runOn_bind_ok.2 ⟨(), l₀, h₀, Build.runOn_lift_bind_ok.2 ⟨cs, hcs, rfl⟩⟩⟩
  obtain ⟨l, hl⟩ := hrun
  obtain ⟨cs', hcs', hextends⟩ := layFailures_extends hl
  obtain rfl := Except.ok.inj (hcs.symm.trans hcs')
  have hvars₀ : l.vars = failureVariables f.topology f.tag := hextends.vars
  have hrequired₀ : l.required = failureBounds f.topology f.tag ++ cs := hextends.required
  rw [hslice] at htransfers
  have hdemand := (demands_transfers (Community.nodup_ofRouters hcommunities)).run l₁ () l₂
    (fun x hx => hvars ▸ hx) htransfers
  have hfirst : l.Grows l₁ := by
    refine ⟨?_, ?_⟩
    · rw [hvars₀, hvars]
      exact prefix_append _ _
    · rw [hrequired₀, hrequired]
      exact prefix_append _ _
  exact ⟨cs, l, hcs, hl, hrequired₀, hfirst.trans (hdemand.grows.trans hledger.grows)⟩

/-- **The failure constraints admit exactly the sets of at most a number of links**, of which those with one variable
fail together and those with one key are counted once.  Where names are told apart, these are the sets of at most `k`
whole bundles, and where no links are parallel, the sets of at most `k` links. -/
theorem failureSets_areBounded {n : Network} {r : Request} {e : Encoding} {k : Nat}
    (he : (encode n r).result = .ok e) (hk : r.failures = .int k) :
    ∃ l, (layFailures e.slice.topology e.slice.tag r.failures).runOn {} = (.ok (), l) ∧ l.Grows e.ledger ∧
      ∀ failed ⊆ e.slice.topology.wires,
        (e.slice.topology.Admits e.slice.tag l failed ↔ e.slice.topology.FailsShared e.slice.tag failed ∧
          e.slice.topology.links.countP (fun d => d.wire ∈ failed) ≤ k) ∧
        (n.TellsNames →
          (e.slice.topology.Admits e.slice.tag l failed ↔
            e.slice.topology.IsWhole failed ∧ (failed.image Wire.bundle).card ≤ k) ∧
          (e.slice.topology.IsSimple → (e.slice.topology.Admits e.slice.tag l failed ↔ failed.card ≤ k))) := by
  obtain ⟨cs, l, hcs, hl, hrequired, hgrows⟩ := layFailures_grows he
  refine ⟨l, hl, hgrows, fun failed hfailed => ?_⟩
  rw [hk] at hcs
  have hadmits : e.slice.topology.Admits e.slice.tag l failed ↔ _ := Topology.admits_iff_edges hcs hrequired
  refine ⟨hadmits, fun hn => ?_⟩
  obtain ⟨f, rs, hof⟩ := encode_isOf he
  obtain ⟨n', hbuild⟩ := topologyOf_ok hof.topology
  have htopology : e.slice.topology = f.topology := congrArg (fun s : Slice => s.topology) hof.slice
  have h : e.slice.topology.TellsNames := htopology ▸ tellsNames_of_topologyOf hof.topology hn
  have hown : e.slice.topology.OwnsEdges := htopology ▸ Topology.ownsEdges_of_build hbuild
  have hbundles : e.slice.topology.Admits e.slice.tag l failed ↔
      e.slice.topology.IsWhole failed ∧ (failed.image Wire.bundle).card ≤ k := by
    rw [hadmits, Topology.failsShared_iff h hown]
    exact and_congr_right fun hwhole => by rw [Topology.countP_links h hown hfailed hwhole]
  refine ⟨hbundles, fun hsimple => ?_⟩
  rw [hbundles, hsimple.card_image hfailed, and_iff_right (hsimple.isWhole failed)]

/-- Two routers with two connections, one of which also leaves the network. -/
def doubleNetwork : Network where
  routers := [
    { name := .text "A"
      interfaces := [.port "ab" (.ofOctets 10 0 0 1 30), .port "ab2" (.ofOctets 10 0 0 5 30),
        .port "out" (.ofOctets 10 0 0 9 30)] },
    { name := .text "B"
      interfaces := [.port "ba" (.ofOctets 10 0 0 2 30), .port "ba2" (.ofOctets 10 0 0 6 30)] }]
  links := [.cable "A" "ab" "B" "ba", .cable "A" "ab2" "B" "ba2"]

theorem double_failsTogether : ∃ e l, (encode doubleNetwork { failures := .int 1 }).result = .ok e ∧
    (layFailures e.slice.topology e.slice.tag (.int 1)).runOn {} = (.ok (), l) ∧
    ∃ failed ⊆ e.slice.topology.wires, failed.card ≤ 1 ∧ ¬ e.slice.topology.Admits e.slice.tag l failed := by
  have hshared : ∃ e, (encode doubleNetwork { failures := .int 1 }).result = .ok e ∧
      ∃ d ∈ e.slice.topology.siteEdges, ∃ d' ∈ e.slice.topology.siteEdges,
        Frame.failureName e.slice.tag d = Frame.failureName e.slice.tag d' ∧ d.wire ≠ d'.wire := by
    decide +kernel
  obtain ⟨e, he, d, hd, d', hd', hname, hne⟩ := hshared
  obtain ⟨-, l, -, hl, -⟩ := layFailures_grows he
  refine ⟨e, l, he, hl, {d.wire}, Finset.singleton_subset_iff.2 (Topology.wire_mem hd), le_rfl, ?_⟩
  rintro ⟨v, -, hexactly⟩
  have hone := hexactly d hd
  rw [hname, hexactly d' hd', if_neg (by simpa using hne.symm), if_pos (Finset.mem_singleton_self _)] at hone
  exact absurd hone (by decide)

/-- Both connections may fail as one, but not together with the third link. -/
theorem double_failureSets_areBounded : doubleNetwork.TellsNames ∧ ∃ e l,
    (encode doubleNetwork { failures := .int 1 }).result = .ok e ∧
    (layFailures e.slice.topology e.slice.tag (.int 1)).runOn {} = (.ok (), l) ∧ l.Grows e.ledger ∧
    e.slice.topology.wires.card = 3 ∧
    ¬ e.slice.topology.Admits e.slice.tag l e.slice.topology.wires ∧
    ∃ failed ⊆ e.slice.topology.wires, failed.card = 2 ∧ e.slice.topology.Admits e.slice.tag l failed := by
  have hnames : doubleNetwork.TellsNames := ⟨by decide +kernel, by decide +kernel, by decide +kernel⟩
  have hdouble : ∃ e, (encode doubleNetwork { failures := .int 1 }).result = .ok e ∧
      e.slice.topology.wires.card = 3 ∧ (e.slice.topology.wires.image Wire.bundle).card = 2 ∧
      ∃ x ∈ e.slice.topology.wires, ∃ y ∈ e.slice.topology.wires, x ≠ y ∧ x.bundle = y.bundle ∧
        e.slice.topology.IsWhole {x, y} := by
    decide +kernel
  obtain ⟨e, he, hcard, hbundles, x, hx, y, hy, hne, hbundle, hwhole⟩ := hdouble
  obtain ⟨l, hl, hgrows, hsets⟩ := failureSets_areBounded he rfl (k := 1)
  have hpair : {x, y} ⊆ e.slice.topology.wires :=
    Finset.insert_subset_iff.2 ⟨hx, Finset.singleton_subset_iff.2 hy⟩
  refine ⟨hnames, e, l, he, hl, hgrows, hcard, fun hall => ?_, {x, y}, hpair, Finset.card_pair hne, ?_⟩
  · have hfew := (((hsets _ (Finset.Subset.refl _)).2 hnames).1.1 hall).2
    rw [hbundles] at hfew
    exact absurd hfew (by decide)
  · refine ((hsets _ hpair).2 hnames).1.2 ⟨hwhole, ?_⟩
    rw [Finset.image_insert, Finset.image_singleton, hbundle, Finset.pair_eq_singleton, Finset.card_singleton]

end Encoding

end ControlPlane
