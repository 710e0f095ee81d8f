import ControlPlane.Proofs.Verification.Interference
import ControlPlane.Proofs.Verification.Reachability
import ControlPlane.Verification.Report

/-!
# Counterexamples list every variable

A counterexample gives the declared variables.  Instruments declare theirs before they say anything about them, apart
from loads, which are about the reachability of the same edge: that was measured before or is measured first.
-/
namespace ControlPlane

open List Instrument

/-! ## §1. Adding an instrument -/

namespace Instrument

variable {s : Slice} {xs ys : List Variable}

def isWithin (s : Slice) (i : Instrument) : Bool :=
  i.edge?.all fun e => (s.topology.edges e.router).contains e

theorem IsInScope.mono (h : IsInScope s (· ∈ xs)) (hsub : xs ⊆ ys) : IsInScope s (· ∈ ys) :=
  ⟨h.peers, fun r e he => (h.data r e he).mono hsub, fun r e he => (h.across r e he).mono hsub⟩

theorem within_dataForwarding {P : Variable → Prop} {e : Edge} (hs : IsInScope s P)
    (h : (s.topology.edges e.router).contains e) : (s.dataForwarding e).Within P := by
  obtain ⟨b, hb, hid⟩ := exists_of_contains h
  have hnear : (⟨e.router, e.start.name⟩ : Endpoint) = ⟨b.router, b.start.name⟩ := congrArg EdgeId.near hid
  obtain ⟨hrouter, hstart⟩ := Endpoint.mk.inj hnear
  have hsame : s.dataForwarding e = s.dataForwarding b := by
    unfold Frame.dataForwarding Edge.interface
    rw [hrouter, hstart]
  rw [hsame]
  exact hs.data _ b hb

/-- **An instrument says nothing about variables that are not declared**, whether or not it can be added: it declares
its own, and the targets it knows were measured before. -/
theorem add_isClosed {known : List Name} {i : Instrument} {l : Ledger} (hl : l.IsClosed)
    (hs : IsInScope s (· ∈ l.vars)) (hi : i.isWithin s)
    (hknown : ∀ t ∈ known, measuredVariables s t.shown ⊆ l.vars) :
    ((i.add s known).runOn l).2.IsClosed ∧ l.vars ⊆ ((i.add s known).runOn l).2.vars ∧
      ∀ t ∈ i.target?, measuredVariables s t.shown ⊆ ((i.add s known).runOn l).2.vars := by
  obtain ⟨vs, cs, hext, hadds⟩ := add_adds s known i l
  have hsub : l.vars ⊆ ((i.add s known).runOn l).2.vars := fun x hx => hext.vars ▸ mem_append_left vs hx
  have hvs : vs ⊆ ((i.add s known).runOn l).2.vars := fun x hx => hext.vars ▸ mem_append_right l.vars hx
  have htargets : ∀ t ∈ i.target?, measuredVariables s t.shown ⊆ ((i.add s known).runOn l).2.vars := by
    intro t ht x hx
    by_cases hmem : t ∈ known
    · exact hsub (hknown t hmem hx)
    · exact hvs (hadds.targets t ht hmem hx)
  have hedge : ∀ e ∈ i.edge?, (s.dataForwarding e).Within (· ∈ ((i.add s known).runOn l).2.vars) := fun e he =>
    within_dataForwarding (hs.mono hsub) ((Option.all_eq_true _ _).1 hi e he)
  refine ⟨fun c hc => ?_, hsub, htargets⟩
  rw [hext.required, mem_append] at hc
  obtain hc | hc := hc
  · exact (hl c hc).mono hsub
  · exact hadds.within _ (hs.mono hsub) hedge htargets (fun x hx => hvs hx) c hc

/-! ## §2. One instrument after the other -/

/-- The calls of several measurers, which know the targets that they have measured before. -/
def schedule : List (Nat × Name) → List (Nat × Instrument) → List (List Name × Instrument)
  | _, [] => []
  | before, (k, i) :: rest =>
    ((before.filter fun b => b.1 == k).map Prod.snd, i) :: schedule (i.target?.toList.map (k, ·) ++ before) rest

theorem isInScope_of_encode {n : Network} {req : Request} {d : Encoding} (h : (Encoding.encode n req).result = .ok d) :
    IsInScope d.slice (· ∈ d.ledger.vars) := by
  obtain ⟨f, rs, hof⟩ := Encoding.encode_isOf h
  obtain ⟨n', hbuild⟩ := Encoding.topologyOf_ok hof.topology
  have hlayout : f.commonVariables ⊆ d.ledger.vars := fun x hx => hof.declares.subset (Frame.common_sub_layout hx)
  refine ⟨isClosed_of_encode h, fun r e he => ?_, fun r e he => ?_⟩
  · rw [hof.slice] at he ⊢
    obtain ⟨site, hsite, -, he⟩ := Topology.site_of_edge he
    exact (Frame.over_dataForwarding hsite he).mono hlayout
  · rw [hof.slice] at he ⊢
    exact (Frame.over_forwardsAcross hbuild he).mono hlayout

end Instrument

namespace Encoding

theorem measure_isClosed {s : Slice} {calls : List (Nat × Instrument)} (hwithin : ∀ c ∈ calls, c.2.isWithin s) :
    ∀ (before : List (Nat × Name)) (d : Encoding), d.slice = s → IsInScope s (· ∈ d.ledger.vars) →
      (∀ b ∈ before, measuredVariables s b.2.shown ⊆ d.ledger.vars) → d.ledger.IsClosed →
      (d.measure (schedule before calls)).ledger.IsClosed := by
  induction calls with
  | nil => exact fun _ d _ _ _ hd => hd
  | cons c rest ih =>
    obtain ⟨k, i⟩ := c
    obtain ⟨hi, hrest⟩ := forall_mem_cons.1 hwithin
    rintro before d rfl hs hbefore hd
    have hknown : ∀ t ∈ (before.filter fun b => b.1 == k).map Prod.snd,
        measuredVariables d.slice t.shown ⊆ d.ledger.vars := by
      intro t ht
      obtain ⟨b, hb, rfl⟩ := mem_map.1 ht
      exact hbefore b (mem_of_mem_filter hb)
    obtain ⟨hclosed, hsub, htargets⟩ := add_isClosed hd hs hi hknown
    refine ih hrest _ _ rfl (hs.mono hsub) (forall_mem_append.2 ⟨fun b hb => ?_, fun b hb => ?_⟩) hclosed
    · obtain ⟨t, ht, rfl⟩ := mem_map.1 hb
      exact htargets t (Option.mem_toList.1 ht)
    · exact fun x hx => hsub (hbefore b hb hx)

theorem exists_lastOfEach {xs : List (String × String)} :
    ∀ v ∈ xs, ∃ value, (v.1, value) ∈ decodeVariables.lastOfEach xs := by
  fun_induction decodeVariables.lastOfEach xs with
  | case1 => exact nofun
  | case2 u =>
    intro v hv
    obtain rfl := mem_singleton.1 hv
    exact ⟨v.2, mem_singleton_self v⟩
  | case3 u w rest hsame ih =>
    intro v hv
    obtain rfl | hv := mem_cons.1 hv
    · exact beq_iff_eq.1 hsame ▸ ih w mem_cons_self
    · exact ih v hv
  | case4 u w rest hother ih =>
    intro v hv
    obtain rfl | hv := mem_cons.1 hv
    · exact ⟨v.2, mem_cons_self⟩
    · obtain ⟨value, hmem⟩ := ih v hv
      exact ⟨value, mem_cons_of_mem _ hmem⟩

theorem exists_decodeVariables {d : Encoding} {x : Variable} (hx : x ∈ d.ledger.vars) (m : Model) :
    ∃ value, (x.name, value) ∈ d.decodeVariables m :=
  exists_lastOfEach (x.name, m.shown x) (mem_sortWith.2 (mem_map_of_mem hx))

/-- **Counterexamples list every variable.**  After any measurers have added any instruments to an encoding, in any
order and whether or not they could all be added, every variable of every constraint is declared, so every decoded model
gives it a value. -/
theorem measure_isListed {n : Network} {req : Request} {e : Encoding} {calls : List (Nat × Instrument)}
    (he : (encode n req).result = .ok e) (hcalls : ∀ c ∈ calls, c.2.isWithin e.slice) :
    ∀ c ∈ (e.measure (schedule [] calls)).ledger.required, ∀ x ∈ c.mentioned,
      x ∈ (e.measure (schedule [] calls)).ledger.vars ∧
      ∀ m : Model, ∃ value, (x.name, value) ∈ (e.measure (schedule [] calls)).decodeVariables m := by
  obtain ⟨n', t, -, ht⟩ := encode_ok he
  have hclosed := measure_isClosed hcalls [] e rfl (isInScope_of_encode he) nofun (ofTopology_isClosed ht)
  intro c hc x hx
  exact ⟨hclosed c hc x hx, fun m => exists_decodeVariables (hclosed c hc x hx) m⟩

/-- The edge of `pairNetwork` to the network of its own. -/
def lanEdge : Edge := ⟨.text "B", { name := .text "lan" }, none⟩

/-- Two measurers of `pairNetwork`; the last call fails. -/
def pairCalls : List (Nat × Instrument) :=
  [(0, .load lanEdge), (0, .routerReachability (.text "B")), (1, .pathLength lanEdge), (0, .load lanEdge),
    (1, .load lanEdge), (1, .loop (.text "A")), (1, .loop (.text "C"))]

theorem pair_measure_isListed : ∃ e, (encode pairNetwork {}).result = .ok e ∧
    (∀ c ∈ pairCalls, c.2.isWithin e.slice) ∧
    e.ledger.required.length < (e.measure (schedule [] pairCalls)).ledger.required.length ∧
    ∀ c ∈ (e.measure (schedule [] pairCalls)).ledger.required, ∀ x ∈ c.mentioned,
      x ∈ (e.measure (schedule [] pairCalls)).ledger.vars := by
  have hpair : ∃ e, (encode pairNetwork {}).result = .ok e ∧ ((∀ c ∈ pairCalls, c.2.isWithin e.slice) ∧
      e.ledger.required.length < (e.measure (schedule [] pairCalls)).ledger.required.length) := by
    decide +kernel
  obtain ⟨e, he, hcalls, hmore⟩ := hpair
  exact ⟨e, he, hcalls, hmore, fun c hc x hx => (measure_isListed he hcalls c hc x hx).1⟩

end Encoding

end ControlPlane
