import ControlPlane.Proofs.Document.Numbers
import ControlPlane.Proofs.Verification.Reachability
import Mathlib.Data.Fintype.EquivFin
import Mathlib.Data.Set.Finite.List
import Mathlib.Logic.Relation

/-!
# Which loops are measured

A router is measured to be on a loop of another one when it sends the packet there, or to a router that is measured to
be on one.  Names are compared as values, so a router with the same number as its name, written in another form, stands
for the one in question.  And routers on a loop can hold each other up, and with them all that send to them: the
packets of a router that is measured to be on its loop run into some loop, but need not come back.
-/
namespace ControlPlane

open List Relation Term Instrument

namespace Instrument

variable {s : Slice} {v : Valuation} {x r peer : Name}

/-! ## §1. What the constraints say -/

/-- A router sends the packet to another one. -/
def SendsTo (s : Slice) (v : Valuation) (r peer : Name) : Prop :=
  ∃ d ∈ s.topology.edges r, d.peer? = some peer ∧ (s.dataForwarding d).eval v

/-- The packets of a router come back to it. -/
def Returns (s : Slice) (v : Valuation) (r : Name) : Prop := TransGen (SendsTo s v) r r

/-- The packets of a router come to one whose name is the same value. -/
def ComesBack (s : Slice) (v : Valuation) (r : Name) : Prop :=
  ∃ r', TransGen (SendsTo s v) r r' ∧ r.document.same r'.document

/-- A router is measured to be on the loop of another one. -/
def IsOnLoop (s : Slice) (v : Valuation) (x r : Name) : Prop := (onLoop s x.document r).eval v

/-- The constraints on the loop of a router hold. -/
def MeasuresLoop (s : Slice) (v : Valuation) (x : Name) : Prop :=
  ∀ r ∈ s.topology.names, (loopConstraint s x.document r).eval v

theorem SendsTo.mem_names (hs : IsClosed s) (h : SendsTo s v r peer) : peer ∈ s.topology.names := by
  obtain ⟨d, hd, hpeer, -⟩ := h
  exact hs r d hd peer hpeer

theorem Returns.comesBack (h : Returns s v r) : ComesBack s v r :=
  ⟨r, h, Document.same_self (by cases r <;> rfl)⟩

/-- A text is the same value as no other name. -/
theorem comesBack_text {t : String} : ComesBack s v (.text t) ↔ Returns s v (.text t) := by
  refine ⟨fun ⟨r', hpath, hsame⟩ => ?_, Returns.comesBack⟩
  have heq : r' = .text t := by
    cases r' with
    | text u =>
      have heq : t = u := by simpa [Document.same, Name.document] using hsame
      rw [heq]
    | _ => simp [Document.same, Name.document] at hsame
  exact heq ▸ hpath

/-- A router is on a loop exactly when it sends the packet to one with the name in question or to a router that is on
one. -/
theorem holds_loopConstraint : (loopConstraint s x.document r).eval v ↔ (IsOnLoop s v x r ↔
    ∃ peer, SendsTo s v r peer ∧ (x.document.same peer.document ∨ IsOnLoop s v x peer)) := by
  rw [loopConstraint, eval_eq, Bool.eq_iff_iff, holds_anyOf]
  refine iff_congr Iff.rfl ⟨?_, ?_⟩
  · rintro ⟨c, hc, h⟩
    obtain ⟨⟨d, peer⟩, hmem, rfl⟩ := mem_map.1 hc
    obtain ⟨hd, hpeer⟩ := mem_innerEdges.1 hmem
    dsimp only at h
    split at h
    next hsame => exact ⟨peer, ⟨d, hd, hpeer, h⟩, .inl hsame⟩
    next =>
      obtain ⟨hsends, hloop⟩ := (holds_and_two v).1 h
      exact ⟨peer, ⟨d, hd, hpeer, hsends⟩, .inr hloop⟩
  · rintro ⟨peer, ⟨d, hd, hpeer, hsends⟩, hnext⟩
    refine ⟨_, mem_map_of_mem (mem_innerEdges (x := (d, peer)).2 ⟨hd, hpeer⟩), ?_⟩
    dsimp only
    split
    next => exact hsends
    next hother => exact (holds_and_two v).2 ⟨hsends, hnext.resolve_left hother⟩

/-! ## §2. What is measured -/

section

variable (hs : IsClosed s) (h : MeasuresLoop s v x)
include hs h

theorem isOnLoop_of_sends (hsame : x.document.same peer.document) (hpath : TransGen (SendsTo s v) r peer)
    (hr : r ∈ s.topology.names) : IsOnLoop s v x r := by
  induction hpath using TransGen.head_induction_on with
  | single hhop => exact (holds_loopConstraint.1 (h _ hr)).2 ⟨_, hhop, .inl hsame⟩
  | head hhop _ ih => exact (holds_loopConstraint.1 (h _ hr)).2 ⟨_, hhop, .inr (ih (hhop.mem_names hs))⟩

/-- Packets that run into no loop can only be sent on finitely often.  So the induction is on the routers that they
still come to, and none of these is measured to be on a loop. -/
theorem runsIntoLoop_of_isOnLoop (hx : x ∈ s.topology.names) (hloop : IsOnLoop s v x x) :
    ComesBack s v x ∨ ∃ y, ReflTransGen (SendsTo s v) x y ∧ Returns s v y := by
  by_contra hnone
  obtain ⟨hback, hnone⟩ := not_or.1 hnone
  have hreturns : ∀ y, ReflTransGen (SendsTo s v) x y → ¬ Returns s v y := fun y hy hback => hnone ⟨y, hy, hback⟩
  let Ahead := {r // r ∈ s.topology.names ∧ ReflTransGen (SendsTo s v) x r}
  have : Finite Ahead := (s.topology.names.finite_toSet.subset fun _ hr => hr.1).to_subtype
  let later (q r : Ahead) : Prop := TransGen (SendsTo s v) r.1 q.1
  have : IsTrans Ahead later := ⟨fun _ _ _ hab hbc => hbc.trans hab⟩
  have : Std.Irrefl later := ⟨fun r => hreturns r.1 r.2.2⟩
  have hoff : ∀ r : Ahead, ¬ IsOnLoop s v x r.1 := by
    intro r
    induction r using (Finite.wellFounded_of_trans_of_irrefl later).induction with
    | _ r ih =>
      intro hon
      obtain ⟨peer, hhop, hpeer⟩ := (holds_loopConstraint.1 (h r.1 r.2.1)).1 hon
      obtain hsame | hpeer := hpeer
      · exact hback ⟨peer, TransGen.tail' r.2.2 hhop, hsame⟩
      · exact ih ⟨peer, hhop.mem_names hs, r.2.2.tail hhop⟩ (.single hhop) hpeer
  exact hoff ⟨x, hx, .refl⟩ hloop

end

end Instrument

/-- **What is measured lies between coming back and running into a loop.**  Measuring the loop of a router succeeds.  In
every valuation that satisfies what was added, the router is on a loop if its packets come back to it, and only if they
do or come to some router that they come back to. -/
theorem Encoding.onLoop_isBetween {n : Network} {req : Request} {e : Encoding} {x : Name}
    (he : (Encoding.encode n req).result = .ok e) (hx : x ∈ e.slice.topology.names) :
    ∃ l, (Instrument.add e.slice [] (.loop x.document)).runOn e.ledger = (.ok (), l) ∧
      ∀ v : Valuation, v.SatisfiesSince e.ledger l →
        (Instrument.ComesBack e.slice v x → (Instrument.onLoop e.slice x.document x).eval v) ∧
        ((Instrument.onLoop e.slice x.document x).eval v → Instrument.ComesBack e.slice v x ∨
          ∃ y, ReflTransGen (Instrument.SendsTo e.slice v) x y ∧ Instrument.Returns e.slice v y) ∧
        ((∃ t, x = .text t) → (Instrument.ComesBack e.slice v x ↔ Instrument.Returns e.slice v x)) := by
  have hclosed := isClosed_of_encode he
  have hext := addLoop_extends e.slice x.document e.ledger
  have hok : ((Instrument.addLoop e.slice x.document).runOn e.ledger).1 = .ok () := by
    obtain ⟨l₁, hdeclared, -⟩ := declareEach_extends e.slice [("on-loop", .bool)] x.document.shown e.ledger
    have hname : x.document.asName = .ok x := by
      rw [Document.asName, Name.ofDocument?_document]
    rw [Instrument.addLoop, Build.runOn_bind, hdeclared, hname]
    show ((if e.slice.topology.names.contains x then pure () else throw _ : Build Unit).runOn _).1 = _
    rw [if_pos (List.contains_iff_mem.2 hx)]
    rfl
  refine ⟨_, Prod.ext hok rfl, fun v hv => ?_⟩
  have hmeasures : Instrument.MeasuresLoop e.slice v x := fun r hr =>
    hv _ (hext.since ▸ List.mem_map_of_mem hr)
  refine ⟨?_, runsIntoLoop_of_isOnLoop hclosed hmeasures hx, ?_⟩
  · rintro ⟨_, hpath, hsame⟩
    exact isOnLoop_of_sends hclosed hmeasures hsame hpath hx
  · rintro ⟨t, rfl⟩
    exact comesBack_text

instance (v : Valuation) (l l' : Ledger) : Decidable (v.SatisfiesSince l l') :=
  inferInstanceAs (Decidable (∀ c ∈ l.since l', _))

instance (s : Slice) (v : Valuation) (r peer : Name) : Decidable (Instrument.SendsTo s v r peer) :=
  inferInstanceAs (Decidable (∃ d ∈ s.topology.edges r, _ ∧ _))

theorem Encoding.pair_onLoop_isBetween : ∃ e l, (encode pairNetwork {}).result = .ok e ∧
    (Instrument.add e.slice [] (.loop (.text "A"))).runOn e.ledger = (.ok (), l) ∧
    everywhere.SatisfiesSince e.ledger l ∧ Instrument.Returns e.slice everywhere (.text "A") ∧
    (Instrument.onLoop e.slice (.text "A") (.text "A")).eval everywhere ∧
    ∀ v : Valuation, v.SatisfiesSince e.ledger l → (Instrument.onLoop e.slice (.text "A") (.text "A")).eval v →
      ∃ y, ReflTransGen (Instrument.SendsTo e.slice v) (.text "A") y ∧ Instrument.Returns e.slice v y := by
  have hpair : ∃ e, (encode pairNetwork {}).result = .ok e ∧ Name.text "A" ∈ e.slice.topology.names ∧
      everywhere.SatisfiesSince e.ledger ((Instrument.add e.slice [] (.loop (.text "A"))).runOn e.ledger).2 ∧
      Instrument.SendsTo e.slice everywhere (.text "A") (.text "B") ∧
      Instrument.SendsTo e.slice everywhere (.text "B") (.text "A") := by
    decide +kernel
  obtain ⟨e, he, hname, hv, hthere, hback⟩ := hpair
  obtain ⟨l, hrun, hbetween⟩ := onLoop_isBetween he hname
  have hl : ((Instrument.add e.slice [] (.loop (.text "A"))).runOn e.ledger).2 = l := congrArg Prod.snd hrun
  rw [hl] at hv
  have hreturns : Instrument.Returns e.slice everywhere (.text "A") := .tail (.single hthere) hback
  refine ⟨e, l, he, hrun, hv, hreturns, (hbetween _ hv).1 hreturns.comesBack, fun v hv hloop => ?_⟩
  obtain ⟨-, honly, htext⟩ := hbetween v hv
  obtain hcomes | hruns := honly hloop
  · exact ⟨_, .refl, (htext ⟨_, rfl⟩).1 hcomes⟩
  · exact hruns

end ControlPlane
