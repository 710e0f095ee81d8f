import ControlPlane.Proofs.Address.Prefixes
import ControlPlane.Proofs.Slice.Independence
import ControlPlane.Verification.Report

/-!
# Decoding models

Decoding hands the numbers of a model to the readers of addresses and subnets, which fail out of their ranges.  The
bounds of an encoding cover every number that is decoded.
-/
namespace ControlPlane

open List

/-! ## §1. Readers of numbers -/

theorem Address.exists_ofInt {n : Int} (hn : 0 ≤ n ∧ n < 4294967296) : ∃ a, Address.ofInt n = .ok a := by
  have hlt : n.toNat < addressSpace := by
    unfold addressSpace
    omega
  unfold Address.ofInt
  rw [if_neg (Int.not_lt.2 hn.1), dif_pos hlt]
  exact ⟨_, rfl⟩

theorem Subnet.contains_around (a : Address) {k : Nat} (hk : k ≤ 32) : (around a k hk).contains a.value :=
  contains_iff.2 (Nat.mul_div_cancel _ (blockSize_pos k)).symm

theorem Subnet.exists_ofInts {n k : Int} {a : Address} (ha : Address.ofInt n = .ok a) (hk : 0 ≤ k ∧ k ≤ 32) :
    ∃ s, Subnet.ofInts n k = .ok s ∧ s.contains a.value := by
  have hlength : k.toNat ≤ 32 := by omega
  refine ⟨around a k.toNat hlength, ?_, contains_around a hlength⟩
  unfold Subnet.ofInts
  rw [ha]
  show (if _ then _ else _) = _
  rw [if_neg (Int.not_lt.2 hk.1), dif_pos hlength]
  rfl

/-! ## §2. Failed links -/

theorem Term.count_le_sum {v : Valuation} {ts : List (Term .int)} (h : ∀ t ∈ ts, 0 ≤ t.eval v) :
    (ts.countP fun t => decide (t.eval v = 1) : Int) ≤ (Term.sum ts).eval v := by
  show _ ≤ (evalInts v ts).foldr Int.add 0
  rw [evalInts_eq]
  induction ts with
  | nil => exact Int.le_refl 0
  | cons t rest ih =>
    have hhead : ((if decide (t.eval v = 1) then 1 else 0 : Nat) : Int) ≤ t.eval v := by
      split
      next hone => exact Int.le_of_eq (of_decide_eq_true hone).symm
      next => exact h t mem_cons_self
    have htail := ih fun t' ht' => h t' (mem_cons_of_mem _ ht')
    rw [countP_cons, Int.natCast_add, Int.add_comm]
    exact Int.add_le_add hhead htail

/-- **No more links fail than the bound says**, and none if it is negative. -/
theorem Slice.IsState.failed_le {s : Slice} {failures : Document} {v : Valuation} {k : Int} {cs : List (Term .bool)}
    (h : s.IsState failures v) (hcs : failureConstraints failures (s.topology.failureTerms s.tag) = .ok cs)
    (hk : failures.integer = .ok k) :
    ((s.topology.failureTerms s.tag).countP fun t => decide (t.eval v = 1) : Int) ≤ max k 0 := by
  rcases Slice.failures_of_constraints hcs (h.failures cs hcs) with hzero | ⟨n, hn, hsum⟩
  · have hnone : (s.topology.failureTerms s.tag).countP (fun t => decide (t.eval v = 1)) = 0 :=
      countP_eq_zero.2 fun t ht => by simp [hzero t ht]
    rw [hnone]
    exact Int.le_max_right k 0
  · obtain rfl : k = n := Except.ok.inj (hk.symm.trans hn)
    exact Int.le_trans (Term.count_le_sum h.failureTerms_nonneg) (Int.le_trans hsum (Int.le_max_left k 0))

/-! ## §3. Reports -/

namespace Encoding

variable {e : Encoding} {m : Model} {a : Address}

theorem decodePacket_ok (hdst : Address.ofInt (e.fieldOf m .dstIp) = .ok a)
    (hsrc : ∃ b, Address.ofInt (e.fieldOf m .srcIp) = .ok b) :
    ∃ packet, e.decodePacket m = .ok packet ∧ packet.lookup "dstIp" = some (.text a.dotted) := by
  obtain ⟨b, hb⟩ := hsrc
  unfold decodePacket
  simp only [hdst, hb]
  split <;> exact ⟨_, rfl, rfl⟩

theorem decodeAnnouncement_ok {x : Record} (hdst : Address.ofInt (e.fieldOf m .dstIp) = .ok a)
    (hlength : 0 ≤ m.int (x.name ++ "_" ++ IntAttribute.prefixLength.suffix) ∧
      m.int (x.name ++ "_" ++ IntAttribute.prefixLength.suffix) ≤ 32) :
    ∃ attributes, e.decodeAnnouncement m x = .ok attributes ∧
      ∃ s : Subnet, attributes.lookup "prefix" = some (.text s.written) ∧ s.contains a.value := by
  obtain ⟨s, hs, hcontains⟩ := Subnet.exists_ofInts hdst hlength
  unfold decodeAnnouncement
  simp only [hs]
  exact ⟨_, rfl, s, rfl, hcontains⟩

theorem decodeEnvironment_ok (hdst : Address.ofInt (e.fieldOf m .dstIp) = .ok a)
    (hlength : ∀ x ∈ e.slice.environment, 0 ≤ m.int (x.2.name ++ "_" ++ IntAttribute.prefixLength.suffix) ∧
      m.int (x.2.name ++ "_" ++ IntAttribute.prefixLength.suffix) ≤ 32) :
    ∃ environment, e.decodeEnvironment m = .ok environment ∧ ∀ x ∈ environment,
      ∃ s : Subnet, x.2.lookup "prefix" = some (.text s.written) ∧ s.contains a.value := by
  let decode : Record → Except Failure (String × List (String × Document)) :=
    fun r => do return (r.name, ← e.decodeAnnouncement m r)
  have hdecode : ∀ r ∈ (e.slice.environment.map (·.2)).filter fun r => m.bool (r.name ++ "_permitted"),
      ∃ y, decode r = .ok y ∧
        ∃ s : Subnet, y.2.lookup "prefix" = some (.text s.written) ∧ s.contains a.value := by
    intro r hr
    obtain ⟨x, hx, rfl⟩ := mem_map.1 (mem_filter.1 hr).1
    obtain ⟨attributes, hattributes, hprefix⟩ := decodeAnnouncement_ok hdst (hlength x hx)
    exact ⟨(x.2.name, attributes), by simp only [decode, hattributes]; rfl, hprefix⟩
  obtain ⟨decoded, hdecoded⟩ := exists_mapM_eq_ok fun r hr => (hdecode r hr).imp fun _ h => h.1
  refine ⟨collect (·.1) decoded, ?_, fun x hx => ?_⟩
  · exact bind_eq_ok.2 ⟨decoded, hdecoded, rfl⟩
  · obtain ⟨r, hr, hx⟩ := exists_of_mem_mapM hdecoded (mem_collect hx)
    obtain ⟨y, hy, hprefix⟩ := hdecode r hr
    obtain rfl : y = x := Except.ok.inj (hy.symm.trans hx)
    exact hprefix

/-- **Every model of an encoding can be decoded**, whatever is added to the encoding to ask about a property.  The
prefix of every route that is announced holds the destination of the packet, and no more links fail than are allowed. -/
theorem decoding_isTotal {n : Network} {req : Request} (he : (encode n req).result = .ok e)
    (hm : m.valuation.Satisfies e.ledger) (l : Ledger) (label : Document) :
    ∃ r, { e with ledger := l }.report { answer := .sat m } label = .ok r ∧
      (∃ a : Address, r.packet.lookup "dstIp" = some (.text a.dotted) ∧ ∀ x ∈ r.environment,
        ∃ s : Subnet, x.2.lookup "prefix" = some (.text s.written) ∧ s.contains a.value) ∧
      ∀ k, req.failures.integer = .ok k → (r.failed.length : Int) ≤ max k 0 := by
  obtain ⟨f, rs, hof⟩ := encode_isOf he
  have hstate := hof.sound _ hm
  have hfield : ∀ field limit, (field, limit) ∈ Slice.packetLimits →
      0 ≤ e.fieldOf m field ∧ e.fieldOf m field < limit := by
    intro field limit hlimit
    exact hstate.packet _ hlimit
  obtain ⟨a, ha⟩ := Address.exists_ofInt (hfield .dstIp 4294967296 (by decide))
  obtain ⟨packet, hpacket, hdestination⟩ := decodePacket_ok ha
    (Address.exists_ofInt (hfield .srcIp 4294967296 (by decide)))
  rw [hof.slice] at hstate
  obtain ⟨environment, henvironment, hprefixes⟩ := decodeEnvironment_ok ha fun x hx => by
    rw [hof.slice] at hx
    obtain ⟨lane, -, hlane⟩ := mem_filterMap.1 (show x ∈ f.announcements from hx)
    obtain ⟨-, -, neighbor, -, rfl⟩ := Frame.announcementOf_eq hlane
    have hvalid := hstate.records _ (mem_append_right _ (mem_map_of_mem hx))
    exact hvalid.numbers .prefixLength _ rfl
  refine ⟨_, bind_eq_ok.2 ⟨packet, hpacket, bind_eq_ok.2 ⟨environment, henvironment, rfl⟩⟩,
    ⟨a, hdestination, hprefixes⟩, fun k hk => ?_⟩
  obtain ⟨cs, hcs⟩ := hof.bounded
  have hle := hstate.failed_le hcs hk
  show ((e.decodeFailures m).length : Int) ≤ _
  unfold decodeFailures
  rw [hof.slice, ← countP_eq_length_filter, countP_map]
  rw [Topology.failureTerms, countP_map] at hle
  exact hle

/-- The neighbor announces a route over a link that has failed. -/
def lostModel : Model where
  entries := [
    ("FAILED-EDGE_A_i", .int 1), ("SLICE-MAIN_dst-ip", .int 168361989),
    ("SLICE-MAIN_A_BGP_ENV-10.0.0.2_EXPORT_permitted", .bool true),
    ("SLICE-MAIN_A_BGP_ENV-10.0.0.2_EXPORT_prefixLength", .int 24),
    ("SLICE-MAIN_SSA_RETURN1", .bool true), ("SLICE-MAIN_SSA_RETURN2", .bool true),
    ("SLICE-MAIN_SSA_RETURN3", .bool true), ("SLICE-MAIN_SSA_RETURN4", .bool true)]

theorem lost_decoding_isTotal : ∃ e, (encode peeredNetwork { failures := .int 1 }).result = .ok e ∧
    lostModel.valuation.Satisfies e.ledger ∧
    ∃ r, e.report { answer := .sat lostModel } .null = .ok r ∧
      (∃ a : Address, r.packet.lookup "dstIp" = some (.text a.dotted) ∧ ∀ x ∈ r.environment,
        ∃ s : Subnet, x.2.lookup "prefix" = some (.text s.written) ∧ s.contains a.value) ∧
      (r.failed.length : Int) ≤ 1 := by
  have hexists : ∃ e, (encode peeredNetwork { failures := .int 1 }).result = .ok e ∧
      lostModel.valuation.Satisfies e.ledger := by decide +kernel
  obtain ⟨e, he, hm⟩ := hexists
  obtain ⟨r, hr, hprefixes, hfailed⟩ := decoding_isTotal he hm e.ledger .null
  exact ⟨e, he, hm, r, hr, hprefixes, hfailed 1 rfl⟩

end Encoding

end ControlPlane
