import ControlPlane.Proofs.Slice.Filters

/-!
# Subnets as bit prefixes

A subnet is matched by comparing an address with its first and its last one.  This is the comparison of leading bits
(`Subnet.contains_iff`), at every length, and so two subnets overlap only where one of them lies in the other one.
-/
namespace ControlPlane.Subnet

variable {s t : Subnet} {n x y : Nat}

/-! ## §1. Blocks -/

theorem blockSize_pos (n : Nat) : 0 < blockSize n := Nat.two_pow_pos _

theorem contains_iff : s.contains x ↔ x / blockSize s.length = s.base / blockSize s.length := by
  have hpos := blockSize_pos s.length
  obtain ⟨k, hk⟩ := Nat.dvd_of_mod_eq_zero s.aligned
  simp only [contains, first, last, Bool.and_eq_true, decide_eq_true_eq, hk]
  rw [Nat.mul_div_cancel_left k hpos, Nat.div_eq_iff hpos]
  rw [Nat.mul_comm k]

theorem contains_of_common (hlength : s.length ≤ t.length) (hs : s.contains x) (ht : t.contains x)
    (hy : t.contains y) : s.contains y := by
  rw [contains_iff] at hs ht hy ⊢
  have hsize : blockSize s.length = blockSize t.length * 2 ^ (t.length - s.length) := by
    have hle := t.length_le
    show 2 ^ _ = 2 ^ _ * 2 ^ _
    rw [← Nat.pow_add]
    congr 1
    omega
  rw [hsize, ← Nat.div_div_eq_div_mul] at hs ⊢
  rw [← Nat.div_div_eq_div_mul, hy, ← ht, hs, Nat.div_div_eq_div_mul]

/-! ## §2. Leading bits -/

/-- Two numbers have the same first `n` of 32 bits. -/
def SharesBits (n x y : Nat) : Prop := ∀ i < n, x.testBit (31 - i) = y.testBit (31 - i)

instance (n x y : Nat) : Decidable (SharesBits n x y) := inferInstanceAs (Decidable (∀ i < n, _))

theorem sharesBits_iff (hn : n ≤ 32) (hx : x < addressSpace) (hy : y < addressSpace) :
    SharesBits n x y ↔ x / blockSize n = y / blockSize n := by
  have hbit : ∀ z i, (z / blockSize n).testBit i = z.testBit (i + (32 - n)) := fun z i => Nat.testBit_div_two_pow z i
  constructor
  · intro h
    apply Nat.eq_of_testBit_eq
    intro i
    rw [hbit, hbit]
    by_cases hi : i < n
    · have hplace : i + (32 - n) = 31 - (n - 1 - i) := by omega
      rw [hplace]
      exact h _ (by omega)
    · have hlarge : 2 ^ 32 ≤ 2 ^ (i + (32 - n)) := Nat.pow_le_pow_right (by decide) (by omega)
      rw [Nat.testBit_lt_two_pow (Nat.lt_of_lt_of_le hx hlarge), Nat.testBit_lt_two_pow (Nat.lt_of_lt_of_le hy hlarge)]
  · intro h i hi
    have hplace : 31 - i = n - 1 - i + (32 - n) := by omega
    rw [hplace, ← hbit, ← hbit, h]

/-- A subnet holds the addresses of its block, also where its length is zero and nothing is compared. -/
theorem inSubnet_iff (s : Subnet) (a : Address) : Policy.inSubnet s a.value ↔ s.contains a.value := by
  by_cases hzero : s.length = 0
  · simp [Policy.inSubnet, hzero, contains_of_length_zero hzero a.isLt]
  · simp [Policy.inSubnet, hzero, contains]

/-! ## §3. Matching -/

def Includes (s t : Subnet) : Prop := ∀ x, t.contains x → s.contains x

theorem contains_first (s : Subnet) : s.contains s.first := contains_iff.2 rfl

theorem contains_last (s : Subnet) : s.contains s.last := by
  have hle : s.first ≤ s.last := Nat.le_sub_of_add_le (Nat.add_le_add_left (blockSize_pos s.length) s.base)
  simp [contains, hle]

theorem overlaps_iff_includes : s.overlaps t ↔ s.Includes t ∨ t.Includes s := by
  constructor
  · intro h
    obtain ⟨x, hs, ht⟩ : ∃ x, s.contains x ∧ t.contains x := by
      simp only [overlaps, Bool.or_eq_true] at h
      rcases h with ((h | h) | h) | h
      · exact ⟨_, h, t.contains_first⟩
      · exact ⟨_, h, t.contains_last⟩
      · exact ⟨_, s.contains_first, h⟩
      · exact ⟨_, s.contains_last, h⟩
    rcases Nat.le_total s.length t.length with hle | hle
    · exact .inl fun _ => contains_of_common hle hs ht
    · exact .inr fun _ => contains_of_common hle ht hs
  · simp only [overlaps, Bool.or_eq_true]
    rintro (h | h)
    · exact .inl (.inl (.inl (h _ t.contains_first)))
    · exact .inl (.inr (h _ s.contains_first))

/-- **Matching a subnet is matching its leading bits.**  An address matches a subnet if it has the first bits of the
subnet, which are those that were written; two subnets overlap if some address matches both, which is the case if one of
them lies in the other one. -/
theorem matching_isBitwise (p q : Subnet) {v : Valuation} {x : Term .int} {a : Address} (hx : x.eval v = a.value) :
    ((p.holdsOf x).eval v ↔ SharesBits p.length a.value p.base) ∧
      (∀ h : Host, SharesBits h.length h.subnet.base h.address.value) ∧
      (p.overlaps q ↔ ∃ b : Address, (p.holdsOf (.intLit b.value)).eval v ∧
        (q.holdsOf (.intLit b.value)).eval v) ∧
      (p.overlaps q ↔ p.Includes q ∨ q.Includes p) := by
  refine ⟨?_, fun h => ?_, ?_, overlaps_iff_includes⟩
  · rw [eval_holdsOf, hx, sharesBits_iff p.length_le a.isLt p.base_lt, ← contains_iff]
    exact inSubnet_iff p a
  · rw [sharesBits_iff h.length_le h.subnet.base_lt h.address.isLt]
    exact Nat.mul_div_cancel _ (blockSize_pos _)
  · simp only [eval_holdsOf]
    constructor
    · intro h
      rcases overlaps_iff_includes.1 h with h | h
      · exact ⟨⟨q.base, q.base_lt⟩, (inSubnet_iff p _).2 (h _ q.contains_first), (inSubnet_iff q _).2 q.contains_first⟩
      · exact ⟨⟨p.base, p.base_lt⟩, (inSubnet_iff p _).2 p.contains_first, (inSubnet_iff q _).2 (h _ p.contains_first)⟩
    · rintro ⟨b, hp, hq⟩
      exact overlaps_of_inSubnet hp hq

theorem nested_matching_isBitwise : ∃ (p q : Subnet) (a : Address) (v : Valuation),
    p.length = 16 ∧ q.length = 24 ∧ v.int "dst-ip" = a.value ∧ SharesBits p.length a.value p.base ∧
      (p.holdsOf (.intVar "dst-ip")).eval v ∧ (p.Includes q ∨ q.Includes p) := by
  let a : Address := ⟨168364293, by decide⟩
  let p : Subnet := around a 16 (by decide)
  let v : Valuation := ⟨fun _ => false, fun _ => 168364293, fun _ => 0⟩
  have hbits : SharesBits p.length a.value p.base := by decide
  obtain ⟨hmatch, -, -, hincludes⟩ :=
    matching_isBitwise p (around a 24 (by decide)) (v := v) (x := .intVar "dst-ip") (a := a) rfl
  exact ⟨p, _, a, v, rfl, rfl, rfl, hbits, hmatch.2 hbits, hincludes.1 (by decide)⟩

end ControlPlane.Subnet
