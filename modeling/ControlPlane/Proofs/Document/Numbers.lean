import ControlPlane.Document.Decode
import ControlPlane.Proofs.Ledger.Run

/-!
# Documents that stand for numbers

The same number can be written in several ways.  `Document.Means` says which whole number a document stands for; it
is one number at most, and documents that are the same value stand for the same one.
-/
namespace ControlPlane.Document

variable {d : Document} {least m n : Int}

/-! ## §1. Equal numbers -/

theorem scaled_shift (a : Int × Int) {lower : Int} (hl : lower ≤ least) (ha : least ≤ a.2) :
    scaled a lower = scaled a least * (10 ^ (least - lower).toNat : Nat) := by
  unfold scaled
  have hexponent : (a.2 - lower).toNat = (a.2 - least).toNat + (least - lower).toNat := by omega
  rw [hexponent, show Nat.pow 10 ((a.2 - least).toNat + (least - lower).toNat) = _ from Nat.pow_add ..]
  rw [Int.mul_assoc]
  rfl

/-- Numbers are compared in any unit that is small enough. -/
theorem numberEq_iff {a b : Int × Int} (ha : least ≤ a.2) (hb : least ≤ b.2) :
    numberEq a b ↔ scaled a least = scaled b least := by
  have hmin : least ≤ min a.2 b.2 := by omega
  have hpos : ((10 ^ (min a.2 b.2 - least).toNat : Nat) : Int) ≠ 0 := by
    have : 0 < 10 ^ (min a.2 b.2 - least).toNat := Nat.pow_pos (by omega)
    omega
  rw [scaled_shift a hmin (by omega), scaled_shift b hmin (by omega), Int.mul_eq_mul_right_iff hpos]
  exact beq_iff_eq

theorem numberEq_trans {a b c : Int × Int} (hab : numberEq a b) (hcb : numberEq c b) :
    numberEq c a := by
  have hle : min a.2 (min b.2 c.2) ≤ a.2 ∧ min a.2 (min b.2 c.2) ≤ b.2 ∧ min a.2 (min b.2 c.2) ≤ c.2 := by omega
  rw [numberEq_iff hle.1 hle.2.1] at hab
  rw [numberEq_iff hle.2.2 hle.2.1] at hcb
  rw [numberEq_iff hle.2.2 hle.1, hcb, hab]

theorem numberEq_whole (h : numberEq (n, 0) (m, 0)) : n = m := by
  rw [numberEq_iff (Int.le_refl 0) (Int.le_refl 0)] at h
  simpa [scaled] using h

theorem same_of_number {a : Document} {n : Int × Int} (ha : a.number? = some n) :
    d.same a ↔ ∃ m, d.number? = some m ∧ numberEq m n := by
  -- a number on the left is compared with what the right stands for
  have hleft : ∀ m, (∃ k, some m = some k ∧ numberEq k n) ↔
      (a.number?.map (numberEq m)).getD false := by
    intro m
    rw [ha]
    simp
  cases d with
  | bool b => exact (hleft _).symm
  | int k => exact (hleft _).symm
  | real m e => exact (hleft _).symm
  | null | text _ | list _ | object _ =>
    cases a <;> simp_all [same, number?]

theorem same_self (h : d.isScalar) : d.same d := by
  cases d with
  | null => rfl
  | text s => simp [same]
  | bool b => simp [same, number?, numberEq]
  | int k => simp [same, number?, numberEq]
  | real m e => simp [same, number?, numberEq]
  | list _ | object _ => exact absurd h (by simp [isScalar])

/-! ## §2. The number of a document -/

def Means (d : Document) (n : Int) : Prop := d.integer = .ok n ∨ d.same (.int n)

theorem number?_of_integer (h : d.integer = .ok n) : d.number? = some (n, 0) ∨ ∃ s, d = .text s := by
  cases d with
  | int k =>
    cases h
    exact .inl rfl
  | bool b =>
    cases h
    exact .inl rfl
  | text s => exact .inr ⟨s, rfl⟩
  | null | real _ _ | list _ | object _ => exact absurd h (by simp [integer])

theorem Means.unique (hn : d.Means n) (hm : d.Means m) : n = m := by
  have hmixed : ∀ {n m : Int}, d.integer = .ok n → d.same (.int m) → n = m := by
    intro n m hn hm
    obtain ⟨k, hk, heq⟩ := (same_of_number (n := (m, 0)) rfl).1 hm
    rcases number?_of_integer hn with hnumber | ⟨s, rfl⟩
    · cases hnumber.symm.trans hk
      exact numberEq_whole heq
    · exact absurd hk (by simp [number?])
  rcases hn with hn | hn <;> rcases hm with hm | hm
  · exact Except.ok.inj (hn.symm.trans hm)
  · exact hmixed hn hm
  · exact (hmixed hm hn).symm
  · obtain ⟨k, hk, hkn⟩ := (same_of_number (n := (n, 0)) rfl).1 hn
    obtain ⟨k', hk', hkm⟩ := (same_of_number (n := (m, 0)) rfl).1 hm
    cases hk.symm.trans hk'
    have hback : numberEq (n, 0) (n, 0) := by simp [numberEq]
    have hnk := numberEq_trans hkn hback
    have hmk : numberEq (m, 0) k := numberEq_trans hkm (by simp [numberEq])
    exact (numberEq_whole (numberEq_trans hnk hmk)).symm

theorem means_of_same {c a : Document} (hc : c.integer = .ok n) (hca : c.same a) (hda : d.same a) :
    d.Means n := by
  rcases number?_of_integer hc with hnumber | ⟨s, rfl⟩
  · -- a number
    have ha : ∃ k, a.number? = some k := by
      cases c <;> cases a <;> simp_all [same, number?]
    obtain ⟨k, hk⟩ := ha
    obtain ⟨m, hm, hmk⟩ := (same_of_number hk).1 hca
    cases hnumber.symm.trans hm
    obtain ⟨m', hm', hmk'⟩ := (same_of_number hk).1 hda
    exact .inr ((same_of_number (n := (n, 0)) rfl).2 ⟨m', hm', numberEq_trans hmk hmk'⟩)
  · -- a text is only the same as itself
    have ha : a = .text s := by
      cases a <;> simp_all [same]
    subst ha
    have hd : d = .text s := by
      cases d <;> simp_all [same, number?]
    exact .inl (hd ▸ hc)

/-! ## §3. Documents that are all the same -/

/-- Documents of which one is left without repetitions are all the same as one of them. -/
theorem same_of_distinct {items kept : List Document} (h : distinct items = .ok kept) (hone : kept.length ≤ 1) :
    ∃ a, ∀ c ∈ items, c.same a := by
  obtain ⟨scalars, hscalars, h⟩ := bind_eq_ok.1 h
  cases h
  have hscalar : ∀ x y : Document, scalar x = .ok y → x = y ∧ x.isScalar := by
    intro x y hxy
    unfold scalar at hxy
    split at hxy
    next hx => exact ⟨Except.ok.inj hxy, hx⟩
    next => cases hxy
  obtain rfl : items = scalars := by
    rw [← List.forall₂_eq_eq_eq]
    exact (mapM_eq_ok.1 hscalars).imp fun x y hxy => (hscalar x y hxy).1
  cases items with
  | nil => exact ⟨.null, nofun⟩
  | cons a rest =>
    rw [List.eraseDups_cons, List.length_cons] at hone
    have hnil : (rest.filter fun b => !b == a) = [] := by
      cases hrest : rest.filter fun b => !b == a with
      | nil => rfl
      | cons b more =>
        rw [hrest, List.eraseDups_cons, List.length_cons] at hone
        omega
    refine ⟨a, List.forall_mem_cons.2 ⟨?_, fun c hc => ?_⟩⟩
    · obtain ⟨y, -, hy⟩ := exists_of_mapM_eq_ok hscalars List.mem_cons_self
      exact same_self (hscalar a y hy).2
    · have hkept : (c == a) := by simpa using List.filter_eq_nil_iff.1 hnil c hc
      exact hkept

theorem truthy_of_same {a b : Document} (h : a.same b) : a.truthy = b.truthy := by
  have hnumber : ∀ {d : Document} {n : Int × Int}, d.number? = some n → d.truthy = (n.1 != 0) := by
    intro d n hn
    cases d with
    | bool b =>
      cases hn
      cases b <;> rfl
    | int k =>
      cases hn
      rfl
    | real m e =>
      cases hn
      rfl
    | _ => exact absurd hn (by simp [number?])
  cases hb : b.number? with
  | some n =>
    obtain ⟨m, hm, hmn⟩ := (same_of_number hb).1 h
    have hle : min m.2 n.2 ≤ m.2 ∧ min m.2 n.2 ≤ n.2 := by omega
    have heq := (numberEq_iff hle.1 hle.2).1 hmn
    rw [hnumber hm, hnumber hb, Bool.eq_iff_iff, bne_iff_ne, bne_iff_ne, not_iff_not]
    have hpos : ∀ k : Nat, ((10 ^ k : Nat) : Int) ≠ 0 := fun k => by
      have := Nat.pow_pos (n := k) (show 0 < 10 by omega)
      omega
    have hzero : ∀ (x : Int × Int) (least : Int), scaled x least = 0 ↔ x.1 = 0 := by
      intro x least
      unfold scaled
      rw [Int.mul_eq_zero]
      exact or_iff_left (hpos _)
    rw [← hzero m (min m.2 n.2), heq, hzero]
  | none =>
    -- what is no number is only the same as something of its kind
    cases b with
    | list ys =>
      cases a with
      | list xs => cases xs <;> cases ys <;> simp_all [same, sameItems, truthy]
      | _ => simp_all [same, number?]
    | object fs =>
      cases a with
      | object es => cases es <;> cases fs <;> simp_all [same, truthy]
      | _ => simp_all [same, number?]
    | _ => cases a <;> simp_all [same, number?, truthy]

end ControlPlane.Document
