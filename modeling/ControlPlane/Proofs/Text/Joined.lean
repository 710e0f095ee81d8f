import ControlPlane.Address.Basic
import Mathlib.Data.List.Basic

/-!
# Texts that are joined

Names are made by joining other names, with underscores or with nothing in between.

* `Address.dotted_inj`: addresses are told apart by their dotted forms.
-/
namespace ControlPlane

open List

variable {i j : Nat} {a b base name x y : String}

/-! ## §1. Underscores -/

/-- A list is split in one way at the first occurrence of an item. -/
theorem split_inj {α : Type} {c : α} {a b x y : List α} (ha : c ∉ a) (hb : c ∉ b) (h : a ++ c :: x = b ++ c :: y) :
    a = b ∧ x = y := by
  -- if one front were longer, it would hold the item at which the other one ends
  obtain ⟨z, rfl, hz⟩ | ⟨z, rfl, hz⟩ := append_eq_append_iff.1 h
  · cases z with
    | nil => exact ⟨(append_nil a).symm, (List.cons.inj hz).2⟩
    | cons d rest =>
      obtain ⟨rfl, -⟩ := List.cons.inj hz
      exact absurd (mem_append_right a mem_cons_self) hb
  · cases z with
    | nil => exact ⟨append_nil b, (List.cons.inj hz).2.symm⟩
    | cons d rest =>
      obtain ⟨rfl, -⟩ := List.cons.inj hz
      exact absurd (mem_append_right b mem_cons_self) ha

/-- The same at the last occurrence. -/
theorem split_inj_right {α : Type} {c : α} {a b x y : List α} (ha : c ∉ a) (hb : c ∉ b)
    (h : x ++ c :: a = y ++ c :: b) : x = y ∧ a = b := by
  have hreverse := congrArg List.reverse h
  simp only [reverse_append, reverse_cons, List.append_assoc, singleton_append] at hreverse
  obtain ⟨hab, hxy⟩ := split_inj (fun hc => ha (List.mem_reverse.1 hc)) (fun hc => hb (List.mem_reverse.1 hc)) hreverse
  exact ⟨reverse_inj.1 hxy, reverse_inj.1 hab⟩

/-- Two texts joined by an underscore are told apart when the first one has none. -/
theorem joined_inj (ha : '_' ∉ a.toList) (hb : '_' ∉ b.toList) (h : a ++ "_" ++ x = b ++ "_" ++ y) : a = b ∧ x = y := by
  have hlists : a.toList ++ '_' :: x.toList = b.toList ++ '_' :: y.toList := by
    simpa using congrArg String.toList h
  obtain ⟨hab, hxy⟩ := split_inj ha hb hlists
  exact ⟨String.toList_inj.1 hab, String.toList_inj.1 hxy⟩

/-- Two texts joined by an underscore are told apart when the second one has none. -/
theorem joined_inj_right (ha : '_' ∉ a.toList) (hb : '_' ∉ b.toList) (h : x ++ "_" ++ a = y ++ "_" ++ b) :
    x = y ∧ a = b := by
  have hlists : x.toList ++ '_' :: a.toList = y.toList ++ '_' :: b.toList := by
    simpa using congrArg String.toList h
  obtain ⟨hxy, hab⟩ := split_inj_right ha hb hlists
  exact ⟨String.toList_inj.1 hxy, String.toList_inj.1 hab⟩

theorem labelled_inj {label : String} (ha : '_' ∉ a.toList) (hb : '_' ∉ b.toList)
    (h : label ++ a ++ "_" ++ x = label ++ b ++ "_" ++ y) : a = b ∧ x = y := by
  simp only [String.append_assoc] at h
  rw [String.append_right_inj] at h
  simp only [← String.append_assoc] at h
  exact joined_inj ha hb h

/-! ## §2. Numbers -/

theorem toDigits_inj (h : Nat.toDigits 10 i = Nat.toDigits 10 j) : i = j := by
  simpa using congrArg (Nat.ofDigitChars 10 · 0) h

/-- Whether a name is another one followed by digits. -/
def isNumbered (base name : String) : Bool :=
  let digits := name.toList.drop base.toList.length
  base.toList.isPrefixOf name.toList && !digits.isEmpty && digits.all Char.isDigit

theorem isNumbered_iff : isNumbered base name ↔
    ∃ digits : List Char, name.toList = base.toList ++ digits ∧ digits ≠ [] ∧ ∀ c ∈ digits, c.isDigit := by
  unfold isNumbered
  simp only [Bool.and_eq_true, isPrefixOf_iff_prefix, Bool.not_eq_true', List.isEmpty_eq_false_iff,
    all_eq_true]
  constructor
  · rintro ⟨⟨⟨digits, h⟩, hne⟩, hall⟩
    rw [← h, drop_left] at hne hall
    exact ⟨digits, h.symm, hne, hall⟩
  · rintro ⟨digits, h, hne, hall⟩
    rw [h, List.drop_left]
    exact ⟨⟨List.prefix_append _ _, hne⟩, hall⟩

/-- Two numbers behind two names only make one text where one name is the other one followed by digits. -/
theorem isNumbered_of_append {b' : String} (hij : i ≠ j) (h : b ++ toString i = b' ++ toString j) :
    isNumbered b b' ∨ isNumbered b' b := by
  have hdigits : b.toList ++ Nat.toDigits 10 i = b'.toList ++ Nat.toDigits 10 j := by
    simpa [Nat.toString_eq_repr] using congrArg String.toList h
  have hne : Nat.toDigits 10 i ≠ Nat.toDigits 10 j := fun e => hij (toDigits_inj e)
  obtain ⟨digits, hb, hi⟩ | ⟨digits, hb, hj⟩ := append_eq_append_iff.1 hdigits
  · refine .inl (isNumbered_iff.2 ⟨digits, hb, ?_, fun c hc => ?_⟩)
    · rintro rfl
      exact hne hi
    · exact Nat.isDigit_of_mem_toDigits (by decide) (by decide) (hi ▸ mem_append_left _ hc)
  · refine .inr (isNumbered_iff.2 ⟨digits, hb, ?_, fun c hc => ?_⟩)
    · rintro rfl
      exact hne hj.symm
    · exact Nat.isDigit_of_mem_toDigits (by decide) (by decide) (hj ▸ mem_append_left _ hc)

theorem isNumbered_append_left (label b b' : String) : isNumbered (label ++ b) (label ++ b') = isNumbered b b' := by
  rw [Bool.eq_iff_iff, isNumbered_iff, isNumbered_iff]
  simp only [String.toList_append, List.append_assoc, List.append_cancel_left_eq]

def endsInDigit (name : String) : Bool := name.toList.getLast?.any Char.isDigit

theorem endsInDigit_of_isNumbered (h : isNumbered base name) : endsInDigit name := by
  obtain ⟨digits, hname, hne, hall⟩ := isNumbered_iff.1 h
  unfold endsInDigit
  rw [hname, getLast?_append_of_ne_nil _ hne, getLast?_eq_some_getLast hne]
  exact hall _ (getLast_mem hne)

/-! ## §3. Addresses -/

theorem octet_inj {x y : List Char} (h : Nat.toDigits 10 i ++ '.' :: x = Nat.toDigits 10 j ++ '.' :: y) :
    i = j ∧ x = y := by
  have hpoint : ∀ k, '.' ∉ Nat.toDigits 10 k := fun k hmem =>
    absurd (Nat.isDigit_of_mem_toDigits (by decide) (by decide) hmem) (by decide)
  obtain ⟨hdigits, hrest⟩ := split_inj (hpoint i) (hpoint j) h
  exact ⟨toDigits_inj hdigits, hrest⟩

theorem Address.dotted_inj {a b : Address} (h : a.dotted = b.dotted) : a = b := by
  have hlists := congrArg String.toList h
  simp only [dotted, Nat.toString_eq_repr, String.toList_append, Nat.toList_repr, List.append_assoc] at hlists
  obtain ⟨h3, hlists⟩ := octet_inj hlists
  obtain ⟨h2, hlists⟩ := octet_inj hlists
  obtain ⟨h1, hlists⟩ := octet_inj hlists
  have h0 := toDigits_inj hlists
  -- the octets make up the value
  have hvalue : a.value = b.value := by
    have ha : a.value < 4294967296 := a.isLt
    have hb : b.value < 4294967296 := b.isLt
    have h0 : a.value / 1 % 256 = b.value / 1 % 256 := h0
    have h1 : a.value / 256 % 256 = b.value / 256 % 256 := h1
    have h2 : a.value / 65536 % 256 = b.value / 65536 % 256 := h2
    have h3 : a.value / 16777216 % 256 = b.value / 16777216 % 256 := h3
    omega
  cases a
  cases b
  simpa using hvalue

end ControlPlane
