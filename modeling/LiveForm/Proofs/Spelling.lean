import Mathlib.Data.String.Basic
import LiveForm.FieldPath.Basic

/-!
# Spellings of an index

A segment names an index by its decimal digits, but zeros and a plus sign may stand in front of them.

* `toDigits_digitsValue`: without them there is one spelling;
* `FieldPath.index?_toString`: that spelling is read as the index;
* `FieldPath.zero_of_behind`: the other spellings come before it in the order of texts, but for those
  of the first index.
-/

set_option autoImplicit false

namespace LiveForm

open Text

variable {c d : Char} {cs ds : List Char} {i : Nat}

theorem digitChar_digitValue (digit : isAsciiDigit c = true) : Nat.digitChar (digitValue c) = c := by
  obtain ⟨low, high⟩ := Bool.and_eq_true_iff.mp digit
  have low : 48 ≤ c.toNat := of_decide_eq_true low
  have high : c.toNat ≤ 57 := of_decide_eq_true high
  apply Char.toNat_inj.mp
  have value : digitValue c = c.toNat - 48 := rfl
  rw [Nat.toNat_digitChar_of_lt_ten (by omega)]
  omega

theorem digitValue_lt (digit : isAsciiDigit c = true) : digitValue c < 10 := by
  obtain ⟨-, high⟩ := Bool.and_eq_true_iff.mp digit
  have high : c.toNat ≤ 57 := of_decide_eq_true high
  have value : digitValue c = c.toNat - 48 := rfl
  omega

/-- The digits of a positive number begin with another digit than zero. -/
theorem zero_lt_of_toDigits (positive : 0 < i) (digits : Nat.toDigits 10 i = d :: ds) : '0' < d := by
  induction i using Nat.strongRecOn generalizing d ds with
  | ind i ih =>
    by_cases small : i < 10
    · rw [Nat.toDigits_of_lt_base small] at digits
      have chars : ∀ n < 10, 0 < n → '0' < Nat.digitChar n := by decide
      exact (List.cons_eq_cons.mp digits).1 ▸ chars i small positive
    · rw [Nat.toDigits_of_base_le (by omega) (by omega)] at digits
      cases front : Nat.toDigits 10 (i / 10) with
      | nil => exact absurd front Nat.toDigits_ne_nil
      | cons d' ds' =>
        rw [front, List.cons_append] at digits
        exact (List.cons_eq_cons.mp digits).1 ▸ ih (i / 10) (by omega) (by omega) front

/-- Digits are read one after another behind those of a positive number. -/
theorem toDigits_foldl (digits : ∀ c ∈ cs, isAsciiDigit c = true) (positive : 0 < i) :
    Nat.toDigits 10 (cs.foldl (fun n c => 10 * n + digitValue c) i) = Nat.toDigits 10 i ++ cs := by
  induction cs generalizing i with
  | nil => exact (List.append_nil _).symm
  | cons c cs ih =>
    obtain ⟨digit, digits⟩ := List.forall_mem_cons.mp digits
    have last : Nat.toDigits 10 (digitValue c) = [c] := by
      rw [Nat.toDigits_of_lt_base (digitValue_lt digit), digitChar_digitValue digit]
    calc
      _ = Nat.toDigits 10 (10 * i + digitValue c) ++ cs := ih digits (by omega)
      _ = Nat.toDigits 10 i ++ Nat.toDigits 10 (digitValue c) ++ cs := by
        rw [Nat.toDigits_append_toDigits (by omega) positive (digitValue_lt digit)]
      _ = Nat.toDigits 10 i ++ c :: cs := by rw [last, List.append_assoc, List.singleton_append]

/-- Digits without a zero in front are those of the number they spell. -/
theorem toDigits_digitsValue (digits : ∀ x ∈ c :: cs, isAsciiDigit x = true) (front : c ≠ '0') :
    Nat.toDigits 10 (digitsValue (c :: cs)) = c :: cs := by
  obtain ⟨digit, digits⟩ := List.forall_mem_cons.mp digits
  have first : digitsValue (c :: cs) = cs.foldl (fun n c => 10 * n + digitValue c) (digitValue c) := by
    rw [digitsValue, List.foldl_cons, Nat.mul_zero, Nat.zero_add]
  have single : Nat.toDigits 10 (digitValue c) = [c] := by
    rw [Nat.toDigits_of_lt_base (digitValue_lt digit), digitChar_digitValue digit]
  have positive : 0 < digitValue c := by
    refine Nat.pos_of_ne_zero fun zero => front ?_
    rw [← digitChar_digitValue digit, zero]
    rfl
  rw [first, toDigits_foldl digits positive, single, List.singleton_append]

theorem digits?_eq_some {bound : Nat} (h : digits? bound cs = some i) :
    (∀ c ∈ cs, isAsciiDigit c = true) ∧ digitsValue cs = i := by
  unfold digits? at h
  split at h
  · cases h
  · rename_i digits
    rw [Option.ite_none_right_eq_some] at h
    exact ⟨by simpa using (Bool.or_eq_false_iff.mp (Bool.eq_false_iff.mpr digits)).2,
      Option.some.inj h.2⟩

theorem digits?_toDigits (inner : i < wordBound) :
    digits? wordBound (Nat.toDigits 10 i) = some i := by
  have value : digitsValue (Nat.toDigits 10 i) = i :=
    calc
      _ = Nat.ofDigitChars 10 (Nat.toDigits 10 i) 0 := Nat.ofDigitChars_eq_foldl.symm
      _ = i := Nat.ofDigitChars_ten_toDigits
  have digits : ∀ c ∈ Nat.toDigits 10 i, isAsciiDigit c = true := fun c inside =>
    Nat.isDigit_of_mem_toDigits (by decide) (by decide) inside
  rw [digits?, if_neg, value, if_pos inner]
  simpa [Nat.toDigits_ne_nil] using digits

theorem FieldPath.index?_toString (inner : i < wordBound) :
    FieldPath.index? (toString i) = some i := by
  have spelled : (toString i).toList = Nat.toDigits 10 i := Nat.toList_repr
  unfold FieldPath.index? natural? naturalChars?
  rw [spelled]
  split
  · rename_i cs plus
    have digit : ('+').isDigit = true :=
      Nat.isDigit_of_mem_toDigits (by decide) (by decide) (plus ▸ List.mem_cons_self)
    cases digit
  · exact digits?_toDigits inner

/-- A spelling that comes behind the digits of an index in the order of texts is one of the first
index. -/
theorem FieldPath.zero_of_behind {s : String} (index : FieldPath.index? s = some i)
    (behind : toString i < s) : i = 0 := by
  by_contra other
  have behind : Nat.toDigits 10 i < s.toList := by
    rw [← Nat.toList_repr]
    exact String.lt_iff_toList_lt.mp behind
  obtain ⟨d, ds, digits⟩ := List.exists_cons_of_ne_nil (Nat.toDigits_ne_nil (n := i) (b := 10))
  have front : '0' < d := zero_lt_of_toDigits (Nat.pos_of_ne_zero other) digits
  rw [digits] at behind
  unfold FieldPath.index? natural? naturalChars? at index
  split at index
  · -- a plus sign comes before all digits
    rename_i cs plus
    rw [plus, List.cons_lt_cons_iff] at behind
    rcases behind with less | ⟨rfl, -⟩
    · exact absurd (Char.lt_trans front less) (by decide)
    · exact absurd front (by decide)
  · obtain ⟨all, value⟩ := digits?_eq_some index
    cases spelled : s.toList with
    | nil =>
      rw [spelled] at behind
      cases behind
    | cons c cs =>
      by_cases zero : c = '0'
      · -- and so does a zero in front, which the digits of another number do not have
        subst zero
        rw [spelled, List.cons_lt_cons_iff] at behind
        rcases behind with less | ⟨rfl, -⟩
        · exact absurd (Char.lt_trans front less) (Char.lt_irrefl _)
        · exact absurd front (Char.lt_irrefl _)
      · have same := toDigits_digitsValue (spelled ▸ all) zero
        rw [← spelled, value, digits] at same
        rw [same] at behind
        exact absurd behind (List.lt_irrefl _)

end LiveForm
