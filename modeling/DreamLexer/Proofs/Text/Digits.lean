import DreamLexer.Text.Decimal

/-!
# Digits of a number

A number is told by its digits in any base up to sixteen. In decimal digits it is read back, and
only zero starts with a zero.
-/

namespace DreamLexer.Text

variable {base n m : Nat} {c : Char}

theorem digitChar_inj : ∀ n < 16, ∀ m < 16, Nat.digitChar n = Nat.digitChar m → n = m := by
  decide

theorem mem_toDigits (base_gt : 1 < base) (member : c ∈ Nat.toDigits base n) :
    ∃ digit < base, c = Nat.digitChar digit := by
  induction n using Nat.strongRecOn with
  | ind n ih =>
    by_cases single : n < base
    · rw [Nat.toDigits_of_lt_base single, List.mem_singleton] at member
      exact ⟨n, single, member⟩
    · rw [Nat.toDigits_of_base_le base_gt (by omega), List.mem_append, List.mem_singleton]
        at member
      cases member with
      | inl front => exact ih (n / base) (Nat.div_lt_self (by omega) base_gt) front
      | inr last => exact ⟨n % base, Nat.mod_lt n (by omega), last⟩

theorem toDigits_inj (base_gt : 1 < base) (base_le : base ≤ 16)
    (same : Nat.toDigits base n = Nat.toDigits base m) : n = m := by
  induction n using Nat.strongRecOn generalizing m with
  | ind n ih =>
    rw [Nat.toDigits_eq_if base_gt, Nat.toDigits_eq_if (n := m) base_gt] at same
    split at same <;> split at same
    next single single' =>
      exact digitChar_inj n (by omega) m (by omega) (List.singleton_inj.1 same)
    next => simpa using congrArg List.length same
    next => simpa using congrArg List.length same
    next many many' =>
      obtain ⟨front, last⟩ := List.append_inj' same rfl
      have quotient : n / base = m / base :=
        ih (n / base) (Nat.div_lt_self (by omega) base_gt) front
      have remainder : n % base = m % base := by
        have below : n % base < base := Nat.mod_lt n (by omega)
        have below' : m % base < base := Nat.mod_lt m (by omega)
        exact digitChar_inj _ (by omega) _ (by omega) (List.singleton_inj.1 last)
      rw [← Nat.div_add_mod n base, quotient, remainder, Nat.div_add_mod]

/-- Only zero has a zero in front. -/
theorem head?_toDigits (positive : 0 < n) : (Nat.toDigits 10 n).head? ≠ some '0' := by
  induction n using Nat.strongRecOn with
  | ind n ih =>
    by_cases single : n < 10
    · rw [Nat.toDigits_of_lt_base single]
      simpa using Nat.ne_of_gt positive
    · have front := ih (n / 10) (by omega) (by omega)
      rw [Nat.toDigits_of_base_le (by decide) (by omega), List.head?_append]
      cases first : (Nat.toDigits 10 (n / 10)).head? with
      | none => exact absurd (List.head?_eq_none_iff.1 first) Nat.toDigits_ne_nil
      | some digit =>
        rw [first] at front
        exact front

theorem toList_toString (n : Nat) : (toString n).toList = Nat.toDigits 10 n := by
  rw [Nat.toString_eq_ofList_toDigits, String.toList_ofList]

theorem isDigit_of_mem_toString (member : c ∈ (toString n).toList) : c.isDigit := by
  rw [toList_toString] at member
  exact Nat.isDigit_of_mem_toDigits (by decide) (by decide) member

theorem toString_inj (same : (toString n).toList = (toString m).toList) : n = m := by
  rw [toList_toString, toList_toString] at same
  exact toDigits_inj (by decide) (by decide) same

/-- The digits of a number have it as their value. -/
theorem decimal_toDigits (n : Nat) : decimal (Nat.toDigits 10 n) = n :=
  Nat.ofDigitChars_ten_toDigits

end DreamLexer.Text
