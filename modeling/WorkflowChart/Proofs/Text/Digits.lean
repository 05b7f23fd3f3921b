/-!
# Numbers as digits

* **`hexDigits_injective`**, **`decimalDigits_injective`**: the digits of a number determine it.
* **`head?_toDigits_ne_zero`**: only the number zero begins with a zero.
* **`eq_zero_of_isDigit`**: only the digit zero has the value zero.
-/

namespace WorkflowChart

/-- The digits of a number in hexadecimal determine the number. -/
theorem hexDigits_injective {m n : Nat} (h : Nat.toDigits 16 m = Nat.toDigits 16 n) : m = n := by
  have hdigit : ∀ a < 16, ∀ b < 16, Nat.digitChar a = Nat.digitChar b → a = b := by decide
  induction m using Nat.strongRecOn generalizing n with
  | _ m ih =>
    -- a number below 16 has one digit, and any other has at least one digit more
    rcases Nat.lt_or_ge m 16 with hm | hm <;> rcases Nat.lt_or_ge n 16 with hn | hn
    · rw [Nat.toDigits_of_lt_base hm, Nat.toDigits_of_lt_base hn] at h
      exact hdigit m hm n hn (List.head_eq_of_cons_eq h)
    · rw [Nat.toDigits_of_lt_base hm, Nat.toDigits_of_base_le (by decide) hn] at h
      have hlength := congrArg List.length h
      have hpos : 0 < (Nat.toDigits 16 (n / 16)).length := Nat.length_toDigits_pos
      simp only [List.length_append, List.length_singleton] at hlength
      omega
    · rw [Nat.toDigits_of_lt_base hn, Nat.toDigits_of_base_le (by decide) hm] at h
      have hlength := congrArg List.length h
      have hpos : 0 < (Nat.toDigits 16 (m / 16)).length := Nat.length_toDigits_pos
      simp only [List.length_append, List.length_singleton] at hlength
      omega
    · rw [Nat.toDigits_of_base_le (by decide) hm, Nat.toDigits_of_base_le (by decide) hn] at h
      obtain ⟨hinit, hlast⟩ := List.append_inj' h rfl
      have hquot := ih (m / 16) (by omega) hinit
      have hrem := hdigit (m % 16) (by omega) (n % 16) (by omega) (List.head_eq_of_cons_eq hlast)
      omega

/-- The digits of a number in decimal determine the number. -/
theorem decimalDigits_injective {m n : Nat} (h : Nat.toDigits 10 m = Nat.toDigits 10 n) :
    m = n := by
  rw [← Nat.ofDigitChars_ten_toDigits (n := m), h, Nat.ofDigitChars_ten_toDigits]

/-- The digits of a number other than zero do not begin with a zero. -/
theorem head?_toDigits_ne_zero {n : Nat} (h : n ≠ 0) : (Nat.toDigits 10 n).head? ≠ some '0' := by
  induction n using Nat.strongRecOn with
  | _ n ih =>
    rcases Nat.lt_or_ge n 10 with hn | hn
    · rw [Nat.toDigits_of_lt_base hn, List.head?_cons, Ne, Option.some.injEq,
        Nat.digitChar_eq_zero]
      exact h
    · have hhead := ih (n / 10) (by omega) (by omega)
      rw [Nat.toDigits_of_base_le (by decide) hn, List.head?_append]
      cases hquot : (Nat.toDigits 10 (n / 10)).head? with
      | none => exact absurd (List.head?_eq_none_iff.1 hquot) Nat.toDigits_ne_nil
      | some c =>
        rw [hquot] at hhead
        exact hhead

/-- Only the digit zero has the value zero. -/
theorem eq_zero_of_isDigit {c : Char} (hdigit : c.isDigit = true) (hvalue : c.toNat - 48 = 0) :
    c = '0' := by
  rw [Char.isDigit_iff_toNat] at hdigit
  have hle : c.toNat = 48 := by
    have := hdigit.1
    change 48 ≤ c.toNat at this
    omega
  exact Char.ext (UInt32.toNat_inj.1 hle)

end WorkflowChart
