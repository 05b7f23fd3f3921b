import WorkflowChart.Json.Printer
import WorkflowChart.Proofs.Json.Grammar
import WorkflowChart.Proofs.Text.Digits

/-!
# Numbers that are written and read

A number that the grammar tells of ends where the text does not go on as one. A whole number is
written in decimal digits, with a sign if it is negative, and its numeral stands for it again.

* **`Numeral.EndsNumber`**: what follows a number does not belong to it.
* **`Numeral.scan_append`**: a number is scanned up to its end, whatever follows it.
* **`Numeral.numberText_repr`**: a whole number is written as a number.
* **`Numeral.number?_ofWhole`**: its numeral stands for it.
-/

namespace WorkflowChart.Numeral

/-- A text does not go on as a number. -/
def EndsNumber (rest : List Char) : Prop :=
  ∀ c ∈ rest.head?, c.isDigit = false ∧ c ≠ '.' ∧ c ≠ 'e' ∧ c ≠ 'E'

/-- A number ends where the text does. -/
theorem endsNumber_nil : EndsNumber [] := nofun

/-- A number ends before a character that is no part of one. -/
theorem endsNumber_cons {c : Char} {rest : List Char}
    (h : c.isDigit = false ∧ c ≠ '.' ∧ c ≠ 'e' ∧ c ≠ 'E') : EndsNumber (c :: rest) := by
  intro d hd
  cases hd
  exact h

/-! ## Scanning -/

/-- Digits are read up to the first character that is none. -/
theorem digits_append {ds rest : List Char} (hdigits : ∀ c ∈ ds, c.isDigit = true)
    (hrest : ∀ c ∈ rest.head?, c.isDigit = false) : digits (ds ++ rest) = (values ds, rest) := by
  induction ds with
  | nil =>
    cases rest with
    | nil => rfl
    | cons c rest => simp [digits, values, hrest c rfl]
  | cons c ds ih =>
    rw [List.forall_mem_cons] at hdigits
    rw [List.cons_append, digits, if_pos hdigits.1, ih hdigits.2]
    rfl

/-- Digits are scanned up to the first character that is none, if there are any. -/
theorem someDigits_append {ds rest : List Char} (h : IsDigits ds)
    (hrest : ∀ c ∈ rest.head?, c.isDigit = false) :
    someDigits (ds ++ rest) = .ok (values ds, rest) := by
  obtain ⟨c, more, rfl⟩ := List.exists_cons_of_ne_nil h.1
  rw [someDigits, digits_append h.2 hrest]
  rfl

/-- The whole part of a number is scanned up to its last digit. -/
theorem scanWhole_append {ds rest : List Char} (h : IsWhole ds)
    (hrest : ∀ c ∈ rest.head?, c.isDigit = false) :
    scanWhole (ds ++ rest) = .ok (values ds, rest) := by
  obtain ⟨hdigits, hzero⟩ := h
  rw [scanWhole, someDigits_append hdigits hrest]
  obtain ⟨c, more, rfl⟩ := List.exists_cons_of_ne_nil hdigits.1
  cases more with
  | nil =>
    rw [values, List.map_singleton]
    cases c.toNat - 48 <;> rfl
  | cons d more =>
    -- two digits or more do not begin with a zero
    have hvalue : c.toNat - 48 ≠ 0 := by
      intro hvalue
      have hc := eq_zero_of_isDigit (hdigits.2 c List.mem_cons_self) hvalue
      have hone := hzero (by rw [hc, List.head?_cons])
      cases hone
    obtain ⟨m, hm⟩ := Nat.exists_eq_succ_of_ne_zero hvalue
    rw [values, List.map_cons, List.map_cons, hm]
    rfl

section Parts

variable {text rest : List Char} {fraction : Option (List Nat)}
  {exponent : Option (Bool × List Nat)}

/-- The fraction of a number is scanned, or it is told that there is none. -/
theorem scanFraction_append (h : FractionText text fraction)
    (hrest : ∀ c ∈ rest.head?, c.isDigit = false ∧ c ≠ '.') :
    scanFraction (text ++ rest) = .ok (fraction, rest) := by
  cases h with
  | none =>
    cases rest with
    | nil => rfl
    | cons c rest => simp [scanFraction, (hrest c rfl).2]
  | digits hdigits =>
    rw [List.cons_append, scanFraction, someDigits_append hdigits fun c hc => (hrest c hc).1]
    rfl

/-- Digits are no sign. -/
theorem scanPower_append {ds : List Char} (h : IsDigits ds)
    (hrest : ∀ c ∈ rest.head?, c.isDigit = false) :
    scanPower (ds ++ rest) = .ok (some (false, values ds), rest) := by
  have hscan := someDigits_append h hrest
  obtain ⟨c, more, rfl⟩ := List.exists_cons_of_ne_nil h.1
  have hdigit : c.isDigit = true := h.2 c List.mem_cons_self
  rw [List.cons_append] at hscan ⊢
  rw [scanPower, hscan]
  · rfl
  · rintro text ⟨⟩
    contradiction
  · rintro text ⟨⟩
    contradiction

/-- The exponent of a number is scanned, or it is told that there is none. -/
theorem scanExponent_append (h : ExponentText text exponent) (hrest : EndsNumber rest) :
    scanExponent (text ++ rest) = .ok (exponent, rest) := by
  have hdigit : ∀ c ∈ rest.head?, c.isDigit = false := fun c hc => (hrest c hc).1
  have hmarked : ∀ {mark : Char} (more : List Char), mark = 'e' ∨ mark = 'E' →
      scanExponent (mark :: more) = scanPower more := by
    rintro mark more (rfl | rfl) <;> rfl
  cases h with
  | none =>
    cases rest with
    | nil => rfl
    | cons c rest =>
      obtain ⟨-, -, hsmall, hbig⟩ := hrest c rfl
      simp [scanExponent, hsmall, hbig]
  | unsigned hmark hdigits =>
    rw [List.cons_append, hmarked _ hmark, scanPower_append hdigits hdigit]
  | plus hmark hdigits | minus hmark hdigits =>
    rw [List.cons_append, hmarked _ hmark, List.cons_append, scanPower,
      someDigits_append hdigits hdigit]
    rfl

/-- An exponent is not taken for more digits or for a fraction. -/
theorem ExponentText.head?_append (h : ExponentText text exponent) (hrest : EndsNumber rest) :
    ∀ c ∈ (text ++ rest).head?, c.isDigit = false ∧ c ≠ '.' := by
  cases h with
  | none => exact fun c hc => ⟨(hrest c hc).1, (hrest c hc).2.1⟩
  | unsigned hmark | plus hmark | minus hmark =>
    rintro c ⟨⟩
    rcases hmark with rfl | rfl <;> decide

/-- A fraction is not taken for more digits. -/
theorem FractionText.head?_append (h : FractionText text fraction)
    (hrest : ∀ c ∈ rest.head?, c.isDigit = false) :
    ∀ c ∈ (text ++ rest).head?, c.isDigit = false := by
  cases h with
  | none => exact hrest
  | digits =>
    rintro c ⟨⟩
    rfl

/-- What follows the sign of a number is scanned part by part. -/
theorem scanUnsigned_append {negative : Bool} {numeral : Numeral}
    (h : UnsignedText negative text numeral) (hrest : EndsNumber rest) :
    scanUnsigned negative (text ++ rest) = .ok (numeral, rest) := by
  obtain ⟨hwhole, hfraction, hexponent⟩ := h
  have hafter := hexponent.head?_append hrest
  have hpoint := hfraction.head?_append fun c hc => (hafter c hc).1
  rw [List.append_assoc, List.append_assoc, scanUnsigned, scanWhole_append hwhole hpoint]
  simp only [bind, Except.bind, scanFraction_append hfraction hafter,
    scanExponent_append hexponent hrest]
  rfl

/-- A number without a sign begins with a digit. -/
theorem UnsignedText.exists_eq_cons {negative : Bool} {numeral : Numeral}
    (h : UnsignedText negative text numeral) :
    ∃ c more, text = c :: more ∧ c.isDigit = true := by
  obtain ⟨⟨hdigits, -⟩, -, -⟩ := h
  obtain ⟨c, more, rfl⟩ := List.exists_cons_of_ne_nil hdigits.1
  exact ⟨c, _, rfl, hdigits.2 c List.mem_cons_self⟩

/-- A number begins with a minus sign or a digit. -/
theorem NumberText.exists_eq_cons {numeral : Numeral} (h : NumberText text numeral) :
    ∃ c more, text = c :: more ∧ (c = '-' ∨ c.isDigit = true) := by
  cases h with
  | unsigned htext =>
    obtain ⟨c, more, htext, hdigit⟩ := htext.exists_eq_cons
    exact ⟨c, more, htext, Or.inr hdigit⟩
  | signed => exact ⟨'-', _, rfl, Or.inl rfl⟩

/-- **The number at the head of a text** is scanned up to its end. -/
theorem scan_append {numeral : Numeral} (h : NumberText text numeral) (hrest : EndsNumber rest) :
    scan (text ++ rest) = .ok (numeral, rest) := by
  cases h with
  | unsigned htext =>
    obtain ⟨c, more, rfl, hdigit⟩ := htext.exists_eq_cons
    rw [← scanUnsigned_append htext hrest, List.cons_append, scan]
    rintro text ⟨⟩
    contradiction
  | signed htext =>
    rw [List.cons_append, scan, scanUnsigned_append htext hrest]

end Parts

/-! ## Whole numbers -/

/-- The values of the digits of a number make up the number. -/
theorem ofDigits_values (n : Nat) : ofDigits (values (Nat.toDigits 10 n)) = n := by
  have hfold :
      ofDigits (values (Nat.toDigits 10 n)) = Nat.ofDigitChars 10 (Nat.toDigits 10 n) 0 := by
    rw [ofDigits, values, List.foldl_map, Nat.ofDigitChars_eq_foldl]
    rfl
  rw [hfold, Nat.ofDigitChars_ten_toDigits]

/-- A number is written with one zero for itself and with no zero in front of other digits. -/
theorem isWhole_toDigits (n : Nat) : IsWhole (Nat.toDigits 10 n) := by
  refine ⟨⟨Nat.toDigits_ne_nil, fun c hc => ?_⟩, fun hzero => ?_⟩
  · exact Nat.isDigit_of_mem_toDigits (by decide) (by decide) hc
  · by_cases hn : n = 0
    · rw [hn, Nat.toDigits_zero]
    · exact absurd hzero (head?_toDigits_ne_zero hn)

/-- The numeral of a whole number. -/
def ofWhole (n : Int) : Numeral :=
  ⟨decide (n < 0), values (Nat.toDigits 10 n.natAbs), none, none⟩

/-- The decimal digits of a number are a number without fraction and exponent. -/
theorem unsignedText_toDigits (negative : Bool) (n : Nat) :
    UnsignedText negative (Nat.toDigits 10 n)
      ⟨negative, values (Nat.toDigits 10 n), none, none⟩ := by
  have htext : UnsignedText negative (Nat.toDigits 10 n ++ ([] ++ []))
      ⟨negative, values (Nat.toDigits 10 n), none, none⟩ := .mk (isWhole_toDigits n) .none .none
  rwa [List.append_nil, List.append_nil] at htext

/-- A whole number is written as a number. -/
theorem numberText_repr (n : Int) : NumberText n.repr.toList (ofWhole n) := by
  rw [Int.repr_eq_if]
  by_cases hn : 0 ≤ n
  · rw [if_pos hn, Nat.toList_repr, ofWhole, decide_eq_false (by omega),
      show n.natAbs = n.toNat by omega]
    exact .unsigned (unsignedText_toDigits false _)
  · rw [if_neg hn, String.toList_append, Nat.toList_repr, ofWhole, decide_eq_true (by omega),
      show n.natAbs = (-n).toNat by omega]
    exact .signed (unsignedText_toDigits true _)

/-- The numeral of a whole number stands for it. -/
theorem number?_ofWhole (n : Whole) : (ofWhole n.val).number? = some (.whole n) := by
  have hofInt : Whole.ofInt? n.val = some n := by
    rw [Whole.ofInt?, dif_pos n.inRange]
  have hwhole : (ofWhole n.val).whole? = some (.whole n) := by
    simp only [whole?, ofWhole, ofDigits_values]
    by_cases hn : n.val < 0
    · have hzero : n.val.natAbs ≠ 0 := by omega
      have hneg : -(n.val.natAbs : Int) = n.val := by omega
      rw [if_pos (decide_eq_true hn), if_neg hzero, hneg, hofInt]
      rfl
    · have hpos : (n.val.natAbs : Int) = n.val := by omega
      rw [if_neg (by simpa using hn), hpos, hofInt]
      rfl
  rw [number?, hwhole]
  rfl

end WorkflowChart.Numeral
