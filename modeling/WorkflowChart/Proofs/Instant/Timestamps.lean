import Mathlib.Algebra.Group.Nat.Defs
import WorkflowChart.Instant.Rfc3339
import WorkflowChart.Proofs.Instant.Calendar

/-!
# Timestamps that are written and read

An instant is written by its date, its time of day and its fraction of a second, each in digits of
which none is left out. Reading the text gives the instant again, if it is one that a clock can
show.

* **`Instant.Proper`**: the second lies in a day, the nanosecond in a second, and a leap second at
  the end of a minute.
* **`Instant.Proper.addNanos`**: a clock that is proper stays so.
* **`Instant.proper_of_parse?`**: what is read is proper.
* **`Instant.parse?_text`**: what is proper is read as it was written.
-/

namespace WorkflowChart

/-! ## Digits -/

/-- A digit is no blank. -/
theorem isBlank_of_isDigit {c : Char} (h : c.isDigit = true) : isBlank c = false := by
  rw [Char.isDigit_iff_toNat] at h
  obtain ⟨hlow, hhigh⟩ := h
  change 48 ≤ c.toNat at hlow
  change c.toNat ≤ 57 at hhigh
  simp [isBlank, blankRanges]
  omega

namespace Timestamp

section Digits

variable {ds rest : List Char} {width : Nat}

/-- A digit has the value by which its code point exceeds that of zero. -/
theorem digitValue?_of_isDigit {c : Char} (h : c.isDigit = true) :
    digitValue? c = some (c.toNat - 48) :=
  if_pos h

/-- Digits are read up to the first character that is none, or as many as may be read. -/
theorem moreDigits_append {before : Nat} (hdigits : ∀ c ∈ ds, c.isDigit = true)
    (hle : ds.length ≤ width)
    (hrest : ds.length = width ∨ ∀ c ∈ rest.head?, c.isDigit = false) :
    moreDigits width before (ds ++ rest) = (Nat.ofDigitChars 10 ds before, rest) := by
  induction ds generalizing width before with
  | nil =>
    rw [List.nil_append, Nat.ofDigitChars_nil]
    cases width with
    | zero => rfl
    | succ width =>
      cases rest with
      | nil => rfl
      | cons c rest =>
        have hc : c.isDigit = false := hrest.resolve_left nofun c rfl
        simp [moreDigits, digitValue?, hc]
  | cons c ds ih =>
    obtain ⟨hc, hds⟩ := List.forall_mem_cons.1 hdigits
    cases width with
    | zero => exact absurd hle (by simp)
    | succ width =>
      rw [List.length_cons, Nat.add_le_add_iff_right] at hle
      rw [List.length_cons, Nat.add_right_cancel_iff] at hrest
      rw [List.cons_append, moreDigits, digitValue?_of_isDigit hc]
      exact ih hds hle hrest

/-- A number is read up to its last digit, if it has a digit at all. -/
theorem digits?_append (hne : ds ≠ []) (hdigits : ∀ c ∈ ds, c.isDigit = true)
    (hle : ds.length ≤ width)
    (hrest : ds.length = width ∨ ∀ c ∈ rest.head?, c.isDigit = false) :
    digits? width (ds ++ rest) = some (Nat.ofDigitChars 10 ds 0, rest) := by
  obtain ⟨c, ds, rfl⟩ := List.exists_cons_of_ne_nil hne
  obtain ⟨hc, hds⟩ := List.forall_mem_cons.1 hdigits
  rw [List.length_cons] at hle hrest
  have hmore : moreDigits (width - 1) (c.toNat - 48) (ds ++ rest) =
      (Nat.ofDigitChars 10 ds (c.toNat - 48), rest) :=
    moreDigits_append hds (by omega) (hrest.imp_left (by omega))
  rw [List.cons_append, digits?, digitValue?_of_isDigit hc, Option.map_some, hmore,
    Nat.ofDigitChars_cons]
  simp

end Digits

end Timestamp

/-! ## Padded numbers -/

namespace Instant

variable {width n : Nat}

/-- A padded number is its decimal digits after as many zeros as they leave room for. -/
theorem toList_padded (width n : Nat) : (padded width n).toList =
    List.replicate (width - (Nat.toDigits 10 n).length) '0' ++ Nat.toDigits 10 n := by
  simp [padded, Nat.toList_repr]

/-- A padded number consists of digits. -/
theorem isDigit_of_mem_padded {c : Char} (h : c ∈ (padded width n).toList) : c.isDigit = true := by
  rw [toList_padded, List.mem_append] at h
  rcases h with h | h
  · rw [List.eq_of_mem_replicate h]
    decide
  · exact Nat.isDigit_of_mem_toDigits (by decide) (by decide) h

/-- A padded number has at least one digit, also where it is padded to none. -/
theorem padded_ne_nil (width n : Nat) : (padded width n).toList ≠ [] := by
  rw [toList_padded]
  exact List.append_ne_nil_of_right_ne_nil _ Nat.toDigits_ne_nil

/-- Padding does not change the value of a number. -/
theorem ofDigitChars_padded (width n : Nat) :
    Nat.ofDigitChars 10 (padded width n).toList 0 = n := by
  rw [toList_padded, Nat.ofDigitChars_append, Nat.ofDigitChars_replicate_zero, Nat.mul_zero,
    Nat.ofDigitChars_ten_toDigits]

/-- A number that fits has just the digits it is padded to. -/
theorem length_padded (hwidth : 0 < width) (hn : n < 10 ^ width) :
    (padded width n).toList.length = width := by
  have hle : (Nat.toDigits 10 n).length ≤ width :=
    (Nat.length_toDigits_le_iff (by decide) hwidth).2 hn
  rw [toList_padded, List.length_append, List.length_replicate]
  omega

/-- A padded number begins with a digit, so no blank stands before it. -/
theorem exists_padded_eq_cons (width n : Nat) :
    ∃ c ds, (padded width n).toList = c :: ds ∧ c.isDigit = true := by
  obtain ⟨c, ds, hcons⟩ := List.exists_cons_of_ne_nil (padded_ne_nil width n)
  exact ⟨c, ds, hcons, isDigit_of_mem_padded (hcons ▸ List.mem_cons_self)⟩

end Instant

namespace Timestamp

open Instant

/-- Nothing is dropped in front of a character that is no blank. -/
theorem dropBlank_cons {c : Char} (h : isBlank c = false) (rest : List Char) :
    dropBlank (c :: rest) = c :: rest :=
  List.dropWhile_cons_of_neg (by simp [h])

/-- Nothing is dropped in front of a padded number. -/
theorem dropBlank_padded (width n : Nat) (rest : List Char) :
    dropBlank ((padded width n).toList ++ rest) = (padded width n).toList ++ rest := by
  obtain ⟨c, ds, hcons, hc⟩ := exists_padded_eq_cons width n
  rw [hcons, List.cons_append, dropBlank_cons (isBlank_of_isDigit hc)]

/-- A number that is padded to as many digits as are read is read as it is. -/
theorem digits?_padded {width n : Nat} (hwidth : 0 < width) (hn : n < 10 ^ width)
    (rest : List Char) : digits? width ((padded width n).toList ++ rest) = some (n, rest) := by
  have hlength := length_padded hwidth hn
  rw [digits?_append (padded_ne_nil width n) (fun c => isDigit_of_mem_padded) (Nat.le_of_eq hlength)
    (Or.inl hlength), ofDigitChars_padded]

/-- A padded number is read as it is also where blanks may stand before it. -/
theorem number?_padded {width n : Nat} (hwidth : 0 < width) (hn : n < 10 ^ width)
    (rest : List Char) : number? width ((padded width n).toList ++ rest) = some (n, rest) := by
  rw [number?, dropBlank_padded, digits?_padded hwidth hn]

/-- A mark that is no blank is dropped where it comes first. -/
theorem dropMark?_cons {mark : Char} (h : isBlank mark = false) (rest : List Char) :
    dropMark? mark (mark :: rest) = some rest := by
  rw [dropMark?, dropBlank_cons h]
  exact if_pos rfl

/-! ## The parts of a timestamp -/

/-- After a minus sign a year has as many digits as follow, and it is negative. -/
theorem year?_minus (text : List Char) :
    year? ('-' :: text) =
      (digits? text.length text).map fun (year, rest) => (-(year : Int), rest) := rfl

/-- After a plus sign a year has as many digits as follow. -/
theorem year?_plus (text : List Char) :
    year? ('+' :: text) = (digits? text.length text).map fun (year, rest) => ((year : Int), rest) :=
  rfl

/-- A year without a sign begins with a digit. -/
theorem year?_of_isDigit {c : Char} (h : c.isDigit = true) (text : List Char) :
    year? (c :: text) = (digits? 4 (c :: text)).map fun (year, rest) => ((year : Int), rest) := by
  rw [year?, dropBlank_cons (isBlank_of_isDigit h)]
  split
  · next htext =>
    obtain ⟨rfl, -⟩ := List.cons.inj htext
    exact absurd h (by decide)
  · next htext =>
    obtain ⟨rfl, -⟩ := List.cons.inj htext
    exact absurd h (by decide)
  · rfl

/-- A year is read up to the mark after it. -/
theorem year?_yearText (year : Int) (rest : List Char) :
    year? ((yearText year).toList ++ '-' :: rest) = some (year, '-' :: rest) := by
  -- after a sign as many digits are read as there are
  have hsigned : digits? ((padded 4 year.natAbs).toList ++ '-' :: rest).length
      ((padded 4 year.natAbs).toList ++ '-' :: rest) = some (year.natAbs, '-' :: rest) := by
    rw [digits?_append (padded_ne_nil _ _) (fun c => isDigit_of_mem_padded)
      (by rw [List.length_append]; omega) (Or.inr (by rintro c ⟨⟩; decide)), ofDigitChars_padded]
  rw [yearText]
  by_cases hplain : 0 ≤ year ∧ year ≤ 9999
  · have hdigits : digits? 4 ((padded 4 year.toNat).toList ++ '-' :: rest) =
        some (year.toNat, '-' :: rest) := digits?_padded (by decide) (by omega) _
    have hyear : (year.toNat : Int) = year := Int.toNat_of_nonneg hplain.1
    obtain ⟨c, ds, hcons, hc⟩ := exists_padded_eq_cons 4 year.toNat
    rw [if_pos hplain]
    rw [hcons, List.cons_append] at hdigits ⊢
    rw [year?_of_isDigit hc, hdigits]
    simp only [Option.map_some, hyear]
  · rw [if_neg hplain, String.toList_append]
    by_cases hneg : year < 0
    · have hyear : -(year.natAbs : Int) = year := by omega
      have hminus : "-".toList = ['-'] := rfl
      rw [if_pos hneg, hminus, List.append_assoc, List.singleton_append, year?_minus, hsigned]
      simp only [Option.map_some, hyear]
    · have hyear : (year.natAbs : Int) = year := by omega
      have hplus : "+".toList = ['+'] := rfl
      rw [if_neg hneg, hplus, List.append_assoc, List.singleton_append, year?_plus, hsigned]
      simp only [Option.map_some, hyear]

/-- A fraction of some digits is read as the nanoseconds it stands for. -/
theorem fraction?_padded {width n : Nat} (hwidth : 0 < width) (hle : width ≤ 9)
    (hn : n < 10 ^ width) :
    fraction? ('.' :: ((padded width n).toList ++ ['Z'])) = some (n * 10 ^ (9 - width), ['Z']) := by
  have hlength := length_padded hwidth hn
  have hread : digits? 9 ((padded width n).toList ++ ['Z']) = some (n, ['Z']) := by
    rw [digits?_append (padded_ne_nil width n) (fun c => isDigit_of_mem_padded)
      (by omega) (Or.inr (by rintro c ⟨⟩; decide)), ofDigitChars_padded]
  rw [fraction?, hread]
  simp only [Option.bind_eq_bind, Option.bind_some, List.length_append, hlength,
    List.length_singleton, Nat.add_sub_cancel]
  rfl

/-- A fraction of a second is read as it was written, in as many digits as it took. -/
theorem fraction?_fractionText {nano : Nat} (hnano : nano < 1000000000) :
    fraction? ((fractionText nano).toList ++ ['Z']) = some (nano, ['Z']) := by
  have hpoint : ".".toList = ['.'] := rfl
  rw [fractionText]
  -- a fraction is written in no digits, in three, in six or in nine
  split
  · next hzero =>
    rw [hzero]
    rfl
  · split
    · next hmillis =>
      rw [String.toList_append, hpoint, List.append_assoc, List.singleton_append,
        fraction?_padded (by decide) (by decide) (by omega),
        show 10 ^ (9 - 3) = 1000000 from rfl,
        Nat.div_mul_cancel (Nat.dvd_of_mod_eq_zero hmillis)]
    · split
      · next hmicros =>
        rw [String.toList_append, hpoint, List.append_assoc, List.singleton_append,
          fraction?_padded (by decide) (by decide) (by omega),
          show 10 ^ (9 - 6) = 1000 from rfl,
          Nat.div_mul_cancel (Nat.dvd_of_mod_eq_zero hmicros)]
      · rw [String.toList_append, hpoint, List.append_assoc, List.singleton_append,
          fraction?_padded (by decide) (by decide) (by omega), Nat.sub_self, Nat.pow_zero,
          Nat.mul_one]

end Timestamp

/-! ## What the parts can be -/

namespace Timestamp

/-- A digit has a value below ten. -/
theorem digitValue?_lt {c : Char} {value : Nat} (h : digitValue? c = some value) : value < 10 := by
  rw [digitValue?] at h
  split at h
  · next hdigit =>
    rw [Char.isDigit_iff_toNat] at hdigit
    have hhigh := hdigit.2
    change c.toNat ≤ 57 at hhigh
    obtain rfl := Option.some.inj h
    omega
  · cases h

/-- As many digits more make a number greater by as many powers of ten at most. -/
theorem exists_count_of_moreDigits {width before : Nat} {text rest : List Char} {value : Nat}
    (h : moreDigits width before text = (value, rest)) :
    ∃ count ≤ width, text.length = rest.length + count ∧ value < (before + 1) * 10 ^ count := by
  induction width generalizing before text with
  | zero =>
    cases h
    exact ⟨0, Nat.le_refl 0, rfl, by omega⟩
  | succ width ih =>
    cases text with
    | nil =>
      cases h
      exact ⟨0, Nat.zero_le _, rfl, by omega⟩
    | cons c text =>
      rw [moreDigits] at h
      split at h
      · next digit hdigit =>
        obtain ⟨count, hcount, hlength, hvalue⟩ := ih h
        have hten := digitValue?_lt hdigit
        refine ⟨count + 1, Nat.succ_le_succ hcount, by rw [List.length_cons, hlength]; omega, ?_⟩
        -- one digit more makes the bound ten times as great
        calc value < (10 * before + digit + 1) * 10 ^ count := hvalue
          _ ≤ (10 * (before + 1)) * 10 ^ count := Nat.mul_le_mul_right _ (by omega)
          _ = (before + 1) * 10 ^ (count + 1) := by rw [Nat.pow_succ]; ac_rfl
      · cases h
        exact ⟨0, Nat.zero_le _, rfl, by omega⟩

/-- The nanoseconds of a fraction are fewer than those of a second. -/
theorem fraction?_lt {text rest : List Char} {nano : Nat}
    (h : fraction? text = some (nano, rest)) : nano < 1000000000 := by
  rw [fraction?.eq_def] at h
  split at h
  · next text =>
    obtain ⟨⟨value, left⟩, hvalue, h⟩ := Option.bind_eq_some_iff.1 h
    obtain ⟨rfl, -⟩ := Prod.mk.inj (Option.some.inj h)
    cases text with
    | nil => cases hvalue
    | cons c text =>
      obtain ⟨digit, hdigit, hmore⟩ := Option.map_eq_some_iff.1 hvalue
      obtain ⟨count, hcount, hlength, hlt⟩ := exists_count_of_moreDigits hmore
      have hten := digitValue?_lt hdigit
      -- as many digits have been read as the text has got shorter
      have hwidth : (c :: text).length - left.length = count + 1 := by
        rw [List.length_cons, hlength]
        omega
      rw [hwidth]
      calc value * 10 ^ (9 - (count + 1))
        _ < (digit + 1) * 10 ^ count * 10 ^ (9 - (count + 1)) :=
            Nat.mul_lt_mul_of_pos_right hlt (Nat.pow_pos (by decide))
        _ ≤ 10 * 10 ^ count * 10 ^ (9 - (count + 1)) :=
            Nat.mul_le_mul_right _ (Nat.mul_le_mul_right _ (by omega))
        _ = 1000000000 := by
          rw [Nat.mul_comm 10, ← Nat.pow_succ, ← Nat.pow_add,
            show count + 1 + (9 - (count + 1)) = 9 by omega]
  · cases h
    decide

/-- An offset is told in whole minutes. -/
theorem offsetAfterSign?_mod {text rest : List Char} {offset : Nat}
    (h : offsetAfterSign? text = some (offset, rest)) : offset % 60 = 0 := by
  rw [offsetAfterSign?.eq_def] at h
  split at h
  · obtain ⟨a, -, h⟩ := Option.bind_eq_some_iff.1 h
    obtain ⟨b, -, h⟩ := Option.bind_eq_some_iff.1 h
    obtain ⟨⟨minutes, left⟩, -, h⟩ := Option.bind_eq_some_iff.1 h
    obtain ⟨rfl, -⟩ := Prod.mk.inj (Option.some.inj h)
    omega
  · cases h

/-- After a sign the offset is still told in whole minutes. -/
theorem emod_of_map_offsetAfterSign? {signed : Nat → Int}
    (hsigned : ∀ offset, offset % 60 = 0 → signed offset % 60 = 0) {text rest : List Char}
    {offset : Int}
    (h : ((offsetAfterSign? text).map fun (offset, rest) => (signed offset, rest)) =
      some (offset, rest)) :
    offset % 60 = 0 := by
  obtain ⟨⟨seconds, left⟩, hseconds, h⟩ := Option.map_eq_some_iff.1 h
  obtain ⟨rfl, -⟩ := Prod.mk.inj h
  exact hsigned seconds (offsetAfterSign?_mod hseconds)

/-- An offset is told in whole minutes. -/
theorem offset?_emod {text rest : List Char} {offset : Int}
    (h : offset? text = some (offset, rest)) : offset % 60 = 0 := by
  have hafter (offset : Nat) (hminutes : offset % 60 = 0) : (offset : Int) % 60 = 0 := by omega
  have hbefore (offset : Nat) (hminutes : offset % 60 = 0) : -(offset : Int) % 60 = 0 := by omega
  rw [offset?.eq_def] at h
  split at h
  · cases h
    rfl
  · cases h
    rfl
  · exact emod_of_map_offsetAfterSign? hafter h
  · exact emod_of_map_offsetAfterSign? hbefore h
  · exact emod_of_map_offsetAfterSign? hbefore h
  · split at h
    · cases h
      rfl
    · cases h
  · cases h

end Timestamp

namespace Instant

open Timestamp

/-! ## Proper instants -/

/-- An instant as a clock shows it: the second lies in the day, the nanosecond in the second, and
only the last second of a minute goes on as a leap second. -/
structure Proper (t : Instant) : Prop where
  second : 0 ≤ t.second ∧ t.second < secondsPerDay
  nano : 0 ≤ t.nano ∧ t.nano < 2 * nanosPerSecond
  leap : t.isLeap = true → t.second % 60 = 59

/-- The day lies in a year that has timestamps. -/
def InYears (t : Instant) : Prop :=
  isYear (Date.ofDayNumber t.day).year = true

/-- An instant is in a leap second if its nanoseconds fill a whole second. -/
theorem isLeap_iff {t : Instant} : t.isLeap = true ↔ nanosPerSecond ≤ t.nano := by
  rw [isLeap, decide_eq_true_eq]

/-- The epoch is proper. -/
theorem proper_epoch : epoch.Proper :=
  ⟨by decide, by decide, by decide⟩

/-- Carrying whatever is too much or too little over gives a proper instant. -/
theorem proper_normalize (day second nano : Int) : (normalize day second nano).Proper := by
  have hnanos : (0 : Int) < nanosPerSecond := by decide
  have hseconds : (0 : Int) < secondsPerDay := by decide
  have hlow := Int.emod_nonneg nano (Int.ne_of_gt hnanos)
  have hhigh := Int.emod_lt_of_pos nano hnanos
  refine ⟨⟨Int.emod_nonneg _ (Int.ne_of_gt hseconds), Int.emod_lt_of_pos _ hseconds⟩,
    ⟨hlow, ?_⟩, ?_⟩
  · show nano % nanosPerSecond < 2 * nanosPerSecond
    omega
  · intro hleap
    rw [isLeap_iff] at hleap
    exact absurd hhigh (Int.not_lt.2 hleap)

/-- **A clock that is proper stays so**, however far it is set forward or back. -/
theorem Proper.addNanos {t : Instant} (h : t.Proper) (nanos : Int) : (t.addNanos nanos).Proper := by
  rw [Instant.addNanos]
  split
  · next hleap =>
    split
    · exact proper_normalize _ _ _
    · next hin =>
      split
      · exact proper_normalize _ _ _
      · -- a step of less than a second, within the leap second or to the second before it
        refine ⟨h.second, ?_, fun _ => h.leap hleap⟩
        have hback := Int.lt_tmod_of_pos nanos (by decide : (0 : Int) < nanosPerSecond)
        rw [isLeap_iff] at hleap
        show 0 ≤ t.nano + nanos.tmod nanosPerSecond ∧ t.nano + nanos.tmod nanosPerSecond < _
        omega
  · exact proper_normalize _ _ _

/-! ## What is read -/

/-- A reading goes on after a condition only where it holds. -/
theorem of_guard_eq_some {p : Prop} [Decidable p] {done : Unit}
    (h : (guard p : Option Unit) = some done) : p := by
  by_cases hp : p
  · exact hp
  · have hnone : (guard p : Option Unit) = none := if_neg hp
    rw [hnone] at h
    cases h

/-- What is put together from a date and a time of day is proper, if the time is told in whole
minutes and the nanosecond lies in the second. -/
theorem proper_of_assemble? {date : Date} {hour minute second nano : Nat} {offset : Int}
    {t : Instant} (h : assemble? date hour minute second nano offset = some t)
    (hnano : nano < 1000000000) (hoffset : offset % 60 = 0) : t.Proper ∧ t.InYears := by
  rw [assemble?, Option.bind_eq_bind, Option.bind_eq_some_iff] at h
  obtain ⟨_, hbounds, h⟩ := h
  obtain ⟨_, -, h⟩ := Option.bind_eq_some_iff.1 h
  obtain ⟨_, hyears, h⟩ := Option.bind_eq_some_iff.1 h
  obtain ⟨-, -, -, -, hsecond⟩ := of_guard_eq_some hbounds
  have hin := of_guard_eq_some hyears
  obtain rfl := Option.some.inj h
  refine ⟨⟨⟨?_, ?_⟩, ?_, ?_⟩, hin⟩
  · exact Int.emod_nonneg _ (by decide)
  · exact Int.emod_lt_of_pos _ (by decide)
  · simp only [nanosPerSecond]
    split <;> omega
  · intro hleap
    rw [isLeap_iff] at hleap
    simp only [nanosPerSecond, secondsPerDay] at hleap ⊢
    -- only the second 60 is shown as a leap second, and it is counted as the second 59
    by_cases hsixty : second = 60
    · rw [if_pos hsixty]
      omega
    · rw [if_neg hsixty] at hleap
      omega

/-- **What is read is proper** and lies in the years that have timestamps. -/
theorem proper_of_parse? {text : String} {t : Instant} (h : parse? text = some t) :
    t.Proper ∧ t.InYears := by
  rw [parse?, Option.bind_eq_bind, Option.bind_eq_some_iff] at h
  obtain ⟨⟨year, rest⟩, -, h⟩ := h
  obtain ⟨rest, -, h⟩ := Option.bind_eq_some_iff.1 h
  obtain ⟨⟨month, rest⟩, -, h⟩ := Option.bind_eq_some_iff.1 h
  obtain ⟨rest, -, h⟩ := Option.bind_eq_some_iff.1 h
  obtain ⟨⟨day, rest⟩, -, h⟩ := Option.bind_eq_some_iff.1 h
  obtain ⟨rest, -, h⟩ := Option.bind_eq_some_iff.1 h
  obtain ⟨⟨hour, rest⟩, -, h⟩ := Option.bind_eq_some_iff.1 h
  obtain ⟨rest, -, h⟩ := Option.bind_eq_some_iff.1 h
  obtain ⟨⟨minute, rest⟩, -, h⟩ := Option.bind_eq_some_iff.1 h
  obtain ⟨rest, -, h⟩ := Option.bind_eq_some_iff.1 h
  obtain ⟨⟨second, rest⟩, -, h⟩ := Option.bind_eq_some_iff.1 h
  obtain ⟨⟨nano, rest⟩, hnano, h⟩ := Option.bind_eq_some_iff.1 h
  obtain ⟨⟨offset, rest⟩, hoffset, h⟩ := Option.bind_eq_some_iff.1 h
  obtain ⟨_, -, h⟩ := Option.bind_eq_some_iff.1 h
  exact proper_of_assemble? h (fraction?_lt hnano) (offset?_emod hoffset)

/-! ## Reading what has been written -/

/-- The second of the minute that is written: sixty for a leap second. -/
def shownSecond (t : Instant) : Nat :=
  t.second.toNat % 60 + if t.isLeap then 1 else 0

/-- The nanosecond that is written. -/
def shownNano (t : Instant) : Nat :=
  (t.nano % nanosPerSecond).toNat

/-- The text of an instant, part by part. -/
theorem toList_text (t : Instant) :
    t.text.toList = (yearText (Date.ofDayNumber t.day).year).toList ++ '-' ::
      ((padded 2 (Date.ofDayNumber t.day).month).toList ++ '-' ::
      ((padded 2 (Date.ofDayNumber t.day).day).toList ++ 'T' ::
      ((padded 2 (t.second.toNat / 3600)).toList ++ ':' ::
      ((padded 2 (t.second.toNat / 60 % 60)).toList ++ ':' ::
      ((padded 2 t.shownSecond).toList ++ ((fractionText t.shownNano).toList ++ ['Z'])))))) := by
  simp [text, String.toList_append, shownSecond, shownNano]

/-- What is written for a second tells whether it is a leap second. -/
theorem Proper.shown {t : Instant} (h : t.Proper) :
    t.isLeap = true ∧ t.shownSecond = 60 ∧ t.second.toNat % 60 = 59 ∧
        nanosPerSecond + (t.shownNano : Int) = t.nano ∨
      t.isLeap = false ∧ t.shownSecond = t.second.toNat % 60 ∧ (t.shownNano : Int) = t.nano := by
  obtain ⟨⟨hsecond, -⟩, ⟨hnano, hnanos⟩, hleap⟩ := h
  rw [nanosPerSecond] at hnanos ⊢
  rw [shownSecond, shownNano, nanosPerSecond]
  cases hisLeap : t.isLeap with
  | true =>
    have hend := hleap hisLeap
    rw [isLeap_iff, nanosPerSecond] at hisLeap
    refine Or.inl ⟨rfl, ?_⟩
    rw [if_pos rfl]
    omega
  | false =>
    have hsmall : ¬ nanosPerSecond ≤ t.nano := by
      rw [← isLeap_iff, hisLeap]
      nofun
    rw [nanosPerSecond] at hsmall
    refine Or.inr ⟨rfl, ?_⟩
    rw [if_neg nofun]
    omega

/-- The date and the time of day of an instant make up the instant. -/
theorem assemble?_eq_some {t : Instant} (h : t.Proper) (hyears : t.InYears) :
    assemble? (Date.ofDayNumber t.day) (t.second.toNat / 3600) (t.second.toNat / 60 % 60)
      t.shownSecond t.shownNano 0 = some t := by
  have hshown := h.shown
  obtain ⟨⟨hsecond, hday⟩, -, -⟩ := h
  have hvalid := Date.isValid_ofDayNumber t.day
  rw [secondsPerDay] at hday
  have hcounted : 3600 * ((t.second.toNat / 3600 : Nat) : Int) +
      60 * ((t.second.toNat / 60 % 60 : Nat) : Int) +
      ((if t.shownSecond = 60 then 59 else t.shownSecond : Nat) : Int) - 0 = t.second := by
    split <;> omega
  have hnano : (if t.shownSecond = 60 then nanosPerSecond + (t.shownNano : Int) else t.shownNano) =
      t.nano := by
    split <;> omega
  -- without an offset the seconds stay within the day
  have hdayNumber : (Date.ofDayNumber t.day).dayNumber + t.second / secondsPerDay = t.day := by
    rw [Date.dayNumber_ofDayNumber, secondsPerDay]
    omega
  have hofDay : t.second % secondsPerDay = t.second := by
    rw [secondsPerDay]
    omega
  have hbounds : t.second.toNat / 3600 < 24 ∧ t.second.toNat / 60 % 60 < 60 ∧
      t.shownSecond ≤ 60 := by omega
  rw [assemble?]
  refine Option.bind_eq_some_iff.2 ⟨(), if_pos ⟨hyears, hvalid, hbounds⟩, ?_⟩
  refine Option.bind_eq_some_iff.2 ⟨(), if_pos (by decide), ?_⟩
  rw [hcounted, hnano]
  refine Option.bind_eq_some_iff.2 ⟨(), if_pos ?_, ?_⟩
  · rw [hdayNumber]
    exact hyears
  · rw [hdayNumber, hofDay]
    rfl

/-- A date and a time of day are read from their parts, if each part fits its digits. -/
theorem parse?_of_toList {text : String} {date : Date} {hour minute second nano : Nat} {t : Instant}
    (hmonth : date.month < 10 ^ 2) (hday : date.day < 10 ^ 2) (hhour : hour < 10 ^ 2)
    (hminute : minute < 10 ^ 2) (hsecond : second < 10 ^ 2) (hnano : nano < 1000000000)
    (htext : text.toList = (yearText date.year).toList ++ '-' ::
      ((padded 2 date.month).toList ++ '-' :: ((padded 2 date.day).toList ++ 'T' ::
      ((padded 2 hour).toList ++ ':' :: ((padded 2 minute).toList ++ ':' ::
      ((padded 2 second).toList ++ ((fractionText nano).toList ++ ['Z'])))))))
    (hassemble : assemble? date hour minute second nano 0 = some t) : parse? text = some t := by
  have htwo : 0 < 2 := by decide
  have hdash : isBlank '-' = false := by decide
  have hcolon : isBlank ':' = false := by decide
  have hend : dropBlank ['Z'] = ['Z'] := by decide
  rw [parse?, htext]
  -- the date
  refine Option.bind_eq_some_iff.2 ⟨_, year?_yearText _ _, ?_⟩
  refine Option.bind_eq_some_iff.2 ⟨_, dropMark?_cons hdash _, ?_⟩
  refine Option.bind_eq_some_iff.2 ⟨_, number?_padded htwo hmonth _, ?_⟩
  refine Option.bind_eq_some_iff.2 ⟨_, dropMark?_cons hdash _, ?_⟩
  refine Option.bind_eq_some_iff.2 ⟨_, number?_padded htwo hday _, ?_⟩
  -- the time of day, after the separator
  refine Option.bind_eq_some_iff.2 ⟨_, rfl, ?_⟩
  refine Option.bind_eq_some_iff.2 ⟨_, number?_padded htwo hhour _, ?_⟩
  refine Option.bind_eq_some_iff.2 ⟨_, dropMark?_cons hcolon _, ?_⟩
  refine Option.bind_eq_some_iff.2 ⟨_, number?_padded htwo hminute _, ?_⟩
  refine Option.bind_eq_some_iff.2 ⟨_, dropMark?_cons hcolon _, ?_⟩
  refine Option.bind_eq_some_iff.2 ⟨_, number?_padded htwo hsecond _, ?_⟩
  -- the fraction, and a letter that stands for no offset
  refine Option.bind_eq_some_iff.2 ⟨_, fraction?_fractionText hnano, ?_⟩
  refine Option.bind_eq_some_iff.2 ⟨(0, []), by rw [hend]; rfl, ?_⟩
  exact hassemble

/-- **An instant is read as it was written**, if it is proper and lies in the years that have
timestamps. -/
theorem parse?_text {t : Instant} (h : t.Proper) (hyears : t.InYears) : parse? t.text = some t := by
  have hassemble := assemble?_eq_some h hyears
  have hshown := h.shown
  obtain ⟨⟨hsecond, hday⟩, ⟨hnano, -⟩, -⟩ := h
  rw [secondsPerDay] at hday
  have hvalid := Date.isValid_ofDayNumber t.day
  simp only [Date.isValid, decide_eq_true_eq] at hvalid
  have hdays := Date.daysInMonth_le (Date.ofDayNumber t.day).year (Date.ofDayNumber t.day).month
  have hfraction : t.shownNano < 1000000000 := by
    rw [shownNano, nanosPerSecond]
    omega
  exact parse?_of_toList (by omega) (by omega) (by omega) (by omega) (by omega) hfraction
    (toList_text t) hassemble

end Instant

end WorkflowChart
