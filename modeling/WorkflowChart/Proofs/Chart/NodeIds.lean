import WorkflowChart.Chart.Node
import WorkflowChart.Proofs.Text.Digits

/-!
# Node ids

The id of a node can be read back, also where a text goes on after it.

* **`split_unique`**: a text is split in one way only into characters of a class and what follows
  from a character outside the class on.
* **`Node.isIdChar_of_mem_id`**: the characters of ids.
* **`Node.id_injective`**: different nodes have different ids.
* **`Node.id_append_unique`**: a text that begins with an id begins with one id only.
-/

namespace WorkflowChart

/-- **Splitting at a class of characters.** Where a text is characters of a class, then one outside
it, and then a rest, the three parts are determined. -/
theorem split_unique {p : Char → Bool} {a b r s : List Char} {x y : Char}
    (ha : ∀ c ∈ a, p c = true) (hb : ∀ c ∈ b, p c = true) (hx : p x = false) (hy : p y = false)
    (h : a ++ x :: r = b ++ y :: s) : a = b ∧ x = y ∧ r = s := by
  have htake := congrArg (List.takeWhile p) h
  rw [List.takeWhile_append_of_pos ha, List.takeWhile_append_of_pos hb] at htake
  simp only [List.takeWhile_cons, hx, hy, Bool.false_eq_true, if_false, List.append_nil] at htake
  subst htake
  have htail := List.append_cancel_left h
  exact ⟨rfl, List.head_eq_of_cons_eq htail, List.tail_eq_of_cons_eq htail⟩

/-! ## Numbers in ids -/

/-- A hexadecimal digit stands for itself in an id. -/
theorem isPlain_of_mem_hexDigits {c : Char} {n : Nat} (hc : c ∈ Nat.toDigits 16 n) :
    Node.isPlain c = true := by
  have hdigit : ∀ a < 16, Node.isPlain (Nat.digitChar a) = true := by decide
  induction n using Nat.strongRecOn with
  | _ n ih =>
    rcases Nat.lt_or_ge n 16 with hn | hn
    · rw [Nat.toDigits_of_lt_base hn, List.mem_singleton] at hc
      rw [hc]
      exact hdigit n hn
    · rw [Nat.toDigits_of_base_le (by decide) hn, List.mem_append, List.mem_singleton] at hc
      rcases hc with hc | rfl
      · exact ih (n / 16) (by omega) hc
      · exact hdigit (n % 16) (by omega)

/-! ## Escaped names -/

namespace Node

/-- Whether a character can stand in an id. -/
def isIdChar (c : Char) : Bool :=
  isPlain c || c = '_'

/-- A plain character is one of an id. -/
theorem isIdChar_of_isPlain {c : Char} (hc : isPlain c = true) : isIdChar c = true := by
  rw [isIdChar, hc, Bool.true_or]

/-- What stands for a character can stand in an id. -/
theorem isIdChar_of_mem_escape {c d : Char} (hd : d ∈ escape c) : isIdChar d = true := by
  rw [escape] at hd
  split at hd
  · next hplain =>
    rw [List.mem_singleton] at hd
    exact isIdChar_of_isPlain (hd ▸ hplain)
  · simp only [List.cons_append, List.mem_cons, List.mem_append, List.not_mem_nil, or_false] at hd
    rcases hd with rfl | rfl | hdigit | rfl
    · rfl
    · rfl
    · exact isIdChar_of_isPlain (isPlain_of_mem_hexDigits hdigit)
    · rfl

/-- What stands for a character determines the character, also where a text goes on after it. -/
theorem escape_append_unique {c d : Char} {r s : List Char}
    (h : escape c ++ r = escape d ++ s) : c = d ∧ r = s := by
  have hline : isPlain '_' = false := by decide
  by_cases hc : isPlain c = true <;> by_cases hd : isPlain d = true
  · rw [escape, escape, if_pos hc, if_pos hd] at h
    exact ⟨List.head_eq_of_cons_eq h, List.tail_eq_of_cons_eq h⟩
  · rw [escape, escape, if_pos hc, if_neg hd] at h
    have hhead : c = '_' := List.head_eq_of_cons_eq h
    rw [hhead, hline] at hc
    contradiction
  · rw [escape, escape, if_neg hc, if_pos hd] at h
    have hhead : '_' = d := List.head_eq_of_cons_eq h
    rw [← hhead, hline] at hd
    contradiction
  · rw [escape, escape, if_neg hc, if_neg hd] at h
    simp only [List.cons_append, List.append_assoc, List.cons.injEq, true_and,
      List.nil_append] at h
    -- the digits end at the closing underscore
    obtain ⟨hdigits, -, hrest⟩ := split_unique (fun _ => isPlain_of_mem_hexDigits)
      (fun _ => isPlain_of_mem_hexDigits) hline hline h
    exact ⟨Char.toNat_inj.1 (hexDigits_injective hdigits), hrest⟩

/-- Nothing is escaped to nothing. -/
theorem escape_ne_nil (c : Char) : escape c ≠ [] := by
  rw [escape]
  split <;> exact List.cons_ne_nil _ _

/-- Escaped names determine the names. -/
theorem flatMap_escape_injective {a b : List Char} (h : a.flatMap escape = b.flatMap escape) :
    a = b := by
  induction a generalizing b with
  | nil =>
    cases b with
    | nil => rfl
    | cons d b =>
      rw [List.flatMap_nil, List.flatMap_cons] at h
      exact absurd (List.append_eq_nil_iff.1 h.symm).1 (escape_ne_nil d)
  | cons c a ih =>
    cases b with
    | nil =>
      rw [List.flatMap_nil, List.flatMap_cons] at h
      exact absurd (List.append_eq_nil_iff.1 h).1 (escape_ne_nil c)
    | cons d b =>
      rw [List.flatMap_cons, List.flatMap_cons] at h
      obtain ⟨rfl, hrest⟩ := escape_append_unique h
      rw [ih hrest]

/-! ## Ids -/

/-- The characters of an id: the number of the frame between a letter and a hyphen, then the escaped
name. -/
theorem toList_id (node : Node) :
    node.id.toList =
      's' :: (Nat.toDigits 10 node.frame.number ++ '-' :: node.name.toList.flatMap escape) := by
  simp [id, Frame.id]

/-- An id is made of letters, digits, hyphens and underscores. -/
theorem isIdChar_of_mem_id (node : Node) : ∀ c ∈ node.id.toList, isIdChar c = true := by
  intro c hc
  rw [toList_id] at hc
  simp only [List.mem_cons, List.mem_append, List.mem_flatMap] at hc
  rcases hc with rfl | hdigit | rfl | ⟨d, -, hescape⟩
  · rfl
  · have hc : c.isDigit = true := Nat.isDigit_of_mem_toDigits (by decide) (by decide) hdigit
    exact isIdChar_of_isPlain (by simp [isPlain, Char.isAlphanum, hc])
  · rfl
  · exact isIdChar_of_mem_escape hescape

/-- A hyphen is in every id. -/
theorem hyphen_mem_id (node : Node) : '-' ∈ node.id.toList := by
  rw [toList_id]
  simp

/-- Ids of different nodes are different. -/
theorem id_injective {a b : Node} (h : a.id = b.id) : a = b := by
  have hchars := congrArg String.toList h
  rw [toList_id, toList_id, List.cons.injEq] at hchars
  have hdigits : ∀ n, ∀ c ∈ Nat.toDigits 10 n, c.isDigit = true := fun _ _ =>
    Nat.isDigit_of_mem_toDigits (by decide) (by decide)
  -- the first hyphen ends the number of the frame
  obtain ⟨hnumber, -, hname⟩ :=
    split_unique (hdigits _) (hdigits _) (by decide) (by decide) hchars.2
  obtain ⟨⟨m⟩, x⟩ := a
  obtain ⟨⟨n⟩, y⟩ := b
  obtain rfl : m = n := decimalDigits_injective hnumber
  obtain rfl : x = y := String.toList_inj.1 (flatMap_escape_injective hname)
  rfl

/-- A text that goes on after an id with a character that no id has determines the node. -/
theorem id_append_unique {a b : Node} {x y : Char} {r s : List Char}
    (hx : isIdChar x = false) (hy : isIdChar y = false)
    (h : a.id.toList ++ x :: r = b.id.toList ++ y :: s) : a = b ∧ x = y ∧ r = s := by
  obtain ⟨hid, hrest⟩ := split_unique a.isIdChar_of_mem_id b.isIdChar_of_mem_id hx hy h
  exact ⟨id_injective (String.toList_inj.1 hid), hrest⟩

end Node

end WorkflowChart
