import Mathlib.Data.List.DropRight
import WorkflowChart.Json.Decoder
import WorkflowChart.Json.Encode
import WorkflowChart.Proofs.Json.Numbers

/-!
# Reading what has been written

The text of a value begins with the value, whatever follows it, and reading it shows the value
without a flaw. Floating point numbers are left out here: whether their digits read back is a
question of arithmetic that the texts of documents do not raise.

* **`Json.FloatFree`**: a value without floating point numbers.
* **`Quotation.scan_flatMap_escape`**: a text in quotes is read as it was.
* **`readItems_more`**, **`readMembers_of`**, **`readValue_array`** and others: one step of a
  reading, whoever has written the text.
* **`Json.FloatFree.readsBack`**: a value is read as it was, with the rest of the text left over.
* **`decode_text`**: decoding the text of a value is decoding the value.
-/

namespace WorkflowChart

/-! ## Texts in quotes -/

/-- The value of a hexadecimal digit. -/
theorem hexValue?_hexDigit : ∀ n < 16, hexValue? (Json.hexDigit n) = some n := by decide

namespace Quotation

/-- A character that is no quote and no backslash stands for itself. -/
theorem scan_char {c : Char} (hquote : c ≠ '"') (hbackslash : c ≠ '\\')
    (hcontrol : 0x20 ≤ c.toNat) (rest : List Char) :
    scan (c :: rest) = cons (.char c) (scan rest) := by
  rw [scan, if_neg (by omega)]
  · exact hquote
  · exact fun h _ => hbackslash h
  · exact fun _ _ _ _ _ h _ => hbackslash h
  · exact fun _ h _ => hbackslash h
  · exact fun _ _ h _ => hbackslash h

/-- A number escape stands for a code unit. -/
theorem scan_unit {a b c d : Char} {unit : Nat} (h : hexUnit? a b c d = some unit)
    (rest : List Char) :
    scan ('\\' :: 'u' :: a :: b :: c :: d :: rest) = cons (.ofUnit unit) (scan rest) := by
  rw [scan, h]

/-- What stands for a character between quotes is read as that character. -/
theorem scan_escape (c : Char) (rest : List Char) :
    scan (Json.escape c ++ rest) = cons (.char c) (scan rest) := by
  rw [Json.escape.eq_def]
  split
  · rfl
  · rfl
  · rfl
  · rfl
  · rfl
  · rfl
  · rfl
  · next hquote hbackslash _ _ _ _ _ =>
    split
    · next hcontrol =>
      -- the number of a control character has two hexadecimal digits
      have hunit : hexUnit? '0' '0' (Json.hexDigit (c.toNat / 16)) (Json.hexDigit (c.toNat % 16)) =
          some c.toNat := by
        have hzero : hexValue? '0' = some 0 := by decide
        have hhigh := hexValue?_hexDigit (c.toNat / 16) (by omega)
        have hlow := hexValue?_hexDigit (c.toNat % 16) (by omega)
        have hsum : ((16 * 0 + 0) * 16 + c.toNat / 16) * 16 + c.toNat % 16 = c.toNat := by omega
        simp only [hexUnit?, hzero, hhigh, hlow, Option.bind_eq_bind, Option.bind_some, hsum]
        rfl
      have hpiece : Piece.ofUnit c.toNat = .char c := by
        rw [Piece.ofUnit, if_neg (by omega), Char.ofNat_toNat]
      rw [← hpiece]
      exact scan_unit hunit rest
    · next hplain =>
      exact scan_char hquote (fun h => hbackslash h) (by omega) rest

/-- **A text in quotes** is read up to its closing quote. -/
theorem scan_flatMap_escape (cs rest : List Char) :
    scan (cs.flatMap Json.escape ++ '"' :: rest) = ⟨cs.map .char, .ok rest⟩ := by
  induction cs with
  | nil => rfl
  | cons c cs ih =>
    rw [List.flatMap_cons, List.append_assoc, scan_escape, ih]
    rfl

/-- Characters without halves of pairs among them stand for themselves. -/
theorem chars_map_char (cs : List Char) : chars none (cs.map .char) = .ok cs := by
  induction cs with
  | nil => rfl
  | cons c cs ih =>
    rw [List.map_cons, chars, ih]
    rfl

/-- Characters that were quoted as they are stand for themselves. -/
theorem text_map_char (cs rest : List Char) :
    text ⟨cs.map .char, .ok rest⟩ = .ok (String.ofList cs) := by
  rw [text, flaw?, chars_map_char]
  rfl

end Quotation

/-- A text that has been written in quotes is shown as it was. -/
theorem readString_flatMap_escape (s : String) (rest : List Char) :
    readString (s.toList.flatMap Json.escape ++ '"' :: rest) =
      ⟨.string (.ok s) none, .ok rest⟩ := by
  rw [readString, Quotation.scan_flatMap_escape, Quotation.text_map_char, String.ofList_toList]
  rfl

/-! ## Values -/

/-- No floating point number occurs in a value. -/
inductive Json.FloatFree : Json → Prop
  | null : FloatFree .null
  | bool (b : Bool) : FloatFree (.bool b)
  | whole (n : Whole) : FloatFree (.number (.whole n))
  | string (s : String) : FloatFree (.string s)
  | array {items : List Json} (hitems : ∀ item ∈ items, FloatFree item) : FloatFree (.array items)
  | object {members : List (String × Json)} (hmembers : ∀ member ∈ members, FloatFree member.2) :
    FloatFree (.object members)

namespace Json

attribute [simp] FloatFree.bool FloatFree.string

/-- A number without sign is no float. -/
@[simp] theorem floatFree_ofWord (word : UInt64) : (ofWord word).FloatFree :=
  .whole _

/-- A value that may be missing is written without floats, if the value is. -/
theorem floatFree_ofOption {α : Type} {write : α → Json} {value? : Option α}
    (h : ∀ value ∈ value?, (write value).FloatFree) : (ofOption write value?).FloatFree := by
  cases value? with
  | none => exact .null
  | some value => exact h value rfl

/-- A text that may be missing has no floats. -/
@[simp] theorem floatFree_ofOption_string (value? : Option String) :
    (ofOption string value?).FloatFree :=
  floatFree_ofOption fun value _ => .string value

/-- A number without sign that may be missing is no float. -/
@[simp] theorem floatFree_ofOption_ofWord (value? : Option UInt64) :
    (ofOption ofWord value?).FloatFree :=
  floatFree_ofOption fun value _ => floatFree_ofWord value

end Json

/-- A digit is none of the other characters. -/
theorem ne_of_isDigit {c d : Char} (hc : c.isDigit = true) (hd : d.isDigit = false) : c ≠ d := by
  rintro rfl
  rw [hc] at hd
  contradiction

/-- A digit is no space. -/
theorem isSpace_of_isDigit {c : Char} (h : c.isDigit = true) : isSpace c = false := by
  simp [isSpace, ne_of_isDigit h]

/-- What begins with a digit or a minus sign is read as a number. -/
theorem readValue_number {c : Char} (h : c = '-' ∨ c.isDigit = true) (fuel : Nat)
    (rest : List Char) : readValue (fuel + 1) (c :: rest) = readNumber (c :: rest) := by
  rcases h with rfl | h
  · rfl
  · have hspace : dropSpace (c :: rest) = c :: rest :=
      List.dropWhile_cons_of_neg (by simp [isSpace_of_isDigit h])
    rw [readValue, hspace]
    simp [ne_of_isDigit h, h]

namespace Json

/-- The text of a value begins with a character that is no space and does not end an array. -/
theorem FloatFree.exists_write_eq_cons {value : Json} (h : value.FloatFree) :
    ∃ c rest, value.write = c :: rest ∧ isSpace c = false ∧ c ≠ ']' := by
  cases h with
  | null => exact ⟨_, _, by rw [write], by decide, by decide⟩
  | bool b => cases b <;> exact ⟨_, _, by rw [write], by decide, by decide⟩
  | whole n =>
    obtain ⟨c, text, hcons, rfl | hdigit⟩ := (Numeral.numberText_repr n.val).exists_eq_cons
    · exact ⟨'-', text, by rw [write, Number.text, Int.toString_eq_repr, hcons], by decide,
        by decide⟩
    · exact ⟨c, text, by rw [write, Number.text, Int.toString_eq_repr, hcons],
        isSpace_of_isDigit hdigit, ne_of_isDigit hdigit (by decide)⟩
  | string s => exact ⟨'"', _, by rw [write, writeString]; rfl, by decide, by decide⟩
  | array => exact ⟨'[', _, by rw [write]; rfl, by decide, by decide⟩
  | object => exact ⟨'{', _, by rw [write]; rfl, by decide, by decide⟩

end Json

/-- The value is shown by its text, whatever follows it. The steps that are needed nest at most
three times as deep as the text is long. -/
def ReadsBack (value : Json) : Prop :=
  ∀ fuel rest, 3 * value.write.length ≤ fuel → Numeral.EndsNumber rest →
    readValue fuel (value.write ++ rest) = ⟨value.draft, .ok rest⟩

/-- A whole number is shown by its text. -/
theorem readsBack_whole (n : Whole) : ReadsBack (.number (.whole n)) := by
  intro fuel rest hfuel hrest
  have hwrite : (Json.number (.whole n)).write = n.val.repr.toList := by
    rw [Json.write, Number.text, Int.toString_eq_repr]
  obtain ⟨c, text, hcons, hfirst⟩ := (Numeral.numberText_repr n.val).exists_eq_cons
  have hread : readNumber (n.val.repr.toList ++ rest) =
      ⟨.bare (.ok (.number (.whole n))) none, .ok rest⟩ := by
    rw [readNumber, Numeral.scan_append (Numeral.numberText_repr n.val) hrest]
    simp only [Numeral.number?_ofWhole]
  rw [hwrite, hcons, List.length_cons] at hfuel
  obtain ⟨fuel, rfl⟩ : ∃ k, fuel = k + 1 := ⟨fuel - 1, by omega⟩
  rw [hwrite, hcons, List.cons_append, readValue_number hfirst, ← List.cons_append, ← hcons, hread,
    Json.draft]

/-! ## Containers -/

namespace Json

/-- Between two items stands a comma. -/
theorem writeItems_cons_cons (item next : Json) (items : List Json) :
    writeItems (item :: next :: items) = write item ++ ',' :: writeItems (next :: items) := by
  rw [writeItems]
  exact List.cons_ne_nil next items

/-- What stands after a member of an object up to the brace. -/
def writeMore : List (String × Json) → List Char
  | [] => []
  | member :: members => ',' :: writeMembers (member :: members)

/-- A member is written with its key in quotes, a colon and its value. -/
theorem writeMembers_cons (key : String) (value : Json) (members : List (String × Json)) :
    writeMembers ((key, value) :: members) =
      '"' :: (key.toList.flatMap escape ++ '"' :: ':' :: (value.write ++ writeMore members)) := by
  cases members with
  | nil => simp [writeMembers, writeString, writeMore]
  | cons => simp [writeMembers, writeString, writeMore]

end Json

section Steps

variable {fuel : Nat} {text afterKey after rest : List Char} {shown : Draft}

/-- An item before the bracket is the last one. -/
theorem readItems_last (h : readValue fuel text = ⟨shown, .ok after⟩)
    (hclose : dropSpace after = ']' :: rest) :
    readItems (fuel + 1) text = ⟨[shown], .ok rest⟩ := by
  simp only [readItems, h, hclose]

/-- After a comma the items go on. -/
theorem readItems_more (h : readValue fuel text = ⟨shown, .ok after⟩)
    (hcomma : dropSpace after = ',' :: rest) :
    readItems (fuel + 1) text = .cons shown (readItems fuel rest) := by
  simp only [readItems, h, hcomma]

/-- A member is its key and, after a colon, its value. -/
theorem readMembers_of {keyText : List Char} {quotation : Quotation} {key : String}
    (hscan : Quotation.scan keyText = quotation) (hkey : quotation.text = .ok key)
    (hquote : quotation.rest = .ok afterKey) (hcolon : dropSpace afterKey = ':' :: text)
    (h : readValue fuel text = ⟨shown, .ok rest⟩) :
    readMembers (fuel + 1) keyText = .cons (.ok key, shown) (readMoreMembers fuel rest) := by
  have hdrop : dropColon afterKey = .ok text := by
    rw [dropColon, hcolon]
    rfl
  rw [readMembers, hscan, hkey]
  simp only [hquote, hdrop, h]

/-- A member that has been written is read with its key as it was. -/
theorem readMembers_cons (key : String) (h : readValue fuel text = ⟨shown, .ok rest⟩) :
    readMembers (fuel + 1) (key.toList.flatMap Json.escape ++ '"' :: ':' :: text) =
      .cons (.ok key, shown) (readMoreMembers fuel rest) := by
  refine readMembers_of (Quotation.scan_flatMap_escape _ _) ?_ rfl rfl h
  rw [Quotation.text_map_char, String.ofList_toList]

/-- Reading a value drops the space before it. -/
theorem readValue_dropSpace (fuel : Nat) (text : List Char) :
    readValue fuel (dropSpace text) = readValue fuel text := by
  cases fuel with
  | zero => rfl
  | succ fuel =>
    rw [readValue, readValue, dropSpace, dropSpace, List.dropWhile_idempotent]

/-- An array with items, the first of which does not begin with the bracket. -/
theorem readValue_array {items : List Draft} {c : Char} {tail : List Char}
    (hfirst : dropSpace text = c :: tail) (hbracket : c ≠ ']')
    (h : readItems fuel text = ⟨items, .ok rest⟩) :
    readValue (fuel + 2) ('[' :: text) = ⟨.array items none, .ok rest⟩ := by
  have hitems : readItems fuel (c :: tail) = readItems fuel text := by
    rw [← hfirst]
    cases fuel with
    | zero => rfl
    | succ fuel => rw [readItems, readItems, readValue_dropSpace]
  have hread : readFirstItem (fuel + 1) text = ⟨items, .ok rest⟩ := by
    rw [readFirstItem, hfirst]
    simp [hbracket, hitems, h]
  show (readFirstItem (fuel + 1) text).array = _
  rw [hread]
  rfl

/-- An object with members. -/
theorem readValue_object {body : List Char} {members : List (Except Flaw String × Draft)}
    (hquote : dropSpace text = '"' :: body) (h : readMembers fuel body = ⟨members, .ok rest⟩) :
    readValue (fuel + 2) ('{' :: text) = ⟨.object members none, .ok rest⟩ := by
  show readFirstMember (fuel + 1) text = _
  simp only [readFirstMember, hquote, h]
  rfl

end Steps

/-- The items of an array are shown by their texts with commas between them. -/
theorem readItems_writeItems {item : Json} {items : List Json}
    (hread : ∀ other ∈ item :: items, ReadsBack other) {fuel : Nat} {rest : List Char}
    (hfuel : 3 * (Json.writeItems (item :: items)).length < fuel) :
    readItems fuel (Json.writeItems (item :: items) ++ ']' :: rest) =
      ⟨Json.draftItems (item :: items), .ok rest⟩ := by
  obtain ⟨fuel, rfl⟩ : ∃ k, fuel = k + 1 := ⟨fuel - 1, by omega⟩
  induction items generalizing item fuel with
  | nil =>
    rw [Json.writeItems] at hfuel
    have hitem := hread item List.mem_cons_self fuel (']' :: rest) (by omega)
      (Numeral.endsNumber_cons (by decide))
    exact readItems_last hitem rfl
  | cons next items ih =>
    rw [Json.writeItems_cons_cons, List.length_append, List.length_cons] at hfuel
    have hitem := hread item List.mem_cons_self fuel
      (',' :: (Json.writeItems (next :: items) ++ ']' :: rest)) (by omega)
      (Numeral.endsNumber_cons (by decide))
    obtain ⟨fuel, rfl⟩ : ∃ k, fuel = k + 1 := ⟨fuel - 1, by omega⟩
    have hitems := ih (List.forall_mem_cons.1 hread).2 fuel (by omega)
    rw [Json.writeItems_cons_cons, List.append_assoc, List.cons_append, readItems_more hitem rfl,
      hitems]
    rfl

/-- The members of an object are shown by their texts with commas between them. -/
theorem readMembers_write {key : String} {value : Json} {members : List (String × Json)}
    (hread : ∀ member ∈ (key, value) :: members, ReadsBack member.2) {fuel : Nat}
    {rest : List Char}
    (hfuel : 3 * (Json.writeMembers ((key, value) :: members)).length ≤ fuel) :
    readMembers fuel (key.toList.flatMap Json.escape
        ++ '"' :: ':' :: (value.write ++ (Json.writeMore members ++ '}' :: rest))) =
      ⟨Json.draftMembers ((key, value) :: members), .ok rest⟩ := by
  induction members generalizing key value fuel with
  | nil =>
    rw [Json.writeMembers_cons] at hfuel
    simp only [List.length_cons, List.length_append] at hfuel
    obtain ⟨fuel, rfl⟩ : ∃ k, fuel = k + 2 := ⟨fuel - 2, by omega⟩
    have hvalue : readValue (fuel + 1) (value.write ++ '}' :: rest) =
        ⟨value.draft, .ok ('}' :: rest)⟩ :=
      hread _ List.mem_cons_self _ _ (by show 3 * value.write.length ≤ fuel + 1; omega)
        (Numeral.endsNumber_cons (by decide))
    rw [Json.writeMore, List.nil_append, readMembers_cons key hvalue]
    rfl
  | cons next members ih =>
    obtain ⟨nextKey, nextValue⟩ := next
    -- a member takes two steps and has four characters at least
    rw [Json.writeMembers_cons, Json.writeMore] at hfuel
    simp only [List.length_cons, List.length_append] at hfuel
    obtain ⟨fuel, rfl⟩ : ∃ k, fuel = k + 2 := ⟨fuel - 2, by omega⟩
    have hlength : 3 * (Json.writeMembers ((nextKey, nextValue) :: members)).length ≤ fuel := by
      omega
    have hmembers := ih (List.forall_mem_cons.1 hread).2 hlength
    have hvalue := hread _ List.mem_cons_self (fuel + 1)
      (',' :: '"' :: (nextKey.toList.flatMap Json.escape ++ '"' :: ':' ::
        (nextValue.write ++ (Json.writeMore members ++ '}' :: rest))))
      (by show 3 * value.write.length ≤ fuel + 1; omega) (Numeral.endsNumber_cons (by decide))
    rw [Json.writeMore, Json.writeMembers_cons, List.cons_append, List.cons_append,
      List.append_assoc, List.cons_append, List.cons_append, List.append_assoc,
      readMembers_cons key hvalue]
    show Reading.cons _ (readMembers fuel _) = _
    rw [hmembers]
    rfl

/-- The text of an array shows the array, if the texts of its items show them. -/
theorem readsBack_array {items : List Json} (hfree : ∀ item ∈ items, item.FloatFree)
    (hread : ∀ item ∈ items, ReadsBack item) : ReadsBack (.array items) := by
  intro fuel rest hfuel _
  rw [Json.write] at hfuel ⊢
  simp only [List.length_cons, List.length_append, List.length_nil] at hfuel
  obtain ⟨fuel, rfl⟩ : ∃ k, fuel = k + 2 := ⟨fuel - 2, by omega⟩
  simp only [List.cons_append, List.append_assoc, List.nil_append]
  cases items with
  | nil => rfl
  | cons item items =>
    -- the first character is that of the first item, so it ends no array
    obtain ⟨c, text, hwrite, hspace, hbracket⟩ :=
      (hfree item List.mem_cons_self).exists_write_eq_cons
    obtain ⟨tail, htail⟩ : ∃ tail, Json.writeItems (item :: items) ++ ']' :: rest = c :: tail := by
      cases items with
      | nil => exact ⟨_, by rw [Json.writeItems, hwrite]; rfl⟩
      | cons => exact ⟨_, by rw [Json.writeItems_cons_cons, hwrite]; rfl⟩
    have hfirst : dropSpace (Json.writeItems (item :: items) ++ ']' :: rest) = c :: tail := by
      rw [htail, dropSpace, List.dropWhile_cons_of_neg (by simp [hspace])]
    exact readValue_array hfirst hbracket (readItems_writeItems hread (by omega))

/-- The text of an object shows the object, if the texts of its members show them. -/
theorem readsBack_object {members : List (String × Json)}
    (hread : ∀ member ∈ members, ReadsBack member.2) : ReadsBack (.object members) := by
  intro fuel rest hfuel _
  rw [Json.write] at hfuel ⊢
  simp only [List.length_cons, List.length_append, List.length_nil] at hfuel
  obtain ⟨fuel, rfl⟩ : ∃ k, fuel = k + 2 := ⟨fuel - 2, by omega⟩
  simp only [List.cons_append, List.append_assoc, List.nil_append]
  cases members with
  | nil => rfl
  | cons member members =>
    obtain ⟨key, value⟩ := member
    have hlength : 3 * (Json.writeMembers ((key, value) :: members)).length ≤ fuel := by omega
    rw [Json.writeMembers_cons, List.cons_append, List.append_assoc, List.cons_append,
      List.cons_append, List.append_assoc]
    exact readValue_object rfl (readMembers_write hread hlength)

/-- **Reading what has been written**: a value without floating point numbers is shown by its
text. -/
theorem Json.FloatFree.readsBack {value : Json} (h : value.FloatFree) : ReadsBack value := by
  induction h with
  | null =>
    intro fuel rest hfuel _
    obtain ⟨fuel, rfl⟩ : ∃ k, fuel = k + 1 := ⟨fuel - 1, by simp [Json.write] at hfuel; omega⟩
    rfl
  | bool b =>
    intro fuel rest hfuel _
    obtain ⟨fuel, rfl⟩ : ∃ k, fuel = k + 1 :=
      ⟨fuel - 1, by cases b <;> simp [Json.write] at hfuel <;> omega⟩
    cases b <;> rfl
  | whole n => exact readsBack_whole n
  | string s =>
    intro fuel rest hfuel _
    obtain ⟨fuel, rfl⟩ : ∃ k, fuel = k + 1 :=
      ⟨fuel - 1, by simp [Json.write, Json.writeString] at hfuel; omega⟩
    rw [Json.write, Json.writeString, List.cons_append, List.cons_append, List.append_assoc,
      List.cons_append, List.nil_append]
    show readString _ = _
    rw [readString_flatMap_escape, Json.draft]
  | array hitems ih => exact readsBack_array hitems ih
  | object hmembers ih => exact readsBack_object ih

/-- **Decoding a text** of a value is decoding the value. -/
theorem decode_text {α : Type} (decoder : Decoder α) {value : Json} (h : value.FloatFree) :
    decode decoder value.text = decoder {} value.draft := by
  have hread : read value.text.toList = ⟨value.draft, .ok []⟩ := by
    have hvalue := h.readsBack (3 * value.write.length + 3) [] (by omega) Numeral.endsNumber_nil
    rw [List.append_nil] at hvalue
    rw [Json.text, String.toList_ofList, read, hvalue]
  rw [decode, hread]
  cases decoder {} value.draft <;> rfl

end WorkflowChart
