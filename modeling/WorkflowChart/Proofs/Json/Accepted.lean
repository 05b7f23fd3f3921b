import WorkflowChart.Proofs.Json.Written

/-!
# Every JSON text is decoded

A text that the grammar tells of is read to its end, and there is a value for it. The induction is
on how the text is derived: a part is read whatever follows it, as long as this does not go on as a
number.

* **`QuotedText.exists_standsFor`**: what stands between quotes stands for a text.
* **`Derives.isRead`**: a part of a text is read.
* **`exists_decode_of_isJson`**: a JSON text is decoded.
-/

namespace WorkflowChart

open Numeral (EndsNumber)

/-! ## Texts in quotes -/

namespace Quotation

/-- A short escape stands for its character. -/
theorem scan_shortEscape {c d : Char} (h : shortEscape? c = some d) (rest : List Char) :
    scan ('\\' :: c :: rest) = cons (.char d) (scan rest) := by
  have hc : c ≠ 'u' := by
    rintro rfl
    cases h
  rw [scan, h]
  all_goals simp [hc]

/-- The quotation is closed, and stands for a text. -/
def StandsFor (quotation : Quotation) (cs rest : List Char) : Prop :=
  quotation.rest = .ok rest ∧ chars none quotation.pieces = .ok cs

section StandsFor

variable {quotation : Quotation} {cs rest : List Char}

/-- One more character in front of a quotation is one more in front of its text. -/
theorem StandsFor.cons (h : quotation.StandsFor cs rest) (c : Char) :
    (cons (.char c) quotation).StandsFor (c :: cs) rest := by
  refine ⟨h.1, ?_⟩
  rw [Quotation.cons, chars, h.2]
  rfl

/-- A number escape that is no half of a pair stands for a character. -/
theorem StandsFor.cons_unit (h : quotation.StandsFor cs rest) {unit : Nat}
    (hwhole : unit < 0xd800 ∨ 0xdfff < unit) :
    (Quotation.cons (.ofUnit unit) quotation).StandsFor (Char.ofNat unit :: cs) rest := by
  have hpiece : Piece.ofUnit unit = .char (Char.ofNat unit) := if_neg (by omega)
  rw [hpiece]
  exact h.cons _

/-- The halves of a pair stand for one character. -/
theorem StandsFor.cons_pair (h : quotation.StandsFor cs rest) {leading trailing : Nat}
    (hleading : 0xd800 ≤ leading ∧ leading < 0xdc00)
    (htrailing : 0xdc00 ≤ trailing ∧ trailing ≤ 0xdfff) :
    ∃ c, (Quotation.cons (.ofUnit leading)
      (Quotation.cons (.ofUnit trailing) quotation)).StandsFor (c :: cs) rest := by
  obtain ⟨c, hpair⟩ : ∃ c, pair? leading trailing = some c :=
    ⟨_, if_pos ⟨hleading.2, htrailing.1⟩⟩
  have hfirst : Piece.ofUnit leading = .half leading := if_pos (by omega)
  have hsecond : Piece.ofUnit trailing = .half trailing := if_pos (by omega)
  refine ⟨c, h.1, ?_⟩
  rw [hfirst, hsecond, Quotation.cons, Quotation.cons, chars, hpair, h.2]
  rfl

/-- A quotation that stands for a text is decoded to it. -/
theorem StandsFor.text_eq (h : quotation.StandsFor cs rest) :
    quotation.text = .ok (String.ofList cs) := by
  rw [text, flaw?, h.1, h.2]
  rfl

end StandsFor

end Quotation

/-- **What stands between quotes** is scanned up to the closing quote, and stands for a text. -/
theorem QuotedText.exists_standsFor {text : List Char} (h : QuotedText text) (rest : List Char) :
    ∃ cs, (Quotation.scan (text ++ '"' :: rest)).StandsFor cs rest := by
  induction h with
  | nil => exact ⟨[], rfl, rfl⟩
  | char hquote hbackslash hcontrol _ ih =>
    obtain ⟨cs, hcs⟩ := ih
    rw [List.cons_append, Quotation.scan_char hquote hbackslash hcontrol]
    exact ⟨_, hcs.cons _⟩
  | escape hescape _ ih =>
    obtain ⟨cs, hcs⟩ := ih
    rw [List.cons_append, List.cons_append, Quotation.scan_shortEscape hescape]
    exact ⟨_, hcs.cons _⟩
  | unit hunit hwhole _ ih =>
    obtain ⟨cs, hcs⟩ := ih
    simp only [List.cons_append]
    rw [Quotation.scan_unit hunit]
    exact ⟨_, hcs.cons_unit hwhole⟩
  | pair hleading htrailing hfirst hsecond _ ih =>
    obtain ⟨cs, hcs⟩ := ih
    simp only [List.cons_append]
    rw [Quotation.scan_unit hleading, Quotation.scan_unit htrailing]
    obtain ⟨c, hpair⟩ := hcs.cons_pair hfirst hsecond
    exact ⟨_, hpair⟩

/-! ## Space -/

section Space

variable {space : List Char}

/-- Space in front of a text is dropped with the space that the text begins with. -/
theorem dropSpace_append (h : IsSpaces space) (text : List Char) :
    dropSpace (space ++ text) = dropSpace text :=
  List.dropWhile_append_of_pos h

/-- Space in front of a value does not change how the value is read. -/
theorem readValue_append (h : IsSpaces space) (fuel : Nat) (text : List Char) :
    readValue fuel (space ++ text) = readValue fuel text := by
  rw [← readValue_dropSpace, dropSpace_append h, readValue_dropSpace]

/-- Space is not taken for more of a number. -/
theorem endsNumber_append (h : IsSpaces space) {rest : List Char} (hrest : EndsNumber rest) :
    EndsNumber (space ++ rest) := by
  cases space with
  | nil => exact hrest
  | cons c space =>
    have hspace : isSpace c = true := h c List.mem_cons_self
    refine Numeral.endsNumber_cons ?_
    obtain rfl | rfl | rfl | rfl : c = ' ' ∨ c = '\t' ∨ c = '\n' ∨ c = '\r' := by
      simpa [isSpace] using hspace
    all_goals decide

end Space

/-! ## Parts

Each way to derive a part is a way in which the part is read. -/

/-- The first character of a value is no space and no bracket that closes. -/
theorem Derives.exists_value_eq_cons {room : Nat} {text : List Char}
    (h : Derives .value room text) :
    ∃ c tail, text = c :: tail ∧ isSpace c = false ∧ c ≠ ']' := by
  cases h with
  | keyword hword =>
    simp only [List.mem_cons, List.not_mem_nil, or_false] at hword
    rcases hword with rfl | rfl | rfl <;> exact ⟨_, _, rfl, by decide, by decide⟩
  | number htext =>
    obtain ⟨c, tail, rfl, rfl | hdigit⟩ := htext.exists_eq_cons
    · exact ⟨_, _, rfl, by decide, by decide⟩
    · exact ⟨_, _, rfl, isSpace_of_isDigit hdigit, ne_of_isDigit hdigit (by decide)⟩
  | string | emptyArray | array | emptyObject | object =>
    exact ⟨_, _, rfl, by decide, by decide⟩

/-- The first character of elements that is no space closes no array. -/
theorem Derives.exists_element_eq_cons {room : Nat} {text : List Char}
    (h : Derives .element room text) (rest : List Char) :
    ∃ c tail, dropSpace (text ++ rest) = c :: tail ∧ c ≠ ']' := by
  cases h with
  | element hbefore hvalue hafter =>
    obtain ⟨c, tail, rfl, hspace, hbracket⟩ := hvalue.exists_value_eq_cons
    rw [List.append_assoc, dropSpace_append hbefore, List.cons_append, List.cons_append, dropSpace,
      List.dropWhile_cons_of_neg (by simp [hspace])]
    exact ⟨c, _, rfl, hbracket⟩

/-- An array that has elements does not go on with its closing bracket. -/
theorem Derives.exists_elements_eq_cons {room : Nat} {text : List Char}
    (h : Derives .elements room text) (rest : List Char) :
    ∃ c tail, dropSpace (text ++ rest) = c :: tail ∧ c ≠ ']' := by
  cases h with
  | lastElement helement => exact helement.exists_element_eq_cons rest
  | moreElements helement _ =>
    rw [List.append_assoc]
    exact helement.exists_element_eq_cons _

/-- What reading a part comes to, whatever follows it. The steps that are needed nest at most about
three times as deep as the part is long. -/
def IsRead : Part → Nat → List Char → Prop
  | .value, room, text => ∀ fuel rest, 3 * text.length ≤ fuel → EndsNumber rest →
      ∃ shown value, readValue fuel (text ++ rest) = ⟨shown, .ok rest⟩ ∧
        Draft.json room shown = .ok value
  | .element, room, text => ∀ fuel rest, 3 * text.length ≤ fuel → EndsNumber rest →
      ∃ shown after value, readValue fuel (text ++ rest) = ⟨shown, .ok after⟩ ∧
        dropSpace after = dropSpace rest ∧ Draft.json room shown = .ok value
  | .elements, room, text => ∀ fuel rest, 3 * text.length < fuel →
      ∃ items values, readItems fuel (text ++ ']' :: rest) = ⟨items, .ok rest⟩ ∧
        Draft.jsonItems room items = .ok values
  | .member, room, text => ∀ fuel rest, 3 * text.length ≤ fuel + 1 → EndsNumber rest →
      ∃ body key shown after value, dropSpace (text ++ rest) = '"' :: body ∧
        readMembers (fuel + 1) body = .cons (.ok key, shown) (readMoreMembers fuel after) ∧
        dropSpace after = dropSpace rest ∧ Draft.json room shown = .ok value
  | .members, room, text => ∀ fuel rest, 3 * text.length + 2 ≤ fuel →
      ∃ body members, dropSpace (text ++ '}' :: rest) = '"' :: body ∧
        readMembers fuel body = ⟨members, .ok rest⟩ ∧
        ∀ before, ∃ values, Draft.jsonMembers room before members = .ok values

section Parts

variable {room : Nat} {text more : List Char}

/-- A keyword is read as what it stands for. -/
theorem isRead_keyword {word : String} (hword : word ∈ ["null", "true", "false"]) :
    IsRead .value room word.toList := by
  intro fuel rest hfuel _
  simp only [List.mem_cons, List.not_mem_nil, or_false] at hword
  obtain ⟨fuel, rfl⟩ : ∃ k, fuel = k + 1 := ⟨fuel - 1, by
    rcases hword with rfl | rfl | rfl <;> simp at hfuel <;> omega⟩
  rcases hword with rfl | rfl | rfl <;> exact ⟨_, _, rfl, rfl⟩

/-- A number is read up to its end, which the text after it must not put off. -/
theorem isRead_number {numeral : Numeral} {n : Number} (htext : Numeral.NumberText text numeral)
    (hvalue : numeral.number? = some n) : IsRead .value room text := by
  intro fuel rest hfuel hrest
  have hscan := Numeral.scan_append htext hrest
  obtain ⟨c, tail, rfl, hfirst⟩ := htext.exists_eq_cons
  rw [List.length_cons] at hfuel
  obtain ⟨fuel, rfl⟩ : ∃ k, fuel = k + 1 := ⟨fuel - 1, by omega⟩
  rw [List.cons_append] at hscan
  refine ⟨.bare (.ok (.number n)) none, _, ?_, rfl⟩
  rw [List.cons_append, readValue_number hfirst, readNumber, hscan]
  simp only [hvalue]

/-- A text in quotes is read up to the closing quote. -/
theorem isRead_string (hquoted : QuotedText text) :
    IsRead .value room ('"' :: (text ++ ['"'])) := by
  intro fuel rest hfuel _
  rw [List.length_cons] at hfuel
  obtain ⟨fuel, rfl⟩ : ∃ k, fuel = k + 1 := ⟨fuel - 1, by omega⟩
  obtain ⟨cs, hcs⟩ := hquoted.exists_standsFor rest
  refine ⟨.string (.ok (String.ofList cs)) none, _, ?_, rfl⟩
  rw [List.cons_append, List.append_assoc, List.cons_append, List.nil_append]
  show readString _ = _
  rw [readString, Quotation.flaw?, hcs.text_eq, hcs.1]

/-- Brackets with nothing but space between them are read as an array. -/
theorem isRead_emptyArray {space : List Char} (hspace : IsSpaces space) :
    IsRead .value (room + 1) ('[' :: (space ++ [']'])) := by
  intro fuel rest hfuel _
  simp only [List.length_cons, List.length_append, List.length_nil] at hfuel
  obtain ⟨fuel, rfl⟩ : ∃ k, fuel = k + 2 := ⟨fuel - 2, by omega⟩
  refine ⟨.array [] none, _, ?_, rfl⟩
  rw [List.cons_append, List.append_assoc, List.cons_append, List.nil_append]
  show (readFirstItem (fuel + 1) _).array = _
  rw [readFirstItem, dropSpace_append hspace]
  rfl

/-- Elements in brackets are read as an array, which nests one deeper than they do. -/
theorem isRead_array (helements : Derives .elements room text) (h : IsRead .elements room text) :
    IsRead .value (room + 1) ('[' :: (text ++ [']'])) := by
  intro fuel rest hfuel _
  simp only [List.length_cons, List.length_append, List.length_nil] at hfuel
  obtain ⟨fuel, rfl⟩ : ∃ k, fuel = k + 2 := ⟨fuel - 2, by omega⟩
  obtain ⟨items, values, hread, hvalues⟩ := h fuel rest (by omega)
  obtain ⟨c, tail, hfirst, hbracket⟩ := helements.exists_elements_eq_cons (']' :: rest)
  refine ⟨.array items none, .array values, ?_, ?_⟩
  · rw [List.cons_append, List.append_assoc, List.cons_append, List.nil_append]
    exact readValue_array hfirst hbracket hread
  · rw [Draft.json, hvalues]
    rfl

/-- Braces with nothing but space between them are read as an object. -/
theorem isRead_emptyObject {space : List Char} (hspace : IsSpaces space) :
    IsRead .value (room + 1) ('{' :: (space ++ ['}'])) := by
  intro fuel rest hfuel _
  simp only [List.length_cons, List.length_append, List.length_nil] at hfuel
  obtain ⟨fuel, rfl⟩ : ∃ k, fuel = k + 2 := ⟨fuel - 2, by omega⟩
  refine ⟨.object [] none, _, ?_, rfl⟩
  rw [List.cons_append, List.append_assoc, List.cons_append, List.nil_append]
  show readFirstMember (fuel + 1) _ = _
  rw [readFirstMember, dropSpace_append hspace]
  rfl

/-- Members in braces are read as an object, which nests one deeper than they do. -/
theorem isRead_object (h : IsRead .members room text) :
    IsRead .value (room + 1) ('{' :: (text ++ ['}'])) := by
  intro fuel rest hfuel _
  simp only [List.length_cons, List.length_append, List.length_nil] at hfuel
  obtain ⟨fuel, rfl⟩ : ∃ k, fuel = k + 2 := ⟨fuel - 2, by omega⟩
  obtain ⟨body, members, hquote, hread, hvalues⟩ := h fuel rest (by omega)
  obtain ⟨values, hvalues⟩ := hvalues []
  refine ⟨.object members none, .object values, ?_, ?_⟩
  · rw [List.cons_append, List.append_assoc, List.cons_append, List.nil_append]
    exact readValue_object hquote hread
  · rw [Draft.json, hvalues]
    rfl

/-- A value is read with the space around it. -/
theorem isRead_element {before after : List Char} (hbefore : IsSpaces before)
    (hafter : IsSpaces after) (h : IsRead .value room text) :
    IsRead .element room (before ++ (text ++ after)) := by
  intro fuel rest hfuel hrest
  simp only [List.length_append] at hfuel
  obtain ⟨shown, value, hread, hvalue⟩ :=
    h fuel (after ++ rest) (by omega) (endsNumber_append hafter hrest)
  refine ⟨shown, after ++ rest, value, ?_, dropSpace_append hafter rest, hvalue⟩
  rw [List.append_assoc, List.append_assoc, readValue_append hbefore, hread]

/-- A last element is read up to the closing bracket. -/
theorem isRead_lastElement (h : IsRead .element room text) : IsRead .elements room text := by
  intro fuel rest hfuel
  obtain ⟨fuel, rfl⟩ : ∃ k, fuel = k + 1 := ⟨fuel - 1, by omega⟩
  obtain ⟨shown, after, value, hread, hafter, hvalue⟩ :=
    h fuel (']' :: rest) (by omega) (Numeral.endsNumber_cons (by decide))
  refine ⟨[shown], [value], readItems_last hread hafter, ?_⟩
  rw [Draft.jsonItems, hvalue]
  rfl

/-- An element is read up to the comma, and the others after it. -/
theorem isRead_moreElements (h : IsRead .element room text) (hmore : IsRead .elements room more) :
    IsRead .elements room (text ++ ',' :: more) := by
  intro fuel rest hfuel
  rw [List.length_append, List.length_cons] at hfuel
  obtain ⟨fuel, rfl⟩ : ∃ k, fuel = k + 1 := ⟨fuel - 1, by omega⟩
  obtain ⟨shown, after, value, hread, hafter, hvalue⟩ :=
    h fuel (',' :: (more ++ ']' :: rest)) (by omega) (Numeral.endsNumber_cons (by decide))
  obtain ⟨items, values, hitems, hvalues⟩ := hmore fuel rest (by omega)
  refine ⟨shown :: items, value :: values, ?_, ?_⟩
  · rw [List.append_assoc, List.cons_append, readItems_more hread hafter, hitems]
    rfl
  · rw [Draft.jsonItems, hvalue, hvalues]
    rfl

/-- A member is read from its key on: the quotation, the colon and the element. -/
theorem isRead_member {before key after : List Char} (hbefore : IsSpaces before)
    (hkey : QuotedText key) (hafter : IsSpaces after) (h : IsRead .element room text) :
    IsRead .member room (before ++ '"' :: (key ++ '"' :: (after ++ ':' :: text))) := by
  intro fuel rest hfuel hrest
  simp only [List.length_append, List.length_cons] at hfuel
  obtain ⟨shown, left, value, hread, hleft, hvalue⟩ := h fuel rest (by omega) hrest
  obtain ⟨cs, hcs⟩ := hkey.exists_standsFor (after ++ ':' :: (text ++ rest))
  refine ⟨key ++ '"' :: (after ++ ':' :: (text ++ rest)), String.ofList cs, shown, left, value,
    ?_, ?_, hleft, hvalue⟩
  · simp only [List.append_assoc, List.cons_append]
    rw [dropSpace_append hbefore]
    rfl
  · refine readMembers_of rfl hcs.text_eq hcs.1 ?_ hread
    rw [dropSpace_append hafter]
    rfl

/-- A last member is read up to the closing brace. -/
theorem isRead_lastMember (h : IsRead .member room text) : IsRead .members room text := by
  intro fuel rest hfuel
  obtain ⟨fuel, rfl⟩ : ∃ k, fuel = k + 2 := ⟨fuel - 2, by omega⟩
  obtain ⟨body, key, shown, after, value, hquote, hread, hafter, hvalue⟩ :=
    h (fuel + 1) ('}' :: rest) (by omega) (Numeral.endsNumber_cons (by decide))
  have hclose : readMoreMembers (fuel + 1) after = ⟨[], .ok rest⟩ := by
    rw [readMoreMembers, hafter]
    rfl
  refine ⟨body, [(.ok key, shown)], hquote, ?_, fun before => ⟨before.putSorted key value, ?_⟩⟩
  · rw [hread, hclose]
    rfl
  · rw [Draft.jsonMembers, hvalue]
    rfl

/-- A member is read up to the comma, and the others after it. They are added to the members that
have been read, whatever these are. -/
theorem isRead_moreMembers (h : IsRead .member room text) (hmore : IsRead .members room more) :
    IsRead .members room (text ++ ',' :: more) := by
  intro fuel rest hfuel
  rw [List.length_append, List.length_cons] at hfuel
  obtain ⟨fuel, rfl⟩ : ∃ k, fuel = k + 2 := ⟨fuel - 2, by omega⟩
  obtain ⟨body, key, shown, after, value, hquote, hread, hafter, hvalue⟩ :=
    h (fuel + 1) (',' :: (more ++ '}' :: rest)) (by omega) (Numeral.endsNumber_cons (by decide))
  obtain ⟨nextBody, members, hnext, hmembers, hvalues⟩ := hmore fuel rest (by omega)
  have hcomma : readMoreMembers (fuel + 1) after = ⟨members, .ok rest⟩ := by
    have hdrop : dropSpace after = ',' :: (more ++ '}' :: rest) := hafter
    simp only [readMoreMembers, hdrop, hnext, hmembers]
  refine ⟨body, (.ok key, shown) :: members, ?_, ?_, fun before => ?_⟩
  · rw [List.append_assoc, List.cons_append, hquote]
  · rw [hread, hcomma]
    rfl
  · obtain ⟨values, hvalues⟩ := hvalues (before.putSorted key value)
    refine ⟨values, ?_⟩
    rw [Draft.jsonMembers, hvalue]
    exact hvalues

end Parts

/-- **A part of a text is read**, however it is derived. -/
theorem Derives.isRead {part : Part} {room : Nat} {text : List Char}
    (h : Derives part room text) : IsRead part room text := by
  induction h with
  | keyword hword => exact isRead_keyword hword
  | number htext hvalue => exact isRead_number htext hvalue
  | string hquoted => exact isRead_string hquoted
  | emptyArray hspace => exact isRead_emptyArray hspace
  | array helements ih => exact isRead_array helements ih
  | emptyObject hspace => exact isRead_emptyObject hspace
  | object _ ih => exact isRead_object ih
  | element hbefore _ hafter ih => exact isRead_element hbefore hafter ih
  | lastElement _ ih => exact isRead_lastElement ih
  | moreElements _ _ ih ihmore => exact isRead_moreElements ih ihmore
  | member hbefore hkey hafter _ ih => exact isRead_member hbefore hkey hafter ih
  | lastMember _ ih => exact isRead_lastMember ih
  | moreMembers _ _ ih ihmore => exact isRead_moreMembers ih ihmore

/-- **Every JSON text is decoded.** -/
theorem exists_decode_of_isJson {text : String} (h : IsJson text) :
    ∃ value, decode Decoder.json text = .ok value := by
  obtain ⟨shown, after, value, hread, hafter, hvalue⟩ :=
    h.isRead (3 * text.toList.length + 3) [] (by omega) Numeral.endsNumber_nil
  rw [List.append_nil] at hread
  refine ⟨value, ?_⟩
  have hdraft : Decoder.json {} shown = .ok value := by
    show orFlawed (shown.json Draft.maxDepth) = _
    rw [hvalue]
    rfl
  have hspace : dropSpace after = [] := hafter
  simp only [decode, read, hread, hdraft, bind, Except.bind, orFlawed, Except.mapError, hspace]
  rfl

end WorkflowChart
