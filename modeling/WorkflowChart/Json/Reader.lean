import WorkflowChart.Json.Draft

/-!
# Reading a text into a draft

## Main definitions

* `Reading`: something read at the head of a text together with what follows it.
* `readValue`: the draft of the value that a text begins with.
* `read`: the draft of a whole text.

Every third step at least takes a character from the text, so three times the length of the
text bounds the number of nested steps.
-/

namespace WorkflowChart

/-- Something read at the head of a text. -/
structure Reading (α : Type) where
  /-- What is read. -/
  shown : α
  /-- What follows, or the flaw that ended the reading. -/
  rest : Except Flaw (List Char)

namespace Reading

variable {α : Type}

/-- The flaw that ended a reading. -/
def flaw? (reading : Reading α) : Option Flaw :=
  match reading.rest with
  | .ok _ => none
  | .error flaw => some flaw

/-- A reading that ended in a flaw. -/
def stop (shown : α) (flaw : Flaw) : Reading α :=
  ⟨shown, .error flaw⟩

end Reading

/-- Whether a character separates the parts of a JSON text. -/
def isSpace (c : Char) : Bool :=
  c = ' ' ∨ c = '\t' ∨ c = '\n' ∨ c = '\r'

/-- A text without the space at its head. -/
def dropSpace (text : List Char) : List Char :=
  text.dropWhile isSpace

/-- Takes the rest of a keyword from the head of a text. -/
def dropWord : List Char → List Char → Except Flaw (List Char)
  | [], text => .ok text
  | _ :: _, [] => .error .cutShort
  | c :: word, d :: text => if c = d then dropWord word text else .error .malformed

/-- Reads the rest of a keyword that stands for `scalar`. -/
def readWord (word : String) (scalar : Scalar) (text : List Char) : Reading Draft :=
  match dropWord word.toList text with
  | .ok rest => ⟨.bare (.ok scalar) none, .ok rest⟩
  | .error flaw => .stop (.bare (.error flaw) (some flaw)) flaw

/-- Reads a number. One that is cut short is malformed for the one who passes over it. -/
def readNumber (text : List Char) : Reading Draft :=
  match Numeral.scan text with
  | .ok (numeral, rest) =>
    match numeral.number? with
    | some n => ⟨.bare (.ok (.number n)) none, .ok rest⟩
    | none => ⟨.bare (.error .malformed) none, .ok rest⟩
  | .error flaw => .stop (.bare (.error flaw) (some .malformed)) .malformed

/-- Reads the rest of a text in quotes. -/
def readString (text : List Char) : Reading Draft :=
  let quotation := Quotation.scan text
  ⟨.string quotation.text quotation.flaw?, quotation.rest⟩

/-- The draft of something that begins no value. -/
def noValue : Draft :=
  .bare (.error .malformed) (some .malformed)

/-- The draft of an array, with the flaw that ended it. -/
def Reading.array (items : Reading (List Draft)) : Reading Draft :=
  ⟨.array items.shown items.flaw?, items.rest⟩

/-- The draft of an object, with the flaw that ended it. -/
def Reading.object (members : Reading (List (Except Flaw String × Draft))) : Reading Draft :=
  ⟨.object members.shown members.flaw?, members.rest⟩

/-- The readings of an item and of the items after it. -/
def Reading.cons {α : Type} (first : α) (rest : Reading (List α)) : Reading (List α) :=
  ⟨first :: rest.shown, rest.rest⟩

/-- The colon after a key: what follows it, or the draft of the value that cannot come. -/
def dropColon (text : List Char) : Except (Draft × Flaw) (List Char) :=
  match dropSpace text with
  | [] => .error (.absent, .cutShort)
  | ':' :: rest => .ok rest
  | _ :: _ => .error (noValue, .malformed)

mutual

/-- The draft of the value that a text begins with, in at most `fuel` nested steps. -/
def readValue (fuel : Nat) (text : List Char) : Reading Draft :=
  match fuel with
  | 0 => .stop .absent .cutShort
  | fuel + 1 =>
    match dropSpace text with
    | [] => .stop .absent .cutShort
    | 'n' :: rest => readWord "ull" .null rest
    | 't' :: rest => readWord "rue" (.bool true) rest
    | 'f' :: rest => readWord "alse" (.bool false) rest
    | '"' :: rest => readString rest
    | '[' :: rest => (readFirstItem fuel rest).array
    | '{' :: rest => readFirstMember fuel rest
    | c :: rest => if c = '-' ∨ c.isDigit then readNumber (c :: rest) else .stop noValue .malformed

/-- The items of an array, after its bracket. -/
def readFirstItem (fuel : Nat) (text : List Char) : Reading (List Draft) :=
  match fuel with
  | 0 => .stop [] .cutShort
  | fuel + 1 =>
    match dropSpace text with
    | [] => .stop [] .cutShort
    | ']' :: rest => ⟨[], .ok rest⟩
    | text => readItems fuel text

/-- The items of an array from an item on. -/
def readItems (fuel : Nat) (text : List Char) : Reading (List Draft) :=
  match fuel with
  | 0 => .stop [] .cutShort
  | fuel + 1 =>
    let item := readValue fuel text
    match item.rest with
    | .error flaw => .stop [item.shown] flaw
    | .ok rest =>
      match dropSpace rest with
      | [] => .stop [item.shown] .cutShort
      | ']' :: rest => ⟨[item.shown], .ok rest⟩
      | ',' :: rest => .cons item.shown (readItems fuel rest)
      | _ :: _ => .stop [item.shown] .malformed

/-- The draft of an object, after its brace. -/
def readFirstMember (fuel : Nat) (text : List Char) : Reading Draft :=
  match fuel with
  | 0 => .stop .absent .cutShort
  | fuel + 1 =>
    match dropSpace text with
    | [] => .stop (.object [] (some .cutShort)) .cutShort
    | '}' :: rest => ⟨.object [] none, .ok rest⟩
    | '"' :: rest => (readMembers fuel rest).object
    | _ :: _ => .stop (.object [] (some .malformed)) .malformed

/-- The members of an object, from after the quote of a key on. -/
def readMembers (fuel : Nat) (text : List Char) : Reading (List (Except Flaw String × Draft)) :=
  match fuel with
  | 0 => .stop [] .cutShort
  | fuel + 1 =>
    let quotation := Quotation.scan text
    let key := quotation.text
    match quotation.rest with
    | .error flaw => .stop [(key, .absent)] flaw
    | .ok rest =>
      match dropColon rest with
      | .error (value, flaw) => .stop [(key, value)] flaw
      | .ok rest =>
        let value := readValue fuel rest
        match value.rest with
        | .error flaw => .stop [(key, value.shown)] flaw
        | .ok rest => .cons (key, value.shown) (readMoreMembers fuel rest)

/-- The members of an object, after a value. -/
def readMoreMembers (fuel : Nat) (text : List Char) :
    Reading (List (Except Flaw String × Draft)) :=
  match fuel with
  | 0 => .stop [] .cutShort
  | fuel + 1 =>
    match dropSpace text with
    | [] => .stop [] .cutShort
    | '}' :: rest => ⟨[], .ok rest⟩
    | ',' :: rest =>
      match dropSpace rest with
      | [] => .stop [(.error .cutShort, .absent)] .cutShort
      | '"' :: rest => readMembers fuel rest
      | _ :: _ => .stop [(.error .malformed, noValue)] .malformed
    | _ :: _ => .stop [] .malformed

end

/-- The draft of the value that a text holds. -/
def read (text : List Char) : Reading Draft :=
  readValue (3 * text.length + 3) text

end WorkflowChart
