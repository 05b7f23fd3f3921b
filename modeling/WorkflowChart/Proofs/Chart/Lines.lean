import WorkflowChart.Chart.Line
import WorkflowChart.Proofs.Chart.NodeIds

/-!
# The lines of a text

The text of lines determines the lines, although labels may contain line feeds: a label follows the
id of its node, and the id says how the label goes on.

* **`Line.lead`**: the word that a line begins with, which is a keyword or the id of a node.
* **`Line.text_append_unique`**: a text that begins with a line begins with one line only.
* **`Line.parts_of_text_eq`**: the lead of a line is the word that its text begins with.
* **`Line.textOf_injective`**: different lines have different texts.
-/

namespace WorkflowChart

/-! ## Directions and shapes -/

/-- The letters of a direction determine the direction, also where a text goes on in a new line. -/
theorem Direction.letters_append_unique {a b : Direction} {r s : List Char}
    (h : a.letters.toList ++ '\n' :: r = b.letters.toList ++ '\n' :: s) : a = b ∧ r = s := by
  have hletters : ∀ d : Direction, ∀ c ∈ d.letters.toList, (c ≠ '\n' : Bool) = true := by
    intro d
    rw [← List.all_eq_true]
    cases d <;> decide
  obtain ⟨heq, -, hrest⟩ := split_unique (hletters a) (hletters b) (by decide) (by decide) h
  refine ⟨?_, hrest⟩
  revert heq
  cases a <;> cases b <;> decide

namespace Shape

/-- The opening bracket before a label determines the shape. -/
theorem opening_append_unique {a b : Shape} {r s : List Char}
    (h : a.opening.toList ++ '"' :: r = b.opening.toList ++ '"' :: s) : a = b ∧ r = s := by
  have hopening : ∀ shape : Shape, ∀ c ∈ shape.opening.toList, (c ≠ '"' : Bool) = true := by
    intro shape
    rw [← List.all_eq_true]
    cases shape <;> decide
  obtain ⟨heq, -, hrest⟩ := split_unique (hopening a) (hopening b) (by decide) (by decide) h
  refine ⟨?_, hrest⟩
  revert heq
  cases a <;> cases b <;> decide

/-- An opening bracket begins with a character that is neither one of an id nor white. -/
theorem exists_opening_eq_cons (shape : Shape) :
    ∃ c rest, shape.opening.toList = c :: rest ∧ Node.isIdChar c = false ∧ c ≠ '\n' ∧ c ≠ ' ' := by
  cases shape <;> exact ⟨_, _, rfl, by decide, by decide, by decide⟩

end Shape

/-- A label begins with a quote. -/
theorem exists_toList_label (name : String) :
    ∃ rest, (label name).toList = '"' :: rest := by
  simp [label]

namespace Line

/-- A line ends at its line feed: the colour in it, if any, has none. -/
def Delimited : Line → Prop
  | fill _ color => '\n' ∉ color.toList
  | _ => True

/-! ## The lead of a line -/

/-- The word that a line begins with: a keyword, or the id of a node. -/
def lead : Line → String ⊕ Node
  | header _ => .inl "flowchart"
  | start node | declaration node _ | edge node _ => .inr node
  | opening _ => .inl "subgraph"
  | layout _ => .inl "direction"
  | closing => .inl "end"
  | dashed _ | fill _ _ => .inl "style"
  | click _ => .inl "click"
  | blank => .inl ""

/-- The characters of the lead of a line. -/
def leadChars (line : Line) : List Char :=
  line.lead.elim String.toList fun node => node.id.toList

/-- The characters of a line that come after its lead. -/
def afterLead : Line → List Char
  | header direction | layout direction => ' ' :: direction.letters.toList
  | start _ | closing | blank => []
  | declaration node shape =>
    shape.opening.toList ++ ((label node.name).toList ++ shape.closing.toList)
  | opening node => ' ' :: (node.id.toList ++ ' ' :: '[' :: ((label node.name).toList ++ [']']))
  | dashed node => ' ' :: (node.id.toList ++ ' ' :: "stroke-dasharray: 5 5".toList)
  | fill node color => ' ' :: (node.id.toList ++ ' ' :: ("fill:".toList ++ color.toList))
  | click node => ' ' :: (node.id.toList ++ ' ' :: ("callback ".toList ++ (label node.name).toList))
  | edge _ target => " --> ".toList ++ target.id.toList

/-- The text of a line is its beginning and what comes after it. -/
theorem toList_text (line : Line) : line.text.toList = line.leadChars ++ line.afterLead := by
  cases line <;> simp [text, leadChars, lead, afterLead]

/-- A lead is made of characters of ids. -/
theorem isIdChar_of_mem_leadChars (line : Line) :
    ∀ c ∈ line.leadChars, Node.isIdChar c = true := by
  cases line with
  | start node | declaration node _ | edge node _ => exact node.isIdChar_of_mem_id
  | header | opening | layout | closing | dashed | fill | click | blank =>
    simp [leadChars, lead, Node.isIdChar, Node.isPlain]

/-- What comes after a lead begins with a character that no id has. -/
theorem exists_afterLead_eq_cons (line : Line) (rest : List Char) :
    ∃ c after, line.afterLead ++ '\n' :: rest = c :: after ∧ Node.isIdChar c = false := by
  cases line with
  | declaration node shape =>
    obtain ⟨c, bracket, hopening, hc, -⟩ := shape.exists_opening_eq_cons
    exact ⟨c, _, by rw [afterLead, hopening]; rfl, hc⟩
  | start | closing | blank => exact ⟨'\n', rest, rfl, by decide⟩
  | header | layout | opening | dashed | fill | click | edge => exact ⟨' ', _, rfl, by decide⟩

/-- The characters of a lead determine the lead, since keywords have no hyphen. -/
theorem lead_eq_of_leadChars_eq {a b : Line} (h : a.leadChars = b.leadChars) :
    a.lead = b.lead := by
  -- the id of a node has a hyphen, and no keyword has one
  have hkeyword : ∀ (line : Line) (word : String), line.lead = .inl word → '-' ∉ word.toList := by
    intro line word hword
    cases line <;> cases hword <;> decide
  rw [leadChars, leadChars] at h
  cases ha : a.lead with
  | inl word =>
    cases hb : b.lead with
    | inl other =>
      rw [ha, hb] at h
      exact congrArg _ (String.toList_inj.1 h)
    | inr node =>
      rw [ha, hb] at h
      have hhyphen : '-' ∈ word.toList := (show word.toList = _ from h) ▸ node.hyphen_mem_id
      exact absurd hhyphen (hkeyword a word ha)
  | inr node =>
    cases hb : b.lead with
    | inl word =>
      rw [ha, hb] at h
      have hhyphen : '-' ∈ word.toList := (show _ = word.toList from h) ▸ node.hyphen_mem_id
      exact absurd hhyphen (hkeyword b word hb)
    | inr other =>
      rw [ha, hb] at h
      exact congrArg _ (Node.id_injective (String.toList_inj.1 h))

/-! ## Reading a line back -/

/-- What comes after the lead of a line determines the line among those of the same lead. -/
theorem afterLead_append_unique {a b : Line} (ha : a.Delimited) (hb : b.Delimited)
    (hlead : a.lead = b.lead) {r s : List Char}
    (h : a.afterLead ++ '\n' :: r = b.afterLead ++ '\n' :: s) : a = b ∧ r = s := by
  have hspace : Node.isIdChar ' ' = false := by decide
  have hfeed : Node.isIdChar '\n' = false := by decide
  cases a <;> cases b <;> simp only [lead, reduceCtorEq, Sum.inl.injEq, Sum.inr.injEq,
    String.reduceEq] at hlead
  case header.header | layout.layout =>
    obtain ⟨rfl, hrest⟩ := Direction.letters_append_unique (List.tail_eq_of_cons_eq h)
    exact ⟨rfl, hrest⟩
  case closing.closing | blank.blank =>
    exact ⟨rfl, List.tail_eq_of_cons_eq h⟩
  case opening.opening | dashed.dashed | click.click =>
    -- the id ends at the space after it, and the rest of the line is a matter of the node
    simp only [afterLead, List.cons_append, List.append_assoc, List.cons.injEq, true_and] at h
    obtain ⟨rfl, -, hrest⟩ := Node.id_append_unique hspace hspace h
    simpa using hrest
  case fill.fill n color m other =>
    simp only [afterLead, List.cons_append, List.append_assoc, List.cons.injEq, true_and] at h
    obtain ⟨rfl, -, hcolors⟩ := Node.id_append_unique hspace hspace h
    -- a colour may hold anything else, but it has no line feed
    have hplain : ∀ text : String, '\n' ∉ text.toList →
        ∀ c ∈ text.toList, (c ≠ '\n' : Bool) = true :=
      fun text htext c hc => decide_eq_true fun heq => htext (heq ▸ hc)
    obtain ⟨hcolor, -, hrest⟩ := split_unique (hplain color ha) (hplain other hb) (by decide)
      (by decide) (List.append_cancel_left hcolors)
    obtain rfl := String.toList_inj.1 hcolor
    exact ⟨rfl, hrest⟩
  case dashed.fill | fill.dashed =>
    simp only [afterLead, List.cons_append, List.append_assoc, List.cons.injEq, true_and] at h
    obtain ⟨-, -, hrest⟩ := Node.id_append_unique hspace hspace h
    simp at hrest
  case start.start =>
    subst hlead
    exact ⟨rfl, List.tail_eq_of_cons_eq h⟩
  case edge.edge =>
    subst hlead
    simp only [afterLead, List.append_assoc] at h
    obtain ⟨rfl, -, hrest⟩ := Node.id_append_unique hfeed hfeed (List.append_cancel_left h)
    exact ⟨rfl, hrest⟩
  case declaration.declaration node shape other shape' =>
    -- the label is the same, so only the shape is left to tell
    subst hlead
    obtain ⟨rest, hlabel⟩ := exists_toList_label node.name
    simp only [afterLead, List.append_assoc, hlabel, List.cons_append] at h
    obtain ⟨rfl, hrest⟩ := Shape.opening_append_unique h
    simpa using hrest
  case start.edge | edge.start => simp [afterLead] at h
  case start.declaration node other shape =>
    obtain ⟨c, _, hopening, -, hfeed, -⟩ := shape.exists_opening_eq_cons
    rw [afterLead, afterLead, hopening] at h
    exact absurd (List.head_eq_of_cons_eq h).symm hfeed
  case declaration.start node shape other =>
    obtain ⟨c, _, hopening, -, hfeed, -⟩ := shape.exists_opening_eq_cons
    rw [afterLead, afterLead, hopening] at h
    exact absurd (List.head_eq_of_cons_eq h) hfeed
  case edge.declaration source target other shape =>
    obtain ⟨c, _, hopening, -, -, hspace⟩ := shape.exists_opening_eq_cons
    rw [afterLead, afterLead, hopening] at h
    exact absurd (List.head_eq_of_cons_eq h).symm hspace
  case declaration.edge node shape source target =>
    obtain ⟨c, _, hopening, -, -, hspace⟩ := shape.exists_opening_eq_cons
    rw [afterLead, afterLead, hopening] at h
    exact absurd (List.head_eq_of_cons_eq h) hspace

/-- **A line can be read back.** A text that begins with a line and a line feed begins with no
other. -/
theorem text_append_unique {a b : Line} (ha : a.Delimited) (hb : b.Delimited) {r s : List Char}
    (h : a.text.toList ++ '\n' :: r = b.text.toList ++ '\n' :: s) : a = b ∧ r = s := by
  rw [toList_text, toList_text, List.append_assoc, List.append_assoc] at h
  obtain ⟨x, afterA, hafterA, hx⟩ := a.exists_afterLead_eq_cons r
  obtain ⟨y, afterB, hafterB, hy⟩ := b.exists_afterLead_eq_cons s
  -- the lead ends at the first character that no id has, so it is the same on both sides
  have hsplit := h
  rw [hafterA, hafterB] at hsplit
  obtain ⟨hlead, -, -⟩ :=
    split_unique a.isIdChar_of_mem_leadChars b.isIdChar_of_mem_leadChars hx hy hsplit
  rw [hlead] at h
  exact afterLead_append_unique ha hb (lead_eq_of_leadChars_eq hlead) (List.append_cancel_left h)

/-- **The lead of a line** is the word of characters of ids that its text begins with. -/
theorem parts_of_text_eq {line : Line} {word rest : List Char}
    (hword : ∀ c ∈ word, Node.isIdChar c = true)
    (hrest : ∀ c ∈ rest.head?, Node.isIdChar c = false) (h : line.text.toList = word ++ rest) :
    line.leadChars = word ∧ line.afterLead = rest := by
  -- both words end where the line feed or another character comes that no id has
  have hend : ∃ c after, rest ++ ['\n'] = c :: after ∧ Node.isIdChar c = false := by
    cases rest with
    | nil => exact ⟨'\n', [], rfl, by decide⟩
    | cons c rest => exact ⟨c, rest ++ ['\n'], rfl, hrest c rfl⟩
  obtain ⟨c, after, hcons, hc⟩ := hend
  obtain ⟨d, after', hcons', hd⟩ := line.exists_afterLead_eq_cons []
  have hchars : line.leadChars ++ (line.afterLead ++ ['\n']) = word ++ (rest ++ ['\n']) := by
    rw [← List.append_assoc, ← toList_text, h, List.append_assoc]
  have hsplit := hchars
  rw [hcons, hcons'] at hsplit
  obtain ⟨hlead, -, -⟩ := split_unique line.isIdChar_of_mem_leadChars hword hd hc hsplit
  rw [hlead] at hchars
  exact ⟨hlead, List.append_cancel_right (List.append_cancel_left hchars)⟩

/-- **Lines can be read back from their text**, if no colour in them has a line feed. -/
theorem textOf_injective {a b : List Line} (ha : ∀ line ∈ a, line.Delimited)
    (hb : ∀ line ∈ b, line.Delimited) (h : textOf a = textOf b) : a = b := by
  have hcons : ∀ (line : Line) (lines : List Line),
      (textOf (line :: lines)).toList = line.text.toList ++ '\n' :: (textOf lines).toList := by
    intro line lines
    simp [textOf]
  have hchars := congrArg String.toList h
  clear h
  induction a generalizing b with
  | nil =>
    cases b with
    | nil => rfl
    | cons line lines =>
      rw [hcons] at hchars
      simp [textOf] at hchars
  | cons line lines ih =>
    cases b with
    | nil =>
      rw [hcons] at hchars
      simp [textOf] at hchars
    | cons other others =>
      rw [hcons, hcons] at hchars
      rw [List.forall_mem_cons] at ha hb
      -- the first line ends at the same line feed in both
      obtain ⟨rfl, hrest⟩ := text_append_unique ha.1 hb.1 hchars
      rw [ih ha.2 hb.2 hrest]

end Line

end WorkflowChart
