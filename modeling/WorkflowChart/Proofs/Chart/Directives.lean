import WorkflowChart.Proofs.Chart.Edges

/-!
# Directives

A line of a chart is either about a node, with whose id it begins, or a directive that begins with a
keyword. What kind of line a text is can be told from its first word, and where an id follows the
keyword, the id can be read.

* **`Line.lead_eq_inr_of_text_eq`**: a line that begins with the id of a node is about the node.
* **`isFillText`**, **`openedBlock?`**: texts that colour a node and texts that open a block.
* **`Line.fill_of_text_eq`**, **`Line.opening_of_text_eq`**: only lines of these kinds have such
  texts.
-/

namespace WorkflowChart

/-! ## The first word of a line -/

namespace Line

/-- A line that begins with the id of a node is about the node. -/
theorem lead_eq_inr_of_text_eq {line : Line} {node : Node} {rest : List Char}
    (hrest : ∀ c ∈ rest.head?, Node.isIdChar c = false)
    (h : line.text.toList = node.id.toList ++ rest) : line.lead = .inr node := by
  have hlead : line.leadChars = (Line.start node).leadChars :=
    (parts_of_text_eq node.isIdChar_of_mem_id hrest h).1
  exact lead_eq_of_leadChars_eq hlead

/-- A line that begins with a keyword and a space has the keyword as its lead. -/
theorem lead_eq_inl_of_text_eq {line : Line} (other : Line) {keyword : String} {rest : List Char}
    (hother : other.lead = .inl keyword) (h : line.text.toList = keyword.toList ++ ' ' :: rest) :
    line.lead = .inl keyword ∧ line.afterLead = ' ' :: rest := by
  have hchars : other.leadChars = keyword.toList := by rw [leadChars, hother]; rfl
  have hkeyword : ∀ c ∈ keyword.toList, Node.isIdChar c = true :=
    hchars ▸ other.isIdChar_of_mem_leadChars
  have hspace : ∀ c ∈ (' ' :: rest).head?, Node.isIdChar c = false := by
    intro c hc
    cases hc
    decide
  obtain ⟨hlead, hafter⟩ := parts_of_text_eq hkeyword hspace h
  exact ⟨(lead_eq_of_leadChars_eq (hlead.trans hchars.symm)).trans hother, hafter⟩

end Line

/-! ## Ids after keywords -/

/-- The characters of ids that follow a keyword. -/
def idAfter (keyword text : String) : String :=
  String.ofList ((text.toList.drop keyword.toList.length).takeWhile Node.isIdChar)

/-- What is taken for an id consists of characters of ids. -/
theorem isIdText_idAfter (keyword text : String) : IsIdText (idAfter keyword text) := by
  intro c hc
  rw [idAfter, String.toList_ofList] at hc
  exact List.all_eq_true.1 List.all_takeWhile c hc

/-- An id that a space follows is read after its keyword. -/
theorem idAfter_eq {keyword id text : String} {rest : List Char} (hid : IsIdText id)
    (h : text.toList = keyword.toList ++ (id.toList ++ ' ' :: rest)) :
    idAfter keyword text = id := by
  have hspace : Node.isIdChar ' ' = false := by decide
  rw [idAfter, h, List.drop_left, List.takeWhile_append_of_pos hid, List.takeWhile_cons, hspace]
  simp

/-! ## Texts that colour a node -/

/-- The text that colours a node. -/
def fillText (id color : String) : String :=
  "style " ++ id ++ " fill:" ++ color

/-- The text of a line that colours a node, part by part. -/
theorem toList_fillText (id color : String) :
    (fillText id color).toList =
      "style ".toList ++ (id.toList ++ ' ' :: ("fill:".toList ++ color.toList)) := by
  simp [fillText]

/-- Whether a text colours a node. -/
def isFillText (text : String) : Bool :=
  let id := idAfter "style " text
  let color := String.ofList (text.toList.drop (id.toList.length + 12))
  text = fillText id color

/-- A text that colours a node can be told apart: the id in it ends at the space. -/
theorem isFillText_iff {text : String} :
    isFillText text = true ↔ ∃ id color, IsIdText id ∧ text = fillText id color := by
  rw [isFillText, decide_eq_true_eq]
  constructor
  · intro htext
    exact ⟨_, _, isIdText_idAfter _ _, htext⟩
  · rintro ⟨id, color, hid, rfl⟩
    have hcolor : (fillText id color).toList.drop (id.toList.length + 12) = color.toList := by
      have hsplit : (fillText id color).toList =
          ("style ".toList ++ id.toList ++ " fill:".toList) ++ color.toList := by
        simp [fillText]
      rw [hsplit]
      exact List.drop_left' (by simp)
    rw [idAfter_eq hid (toList_fillText id color), hcolor, String.ofList_toList]

/-! ## Texts that open a block -/

/-- The text that opens a block with a label in brackets. -/
def openingText (id label : String) : String :=
  "subgraph " ++ id ++ " [" ++ label ++ "]"

/-- The text of a line that opens a block, part by part. -/
theorem toList_openingText (id label : String) :
    (openingText id label).toList =
      "subgraph ".toList ++ (id.toList ++ ' ' :: '[' :: (label.toList ++ [']'])) := by
  simp [openingText]

/-- The id of the block that a text opens. -/
def openedBlock? (text : String) : Option String :=
  let id := idAfter "subgraph " text
  let label := String.ofList (text.toList.drop (id.toList.length + 11)).dropLast
  if text = openingText id label then some id else none

/-- A text that opens a block can be told apart, and the id of the block be read. -/
theorem openedBlock?_eq_some_iff {text id : String} :
    openedBlock? text = some id ↔ IsIdText id ∧ ∃ label, text = openingText id label := by
  rw [openedBlock?, Option.ite_none_right_eq_some, Option.some.injEq]
  constructor
  · rintro ⟨htext, rfl⟩
    exact ⟨isIdText_idAfter _ _, _, htext⟩
  · rintro ⟨hid, label, rfl⟩
    have hread := idAfter_eq hid (toList_openingText id label)
    have hlabel : ((openingText id label).toList.drop (id.toList.length + 11)).dropLast =
        label.toList := by
      have hsplit : (openingText id label).toList =
          ("subgraph ".toList ++ id.toList ++ " [".toList) ++ (label.toList ++ [']']) := by
        simp [openingText]
      have hdrop : (openingText id label).toList.drop (id.toList.length + 11) =
          label.toList ++ [']'] := by
        rw [hsplit]
        exact List.drop_left' (by simp)
      rw [hdrop, List.dropLast_concat]
    rw [hread, hlabel, String.ofList_toList]
    exact ⟨rfl, rfl⟩

/-! ## Directives among lines -/

namespace Line

/-- **Only lines that colour a node** have such a text. -/
theorem fill_of_text_eq {line : Line} {id color : String} (hid : IsIdText id)
    (h : line.text = fillText id color) : ∃ node, line = .fill node color ∧ node.id = id := by
  have hspace : Node.isIdChar ' ' = false := by decide
  have hchars := congrArg String.toList h
  rw [toList_fillText] at hchars
  have hstyle : (dashed ⟨⟨0⟩, ""⟩).lead = .inl "style" := rfl
  obtain ⟨hlead, hafter⟩ := lead_eq_inl_of_text_eq _ hstyle hchars
  cases line with
  | dashed node =>
    -- what follows the id is another word
    obtain ⟨-, -, hrest⟩ :=
      split_unique node.isIdChar_of_mem_id hid hspace hspace (List.tail_eq_of_cons_eq hafter)
    simp at hrest
  | fill node other =>
    obtain ⟨hnode, -, hrest⟩ :=
      split_unique node.isIdChar_of_mem_id hid hspace hspace (List.tail_eq_of_cons_eq hafter)
    obtain rfl : other = color := String.toList_inj.1 (List.append_cancel_left hrest)
    exact ⟨node, rfl, String.toList_inj.1 hnode⟩
  | header | start | declaration | opening | layout | closing | click | edge | blank =>
    simp [lead] at hlead

/-- **Only lines that open a block** have such a text. -/
theorem opening_of_text_eq {line : Line} {id label : String} (hid : IsIdText id)
    (h : line.text = openingText id label) : ∃ node, line = .opening node ∧ node.id = id := by
  have hspace : Node.isIdChar ' ' = false := by decide
  have hchars := congrArg String.toList h
  rw [toList_openingText] at hchars
  have hsubgraph : (opening ⟨⟨0⟩, ""⟩).lead = .inl "subgraph" := rfl
  obtain ⟨hlead, hafter⟩ := lead_eq_inl_of_text_eq _ hsubgraph hchars
  cases line with
  | opening node =>
    obtain ⟨hnode, -, -⟩ :=
      split_unique node.isIdChar_of_mem_id hid hspace hspace (List.tail_eq_of_cons_eq hafter)
    exact ⟨node, rfl, String.toList_inj.1 hnode⟩
  | header | start | declaration | dashed | fill | layout | closing | click | edge | blank =>
    simp [lead] at hlead

/-- Only the line that closes a block consists of its keyword. -/
theorem closing_of_text_eq {line : Line} (h : line.text = "end") : line = .closing := by
  have hchars : line.text.toList = "end".toList ++ [] := by rw [h, List.append_nil]
  have hword : IsIdText "end" := by decide
  have hnone : ∀ c ∈ ([] : List Char).head?, Node.isIdChar c = false := by simp
  have hlead : line.leadChars = closing.leadChars := (parts_of_text_eq hword hnone hchars).1
  have hclosing : line.lead = .inl "end" := lead_eq_of_leadChars_eq hlead
  cases line <;> simp [lead] at hclosing ⊢

end Line

end WorkflowChart
