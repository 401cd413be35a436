import Interpolation.Grammar.Basic

/-!
# Syntax trees of expressions

The context-free syntax of expressions, as the trees that it derives:

```
sentence = gap expr gap
expr     = "(" gap expr (gap "," gap expr)+ gap ")"
         | "(" gap expr gap ")"
         | quoted | number | "true" | "false" | "null"
         | name access*                                  where the name is none of the three words
access   = gap "." gap name | gap "[" gap (quoted | digits) gap "]"
quoted   = "'" (any character but "'", or "''")* "'" | '"' (any character but '"')* '"'
number   = "-"? digits ("." digits)?
```

A gap is a run of the four space characters.  Choices are not ordered here and repetitions have no
preferred length; a tree has a text, which it is written as, and a node, which it means.  Every
tree is one of the grammar: the tokens carry what their characters have to be.

## Main definitions

- `Gap`, `Name`, `Digits`, `Numeral`, `Quoted`: the tokens.
- `Access`, `Tree`, `Items`, `Sentence`: the phrases.
- `Tree.written`, `Tree.node`, `Tree.indexValues`: the text of a tree, its meaning, and the numbers
  in it that index lists.
- `Tree.phrase`: the meaning with the numbers that index lists, in their places.
-/

namespace Interpolation.Grammar

/-! ## Tokens -/

/-- A run of space characters, perhaps of none. -/
structure Gap where
  /-- The characters. -/
  chars : List Char
  /-- All of them are spaces. -/
  spaces : ∀ c ∈ chars, isSpace c = true

/-- A letter or an underscore, with letters, digits and underscores behind it. -/
structure Name where
  /-- The first character. -/
  first : Char
  /-- The characters behind it. -/
  others : List Char
  /-- A name may start with the first one. -/
  starts : isNameStart first = true
  /-- A name may go on with the others. -/
  goesOn : ∀ c ∈ others, isNameChar c = true

/-- The text of a name. -/
def Name.written (name : Name) : List Char := name.first :: name.others

/-- A run of decimal digits, at least one. -/
structure Digits where
  /-- The characters. -/
  chars : List Char
  /-- There is one. -/
  ne_nil : chars ≠ []
  /-- All of them are digits. -/
  digits : ∀ c ∈ chars, c.isDigit = true

/-- A number, perhaps with a sign, perhaps with digits behind a point. -/
structure Numeral where
  /-- Whether there is a minus sign. -/
  negative : Bool
  /-- The digits in front of the point. -/
  whole : Digits
  /-- The digits behind the point, if there is one. -/
  fraction : Option Digits

/-- The sign as it is written. -/
def Numeral.sign (n : Numeral) : List Char := if n.negative then ['-'] else []

/-- The digits and the point as they are written. -/
def Numeral.unsigned (n : Numeral) : List Char :=
  match n.fraction with
  | none => n.whole.chars
  | some fraction => n.whole.chars ++ '.' :: fraction.chars

/-- The text of a numeral. -/
def Numeral.written (n : Numeral) : List Char := n.sign ++ n.unsigned

/-- A text with each single quote written twice. -/
def doubled : List Char → List Char
  | [] => []
  | c :: cs => if c = '\'' then '\'' :: '\'' :: doubled cs else c :: doubled cs

/-- A string literal, by the text that it stands for. -/
inductive Quoted where
  /-- In single quotes, those of the text written twice. -/
  | single (text : List Char)
  /-- In double quotes, which the text does not have. -/
  | double (text : List Char) (inert : '"' ∉ text)

/-- The text of a string literal. -/
def Quoted.written : Quoted → List Char
  | single text => '\'' :: (doubled text ++ ['\''])
  | double text _ => '"' :: (text ++ ['"'])

/-- The text that a string literal stands for. -/
def Quoted.value : Quoted → String
  | single text | double text _ => String.ofList text

/-! ## Phrases -/

/-- A step of a path as it is written.  Each gap stands behind the symbol before it. -/
inductive Access where
  /-- A name behind a point. -/
  | property (before inner : Gap) (name : Name)
  /-- A string literal in brackets. -/
  | key (before inner after : Gap) (literal : Quoted)
  /-- A number in brackets. -/
  | index (before inner after : Gap) (number : Digits)

namespace Access

/-- The text of a step. -/
def written : Access → List Char
  | property before inner name => before.chars ++ '.' :: (inner.chars ++ name.written)
  | key before inner after literal =>
    before.chars ++ '[' :: (inner.chars ++ (literal.written ++ (after.chars ++ [']'])))
  | index before inner after number =>
    before.chars ++ '[' :: (inner.chars ++ (number.chars ++ (after.chars ++ [']'])))

/-- What a step means. -/
def accessor : Access → Accessor
  | property _ _ name => .property (String.ofList name.written)
  | key _ _ _ literal => .key literal.value
  | index _ _ _ number => .index (digitsValue number.chars)

/-- The number in a step that is written at `here`, if it indexes a list. -/
def indices (here : Offset) : Access → List IndexToken
  | index before inner _ number =>
    [⟨here + extent (before.chars ++ '[' :: inner.chars), digitsValue number.chars⟩]
  | _ => []

/-- The number in a step, if it indexes a list. -/
def indexValues : Access → List Nat
  | index _ _ _ number => [digitsValue number.chars]
  | _ => []

/-- The step that is written at `here`. -/
def step (here : Offset) (access : Access) : Step := ⟨access.accessor, access.indices here⟩

/-- The steps of a path that are written from `here` on. -/
def steps (here : Offset) : List Access → List Step
  | [] => []
  | access :: accesses => access.step here :: steps (here + extent access.written) accesses

theorem map_accessor_steps (here : Offset) (accesses : List Access) :
    (steps here accesses).map Step.accessor = accesses.map accessor := by
  induction accesses generalizing here with
  | nil => rfl
  | cons access accesses ih => rw [steps, List.map_cons, List.map_cons, ih, step]

/-- Nor do the numbers in it. -/
theorem map_value_steps (here : Offset) (accesses : List Access) :
    ((steps here accesses).flatMap Step.indices).map IndexToken.value =
      accesses.flatMap indexValues := by
  induction accesses generalizing here with
  | nil => rfl
  | cons access accesses ih =>
    rw [steps, List.flatMap_cons, List.flatMap_cons, List.map_append, ih]
    cases access <;> rfl

end Access

/-- The words that are no variables. -/
def keywords : List (List Char) := ["true".toList, "false".toList, "null".toList]

mutual

/-- The tree of an expression. -/
inductive Tree where
  /-- A string literal. -/
  | quoted (literal : Quoted)
  /-- A number. -/
  | number (numeral : Numeral)
  /-- One of the two truth values. -/
  | boolean (value : Bool)
  /-- No value. -/
  | null
  /-- A path, whose root is none of the words. -/
  | path (root : Name) (free : root.written ∉ keywords) (accesses : List Access)
  /-- A single expression in parentheses. -/
  | group (lead : Gap) (inner : Tree) (trail : Gap)
  /-- Two expressions or more in parentheses. -/
  | list (lead : Gap) (first : Tree) (others : Items) (trail : Gap)

/-- The items of a list behind the first one, each with a comma in front. -/
inductive Items where
  /-- The last item. -/
  | last (before lead : Gap) (item : Tree)
  /-- An item with others behind it. -/
  | more (before lead : Gap) (item : Tree) (others : Items)

end

mutual

/-- The text of a tree. -/
def Tree.written : Tree → List Char
  | .quoted literal => literal.written
  | .number numeral => numeral.written
  | .boolean value => if value then "true".toList else "false".toList
  | .null => "null".toList
  | .path root _ accesses => root.written ++ accesses.flatMap Access.written
  | .group lead inner trail => '(' :: (lead.chars ++ (inner.written ++ (trail.chars ++ [')'])))
  | .list lead first others trail =>
    '(' :: (lead.chars ++ (first.written ++ (others.written ++ (trail.chars ++ [')']))))

/-- The text of the items behind the first one, commas included. -/
def Items.written : Items → List Char
  | .last before lead item => before.chars ++ ',' :: (lead.chars ++ item.written)
  | .more before lead item others =>
    before.chars ++ ',' :: (lead.chars ++ (item.written ++ others.written))

end

mutual

/-- What a tree means.  Parentheses around a single expression leave no trace. -/
def Tree.node : Tree → Node
  | .quoted literal => .literal (.string literal.value)
  | .number numeral => .literal (.number (numberValue numeral.written))
  | .boolean value => .literal (.bool value)
  | .null => .literal .nil
  | .path root _ accesses =>
    .path ⟨String.ofList root.written, accesses.map Access.accessor⟩
  | .group _ inner _ => inner.node
  | .list _ first others _ => .list (first.node :: others.nodes)

/-- What items mean. -/
def Items.nodes : Items → List Node
  | .last _ _ item => [item.node]
  | .more _ _ item others => item.node :: others.nodes

end

mutual

/-- The numbers in a tree that index lists, in the order of the text. -/
def Tree.indexValues : Tree → List Nat
  | .path _ _ accesses => accesses.flatMap Access.indexValues
  | .group _ inner _ => inner.indexValues
  | .list _ first others _ => first.indexValues ++ others.indexValues
  | _ => []

/-- The numbers in items that index lists, in the order of the text. -/
def Items.indexValues : Items → List Nat
  | .last _ _ item => item.indexValues
  | .more _ _ item others => item.indexValues ++ others.indexValues

end

mutual

/-- A tree as a phrase that is written at `here`, with the numbers in it that index lists. -/
def Tree.phrase (here : Offset) : Tree → Phrase
  | .quoted literal => .literal (.string literal.value)
  | .number numeral => .literal (.number (numberValue numeral.written))
  | .boolean value => .literal (.bool value)
  | .null => .literal .nil
  | .path root _ accesses =>
    .path (String.ofList root.written) (Access.steps (here + extent root.written) accesses)
  | .group lead inner _ => inner.phrase (here + extent ('(' :: lead.chars))
  | .list lead first others _ =>
    .list (first.phrase (here + extent ('(' :: lead.chars)) ::
      others.phrases (here + extent ('(' :: (lead.chars ++ first.written))))

/-- The items as phrases that are written from `here` on. -/
def Items.phrases (here : Offset) : Items → List Phrase
  | .last before lead item => [item.phrase (here + extent (before.chars ++ ',' :: lead.chars))]
  | .more before lead item others =>
    item.phrase (here + extent (before.chars ++ ',' :: lead.chars)) ::
      others.phrases (here + extent (before.chars ++ ',' :: (lead.chars ++ item.written)))

end

mutual

/-- How many parentheses there are within each other. -/
def Tree.depth : Tree → Nat
  | .group _ inner _ => inner.depth + 1
  | .list _ first others _ => max first.depth others.depth + 1
  | _ => 0

/-- How many parentheses there are within each other in the deepest item. -/
def Items.depth : Items → Nat
  | .last _ _ item => item.depth
  | .more _ _ item others => max item.depth others.depth

end

/-- An expression that is a whole text. -/
structure Sentence where
  /-- The spaces in front. -/
  lead : Gap
  /-- The tree of the expression. -/
  tree : Tree
  /-- The spaces behind. -/
  trail : Gap

/-- The text of a sentence. -/
def Sentence.written (s : Sentence) : List Char :=
  s.lead.chars ++ (s.tree.written ++ s.trail.chars)

/-- The numbers that index lists in a text, in their places. -/
def Sentence.indices (s : Sentence) : List IndexToken :=
  (s.tree.phrase (extent s.lead.chars)).indices

/-! ## Meaning and place -/

mutual

/-- What a tree means does not depend on where it is written. -/
theorem Tree.node_phrase (t : Tree) (here : Offset) : (t.phrase here).node = t.node := by
  match t with
  | .quoted _ | .number _ | .boolean _ | .null => rfl
  | .path root free accesses =>
    simp only [Tree.phrase, Tree.node, Phrase.path, Access.map_accessor_steps]
  -- Parentheses leave no trace in a phrase either.
  | .group lead inner trail => exact inner.node_phrase _
  | .list lead first others trail =>
    simp only [Tree.phrase, Tree.node, Phrase.list, List.map_cons, first.node_phrase,
      others.nodes_phrases]

theorem Items.nodes_phrases (items : Items) (here : Offset) :
    (items.phrases here).map Phrase.node = items.nodes := by
  match items with
  | .last before lead item =>
    simp only [Items.phrases, Items.nodes, List.map_cons, List.map_nil, item.node_phrase]
  | .more before lead item others =>
    simp only [Items.phrases, Items.nodes, List.map_cons, item.node_phrase, others.nodes_phrases]

end

mutual

/-- The numbers in a tree do not depend on where it is written. -/
theorem Tree.map_value_indices (t : Tree) (here : Offset) :
    (t.phrase here).indices.map IndexToken.value = t.indexValues := by
  match t with
  | .quoted _ | .number _ | .boolean _ | .null => rfl
  -- Only paths have numbers that index lists.
  | .path root free accesses => exact Access.map_value_steps _ accesses
  | .group lead inner trail => exact inner.map_value_indices _
  | .list lead first others trail =>
    simp only [Tree.phrase, Tree.indexValues, Phrase.list, List.flatMap_cons, List.map_append,
      first.map_value_indices, others.map_value_indices]

/-- The numbers in items do not depend on where they are written. -/
theorem Items.map_value_indices (items : Items) (here : Offset) :
    ((items.phrases here).flatMap Phrase.indices).map IndexToken.value = items.indexValues := by
  match items with
  | .last before lead item =>
    simp only [Items.phrases, Items.indexValues, List.flatMap_cons, List.flatMap_nil,
      List.append_nil, item.map_value_indices]
  | .more before lead item others =>
    simp only [Items.phrases, Items.indexValues, List.flatMap_cons, List.map_append,
      item.map_value_indices, others.map_value_indices]

end

/-- The numbers in the steps of a path stand in its text. -/
theorem Access.exists_place {here : Offset} {accesses : List Access} {index : IndexToken}
    (h : index ∈ (steps here accesses).flatMap Step.indices) :
    ∃ u v, accesses.flatMap written = u ++ v ∧ index.place = here + extent u := by
  induction accesses generalizing here with
  | nil => cases h
  | cons access accesses ih =>
    rw [steps, List.flatMap_cons, List.mem_append] at h
    rcases h with h | h
    · cases access with
      | property => cases h
      | key => cases h
      | index before inner after number =>
        cases List.mem_singleton.mp h
        refine ⟨before.chars ++ '[' :: inner.chars,
          number.chars ++ (after.chars ++ ']' :: accesses.flatMap written), ?_, rfl⟩
        simp [written]
    · -- The number is in a later step, behind the text of this one.
      obtain ⟨u, v, hsplit, hplace⟩ := ih h
      refine ⟨access.written ++ u, v, ?_, ?_⟩
      · rw [List.flatMap_cons, hsplit, List.append_assoc]
      · rw [hplace, extent_append, Offset.add_assoc]

/-- A place in a part of a text, as a place in the text. -/
theorem exists_place_append {text front part behind : List Char} {here place : Offset}
    (htext : text = front ++ (part ++ behind))
    (h : ∃ u v, part = u ++ v ∧ place = here + extent front + extent u) :
    ∃ u v, text = u ++ v ∧ place = here + extent u := by
  obtain ⟨u, v, rfl, rfl⟩ := h
  refine ⟨front ++ u, v ++ behind, ?_, ?_⟩
  · rw [htext, List.append_assoc, List.append_assoc]
  · rw [extent_append, Offset.add_assoc]

mutual

/-- The numbers in a tree that index lists stand in its text. -/
theorem Tree.exists_place (t : Tree) {here : Offset} {index : IndexToken}
    (h : index ∈ (t.phrase here).indices) :
    ∃ u v, t.written = u ++ v ∧ index.place = here + extent u := by
  match t with
  | .quoted _ | .number _ | .boolean _ | .null => cases h
  -- In each case a part of the text is split off that the number stands in.
  | .path root _ accesses =>
    have htext : root.written ++ accesses.flatMap Access.written =
        root.written ++ (accesses.flatMap Access.written ++ []) := by simp
    exact exists_place_append htext (Access.exists_place h)
  | .group lead inner trail =>
    have htext : (Tree.group lead inner trail).written =
        ('(' :: lead.chars) ++ (inner.written ++ (trail.chars ++ [')'])) := rfl
    exact exists_place_append htext (inner.exists_place h)
  | .list lead first others trail =>
    rw [Tree.phrase, Phrase.list, List.flatMap_cons, List.mem_append] at h
    rcases h with h | h
    · have htext : (Tree.list lead first others trail).written = ('(' :: lead.chars) ++
          (first.written ++ (others.written ++ (trail.chars ++ [')']))) := rfl
      exact exists_place_append htext (first.exists_place h)
    · have htext : (Tree.list lead first others trail).written =
          ('(' :: (lead.chars ++ first.written)) ++
            (others.written ++ (trail.chars ++ [')'])) := by simp [Tree.written]
      exact exists_place_append htext (others.exists_place h)

/-- The numbers in items that index lists stand in their text. -/
theorem Items.exists_place (items : Items) {here : Offset} {index : IndexToken}
    (h : index ∈ (items.phrases here).flatMap Phrase.indices) :
    ∃ u v, items.written = u ++ v ∧ index.place = here + extent u := by
  match items with
  | .last before lead item =>
    rw [Items.phrases, List.flatMap_cons, List.flatMap_nil, List.append_nil] at h
    have htext : (Items.last before lead item).written =
        (before.chars ++ ',' :: lead.chars) ++ (item.written ++ []) := by simp [Items.written]
    exact exists_place_append htext (item.exists_place h)
  | .more before lead item others =>
    rw [Items.phrases, List.flatMap_cons, List.mem_append] at h
    rcases h with h | h
    · have htext : (Items.more before lead item others).written =
          (before.chars ++ ',' :: lead.chars) ++ (item.written ++ others.written) := by
        simp [Items.written]
      exact exists_place_append htext (item.exists_place h)
    · have htext : (Items.more before lead item others).written =
          (before.chars ++ ',' :: (lead.chars ++ item.written)) ++ (others.written ++ []) := by
        simp [Items.written]
      exact exists_place_append htext (others.exists_place h)

end

mutual

/-- Parentheses take up some of the text. -/
theorem Tree.depth_le_length (t : Tree) : t.depth ≤ t.written.length := by
  match t with
  | .quoted _ | .number _ | .boolean _ | .null | .path .. => exact Nat.zero_le _
  | .group lead inner trail =>
    have hinner := inner.depth_le_length
    simp only [Tree.depth, Tree.written, List.length_cons, List.length_append]
    omega
  | .list lead first others trail =>
    have hfirst := first.depth_le_length
    have hothers := others.depth_le_length
    simp only [Tree.depth, Tree.written, List.length_cons, List.length_append]
    omega

/-- The deepest item is no deeper than the items are long. -/
theorem Items.depth_le_length (items : Items) : items.depth ≤ items.written.length := by
  match items with
  | .last before lead item =>
    have hitem := item.depth_le_length
    simp only [Items.depth, Items.written, List.length_cons, List.length_append]
    omega
  | .more before lead item others =>
    have hitem := item.depth_le_length
    have hothers := others.depth_le_length
    simp only [Items.depth, Items.written, List.length_cons, List.length_append]
    omega

end

end Interpolation.Grammar
