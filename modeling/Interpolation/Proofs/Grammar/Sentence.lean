import Interpolation.Proofs.Grammar.Completeness

/-!
# The language of expressions

Soundness and completeness of the recognisers, put together for whole texts: what the parser
accepts is exactly the sentences whose indices fit, and a text is one sentence at most, as far as
its meaning goes.  The depth that the recogniser is given never decides, as a tree is no deeper than
its text is long.

## Main results

- `recognise_eq_ok_iff`: what is recognised is exactly the sentences.
- `parseNode_of_sentence`: the outcome of the parser on a sentence.
- `Sentence.phrase_unique`: a text means one thing at most.
- `parseNode_iff`: the parser against the syntax.
-/

namespace Interpolation.Grammar

open Recogniser

theorem recognise_eq_ok {text : List Char} {phrase : Phrase} :
    recognise text = .ok phrase ↔
      ∃ behind, (expression (text.length + 1)).outcome ⟨.zero, text⟩ = some (phrase, behind) := by
  unfold recognise outcome
  rcases expression (text.length + 1) ⟨.zero, text⟩ .initial with ⟨_ | ⟨found, behind⟩, furthest⟩
  · simp
  · simp

/-- A sentence is read up to its end. -/
theorem outcome_sentence (s : Sentence) :
    (expression (s.written.length + 1)).outcome ⟨.zero, s.written⟩ =
      some (s.tree.phrase (extent s.lead.chars), ⟨extent s.written, []⟩) := by
  have hread : Cursor.Reads ⟨.zero, s.written⟩ s.written ⟨extent s.written, []⟩ :=
    ⟨(List.append_nil _).symm, (Offset.zero_add _).symm⟩
  -- The three pieces of the text: a gap, the tree, a gap.
  obtain ⟨inside, hlead, h⟩ := Cursor.Reads.append_iff.mp hread
  obtain ⟨middle, htree, htrail⟩ := Cursor.Reads.append_iff.mp h
  have hinside := Tree.stops_space htree
  have hmiddle : Ends middle.rest := by
    rw [htrail.rest, ends_gap_iff]
    exact ends_nil
  -- The depth that the recogniser is given is enough for the tree.
  have hdepth : s.tree.depth < s.written.length + 1 := by
    have hle := s.tree.depth_le_length
    simp only [Sentence.written, List.length_append]
    omega
  have hphrase := s.tree.outcome_expr htree hmiddle hdepth
  have hhere : inside.here = extent s.lead.chars := by rw [hlead.here, Offset.zero_add]
  simp only [expression, outcome_named, outcome_bind, outcome_pure, outcome_atEnd,
    outcome_space hlead hinside, hphrase, outcome_space htrail (stops_nil _), hhere, if_true,
    Option.bind_some]

/-- A text is recognised exactly if it is a sentence, and as what the sentence says. -/
theorem recognise_eq_ok_iff {text : List Char} {phrase : Phrase} :
    recognise text = .ok phrase ↔
      ∃ s : Sentence, s.written = text ∧ phrase = s.tree.phrase (extent s.lead.chars) := by
  rw [recognise_eq_ok]
  constructor
  · intro h
    obtain ⟨behind, h⟩ := h
    -- Soundness gives the sentence, completeness reads it back.
    obtain ⟨s, hs, hphrase⟩ := exists_sentence h
    rw [Offset.zero_add] at hphrase
    exact ⟨s, hs, hphrase⟩
  · intro h
    obtain ⟨s, rfl, rfl⟩ := h
    exact ⟨_, outcome_sentence s⟩

/-- The tree of a text is the node of the sentence, unless an index in it is too large. -/
theorem parseNode_of_sentence {text : String} (s : Sentence) (hs : s.written = text.toList) :
    parseNode text =
      match s.indices.find? (largestIndex < ·.value) with
      | some index => .error (malformed index.place "index out of range")
      | none => .ok s.tree.node := by
  have hphrase : recognise text.toList = .ok (s.tree.phrase (extent s.lead.chars)) :=
    recognise_eq_ok_iff.mpr ⟨s, hs, rfl⟩
  rw [parseNode, hphrase]
  simp only [Tree.node_phrase]
  rfl

theorem exists_sentence_of_parseNode {text : String} {node : Node} (h : parseNode text = .ok node) :
    ∃ s : Sentence, s.written = text.toList := by
  cases hrecognise : recognise text.toList with
  | error furthest => simp [parseNode, hrecognise] at h
  | ok phrase =>
    obtain ⟨s, hs, -⟩ := recognise_eq_ok_iff.mp hrecognise
    exact ⟨s, hs⟩

/-- A sentence has its node exactly if the numbers in it fit. -/
theorem parseNode_sentence_eq_ok_iff {text : String} {node : Node} (s : Sentence)
    (hs : s.written = text.toList) :
    parseNode text = .ok node ↔
      s.tree.node = node ∧ ∀ i ∈ s.tree.indexValues, i ≤ largestIndex := by
  have hvalues : (∀ i ∈ s.tree.indexValues, i ≤ largestIndex) ↔
      ∀ index ∈ s.indices, index.value ≤ largestIndex := by
    rw [← s.tree.map_value_indices (extent s.lead.chars)]
    exact List.forall_mem_map
  rw [parseNode_of_sentence s hs, hvalues]
  cases hfind : s.indices.find? (largestIndex < ·.value) with
  | none =>
    have hall : ∀ index ∈ s.indices, index.value ≤ largestIndex := by
      simpa [List.find?_eq_none] using hfind
    rw [Except.ok.injEq]
    exact ⟨fun h => ⟨h, hall⟩, And.left⟩
  -- Some number is too large: there is no node, and not all numbers fit.
  | some index =>
    have hlarge : largestIndex < index.value := by simpa using List.find?_some hfind
    simp only [reduceCtorEq, false_iff, not_and]
    intro _ hall
    exact absurd (hall index (List.mem_of_find?_eq_some hfind)) (Nat.not_le.mpr hlarge)

/-- A text means one thing at most, however it is taken apart. -/
theorem Sentence.phrase_unique {s s' : Sentence} (h : s.written = s'.written) :
    s.tree.phrase (extent s.lead.chars) = s'.tree.phrase (extent s'.lead.chars) := by
  -- Both sentences are what the recogniser reads from the same text.
  have hs := outcome_sentence s
  rw [h, outcome_sentence s'] at hs
  simp only [Option.some.injEq, Prod.mk.injEq] at hs
  exact hs.1.symm

theorem Sentence.node_unique {s s' : Sentence} (h : s.written = s'.written) :
    s.tree.node = s'.tree.node := by
  rw [← Tree.node_phrase s.tree (extent s.lead.chars), phrase_unique h, Tree.node_phrase]

/-- The parser accepts exactly the sentences whose indices fit into 64 bits, and it builds the node
of the sentence.  The syntax is unambiguous: however a text is taken apart, it means the same. -/
theorem parseNode_iff (text : String) :
    (∀ node, parseNode text = .ok node ↔
      ∃ s : Sentence, s.written = text.toList ∧ s.tree.node = node ∧
        ∀ i ∈ s.tree.indexValues, i ≤ 0xFFFFFFFFFFFFFFFF) ∧
    ∀ s s' : Sentence, s.written = text.toList → s'.written = text.toList →
      s.tree.node = s'.tree.node := by
  refine ⟨fun node => ?_, fun s s' hs hs' => Sentence.node_unique (hs.trans hs'.symm)⟩
  show _ ↔ ∃ s : Sentence, _ ∧ _ ∧ ∀ i ∈ s.tree.indexValues, i ≤ largestIndex
  constructor
  · intro h
    obtain ⟨s, hs⟩ := exists_sentence_of_parseNode h
    exact ⟨s, hs, (parseNode_sentence_eq_ok_iff s hs).mp h⟩
  · intro h
    obtain ⟨s, hs, hnode⟩ := h
    exact (parseNode_sentence_eq_ok_iff s hs).mpr hnode

end Interpolation.Grammar
