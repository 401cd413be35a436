import Interpolation.Expression.Parser
import Interpolation.Proofs.Grammar.Sentence
import Interpolation.Proofs.TemplateParser
import Mathlib

/-!
# Expressions between delimiters

The scan for the closing token and the grammar of expressions have rules of their own for quotes,
brackets and blanks.  They agree: the text of every expression is balanced for the scan, and where
the closing token starts with a closing bracket, no token counts inside a balanced text.  So any
expression can stand between delimiters, and there it means what it means alone.

## Main definitions

- `Sentence.block`: an expression with the blanks around it, as it stands between delimiters.
- `Template.Alike`: templates that behave alike, up to the text that a refused assignment quotes.

## Main results

- `Tree.balanced`, `Tree.isTrimmed`: the text of an expression, as the scan sees it.
- `noneLive_of_closer`: no token that starts with a closing bracket counts inside a balanced text.
- `parseNode_trim`: without the blanks at its ends a text means the same.
- `parseTemplate_embedded`: every expression can stand between delimiters.
-/

namespace Interpolation

namespace Grammar

variable {c : Char} {u v : List Char} {test : Char → Bool}

/-! ## Layer A: expressions are balanced -/

/-- The characters that the scan looks at. -/
def special : List Char := ['(', '[', '\x7b', ')', ']', '\x7d', '\'', '"']

/-- A run of characters of a kind that nothing special has is balanced. -/
theorem balanced_of_test (hspecial : Excludes special test)
    (hu : ∀ c ∈ u, test c = true) : Balanced u := by
  apply balanced_of_plain
  intro c hc
  -- A character that the scan looks at is one of the eight, and none of them is of this kind.
  by_contra hrole
  have hmem : c ∈ special := by simpa [special] using CharRole.of_ne_plain_iff.mp hrole
  exact ne_of_test (hu c hc) (hspecial c hmem) rfl

/-- A bracket and its partner enclose a balanced text. -/
theorem balanced_enclosed {o : Char} (ho : CharRole.of o = .opener) (hu : Balanced u)
    (hc : closerOf o = c) : Balanced (o :: (u ++ [c])) := by
  subst hc
  exact .bracket ho hu .nil

theorem Gap.balanced (gap : Gap) : Balanced gap.chars :=
  balanced_of_test (by decide) gap.spaces

theorem Name.balanced (name : Name) : Balanced name.written :=
  balanced_of_test (by decide) name.isNameChar

theorem Digits.balanced (d : Digits) : Balanced d.chars :=
  balanced_of_test (by decide) d.digits

theorem Numeral.balanced (n : Numeral) : Balanced n.written := by
  have hunsigned : Balanced n.unsigned := by
    rw [Numeral.unsigned]
    split
    · exact n.whole.balanced
    · next fraction _ => exact n.whole.balanced.append (.plain (by decide) fraction.balanced)
  rw [Numeral.written, Numeral.sign]
  split
  · exact .plain (by decide) hunsigned
  · exact hunsigned

/-- To the scan, a quote that is written twice ends one literal and starts the next. -/
theorem balanced_doubled (text : List Char) {inside : List Char} (hinside : '\'' ∉ inside) :
    Balanced ('\'' :: inside ++ (doubled text ++ ['\''])) := by
  -- Along the text; `inside` is what has been read of the literal since its last quote.
  induction text generalizing inside with
  | nil => exact .literal (by decide) hinside .nil
  | cons c cs ih =>
    by_cases hc : c = '\''
    · rw [doubled, if_pos hc]
      exact .literal (by decide) hinside (ih List.not_mem_nil)
    · have hnext : '\'' ∉ inside ++ [c] := by simp [hinside, Ne.symm hc]
      have hsame := ih hnext
      rw [doubled, if_neg hc]
      simpa using hsame

theorem Quoted.balanced (q : Quoted) : Balanced q.written := by
  cases q with
  | single text => exact balanced_doubled text List.not_mem_nil
  | double text inert => exact .literal (by decide) inert .nil

theorem Access.balanced (a : Access) : Balanced a.written := by
  cases a with
  | property before inner name =>
    exact before.balanced.append (.plain (by decide) (inner.balanced.append name.balanced))
  | key before inner after literal =>
    -- What stands between the brackets is balanced, so the brackets pair up.
    have hinside := inner.balanced.append (literal.balanced.append after.balanced)
    have hindex : Balanced ('[' :: (_ ++ [']'])) := balanced_enclosed (by decide) hinside rfl
    simpa [Access.written] using before.balanced.append hindex
  | index before inner after number =>
    have hinside := inner.balanced.append (number.balanced.append after.balanced)
    have hindex : Balanced ('[' :: (_ ++ [']'])) := balanced_enclosed (by decide) hinside rfl
    simpa [Access.written] using before.balanced.append hindex

/-- The steps of a path are balanced one after another. -/
theorem balanced_accesses (accesses : List Access) :
    Balanced (accesses.flatMap Access.written) := by
  induction accesses with
  | nil => exact .nil
  | cons a accesses ih => exact a.balanced.append ih

mutual

/-- The text of an expression is balanced. -/
theorem Tree.balanced (t : Tree) : Balanced t.written := by
  match t with
  | .quoted literal => exact literal.balanced
  | .number numeral => exact numeral.balanced
  | .boolean true | .boolean false | .null =>
    -- The words consist of letters, which the scan does not look at.
    have hspecial : Excludes special isNameChar := by decide
    exact balanced_of_test hspecial (List.all_eq_true.mp (by decide))
  | .path root _ accesses => exact root.balanced.append (balanced_accesses accesses)
  | .group lead inner trail =>
    have hinside := lead.balanced.append (inner.balanced.append trail.balanced)
    have hgroup : Balanced ('(' :: (_ ++ [')'])) := balanced_enclosed (by decide) hinside rfl
    simpa [Tree.written] using hgroup
  | .list lead first others trail =>
    have hitems := first.balanced.append (others.balanced.append trail.balanced)
    have hlist : Balanced ('(' :: (_ ++ [')'])) :=
      balanced_enclosed (by decide) (lead.balanced.append hitems) rfl
    simpa [Tree.written] using hlist

/-- The items of a list are balanced, with their commas. -/
theorem Items.balanced (items : Items) : Balanced items.written := by
  match items with
  | .last before lead item =>
    exact before.balanced.append (.plain (by decide) (lead.balanced.append item.balanced))
  | .more before lead item others =>
    have hitem := lead.balanced.append (item.balanced.append others.balanced)
    exact before.balanced.append (.plain (by decide) hitem)

end

/-! ## Layer B: expressions are trimmed -/

/-- A visible character of ASCII is not blank. -/
theorem isBlank_eq_false (hfirst : 0x20 < c.toNat) (hlast : c.toNat < 0x80) :
    isBlank c = false := by
  rw [isBlank, inRanges, List.any_eq_false]
  simp only [blankRanges, List.forall_mem_cons, List.not_mem_nil, Bool.and_eq_true,
    decide_eq_true_eq, not_and, Nat.not_le, IsEmpty.forall_iff, implies_true, and_true]
  omega

/-- No character of a name is blank. -/
theorem isBlank_of_isNameChar (h : isNameChar c = true) : isBlank c = false := by
  -- The characters of names are visible ones of ASCII.
  have hbounds : 48 ≤ c.toNat ∧ c.toNat ≤ 122 := by
    unfold isNameChar Char.isAlphanum Char.isAlpha Char.isUpper Char.isLower Char.isDigit at h
    simp only [Bool.or_eq_true, Bool.and_eq_true, decide_eq_true_eq, ge_iff_le,
      UInt32.le_iff_toNat_le] at h
    have hcode : c.toNat = c.val.toNat := rfl
    have hdigits : '0'.val.toNat = 48 ∧ '9'.val.toNat = 57 := ⟨rfl, rfl⟩
    have hupper : 'A'.val.toNat = 65 ∧ 'Z'.val.toNat = 90 := ⟨rfl, rfl⟩
    have hlower : 'a'.val.toNat = 97 ∧ 'z'.val.toNat = 122 := ⟨rfl, rfl⟩
    rcases h with h | rfl
    · omega
    · decide
  exact isBlank_eq_false (by omega) (by omega)

theorem isBlank_of_isDigit (h : c.isDigit = true) : isBlank c = false :=
  isBlank_of_isNameChar (by simp [isNameChar, Char.isAlphanum, h])

theorem isBlank_of_startsAtom (h : startsAtom c = true) : isBlank c = false := by
  simp only [startsAtom, isQuote, startsNumber, Bool.or_eq_true, decide_eq_true_eq] at h
  -- A quote, a sign, a digit, or what starts a name.
  rcases h with ((rfl | rfl) | rfl | hdigit) | hname
  · decide
  · decide
  · decide
  · exact isBlank_of_isDigit hdigit
  · exact isBlank_of_isNameChar (isNameChar_of_isNameStart hname)

/-- A text that ends with a character that is not blank. -/
def EndsSolid (u : List Char) : Prop := ∃ cs c, u = cs ++ [c] ∧ isBlank c = false

theorem EndsSolid.append_left (hv : EndsSolid v) (u : List Char) : EndsSolid (u ++ v) := by
  obtain ⟨cs, c, rfl, hc⟩ := hv
  exact ⟨u ++ cs, c, (List.append_assoc u cs [c]).symm, hc⟩

theorem EndsSolid.cons (hv : EndsSolid v) (c : Char) : EndsSolid (c :: v) :=
  hv.append_left [c]

theorem endsSolid_concat (hc : isBlank c = false) : EndsSolid (u ++ [c]) := ⟨u, c, rfl, hc⟩

theorem endsSolid_of_forall (hne : u ≠ []) (hu : ∀ c ∈ u, isBlank c = false) : EndsSolid u :=
  ⟨u.dropLast, u.getLast hne, (List.dropLast_append_getLast hne).symm,
    hu _ (List.getLast_mem hne)⟩

theorem Digits.endsSolid (d : Digits) : EndsSolid d.chars :=
  endsSolid_of_forall d.ne_nil fun c hc => isBlank_of_isDigit (d.digits c hc)

theorem Name.endsSolid (name : Name) : EndsSolid name.written :=
  endsSolid_of_forall (List.cons_ne_nil _ _) fun c hc =>
    isBlank_of_isNameChar (name.isNameChar c hc)

theorem Numeral.endsSolid (n : Numeral) : EndsSolid n.written := by
  have hunsigned : EndsSolid n.unsigned := by
    rw [Numeral.unsigned]
    split
    · exact n.whole.endsSolid
    · next fraction _ => exact (fraction.endsSolid.cons '.').append_left n.whole.chars
  exact hunsigned.append_left n.sign

theorem Quoted.endsSolid (q : Quoted) : EndsSolid q.written := by
  cases q with
  | single text => exact (endsSolid_concat (by decide)).cons '\''
  | double text inert => exact (endsSolid_concat (by decide)).cons '"'

theorem Access.endsSolid (a : Access) : EndsSolid a.written := by
  cases a with
  | property before inner name =>
    exact ((name.endsSolid.append_left inner.chars).cons '.').append_left before.chars
  | key before inner after literal =>
    have hclose : EndsSolid (after.chars ++ [']']) := endsSolid_concat (by decide)
    have hinside := (hclose.append_left literal.written).append_left inner.chars
    exact (hinside.cons '[').append_left before.chars
  | index before inner after number =>
    have hclose : EndsSolid (after.chars ++ [']']) := endsSolid_concat (by decide)
    have hinside := (hclose.append_left number.chars).append_left inner.chars
    exact (hinside.cons '[').append_left before.chars

/-- A path ends as its last step does, or as its root. -/
theorem endsSolid_path {root : List Char} (hroot : EndsSolid root) (accesses : List Access) :
    EndsSolid (root ++ accesses.flatMap Access.written) := by
  -- Along the steps, each of which can be taken as part of the root of the others.
  induction accesses generalizing root with
  | nil =>
    rw [List.flatMap_nil, List.append_nil]
    exact hroot
  | cons a accesses ih =>
    rw [List.flatMap_cons, ← List.append_assoc]
    exact ih (a.endsSolid.append_left root)

theorem Tree.endsSolid (t : Tree) : EndsSolid t.written := by
  cases t with
  | quoted literal => exact literal.endsSolid
  | number numeral => exact numeral.endsSolid
  | boolean b =>
    cases b with
    | true => exact ⟨"tru".toList, 'e', rfl, by decide⟩
    | false => exact ⟨"fals".toList, 'e', rfl, by decide⟩
  | null => exact ⟨"nul".toList, 'l', rfl, by decide⟩
  | path root _ accesses => exact endsSolid_path root.endsSolid accesses
  | group lead inner trail =>
    have hclose : EndsSolid (trail.chars ++ [')']) := endsSolid_concat (by decide)
    exact ((hclose.append_left inner.written).append_left lead.chars).cons '('
  | list lead first others trail =>
    have hclose : EndsSolid (trail.chars ++ [')']) := endsSolid_concat (by decide)
    have hitems := (hclose.append_left others.written).append_left first.written
    exact (hitems.append_left lead.chars).cons '('

/-- The text of an expression has no blanks at its ends. -/
theorem Tree.isTrimmed (t : Tree) : IsTrimmed t.written := by
  refine ⟨?_, t.endsSolid⟩
  obtain ⟨c, cs, hcons, hc⟩ := t.exists_cons
  refine ⟨c, cs, hcons, ?_⟩
  -- The first character is that of an atom, or a parenthesis.
  rcases hc with hc | rfl
  · exact isBlank_of_startsAtom hc
  · decide

theorem Gap.allBlank (gap : Gap) : AllBlank gap.chars := by
  intro c hc
  have hmem : c ∈ Grammar.spaces := isSpace_iff.mp (gap.spaces c hc)
  have hspaces : Grammar.spaces.all isBlank = true := by decide
  exact List.all_eq_true.mp hspaces c hmem

end Grammar

/-! ## Layer C: no token counts inside an expression -/

/-- A token that starts with a closing bracket counts nowhere inside a balanced text. -/
theorem noneLive_of_closer {closing u : List Char} {c : Char} {cs : List Char}
    (hclosing : closing = c :: cs) (hc : CharRole.of c = .closer) (hu : Balanced u)
    (rest : List Char) : NoneLive closing u rest := by
  intro v w hvw hw hv hstarts
  obtain ⟨d, ds, rfl⟩ := List.exists_cons_of_ne_nil hw
  have hd : d = c := by
    rw [hclosing, List.cons_append, List.cons_prefix_cons] at hstarts
    exact hstarts.1.symm
  -- Behind a balanced text the bracket has nothing to close, so the whole text cannot be balanced.
  have hrun : Nesting.closed.run .zero u = some .closed := run_closed_eq_closed_iff.mpr hu
  have hstep : Nesting.closed.step (.zero + extent v) d = none := by
    refine Nesting.step_eq_none_iff.mpr ⟨rfl, hd ▸ hc, ?_⟩
    intro opener outer hbrackets
    cases hbrackets
  rw [hvw, Nesting.run_append, run_closed_eq_closed_iff.mpr hv, Option.bind_some, Nesting.run_cons,
    hstep] at hrun
  cases hrun

/-! ## Layer D: an expression between delimiters -/

namespace Grammar

variable {d : Delimiters} {s : Sentence}

/-- A sentence as the expression of a block, with no static text in front. -/
def Sentence.block (s : Sentence) : Block := ⟨[], s.lead.chars, s.tree.written, s.trail.chars⟩

theorem Sentence.trim_written (s : Sentence) : trim s.written = s.tree.written := by
  rw [Sentence.written, ← List.append_assoc]
  exact trim_padded s.lead.allBlank s.tree.isTrimmed s.trail.allBlank

theorem Sentence.written_block (d : Delimiters) (s : Sentence) :
    s.block.written d = d.opening.toList ++ (s.written ++ d.closing.toList) := by
  simp [Block.written, Block.body, Sentence.block, Sentence.written]

theorem Sentence.block_wellFormed {c : Char} {cs : List Char}
    (hclosing : d.closing.toList = c :: cs) (hc : CharRole.of c = .closer) (s : Sentence) :
    s.block.WellFormed d := by
  have hbalanced : Balanced s.block.body :=
    (s.lead.balanced.append s.tree.balanced).append s.trail.balanced
  exact ⟨.nil _ _, s.lead.allBlank, s.tree.isTrimmed, s.trail.allBlank, hbalanced,
    noneLive_of_closer hclosing hc hbalanced _⟩

/-- Without the blanks at its ends a text means the same. -/
theorem parseNode_trim {text : String} {node : Node} (h : parseNode text = .ok node) :
    parseNode (String.ofList (trim text.toList)) = .ok node := by
  obtain ⟨s, hs⟩ := exists_sentence_of_parseNode h
  let alone : Sentence := ⟨⟨[], by simp⟩, s.tree, ⟨[], by simp⟩⟩
  have halone : alone.written = (String.ofList (trim text.toList)).toList := by
    rw [String.toList_ofList, ← hs, s.trim_written]
    exact List.append_nil _
  exact (parseNode_sentence_eq_ok_iff alone halone).mpr ((parseNode_sentence_eq_ok_iff s hs).mp h)

end Grammar

/-- Two templates have the same values, are both writable or both not, and an assignment to either
has the same effect.  Only what a refused assignment quotes is the text of each. -/
structure Template.Alike (t t' : Template Expression) : Prop where
  /-- In every scope the two have the same value, or the same error. -/
  value (scope : Scope) : Evaluable.value t scope = Evaluable.value t' scope
  /-- An assignment to either is possible, or to neither. -/
  isWritable : Evaluable.isWritable t = Evaluable.isWritable t'
  /-- An assignment leaves the same scope behind. -/
  effect (new : Value) (scope : Scope) :
    (Evaluable.assign t new scope).2 = (Evaluable.assign t' new scope).2
  /-- An assignment has the same outcome, or is refused to both. -/
  outcome (new : Value) (scope : Scope) :
    (Evaluable.assign t new scope).1 = (Evaluable.assign t' new scope).1 ∨
      Evaluable.isWritable t = false ∧
        (Evaluable.assign t new scope).1 = .error (readOnly (Evaluable.source t)) ∧
        (Evaluable.assign t' new scope).1 = .error (readOnly (Evaluable.source t'))

/-- What an expression is read from matters only where an assignment to it is refused. -/
theorem Template.alike_of_node (source source' : String) (node : Node) :
    Alike (.expression ⟨source, node⟩) (.expression ⟨source', node⟩) := by
  cases node with
  | path p => exact ⟨fun _ => rfl, rfl, fun _ _ => rfl, fun _ _ => .inl rfl⟩
  | literal value => exact ⟨fun _ => rfl, rfl, fun _ _ => rfl, fun _ _ => .inr ⟨rfl, rfl, rfl⟩⟩
  | list items => exact ⟨fun _ => rfl, rfl, fun _ _ => rfl, fun _ _ => .inr ⟨rfl, rfl, rfl⟩⟩

/-- A text that is one block without static text is read as its expression. -/
theorem parseTemplate_block {ε : Type} {parser : SubParser ε} {d : Delimiters} {text : String}
    {b : Block} {e : ε} (hopening : d.opening ≠ "") (hclosing : d.closing ≠ "")
    (hb : b.WellFormed d) (hbefore : b.before = []) (htext : text.toList = b.written d)
    (hparse : parser (String.ofList b.raw) d = .ok e) :
    parseTemplate parser text d = .ok (.expression e) := by
  have hne : text ≠ "" := by
    intro hnil
    have hpos := b.length_pos hopening
    rw [← htext, hnil] at hpos
    exact absurd hpos (Nat.lt_irrefl 0)
  have hsplit : text.toList = written d [b] ++ [] := by simp [htext]
  -- The text has one segment, which is the expression.
  have hsegment : segment text d = .ok [b.expression d .zero] := by
    rw [segment_template hopening hclosing hne hsplit (by simpa using hb) (.nil _ _)]
    simp [segmentsOf, Block.segments, staticSegments, hbefore]
  have hpart : (Builder.parts parser d text).ofSegment (b.expression d .zero) =
      .ok (.expression e) :=
    ofSegment_eq_ok_iff.mpr (.expression _ hparse)
  rw [(parseTemplate_of_segment parser hopening hclosing hsegment).2, List.mapM_cons, hpart,
    List.mapM_nil]
  rfl

/-- A text that is an expression is not blank. -/
theorem parseInput_of_parseNode {text : String} {node : Node}
    (h : Grammar.parseNode text = .ok node) :
    parseInput Expression.parse text none = .ok (.expression ⟨text, node⟩) := by
  obtain ⟨s, hs⟩ := Grammar.exists_sentence_of_parseNode h
  have htrim : trim text.toList ≠ [] := by
    rw [← hs, s.trim_written]
    exact s.tree.isTrimmed.ne_nil
  have hparse : Expression.parse text .raw = .ok ⟨text, node⟩ := by
    rw [Expression.parse, h]
    rfl
  simp only [parseInput, parseSingle, htrim, if_false, hparse]

/-- **Every expression can stand between delimiters.**  Where the closing token starts with a
closing bracket, an expression between the two tokens is read as itself, without the blanks at its
ends, and the template behaves as the expression alone does. -/
theorem parseTemplate_embedded {text : String} {node : Node} {d : Delimiters} {c : Char}
    {cs : List Char} (h : Grammar.parseNode text = .ok node) (hopening : d.opening ≠ "")
    (hclosing : d.closing.toList = c :: cs) (hc : c ∈ [')', ']', '\x7d']) :
    parseTemplate Expression.parse (d.opening ++ text ++ d.closing) d =
        .ok (.expression ⟨String.ofList (trim text.toList), node⟩) ∧
      parseInput Expression.parse text none = .ok (.expression ⟨text, node⟩) ∧
      Template.Alike (.expression ⟨String.ofList (trim text.toList), node⟩)
        (.expression ⟨text, node⟩) := by
  refine ⟨?_, parseInput_of_parseNode h, Template.alike_of_node _ _ node⟩
  obtain ⟨s, hs⟩ := Grammar.exists_sentence_of_parseNode h
  -- The three closing brackets are closers to the scan.
  have hrole : CharRole.of c = .closer := by
    have hclosers : [')', ']', '\x7d'].all (CharRole.of · = .closer) = true := by decide
    exact of_decide_eq_true (List.all_eq_true.mp hclosers c hc)
  have hempty : d.closing ≠ "" := by
    intro hempty
    simp [hempty] at hclosing
  have htext : (d.opening ++ text ++ d.closing).toList = s.block.written d := by
    simp [s.written_block, hs]
  have hraw : s.block.raw = trim text.toList := by
    rw [← hs, s.trim_written]
    rfl
  -- The parser is given the text without its blanks, which means the same.
  have hparse : Expression.parse (String.ofList s.block.raw) d =
      .ok ⟨String.ofList (trim text.toList), node⟩ := by
    rw [hraw, Expression.parse, Grammar.parseNode_trim h]
    rfl
  exact parseTemplate_block hopening hempty (s.block_wellFormed hclosing hrole) rfl htext hparse

/-- Tokens, quotes and brackets inside string literals do not cut an expression short. -/
theorem parseTemplate_embedded_dollar :
    parseTemplate Expression.parse (Delimiters.dollar.opening ++ " ('\x7d''(', a[\"\x7d\"]) " ++
          Delimiters.dollar.closing) .dollar =
        .ok (.expression ⟨String.ofList (trim " ('\x7d''(', a[\"\x7d\"]) ".toList),
          .list [.literal (.string "\x7d'("), .path ⟨"a", [.key "\x7d"]⟩]⟩) ∧
      Grammar.parseNode " ('\x7d''(', a[\"\x7d\"]) " =
        .ok (.list [.literal (.string "\x7d'("), .path ⟨"a", [.key "\x7d"]⟩]) := by
  have hnode : Grammar.parseNode " ('\x7d''(', a[\"\x7d\"]) " =
      .ok (.list [.literal (.string "\x7d'("), .path ⟨"a", [.key "\x7d"]⟩]) := by
    cbv
  have hopening : Delimiters.dollar.opening ≠ "" := by decide
  have hclosing : Delimiters.dollar.closing.toList = '\x7d' :: [] := by decide
  exact ⟨(parseTemplate_embedded hnode hopening hclosing (by decide)).1, hnode⟩

end Interpolation
