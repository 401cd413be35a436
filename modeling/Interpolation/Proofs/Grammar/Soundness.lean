import Interpolation.Proofs.Grammar.Token

/-!
# The recognisers of expressions against their syntax

Each recogniser of the grammar is lawful, and what it reads is the text of a phrase of the syntax,
with the meaning that the syntax gives to it.  A repetition is a chain, so the steps of a path and
the items of a list follow by induction along the chain; an expression follows by induction on the
depth that is allowed for.

## Main definitions

- `subscript`, `access`, `item`: the parts of indices, paths and lists.
- `ReadsTrees`: what a recogniser reads is the text of a tree.

## Main results

- `exists_gap`, `exists_quoted`, `exists_word`, `exists_literal`, `exists_path`: the phrases that
  need no parentheses.
- `exists_tree`: what is read as an expression is the text of a tree.
- `exists_sentence`: what is read up to the end of the text is a sentence.
-/

namespace Interpolation.Grammar

open Recogniser

variable {cursor behind : Cursor}

/-! ## Layer A: the recognisers are lawful -/

/-- A token takes a beginning of the text and leaves the rest: for each, what it takes is known. -/
instance : LawfulLexer identifier where
  split h := by
    obtain ⟨name, rfl, rfl, -⟩ := exists_name h
    rfl

instance : LawfulLexer digits where
  split h := by
    obtain ⟨d, rfl, rfl, -⟩ := exists_digits h
    rfl

instance : LawfulLexer number where
  split h := by
    obtain ⟨n, rfl, rfl⟩ := exists_numeral h
    rfl

instance : LawfulLexer boolean where
  split h := by
    obtain ⟨b, rfl, rfl⟩ := exists_boolean h
    rfl

instance : LawfulLexer null where
  split h := by
    obtain ⟨rfl, rfl, -⟩ := keyword_eq_some_iff.mp h
    rfl

instance : LawfulLexer singleQuoted where
  split h := by
    obtain ⟨value, -, rfl⟩ := exists_single h
    rfl

instance : LawfulLexer doubleQuoted where
  split h := by
    obtain ⟨value, inert, -, rfl⟩ := exists_double h
    rfl

/-- The recogniser of a token is lawful if the token takes a beginning of the text. -/
instance (rule : Rule) (lexer : Lexer) [LawfulLexer lexer] : Lawful (token rule lexer) :=
  inferInstanceAs (Lawful (named rule (lexeme lexer)))

instance : Lawful space := inferInstanceAs (Lawful (skipWhile isSpace))

/-- What is put together of lawful recognisers is lawful, by the instances for the combinators. -/
instance : Lawful quotedText := by
  unfold quotedText
  infer_instance

instance : Lawful literal := by
  unfold literal
  infer_instance

instance : Lawful name := by
  unfold name
  infer_instance

instance : Lawful indexNumber := by
  unfold indexNumber
  infer_instance

instance : Lawful property := by
  unfold property
  infer_instance

/-- The recogniser of what stands between the brackets of an index. -/
def subscript : Recogniser Step := orElse (do return ⟨.key (← quotedText), []⟩) indexNumber

instance : Lawful subscript := by
  unfold subscript
  infer_instance

/-- An index is its two brackets with a subscript and gaps between them. -/
theorem index_eq : index = named .index do
    symbol '['
    space
    let step ← subscript
    space
    symbol ']'
    return step := rfl

instance : Lawful index := by
  rw [index_eq]
  infer_instance

/-- The recogniser of one step of a path. -/
def access : Recogniser Step := do
  space
  orElse property index

instance : Lawful access := by
  unfold access
  infer_instance

/-- A path is a name and a repetition of steps. -/
theorem path_eq : path = named .path do
    let root ← name
    let steps ← many access
    return .path root steps := rfl

instance : Lawful path := by
  rw [path_eq]
  infer_instance

/-- The recogniser of one item of a list, with the comma in front of it. -/
def item (expr : Recogniser Phrase) : Recogniser Phrase := do
  space
  symbol ','
  space
  expr

/-- A list has at least two items; from the second on each has a comma in front. -/
theorem list_eq (expr : Recogniser Phrase) : list expr = named .list do
    symbol '('
    space
    let first ← expr
    let second ← item expr
    let others ← many (item expr)
    space
    symbol ')'
    return .list (first :: second :: others) := rfl

variable (e : Recogniser Phrase) [Lawful e]

instance : Lawful (item e) := by
  unfold item
  infer_instance

instance : Lawful (list e) := by
  rw [list_eq]
  infer_instance

instance : Lawful (group e) := by
  unfold group
  infer_instance

/-- Expressions nest, so they are lawful by induction on the depth that is allowed for. -/
instance (depth : Nat) : Lawful (expr depth) := by
  induction depth with
  | zero => exact inferInstanceAs (Lawful fail)
  | succ depth ih =>
    unfold expr
    infer_instance

instance (depth : Nat) : Lawful (expression depth) := by
  unfold expression
  infer_instance

/-! ## Layer B: tokens -/

/-- A token is read exactly where its lexer takes it. -/
theorem outcome_token_iff {rule : Rule} {lexer : Lexer} [LawfulLexer lexer] {u : List Char} :
    (token rule lexer).outcome cursor = some (u, behind) ↔
      lexer cursor.rest = some (u, behind.rest) ∧ cursor.Reads u behind := by
  rw [token, outcome_named, outcome_lexeme, Option.map_eq_some_iff]
  constructor
  · rintro ⟨⟨u, rest⟩, hlexer, heq⟩
    cases heq
    exact ⟨hlexer, .advance (LawfulLexer.split hlexer)⟩
  · rintro ⟨hlexer, hread⟩
    refine ⟨_, hlexer, ?_⟩
    rw [(Cursor.Reads.advance hread.rest).unique hread]

/-- No token is read where its lexer takes none. -/
theorem outcome_token_eq_none {rule : Rule} {lexer : Lexer} (h : lexer cursor.rest = none) :
    (token rule lexer).outcome cursor = none := by
  rw [token, outcome_named, outcome_lexeme, h]
  rfl

/-- A symbol is read nowhere but in front of its character. -/
theorem outcome_symbol_eq_none {c : Char} (h : Stops (· = c) cursor.rest) :
    (symbol c).outcome cursor = none := by
  obtain ⟨here, rest⟩ := cursor
  cases rest with
  | nil => rfl
  | cons d rest =>
    have hd : d ≠ c := by simpa using stops_cons_iff.mp h
    exact outcome_symbol_of_ne hd.symm here rest

/-- What is skipped is a gap. -/
theorem exists_gap {u : Unit} (h : space.outcome cursor = some (u, behind)) :
    ∃ gap : Gap, cursor.Reads gap.chars behind := by
  cases h
  exact ⟨⟨_, forall_mem_takeWhile isSpace cursor.rest⟩,
    .advance List.takeWhile_append_dropWhile.symm⟩

/-- A gap is skipped if no further space follows. -/
theorem outcome_space {gap : Gap} (hread : cursor.Reads gap.chars behind)
    (hrest : Stops isSpace behind.rest) : space.outcome cursor = some ((), behind) := by
  rw [space, outcome_skipWhile, hread.rest, takeWhile_run gap.spaces hrest,
    dropWhile_run gap.spaces hrest, (Cursor.Reads.advance hread.rest).unique hread]

/-- What is read as a quoted text is one, of either kind, with its value. -/
theorem exists_quoted {s : String} (h : quotedText.outcome cursor = some (s, behind)) :
    ∃ q : Quoted, s = q.value ∧ cursor.Reads q.written behind := by
  simp only [quotedText, outcome_named, outcome_orElse, outcome_bind, outcome_pure,
    Option.or_eq_some_iff, Option.bind_eq_some_iff, Option.some.injEq, Prod.mk.injEq,
    Prod.exists] at h
  -- One case for each of the two quotes.
  rcases h with ⟨lexeme, middle, hlexeme, rfl, rfl⟩ | ⟨-, lexeme, middle, hlexeme, rfl, rfl⟩
  · obtain ⟨hlexer, hread⟩ := outcome_token_iff.mp hlexeme
    obtain ⟨value, rfl, -⟩ := exists_single hlexer
    exact ⟨.single value, singleQuotedValue_written value, hread⟩
  · obtain ⟨hlexer, hread⟩ := outcome_token_iff.mp hlexeme
    obtain ⟨value, inert, rfl, -⟩ := exists_double hlexer
    exact ⟨.double value inert, doubleQuotedValue_written value inert, hread⟩

/-- A quoted text is read, with its value.  Behind single quotes no further one may follow. -/
theorem outcome_quotedText (q : Quoted) (hread : cursor.Reads q.written behind)
    (hrest : Stops (· = '\'') behind.rest) :
    quotedText.outcome cursor = some (q.value, behind) := by
  simp only [quotedText, outcome_named, outcome_orElse, outcome_bind, outcome_pure]
  cases q with
  | single value =>
    have hsingle : (token .singleQuoted singleQuoted).outcome cursor =
        some ((Quoted.single value).written, behind) := by
      rw [outcome_token_iff, hread.rest]
      exact ⟨singleQuoted_written value hrest, hread⟩
    rw [hsingle, Option.bind_some, singleQuotedValue_written]
    rfl
  | double value inert =>
    -- Single quotes are tried first; they do not start here.
    have hsingle : (token .singleQuoted singleQuoted).outcome cursor = none := by
      apply outcome_token_eq_none
      rw [hread.rest]
      exact singleQuoted_eq_none (stops_cons_iff.mpr (by decide))
    have hdouble : (token .doubleQuoted doubleQuoted).outcome cursor =
        some ((Quoted.double value inert).written, behind) := by
      rw [outcome_token_iff, hread.rest]
      exact ⟨doubleQuoted_written value inert _, hread⟩
    rw [hsingle, hdouble, Option.bind_some, doubleQuotedValue_written]
    rfl

/-- Without a quote no quoted text is read. -/
theorem outcome_quotedText_eq_none (h : Stops isQuote cursor.rest) :
    quotedText.outcome cursor = none := by
  have hsingle : (token .singleQuoted singleQuoted).outcome cursor = none :=
    outcome_token_eq_none (singleQuoted_eq_none fun c hc => (Bool.or_eq_false_iff.mp (h c hc)).1)
  have hdouble : (token .doubleQuoted doubleQuoted).outcome cursor = none :=
    outcome_token_eq_none (doubleQuoted_eq_none fun c hc => (Bool.or_eq_false_iff.mp (h c hc)).2)
  simp only [quotedText, outcome_named, outcome_orElse, outcome_bind, hsingle, hdouble,
    Option.bind_none, Option.none_or]

/-- What is read as a name is one, and the name does not go on behind it. -/
theorem exists_word {word : String} (h : name.outcome cursor = some (word, behind)) :
    ∃ n : Name, word = String.ofList n.written ∧ cursor.Reads n.written behind ∧
      Stops isNameChar behind.rest := by
  simp only [name, outcome_bind, outcome_pure, Option.bind_eq_some_iff, Option.some.injEq,
    Prod.mk.injEq, Prod.exists] at h
  obtain ⟨u, middle, hu, rfl, rfl⟩ := h
  obtain ⟨hlexer, hread⟩ := outcome_token_iff.mp hu
  obtain ⟨n, rfl, -, hstops⟩ := exists_name hlexer
  exact ⟨n, rfl, hread, hstops⟩

/-- A name is read if it does not go on. -/
theorem outcome_name (n : Name) (hread : cursor.Reads n.written behind)
    (hrest : Stops isNameChar behind.rest) :
    name.outcome cursor = some (String.ofList n.written, behind) := by
  have htoken : (token .identifier identifier).outcome cursor = some (n.written, behind) := by
    rw [outcome_token_iff, hread.rest]
    exact ⟨identifier_written n hrest, hread⟩
  simp only [name, outcome_bind, outcome_pure, htoken, Option.bind_some]

/-! ## Layer C: what is read is the text of a tree -/

/-- What is read as a literal is the text of a tree without parts. -/
theorem exists_literal {phrase : Phrase} (h : literal.outcome cursor = some (phrase, behind)) :
    ∃ t : Tree, phrase = t.phrase cursor.here ∧ cursor.Reads t.written behind := by
  simp only [literal, outcome_orElse, outcome_bind, outcome_pure, Option.or_eq_some_iff,
    Option.bind_eq_some_iff, Option.some.injEq, Prod.mk.injEq, Prod.exists] at h
  -- The four kinds of literals, in the order in which they are tried.
  rcases h with ⟨s, middle, hs, rfl, rfl⟩ | ⟨-, ⟨u, middle, hu, rfl, rfl⟩ |
    ⟨-, ⟨u, middle, hu, rfl, rfl⟩ | ⟨-, u, middle, hu, rfl, rfl⟩⟩⟩
  · obtain ⟨q, rfl, hread⟩ := exists_quoted hs
    exact ⟨.quoted q, rfl, hread⟩
  · obtain ⟨hlexer, hread⟩ := outcome_token_iff.mp hu
    obtain ⟨n, rfl, -⟩ := exists_numeral hlexer
    exact ⟨.number n, rfl, hread⟩
  · obtain ⟨hlexer, hread⟩ := outcome_token_iff.mp hu
    obtain ⟨b, rfl, -⟩ := exists_boolean hlexer
    refine ⟨.boolean b, ?_, hread⟩
    cases b <;> rfl
  · obtain ⟨hlexer, hread⟩ := outcome_token_iff.mp hu
    obtain ⟨rfl, -, -⟩ := keyword_eq_some_iff.mp hlexer
    exact ⟨.null, rfl, hread⟩

/-- A step by a name is a dot, a gap and the name. -/
theorem exists_property {step : Step} (h : property.outcome cursor = some (step, behind)) :
    ∃ inner n, step = ⟨.property (String.ofList (Name.written n)), []⟩ ∧
      cursor.Reads ('.' :: (Gap.chars inner ++ n.written)) behind := by
  simp only [property, outcome_named, outcome_bind, outcome_pure, Option.bind_eq_some_iff,
    Option.some.injEq, Prod.mk.injEq, Prod.exists] at h
  obtain ⟨_, c₁, hsymbol, _, c₂, hspace, word, c₃, hword, rfl, rfl⟩ := h
  obtain ⟨inner, hinner⟩ := exists_gap hspace
  obtain ⟨n, rfl, hn, -⟩ := exists_word hword
  exact ⟨inner, n, rfl, (outcome_symbol_iff.mp hsymbol).trans (hinner.trans hn)⟩

/-- An index, with the gap in front of it. -/
theorem exists_index {step : Step} {before : Gap} {start : Cursor}
    (hstart : start.Reads before.chars cursor) (h : index.outcome cursor = some (step, behind)) :
    ∃ a : Access, step = a.step start.here ∧ start.Reads a.written behind := by
  simp only [index_eq, subscript, indexNumber, outcome_named, outcome_orElse, outcome_bind,
    outcome_pure, outcome_place, Option.or_eq_some_iff, Option.bind_eq_some_iff,
    Option.some.injEq, Prod.mk.injEq, Prod.exists] at h
  obtain ⟨_, c₁, hopen, _, c₂, hlead, step', c₃, hstep, _, c₄, htrail, _, c₅, hclose, rfl, rfl⟩ := h
  obtain ⟨inner, hinner⟩ := exists_gap hlead
  obtain ⟨after, hafter⟩ := exists_gap htrail
  -- What stands in front of the subscript and behind it is the same in both cases.
  have hin := hstart.trans ((outcome_symbol_iff.mp hopen).trans hinner)
  have hout := hafter.trans (outcome_symbol_iff.mp hclose)
  -- A text in quotes, or a number, which remembers its place.
  rcases hstep with ⟨s, middle, hs, rfl, rfl⟩ | ⟨-, _, _, ⟨rfl, rfl⟩, u, middle, hu, rfl, rfl⟩
  · obtain ⟨q, rfl, hq⟩ := exists_quoted hs
    refine ⟨.key before inner after q, rfl, ?_⟩
    simpa [Access.written] using hin.trans (hq.trans hout)
  · obtain ⟨hlexer, hread⟩ := outcome_token_iff.mp hu
    obtain ⟨d, rfl, -, -⟩ := exists_digits hlexer
    refine ⟨.index before inner after d, ?_, ?_⟩
    · rw [hin.here]
      rfl
    · simpa [Access.written] using hin.trans (hread.trans hout)

/-- What is read as one step of a path is one, in either notation. -/
theorem exists_access {step : Step} (h : access.outcome cursor = some (step, behind)) :
    ∃ a : Access, step = a.step cursor.here ∧ cursor.Reads a.written behind := by
  simp only [access, outcome_orElse, outcome_bind, Option.or_eq_some_iff,
    Option.bind_eq_some_iff, Prod.exists] at h
  -- The step behind the gap starts with a dot, or else with a bracket.
  obtain ⟨_, middle, hspace, h | ⟨-, h⟩⟩ := h
  · obtain ⟨before, hbefore⟩ := exists_gap hspace
    obtain ⟨inner, n, rfl, hread⟩ := exists_property h
    exact ⟨.property before inner n, rfl, hbefore.trans hread⟩
  · obtain ⟨before, hbefore⟩ := exists_gap hspace
    exact exists_index hbefore h

/-- A step is written with at least one character. -/
theorem Access.written_ne_nil (a : Access) : a.written ≠ [] := by
  cases a <;> simp [Access.written]

/-- A chain of steps is read as the steps of a path, each counted from where it starts. -/
theorem exists_accesses {steps : List Step} (h : Chain access cursor steps behind) :
    ∃ accesses, steps = Access.steps cursor.here accesses ∧
      cursor.Reads (accesses.flatMap Access.written) behind := by
  -- The induction is on the chain: each link is one step, and the next one starts behind it.
  induction h with
  | @stop cursor hnone => exact ⟨[], rfl, .nil cursor⟩
  | step hstep _ _ ih =>
    obtain ⟨a, rfl, hread⟩ := exists_access hstep
    obtain ⟨accesses, rfl, hothers⟩ := ih
    refine ⟨a :: accesses, ?_, hread.trans hothers⟩
    rw [hread.here]
    rfl

/-- A name that is read where no literal is, is no keyword. -/
theorem notMem_keywords {n : Name} (hread : cursor.Reads n.written behind)
    (hrest : Stops isNameChar behind.rest) (h : literal.outcome cursor = none) :
    n.written ∉ keywords := by
  simp only [literal, outcome_orElse, outcome_bind, outcome_pure, Option.or_eq_none_iff,
    Option.bind_eq_none_iff, reduceCtorEq, imp_false] at h
  obtain ⟨-, -, hboolean, hnull⟩ := h
  -- Each keyword would have been read as the literal that it spells.
  intro hmem
  simp only [keywords, List.mem_cons, List.not_mem_nil, or_false] at hmem
  rcases hmem with hword | hword | hword
  · refine hboolean (n.written, behind) (outcome_token_iff.mpr ⟨?_, hread⟩)
    rw [hread.rest, hword]
    exact boolean_written true hrest
  · refine hboolean (n.written, behind) (outcome_token_iff.mpr ⟨?_, hread⟩)
    rw [hread.rest, hword]
    exact boolean_written false hrest
  · refine hnull (n.written, behind) (outcome_token_iff.mpr ⟨?_, hread⟩)
    exact keyword_eq_some_iff.mpr ⟨hword, by rw [hread.rest, hword], hrest⟩

/-- A step is never read from nothing, so a repetition of steps comes to an end. -/
theorem access_progress {step : Step} (h : access.outcome cursor = some (step, behind)) :
    behind.rest.length < cursor.rest.length := by
  obtain ⟨a, -, hread⟩ := exists_access h
  exact hread.length_lt a.written_ne_nil

/-- What is read as a path, where no literal is, is the text of a path. -/
theorem exists_path {phrase : Phrase} (hliteral : literal.outcome cursor = none)
    (h : path.outcome cursor = some (phrase, behind)) :
    ∃ t : Tree, phrase = t.phrase cursor.here ∧ cursor.Reads t.written behind := by
  simp only [path_eq, outcome_named, outcome_bind, outcome_pure, Option.bind_eq_some_iff,
    Option.some.injEq, Prod.mk.injEq, Prod.exists] at h
  obtain ⟨word, c₁, hword, steps, c₂, hsteps, rfl, rfl⟩ := h
  obtain ⟨root, rfl, hroot, hstops⟩ := exists_word hword
  -- The repetition is a chain because each step makes progress.
  obtain ⟨accesses, rfl, haccesses⟩ :=
    exists_accesses ((outcome_many_iff access_progress).mp hsteps)
  refine ⟨.path root (notMem_keywords hroot hstops hliteral) accesses, ?_, hroot.trans haccesses⟩
  rw [hroot.here]
  rfl

/-- What is read of each phrase is the text of a tree. -/
def ReadsTrees (e : Recogniser Phrase) : Prop :=
  ∀ {cursor behind : Cursor} {phrase : Phrase}, e.outcome cursor = some (phrase, behind) →
    ∃ t : Tree, phrase = t.phrase cursor.here ∧ cursor.Reads t.written behind

variable {e}

/-- What is read as an item of a list is a tree behind a comma, with a gap on each side of the
comma. -/
theorem exists_item (he : ReadsTrees e) {phrase : Phrase}
    (h : (item e).outcome cursor = some (phrase, behind)) :
    ∃ before lead t, phrase = Tree.phrase (cursor.here + extent (Gap.chars before ++ ',' ::
      Gap.chars lead)) t ∧
      cursor.Reads (before.chars ++ ',' :: (lead.chars ++ t.written)) behind := by
  simp only [item, outcome_bind, Option.bind_eq_some_iff, Prod.exists] at h
  obtain ⟨_, c₁, hbefore, _, c₂, hcomma, _, c₃, hlead, hitem⟩ := h
  obtain ⟨before, hbefore⟩ := exists_gap hbefore
  obtain ⟨lead, hlead⟩ := exists_gap hlead
  obtain ⟨t, rfl, ht⟩ := he hitem
  have hin := hbefore.trans ((outcome_symbol_iff.mp hcomma).trans hlead)
  refine ⟨before, lead, t, ?_, ?_⟩
  · rw [hin.here]
    rfl
  · simpa using hin.trans ht

/-- An item is never read from nothing: it has a comma. -/
theorem item_progress (he : ReadsTrees e) {phrase : Phrase}
    (h : (item e).outcome cursor = some (phrase, behind)) :
    behind.rest.length < cursor.rest.length := by
  obtain ⟨before, lead, t, -, hread⟩ := exists_item he h
  exact hread.length_lt (by simp)

/-- The second item and the chain behind it are the items of a list. -/
theorem exists_items (he : ReadsTrees e) {second : Phrase} {others : List Phrase}
    {middle : Cursor} (hsecond : (item e).outcome cursor = some (second, middle))
    (hothers : Chain (item e) middle others behind) :
    ∃ items : Items, second :: others = items.phrases cursor.here ∧
      cursor.Reads items.written behind := by
  -- The induction is on the chain behind the second item; its first link is the next second item.
  induction hothers generalizing cursor second with
  | stop =>
    obtain ⟨before, lead, t, rfl, hread⟩ := exists_item he hsecond
    exact ⟨.last before lead t, rfl, hread⟩
  | step hitem _ _ ih =>
    obtain ⟨before, lead, t, rfl, hread⟩ := exists_item he hsecond
    obtain ⟨items, hphrases, hitems⟩ := ih hitem
    refine ⟨.more before lead t items, ?_, ?_⟩
    · rw [hphrases, hread.here]
      rfl
    · simpa [Items.written] using hread.trans hitems

/-- What is read as a list is the text of one, if items are read as they should be. -/
theorem exists_list (he : ReadsTrees e) : ReadsTrees (list e) := by
  intro cursor behind phrase h
  simp only [list_eq, outcome_named, outcome_bind, outcome_pure, Option.bind_eq_some_iff,
    Option.some.injEq, Prod.mk.injEq, Prod.exists] at h
  obtain ⟨_, c₁, hopen, _, c₂, hlead, first, c₃, hfirst, second, c₄, hsecond, others, c₅, hothers,
    _, c₆, htrail, _, c₇, hclose, rfl, rfl⟩ := h
  obtain ⟨lead, hlead⟩ := exists_gap hlead
  obtain ⟨trail, htrail⟩ := exists_gap htrail
  obtain ⟨first, rfl, hread⟩ := he hfirst
  obtain ⟨items, hphrases, hitems⟩ :=
    exists_items he hsecond ((outcome_many_iff (item_progress he)).mp hothers)
  -- The cursor is followed from the bracket to the first item, and behind it to the others.
  have hin := (outcome_symbol_iff.mp hopen).trans hlead
  have hbefore := hin.trans hread
  have hout := htrail.trans (outcome_symbol_iff.mp hclose)
  refine ⟨.list lead first items trail, ?_, ?_⟩
  · rw [hphrases, hin.here, hbefore.here]
    rfl
  · simpa [Tree.written] using hbefore.trans (hitems.trans hout)

/-- What is read between parentheses is the text of a group, if the inner part is read as it should
be. -/
theorem exists_group (he : ReadsTrees e) : ReadsTrees (group e) := by
  intro cursor behind phrase h
  simp only [group, outcome_named, outcome_bind, outcome_pure, Option.bind_eq_some_iff,
    Option.some.injEq, Prod.mk.injEq, Prod.exists] at h
  obtain ⟨_, c₁, hopen, _, c₂, hlead, inner, c₃, hinner, _, c₄, htrail, _, c₅, hclose, rfl,
    rfl⟩ := h
  obtain ⟨lead, hlead⟩ := exists_gap hlead
  obtain ⟨trail, htrail⟩ := exists_gap htrail
  obtain ⟨inner, rfl, hread⟩ := he hinner
  have hin := (outcome_symbol_iff.mp hopen).trans hlead
  have hout := htrail.trans (outcome_symbol_iff.mp hclose)
  refine ⟨.group lead inner trail, ?_, ?_⟩
  · rw [hin.here]
    rfl
  · simpa [Tree.written] using hin.trans (hread.trans hout)

/-- At any depth, what is read as an expression is the text of a tree. -/
theorem exists_tree (depth : Nat) : ReadsTrees (expr depth) := by
  induction depth with
  -- Without any depth nothing is read.
  | zero =>
    intro cursor behind phrase h
    cases h
  | succ depth ih =>
    intro cursor behind phrase h
    simp only [expr, outcome_orElse, Option.or_eq_some_iff] at h
    -- The alternatives in their order: a path is tried only where no literal was read.
    rcases h with hlist | ⟨-, hgroup | ⟨-, hliteral | ⟨hnone, hpath⟩⟩⟩
    · exact exists_list ih hlist
    · exact exists_group ih hgroup
    · exact exists_literal hliteral
    · exact exists_path hnone hpath

/-- What is read up to the end of the text is a sentence. -/
theorem exists_sentence {depth : Nat} {phrase : Phrase}
    (h : (expression depth).outcome cursor = some (phrase, behind)) :
    ∃ s : Sentence, s.written = cursor.rest ∧
      phrase = s.tree.phrase (cursor.here + extent s.lead.chars) := by
  simp only [expression, outcome_named, outcome_bind, outcome_pure, outcome_atEnd,
    Option.bind_eq_some_iff, Option.ite_none_right_eq_some, Option.some.injEq, Prod.mk.injEq,
    Prod.exists] at h
  obtain ⟨_, c₁, hlead, tree, c₂, htree, _, c₃, htrail, _, c₄, ⟨hend, -, rfl⟩, rfl, rfl⟩ := h
  obtain ⟨lead, hlead⟩ := exists_gap hlead
  obtain ⟨trail, htrail⟩ := exists_gap htrail
  obtain ⟨t, rfl, ht⟩ := exists_tree depth htree
  -- The end of the text leaves nothing behind the last gap.
  refine ⟨⟨lead, t, trail⟩, ?_, ?_⟩
  · rw [(hlead.trans (ht.trans htrail)).rest, hend, List.append_nil]
    rfl
  · rw [hlead.here]

end Interpolation.Grammar
