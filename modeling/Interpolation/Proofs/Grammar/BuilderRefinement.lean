import Interpolation.Proofs.ErrorPosition
import Interpolation.Proofs.Grammar.LockStep
import Interpolation.Proofs.Grammar.TokenPattern
import Interpolation.Proofs.Grammar.TreeBuilder
import Mathlib

/-!
# The builder of trees against the recognisers

The recognisers of expressions read what the grammar reads, in lock-step, and the tree that the
builder makes of the pairs is the one that the recognisers have found.  So the pairs of a text have
the shape that the builder trusts in, whatever the text is: the errors that the builder has for
other shapes are never reached, and it stops nowhere.  The only error is the one for a number that
is too large to index a list, at the first such number.

## Main definitions

- `fitting`: what is built if all numbers fit.
- `Numbered`: pairs with the numbers that a recogniser has found.
- `Builds`, `BuildsStep`: a pair from which the builder makes what a recogniser has found.

## Main results

- `lockStep_token`, `lockStep_quotedText`, `lockStep_path`, `lockStep_list`: the rules in lock-step.
- `lockStep_expr`, `lockStep_expression`: expressions, and whole texts.
- `treeBuilder_exact`: the builder on every text.
-/

namespace Interpolation.Grammar

open Recogniser

/-! ## Layer A: what is built if all numbers fit -/

section Fitting

variable {α β : Type} {is js : List IndexToken}

/-- What is built, unless a number is too large to index a list; then the first such number is at
fault, in bytes. -/
def fitting (indices : List IndexToken) (a : α) : Build α :=
  match indices.find? (largestIndex < ·.value) with
  | some index => throw (malformedAt index.place.bytes "index out of range")
  | none => pure a

/-- The numbers of what is built first come first. -/
theorem fitting_bind (a : α) (f : α → Build β) (b : β) (hf : f a = fitting js b) :
    fitting is a >>= f = fitting (is ++ js) b := by
  unfold fitting at hf ⊢
  rw [List.find?_append]
  -- A number too large in the first part fails before the second is built.
  cases is.find? (largestIndex < ·.value) with
  | some index => rfl
  | none => simpa using hf

theorem fitting_map (a : α) (f : α → β) :
    (fitting is a >>= fun a => pure (f a)) = fitting is (f a) := by
  have h : fitting is a >>= (fun a => pure (f a)) = fitting (is ++ []) (f a) :=
    fitting_bind a _ (f a) rfl
  rwa [List.append_nil] at h

end Fitting

/-- The pairs of the numbers that index lists, in the order of the text. -/
def indexTokens (pairs : List Pair) : List Pair := (Pair.allOf pairs).filter (·.rule = .integer)

/-- The string literals in some pairs have both quotes. -/
def QuotesIn (pairs : List Pair) : Prop :=
  ∀ pair ∈ Pair.allOf pairs, pair.rule = .string → ∃ q : Quoted, pair.text = q.written

/-- A pair is of the number at a place. -/
structure Marks (pair : Pair) (index : IndexToken) : Prop where
  /-- The pair starts where the number does. -/
  start : pair.start = index.place.bytes
  /-- The digits of the pair make up the number. -/
  value : digitsValue pair.text = index.value
  /-- The text of the pair is a run of digits. -/
  digits : ∃ d : Digits, pair.text = d.chars

/-- Some pairs have the same numbers in them as what a recogniser has found. -/
structure Numbered (pairs : List Pair) (indices : List IndexToken) : Prop where
  /-- The numbers are the same, one by one. -/
  marks : List.Forall₂ Marks (indexTokens pairs) indices
  /-- String literals have both quotes. -/
  quoted : QuotesIn pairs

namespace Numbered

variable {pairs others : List Pair} {is js : List IndexToken} {rule : Rule}

theorem nil : Numbered [] [] := ⟨.nil, nofun⟩

/-- The numbers of two lists of pairs come one after the other. -/
theorem append (h : Numbered pairs is) (h' : Numbered others js) :
    Numbered (pairs ++ others) (is ++ js) where
  marks := by
    rw [indexTokens, Pair.allOf_append, List.filter_append]
    exact List.rel_append h.marks h'.marks
  quoted := by
    rw [QuotesIn, Pair.allOf_append]
    exact List.forall_mem_append.mpr ⟨h.quoted, h'.quoted⟩

/-- A rule around pairs has their numbers, unless it is a number itself. -/
theorem around (h : Numbered pairs is) (hinteger : rule ≠ .integer) (hstring : rule ≠ .string)
    (start : Nat) (text : List Char) : Numbered [⟨rule, start, text, pairs⟩] is where
  marks := by
    rw [indexTokens, Pair.allOf_singleton, List.filter_cons_of_neg (by simpa using hinteger)]
    exact h.marks
  quoted := by
    rw [QuotesIn, Pair.allOf_singleton]
    exact List.forall_mem_cons.mpr ⟨fun heq => absurd heq hstring, h.quoted⟩

theorem leaf (hinteger : rule ≠ .integer) (hstring : rule ≠ .string) (start : Nat)
    (text : List Char) : Numbered [⟨rule, start, text, []⟩] [] :=
  nil.around hinteger hstring start text

/-- A string literal has the numbers of what is in it, which are none. -/
theorem string (h : Numbered pairs is) (q : Quoted) (start : Nat) :
    Numbered [⟨.string, start, q.written, pairs⟩] is where
  marks := by
    rw [indexTokens, Pair.allOf_singleton, List.filter_cons_of_neg (by simp)]
    exact h.marks
  quoted := by
    rw [QuotesIn, Pair.allOf_singleton]
    exact List.forall_mem_cons.mpr ⟨fun _ => ⟨q, rfl⟩, h.quoted⟩

theorem integer (place : Offset) (d : Digits) :
    Numbered [⟨.integer, place.bytes, d.chars, []⟩] [⟨place, digitsValue d.chars⟩] where
  marks := .cons ⟨rfl, rfl, d, rfl⟩ .nil
  quoted := by
    rw [QuotesIn, Pair.allOf_singleton]
    exact List.forall_mem_cons.mpr ⟨nofun, nil.quoted⟩

theorem flatMap {α : Type} {indices : α → List IndexToken} {as : List α}
    (h : List.Forall₂ (fun pair a => Numbered [pair] (indices a)) pairs as) :
    Numbered pairs (as.flatMap indices) := by
  induction h with
  | nil => exact nil
  | cons hfirst _ ih => exact hfirst.append ih

end Numbered

/-- The builder makes of a pair what a recogniser has found. -/
structure Builds (pair : Pair) (phrase : Phrase) : Prop where
  /-- What is built is the tree of the phrase, if the numbers fit. -/
  built : buildNode pair = fitting phrase.indices phrase.node
  /-- The numbers of the pair are those of the phrase. -/
  numbered : Numbered [pair] phrase.indices

/-- The builder makes of a pair the accessor that a recogniser has found. -/
structure BuildsStep (pair : Pair) (step : Step) : Prop where
  /-- What is built is the accessor of the step, if its number fits. -/
  built : buildAccessor pair = fitting step.indices step.accessor
  /-- The numbers of the pair are those of the step. -/
  numbered : Numbered [pair] step.indices

/-- The first item whose numbers do not fit fails a list. -/
theorem buildItems_eq {pairs : List Pair} {phrases : List Phrase}
    (h : List.Forall₂ Builds pairs phrases) :
    buildItems pairs = fitting (phrases.flatMap Phrase.indices) (phrases.map Phrase.node) := by
  -- Along the items, in the order in which they are built.
  induction h with
  | nil => rfl
  | cons hfirst _ ih =>
    rw [buildItems, hfirst.built, List.flatMap_cons, List.map_cons]
    apply fitting_bind
    rw [ih, fitting_map]

/-- The first step whose number does not fit fails a path. -/
theorem mapM_buildAccessor {pairs : List Pair} {steps : List Step}
    (h : List.Forall₂ BuildsStep pairs steps) :
    pairs.mapM buildAccessor = fitting (steps.flatMap Step.indices) (steps.map Step.accessor) := by
  induction h with
  | nil => rfl
  | cons hfirst _ ih =>
    rw [List.mapM_cons, hfirst.built, List.flatMap_cons, List.map_cons]
    apply fitting_bind
    rw [ih, fitting_map]

/-! ## Layer B: tokens -/

variable {cursor behind : Cursor} {mode : Mode}

theorem outcome_of_gives {α : Type} {p : Recogniser α} [Lawful p] {a : α}
    (h : p.Gives cursor a behind) : p.outcome cursor = some (a, behind) := by
  obtain ⟨state, after, h⟩ := h
  rw [← fst_run p cursor state, h]

/-- What a token leaves is a pair without pairs in it. -/
theorem lockStep_token {rule : Rule} {lexer : Lexer} [LawfulLexer lexer]
    (hlexer : (production rule).pattern.lexer = lexer) (hkind : (production rule).kind = .atomic)
    (htoken : (production rule).pattern.IsToken = true) (depth : Nat) (hmode : mode ≠ .atomic)
    (cursor : Cursor) :
    LockStep (fun pairs behind u behind' =>
        pairs = [⟨rule, cursor.here.bytes, u, []⟩] ∧ behind = behind')
      (readRule (depth + 1) mode rule) (token rule lexer) cursor cursor := by
  have hread : readRule (depth + 1) mode rule =
      pairOf mode rule ((production rule).pattern.read (readRule depth) .atomic) := by
    rw [readRule, hkind]
  rw [hread]
  refine .pairOf hmode fun state => ?_
  -- Inside the token the pattern is its lexer, and so is the recogniser.
  rw [read_atomic _ htoken cursor state, hlexer, lexeme_run]
  cases hsplit : lexer cursor.rest with
  | none => exact .failed state
  | some split =>
    refine .found state ⟨?_, rfl⟩
    rw [(Cursor.Reads.advance (LawfulLexer.split hsplit)).textTo_eq]

/-! ## Layer C: literals and paths -/

/-- What a single pair stands for. -/
def Single {α : Type} (R : Pair → α → Prop) (pairs : List Pair) (a : α) : Prop :=
  ∃ pair, pairs = [pair] ∧ R pair a

theorem token_of_gives {rule : Rule} {lexer : Lexer} [LawfulLexer lexer] {u : List Char}
    (h : (token rule lexer).Gives cursor u behind) :
    lexer cursor.rest = some (u, behind.rest) ∧ cursor.Reads u behind :=
  outcome_token_iff.mp (outcome_of_gives h)

/-- The pair of a literal that can be taken apart. -/
def IsLiteral (start : Nat) (pair : Pair) (value : String) : Prop :=
  ∃ q inner, pair = ⟨.string, start, Quoted.written q, inner⟩ ∧ value = q.value ∧ Numbered inner []

theorem isLiteral {rule : Rule} (hinteger : rule ≠ .integer) (hstring : rule ≠ .string)
    (q : Quoted) (hread : cursor.Reads q.written behind) :
    IsLiteral cursor.here.bytes ⟨.string, cursor.here.bytes, cursor.textTo behind,
      [⟨rule, cursor.here.bytes, q.written, []⟩]⟩ q.value := by
  rw [hread.textTo_eq]
  exact ⟨q, _, rfl, rfl, .leaf hinteger hstring _ _⟩

theorem IsLiteral.numbered {start : Nat} {pair : Pair} {value : String}
    (h : IsLiteral start pair value) : Numbered [pair] [] := by
  obtain ⟨q, inner, rfl, -, hinner⟩ := h
  exact hinner.string q start

/-- String literals run in lock-step, and the text of their pair can be taken apart. -/
theorem lockStep_quotedText (depth : Nat) (mode : Mode) (cursor : Cursor) :
    LockStep (fun pairs behind value behind' =>
        Single (IsLiteral cursor.here.bytes) pairs value ∧ behind = behind')
      (readRule (depth + 2) mode .string) quotedText cursor cursor := by
  have hmode : Mode.compound ≠ .atomic := by decide
  refine .pairOf hmode (.orElse ?_ ?_)
  · -- Either kind of quotes: the token has the text of the literal, and the rule around it the same
    -- place.
    have htoken := lockStep_token lexer_singleQuoted rfl rfl depth hmode cursor
    refine .map_right (htoken.mono fun hgives hleaf => ?_)
    obtain ⟨hlexer, hread⟩ := token_of_gives hgives
    obtain ⟨value, rfl, -⟩ := exists_single hlexer
    obtain ⟨rfl, rfl⟩ := hleaf
    rw [singleQuotedValue_written]
    exact ⟨⟨_, rfl, isLiteral (by decide) (by decide) (.single value) hread⟩, rfl⟩
  · have htoken := lockStep_token lexer_doubleQuoted rfl rfl depth hmode cursor
    refine .map_right (htoken.mono fun hgives hleaf => ?_)
    obtain ⟨hlexer, hread⟩ := token_of_gives hgives
    obtain ⟨value, inert, rfl, -⟩ := exists_double hlexer
    obtain ⟨rfl, rfl⟩ := hleaf
    rw [doubleQuotedValue_written]
    exact ⟨⟨_, rfl, isLiteral (by decide) (by decide) (.double value inert) hread⟩, rfl⟩

/-- A phrase and its pair, of a rule that is read up to the same place. -/
abbrev ReadsAlike (pairs : List Pair) (behind : Cursor) (phrase : Phrase) (behind' : Cursor) :
    Prop :=
  Single Builds pairs phrase ∧ behind = behind'

theorem IsLiteral.builds {start : Nat} {pair : Pair} {value : String}
    (h : IsLiteral start pair value) : Builds pair (.literal (.string value)) where
  built := by
    obtain ⟨q, inner, rfl, rfl, -⟩ := h
    simp only [buildNode, unquote_written]
    rfl
  numbered := h.numbered

theorem builds_number (start : Nat) (n : Numeral) :
    Builds ⟨.number, start, n.written, []⟩ (.literal (.number (numberValue n.written))) where
  built := by
    simp only [buildNode, float?_written]
    rfl
  numbered := .leaf (by decide) (by decide) start _

/-- Literals run in lock-step. -/
theorem lockStep_literal (depth : Nat) (cursor : Cursor) :
    LockStep ReadsAlike (Pattern.literal.read (readRule (depth + 2)) .free) literal
      cursor cursor := by
  have hmode : Mode.free ≠ .atomic := by decide
  refine .orElse ?_ (.orElse ?_ (.orElse ?_ ?_))
  · -- The four kinds of literals, in the order of the choice.
    refine .map_right ((lockStep_quotedText depth .free cursor).mono fun _ h => ?_)
    obtain ⟨⟨pair, rfl, hpair⟩, rfl⟩ := h
    exact ⟨⟨pair, rfl, hpair.builds⟩, rfl⟩
  · have htoken := lockStep_token lexer_number rfl rfl (depth + 1) hmode cursor
    refine .map_right (htoken.mono fun hgives hleaf => ?_)
    obtain ⟨n, rfl, -⟩ := exists_numeral (token_of_gives hgives).1
    obtain ⟨rfl, rfl⟩ := hleaf
    exact ⟨⟨_, rfl, builds_number _ n⟩, rfl⟩
  · have htoken := lockStep_token lexer_boolean rfl rfl (depth + 1) hmode cursor
    refine .map_right (htoken.mono fun _ hleaf => ?_)
    obtain ⟨rfl, rfl⟩ := hleaf
    exact ⟨⟨_, rfl, rfl, .leaf (by decide) (by decide) _ _⟩, rfl⟩
  · have htoken := lockStep_token lexer_null rfl rfl (depth + 1) hmode cursor
    refine .map_right (htoken.mono fun _ hleaf => ?_)
    obtain ⟨rfl, rfl⟩ := hleaf
    exact ⟨⟨_, rfl, rfl, .leaf (by decide) (by decide) _ _⟩, rfl⟩

/-- A step and its pair. -/
abbrev StepsAlike (pairs : List Pair) (behind : Cursor) (step : Step) (behind' : Cursor) : Prop :=
  Single BuildsStep pairs step ∧ behind = behind'

theorem buildsStep_of_target {rule : Rule} {target : Pair} {step : Step}
    (hinteger : rule ≠ .integer) (hstring : rule ≠ .string) (start : Nat) (text : List Char)
    (hbuilt : ∀ start text, buildAccessor ⟨rule, start, text, [target]⟩ =
      fitting step.indices step.accessor)
    (hnumbered : Numbered [target] step.indices) :
    BuildsStep ⟨rule, start, text, [target]⟩ step :=
  ⟨hbuilt start text, hnumbered.around hinteger hstring start text⟩

/-- Names run in lock-step. -/
theorem lockStep_name (depth : Nat) (cursor : Cursor) :
    LockStep (fun pairs behind word behind' => (∃ u, word = String.ofList u ∧
        pairs = [⟨.identifier, cursor.here.bytes, u, []⟩]) ∧ behind = behind')
      (readRule (depth + 1) .free .identifier) name cursor cursor := by
  have htoken := lockStep_token lexer_identifier rfl rfl depth (by decide : Mode.free ≠ .atomic)
    cursor
  refine .map_right (htoken.mono fun _ hleaf => ?_)
  exact ⟨⟨_, rfl, hleaf.1⟩, hleaf.2⟩

/-- Steps by name run in lock-step. -/
theorem lockStep_property (depth : Nat) (cursor : Cursor) :
    LockStep StepsAlike (readRule (depth + 2) .free .property) property cursor cursor := by
  refine .pairOf (by decide) ?_
  rw [production, read_word_andThen]
  refine (LockStep.symbol '.' cursor).bind fun _ hopen => ?_
  subst hopen
  refine (LockStep.space (.refl _)).bind fun _ hspace => ?_
  subst hspace
  refine .map_right ((lockStep_name depth _).mono fun _ hname => ?_)
  obtain ⟨⟨u, rfl, rfl⟩, rfl⟩ := hname
  refine ⟨⟨_, rfl, buildsStep_of_target (by decide) (by decide) _ _ (fun _ _ => rfl) ?_⟩, rfl⟩
  exact .leaf (by decide) (by decide) _ _

/-- What stands between the brackets of an index. -/
def IsTarget (target : Pair) (step : Step) : Prop :=
  ∀ start text, BuildsStep ⟨.index, start, text, [target]⟩ step

theorem IsLiteral.isTarget {start : Nat} {pair : Pair} {value : String}
    (h : IsLiteral start pair value) : IsTarget pair ⟨.key value, []⟩ := by
  intro start text
  refine buildsStep_of_target (by decide) (by decide) start text (fun _ _ => ?_) h.numbered
  obtain ⟨q, inner, rfl, rfl, -⟩ := h
  simp only [buildAccessor, firstOr, pure_bind, unquote_written]
  rfl

/-- A number indexes a list if it is small enough. -/
theorem isTarget_digits (place : Offset) (d : Digits) :
    IsTarget ⟨.integer, place.bytes, d.chars, []⟩
      ⟨.index (digitsValue d.chars), [⟨place, digitsValue d.chars⟩]⟩ := by
  intro start text
  refine buildsStep_of_target (by decide) (by decide) start text (fun _ _ => ?_)
    (.integer place d)
  simp only [buildAccessor, firstOr, pure_bind, index?_digits, fitting, List.find?_singleton]
  -- The builder converts the digits here, and this is its only fault.
  by_cases hfits : digitsValue d.chars ≤ largestIndex
  · simp [hfits, Nat.not_lt.mpr hfits]
  · simp [hfits, Nat.lt_of_not_le hfits]

/-- What stands between brackets runs in lock-step. -/
theorem lockStep_subscript (depth : Nat) (cursor : Cursor) :
    LockStep (fun pairs behind step behind' => Single IsTarget pairs step ∧ behind = behind')
      (Pattern.read (readRule (depth + 2)) .free (.rule .string <|> .rule .integer)) subscript
      cursor cursor := by
  refine .orElse ?_ ?_
  · refine .map_right ((lockStep_quotedText depth .free cursor).mono fun _ h => ?_)
    obtain ⟨⟨pair, rfl, hpair⟩, rfl⟩ := h
    exact ⟨⟨pair, rfl, hpair.isTarget⟩, rfl⟩
  · have htoken := lockStep_token lexer_integer rfl rfl (depth + 1)
      (by decide : Mode.free ≠ .atomic) cursor
    -- The recogniser keeps the place of the number; asking for it reads nothing.
    have hnumber : LockStep (fun pairs behind step behind' => Single IsTarget pairs step ∧
        behind = behind') (readRule (depth + 2) .free .integer)
        (token .integer digits >>= fun u =>
          pure ⟨.index (digitsValue u), [⟨cursor.here, digitsValue u⟩]⟩) cursor cursor := by
      refine .map_right (htoken.mono fun hgives hleaf => ?_)
      obtain ⟨d, rfl, -⟩ := exists_digits (token_of_gives hgives).1
      obtain ⟨rfl, rfl⟩ := hleaf
      exact ⟨⟨_, rfl, isTarget_digits cursor.here d⟩, rfl⟩
    exact hnumber

/-- Steps in brackets run in lock-step. -/
theorem lockStep_index (depth : Nat) (cursor : Cursor) :
    LockStep StepsAlike (readRule (depth + 3) .free .index) index cursor cursor := by
  refine .pairOf (by decide) ?_
  rw [production, read_word_andThen, read_andThen_word]
  refine (LockStep.symbol '[' cursor).bind fun _ hopen => ?_
  subst hopen
  refine (LockStep.space (.refl _)).bind fun _ hspace => ?_
  subst hspace
  refine (lockStep_subscript depth _).bind fun _ hsubscript => ?_
  obtain ⟨⟨target, rfl, htarget⟩, rfl⟩ := hsubscript
  refine (LockStep.space (.refl _)).bind fun _ hspace => ?_
  subst hspace
  refine (LockStep.symbol ']' _).bind fun _ hclose => ?_
  subst hclose
  exact .pure ⟨⟨_, rfl, htarget _ _⟩, rfl⟩

/-- A step takes up some of the text. -/
theorem bareAccess_progress {step : Step} (h : (orElse property index).Gives cursor step behind) :
    behind.rest.length < cursor.rest.length := by
  rcases gives_orElse h with h | h
  · obtain ⟨inner, n, -, hread⟩ := exists_property (outcome_of_gives h)
    exact hread.length_lt (List.cons_ne_nil _ _)
  · have hnone : cursor.Reads (⟨[], List.forall_mem_nil _⟩ : Gap).chars cursor := .nil cursor
    obtain ⟨a, -, hread⟩ := exists_index hnone (outcome_of_gives h)
    exact hread.length_lt a.written_ne_nil

theorem forall₂_flatten {α : Type} {R : Pair → α → Prop} {all : List (List Pair)} {as : List α}
    (h : List.Forall₂ (Single R) all as) : List.Forall₂ R all.flatten as := by
  induction h with
  | nil => exact .nil
  | cons hfirst _ ih =>
    obtain ⟨pair, rfl, hpair⟩ := hfirst
    exact .cons hpair ih

/-- A phrase and its pair, of a rule that may have been read up to spaces further on. -/
def ReadsPast (pairs : List Pair) (behind : Cursor) (phrase : Phrase) (behind' : Cursor) : Prop :=
  Single Builds pairs phrase ∧ behind.Past behind'

/-- The builder makes a path of its root and its steps. -/
theorem builds_path {root : Pair} {steps : List Pair} {found : List Step} (start : Nat)
    (text : List Char) (hroot : Numbered [root] []) (hsteps : List.Forall₂ BuildsStep steps found) :
    Builds ⟨.path, start, text, root :: steps⟩ (.path (String.ofList root.text) found) where
  built := by
    rw [buildNode, buildPath, mapM_buildAccessor hsteps]
    exact fitting_map _ _
  numbered := by
    have hnumbered := Numbered.flatMap (hsteps.imp fun _ _ h => h.numbered)
    exact (hroot.append hnumbered).around (by decide) (by decide) start text

/-- Paths run in lock-step, up to spaces behind the last step. -/
theorem lockStep_path (depth : Nat) (cursor : Cursor) :
    LockStep ReadsPast (readRule (depth + 4) .free .path) path cursor cursor := by
  rw [path_eq]
  refine .pairOf (by decide) ?_
  -- The spaces in front of the steps belong to the repetition.
  have hread : (production .path).pattern.read (readRule (depth + 3)) .free = (do
      let root ← readRule (depth + 3) .free .identifier
      let steps ← (do
        separator .free
        (Pattern.star (.rule .property <|> .rule .index)).read (readRule (depth + 3)) .free)
      return root ++ steps) := by
    simp only [bind_assoc]
    rfl
  rw [hread]
  refine (lockStep_name (depth + 2) cursor).bind fun _ hroot => ?_
  obtain ⟨⟨u, rfl, rfl⟩, rfl⟩ := hroot
  -- A step ends without spaces, so it is past its own end.
  have hstep {cursor : Cursor} : LockStep
      (fun pairs behind step behind' => Single BuildsStep pairs step ∧ behind.Past behind')
      (orElse (readRule (depth + 3) .free .property) (readRule (depth + 3) .free .index))
      (orElse property index) cursor cursor := by
    refine (LockStep.orElse (lockStep_property (depth + 1) cursor)
      (lockStep_index depth cursor)).mono fun _ h => ?_
    exact ⟨h.1, h.2 ▸ .refl _⟩
  refine (LockStep.star (fun _ => hstep) bareAccess_progress (Nat.lt_succ_self _)
    (.refl _)).bind fun _ hsteps => ?_
  obtain ⟨all, rfl, hall, hpast⟩ := hsteps
  have hroot : Numbered [⟨.identifier, cursor.here.bytes, u, []⟩] [] :=
    .leaf (by decide) (by decide) _ _
  exact .pure ⟨⟨_, rfl, builds_path _ _ hroot (forall₂_flatten hall)⟩, hpast⟩

/-! ## Layer D: parentheses -/

theorem Builds.group {inner : Pair} {phrase : Phrase} (h : Builds inner phrase) (start : Nat)
    (text : List Char) : Builds ⟨.group, start, text, [inner]⟩ phrase where
  built := by rw [buildNode, h.built]
  numbered := h.numbered.around (by decide) (by decide) start text

/-- The builder makes a list of its items. -/
theorem builds_list {pairs : List Pair} {phrases : List Phrase}
    (h : List.Forall₂ Builds pairs phrases) (start : Nat) (text : List Char) :
    Builds ⟨.list, start, text, pairs⟩ (.list phrases) where
  built := by
    rw [buildNode, buildItems_eq h]
    exact fitting_map _ _
  numbered := by
    have hnumbered := Numbered.flatMap (h.imp fun _ _ hitem => hitem.numbered)
    exact hnumbered.around (by decide) (by decide) start text

theorem length_le_of_gives {α : Type} {p : Recogniser α} [Lawful p] {a : α}
    (h : p.Gives cursor a behind) : behind.rest.length ≤ cursor.rest.length := by
  obtain ⟨u, hu⟩ := reads_of_gives h
  rw [hu.rest, List.length_append]
  exact Nat.le_add_left _ _

theorem bareItem_progress {e : Recogniser Phrase} [Lawful e] {phrase : Phrase}
    (h : (symbol ',' >>= fun _ => space >>= fun _ => e).Gives cursor phrase behind) :
    behind.rest.length < cursor.rest.length := by
  obtain ⟨_, middle, hcomma, h⟩ := gives_bind h
  have hlt := (outcome_symbol_iff.mp (outcome_of_gives hcomma)).length_lt (List.cons_ne_nil _ _)
  exact Nat.lt_of_le_of_lt (length_le_of_gives h) hlt

/-- The items of a list, which are at least two, and the parenthesis behind them. -/
theorem read_items (call : Mode → Rule → Recogniser (List Pair)) :
    (Pattern.expr >> Pattern.plus (.word [','] >> Pattern.expr) >> .word [')']).read call .free =
      (do
        let first ← Pattern.expr.read call .free
        let second ← (do
          separator .free
          (Pattern.word [','] >> Pattern.expr).read call .free)
        let others ← (do
          separator .free
          (Pattern.star (.word [','] >> Pattern.expr)).read call .free)
        separator .free
        let _ ← lexeme (exactly [')'])
        return first ++ (second ++ others)) := by
  rw [read_andThen, read_andThen_word, Pattern.plus, read_andThen]
  simp only [bind_assoc, pure_bind]

section Parentheses

variable {e : Recogniser Phrase} {call : Mode → Rule → Recogniser (List Pair)}
  {length : Nat} {cursor : Cursor}
  (he : ∀ {cursor : Cursor}, cursor.rest.length < length →
    LockStep ReadsPast (Pattern.expr.read call .free) e cursor cursor)

include he

/-- Groups run in lock-step. -/
theorem lockStep_group (hlength : cursor.rest.length ≤ length) :
    LockStep ReadsPast (pairOf .free .group ((production .group).pattern.read call .free)) (group e)
      cursor cursor := by
  refine .pairOf (by decide) ?_
  rw [production, read_word_andThen, read_andThen_word]
  refine .opening '(' cursor fun hlt => ?_
  refine (he (Nat.lt_of_lt_of_le hlt hlength)).bind fun _ hinner => ?_
  obtain ⟨⟨inner, rfl, hbuilds⟩, hpast⟩ := hinner
  exact .closing ')' hpast fun behind => ⟨⟨_, rfl, hbuilds.group _ _⟩, .refl behind⟩

theorem lockStep_bareItem (hlength : cursor.rest.length ≤ length) :
    LockStep ReadsPast ((Pattern.word [','] >> Pattern.expr).read call .free)
      (symbol ',' >>= fun _ => space >>= fun _ => e) cursor cursor := by
  rw [read_word_andThen]
  exact .opening ',' cursor fun hlt => he (Nat.lt_of_lt_of_le hlt hlength)

/-- Items run in lock-step, with the spaces in front of them. -/
theorem lockStep_item {cursor' : Cursor} (hpast : cursor.Past cursor')
    (hlength : cursor'.rest.length ≤ length) :
    LockStep ReadsPast
      (do
        separator .free
        (Pattern.word [','] >> Pattern.expr).read call .free)
      (item e) cursor cursor' := by
  refine (LockStep.space hpast).bind fun hgives hspace => ?_
  subst hspace
  have hle := length_le_of_gives hgives
  exact lockStep_bareItem he (Nat.le_trans hle hlength)

/-- Lists run in lock-step. -/
theorem lockStep_list (hlength : cursor.rest.length ≤ length) [Lawful e] :
    LockStep ReadsPast (pairOf .free .list ((production .list).pattern.read call .free)) (list e)
      cursor cursor := by
  rw [list_eq]
  refine .pairOf (by decide) ?_
  rw [production, read_word_andThen, read_items]
  refine .opening '(' cursor fun hlt => ?_
  -- The first item, the second with the spaces in front of it, and a repetition of further ones.
  refine (he (by omega)).bind fun hgives hfirst => ?_
  obtain ⟨⟨first, rfl, hfirst⟩, hpast⟩ := hfirst
  have hle := length_le_of_gives hgives
  refine (lockStep_item he hpast (by omega)).bind fun hgives hsecond => ?_
  obtain ⟨⟨second, rfl, hsecond⟩, hpast⟩ := hsecond
  have hle' := length_le_of_gives hgives
  refine (LockStep.star (fun h => lockStep_bareItem he (Nat.le_of_lt_succ h)) bareItem_progress
    (Nat.lt_succ_of_le ?_) hpast).bind fun _ hothers => ?_
  · omega
  obtain ⟨all, rfl, hall, hpast⟩ := hothers
  refine .closing ')' hpast fun behind => ⟨⟨_, rfl, ?_⟩, .refl behind⟩
  exact builds_list (.cons hfirst (.cons hsecond (forall₂_flatten hall))) _ _

end Parentheses

/-- **Expressions are read in lock-step**, where there are more parentheses allowed for than there
are characters to read. -/
theorem lockStep_expr (depth : Nat) {cursor : Cursor} (hlength : cursor.rest.length < depth) :
    LockStep ReadsPast (Pattern.expr.read (readRule (depth + 3)) .free) (expr depth)
      cursor cursor := by
  -- On the depth: inside parentheses there is less to read, so the smaller depth is enough.
  induction depth generalizing cursor with
  | zero => exact absurd hlength (Nat.not_lt_zero _)
  | succ depth ih =>
    have hle := Nat.le_of_lt_succ hlength
    refine .orElse (lockStep_list ih hle) (.orElse (lockStep_group ih hle) (.orElse ?_ ?_))
    · refine (lockStep_literal (depth + 2) cursor).mono fun _ h => ?_
      exact ⟨h.1, h.2 ▸ .refl _⟩
    · exact lockStep_path depth cursor

/-- The end of the text runs in lock-step. -/
theorem lockStep_endOfInput (depth : Nat) (cursor : Cursor) :
    LockStep (fun pairs _ _ _ => ∃ stop, pairs = [stop] ∧ Numbered [stop] [])
      (readRule (depth + 1) .free .endOfInput) (named .endOfInput atEnd) cursor cursor := by
  refine .pairOf (by decide) fun state => ?_
  have hread : (production .endOfInput).pattern.read (readRule depth) .free cursor state =
      (atEnd >>= fun _ => (pure [] : Recogniser (List Pair))) cursor state := rfl
  rw [hread, bind_run]
  -- Both succeed at the end of the text only.
  by_cases hend : cursor.rest = []
  · simp only [atEnd, hend, if_true]
    exact .found state ⟨_, rfl, .leaf (by decide) (by decide) _ _⟩
  · simp only [atEnd, hend, if_false]
    exact .failed state

/-- The pairs of a whole text are one, around that of an expression and that of the end. -/
theorem lockStep_expression (text : List Char) :
    LockStep (fun pairs _ phrase _ => ∃ text tree stop,
        pairs = [⟨.expression, 0, text, [tree, stop]⟩] ∧ Builds tree phrase ∧ Numbered [stop] [])
      (readRule (text.length + 5) .free .expression) (expression (text.length + 1))
      ⟨.zero, text⟩ ⟨.zero, text⟩ := by
  refine .pairOf (by decide) ?_
  -- The start of the text is looked for where it is.
  have hstart (state : Furthest) : (production .expression).pattern.read
      (readRule (text.length + 4)) .free ⟨.zero, text⟩ state = (separator .free >>= fun _ =>
        (Pattern.expr >> .rule .endOfInput : Pattern).read (readRule (text.length + 4)) .free)
        ⟨.zero, text⟩ state := by
    rw [← bind_pure ((Pattern.expr >> .rule .endOfInput : Pattern).read _ _)]
    rfl
  refine .of_run_eq hstart ?_
  refine (LockStep.space (.refl _)).bind fun hgives hspace => ?_
  subst hspace
  have hle := length_le_of_gives hgives
  refine (lockStep_expr (text.length + 1) (Nat.lt_succ_of_le hle)).bind fun _ htree => ?_
  obtain ⟨⟨tree, rfl, htree⟩, hpast⟩ := htree
  refine (LockStep.space hpast).bind fun _ hspace => ?_
  subst hspace
  refine (lockStep_endOfInput (text.length + 3) _).bind fun _ hstop => ?_
  obtain ⟨stop, rfl, hstop⟩ := hstop
  exact .pure ⟨_, tree, stop, rfl, htree, hstop⟩

/-! ## Layer E: whole texts -/

section Texts

variable {text : String} {pairs : List Pair} {phrase : Phrase}

/-- The pairs of a text are read exactly if the text is recognised, and a text that is refused is
refused with the same account. -/
theorem parsePairs_cases (text : List Char) :
    (∃ furthest, parsePairs text = .error furthest ∧ recognise text = .error furthest) ∨
      ∃ pairs phrase, parsePairs text = .ok pairs ∧ recognise text = .ok phrase ∧
        buildTree pairs = fitting phrase.indices phrase.node ∧ Numbered pairs phrase.indices := by
  have hrun := lockStep_expression text .initial
  unfold parsePairs recognise
  generalize readRule (text.length + 5) .free .expression ⟨.zero, text⟩ .initial = x at hrun
  generalize expression (text.length + 1) ⟨.zero, text⟩ .initial = y at hrun
  cases hrun with
  | failed after => exact .inl ⟨after, rfl, rfl⟩
  | @found pairs phrase behind behind' after h =>
    obtain ⟨read, tree, stop, rfl, htree, hstop⟩ := h
    refine .inr ⟨_, phrase, rfl, rfl, htree.built, ?_⟩
    -- The pair of the end has no numbers, so those of the tree are all there are.
    have hinner := htree.numbered.append hstop
    rw [List.append_nil] at hinner
    exact hinner.around (by decide) (by decide) 0 read

theorem inCharacters_malformedAt {u v : List Char} (h : text.toList = u ++ v) (message : String) :
    inCharacters text (.error (malformedAt (extent u).bytes message) : Except Error Node) =
      .error (malformed (extent u) message) := by
  simp [inCharacters, malformedAt, malformed, Error.spanned, Error.withCharPositions,
    ErrorKind.mapPositions, charOffset_eq h, Span.ofLength, Span.between]

theorem exists_place_of_index (h : recognise text.toList = .ok phrase) {index : IndexToken}
    (hindex : index ∈ phrase.indices) :
    ∃ u v, text.toList = u ++ v ∧ index.place = extent u := by
  obtain ⟨s, hs, rfl⟩ := recognise_eq_ok_iff.mp h
  obtain ⟨u, v, hsplit, hplace⟩ := Sentence.exists_place hindex
  exact ⟨u, v, hs.symm.trans hsplit, hplace⟩

/-- By its pairs a text has the tree that the recognisers find, or the same error. -/
theorem parseByPairs_eq (text : String) : parseByPairs text = some (parseNode text) := by
  rcases parsePairs_cases text.toList with ⟨furthest, hpairs, hrecognise⟩ |
    ⟨pairs, phrase, hpairs, hrecognise, hbuilt, -⟩
  · -- A refused text: both tell the same place, the pairs in bytes first.
    obtain ⟨u, v, hsplit, hplace⟩ := exists_place_of_recognise hrecognise
    rw [parseByPairs_of_refused hpairs, hplace, inCharacters_malformedAt hsplit, parseNode,
      hrecognise, ← hplace]
  · rw [parseByPairs_of_read hpairs, hbuilt, fitting, parseNode, hrecognise]
    dsimp only
    -- A text that is read: the builder fails exactly if some number is too large.
    cases hfind : phrase.indices.find? (largestIndex < ·.value) with
    | none => rfl
    | some index =>
      obtain ⟨u, v, hsplit, hplace⟩ :=
        exists_place_of_index hrecognise (List.mem_of_find?_eq_some hfind)
      dsimp only
      rw [hplace]
      exact congrArg some (inCharacters_malformedAt hsplit _)

/-- The first number that is too large is the one that the recognisers find. -/
theorem exists_find?_of_marks {before behind : List Pair} {token : Pair}
    {indices : List IndexToken}
    (hbefore : ∀ other ∈ before, digitsValue other.text ≤ largestIndex)
    (htoken : largestIndex < digitsValue token.text)
    (h : List.Forall₂ Marks (before ++ token :: behind) indices) :
    ∃ index, indices.find? (largestIndex < ·.value) = some index ∧ Marks token index := by
  -- Along the numbers in front, all of which fit.
  induction before generalizing indices with
  | nil =>
    cases h with
    | @cons _ index _ js hmarks _ =>
      refine ⟨index, List.find?_cons_of_pos ?_, hmarks⟩
      rw [← hmarks.value]
      exact decide_eq_true htoken
  | cons other before ih =>
    cases h with
    | @cons _ index _ js hmarks hothers =>
      obtain ⟨hfits, hbefore⟩ := List.forall_mem_cons.mp hbefore
      obtain ⟨found, hfind, hfound⟩ := ih hbefore hothers
      refine ⟨found, ?_, hfound⟩
      rw [List.find?_cons_of_neg, hfind]
      rw [← hmarks.value]
      simpa using hfits

/-- If all numbers fit, none is too large. -/
theorem find?_eq_none_of_marks {tokens : List Pair} {indices : List IndexToken}
    (hfit : ∀ token ∈ tokens, digitsValue token.text ≤ largestIndex)
    (h : List.Forall₂ Marks tokens indices) :
    indices.find? (largestIndex < ·.value) = none := by
  induction h with
  | nil => rfl
  | cons hmarks _ ih =>
    obtain ⟨hfits, hfit⟩ := List.forall_mem_cons.mp hfit
    rw [List.find?_cons_of_neg, ih hfit]
    rw [← hmarks.value]
    simpa using hfits

/-- The pairs of a text, and what becomes of them.  Numbers are those that index lists. -/
structure ExactlyBuilt (text : String) (pairs : List Pair) : Prop where
  /-- Each pair stands in the text, and they come in its order. -/
  stands : ∀ pair ∈ Pair.allOf pairs, pair.StandsIn text.toList
  /-- The pairs come in the order of their starts. -/
  ordered : (Pair.allOf pairs).Pairwise (·.start ≤ ·.start)
  /-- A string literal has both quotes and can be taken apart. -/
  quoted : ∀ pair ∈ Pair.allOf pairs, pair.rule = .string →
    (unquote pair.text).isSome ∧
      ∃ quote body, (quote = '\'' ∨ quote = '"') ∧ pair.text = quote :: (body ++ [quote])
  /-- A number is a run of digits. -/
  digits : ∀ token ∈ indexTokens pairs, token.text ≠ [] ∧ ∀ c ∈ token.text, c.isDigit = true
  /-- There is a tree exactly if no number is too large. -/
  succeeds_iff : (∃ node, parseByPairs text = some (.ok node)) ↔
    ∀ token ∈ indexTokens pairs, digitsValue token.text ≤ 0xFFFFFFFFFFFFFFFF
  /-- Otherwise the first one that is too large is at fault, and nothing else ever is. -/
  fails_iff : ∀ e, parseByPairs text = some (.error e) ↔
    ∃ before token behind front rest, indexTokens pairs = before ++ token :: behind ∧
      (∀ other ∈ before, digitsValue other.text ≤ 0xFFFFFFFFFFFFFFFF) ∧
      0xFFFFFFFFFFFFFFFF < digitsValue token.text ∧
      text.toList = front ++ (token.text ++ rest) ∧ token.start = (extent front).bytes ∧
      e = .spanned (.malformedExpression front.length "index out of range")
        ⟨token.start, token.start⟩

theorem Quoted.exists_quotes (q : Quoted) :
    ∃ quote body, (quote = '\'' ∨ quote = '"') ∧ q.written = quote :: (body ++ [quote]) := by
  cases q with
  | single value => exact ⟨'\'', doubled value, .inl rfl, rfl⟩
  | double value inert => exact ⟨'"', value, .inr rfl, rfl⟩

/-- The pair of a number is a run of digits. -/
theorem digits_of_marks {tokens : List Pair} {indices : List IndexToken}
    (h : List.Forall₂ Marks tokens indices) :
    ∀ token ∈ tokens, token.text ≠ [] ∧ ∀ c ∈ token.text, c.isDigit = true := by
  induction h with
  | nil => exact nofun
  | cons hmarks _ ih =>
    obtain ⟨d, hd⟩ := hmarks.digits
    refine List.forall_mem_cons.mpr ⟨?_, ih⟩
    rw [hd]
    exact ⟨d.ne_nil, d.digits⟩

theorem parseByPairs_of_fit (hpairs : parsePairs text.toList = .ok pairs)
    (hbuilt : buildTree pairs = fitting phrase.indices phrase.node)
    (hmarks : List.Forall₂ Marks (indexTokens pairs) phrase.indices)
    (hfit : ∀ token ∈ indexTokens pairs, digitsValue token.text ≤ largestIndex) :
    parseByPairs text = some (.ok phrase.node) := by
  rw [parseByPairs_of_read hpairs, hbuilt, fitting, find?_eq_none_of_marks hfit hmarks]
  rfl

/-- The first number that is too large is at fault. -/
theorem parseByPairs_of_large {before behind : List Pair} {token : Pair}
    (hpairs : parsePairs text.toList = .ok pairs)
    (hbuilt : buildTree pairs = fitting phrase.indices phrase.node)
    (hmarks : List.Forall₂ Marks (indexTokens pairs) phrase.indices)
    (hsplit : indexTokens pairs = before ++ token :: behind)
    (hbefore : ∀ other ∈ before, digitsValue other.text ≤ largestIndex)
    (htoken : largestIndex < digitsValue token.text) {front rest : List Char}
    (htext : text.toList = front ++ (token.text ++ rest))
    (hstart : token.start = (extent front).bytes) :
    parseByPairs text = some (.error (.spanned
      (.malformedExpression front.length "index out of range") ⟨token.start, token.start⟩)) := by
  rw [hsplit] at hmarks
  obtain ⟨index, hfind, hindex⟩ := exists_find?_of_marks hbefore htoken hmarks
  rw [parseByPairs_of_read hpairs, hbuilt, fitting, hfind]
  dsimp only
  rw [← hindex.start, hstart]
  have herror := inCharacters_malformedAt htext "index out of range"
  refine (congrArg some herror).trans ?_
  simp [malformed, Span.between]

/-- If not all numbers fit, there is a first one that is too large, and it stands in the text. -/
theorem fit_or_exists_first (hstands : ∀ pair ∈ Pair.allOf pairs, pair.StandsIn text.toList) :
    (∀ token ∈ indexTokens pairs, digitsValue token.text ≤ largestIndex) ∨
      ∃ before token behind, indexTokens pairs = before ++ token :: behind ∧
        (∀ other ∈ before, digitsValue other.text ≤ largestIndex) ∧
        largestIndex < digitsValue token.text ∧ token.StandsIn text.toList := by
  cases hfind : (indexTokens pairs).find? (largestIndex < digitsValue ·.text) with
  | none =>
    refine .inl fun token htoken => ?_
    simpa using List.find?_eq_none.mp hfind token htoken
  -- The first number that is too large splits the list of numbers.
  | some token =>
    have htoken := hstands token (List.mem_filter.mp (List.mem_of_find?_eq_some hfind)).1
    obtain ⟨hlarge, before, behind, hsplit, hbefore⟩ := List.find?_eq_some_iff_append.mp hfind
    refine .inr ⟨before, token, behind, hsplit, fun other hother => ?_, ?_, htoken⟩
    · simpa using hbefore other hother
    · exact of_decide_eq_true hlarge

/-- The pairs of a text are built from without fault, unless a number is too large. -/
theorem exactlyBuilt (hpairs : parsePairs text.toList = .ok pairs) : ExactlyBuilt text pairs := by
  rcases parsePairs_cases text.toList with ⟨furthest, hrefused, -⟩ |
    ⟨found, phrase, hfound, -, hbuilt, hnumbered⟩
  · rw [hpairs] at hrefused
    exact absurd hrefused nofun
  obtain rfl : pairs = found := Except.ok.inj (hpairs.symm.trans hfound)
  obtain ⟨hstands, hordered⟩ := laid_of_parsePairs hpairs
  have hfit := parseByPairs_of_fit hpairs hbuilt hnumbered.marks
  have hlarge {before token behind} (hsplit : indexTokens pairs = before ++ token :: behind) :=
    parseByPairs_of_large hpairs hbuilt hnumbered.marks hsplit
  refine ⟨hstands, hordered, fun pair hpair hstring => ?_, digits_of_marks hnumbered.marks,
    ⟨?_, fun hall => ⟨_, hfit hall⟩⟩, fun e => ⟨fun herror => ?_, ?_⟩⟩
  · -- Strings, success and failure, in the order of the fields.
    obtain ⟨q, hq⟩ := hnumbered.quoted pair hpair hstring
    rw [hq, unquote_written]
    exact ⟨rfl, q.exists_quotes⟩
  · rintro ⟨node, hnode⟩
    rcases fit_or_exists_first hstands with hall |
      ⟨before, first, behind, hsplit, hbefore, hfirst, front, rest, htext, hstart⟩
    · exact hall
    · rw [hlarge hsplit hbefore hfirst htext hstart] at hnode
      exact absurd hnode nofun
  · rcases fit_or_exists_first hstands with hall |
      ⟨before, first, behind, hsplit, hbefore, hfirst, front, rest, htext, hstart⟩
    · rw [hfit hall] at herror
      exact absurd herror nofun
    · rw [hlarge hsplit hbefore hfirst htext hstart] at herror
      refine ⟨before, first, behind, front, rest, hsplit, hbefore, hfirst, htext, hstart, ?_⟩
      exact (Except.error.inj (Option.some.inj herror)).symm
  · rintro ⟨before, token, behind, front, rest, hsplit, hbefore, htoken, htext, hstart, rfl⟩
    exact hlarge hsplit hbefore htoken htext hstart

/-- **The builder never stops and has one error only.**  It builds, from the pairs of any text, what
the recognisers find, so the texts with pairs are those that the recognisers accept.  Then every
string literal has both quotes, and there is a tree unless a number that indexes a list is above
the largest index.  The first such number in the text is at fault, at its place. -/
theorem treeBuilder_exact (text : String) :
    parseByPairs text = some (parseNode text) ∧
      ((∃ pairs, parsePairs text.toList = .ok pairs) ↔
        ∃ phrase, recognise text.toList = .ok phrase) ∧
      ∀ pairs, parsePairs text.toList = .ok pairs → ExactlyBuilt text pairs := by
  refine ⟨parseByPairs_eq text, ?_, fun _ => exactlyBuilt⟩
  rcases parsePairs_cases text.toList with ⟨furthest, hpairs, hrecognise⟩ |
    ⟨pairs, phrase, hpairs, hrecognise, -, -⟩
  · rw [hpairs, hrecognise]
    exact ⟨nofun, nofun⟩
  · rw [hpairs, hrecognise]
    exact ⟨fun _ => ⟨phrase, rfl⟩, fun _ => ⟨pairs, rfl⟩⟩

/-- Only the second of two numbers is too large, for all its leading zero, and an accent in front of
it makes its place in bytes another one than that in characters. -/
theorem treeBuilder_exact_second_number :
    ∃ pairs, parsePairs "a['é'][7][018446744073709551616]".toList = .ok pairs ∧
      ExactlyBuilt "a['é'][7][018446744073709551616]" pairs ∧
      parseByPairs "a['é'][7][018446744073709551616]" = some (.error (.spanned
        (.malformedExpression 10 "index out of range") ⟨11, 11⟩)) := by
  obtain ⟨pairs, hpairs, htokens⟩ : ∃ pairs,
      parsePairs "a['é'][7][018446744073709551616]".toList = .ok pairs ∧ indexTokens pairs =
        [⟨.integer, 8, ['7'], []⟩, ⟨.integer, 11, "018446744073709551616".toList, []⟩] :=
    ⟨[⟨.expression, 0, "a['é'][7][018446744073709551616]".toList,
      [⟨.path, 0, "a['é'][7][018446744073709551616]".toList,
        [⟨.identifier, 0, ['a'], []⟩,
          ⟨.index, 1, "['é']".toList,
            [⟨.string, 2, "'é'".toList, [⟨.singleQuoted, 2, "'é'".toList, []⟩]⟩]⟩,
          ⟨.index, 7, "[7]".toList, [⟨.integer, 8, ['7'], []⟩]⟩,
          ⟨.index, 10, "[018446744073709551616]".toList,
            [⟨.integer, 11, "018446744073709551616".toList, []⟩]⟩]⟩,
        ⟨.endOfInput, 33, [], []⟩]⟩], by cbv, by cbv⟩
  have hexact := (treeBuilder_exact "a['é'][7][018446744073709551616]").2.2 pairs hpairs
  refine ⟨pairs, hpairs, hexact, (hexact.fails_iff _).mpr ?_⟩
  refine ⟨[⟨.integer, 8, ['7'], []⟩], ⟨.integer, 11, "018446744073709551616".toList, []⟩, [],
    "a['é'][7][".toList, [']'], htokens, ?_, ?_, ?_, ?_, rfl⟩
  · decide
  · decide
  · decide
  · decide

end Texts

end Interpolation.Grammar
