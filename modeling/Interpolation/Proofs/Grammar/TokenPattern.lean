import Interpolation.Proofs.Grammar.Pairs
import Interpolation.Proofs.Grammar.Soundness

/-!
# The patterns of tokens

The pattern of an atomic rule has no rules in it.  It reads a text without looking at spaces and
leaves no pairs, so it is a lexer, and the lexers that the recognisers of expressions are made of
are just those of the patterns of the grammar.

## Main definitions

- `Pattern.lexer`: a pattern without rules, as a lexer.

## Main results

- `read_atomic`: without spaces and pairs a pattern reads what its lexer reads.
- `lexer_identifier`, `lexer_number`, `lexer_singleQuoted` and others: the lexers of the tokens.
-/

namespace Interpolation.Grammar

open Recogniser

/-! ## Layer A: patterns as lexers -/

/-- As many lexemes in a row as there are, at most `limit`. -/
def Lexer.repeated (lexer : Lexer) : Nat → List Char → List Char × List Char
  | 0, text => ([], text)
  | limit + 1, text =>
    match lexer text with
    | none => ([], text)
    | some (lexeme, rest) =>
      let others := lexer.repeated limit rest
      (lexeme ++ others.1, others.2)

namespace Pattern

/-- Whether a pattern is made of characters only, without rules and without the ends of the text. -/
def IsToken : Pattern → Bool
  | word _ | one _ => true
  | startOfText | endOfText | rule _ => false
  | seq p q | choice p q => p.IsToken && q.IsToken
  | optional p | star p | absent p => p.IsToken

/-- The lexer of a pattern in which there are no rules. -/
def lexer : Pattern → Lexer
  | word chars => exactly chars
  | one test => satisfying test
  | seq p q => fun text =>
    (p.lexer text).bind fun first =>
      (q.lexer first.2).map fun second => (first.1 ++ second.1, second.2)
  | choice p q => fun text => (p.lexer text).or (q.lexer text)
  | optional p => fun text => (p.lexer text).or (some ([], text))
  | star p => fun text =>
    match p.lexer text with
    | none => some ([], text)
    | some (lexeme, rest) =>
      let others := Lexer.repeated p.lexer (rest.length + 1) rest
      some (lexeme ++ others.1, others.2)
  | absent p => fun text => if (p.lexer text).isSome then none else some ([], text)
  | _ => fun _ => none

end Pattern

@[simp] theorem Cursor.rest_advance (cursor : Cursor) (u rest : List Char) :
    (cursor.advance u rest).rest = rest := rfl

theorem Cursor.advance_advance (cursor : Cursor) (u v rest last : List Char) :
    (cursor.advance u rest).advance v last = cursor.advance (u ++ v) last := by
  simp only [Cursor.advance, extent_append, Offset.add_assoc]

theorem lexeme_run (lexer : Lexer) (cursor : Cursor) (state : Furthest) :
    lexeme lexer cursor state =
      ((lexer cursor.rest).map fun split => (split.1, cursor.advance split.1 split.2), state) := by
  unfold lexeme
  cases lexer cursor.rest <;> rfl

theorem separator_atomic_run (cursor : Cursor) (state : Furthest) :
    separator .atomic cursor state = (some ((), cursor), state) := rfl

/-- What a lexer reads leaves no pairs. -/
def Silent (p : Recogniser (List Pair)) (lexer : Lexer) : Prop :=
  ∀ cursor state, p cursor state =
    ((lexer cursor.rest).map fun split => ([], cursor.advance split.1 split.2), state)

/-- Repeating a pattern without pairs repeats its lexer; there are as many empty lists of pairs as
there are lexemes. -/
theorem Silent.repeated {p : Recogniser (List Pair)} {lexer : Lexer} (hp : Silent p lexer)
    (limit : Nat) (cursor : Cursor) (state : Furthest) :
    ∃ all, all.flatten = [] ∧ Recogniser.repeated p limit cursor state =
      (some (all, cursor.advance (lexer.repeated limit cursor.rest).1
        (lexer.repeated limit cursor.rest).2), state) := by
  -- On the limit: the first phrase adds its empty list and its lexeme, the others come by
  -- induction.
  induction limit generalizing cursor with
  | zero => exact ⟨[], rfl, rfl⟩
  | succ limit ih =>
    rw [repeated_run, hp, Lexer.repeated]
    cases hlexer : lexer cursor.rest with
    | none => exact ⟨[], rfl, rfl⟩
    | some split =>
      obtain ⟨all, hall, hrun⟩ := ih (cursor.advance split.1 split.2)
      -- One more empty list leaves the joined list empty.
      refine ⟨[] :: all, hall, ?_⟩
      simp only [Option.map_some, bind_run, hrun, Cursor.advance_advance]
      rfl

/-- Without spaces and pairs, a pattern reads what its lexer reads. -/
theorem read_atomic (call : Mode → Rule → Recogniser (List Pair)) {pattern : Pattern}
    (h : pattern.IsToken = true) : Silent (pattern.read call .atomic) pattern.lexer := by
  induction pattern with
  -- The ends of the text and rules are no tokens.
  | startOfText => cases h
  | endOfText => cases h
  | rule r => cases h
  | word chars =>
    intro cursor state
    simp only [Pattern.read, Pattern.lexer, bind_run, lexeme_run]
    cases exactly chars cursor.rest <;> rfl
  | one test =>
    intro cursor state
    simp only [Pattern.read, Pattern.lexer, bind_run, lexeme_run]
    cases satisfying test cursor.rest <;> rfl
  -- The second part is read behind what the first one has read.
  | seq p q hp hq =>
    intro cursor state
    rw [Pattern.IsToken, Bool.and_eq_true] at h
    simp only [Pattern.read, Pattern.lexer, bind_run, hp h.1 cursor state, separator_atomic_run]
    cases p.lexer cursor.rest with
    | none => rfl
    | some first =>
      simp only [Option.map_some, Option.bind_some, hq h.2 (cursor.advance first.1 first.2) state]
      cases hq : q.lexer first.2 with
      | none => simp only [Cursor.rest_advance, hq, Option.map_none]
      | some second =>
        simp only [Cursor.rest_advance, hq, Option.map_some, Cursor.advance_advance]
        rfl
  | choice p q hp hq =>
    intro cursor state
    rw [Pattern.IsToken, Bool.and_eq_true] at h
    simp only [Pattern.read, Pattern.lexer, Recogniser.orElse, hp h.1 cursor state]
    cases p.lexer cursor.rest with
    | none => exact hq h.2 cursor state
    | some first => rfl
  | optional p hp =>
    intro cursor state
    simp only [Pattern.read, Pattern.lexer, Recogniser.orElse, hp h cursor state]
    cases p.lexer cursor.rest <;> rfl
  -- The first phrase is read by itself; the others come with a separator, which is nothing here.
  | star p hp =>
    intro cursor state
    simp only [Pattern.read, Pattern.lexer, Recogniser.orElse, bind_run, hp h cursor state]
    cases p.lexer cursor.rest with
    | none => rfl
    | some first =>
      have hothers : Silent (do separator .atomic; p.read call .atomic) p.lexer := hp h
      obtain ⟨all, hall, hrun⟩ :=
        hothers.repeated (first.2.length + 1) (cursor.advance first.1 first.2) state
      simp only [Option.map_some, many_run, Cursor.rest_advance, Cursor.advance_advance] at hrun ⊢
      simp only [hrun]
      simp only [hall]
      rfl
  | absent p hp =>
    intro cursor state
    simp only [Pattern.read, Pattern.lexer, Recogniser.absent, bind_run, hp h cursor state]
    cases p.lexer cursor.rest <;> rfl

/-! ## Layer B: lexers of patterns -/

namespace Pattern

variable {p : Pattern} {test : Char → Bool}

@[simp] theorem lexer_andThen (p q : Pattern) (text : List Char) :
    (p >> q).lexer text =
      (p.lexer text).bind fun first =>
        (q.lexer first.2).map fun second => (first.1 ++ second.1, second.2) := rfl

@[simp] theorem lexer_orElse (p q : Pattern) (text : List Char) :
    (p <|> q).lexer text = (p.lexer text).or (q.lexer text) := rfl

@[simp] theorem lexer_optional (p : Pattern) (text : List Char) :
    p.optional.lexer text = (p.lexer text).or (some ([], text)) := rfl

@[simp] theorem lexer_absent (p : Pattern) (text : List Char) :
    p.absent.lexer text = if (p.lexer text).isSome then none else some ([], text) := rfl

@[simp] theorem lexer_one (test : Char → Bool) : (one test).lexer = satisfying test := rfl

@[simp] theorem lexer_word (chars : List Char) : (word chars).lexer = exactly chars := rfl

end Pattern

@[simp] theorem satisfying_nil (test : Char → Bool) : satisfying test [] = none := rfl

@[simp] theorem satisfying_cons (test : Char → Bool) (c : Char) (cs : List Char) :
    satisfying test (c :: cs) = if test c then some ([c], cs) else none := rfl

/-- A word of one character is one character of a kind. -/
@[simp] theorem exactly_singleton (d : Char) : exactly [d] = satisfying (· = d) := by
  funext text
  cases text with
  | nil => rfl
  | cons c cs =>
    by_cases hc : c = d
    · simp [exactly, hc]
    · simp [exactly, hc, Ne.symm hc]

theorem exactly_eq_some {chars text lexeme rest : List Char}
    (h : exactly chars text = some (lexeme, rest)) :
    lexeme = chars ∧ rest = text.drop chars.length := by
  rw [exactly, Option.ite_none_right_eq_some, Option.some.injEq, Prod.mk.injEq] at h
  exact ⟨h.2.1.symm, h.2.2.symm⟩

/-- Characters of a kind in a row are the longest run of them. -/
theorem repeated_satisfying (test : Char → Bool) {limit : Nat} {text : List Char}
    (h : text.length < limit) :
    Lexer.repeated (satisfying test) limit text = (text.takeWhile test, text.dropWhile test) := by
  induction limit generalizing text with
  | zero => exact absurd h (Nat.not_lt_zero _)
  | succ limit ih =>
    cases text with
    | nil => rfl
    | cons c cs =>
      -- A character of another kind ends the run.
      by_cases hc : test c = true
      · have hshorter : cs.length < limit := Nat.lt_of_succ_lt_succ h
        simp [Lexer.repeated, hc, ih hshorter]
      · simp [Lexer.repeated, hc]

/-- A limit that allows for the text does not decide. -/
theorem repeated_eq_repeated {lexer : Lexer}
    (hshorter : ∀ {text u rest}, lexer text = some (u, rest) → rest.length < text.length)
    {limit limit' : Nat} {text : List Char} (h : text.length < limit) (h' : text.length < limit') :
    lexer.repeated limit text = lexer.repeated limit' text := by
  -- Both limits count down together, and each lexeme makes the text shorter.
  induction limit generalizing limit' text with
  | zero => exact absurd h (Nat.not_lt_zero _)
  | succ limit ih =>
    obtain ⟨limit', rfl⟩ := Nat.exists_eq_succ_of_ne_zero (Nat.ne_zero_of_lt h')
    rw [Lexer.repeated, Lexer.repeated]
    cases hfirst : lexer text with
    | none => rfl
    | some split =>
      have hlt := hshorter hfirst
      dsimp only
      rw [ih (Nat.lt_of_lt_of_le hlt (Nat.le_of_lt_succ h))
        (Nat.lt_of_lt_of_le hlt (Nat.le_of_lt_succ h'))]

/-- A repetition is the repetition with a limit, counted from its first lexeme. -/
theorem lexer_star_eq {p : Pattern}
    (hshorter : ∀ {text u rest}, p.lexer text = some (u, rest) → rest.length < text.length)
    (text : List Char) :
    p.star.lexer text = some (Lexer.repeated p.lexer (text.length + 1) text) := by
  rw [Pattern.lexer, Lexer.repeated]
  cases hfirst : p.lexer text with
  | none => simp [hfirst]
  -- Behind the first lexeme the two sides count with different limits; neither decides.
  | some split =>
    have hlt := hshorter hfirst
    have hothers := repeated_eq_repeated hshorter (Nat.lt_succ_self split.2.length) hlt
    simp [hfirst, hothers]

/-- A repetition of single characters reads all of them. -/
theorem lexer_star {p : Pattern} {test : Char → Bool} (h : p.lexer = satisfying test)
    (text : List Char) :
    p.star.lexer text = some (text.takeWhile test, text.dropWhile test) := by
  have hshorter {text u rest : List Char} (hfirst : p.lexer text = some (u, rest)) :
      rest.length < text.length := by
    rw [h] at hfirst
    cases text with
    | nil => cases hfirst
    | cons c cs =>
      simp only [satisfying_cons, Option.ite_none_right_eq_some, Option.some.injEq,
        Prod.mk.injEq] at hfirst
      rw [← hfirst.2.2]
      exact Nat.lt_succ_self _
  rw [lexer_star_eq hshorter, h, repeated_satisfying test (Nat.lt_succ_self _)]

/-- A character of a name is a letter, a digit or an underscore. -/
theorem lexer_nameChar : Pattern.nameChar.lexer = satisfying isNameChar := by
  funext text
  cases text with
  | nil => rfl
  | cons c cs =>
    by_cases hc : c.isAlphanum = true
    · simp [Pattern.nameChar, isNameChar, hc]
    · simp [Pattern.nameChar, isNameChar, hc]

/-- Any character but one. -/
theorem lexer_anything_but (d : Char) :
    (Pattern.absent (.word [d]) >> Pattern.anything).lexer = satisfying (· ≠ d) := by
  funext text
  cases text with
  | nil => rfl
  | cons c cs =>
    by_cases hc : c = d
    · simp [hc]
    · simp [Pattern.anything, hc]

/-! ## Layer C: the tokens of the grammar -/

/-- The rule of names reads what the name lexer reads. -/
theorem lexer_identifier : (production .identifier).pattern.lexer = identifier := by
  funext text
  cases text with
  | nil => rfl
  | cons c cs =>
    simp only [production, Pattern.lexer_andThen, lexer_star lexer_nameChar, identifier]
    -- A name starts with a letter or with an underscore.
    by_cases hc : c.isAlpha = true
    · simp [isNameStart, hc]
    · by_cases hline : c = '_'
      · simp [isNameStart, hline]
      · simp [isNameStart, hc, hline]

/-- Digits in a row, at least one, are what the digit lexer reads. -/
theorem lexer_plus_digit : (Pattern.plus .digit).lexer = digits := by
  funext text
  have hdigit : Pattern.digit.lexer = satisfying Char.isDigit := rfl
  simp only [Pattern.plus, Pattern.lexer_andThen, lexer_star hdigit, hdigit]
  cases text with
  | nil => rfl
  | cons c cs =>
    by_cases hc : c.isDigit = true
    · simp [digits, hc]
    · simp [digits, hc]

theorem lexer_integer : (production .integer).pattern.lexer = digits := lexer_plus_digit

/-- Digits with an optional fraction are what the lexer of unsigned numerals reads. -/
theorem lexer_unsigned :
    (Pattern.plus .digit >> Pattern.optional (.word ['.'] >> .plus .digit)).lexer = unsigned := by
  funext text
  simp only [Pattern.lexer_andThen, lexer_plus_digit, Pattern.lexer_optional, Pattern.lexer_word,
    exactly_singleton, unsigned]
  cases hwhole : digits text with
  | none => rfl
  -- A point that has no digits behind it is left to the text in both readings.
  | some split =>
    obtain ⟨whole, rest⟩ := split
    simp only [Option.bind_some]
    split
    · next cs =>
      cases hfraction : digits cs with
      | none => simp [hfraction]
      | some split => simp [hfraction]
    · next hpoint =>
      cases rest with
      | nil => simp
      | cons c cs =>
        have hc : c ≠ '.' := fun h => hpoint cs (by rw [h])
        simp [hc]

/-- The rule of numbers reads what the number lexer reads. -/
theorem lexer_number : (production .number).pattern.lexer = number := by
  funext text
  rw [production, Pattern.lexer_andThen, lexer_unsigned, Pattern.lexer_optional,
    Pattern.lexer_word, exactly_singleton, number.eq_def]
  split
  · simp
  · next hsign =>
    cases text with
    | nil => rfl
    | cons c cs =>
      have hc : c ≠ '-' := fun h => hsign cs (by rw [h])
      simp [hc]

/-- A word that does not go on. -/
theorem lexer_keyword (w : List Char) :
    (Pattern.word w >> Pattern.absent .nameChar).lexer = keyword w := by
  funext text
  simp only [Pattern.lexer_andThen, Pattern.lexer_absent, lexer_nameChar, Pattern.lexer_word,
    keyword, exactly]
  by_cases hw : w.isPrefixOf text = true
  · cases text.drop w.length with
    | nil => simp [hw]
    | cons c cs => by_cases hc : isNameChar c = true <;> simp [hw, hc]
  · simp [hw]

theorem lexer_null : (production .null).pattern.lexer = null := lexer_keyword _

/-- The rule of truth values reads one of the two keywords. -/
theorem lexer_boolean : (production .boolean).pattern.lexer = boolean := by
  funext text
  have htrue := congrFun (lexer_keyword "true".toList) text
  have hfalse := congrFun (lexer_keyword "false".toList) text
  simp only [Pattern.lexer_andThen, Pattern.lexer_word] at htrue hfalse
  rw [production, Pattern.lexer_andThen, Pattern.lexer_orElse, Pattern.lexer_word,
    Pattern.lexer_word, boolean, ← htrue, ← hfalse]
  cases hword : exactly "true".toList text with
  | none => rfl
  | some split =>
    -- A text that starts with one of the two words does not start with the other.
    have hother : exactly "false".toList text = none := by
      rw [LawfulLexer.split hword, (exactly_eq_some hword).1]
      rfl
    simp only [hother, Option.bind_none]
    simp

/-- A character of a text in single quotes, where two quotes count as one. -/
def quotedChar : Pattern :=
  .word ['\'', '\''] <|> (.absent (.word ['\'']) >> .anything)

theorem lexer_quotedChar_of_ne {c : Char} (hc : c ≠ '\'') (cs : List Char) :
    quotedChar.lexer (c :: cs) = some ([c], cs) := by
  have hpair : exactly ['\'', '\''] (c :: cs) = none := by simp [exactly, Ne.symm hc]
  rw [quotedChar, Pattern.lexer_orElse, lexer_anything_but, Pattern.lexer_word, hpair]
  simp [hc]

theorem lexer_quotedChar_pair (cs : List Char) :
    quotedChar.lexer ('\'' :: '\'' :: cs) = some (['\'', '\''], cs) := rfl

/-- A quote that stands alone is no character of the text. -/
theorem lexer_quotedChar_quote {cs : List Char} (hcs : ∀ ds, cs ≠ '\'' :: ds) :
    quotedChar.lexer ('\'' :: cs) = none := by
  have hpair : exactly ['\'', '\''] ('\'' :: cs) = none := by
    cases cs with
    | nil => rfl
    | cons d ds =>
      have hd : d ≠ '\'' := fun h => hcs ds (by rw [h])
      simp [exactly, Ne.symm hd]
  rw [quotedChar, Pattern.lexer_orElse, lexer_anything_but, Pattern.lexer_word, hpair]
  simp

/-- The text up to the closing quote, and the quote. -/
theorem repeated_quotedChar {limit : Nat} {text : List Char} (h : text.length ≤ limit) :
    (satisfying (· = '\'') (Lexer.repeated quotedChar.lexer (limit + 1) text).2).map (fun last =>
      ((Lexer.repeated quotedChar.lexer (limit + 1) text).1 ++ last.1, last.2)) =
      untilSingleQuote text := by
  fun_induction untilSingleQuote text generalizing limit with
  | case1 => rfl
  -- Two quotes in a row take up two characters and one round of the repetition.
  | case2 cs ih =>
    obtain ⟨limit, rfl⟩ := Nat.exists_eq_succ_of_ne_zero (Nat.ne_zero_of_lt h)
    have hle : cs.length ≤ limit := by
      simp only [List.length_cons] at h
      omega
    rw [← ih hle, Lexer.repeated, lexer_quotedChar_pair]
    simp [Function.comp_def]
  -- The closing quote ends the repetition.
  | case3 cs hcs =>
    rw [Lexer.repeated, lexer_quotedChar_quote hcs]
    simp
  | case4 c cs _ hc ih =>
    obtain ⟨limit, rfl⟩ := Nat.exists_eq_succ_of_ne_zero (Nat.ne_zero_of_lt h)
    have hle : cs.length ≤ limit := by
      simp only [List.length_cons] at h
      omega
    have hone : quotedChar.lexer (c :: cs) = some ([c], cs) := lexer_quotedChar_of_ne hc cs
    rw [← ih hle, Lexer.repeated, hone]
    simp [Function.comp_def]

/-- Each character of the text takes up one or two characters. -/
theorem quotedChar_shortens {text u rest : List Char}
    (h : quotedChar.lexer text = some (u, rest)) : rest.length < text.length := by
  cases text with
  | nil => cases h
  | cons c cs =>
    by_cases hc : c = '\''
    · subst hc
      cases cs with
      | nil => cases h
      | cons d ds =>
        -- Only a doubled quote is read at a quote.
        by_cases hd : d = '\''
        · rw [hd, lexer_quotedChar_pair] at h
          cases h
          simp only [List.length_cons]
          omega
        · have hnone : quotedChar.lexer ('\'' :: d :: ds) = none :=
            lexer_quotedChar_quote fun _ heq => hd (List.cons.inj heq).1
          rw [hnone] at h
          cases h
    · rw [lexer_quotedChar_of_ne hc] at h
      cases h
      exact Nat.lt_succ_self _

/-- The rule of single-quoted strings reads what their lexer reads. -/
theorem lexer_singleQuoted : (production .singleQuoted).pattern.lexer = singleQuoted := by
  funext text
  rw [production, Pattern.lexer_andThen, Pattern.lexer_word, exactly_singleton]
  cases text with
  | nil => rfl
  | cons c cs =>
    by_cases hc : c = '\''
    · -- Behind the opening quote the repetition runs up to the closing one.
      have hbody := lexer_star_eq quotedChar_shortens cs
      rw [quotedChar] at hbody
      simp only [hc, satisfying_cons, decide_true, if_true, Option.bind_some, singleQuoted,
        Pattern.lexer_andThen, Pattern.lexer_word, exactly_singleton, hbody,
        ← repeated_quotedChar (Nat.le_refl cs.length)]
      simp [quotedChar]
    · have hnone : singleQuoted (c :: cs) = none := singleQuoted_eq_none (by simp [Stops, hc])
      rw [hnone]
      simp [hc]

/-- The text up to the closing quote, and the quote. -/
theorem takeWhile_ne_quote (text : List Char) :
    (satisfying (· = '"') (text.dropWhile (· ≠ '"'))).map (fun last =>
      (text.takeWhile (· ≠ '"') ++ last.1, last.2)) = untilDoubleQuote text := by
  fun_induction untilDoubleQuote text with
  | case1 => rfl
  | case2 cs => simp
  | case3 c cs hc ih =>
    have hne : c ≠ '"' := fun h => hc h
    rw [← ih]
    simp [hne, Function.comp_def]

/-- The rule of double-quoted strings reads what their lexer reads. -/
theorem lexer_doubleQuoted : (production .doubleQuoted).pattern.lexer = doubleQuoted := by
  funext text
  rw [production, Pattern.lexer_andThen, Pattern.lexer_word, exactly_singleton]
  cases text with
  | nil => rfl
  | cons c cs =>
    by_cases hc : c = '"'
    · simp only [hc, satisfying_cons, decide_true, if_true, Option.bind_some, doubleQuoted,
        Pattern.lexer_andThen, lexer_star (lexer_anything_but '"'), Pattern.lexer_word,
        exactly_singleton, ← takeWhile_ne_quote cs]
      simp
    · have hnone : doubleQuoted (c :: cs) = none := doubleQuoted_eq_none (by simp [Stops, hc])
      rw [hnone]
      simp [hc]

end Interpolation.Grammar
