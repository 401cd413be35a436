import Interpolation.Proofs.Grammar.Recogniser
import Interpolation.Proofs.Grammar.SyntaxTree

/-!
# Lexers against tokens

A lexer reads the longest lexeme there is.  What it reads is the text of a token, and it reads the
text of a token back where the text behind cannot go on with the token.

## Main definitions

- `Excludes`: a list of characters without any of a kind.
- `Stops`: a text that does not go on with characters of a kind.

## Main results

- `exists_name`, `exists_digits`, `exists_numeral`, `exists_single`, `exists_double`: what a lexer
  reads is the text of a token.
- `identifier_written`, `digits_chars`, `number_written`, `singleQuoted_written`,
  `doubleQuoted_written`: the text of a token is read back.
- `keyword_written_eq_none`: a name is no keyword, unless it is that word.
-/

namespace Interpolation.Grammar

open Recogniser

variable {text lexeme rest u : List Char} {test : Char → Bool} {c : Char}

/-! ## Layer A: runs of characters -/

/-- No character of the list is of the kind. -/
def Excludes (cs : List Char) (test : Char → Bool) : Prop := ∀ c ∈ cs, test c = false

instance (cs : List Char) (test : Char → Bool) : Decidable (Excludes cs test) :=
  List.decidableBAll (test · = false) cs

/-- The text does not go on with a character of the given kind. -/
def Stops (test : Char → Bool) (rest : List Char) : Prop := ∀ c ∈ rest.head?, test c = false

theorem stops_nil (test : Char → Bool) : Stops test [] := nofun

theorem stops_cons_iff : Stops test (c :: rest) ↔ test c = false := by
  simp [Stops]

/-- What is read starts with its first character. -/
theorem Cursor.Reads.stops {cursor behind : Cursor} (h : cursor.Reads (c :: u) behind)
    (hc : test c = false) : Stops test cursor.rest := by
  rw [h.rest]
  exact stops_cons_iff.mpr hc

/-- What a longest run leaves behind stops that run. -/
theorem stops_dropWhile (test : Char → Bool) (text : List Char) :
    Stops test (text.dropWhile test) := by
  intro c hc
  have hhead := List.head?_dropWhile_not test text
  rw [Option.mem_def.mp hc] at hhead
  exact hhead

/-- A run that cannot go on is taken whole. -/
theorem takeWhile_run (hu : ∀ c ∈ u, test c = true) (hrest : Stops test rest) :
    (u ++ rest).takeWhile test = u := by
  rw [List.takeWhile_append_of_pos hu]
  cases rest with
  | nil => simp
  | cons c cs => simp [stops_cons_iff.mp hrest]

/-- A run that cannot go on is dropped whole. -/
theorem dropWhile_run (hu : ∀ c ∈ u, test c = true) (hrest : Stops test rest) :
    (u ++ rest).dropWhile test = rest := by
  rw [List.dropWhile_append_of_pos hu]
  cases rest with
  | nil => rfl
  | cons c cs => simp [stops_cons_iff.mp hrest]

theorem ne_of_test {d : Char} (hc : test c = true) (hd : test d = false) : c ≠ d := by
  rintro rfl
  rw [hc] at hd
  cases hd

theorem forall_mem_takeWhile (test : Char → Bool) (text : List Char) :
    ∀ c ∈ text.takeWhile test, test c = true :=
  fun c hc => List.all_eq_true.mp List.all_takeWhile c hc

/-- The characters that the grammar skips between tokens. -/
def spaces : List Char := [' ', '\t', '\r', '\n']

theorem isSpace_iff : isSpace c = true ↔ c ∈ spaces := by
  simp [isSpace, spaces, or_assoc]

/-- A character of a kind that no space has is no space. -/
theorem isSpace_eq_false (hspaces : Excludes spaces test) (hc : test c = true) :
    isSpace c = false := by
  rw [← Bool.not_eq_true, isSpace_iff]
  intro hmem
  rw [hspaces c hmem] at hc
  cases hc

/-! ## Layer B: names and keywords -/

/-- What the name lexer reads is a name, taken as long as there are name characters. -/
theorem exists_name (h : identifier text = some (lexeme, rest)) :
    ∃ name : Name, lexeme = name.written ∧ text = name.written ++ rest ∧
      Stops isNameChar rest := by
  cases text with
  | nil => cases h
  | cons c cs =>
    simp only [identifier, Option.ite_none_right_eq_some, Option.some.injEq, Prod.mk.injEq] at h
    obtain ⟨hc, rfl, rfl⟩ := h
    refine ⟨⟨c, cs.takeWhile isNameChar, hc, forall_mem_takeWhile isNameChar cs⟩, rfl, ?_,
      stops_dropWhile isNameChar cs⟩
    simp [Name.written]

theorem identifier_written (name : Name) (hrest : Stops isNameChar rest) :
    identifier (name.written ++ rest) = some (name.written, rest) := by
  simp only [Name.written, List.cons_append, identifier, name.starts, if_true,
    takeWhile_run name.goesOn hrest, dropWhile_run name.goesOn hrest]

theorem isNameChar_of_isNameStart (h : isNameStart c = true) : isNameChar c = true := by
  simp only [isNameStart, isNameChar, Char.isAlphanum, Bool.or_eq_true] at h ⊢
  rcases h with h | h
  · exact .inl (.inl h)
  · exact .inr h

theorem Name.isNameChar (name : Name) : ∀ c ∈ name.written, isNameChar c = true := by
  intro c hc
  rcases List.mem_cons.mp hc with rfl | hc
  · exact isNameChar_of_isNameStart name.starts
  · exact name.goesOn c hc

/-- A keyword is read exactly where its word stands and no name character goes on with it. -/
theorem keyword_eq_some_iff {word : List Char} :
    keyword word text = some (lexeme, rest) ↔
      lexeme = word ∧ text = word ++ rest ∧ Stops isNameChar rest := by
  simp only [keyword, Option.ite_none_right_eq_some, Bool.and_eq_true, Option.some.injEq,
    Prod.mk.injEq, List.isPrefixOf_iff_prefix]
  constructor
  · rintro ⟨⟨⟨behind, rfl⟩, hstops⟩, rfl, rfl⟩
    rw [List.drop_left] at hstops ⊢
    refine ⟨rfl, rfl, fun c hc => ?_⟩
    simpa [Option.mem_def.mp hc] using hstops
  · rintro ⟨rfl, rfl, hstops⟩
    rw [List.drop_left]
    refine ⟨⟨List.prefix_append _ _, ?_⟩, rfl, rfl⟩
    cases rest with
    | nil => rfl
    | cons c cs => simpa using stops_cons_iff.mp hstops

/-- A name is no keyword, unless it is that word. -/
theorem keyword_written_eq_none (name : Name) {word : List Char} (hne : name.written ≠ word)
    (hword : word.all isNameChar = true) (hrest : Stops isNameChar rest) :
    keyword word (name.written ++ rest) = none := by
  rw [Option.eq_none_iff_forall_ne_some]
  rintro ⟨lexeme, behind⟩ h
  obtain ⟨-, hsplit, hstops⟩ := keyword_eq_some_iff.mp h
  -- One of the two would go on where the other one stops.
  rcases List.append_eq_append_iff.mp hsplit with ⟨more, rfl, rfl⟩ | ⟨more, hmore, rfl⟩
  · cases more with
    | nil => exact hne (List.append_nil _).symm
    | cons c cs =>
      have hc : isNameChar c = true := List.all_eq_true.mp hword c (by simp)
      rw [stops_cons_iff.mp hrest] at hc
      cases hc
  · cases more with
    | nil => exact hne (by rw [hmore, List.append_nil])
    | cons c cs =>
      have hc : isNameChar c = true := name.isNameChar c (by simp [hmore])
      rw [stops_cons_iff.mp hstops] at hc
      cases hc

theorem keyword_cons_eq_none {word : List Char} (h : word.head? ≠ some c) (hne : word ≠ []) :
    keyword word (c :: rest) = none := by
  obtain ⟨d, ds, rfl⟩ := List.exists_cons_of_ne_nil hne
  have hd : d ≠ c := fun heq => h (congrArg some heq)
  simp [keyword, List.isPrefixOf, hd]

/-- What the lexer of truth values reads is one of the two words. -/
theorem exists_boolean (h : boolean text = some (lexeme, rest)) :
    ∃ b : Bool, lexeme = (Tree.boolean b).written ∧ text = (Tree.boolean b).written ++ rest := by
  rw [boolean] at h
  cases htrue : keyword "true".toList text with
  | some split =>
    rw [htrue] at h
    cases h
    obtain ⟨rfl, rfl, -⟩ := keyword_eq_some_iff.mp htrue
    exact ⟨true, rfl, rfl⟩
  | none =>
    rw [htrue] at h
    obtain ⟨rfl, rfl, -⟩ := keyword_eq_some_iff.mp h
    exact ⟨false, rfl, rfl⟩

/-- A truth value is read back where no name character stands behind it. -/
theorem boolean_written (b : Bool) (hrest : Stops isNameChar rest) :
    boolean ((Tree.boolean b).written ++ rest) = some ((Tree.boolean b).written, rest) := by
  rw [boolean]
  cases b with
  | true =>
    -- `true` is tried first and found.
    have htrue : keyword "true".toList ((Tree.boolean true).written ++ rest) = some (_, rest) :=
      keyword_eq_some_iff.mpr ⟨rfl, rfl, hrest⟩
    rw [htrue]
    rfl
  | false =>
    -- `true` is tried first and fails on its first letter.
    have htrue : keyword "true".toList ((Tree.boolean false).written ++ rest) = none :=
      keyword_cons_eq_none (by decide) (by decide)
    rw [htrue]
    exact keyword_eq_some_iff.mpr ⟨rfl, rfl, hrest⟩

/-! ## Layer C: numbers -/

/-- What the digit lexer reads is a non-empty run of digits, taken as long as there are digits. -/
theorem exists_digits (h : digits text = some (lexeme, rest)) :
    ∃ d : Digits, lexeme = d.chars ∧ text = d.chars ++ rest ∧ Stops Char.isDigit rest := by
  simp only [digits, Option.ite_none_left_eq_some, Option.some.injEq, Prod.mk.injEq] at h
  obtain ⟨hne, rfl, rfl⟩ := h
  refine ⟨⟨text.takeWhile Char.isDigit, hne, forall_mem_takeWhile _ text⟩, rfl, ?_,
    stops_dropWhile _ text⟩
  exact List.takeWhile_append_dropWhile.symm

theorem digits_chars (d : Digits) (hrest : Stops Char.isDigit rest) :
    digits (d.chars ++ rest) = some (d.chars, rest) := by
  simp only [digits, takeWhile_run d.digits hrest, dropWhile_run d.digits hrest, d.ne_nil, if_false]

/-- No digit in front, no run of digits. -/
theorem digits_eq_none (h : Stops Char.isDigit text) : digits text = none := by
  have hnone : text.takeWhile Char.isDigit = [] := by
    cases text with
    | nil => rfl
    | cons c cs => simp [stops_cons_iff.mp h]
  simp [digits, hnone]

theorem Digits.exists_cons (d : Digits) : ∃ c cs, d.chars = c :: cs ∧ c.isDigit = true := by
  obtain ⟨c, cs, hcons⟩ := List.exists_cons_of_ne_nil d.ne_nil
  exact ⟨c, cs, hcons, d.digits c (by simp [hcons])⟩

/-- What the lexer of unsigned numerals reads is a whole part, with a fraction where there is one.
-/
theorem exists_unsigned (h : unsigned text = some (lexeme, rest)) :
    ∃ whole fraction,
      lexeme = Numeral.unsigned ⟨false, whole, fraction⟩ ∧ text = lexeme ++ rest := by
  rw [unsigned] at h
  cases hwhole : digits text with
  | none => simp [hwhole] at h
  | some split =>
    obtain ⟨whole, behind⟩ := split
    obtain ⟨whole, rfl, rfl, hstops⟩ := exists_digits hwhole
    rw [hwhole] at h
    dsimp only at h
    split at h
    · -- A point stands behind the whole part; it belongs to the numeral only with digits behind it.
      next cs =>
      cases hfraction : digits cs with
      | none =>
        rw [hfraction] at h
        cases h
        exact ⟨whole, none, rfl, rfl⟩
      | some split =>
        obtain ⟨fraction, last⟩ := split
        obtain ⟨fraction, rfl, rfl, -⟩ := exists_digits hfraction
        rw [hfraction] at h
        cases h
        exact ⟨whole, some fraction, rfl, by simp⟩
    · cases h
      exact ⟨whole, none, rfl, rfl⟩

/-- An unsigned numeral is read back where neither a digit nor a point stands behind it. -/
theorem unsigned_written (n : Numeral) (hdigit : Stops Char.isDigit rest)
    (hpoint : Stops (· = '.') rest) : unsigned (n.unsigned ++ rest) = some (n.unsigned, rest) := by
  obtain ⟨negative, whole, fraction⟩ := n
  rw [Grammar.unsigned]
  cases fraction with
  | none =>
    simp only [Numeral.unsigned, digits_chars whole hdigit]
    -- No fraction: a point behind would be looked at, so `hpoint` is needed here.
    split
    · simp [stops_cons_iff] at hpoint
    · rfl
  | some fraction =>
    -- The whole part ends at its own point, so nothing is asked of what stands behind there.
    have hwhole : Stops Char.isDigit ('.' :: (fraction.chars ++ rest)) :=
      stops_cons_iff.mpr (by decide)
    simp only [Numeral.unsigned, List.append_assoc, List.cons_append, digits_chars whole hwhole,
      digits_chars fraction hdigit]

/-- What the number lexer reads is a numeral, with its sign where it has one. -/
theorem exists_numeral (h : number text = some (lexeme, rest)) :
    ∃ n : Numeral, lexeme = n.written ∧ text = n.written ++ rest := by
  unfold number at h
  split at h
  · -- The sign has been read.
    next cs =>
    obtain ⟨⟨lexeme, rest⟩, hunsigned, heq⟩ := Option.map_eq_some_iff.mp h
    cases heq
    obtain ⟨whole, fraction, rfl, rfl⟩ := exists_unsigned hunsigned
    exact ⟨⟨true, whole, fraction⟩, rfl, rfl⟩
  · obtain ⟨whole, fraction, rfl, rfl⟩ := exists_unsigned h
    exact ⟨⟨false, whole, fraction⟩, rfl, rfl⟩

/-- An unsigned numeral starts with a digit. -/
theorem Numeral.exists_cons_unsigned (n : Numeral) :
    ∃ c cs, n.unsigned = c :: cs ∧ c.isDigit = true := by
  obtain ⟨c, cs, hcons, hc⟩ := n.whole.exists_cons
  cases hfraction : n.fraction with
  | none => exact ⟨c, cs, by rw [Numeral.unsigned, hfraction, hcons], hc⟩
  | some fraction =>
    exact ⟨c, cs ++ '.' :: fraction.chars, by rw [Numeral.unsigned, hfraction, hcons]; rfl, hc⟩

/-- A numeral is read back where neither a digit nor a point stands behind it. -/
theorem number_written (n : Numeral) (hdigit : Stops Char.isDigit rest)
    (hpoint : Stops (· = '.') rest) : number (n.written ++ rest) = some (n.written, rest) := by
  obtain ⟨c, cs, hcons, hc⟩ := n.exists_cons_unsigned
  have hread := unsigned_written n hdigit hpoint
  rw [Numeral.written, Numeral.sign]
  split
  · simp [number, hread]
  · rw [List.nil_append]
    unfold number
    split
    · -- Without a sign the lexer must not see a minus: the first character is a digit.
      next heq =>
      rw [hcons, List.cons_append, List.cons.injEq] at heq
      rw [heq.1] at hc
      exact absurd hc (by decide)
    · exact hread

/-- The characters that a numeral may start with. -/
def startsNumber (c : Char) : Bool := c = '-' || c.isDigit

/-- A numeral starts with a digit or with the minus sign. -/
theorem Numeral.exists_cons (n : Numeral) :
    ∃ c cs, n.written = c :: cs ∧ startsNumber c = true := by
  obtain ⟨c, cs, hcons, hc⟩ := n.exists_cons_unsigned
  rw [Numeral.written, Numeral.sign]
  split
  · exact ⟨'-', n.unsigned, rfl, by decide⟩
  · exact ⟨c, cs, hcons, by simp [startsNumber, hc]⟩

/-- A text that starts otherwise starts no numeral. -/
theorem number_eq_none (h : Stops startsNumber text) : number text = none := by
  have hdigit : Stops Char.isDigit text := fun c hc => (Bool.or_eq_false_iff.mp (h c hc)).2
  unfold number
  split
  · exact absurd (stops_cons_iff.mp h) (by decide)
  · rw [unsigned, digits_eq_none hdigit]

/-! ## Layer D: string literals -/

/-- The two characters that delimit a string literal. -/
def isQuote (c : Char) : Bool := c = '\'' || c = '"'

theorem isQuote_eq_false (hc : test c = true) (hsingle : test '\'' = false)
    (hdouble : test '"' = false) : isQuote c = false := by
  simp [isQuote, ne_of_test hc hsingle, ne_of_test hc hdouble]

/-- What is read up to the closing single quote is some value with its quotes doubled. -/
theorem exists_doubled (h : untilSingleQuote text = some (lexeme, rest)) :
    ∃ value, lexeme = doubled value ++ ['\''] ∧ text = lexeme ++ rest := by
  fun_induction untilSingleQuote text generalizing lexeme with
  | case1 => cases h
  -- Two quotes in a row stand for one quote of the value.
  | case2 cs ih =>
    obtain ⟨⟨l, r⟩, hinner, heq⟩ := Option.map_eq_some_iff.mp h
    cases heq
    obtain ⟨value, rfl, rfl⟩ := ih hinner
    exact ⟨'\'' :: value, by simp [doubled], rfl⟩
  -- A single quote closes the literal.
  | case3 cs _ =>
    cases h
    exact ⟨[], rfl, rfl⟩
  | case4 c cs _ hc ih =>
    obtain ⟨⟨l, r⟩, hinner, heq⟩ := Option.map_eq_some_iff.mp h
    cases heq
    obtain ⟨value, rfl, rfl⟩ := ih hinner
    have hne : c ≠ '\'' := fun h => hc h
    exact ⟨c :: value, by simp [doubled, hne], rfl⟩

/-- A value with its quotes doubled is read up to the quote that closes it. -/
theorem untilSingleQuote_doubled (value : List Char) (hrest : Stops (· = '\'') rest) :
    untilSingleQuote (doubled value ++ '\'' :: rest) = some (doubled value ++ ['\''], rest) := by
  induction value with
  | nil =>
    cases rest with
    | nil => rfl
    | cons c cs =>
      -- The closing quote must not be the first half of a doubled one.
      have hc : c ≠ '\'' := by simpa using stops_cons_iff.mp hrest
      simp [doubled, untilSingleQuote, hc]
  | cons c cs ih =>
    by_cases hc : c = '\''
    · simp [doubled, hc, untilSingleQuote, ih]
    · simp [doubled, hc, untilSingleQuote, ih]

/-- What the lexer of single-quoted strings reads is a single-quoted literal. -/
theorem exists_single (h : singleQuoted text = some (lexeme, rest)) :
    ∃ value, lexeme = (Quoted.single value).written ∧ text = lexeme ++ rest := by
  unfold singleQuoted at h
  split at h
  · obtain ⟨⟨l, r⟩, hinner, heq⟩ := Option.map_eq_some_iff.mp h
    cases heq
    obtain ⟨value, rfl, rfl⟩ := exists_doubled hinner
    exact ⟨value, rfl, rfl⟩
  · cases h

theorem singleQuoted_written (value : List Char) (hrest : Stops (· = '\'') rest) :
    singleQuoted ((Quoted.single value).written ++ rest) =
      some ((Quoted.single value).written, rest) := by
  simp [Quoted.written, singleQuoted, untilSingleQuote_doubled value hrest]

theorem singleQuoted_eq_none (h : Stops (· = '\'') text) : singleQuoted text = none := by
  unfold singleQuoted
  split
  · simp [stops_cons_iff] at h
  · rfl

/-- What is read up to the closing double quote holds no double quote itself. -/
theorem exists_inert (h : untilDoubleQuote text = some (lexeme, rest)) :
    ∃ value, '"' ∉ value ∧ lexeme = value ++ ['"'] ∧ text = lexeme ++ rest := by
  fun_induction untilDoubleQuote text generalizing lexeme with
  | case1 => cases h
  | case2 cs =>
    cases h
    exact ⟨[], List.not_mem_nil, rfl, rfl⟩
  -- The first double quote closes the literal, so none has been passed.
  | case3 c cs hc ih =>
    obtain ⟨⟨l, r⟩, hinner, heq⟩ := Option.map_eq_some_iff.mp h
    cases heq
    obtain ⟨value, hinert, rfl, rfl⟩ := ih hinner
    refine ⟨c :: value, ?_, rfl, rfl⟩
    rw [List.mem_cons, not_or]
    exact ⟨fun h => hc h.symm, hinert⟩

/-- A value without a double quote is read up to the quote that closes it. -/
theorem untilDoubleQuote_inert {value : List Char} (h : '"' ∉ value) (rest : List Char) :
    untilDoubleQuote (value ++ '"' :: rest) = some (value ++ ['"'], rest) := by
  induction value with
  | nil => rfl
  | cons c cs ih =>
    rw [List.mem_cons, not_or] at h
    simp [untilDoubleQuote, Ne.symm h.1, ih h.2]

/-- What the lexer of double-quoted strings reads is a double-quoted literal. -/
theorem exists_double (h : doubleQuoted text = some (lexeme, rest)) :
    ∃ value inert, lexeme = (Quoted.double value inert).written ∧ text = lexeme ++ rest := by
  unfold doubleQuoted at h
  split at h
  · obtain ⟨⟨l, r⟩, hinner, heq⟩ := Option.map_eq_some_iff.mp h
    cases heq
    obtain ⟨value, hinert, rfl, rfl⟩ := exists_inert hinner
    exact ⟨value, hinert, rfl, rfl⟩
  · cases h

theorem doubleQuoted_written (value : List Char) (inert : '"' ∉ value) (rest : List Char) :
    doubleQuoted ((Quoted.double value inert).written ++ rest) =
      some ((Quoted.double value inert).written, rest) := by
  simp [Quoted.written, doubleQuoted, untilDoubleQuote_inert inert]

theorem doubleQuoted_eq_none (h : Stops (· = '"') text) : doubleQuoted text = none := by
  unfold doubleQuoted
  split
  · simp [stops_cons_iff] at h
  · rfl

/-- A text comes back from its doubled quotes. -/
theorem undouble_doubled (value : List Char) : undouble (doubled value) = value := by
  induction value with
  | nil => rfl
  | cons c cs ih =>
    by_cases hc : c = '\''
    · simp [doubled, undouble, hc, ih]
    · simp [doubled, undouble, hc, ih]

theorem singleQuotedValue_written (value : List Char) :
    singleQuotedValue (Quoted.single value).written = String.ofList value := by
  simp [singleQuotedValue, body, Quoted.written, undouble_doubled]

theorem doubleQuotedValue_written (value : List Char) (inert : '"' ∉ value) :
    doubleQuotedValue (Quoted.double value inert).written = String.ofList value := by
  simp [doubleQuotedValue, body, Quoted.written]

end Interpolation.Grammar
