import Interpolation.Proofs.ByteScan
import Interpolation.Proofs.Grammar.Pairs
import Interpolation.Proofs.Grammar.Token

/-!
# Trees from pairs

The tree of an expression can be built from the pairs that the grammar leaves.  The builder trusts
the grammar for the shape of the pairs, but it does not take it for granted: where a pair could lack
another one in it, or be of a rule that no expression starts with, the builder has an error of its
own, and a literal that is too short for its quotes stops it.

## Main definitions

- `Build`: what is built, an error, or nothing where the builder stops.
- `unquote`, `float?`, `index?`: what the texts of tokens stand for.
- `buildNode`, `buildPath`: the builder.
- `parseByPairs`: the tree of a text, by its pairs.

## Main results

- `unquote_written`, `float?_written`, `index?_digits`: the texts that the grammar allows for.
-/

namespace Interpolation.Grammar

/-! ## Layer A: the texts of tokens -/

/-- A build that stops has no result. -/
abbrev Build := ExceptT Error Option

/-- The error at a byte offset, not yet told in characters. -/
def malformedAt (pos : Nat) (message : String) : Error :=
  .spanned (.malformedExpression pos message) (.ofLength pos 0)

/-- The text between the quotes of a literal.  Without a byte for each quote there is none. -/
def unquote (literal : List Char) : Option String :=
  (Walk.slice (String.ofList literal) 1 ((extent literal).bytes - 1)).result.map fun body =>
    if literal.head? = some '\'' then String.ofList (undouble body) else String.ofList body

/-- The number that digits spell, if there are nothing but digits. -/
def natural? (text : List Char) : Option Nat :=
  if text ≠ [] ∧ text.all Char.isDigit then some (digitsValue text) else none

/-- A number with or without a sign. -/
def signed? {α : Type} [Neg α] (magnitude? : List Char → Option α) : List Char → Option α
  | '-' :: text => (magnitude? text).map (- ·)
  | '+' :: text => magnitude? text
  | text => magnitude? text

/-- The power of ten behind a number, if there is anything. -/
def exponent? : List Char → Option Int
  | [] => some 0
  | c :: text =>
    if c = 'e' ∨ c = 'E' then signed? (fun digits => (natural? digits).map Int.ofNat) text else none

/-- A number with digits in front of a point or behind it. -/
def decimal? (text : List Char) : Option Float :=
  let whole := text.takeWhile Char.isDigit
  let behind := text.dropWhile Char.isDigit
  let hasPoint := behind.head? = some '.'
  let fraction := if hasPoint then (behind.drop 1).takeWhile Char.isDigit else []
  let rest := if hasPoint then (behind.drop 1).dropWhile Char.isDigit else behind
  if whole = [] ∧ fraction = [] then none
  else (exponent? rest).map fun power =>
    nearestDecimal (digitsValue (whole ++ fraction)) (power - fraction.length)

/-- A number without a sign, or one of the words for what is no finite number. -/
def magnitude? (text : List Char) : Option Float :=
  let word := text.map Char.toLower
  if word = "inf".toList ∨ word = "infinity".toList then some (1 / 0)
  else if word = "nan".toList then some (0 / 0)
  else decimal? text

/-- The floating-point number that a text spells. -/
def float? : List Char → Option Float := signed? magnitude?

/-- The number that a text spells, if it is not too large to index a list. -/
def index? (text : List Char) : Option Nat :=
  let digits := if text.head? = some '+' then text.drop 1 else text
  (natural? digits).filter (· ≤ largestIndex)

/-! ## Layer B: the builder -/

/-- The build stops where there is no result. -/
def stopUnless {α : Type} (result : Option α) : Build α := ExceptT.mk (result.map .ok)

/-- The first of some pairs, without which there is an error. -/
def firstOr (error : Error) : List Pair → Build Pair
  | [] => throw error
  | first :: _ => return first

/-- The accessor of a step, from its pair. -/
def buildAccessor (step : Pair) : Build Accessor := do
  let target ← firstOr (malformedAt step.start "accessor without a target") step.inner
  match target.rule with
  | .identifier => return .property (String.ofList target.text)
  | .string => return .key (← stopUnless (unquote target.text))
  | .integer =>
    match index? target.text with
    | some i => return .index i
    | none => throw (malformedAt target.start "index out of range")
  | rule => throw (malformedAt step.start ("unsupported accessor: " ++ rule.name))

/-- A path, from the pair of its root and the pairs of its steps. -/
def buildPath (start : Nat) : List Pair → Build Node
  | [] => throw (malformedAt start "path without a root")
  | root :: steps => do
    return .path ⟨String.ofList root.text, ← steps.mapM buildAccessor⟩

mutual

/-- The tree of a pair. -/
def buildNode : Pair → Build Node
  | ⟨rule, start, text, inner⟩ =>
    match rule with
    | .string => do return .literal (.string (← stopUnless (unquote text)))
    | .number =>
      match float? text with
      | some x => return .literal (.number x)
      | none => throw (malformedAt start ("invalid number '" ++ String.ofList text ++ "'"))
    | .boolean => return .literal (.bool (text = "true".toList))
    | .null => return .literal .nil
    | .group =>
      match inner with
      | [] => throw (malformedAt start "empty group")
      | first :: _ => buildNode first
    | .list => do return .list (← buildItems inner)
    | .path => buildPath start inner
    | rule => throw (malformedAt start ("unsupported rule: " ++ rule.name))

/-- The items of a list; the first one that has no tree fails the list. -/
def buildItems : List Pair → Build (List Node)
  | [] => return []
  | item :: items => do
    let node ← buildNode item
    return node :: (← buildItems items)

end

/-- The tree of a text, from its pairs. -/
def buildTree (pairs : List Pair) : Build Node :=
  match pairs.head?.bind fun expression => expression.inner.head? with
  | some inner => buildNode inner
  | none => throw (malformedAt 0 "empty expression")

/-- The tree of a text, by its pairs.  Places are counted in bytes first. -/
def parseByPairs (text : String) : Option (Except Error Node) :=
  match parsePairs text.toList with
  | .error furthest =>
    some (inCharacters text (.error (malformedAt furthest.place.bytes furthest.message)))
  | .ok pairs => (buildTree pairs).run.map (inCharacters text)

theorem parseByPairs_of_refused {text : String} {furthest : Furthest}
    (h : parsePairs text.toList = .error furthest) :
    parseByPairs text =
      some (inCharacters text (.error (malformedAt furthest.place.bytes furthest.message))) := by
  unfold parseByPairs
  rw [h]

theorem parseByPairs_of_read {text : String} {pairs : List Pair}
    (h : parsePairs text.toList = .ok pairs) :
    parseByPairs text = (buildTree pairs).run.map (inCharacters text) := by
  unfold parseByPairs
  rw [h]

/-! ## Layer C: the texts that the grammar allows for -/

/-- Between two quotes of one byte stands the body. -/
theorem slice_quoted {quote : Char} (hquote : quote.utf8Size = 1) (body : List Char) :
    (Walk.slice (String.ofList (quote :: (body ++ [quote]))) 1
      ((extent (quote :: (body ++ [quote]))).bytes - 1)).result = some body := by
  have htext : (String.ofList (quote :: (body ++ [quote]))).toList = [quote] ++ (body ++ [quote]) :=
    String.toList_ofList
  -- The two offsets of the slice are those in front of the body and behind it.
  have hslice := (Walk.slice_returns htext).result
  have hstart : (extent [quote]).bytes = 1 := by simp [Offset.ofChar, hquote, Offset.zero]
  have hstop : (extent (quote :: (body ++ [quote]))).bytes - 1 =
      (extent ([quote] ++ body)).bytes := by
    simp [extent_append, Offset.ofChar, hquote, Offset.zero, Nat.add_comm]
  rwa [hstart, ← hstop] at hslice

/-- A literal with both of its quotes can be taken apart. -/
theorem unquote_written (q : Quoted) : unquote q.written = some q.value := by
  cases q with
  | single value =>
    rw [unquote, Quoted.written, slice_quoted (by decide)]
    simp [Quoted.value, undouble_doubled]
  | double value inert =>
    rw [unquote, Quoted.written, slice_quoted (by decide)]
    simp [Quoted.value]

theorem natural?_digits (d : Digits) : natural? d.chars = some (digitsValue d.chars) :=
  if_pos ⟨d.ne_nil, List.all_eq_true.mpr d.digits⟩

/-- Digits index a list unless they are too large. -/
theorem index?_digits (d : Digits) :
    index? d.chars =
      if digitsValue d.chars ≤ largestIndex then some (digitsValue d.chars) else none := by
  obtain ⟨c, cs, hcons, hc⟩ := d.exists_cons
  -- Digits start with no sign.
  have hsign : d.chars.head? ≠ some '+' := by
    rw [hcons, List.head?_cons, ne_eq, Option.some.injEq]
    exact ne_of_test hc (by decide)
  rw [index?, if_neg hsign, natural?_digits, Option.filter_some]
  simp

theorem takeWhile_digits (d : Digits) : d.chars.takeWhile Char.isDigit = d.chars := by
  have h := takeWhile_run d.digits (stops_nil Char.isDigit)
  rwa [List.append_nil] at h

theorem dropWhile_digits (d : Digits) : d.chars.dropWhile Char.isDigit = [] := by
  have h := dropWhile_run d.digits (stops_nil Char.isDigit)
  rwa [List.append_nil] at h

theorem pointless_digits (d : Digits) : ∀ c ∈ d.chars, decide (c ≠ '.') = true :=
  fun c hc => decide_eq_true (ne_of_test (d.digits c hc) (by decide))

/-- Digits in front of a point and behind it. -/
theorem decimal?_unsigned (n : Numeral) :
    decimal? n.unsigned = some (unsignedValue n.unsigned) := by
  obtain ⟨negative, whole, fraction⟩ := n
  cases fraction with
  -- Without a point all the digits are the whole part, for both readings.
  | none =>
    have hwhole : whole.chars.takeWhile (· ≠ '.') = whole.chars := by
      have h := takeWhile_run (pointless_digits whole) (stops_nil _)
      rwa [List.append_nil] at h
    have hbehind : whole.chars.dropWhile (· ≠ '.') = [] := by
      have h := dropWhile_run (pointless_digits whole) (stops_nil _)
      rwa [List.append_nil] at h
    simp only [Numeral.unsigned, decimal?, unsignedValue, takeWhile_digits, dropWhile_digits,
      hwhole, hbehind, whole.ne_nil, false_and, if_false, exponent?, List.head?_nil, reduceCtorEq,
      List.drop_nil, Option.map_some]
    rfl
  | some fraction =>
    -- The point ends the digits in front of it, for both readings.
    have hpoint : Stops Char.isDigit ('.' :: fraction.chars) := stops_cons_iff.mpr (by decide)
    have hstop : Stops (fun c => decide (c ≠ '.')) ('.' :: fraction.chars) :=
      stops_cons_iff.mpr (by decide)
    simp only [Numeral.unsigned, decimal?, unsignedValue, takeWhile_run whole.digits hpoint,
      dropWhile_run whole.digits hpoint, takeWhile_run (pointless_digits whole) hstop,
      dropWhile_run (pointless_digits whole) hstop, List.head?_cons, if_true, List.drop_one,
      List.tail_cons, takeWhile_digits, dropWhile_digits, whole.ne_nil, false_and, if_false,
      exponent?, Option.map_some, Int.zero_sub]

theorem toLower_of_isDigit {c : Char} (h : c.isDigit = true) : c.toLower = c := by
  simp only [Char.isDigit, Bool.and_eq_true, decide_eq_true_eq] at h
  have hupper : ¬ (c.val ≥ 'A'.val ∧ c.val ≤ 'Z'.val) := by
    intro hc
    have hle : 'A'.val ≤ '9'.val := UInt32.le_trans hc.1 h.2
    exact absurd hle (by decide)
  exact dif_neg hupper

/-- A numeral without its sign spells its value. -/
theorem magnitude?_unsigned (n : Numeral) :
    magnitude? n.unsigned = some (unsignedValue n.unsigned) := by
  obtain ⟨c, cs, hcons, hc⟩ := n.exists_cons_unsigned
  -- A numeral starts with a digit, so it is none of the words.
  have hword {w : Char} {ws : List Char} (hw : w.isDigit = false) :
      n.unsigned.map Char.toLower ≠ w :: ws := by
    rw [hcons, List.map_cons, toLower_of_isDigit hc, ne_eq, List.cons.injEq]
    exact fun h => ne_of_test hc hw h.1
  have hinf : ¬ (n.unsigned.map Char.toLower = "inf".toList ∨
      n.unsigned.map Char.toLower = "infinity".toList) := by
    rintro (h | h)
    · exact hword (by decide) h
    · exact hword (by decide) h
  have hnan : n.unsigned.map Char.toLower ≠ "nan".toList := hword (by decide)
  rw [magnitude?, if_neg hinf, if_neg hnan, decimal?_unsigned]

theorem numberValue_of_ne {c : Char} (h : c ≠ '-') (cs : List Char) :
    numberValue (c :: cs) = unsignedValue (c :: cs) := by
  rw [numberValue]
  exact fun _ heq => h (List.cons.inj heq).1

/-- The text of a number spells that number. -/
theorem float?_written (n : Numeral) : float? n.written = some (numberValue n.written) := by
  obtain ⟨c, cs, hcons, hc⟩ := n.exists_cons_unsigned
  have hmagnitude := magnitude?_unsigned n
  rw [float?, Numeral.written, Numeral.sign]
  split
  · simp only [List.singleton_append, signed?, hmagnitude, Option.map_some, numberValue]
  · rw [hcons] at hmagnitude ⊢
    -- Without a sign in front, the first digit is none.
    have hplus : c ≠ '+' := ne_of_test hc (by decide)
    have hminus : c ≠ '-' := ne_of_test hc (by decide)
    rw [List.nil_append, numberValue_of_ne hminus, ← hmagnitude, signed?]
    · exact fun _ heq => hminus (List.cons.inj heq).1
    · exact fun _ heq => hplus (List.cons.inj heq).1

end Interpolation.Grammar
