import Interpolation.CommandLine.Run
import Interpolation.Proofs.Grammar.Token
import Mathlib.Tactic.SplitIfs

/-!
# The table of segments, read back

A table of segments is printed line by line, next to the segments it was made of.  That is right as
long as no row holds a line end, whatever stands in the texts; and a reader who sees only the table
knows the segments as long as no two of them are written alike.  Both come down to the escapes: the
written form of a character holds no line end, and it can be told where it stops.

## Main definitions

- `lines`: the lines of a text.
- `printTable`: the table as it is printed, a line for each segment.
- `readEscaped`, `leadingNumber`: one character and one number, read back.

## Main results

- `readEscaped_escape`: the written form of a character is read back.
- `lines_segmentTable`: the lines of a table are the rows of its segments.
- `row_inj`: no two segments have the same row.
- `segmentTable_faithful`: the table and its printed form tell which segments there are.
-/

namespace Interpolation

open Grammar (Stops stops_cons_iff takeWhile_run dropWhile_run)

variable {c d : Char} {u v rest rest' : List Char}

/-! ## Layer A: lines -/

/-- A line without the carriage return at its end. -/
def dropReturn (line : List Char) : List Char :=
  if line.getLast? = some '\r' then line.dropLast else line

/-- The lines of a text.  A line ends with a line feed, perhaps with a carriage return in front of
it; behind the last line feed there is one more line, unless nothing stands there. -/
def lines (text : List Char) : List (List Char) :=
  let pieces := text.splitOn '\n'
  pieces.dropLast.map dropReturn ++ pieces.getLast?.toList.filter (· ≠ [])

/-- The characters that end a line, alone or in a row. -/
def lineEnds : List Char := ['\n', '\r']

/-- No character of a text ends a line. -/
def Inline (cs : List Char) : Prop := ∀ c ∈ cs, c ∉ lineEnds

instance (cs : List Char) : Decidable (Inline cs) := List.decidableBAll (· ∉ lineEnds) cs

/-- What fills a line of its own, whatever is in front of it and behind it. -/
structure FillsLine (line : List Char) : Prop where
  /-- It has a character. -/
  ne_nil : line ≠ []
  /-- None of its characters ends a line. -/
  inside : Inline line

theorem FillsLine.dropReturn_eq (h : FillsLine u) : dropReturn u = u := by
  apply if_neg
  intro hlast
  exact h.inside '\r' (List.mem_of_getLast? hlast) (by decide)

/-- Lines with line feeds between them are the lines of the text that they make up. -/
theorem lines_intercalate {rows : List (List Char)} (h : ∀ row ∈ rows, FillsLine row) :
    lines (['\n'].intercalate rows) = rows := by
  by_cases hrows : rows = []
  · subst hrows
    rfl
  · have hfeed : ∀ row ∈ rows, '\n' ∉ row := by
      intro row hrow hmem
      exact (h row hrow).inside '\n' hmem (by decide)
    -- At the line feeds the text falls apart into the rows.
    have hpieces : (['\n'].intercalate rows).splitOn '\n' = rows :=
      List.splitOn_intercalate '\n' hfeed hrows
    -- No row ends with a carriage return, and the last one is not empty.
    have hfront : rows.dropLast.map dropReturn = rows.dropLast := by
      apply (List.map_congr_left ?_).trans (List.map_id _)
      intro row hrow
      exact (h row (List.dropLast_subset rows hrow)).dropReturn_eq
    have hlast : rows.getLast hrows ≠ [] := (h _ (List.getLast_mem hrows)).ne_nil
    simp [lines, hpieces, hfront, List.getLast?_eq_some_getLast hrows, hlast,
      List.dropLast_concat_getLast]

/-! ## Layer B: numbers -/

theorem digitsValue_toDigits (n : Nat) : digitsValue (Nat.toDigits 10 n) = n := by
  have hvalue : digitsValue (Nat.toDigits 10 n) = Nat.ofDigitChars 10 (Nat.toDigits 10 n) 0 := by
    simp [digitsValue, Nat.ofDigitChars_eq_foldl, Nat.mul_comm]
  rw [hvalue, Nat.ofDigitChars_ten_toDigits]

theorem isDigit_of_mem_decimal {n : Nat} : ∀ c ∈ Nat.toDigits 10 n, c.isDigit = true :=
  fun _ hc => Nat.isDigit_of_mem_toDigits (by decide) (by decide) hc

/-- The number that starts a text behind spaces, and what follows its digits. -/
def leadingNumber (text : List Char) : Nat × List Char :=
  let digits := text.dropWhile (· = ' ')
  (digitsValue (digits.takeWhile Char.isDigit), digits.dropWhile Char.isDigit)

/-- The digits of a number start with no space. -/
theorem stops_space_decimal (n : Nat) (rest : List Char) :
    Stops (· = ' ') (Nat.toDigits 10 n ++ rest) := by
  have hne : Nat.toDigits 10 n ≠ [] := Nat.toDigits_ne_nil
  obtain ⟨c, cs, hcons⟩ := List.exists_cons_of_ne_nil hne
  have hc : c.isDigit = true := isDigit_of_mem_decimal (n := n) c (by simp [hcons])
  have hspace : c ≠ ' ' := Grammar.ne_of_test hc (by decide)
  rw [hcons, List.cons_append, stops_cons_iff]
  simpa using hspace

/-- A number is read back from behind spaces, if no digit follows. -/
theorem leadingNumber_decimal (spaces n : Nat) (hrest : Stops Char.isDigit rest) :
    leadingNumber (List.replicate spaces ' ' ++ (Nat.toDigits 10 n ++ rest)) = (n, rest) := by
  have hspaces : ∀ c ∈ List.replicate spaces ' ', decide (c = ' ') = true := by
    intro c hc
    simpa using List.eq_of_mem_replicate hc
  unfold leadingNumber
  rw [dropWhile_run hspaces (stops_space_decimal n rest)]
  simp only [takeWhile_run isDigit_of_mem_decimal hrest, dropWhile_run isDigit_of_mem_decimal hrest,
    digitsValue_toDigits]

/-- The digits of a code point. -/
def hexDigits : List Char := "0123456789abcdef".toList

/-- The number of some hexadecimal digits. -/
def hexValue (digits : List Char) : Nat :=
  digits.foldl (fun n c => n * 16 + hexDigits.idxOf c) 0

theorem digitChar_mem_hexDigits : ∀ n < 16, n.digitChar ∈ hexDigits := by
  decide

theorem idxOf_digitChar : ∀ n < 16, hexDigits.idxOf n.digitChar = n := by
  decide

/-- A code point is written with these digits. -/
theorem mem_hexDigits_of_mem_toDigits {n : Nat} : ∀ c ∈ Nat.toDigits 16 n, c ∈ hexDigits := by
  -- On the number, which each digit divides by sixteen.
  induction n using Nat.strongRecOn with
  | ind n ih =>
    rw [Nat.toDigits_eq_if (by decide)]
    split
    · next hlt => simpa using digitChar_mem_hexDigits n hlt
    · next hle =>
      have hdiv : n / 16 < n := Nat.div_lt_self (by omega) (by decide)
      simp only [List.mem_append, List.mem_singleton]
      rintro c (hc | rfl)
      · exact ih _ hdiv c hc
      · exact digitChar_mem_hexDigits _ (Nat.mod_lt _ (by decide))

/-- The hexadecimal digits of a number are read back. -/
theorem hexValue_toDigits (n : Nat) : hexValue (Nat.toDigits 16 n) = n := by
  induction n using Nat.strongRecOn with
  | ind n ih =>
    rw [Nat.toDigits_eq_if (by decide)]
    split
    · next hlt => simp [hexValue, idxOf_digitChar n hlt]
    · next hle =>
      have hdiv : n / 16 < n := Nat.div_lt_self (by omega) (by decide)
      have hvalue := ih _ hdiv
      unfold hexValue at hvalue ⊢
      rw [List.foldl_append, hvalue]
      simp only [List.foldl_cons, List.foldl_nil, idxOf_digitChar _ (Nat.mod_lt n (by decide))]
      omega

/-! ## Layer C: escapes -/

/-- The character whose written form starts a text, and what follows that. -/
def readEscaped : List Char → Option (Char × List Char)
  | '\\' :: 'u' :: '{' :: text =>
    some (Char.ofNat (hexValue (text.takeWhile (· ∈ hexDigits))),
      (text.dropWhile (· ∈ hexDigits)).drop 1)
  | '\\' :: 'n' :: text => some ('\n', text)
  | '\\' :: 'r' :: text => some ('\r', text)
  | '\\' :: 't' :: text => some ('\t', text)
  | '\\' :: '0' :: text => some ('\x00', text)
  | '\\' :: c :: text => some (c, text)
  | c :: text => some (c, text)
  | [] => none

/-- A code point between braces is read back. -/
theorem readEscaped_escapeCodePoint (c : Char) (rest : List Char) :
    readEscaped (escapeCodePoint c ++ rest) = some (c, rest) := by
  have hdigits : ∀ d ∈ Nat.toDigits 16 c.toNat, decide (d ∈ hexDigits) = true := by
    simpa using mem_hexDigits_of_mem_toDigits
  -- The brace behind the digits is none of them.
  have hstop : Stops (· ∈ hexDigits) ('}' :: rest) := stops_cons_iff.mpr (by decide)
  simp only [escapeCodePoint, List.cons_append, List.append_assoc, List.nil_append, readEscaped,
    takeWhile_run hdigits hstop, dropWhile_run hdigits hstop, hexValue_toDigits, Char.ofNat_toNat,
    List.drop_succ_cons, List.drop_zero]

/-- The written form of a character is read back, and it is known where it stops. -/
theorem readEscaped_escape (c : Char) (rest : List Char) :
    readEscaped (escape c ++ rest) = some (c, rest) := by
  unfold escape
  split_ifs with hquote hslash hfeed hreturn htab hnull hhidden
  · rw [hquote]; rfl
  · rw [hslash]; rfl
  · rw [hfeed]; rfl
  · rw [hreturn]; rfl
  · rw [htab]; rfl
  · rw [hnull]; rfl
  · exact readEscaped_escapeCodePoint c rest
  · simp [readEscaped, hslash]

/-- The written form of a character is an escape of one letter, its code point, or itself. -/
theorem escape_cases (c : Char) :
    (∃ letter ∈ ['"', '\\', 'n', 'r', 't', '0'], escape c = ['\\', letter]) ∨
      escape c = escapeCodePoint c ∨ escape c = [c] ∧ c ∉ '"' :: lineEnds := by
  unfold escape
  split_ifs with hquote hslash hfeed hreturn htab hnull hhidden
  · exact .inl ⟨'"', by decide, rfl⟩
  · exact .inl ⟨'\\', by decide, rfl⟩
  · exact .inl ⟨'n', by decide, rfl⟩
  · exact .inl ⟨'r', by decide, rfl⟩
  · exact .inl ⟨'t', by decide, rfl⟩
  · exact .inl ⟨'0', by decide, rfl⟩
  · exact .inr (.inl rfl)
  · exact .inr (.inr ⟨rfl, by simp [lineEnds, hquote, hfeed, hreturn]⟩)

theorem escape_eq_cons (c : Char) : ∃ d ds, escape c = d :: ds ∧ d ≠ '"' := by
  rcases escape_cases c with ⟨letter, -, heq⟩ | heq | ⟨heq, hc⟩
  · exact ⟨'\\', _, heq, by decide⟩
  · exact ⟨'\\', _, heq, by decide⟩
  · exact ⟨c, [], heq, fun hquote => hc (by simp [hquote])⟩

/-- The written form of a character has no line end in it. -/
theorem escape_inside (c : Char) : Inline (escape c) := by
  rcases escape_cases c with ⟨letter, hletter, heq⟩ | heq | ⟨heq, hc⟩
  · have hletters : Inline ['"', '\\', 'n', 'r', 't', '0'] := by decide
    have hmark : Inline ['\\'] := by decide
    rw [heq]
    intro d hd
    rcases List.mem_cons.mp hd with rfl | hd
    · exact hmark _ List.mem_cons_self
    · exact List.mem_singleton.mp hd ▸ hletters letter hletter
  · have hdigits : Inline hexDigits := by decide
    have hmarks : Inline ['\\', 'u', '{', '}'] := by decide
    intro d hd
    rw [heq] at hd
    simp only [escapeCodePoint, List.mem_cons, List.mem_append, List.not_mem_nil, or_false] at hd
    rcases hd with hd | hd | hd | hd | hd
    · exact hmarks d (by simp [hd])
    · exact hmarks d (by simp [hd])
    · exact hmarks d (by simp [hd])
    · exact hdigits d (mem_hexDigits_of_mem_toDigits d hd)
    · exact hmarks d (by simp [hd])
  · rw [heq]
    intro d hd
    rw [List.mem_singleton.mp hd]
    exact fun hmem => hc (List.mem_cons_of_mem _ hmem)

/-- A text in quotes is known from its written form, whatever follows. -/
theorem flatMap_escape_inj
    (h : u.flatMap escape ++ '"' :: rest = v.flatMap escape ++ '"' :: rest') :
    u = v ∧ rest = rest' := by
  induction u generalizing v with
  | nil =>
    cases v with
    | nil => simpa using h
    -- The quote ends one text and starts no written form of the other.
    | cons d ds =>
      obtain ⟨e, es, heq, he⟩ := escape_eq_cons d
      simp [heq, he.symm] at h
  | cons c cs ih =>
    cases v with
    | nil =>
      obtain ⟨e, es, heq, he⟩ := escape_eq_cons c
      simp [heq, he] at h
    | cons d ds =>
      -- The first characters are read back from both sides.
      rw [List.flatMap_cons, List.flatMap_cons, List.append_assoc, List.append_assoc] at h
      have hread := congrArg readEscaped h
      rw [readEscaped_escape, readEscaped_escape, Option.some.injEq, Prod.mk.injEq] at hread
      obtain ⟨rfl, hrest⟩ := hread
      obtain ⟨rfl, rfl⟩ := ih hrest
      exact ⟨rfl, rfl⟩

/-! ## Layer D: rows -/

theorem toList_row (s : Segment) :
    s.row.toList = s.kindName.toList.rightpad 10 ' ' ++ ' ' ::
      ((Nat.toDigits 10 s.span.start).leftpad 4 ' ' ++ '.' :: '.' ::
        ((Nat.toDigits 10 s.span.stop).rightpad 4 ' ' ++ ' ' ::
          '"' :: (s.text.toList.flatMap escape ++ ['"']))) := by
  simp [Segment.row, padEnd, padStart, quoted]

theorem kindName_column (s : Segment) :
    (s.kindName.toList.rightpad 10 ' ').length = 10 ∧
      (s.kindName.toList.rightpad 10 ' ' = "expression".toList ↔ s.isExpression = true) := by
  cases s <;> simp [Segment.kindName, Segment.isExpression]

theorem leadingNumber_start (n : Nat) (rest : List Char) :
    leadingNumber ((Nat.toDigits 10 n).leftpad 4 ' ' ++ '.' :: rest) = (n, '.' :: rest) := by
  rw [List.leftpad, List.append_assoc]
  exact leadingNumber_decimal _ n (stops_cons_iff.mpr (by decide))

/-- The number behind the two points. -/
theorem leadingNumber_stop (n : Nat) (rest : List Char) :
    leadingNumber ((Nat.toDigits 10 n).rightpad 4 ' ' ++ ' ' :: rest) =
      (n, List.replicate (4 - (Nat.toDigits 10 n).length) ' ' ++ ' ' :: rest) := by
  rw [List.rightpad, List.append_assoc]
  apply leadingNumber_decimal 0 n
  cases 4 - (Nat.toDigits 10 n).length with
  | zero => exact stops_cons_iff.mpr (by decide)
  | succ k => exact stops_cons_iff.mpr (by decide)

/-- No two segments have the same row. -/
theorem row_inj {s s' : Segment} (h : s.row = s'.row) : s = s' := by
  have hchars := congrArg String.toList h
  rw [toList_row, toList_row] at hchars
  obtain ⟨hlength, hkind⟩ := kindName_column s
  obtain ⟨hlength', hkind'⟩ := kindName_column s'
  -- The column of the kind has a fixed width.
  obtain ⟨hkinds, hspans⟩ := List.append_inj hchars (hlength.trans hlength'.symm)
  have hexpression : s.isExpression = true ↔ s'.isExpression = true := by
    rw [← hkind, ← hkind', hkinds]
  -- Both numbers are read up to what is no digit.
  have hstart := congrArg leadingNumber (List.tail_eq_of_cons_eq hspans)
  rw [leadingNumber_start, leadingNumber_start, Prod.mk.injEq, List.cons.injEq, List.cons.injEq]
    at hstart
  obtain ⟨hstart, -, -, hrest⟩ := hstart
  have hstop := congrArg leadingNumber hrest
  rw [leadingNumber_stop, leadingNumber_stop, Prod.mk.injEq] at hstop
  obtain ⟨hstop, htexts⟩ := hstop
  rw [hstop] at htexts
  have hquoted := List.append_cancel_left htexts
  simp only [List.cons.injEq, true_and] at hquoted
  -- The text is read back from between its quotes.
  have htext : s.text = s'.text := String.toList_inj.mp (flatMap_escape_inj hquoted).1
  have hspan : s.span = s'.span := by
    rcases hs : s.span with ⟨start, stop⟩
    simp_all
  cases s <;> cases s' <;> simp_all [Segment.isExpression, Segment.text, Segment.span]

theorem decimal_inside (n : Nat) : Inline (Nat.toDigits 10 n) := by
  intro c hc hend
  have hdigit := isDigit_of_mem_decimal c hc
  simp only [lineEnds, List.mem_cons, List.not_mem_nil, or_false] at hend
  rcases hend with rfl | rfl
  · exact absurd hdigit (by decide)
  · exact absurd hdigit (by decide)

theorem kindName_inside (s : Segment) : Inline s.kindName.toList := by
  cases s with
  | literal =>
    have hname : Inline "literal".toList := by decide
    exact hname
  | expression =>
    have hname : Inline "expression".toList := by decide
    exact hname

/-- A row fills a line of its own, whatever the text of its segment. -/
theorem fillsLine_row (s : Segment) : FillsLine s.row.toList where
  ne_nil := by simp [toList_row]
  inside := by
    have htext : Inline (s.text.toList.flatMap escape) := by
      intro c hc
      obtain ⟨d, -, hd⟩ := List.mem_flatMap.mp hc
      exact escape_inside d c hd
    have hspace : ' ' ∉ lineEnds := by decide
    have hspaces (k : Nat) : Inline (List.replicate k ' ') := by
      intro c hc
      rwa [List.eq_of_mem_replicate hc]
    have hpoint : '.' ∉ lineEnds := by decide
    have hquote : '"' ∉ lineEnds := by decide
    simp only [Inline, toList_row, List.rightpad, List.leftpad, List.forall_mem_append,
      List.forall_mem_cons]
    exact ⟨⟨kindName_inside s, hspaces _⟩, hspace, ⟨hspaces _, decimal_inside _⟩, hpoint, hpoint,
      ⟨decimal_inside _, hspaces _⟩, hspace, hquote, htext, hquote, nofun⟩

/-- The lines of a table are the rows of its segments. -/
theorem lines_segmentTable (segments : List Segment) :
    lines (segmentTable segments).toList = segments.map fun s => s.row.toList := by
  have hrows : ∀ row ∈ segments.map fun s => s.row.toList, FillsLine row := by
    simpa using fun s _ => fillsLine_row s
  rw [segmentTable, String.toList_intercalate, List.map_map]
  exact lines_intercalate hrows

/-! ## Main result -/

/-- The table as it is printed: the lines of the table next to the segments, with a style in front
of the lines of expressions. -/
def printTable (segments : List Segment) : List Styled :=
  (segments.zip (lines (segmentTable segments).toList)).flatMap fun (s, line) =>
    (if s.isExpression then [.style ⟨.green, true⟩] else []) ++
      [.text (String.ofList line ++ "\n"), .reset]

/-- **The table of segments is faithful.**  It has a line for each segment, the row of the segment;
so the printed table has all rows, and highlights those of expressions.  Segments with the same
table are the same in kinds, spans and texts. -/
theorem segmentTable_faithful (segments : List Segment) :
    lines (segmentTable segments).toList = segments.map (fun s => s.row.toList) ∧
      printTable segments = segments.flatMap CommandLine.styledRow ∧
      ∀ others, segmentTable others = segmentTable segments → others = segments := by
  refine ⟨lines_segmentTable segments, ?_, fun others htable => ?_⟩
  · -- Each segment stands next to its own row.
    have hzip : (segments.map id).zip (segments.map fun s => s.row.toList) =
        segments.map fun s => (s, s.row.toList) := List.zip_map'
    rw [List.map_id] at hzip
    rw [printTable, lines_segmentTable, hzip, List.flatMap_map]
    simp only [String.ofList_toList]
    rfl
  · have hrows : lines (segmentTable others).toList = lines (segmentTable segments).toList := by
      rw [htable]
    rw [lines_segmentTable, lines_segmentTable] at hrows
    -- Tables with the same lines have the same rows, and rows tell their segments.
    apply (List.map_inj_right ?_).mp hrows
    intro s s' h
    exact row_inj (String.toList_inj.mp h)

end Interpolation
