import Interpolation.Proofs.Walk

/-!
# The scan for a closing token, byte by byte

The scan can be written as a loop over the bytes of a text: it looks at every byte, those inside
characters included, counts all places in bytes, and jumps over string literals by a search in the
rest of the text.  What matters to it are single bytes, and a byte inside a longer character is
never one of them.  Hence it comes by the same characters as the scan over characters, and whatever
it takes apart or jumps to is a character boundary.

## Main definitions

- `utf8`, `byteChar`: the bytes of a text.
- `scanBytes`: the loop over the bytes.
- `skipToClosing`: the search for a closing token behind a given offset.

## Main results

- `role_byteChar_of_plain`, `byteChar_of_not_plain`: what the loop sees of a character.
- `scansFrom`: from a boundary, the loop finds what the scan over characters finds.
- `skipToClosing_returns`, `skipToClosing_stops`: the search stops off the boundaries only.
-/

namespace Interpolation

variable {text closing : String} {before rest : List Char} {c : Char} {b : UInt8} {k pos : Nat}

/-! ## Layer A: bytes -/

/-- The bytes of some characters. -/
def utf8 (cs : List Char) : List UInt8 := cs.flatMap String.utf8EncodeChar

theorem length_utf8 (cs : List Char) : (utf8 cs).length = (extent cs).bytes := by
  induction cs with
  | nil => rfl
  | cons c cs ih =>
    rw [utf8, List.flatMap_cons, List.length_append, String.length_utf8EncodeChar, extent_cons,
      Offset.bytes_add]
    exact congrArg (c.utf8Size + ·) ih

/-- A character of one byte is that byte. -/
theorem eq_of_mem_utf8EncodeChar (hc : c.utf8Size = 1) (hb : b ∈ String.utf8EncodeChar c) :
    Char.ofNat b.toNat = c := by
  have hle : c.val.toNat ≤ 0x7f := Char.utf8Size_eq_one_iff.mp hc
  rw [String.utf8EncodeChar, if_pos hle, List.mem_singleton] at hb
  have hlt : c.val.toNat < 256 := by omega
  rw [hb, UInt8.toNat_ofNat', Nat.mod_eq_of_lt hlt]
  exact Char.ofNat_toNat c

/-- The bytes of a longer character are none of those that are characters themselves. -/
theorem le_of_mem_utf8EncodeChar (hc : c.utf8Size ≠ 1) (hb : b ∈ String.utf8EncodeChar c) :
    0x80 ≤ b.toNat := by
  have hgt : ¬ c.val.toNat ≤ 0x7f := fun hle => hc (Char.utf8Size_eq_one_iff.mpr hle)
  rw [String.utf8EncodeChar, if_neg hgt] at hb
  -- Characters of two, three and four bytes; each byte has its highest bit set.
  split at hb
  · simp only [List.mem_cons, List.not_mem_nil, or_false] at hb
    rcases hb with rfl | rfl <;> rw [UInt8.toNat_ofNat'] <;> omega
  · split at hb
    · simp only [List.mem_cons, List.not_mem_nil, or_false] at hb
      rcases hb with rfl | rfl | rfl <;> rw [UInt8.toNat_ofNat'] <;> omega
    · simp only [List.mem_cons, List.not_mem_nil, or_false] at hb
      rcases hb with rfl | rfl | rfl | rfl <;> rw [UInt8.toNat_ofNat'] <;> omega

/-- Such a byte is neither a bracket nor a quote. -/
theorem role_of_le (hb : 0x80 ≤ b.toNat) : CharRole.of (Char.ofNat b.toNat) = .plain := by
  by_contra hplain
  have hlt : b.toNat < 256 := b.toNat_lt
  have hvalid : b.toNat.isValidChar := .inl (by omega)
  have hnat : (Char.ofNat b.toNat).toNat = b.toNat := by
    rw [Char.ofNat, dif_pos hvalid]
    rfl
  -- The eight characters that matter are all below.
  rcases CharRole.of_ne_plain_iff.mp hplain with h | h | h | h | h | h | h | h <;>
    · rw [h] at hnat
      simp at hnat
      omega

/-- The byte at `pos`, as the character with its code. -/
def byteChar (text : String) (pos : Nat) (hpos : pos < (utf8 text.toList).length) : Char :=
  Char.ofNat ((utf8 text.toList)[pos]).toNat

/-- The bytes of a character stand in the text from its place on. -/
theorem byte_mem (h : text.toList = before ++ c :: rest) (hk : k < c.utf8Size)
    (hpos : (extent before).bytes + k < (utf8 text.toList).length) :
    (utf8 text.toList)[(extent before).bytes + k] ∈ String.utf8EncodeChar c := by
  -- The bytes of the text are those in front, those of the character, and those behind.
  have hbytes : utf8 text.toList = utf8 before ++ (String.utf8EncodeChar c ++ utf8 rest) := by
    rw [h, utf8, List.flatMap_append, List.flatMap_cons]
    rfl
  have hlen : k < (String.utf8EncodeChar c).length := by rwa [String.length_utf8EncodeChar]
  simp only [hbytes, ← length_utf8]
  rw [List.getElem_append_right (Nat.le_add_right _ _)]
  simp only [Nat.add_sub_cancel_left]
  rw [List.getElem_append_left hlen]
  exact List.getElem_mem hlen

/-- No byte of a plain character is a bracket or a quote. -/
theorem role_byteChar_of_plain (h : text.toList = before ++ c :: rest)
    (hc : CharRole.of c = .plain) (hk : k < c.utf8Size)
    (hpos : (extent before).bytes + k < (utf8 text.toList).length) :
    CharRole.of (byteChar text ((extent before).bytes + k) hpos) = .plain := by
  have hmem := byte_mem h hk hpos
  -- A character of one byte is that byte; a byte of a longer one is too large to matter.
  by_cases hsize : c.utf8Size = 1
  · rw [byteChar, eq_of_mem_utf8EncodeChar hsize hmem, hc]
  · rw [byteChar, role_of_le (le_of_mem_utf8EncodeChar hsize hmem)]

/-- Brackets and quotes are seen as what they are. -/
theorem byteChar_of_not_plain (h : text.toList = before ++ c :: rest)
    (hc : CharRole.of c ≠ .plain) (hpos : (extent before).bytes < (utf8 text.toList).length) :
    byteChar text (extent before).bytes hpos = c := by
  have hsize := CharRole.utf8Size_eq_one hc
  have hmem := byte_mem (k := 0) h (by omega) hpos
  exact eq_of_mem_utf8EncodeChar hsize hmem

/-! ## Layer B: the loop -/

/-- An open bracket or quote with its place counted in bytes only. -/
def Opener.inBytes (opener : Opener) : Opener :=
  ⟨opener.symbol, ⟨opener.offset.bytes, opener.offset.bytes⟩⟩

/-- Where the loop ends: at the closing token, if nothing is open, or at the end of the text. -/
def scanEnd (text closing : String) (stack : List Opener) (pos : Nat) :
    Walk (Except Error (Option Nat)) :=
  match stack with
  | opener :: _ => pure (.error opener.unclosed)
  | [] => do
    if closingStandsAt text pos closing then
      Walk.visit pos
      pure (.ok (some pos))
    else pure (.ok none)

/-- The loop over the bytes of a text, with the open brackets.  Its faults count in bytes. -/
def scanBytes (text closing : String) (stack : List Opener) (pos : Nat) :
    Walk (Except Error (Option Nat)) :=
  if hpos : pos < (utf8 text.toList).length then
    if stack = [] ∧ closingStandsAt text pos closing then scanEnd text closing stack pos
    else
      let here : Opener := ⟨byteChar text pos hpos, ⟨pos, pos⟩⟩
      match CharRole.of here.symbol with
      | .opener => scanBytes text closing (here :: stack) (pos + 1)
      | .closer =>
        match stack with
        | [] => pure (.error here.unopened)
        | opener :: outer =>
          if opener.closedBy here.symbol then scanBytes text closing outer (pos + 1)
          -- The token may start with the bracket that does not fit.
          else if closingStandsAt text pos closing then pure (.error opener.unclosed)
          else pure (.error (here.mismatched opener))
      | .quote => do
        -- A literal is jumped over by a search for its quote.
        let behind ← Walk.sliceFrom text (pos + 1)
        match splitFirst [here.symbol] behind with
        | none => pure (.error here.unterminated)
        | some (inside, _) => do
          Walk.visit (pos + 1 + (extent inside).bytes)
          Walk.visit (pos + 1 + (extent inside).bytes + 1)
          scanBytes text closing stack (pos + 1 + (extent inside).bytes + 1)
      | .plain => scanBytes text closing stack (pos + 1)
  else scanEnd text closing stack pos
termination_by (utf8 text.toList).length - pos

/-- An outcome with the positions of its fault in characters. -/
def inCharacters {α : Type} (text : String) : Except Error α → Except Error α
  | .error e => .error (e.withCharPositions text)
  | .ok a => .ok a

/-- The byte offset of the token that closes the expression starting at byte offset `start`. -/
def skipToClosing (text : String) (start : Nat) (closing : String) :
    Walk (Except Error (Option Nat)) := do
  let behind ← Walk.sliceFrom text start
  if occursIn closing.toList behind then
    let outcome ← scanBytes text closing [] start
    pure (inCharacters text outcome)
  else pure (.ok none)

/-! ## Layer C: one character -/

variable {stack brackets : List Opener} {opener closer : Opener}

/-- Both counts of an open bracket or quote are of the same place of the text. -/
def Opener.Placed (text : String) (opener : Opener) : Prop :=
  charOffset text opener.offset.bytes = opener.offset.chars

theorem placed_extent (h : text.toList = before ++ rest) (c : Char) :
    Opener.Placed text ⟨c, extent before⟩ :=
  (charOffset_eq h).trans (chars_extent before).symm

theorem withCharPositions_unclosed (h : opener.Placed text) :
    opener.inBytes.unclosed.withCharPositions text = opener.unclosed := by
  rw [Opener.Placed] at h
  simp [Opener.unclosed, Opener.inBytes, Opener.span, Error.spanned, Error.withCharPositions,
    ErrorKind.mapPositions, h]

theorem withCharPositions_unterminated (h : opener.Placed text) :
    opener.inBytes.unterminated.withCharPositions text = opener.unterminated := by
  rw [Opener.Placed] at h
  simp [Opener.unterminated, Opener.inBytes, Opener.span, Error.spanned, Error.withHelp,
    Error.withCharPositions, ErrorKind.mapPositions, h]

theorem withCharPositions_unopened (h : closer.Placed text) :
    closer.inBytes.unopened.withCharPositions text = closer.unopened := by
  rw [Opener.Placed] at h
  simp [Opener.unopened, Opener.inBytes, Opener.span, Error.spanned, Error.withCharPositions,
    ErrorKind.mapPositions, h]

theorem withCharPositions_mismatched (hcloser : closer.Placed text) (hopener : opener.Placed text) :
    (closer.inBytes.mismatched opener.inBytes).withCharPositions text =
      closer.mismatched opener := by
  rw [Opener.Placed] at hcloser hopener
  simp [Opener.mismatched, Opener.inBytes, Opener.span, Error.spanned, Error.withCharPositions,
    ErrorKind.mapPositions, hcloser, hopener]

theorem closingStandsAt_eq (h : text.toList = before ++ rest) :
    closingStandsAt text (extent before).bytes closing = closing.toList.isPrefixOf rest := by
  rw [closingStandsAt, h, cutAt_append]

theorem not_closingStandsAt (h : ¬ IsBoundary text pos) :
    closingStandsAt text pos closing = false := by
  rw [closingStandsAt, cutAt_eq_none_iff_not_isBoundary.mpr h]

theorem lt_length_utf8 (h : text.toList = before ++ c :: rest) (hk : k < c.utf8Size) :
    (extent before).bytes + k < (utf8 text.toList).length := by
  rw [length_utf8, h, extent_append, extent_cons]
  simp only [Offset.bytes_add, Offset.ofChar]
  omega

theorem start_lt_length_utf8 (h : text.toList = before ++ c :: rest) :
    (extent before).bytes < (utf8 text.toList).length :=
  lt_length_utf8 h c.utf8Size_pos

theorem scanBytes_of_plain (hpos : pos < (utf8 text.toList).length)
    (hlive : ¬ (stack = [] ∧ closingStandsAt text pos closing = true))
    (hrole : CharRole.of (byteChar text pos hpos) = .plain) :
    scanBytes text closing stack pos = scanBytes text closing stack (pos + 1) := by
  rw [scanBytes, dif_pos hpos, if_neg hlive]
  simp only [hrole]

/-- The loop steps over a plain character, byte by byte: no token stands inside the character. -/
theorem scanBytes_plain (h : text.toList = before ++ c :: rest) (hc : CharRole.of c = .plain)
    (hlive : ¬ (stack = [] ∧ closingStandsAt text (extent before).bytes closing = true)) :
    scanBytes text closing stack (extent before).bytes =
      scanBytes text closing stack (extent (before ++ [c])).bytes := by
  have hsize : 0 < c.utf8Size := c.utf8Size_pos
  have hinside : ∀ k, k < c.utf8Size →
      scanBytes text closing stack (extent before).bytes =
        scanBytes text closing stack ((extent before).bytes + k + 1) := by
    intro k hk
    -- On the bytes of the character that have been passed.
    induction k with
    | zero =>
      exact scanBytes_of_plain (lt_length_utf8 h hk) hlive
        (role_byteChar_of_plain h hc hk (lt_length_utf8 h hk))
    | succ k ih =>
      -- From the second byte on the place is inside the character, where no token stands.
      have hchar : InsideCharacter text ((extent before).bytes + (k + 1)) := by
        refine ⟨before, c, rest, h, by omega, ?_⟩
        rw [extent_append, extent_cons]
        simp only [Offset.bytes_add, Offset.ofChar]
        omega
      rw [ih (Nat.lt_of_succ_lt hk)]
      refine scanBytes_of_plain (lt_length_utf8 h hk) ?_
        (role_byteChar_of_plain h hc hk (lt_length_utf8 h hk))
      rw [Nat.add_assoc, not_closingStandsAt hchar.not_isBoundary]
      simp
  rw [hinside (c.utf8Size - 1) (by omega)]
  have hlast : (extent before).bytes + (c.utf8Size - 1) + 1 = (extent (before ++ [c])).bytes := by
    rw [extent_append, extent_cons]
    simp only [Offset.bytes_add, Offset.ofChar, extent_nil, Offset.add_zero]
    omega
  rw [hlast]

/-! ## Layer D: the loop against the scan over characters -/

variable {token inside : List Char} {nesting next : Nesting} {here : Offset} {quote : Opener}

theorem prependOutcome_append (u v : List Char) (outcome : Except Error (Option Body)) :
    prependOutcome u (prependOutcome v outcome) = prependOutcome (u ++ v) outcome := by
  rcases outcome with e | (_ | body) <;> simp

theorem scanBody_of_step (hlive : ¬ (nesting = .closed ∧ token.isPrefixOf (c :: rest) = true))
    (hstep : nesting.step here c = some next) :
    scanBody token nesting here (c :: rest) =
      prependOutcome [c] (scanBody token next (here + .ofChar c) rest) := by
  rw [scanBody, if_neg hlive]
  simp only [hstep]
  rw [← prependOutcome_nil (Except.map _ _), prependOutcome_cons, List.nil_append]

/-- A literal is read up to its own quote, and the scan goes on behind it. -/
theorem scanBody_literal (hinside : quote.symbol ∉ inside) :
    scanBody token ⟨some quote, brackets⟩ here (inside ++ quote.symbol :: rest) =
      prependOutcome (inside ++ [quote.symbol])
        (scanBody token ⟨none, brackets⟩ (here + extent (inside ++ [quote.symbol])) rest) := by
  have hopen : ∀ cs, ¬ ((⟨some quote, brackets⟩ : Nesting) = .closed ∧
      token.isPrefixOf cs = true) :=
    fun _ h => Nesting.inside_ne_closed quote brackets h.1
  -- Along the literal, in which no character matters but its own quote.
  induction inside generalizing here with
  | nil => exact scanBody_of_step (hopen _) (Nesting.step_own_quote quote brackets here)
  | cons c cs ih =>
    rw [List.mem_cons, not_or] at hinside
    rw [List.cons_append, scanBody_of_step (hopen _) (Nesting.step_inside (Ne.symm hinside.1)),
      ih hinside.2, prependOutcome_append, Offset.add_assoc]
    rfl

theorem scanBody_unterminated (hrest : quote.symbol ∉ rest) :
    scanBody token ⟨some quote, brackets⟩ here rest = .error quote.unterminated := by
  have hopen : ∀ cs, ¬ ((⟨some quote, brackets⟩ : Nesting) = .closed ∧
      token.isPrefixOf cs = true) :=
    fun _ h => Nesting.inside_ne_closed quote brackets h.1
  induction rest generalizing here with
  | nil =>
    rw [scanBody, if_neg (hopen [])]
    rfl
  | cons c cs ih =>
    rw [List.mem_cons, not_or] at hrest
    rw [scanBody_of_step (hopen _) (Nesting.step_inside (Ne.symm hrest.1)), ih hrest.2]
    rfl

theorem splitFirst_char_eq_none (h : splitFirst [c] rest = none) : c ∉ rest := by
  intro hmem
  obtain ⟨u, v, rfl⟩ := List.append_of_mem hmem
  exact splitFirst_eq_none_iff.mp h ⟨u, v, by simp⟩

theorem splitFirst_char_eq_some {u v : List Char} (h : splitFirst [c] rest = some (u, v)) :
    rest = u ++ c :: v ∧ c ∉ u := by
  obtain ⟨hrest, havoids⟩ := splitFirst_eq_some_iff.mp h
  refine ⟨by simpa using hrest, fun hmem => ?_⟩
  obtain ⟨a, b, rfl⟩ := List.append_of_mem hmem
  exact havoids a (c :: b) rfl (List.cons_ne_nil c b) (List.prefix_append [c] _)

/-- The outcome of a scan that starts at `here`, with the place of the token for the body. -/
def located (here : Offset) (outcome : Except Error (Option Body)) : Except Error (Option Nat) :=
  outcome.map (Option.map fun body => here.bytes + (extent body.text).bytes)

theorem located_prepend (here : Offset) (u : List Char) (outcome : Except Error (Option Body)) :
    located here (prependOutcome u outcome) = located (here + extent u) outcome := by
  rcases outcome with e | (_ | body)
  · rfl
  · rfl
  · simp [located, Except.map, extent_append, Nat.add_assoc]

/-- A run returns an outcome, with positions counted in bytes. -/
def Agrees (text : String) (w : Walk (Except Error (Option Nat)))
    (outcome : Except Error (Option Nat)) : Prop :=
  ∃ found, w.Returns text found ∧ inCharacters text found = outcome

theorem agrees_error {e e' : Error} (h : e.withCharPositions text = e') :
    Agrees text (pure (.error e)) (.error e') :=
  ⟨.error e, Walk.pure_returns text _, congrArg Except.error h⟩

theorem Agrees.bind {α : Type} {w : Walk α} {a : α} {go : α → Walk (Except Error (Option Nat))}
    {outcome : Except Error (Option Nat)} (hw : w.Returns text a)
    (hgo : Agrees text (go a) outcome) : Agrees text (w >>= go) outcome := by
  obtain ⟨found, hfound, houtcome⟩ := hgo
  exact ⟨found, hw.bind hfound, houtcome⟩

/-- From the end of `before` on, the loop over bytes finds what the scan over characters finds. -/
def ScansFrom (text closing : String) (before rest : List Char) (brackets : List Opener) : Prop :=
  Agrees text (scanBytes text closing (brackets.map .inBytes) (extent before).bytes)
    (located (extent before) (scanBody closing.toList ⟨none, brackets⟩ (extent before) rest))

/-- Where the text ends or the token stands, the loop has the outcome of the scan. -/
theorem scanEnd_agrees (h : text.toList = before ++ rest)
    (hplaced : ∀ opener ∈ brackets, opener.Placed text)
    (hend : rest = [] ∨ brackets = [] ∧ closing.toList.isPrefixOf rest = true) :
    Agrees text (scanEnd text closing (brackets.map .inBytes) (extent before).bytes)
      (located (extent before)
        (scanBody closing.toList ⟨none, brackets⟩ (extent before) rest)) := by
  have hstands : closingStandsAt text (extent before).bytes closing =
      closing.toList.isPrefixOf rest := closingStandsAt_eq h
  cases brackets with
  -- With nothing open, the token may stand here or not.
  | nil =>
    rw [List.map_nil, scanEnd, hstands]
    by_cases htoken : closing.toList.isPrefixOf rest = true
    · rw [if_pos htoken, scanBody.eq_def, if_pos ⟨rfl, htoken⟩]
      exact .bind (Walk.visit_returns (isBoundary_of_eq h)) ⟨_, Walk.pure_returns text _, rfl⟩
    · have hnil : rest = [] := hend.resolve_right fun hlive => htoken hlive.2
      subst hnil
      rw [if_neg htoken, scanBody, if_neg fun hlive => htoken hlive.2]
      exact ⟨_, Walk.pure_returns text _, rfl⟩
  -- With something open this is the end of the text.
  | cons opener outer =>
    have hnil : rest = [] := hend.resolve_right fun hlive => List.cons_ne_nil opener outer hlive.1
    subst hnil
    rw [List.map_cons, scanEnd, scanBody, if_neg fun hlive =>
      Nesting.open_ne_closed opener outer hlive.1]
    exact agrees_error (withCharPositions_unclosed (hplaced opener List.mem_cons_self))

/-- At the end of the text the loop ends as the scan does. -/
theorem scansFrom_end (h : text.toList = before)
    (hplaced : ∀ opener ∈ brackets, opener.Placed text) :
    ScansFrom text closing before [] brackets := by
  have hpos : ¬ (extent before).bytes < (utf8 text.toList).length := by
    rw [length_utf8, h]
    exact Nat.lt_irrefl _
  rw [ScansFrom, scanBytes, dif_neg hpos]
  exact scanEnd_agrees (by simp [h]) hplaced (.inl rfl)

/-- At the closing token, with nothing open, the loop ends as the scan does. -/
theorem scansFrom_token (h : text.toList = before ++ c :: rest)
    (hstarts : closing.toList.isPrefixOf (c :: rest) = true) :
    ScansFrom text closing before (c :: rest) [] := by
  have hstands : closingStandsAt text (extent before).bytes closing = true := by
    rw [closingStandsAt_eq h, hstarts]
  rw [ScansFrom, scanBytes, dif_pos (start_lt_length_utf8 h), if_pos ⟨List.map_nil, hstands⟩]
  exact scanEnd_agrees h (by simp) (.inr ⟨rfl, hstarts⟩)

theorem not_live_bytes (h : text.toList = before ++ c :: rest)
    (hlive : ¬ (brackets = [] ∧ closing.toList.isPrefixOf (c :: rest) = true)) :
    ¬ (brackets.map Opener.inBytes = [] ∧
      closingStandsAt text (extent before).bytes closing = true) := by
  rwa [closingStandsAt_eq h, List.map_eq_nil_iff]

theorem not_live_nesting (hlive : ¬ (brackets = [] ∧ token.isPrefixOf (c :: rest) = true)) :
    ¬ ((⟨none, brackets⟩ : Nesting) = .closed ∧ token.isPrefixOf (c :: rest) = true) := by
  rintro ⟨hclosed, hstarts⟩
  exact hlive ⟨congrArg Nesting.brackets hclosed, hstarts⟩

/-- What the scan finds behind a character, it finds from the character on. -/
theorem located_step (hlive : ¬ (brackets = [] ∧ token.isPrefixOf (c :: rest) = true))
    (hstep : (⟨none, brackets⟩ : Nesting).step (extent before) c = some next) :
    located (extent before) (scanBody token ⟨none, brackets⟩ (extent before) (c :: rest)) =
      located (extent (before ++ [c])) (scanBody token next (extent (before ++ [c])) rest) := by
  have hextent : extent before + .ofChar c = extent (before ++ [c]) := by
    rw [extent_append]
    rfl
  rw [scanBody_of_step (not_live_nesting hlive) hstep, located_prepend, hextent, extent_append]

section Character

variable (h : text.toList = before ++ c :: rest)
  (hlive : ¬ (brackets = [] ∧ closing.toList.isPrefixOf (c :: rest) = true))

include h hlive

/-- The loop steps over a plain character. -/
theorem scansFrom_plain (hc : CharRole.of c = .plain)
    (hnext : ScansFrom text closing (before ++ [c]) rest brackets) :
    ScansFrom text closing before (c :: rest) brackets := by
  rw [ScansFrom, located_step hlive (Nesting.step_plain hc),
    scanBytes_plain h hc (not_live_bytes h hlive)]
  exact hnext

/-- The loop opens a bracket, whose place counts in bytes. -/
theorem scansFrom_opener (hc : CharRole.of c = .opener)
    (hnext : ScansFrom text closing (before ++ [c]) rest (⟨c, extent before⟩ :: brackets)) :
    ScansFrom text closing before (c :: rest) brackets := by
  have hplain : CharRole.of c ≠ .plain := by simp [hc]
  rw [ScansFrom, located_step hlive (Nesting.step_opener hc), scanBytes,
    dif_pos (start_lt_length_utf8 h), if_neg (not_live_bytes h hlive)]
  simp only [byteChar_of_not_plain h hplain, hc]
  rw [← bytes_extent_concat hplain]
  exact hnext

/-- A closing bracket closes the innermost open bracket, or ends the loop with a fault. -/
theorem scansFrom_closer (hc : CharRole.of c = .closer)
    (hplaced : ∀ opener ∈ brackets, opener.Placed text)
    (hnext : ∀ opener outer, brackets = opener :: outer →
      ScansFrom text closing (before ++ [c]) rest outer) :
    ScansFrom text closing before (c :: rest) brackets := by
  have hplain : CharRole.of c ≠ .plain := by simp [hc]
  have hhere : Opener.Placed text ⟨c, extent before⟩ := placed_extent h c
  rw [ScansFrom, scanBytes, dif_pos (start_lt_length_utf8 h), if_neg (not_live_bytes h hlive)]
  simp only [byteChar_of_not_plain h hplain, hc]
  cases brackets with
  -- There is nothing to close.
  | nil =>
    have hstep : (⟨none, []⟩ : Nesting).step (extent before) c = none := by
      simp [Nesting.step, hc]
    rw [scanBody, if_neg (not_live_nesting hlive)]
    simp only [hstep]
    exact agrees_error (withCharPositions_unopened hhere)
  | cons opener outer =>
    have hopener : opener.Placed text := hplaced opener List.mem_cons_self
    have hsame : opener.inBytes.closedBy c = opener.closedBy c := rfl
    simp only [List.map_cons, hsame]
    -- The bracket is closed, or the fault depends on whether the token stands here.
    by_cases hclosed : opener.closedBy c = true
    · have hstep : (⟨none, opener :: outer⟩ : Nesting).step (extent before) c =
          some ⟨none, outer⟩ := by
        simp [Nesting.step, hc, hclosed]
      rw [if_pos hclosed, located_step hlive hstep, ← bytes_extent_concat hplain]
      exact hnext opener outer rfl
    · have hstep : (⟨none, opener :: outer⟩ : Nesting).step (extent before) c = none := by
        simp [Nesting.step, hc, hclosed]
      rw [if_neg hclosed, scanBody, if_neg (not_live_nesting hlive), closingStandsAt_eq h]
      simp only [hstep]
      by_cases hstarts : closing.toList.isPrefixOf (c :: rest) = true
      · rw [if_pos hstarts, hstarts]
        exact agrees_error (withCharPositions_unclosed hopener)
      · rw [if_neg hstarts, Bool.not_eq_true _ |>.mp hstarts]
        exact agrees_error (withCharPositions_mismatched hhere hopener)

/-- A literal is jumped over, and the loop goes on behind its closing quote. -/
theorem scansFrom_quote (hc : CharRole.of c = .quote)
    (hnext : ∀ inside after, rest = inside ++ c :: after →
      ScansFrom text closing (before ++ c :: (inside ++ [c])) after brackets) :
    ScansFrom text closing before (c :: rest) brackets := by
  have hplain : CharRole.of c ≠ .plain := by simp [hc]
  have hbehind : text.toList = (before ++ [c]) ++ rest := by simp [h]
  rw [ScansFrom, located_step hlive (Nesting.step_quote hc), scanBytes,
    dif_pos (start_lt_length_utf8 h), if_neg (not_live_bytes h hlive)]
  simp only [byteChar_of_not_plain h hplain, hc]
  rw [← bytes_extent_concat hplain]
  apply Agrees.bind (Walk.sliceFrom_returns hbehind)
  cases hsplit : splitFirst [c] rest with
  -- The quote does not occur again.
  | none =>
    rw [scanBody_unterminated (splitFirst_char_eq_none hsplit)]
    exact agrees_error (withCharPositions_unterminated (placed_extent h c))
  | some sides =>
    obtain ⟨inside, after⟩ := sides
    obtain ⟨rfl, hinside⟩ := splitFirst_char_eq_some hsplit
    -- The closing quote, and the place behind it.
    have hquote : text.toList = (before ++ c :: inside) ++ c :: after := by simp [h]
    have hpast : text.toList = (before ++ c :: (inside ++ [c])) ++ after := by simp [h]
    have hat : (extent (before ++ [c])).bytes + (extent inside).bytes =
        (extent (before ++ c :: inside)).bytes := by
      rw [← Offset.bytes_add, ← extent_append, List.append_assoc, List.singleton_append]
    have hnext := hnext inside after rfl
    simp only [hat]
    rw [← bytes_extent_concat hplain, scanBody_literal hinside, located_prepend, ← extent_append]
    simp only [List.append_assoc, List.cons_append, List.nil_append]
    apply Agrees.bind (Walk.visit_returns (isBoundary_of_eq hquote))
    apply Agrees.bind (Walk.visit_returns (isBoundary_of_eq hpast))
    exact hnext

end Character

/-- **From a boundary, the loop over bytes finds what the scan over characters finds.**  It does not
stop, and whatever it computes is a boundary. -/
theorem scansFrom (h : text.toList = before ++ rest)
    (hplaced : ∀ opener ∈ brackets, opener.Placed text) :
    ScansFrom text closing before rest brackets := by
  -- The induction is on the length of the rest: a literal is jumped over at once.
  induction hn : rest.length using Nat.strongRecOn generalizing before rest brackets with
  | ind n ih =>
    cases rest with
    | nil => exact scansFrom_end (by simpa using h) hplaced
    | cons c cs =>
      have hcs : cs.length < n := by
        rw [← hn]
        exact Nat.lt_succ_self _
      have hbehind : text.toList = (before ++ [c]) ++ cs := by simp [h]
      by_cases hlive : brackets = [] ∧ closing.toList.isPrefixOf (c :: cs) = true
      · obtain ⟨rfl, hstarts⟩ := hlive
        exact scansFrom_token h hstarts
      · cases hc : CharRole.of c with
        | plain => exact scansFrom_plain h hlive hc (ih _ hcs hbehind hplaced rfl)
        | opener =>
          have hall := List.forall_mem_cons.mpr ⟨placed_extent h c, hplaced⟩
          exact scansFrom_opener h hlive hc (ih _ hcs hbehind hall rfl)
        | closer =>
          apply scansFrom_closer h hlive hc hplaced
          rintro opener outer rfl
          exact ih _ hcs hbehind (fun o ho => hplaced o (List.mem_cons_of_mem _ ho)) rfl
        | quote =>
          apply scansFrom_quote h hlive hc
          rintro inside after rfl
          have hlen : after.length < n := by
            simp only [List.length_append, List.length_cons] at hcs
            omega
          exact ih _ hlen (by simp [h]) hplaced rfl

/-! ## Main results -/

/-- **From a boundary the search does not stop, and finds the closing token.** -/
theorem skipToClosing_returns (h : text.toList = before ++ rest) :
    (skipToClosing text (extent before).bytes closing).Returns text
      (located (extent before) (bodyOf closing.toList (extent before) rest)) := by
  refine Walk.Returns.bind (Walk.sliceFrom_returns h) ?_
  rw [bodyOf]
  split
  · have hscans : ScansFrom text closing before rest [] := scansFrom h (by simp)
    obtain ⟨found, hfound, houtcome⟩ := hscans
    rw [Nesting.closed, ← houtcome]
    exact hfound.bind (Walk.pure_returns text _)
  · exact Walk.pure_returns text _

end Interpolation
