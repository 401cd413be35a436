import Interpolation.Proofs.Scan

/-!
# The closing token of an expression, by byte offsets

What the search for a closing token answers, in terms of the text alone: which occurrence of the
token it takes, when it takes none, and which fault it reports where.

## Main definitions

- `Live`: a closing token that counts.
- `ScanFault`: the faults of an expression, each with the stretches of the text that make it one.

## Main results

- `findClosing_eq_some_iff`: the token that is taken is the first live one.
- `findClosing_failure_iff`: every other outcome, exactly.
-/

namespace Interpolation

/-- A closing token that counts: it stands at `pos`, and the text from `start` up to there is
balanced. -/
def Live (text closing : String) (start pos : Nat) : Prop :=
  StandsAt text pos closing.toList ∧ ∃ u, IsSlice text start pos u ∧ Balanced u

/-- What is wrong with the expression that starts at byte offset `start`.  Spans are in bytes,
positions in characters, and no closing token is live up to where the fault shows. -/
inductive ScanFault (text closing : String) (start : Nat) : Error → Prop where
  /-- A closing bracket has a balanced text in front, and its partner is missing. -/
  | unopened {p : Nat} {u : List Char} {partner c : Char} :
      IsSlice text start p u → Balanced u →
      StandsAt text p [c] → Partners partner c →
      (∀ q ≤ p, ¬ Live text closing start q) →
      ScanFault text closing start
        (.spanned (.unbalancedCloser (charOffset text p) c partner) (.ofLength p 1))
  /-- A closing bracket meets an opening one that is not its partner. -/
  | mismatched {o p : Nat} {u w : List Char} {a c : Char} :
      IsSlice text start o u → OpenPrefix u →
      StandsAt text o [a] → CharRole.of a = .opener →
      IsSlice text (o + 1) p w → Balanced w →
      StandsAt text p [c] → CharRole.of c = .closer → ¬ Partners a c →
      ¬ StandsAt text p closing.toList →
      (∀ q ≤ p, ¬ Live text closing start q) →
      ScanFault text closing start
        (.spanned (.mismatchedCloser (charOffset text p) c a (charOffset text o)) (.ofLength p 1))
  /-- An opening bracket is still open where the text ends, or where the closing token stands and
  is itself a closing bracket, but not the partner.  The partner is what is missing. -/
  | unclosed {o stop : Nat} {u w : List Char} {a partner : Char} :
      IsSlice text start o u → OpenPrefix u →
      StandsAt text o [a] → Partners a partner →
      IsSlice text (o + 1) stop w → Balanced w →
      (stop = text.utf8ByteSize ∨
        ∃ c, StandsAt text stop [c] ∧ CharRole.of c = .closer ∧ ¬ Partners a c ∧
          StandsAt text stop closing.toList) →
      (∀ q ≤ stop, ¬ Live text closing start q) →
      ScanFault text closing start
        (.spanned (.unbalancedOpener (charOffset text o) a partner) (.ofLength o 1))
  /-- A quote has no other one behind it. -/
  | unterminated {p : Nat} {u : List Char} {quote : Char} :
      IsSlice text start p u → OpenPrefix u →
      StandsAt text p [quote] → CharRole.of quote = .quote →
      (∀ r > p, ¬ StandsAt text r [quote]) →
      (∀ q ≤ p, ¬ Live text closing start q) →
      ScanFault text closing start
        ((Error.spanned (.unterminatedLiteral (charOffset text p) quote) (.ofLength p 1)).withHelp
          "string literals must be closed with the same quote character")

variable {text closing : String} {before behind u w rest : List Char} {a c : Char} {o p start : Nat}

/-! ## Layer A: offsets against characters -/

theorem extent_add_extent_eq (h : text.toList = before ++ (u ++ rest)) :
    extent before + extent u =
      ⟨(extent (before ++ u)).bytes, charOffset text (extent (before ++ u)).bytes⟩ := by
  rw [← List.append_assoc] at h
  rw [charOffset_eq h, ← extent_append]
  exact Offset.ext rfl (chars_extent _)

theorem bytes_extent_concat (hc : CharRole.of c ≠ .plain) (v : List Char) :
    (extent (v ++ [c])).bytes = (extent v).bytes + 1 := by
  rw [extent_append, Offset.bytes_add, extent_cons, extent_nil, Offset.add_zero]
  simp only [Offset.ofChar, CharRole.utf8Size_eq_one hc]

/-- A character stands where the rest of the text starts with it. -/
theorem standsAt_char_iff (h : text.toList = before ++ behind) :
    StandsAt text (extent before).bytes [c] ↔ ∃ cs, behind = c :: cs := by
  rw [standsAt_iff h]
  constructor
  · rintro ⟨cs, hcs⟩
    exact ⟨cs, hcs.symm⟩
  · rintro ⟨cs, rfl⟩
    exact ⟨cs, rfl⟩

/-- A slice with a character behind it. -/
theorem isSlice_char_iff (h : text.toList = before ++ behind) :
    IsSlice text (extent before).bytes p u ∧ StandsAt text p [c] ↔
      ∃ cs, behind = u ++ c :: cs ∧ p = (extent (before ++ u)).bytes := by
  rw [isSlice_iff h]
  constructor
  · rintro ⟨⟨⟨r, rfl⟩, rfl⟩, hstands⟩
    rw [← List.append_assoc] at h
    obtain ⟨cs, rfl⟩ := (standsAt_char_iff h).mp hstands
    exact ⟨cs, rfl, rfl⟩
  · rintro ⟨cs, rfl, rfl⟩
    rw [← List.append_assoc] at h
    exact ⟨⟨List.prefix_append u _, rfl⟩, (standsAt_char_iff h).mpr ⟨cs, rfl⟩⟩

/-- Two slices with an opening bracket between them. -/
theorem isSlice_opener_iff (h : text.toList = before ++ behind) (ha : CharRole.of a = .opener) :
    (IsSlice text (extent before).bytes o u ∧ StandsAt text o [a]) ∧ IsSlice text (o + 1) p w ↔
      ∃ r, behind = (u ++ a :: w) ++ r ∧ o = (extent (before ++ u)).bytes ∧
        p = (extent (before ++ (u ++ a :: w))).bytes := by
  have hplain : CharRole.of a ≠ .plain := by simp [ha]
  rw [isSlice_char_iff h]
  constructor
  · rintro ⟨⟨cs, rfl, rfl⟩, hslice⟩
    -- The bracket takes up one byte, so the second slice starts right behind it.
    have hcut : text.toList = (before ++ u ++ [a]) ++ cs := by simp [h]
    rw [← bytes_extent_concat hplain, isSlice_iff hcut] at hslice
    obtain ⟨⟨r, rfl⟩, hstop⟩ := hslice
    exact ⟨r, by simp, rfl, by simpa using hstop.symm⟩
  · rintro ⟨r, rfl, rfl, rfl⟩
    have hcut : text.toList = (before ++ u ++ [a]) ++ (w ++ r) := by simp [h]
    refine ⟨⟨w ++ r, by simp, rfl⟩, ?_⟩
    rw [← bytes_extent_concat hplain, isSlice_iff hcut]
    exact ⟨List.prefix_append w r, by simp⟩

/-! ## Layer B: live tokens against the scan -/

/-- A live token, as a balanced beginning of the rest with the token behind it. -/
theorem live_iff (h : text.toList = before ++ behind) :
    Live text closing (extent before).bytes p ↔
      ∃ v, v ++ closing.toList <+: behind ∧ Balanced v ∧ (extent (before ++ v)).bytes = p := by
  constructor
  · rintro ⟨hstands, v, hslice, hbalanced⟩
    obtain ⟨⟨r, rfl⟩, rfl⟩ := (isSlice_iff h).mp hslice
    rw [← List.append_assoc] at h
    rw [standsAt_iff h] at hstands
    exact ⟨v, (List.prefix_append_right_inj v).mpr hstands, hbalanced, rfl⟩
  · rintro ⟨v, ⟨r, rfl⟩, hbalanced, rfl⟩
    rw [List.append_assoc] at h
    have hcut : text.toList = (before ++ v) ++ (closing.toList ++ r) := by simp [h]
    exact ⟨(standsAt_iff hcut).mpr (List.prefix_append _ _), v,
      (isSlice_iff h).mpr ⟨List.prefix_append v _, rfl⟩, hbalanced⟩

/-- Live at the end of a beginning of the text. -/
theorem live_here_iff (h : text.toList = before ++ (u ++ rest)) :
    Live text closing (extent before).bytes (extent (before ++ u)).bytes ↔
      Balanced u ∧ closing.toList <+: rest := by
  rw [live_iff h]
  constructor
  · rintro ⟨v, ⟨r, hr⟩, hbalanced, hbytes⟩
    have hsplit : (before ++ v) ++ (closing.toList ++ r) = (before ++ u) ++ rest := by
      simp only [List.append_assoc] at hr ⊢
      rw [hr]
    -- A text comes apart at one byte offset in one way only.
    obtain ⟨hv, hrest⟩ := eq_of_bytes_eq hsplit hbytes
    rw [List.append_cancel_left hv] at hbalanced
    exact ⟨hbalanced, r, hrest⟩
  · rintro ⟨hbalanced, hstarts⟩
    exact ⟨u, (List.prefix_append_right_inj u).mpr hstarts, hbalanced, rfl⟩

/-- No live token in front of a place, as the scan knows it. -/
theorem forall_lt_not_live_iff (h : text.toList = before ++ (u ++ rest)) :
    (∀ q < (extent (before ++ u)).bytes, ¬ Live text closing (extent before).bytes q) ↔
      NoneLive closing.toList u rest := by
  constructor
  · rintro hdead v w rfl hw hbalanced hstarts
    have hlt : (extent (before ++ v)).bytes < (extent (before ++ (v ++ w))).bytes := by
      rw [← List.append_assoc]
      exact bytes_extent_lt_append hw (before ++ v)
    rw [List.append_assoc] at h
    exact hdead _ hlt ((live_here_iff h).mpr ⟨hbalanced, hstarts⟩)
  · intro hnone q hq hlive
    obtain ⟨v, ⟨r, hr⟩, hbalanced, rfl⟩ := (live_iff h).mp hlive
    -- The live token starts inside `u`, since it starts in front of its end.
    have hsplit : (before ++ v) ++ (closing.toList ++ r) = (before ++ u) ++ rest := by
      simp only [List.append_assoc] at hr ⊢
      rw [hr]
    have hstarts := prefix_of_bytes_le hsplit (Nat.le_of_lt hq)
    obtain ⟨w, rfl⟩ := (List.prefix_append_right_inj before).mp hstarts
    have hw : w ≠ [] := by
      rintro rfl
      simp at hq
    rw [List.append_assoc, List.append_assoc] at hr
    exact hnone v w rfl hw hbalanced ⟨r, List.append_cancel_left hr⟩

/-- No live token up to a place, the place included. -/
theorem forall_le_not_live_iff (h : text.toList = before ++ (u ++ rest)) :
    (∀ q ≤ (extent (before ++ u)).bytes, ¬ Live text closing (extent before).bytes q) ↔
      NoneLive closing.toList u rest ∧ (Balanced u → ¬ closing.toList <+: rest) := by
  rw [← forall_lt_not_live_iff h]
  constructor
  · intro hdead
    refine ⟨fun q hq => hdead q (Nat.le_of_lt hq), fun hbalanced hstarts => ?_⟩
    exact hdead _ (Nat.le_refl _) ((live_here_iff h).mpr ⟨hbalanced, hstarts⟩)
  · -- In front of the place, or at the place itself.
    rintro ⟨hdead, hhere⟩ q hq hlive
    rcases Nat.lt_or_eq_of_le hq with hlt | rfl
    · exact hdead q hlt hlive
    · obtain ⟨hbalanced, hstarts⟩ := (live_here_iff h).mp hlive
      exact hhere hbalanced hstarts

/-- A character stands nowhere behind a place exactly if the rest of the text does not hold it. -/
theorem forall_gt_not_standsAt_iff (h : text.toList = before ++ a :: rest) :
    (∀ r > (extent before).bytes, ¬ StandsAt text r [c]) ↔ c ∉ rest := by
  refine ⟨?_, ?_⟩
  · intro hnowhere hmem
    obtain ⟨s, t, rfl⟩ := List.append_of_mem hmem
    have hcut : text.toList = (before ++ a :: s) ++ c :: t := by simp [h]
    have hlt := bytes_extent_lt_append (List.cons_ne_nil a s) before
    exact hnowhere _ hlt ((standsAt_char_iff hcut).mpr ⟨t, rfl⟩)
  · intro hmem r hr hstands
    obtain ⟨front, back, hcut, rfl⟩ := hstands
    rw [h, List.append_assoc] at hcut
    -- The other occurrence is behind `before`, and so in `rest`.
    obtain ⟨v, rfl⟩ := prefix_of_bytes_le hcut (Nat.le_of_lt hr)
    rw [List.append_assoc] at hcut
    have hrest := List.append_cancel_left hcut
    cases v with
    | nil => simp at hr
    | cons d v =>
      rw [List.cons_append, List.cons.injEq] at hrest
      rw [hrest.2] at hmem
      simp at hmem

/-! ## Layer C: faults against the ends of a scan -/

theorem unopened_eq (h : text.toList = before ++ (u ++ rest)) (hpair : Partners a c) :
    Opener.unopened ⟨c, extent before + extent u⟩ =
      .spanned (.unbalancedCloser (charOffset text (extent (before ++ u)).bytes) c a)
        (.ofLength (extent (before ++ u)).bytes 1) := by
  rw [Opener.unopened, Opener.span, extent_add_extent_eq h, hpair.openerOf_eq]

theorem unclosed_eq (h : text.toList = before ++ (u ++ rest)) (hpair : Partners a c) :
    Opener.unclosed ⟨a, extent before + extent u⟩ =
      .spanned (.unbalancedOpener (charOffset text (extent (before ++ u)).bytes) a c)
        (.ofLength (extent (before ++ u)).bytes 1) := by
  rw [Opener.unclosed, Opener.span, extent_add_extent_eq h, hpair.closerOf_eq]

theorem unterminated_eq (h : text.toList = before ++ (u ++ rest)) (quote : Char) :
    Opener.unterminated ⟨quote, extent before + extent u⟩ =
      (Error.spanned (.unterminatedLiteral (charOffset text (extent (before ++ u)).bytes) quote)
        (.ofLength (extent (before ++ u)).bytes 1)).withHelp
        "string literals must be closed with the same quote character" := by
  rw [Opener.unterminated, Opener.span, extent_add_extent_eq h]

theorem mismatched_eq {v behind : List Char} (h : text.toList = before ++ (v ++ rest))
    (hu : text.toList = before ++ (u ++ behind)) (a c : Char) :
    Opener.mismatched ⟨c, extent before + extent v⟩ ⟨a, extent before + extent u⟩ =
      .spanned (.mismatchedCloser (charOffset text (extent (before ++ v)).bytes) c a
        (charOffset text (extent (before ++ u)).bytes))
        (.ofLength (extent (before ++ v)).bytes 1) := by
  rw [Opener.mismatched, Opener.span, extent_add_extent_eq h, extent_add_extent_eq hu]

theorem step_misfit {opener : Opener} (hc : CharRole.of c = .closer)
    (hne : c ≠ closerOf opener.symbol) (outer : List Opener) (here : Offset) :
    (⟨none, opener :: outer⟩ : Nesting).step here c = none := by
  refine Nesting.step_eq_none_iff.mpr ⟨rfl, hc, ?_⟩
  intro inner outer' heq
  cases heq
  simp [Opener.closedBy, Ne.symm hne]

/-- With a bracket open, a closing bracket that is not its partner ends the scan. -/
theorem stop_misfit (opener : Opener) (outer : List Opener) (here : Offset)
    (hc : CharRole.of c = .closer) (hne : c ≠ closerOf opener.symbol) :
    Stop closing.toList ⟨none, opener :: outer⟩ here (c :: rest)
      (.error ((⟨none, opener :: outer⟩ : Nesting).misfit ⟨c, here⟩
        (closing.toList.isPrefixOf (c :: rest)))) := by
  refine .misfit ?_ (step_misfit hc hne outer here)
  intro hlive
  exact absurd hlive.1 (Nesting.open_ne_closed opener outer)

theorem forall_le_not_live_of_reached {nesting : Nesting} (h : text.toList = before ++ (u ++ rest))
    (hscanned : Scanned closing.toList (extent before) u nesting rest)
    (hopen : nesting ≠ .closed) :
    ∀ q ≤ (extent (before ++ u)).bytes, ¬ Live text closing (extent before).bytes q := by
  refine (forall_le_not_live_iff h).mpr ⟨hscanned.noneLive, ?_⟩
  intro hbalanced
  exact absurd hbalanced (hscanned.reached.not_balanced hopen)

/-- A scan that runs out of text with something open reports a fault of the text. -/
theorem scanFault_of_unfinished {nesting : Nesting} {e : Error} (h : text.toList = before ++ u)
    (hscanned : Scanned closing.toList (extent before) u nesting [])
    (hopen : nesting.unfinished? = some e) : ScanFault text closing (extent before).bytes e := by
  cases hscanned.reached with
  | @outside _ brackets hopened =>
    cases brackets with
    | nil => cases hopen
    | cons opener outer =>
      cases hopen
      have hall : text.toList = before ++ (u ++ []) := by simp [h]
      have hdead :=
        forall_le_not_live_of_reached hall hscanned (Nesting.open_ne_closed opener outer)
      obtain ⟨v, w, rfl, hplace, houter, ho, hw⟩ := Opened.cons_iff.mp hopened
      obtain ⟨⟨hslice, hstands⟩, hrest⟩ := (isSlice_opener_iff (u := v) (w := w) h ho).mpr
        ⟨[], by simp, rfl, rfl⟩
      -- The end of the text is where the scan has come to.
      rw [← h, bytes_extent_toList] at hdead hrest
      obtain ⟨a, place⟩ := opener
      dsimp only at hplace
      have hpair := partners_iff.mpr ⟨ho, rfl⟩
      rw [hplace, unclosed_eq h hpair]
      exact .unclosed hslice houter.openPrefix hstands hpair hrest hw (.inl rfl) hdead
  -- The quote has no other one behind it, and no token counts inside the literal.
  | @inside v inside brackets quote hopened hquote hinside =>
    cases hopen
    have hcut : text.toList = (before ++ v) ++ quote :: inside := by simp [h]
    obtain ⟨hslice, hstands⟩ := (isSlice_char_iff h).mpr ⟨inside, rfl, rfl⟩
    obtain ⟨hnone, hhere⟩ := noneLive_append_iff.mp hscanned.noneLive
    rw [List.append_nil] at hnone
    have hdead := (forall_le_not_live_iff h).mpr ⟨hnone, fun hbalanced => by
      simpa using hhere [] (quote :: inside) rfl (List.cons_ne_nil _ _) (by simpa using hbalanced)⟩
    rw [unterminated_eq h]
    exact .unterminated hslice hopened.openPrefix hstands hquote
      ((forall_gt_not_standsAt_iff hcut).mpr hinside) hdead

/-- A scan that meets a closing bracket without its partner reports a fault of the text. -/
theorem scanFault_of_misfit {nesting : Nesting} (h : text.toList = before ++ (u ++ c :: rest))
    (hscanned : Scanned closing.toList (extent before) u nesting (c :: rest))
    (hlive : ¬ (nesting = .closed ∧ closing.toList <+: c :: rest))
    (hstep : nesting.step (extent before + extent u) c = none) :
    ScanFault text closing (extent before).bytes
      (nesting.misfit ⟨c, extent before + extent u⟩ (closing.toList.isPrefixOf (c :: rest))) := by
  obtain ⟨hquote, hc, hpartner⟩ := Nesting.step_eq_none_iff.mp hstep
  have hcut : text.toList = (before ++ u) ++ c :: rest := by simp [h]
  obtain ⟨hslice, hstands⟩ := (isSlice_char_iff h).mpr ⟨rest, rfl, rfl⟩
  cases hscanned.reached with
  | inside => cases hquote
  | @outside _ brackets hopened =>
    cases brackets with
    -- Nothing is open, so the bracket has no partner.
    | nil =>
      have hdead := (forall_le_not_live_iff h).mpr
        ⟨hscanned.noneLive, fun _ hstarts => hlive ⟨rfl, hstarts⟩⟩
      obtain ⟨partner, hpair⟩ := exists_partners hc
      rw [Nesting.misfit_nil, unopened_eq h hpair]
      exact .unopened hslice (Opened.nil_iff.mp hopened) hstands hpair hdead
    -- The innermost open bracket has another partner.
    | cons opener outer =>
      have hdead := forall_le_not_live_of_reached h hscanned (Nesting.open_ne_closed opener outer)
      have hne : c ≠ closerOf opener.symbol := by
        rintro rfl
        simpa [Opener.closedBy] using hpartner opener outer rfl
      obtain ⟨v, w, rfl, hplace, houter, ho, hw⟩ := Opened.cons_iff.mp hopened
      obtain ⟨⟨hbefore, hopener⟩, hafter⟩ := (isSlice_opener_iff (u := v) (w := w) h ho).mpr
        ⟨c :: rest, by simp, rfl, rfl⟩
      have hv : text.toList = before ++ (v ++ opener.symbol :: (w ++ c :: rest)) := by simp [h]
      obtain ⟨a, place⟩ := opener
      dsimp only at hplace
      subst hplace
      have hother : ¬ Partners a c := (not_partners_iff ho).mpr hne
      -- Whose fault it is depends on whether the token stands where the bracket does.
      by_cases hstarts : closing.toList <+: c :: rest
      · have hpair := partners_iff.mpr ⟨ho, rfl⟩
        rw [List.isPrefixOf_iff_prefix.mpr hstarts, Nesting.misfit_cons_true, unclosed_eq hv hpair]
        exact .unclosed hbefore houter.openPrefix hopener hpair hafter hw
          (.inr ⟨c, hstands, hc, hother, (standsAt_iff hcut).mpr hstarts⟩) hdead
      · have hat : closing.toList.isPrefixOf (c :: rest) = false := by
          rw [← Bool.not_eq_true, List.isPrefixOf_iff_prefix]
          exact hstarts
        rw [hat, Nesting.misfit_cons_false, mismatched_eq h hv]
        exact .mismatched hbefore houter.openPrefix hopener ho hafter hw hstands hc hother
          (fun hstands => hstarts ((standsAt_iff hcut).mp hstands)) hdead

/-- What the text shows of a fault leads the scan to it. -/
theorem ScanFault.exists_stop {e : Error} (h : text.toList = before ++ behind)
    (hfault : ScanFault text closing (extent before).bytes e) :
    ∃ u nesting rest, behind = u ++ rest ∧
      Scanned closing.toList (extent before) u nesting rest ∧
      Stop closing.toList nesting (extent before + extent u) rest (.error e) := by
  cases hfault with
  | @unopened p u partner c hslice hbalanced hstands hpair hdead =>
    obtain ⟨cs, rfl, rfl⟩ := (isSlice_char_iff h).mp ⟨hslice, hstands⟩
    obtain ⟨hnone, hhere⟩ := (forall_le_not_live_iff h).mp hdead
    -- With nothing open a closing bracket has no place.
    have hstep : Nesting.closed.step (extent before + extent u) c = none := by
      refine Nesting.step_eq_none_iff.mpr ⟨rfl, hpair.closer, ?_⟩
      intro opener outer hbrackets
      cases hbrackets
    refine ⟨u, .closed, c :: cs, rfl, ⟨.outside (.balanced hbalanced), hnone⟩, ?_⟩
    rw [← unopened_eq h hpair]
    exact .misfit (fun hlive => hhere hbalanced hlive.2) hstep
  | @mismatched o p u w a c hbefore hopen hopener ha hafter hw hstands hc hother htoken hdead =>
    have hne := (not_partners_iff ha).mp hother
    obtain ⟨r, rfl, rfl, rfl⟩ := (isSlice_opener_iff h ha).mp ⟨⟨hbefore, hopener⟩, hafter⟩
    obtain ⟨outer, houter⟩ := hopen.exists_opened (extent before)
    have hcut : text.toList = (before ++ (u ++ a :: w)) ++ r := by simp [h]
    obtain ⟨cs, rfl⟩ := (standsAt_char_iff hcut).mp hstands
    have hu : text.toList = before ++ (u ++ a :: (w ++ c :: cs)) := by simp [h]
    have hat : closing.toList.isPrefixOf (c :: cs) = false := by
      rw [← Bool.not_eq_true, List.isPrefixOf_iff_prefix, ← standsAt_iff hcut]
      exact htoken
    -- The token does not stand at the bracket, so the bracket is at fault.
    have hstop : Stop closing.toList _ _ (c :: cs) _ :=
      stop_misfit ⟨a, extent before + extent u⟩ outer (extent before + extent (u ++ a :: w)) hc hne
    rw [hat, Nesting.misfit_cons_false] at hstop
    refine ⟨_, _, _, rfl, ⟨.outside (houter.opener ha hw),
      ((forall_le_not_live_iff h).mp hdead).1⟩, ?_⟩
    rw [← mismatched_eq h hu]
    exact hstop
  | @unclosed o stop u w a partner hbefore hopen hopener hpair hafter hw hend hdead =>
    have ha := hpair.opener
    obtain ⟨r, rfl, rfl, rfl⟩ := (isSlice_opener_iff h ha).mp ⟨⟨hbefore, hopener⟩, hafter⟩
    obtain ⟨outer, houter⟩ := hopen.exists_opened (extent before)
    have hcut : text.toList = (before ++ (u ++ a :: w)) ++ r := by simp [h]
    have hu : text.toList = before ++ (u ++ a :: (w ++ r)) := by simp [h]
    refine ⟨_, _, _, rfl, ⟨.outside (houter.opener ha hw),
      ((forall_le_not_live_iff h).mp hdead).1⟩, ?_⟩
    rw [← unclosed_eq hu hpair]
    -- The text ends, or the token stands at the bracket.
    rcases hend with hend | ⟨c, hstands, hc, hother, htoken⟩
    · have hr : r = [] := by
        by_contra hr
        have hlt := bytes_extent_lt_append hr (before ++ (u ++ a :: w))
        rw [← hcut, bytes_extent_toList] at hlt
        omega
      rw [hr]
      exact .unfinished rfl
    · obtain ⟨cs, rfl⟩ := (standsAt_char_iff hcut).mp hstands
      have hat : closing.toList.isPrefixOf (c :: cs) = true := by
        rw [List.isPrefixOf_iff_prefix, ← standsAt_iff hcut]
        exact htoken
      have hstop : Stop closing.toList _ _ (c :: cs) _ :=
        stop_misfit ⟨a, extent before + extent u⟩ outer (extent before + extent (u ++ a :: w)) hc
          ((not_partners_iff ha).mp hother)
      rw [hat, Nesting.misfit_cons_true] at hstop
      exact hstop
  | @unterminated p u quote hslice hopen hstands hquote hnowhere hdead =>
    obtain ⟨cs, rfl, rfl⟩ := (isSlice_char_iff h).mp ⟨hslice, hstands⟩
    obtain ⟨outer, houter⟩ := hopen.exists_opened (extent before)
    obtain ⟨hnone, hhere⟩ := (forall_le_not_live_iff h).mp hdead
    have hcut : text.toList = (before ++ u) ++ quote :: cs := by simp [h]
    have hinside : quote ∉ cs := (forall_gt_not_standsAt_iff hcut).mp hnowhere
    -- No token counts inside the literal either.
    have hlater : NoneLive closing.toList (u ++ quote :: cs) [] := by
      refine noneLive_append_iff.mpr ⟨by simpa using hnone, ?_⟩
      intro v w hvw hw hbalanced
      cases v with
      | nil =>
        rw [List.nil_append] at hvw
        rw [List.append_nil, ← hvw]
        exact hhere (by simpa using hbalanced)
      | cons d v =>
        -- Past the quote the text is inside the literal, and never balanced.
        rw [List.cons_append, List.cons.injEq] at hvw
        obtain ⟨rfl, rfl⟩ := hvw
        have hv : quote ∉ v := fun hmem => hinside (List.mem_append_left w hmem)
        exact absurd hbalanced
          ((Reached.inside houter hquote hv).not_balanced (Nesting.inside_ne_closed _ outer))
    refine ⟨_, _, [], (List.append_nil _).symm, ⟨.inside houter hquote hinside, hlater⟩, ?_⟩
    rw [← unterminated_eq h]
    exact .unfinished rfl

/-- A scan reports a fault exactly if the text has it. -/
theorem scanBody_eq_error_iff {e : Error} (h : text.toList = before ++ behind) :
    scanBody closing.toList .closed (extent before) behind = .error e ↔
      ScanFault text closing (extent before).bytes e := by
  rw [scanBody_eq_iff]
  refine ⟨?_, ?_⟩
  · rintro ⟨u, nesting, rest, found, rfl, hscanned, hstop, hfound⟩
    cases hstop with
    | token => cases hfound
    | exhausted => cases hfound
    | unfinished hopen =>
      cases hfound
      rw [List.append_nil] at h
      exact scanFault_of_unfinished h hscanned hopen
    | misfit hlive hstep =>
      cases hfound
      exact scanFault_of_misfit h hscanned hlive hstep
  · intro hfault
    obtain ⟨u, nesting, rest, rfl, hscanned, hstop⟩ := hfault.exists_stop h
    exact ⟨u, nesting, rest, _, rfl, hscanned, hstop, rfl⟩

/-! ## Main results -/

/-- Where a text cannot be cut, no slice of it starts. -/
theorem cutAt_eq_none_iff :
    cutAt start text.toList = none ↔ ∀ stop u, ¬ IsSlice text start stop u := by
  refine ⟨?_, ?_⟩
  · rintro hcut stop u ⟨front, back, htext, rfl, -⟩
    rw [htext, List.append_assoc, cutAt_append] at hcut
    cases hcut
  · intro hslice
    by_contra hcut
    obtain ⟨⟨front, back⟩, hhalves⟩ := Option.ne_none_iff_exists'.mp hcut
    obtain ⟨htext, rfl⟩ := cutAt_eq_some_iff.mp hhalves
    exact hslice _ back ((isSlice_iff htext).mpr ⟨List.prefix_refl back, rfl⟩)

/-- The search is for a body behind `start`, and the answer is where the body ends. -/
theorem findClosing_eq (h : text.toList = before ++ behind) :
    findClosing text (extent before).bytes closing =
      match bodyOf closing.toList (extent before) behind with
      | .error e => .error (.malformed e)
      | .ok body? =>
        .ok (body?.map fun body => (extent before).bytes + (extent body.text).bytes) := by
  have hcut : cutAt (extent before).bytes text.toList = some (before, behind) :=
    cutAt_eq_some_iff.mpr ⟨h, rfl⟩
  cases hbody : bodyOf closing.toList (extent before) behind with
  | error e => simp [findClosing, hcut, hbody]
  | ok body? => simp [findClosing, hcut, hbody]

/-- No token behind `start` is live, as the scan knows it. -/
theorem forall_not_live_iff (h : text.toList = before ++ behind) (hbalanced : Balanced behind) :
    (∀ q, ¬ Live text closing (extent before).bytes q) ↔
      NoneLive closing.toList behind [] ∧ closing.toList ≠ [] := by
  have hall : text.toList = before ++ (behind ++ []) := by simp [h]
  have hend : _ ↔ NoneLive closing.toList behind [] ∧ _ := forall_le_not_live_iff hall
  rw [List.prefix_nil, imp_iff_right hbalanced] at hend
  rw [ne_eq, ← hend]
  refine ⟨fun hdead q _ => hdead q, fun hdead q hlive => ?_⟩
  -- A live token starts no later than the text ends.
  obtain ⟨v, ⟨r, hr⟩, -, rfl⟩ := (live_iff h).mp hlive
  have hle := bytes_extent_le_append (before ++ v) (closing.toList ++ r)
  rw [List.append_assoc] at hr
  rw [List.append_assoc, hr] at hle
  exact hdead _ hle hlive

/-- **The token that closes an expression is the first live one.**  In particular neither the early
look for any token at all nor the jump over string literals changes which occurrence is taken, and
it starts at a character boundary. -/
theorem findClosing_eq_some_iff (text closing : String) (start pos : Nat) :
    findClosing text start closing = .ok (some pos) ↔
      Live text closing start pos ∧ ∀ q < pos, ¬ Live text closing start q := by
  cases hcut : cutAt start text.toList with
  -- Off the boundaries there is neither an answer nor a live token.
  | none =>
    have hslice := cutAt_eq_none_iff.mp hcut
    rw [findClosing, hcut]
    refine ⟨?_, ?_⟩
    · intro h
      cases h
    · rintro ⟨⟨-, u, hu, -⟩, -⟩
      exact absurd hu (hslice pos u)
  | some halves =>
    obtain ⟨before, behind⟩ := halves
    obtain ⟨h, rfl⟩ := cutAt_eq_some_iff.mp hcut
    rw [findClosing_eq h]
    refine ⟨?_, ?_⟩
    · intro hfound
      cases hbody : bodyOf closing.toList (extent before) behind with
      | error e => simp [hbody] at hfound
      | ok body? =>
        simp only [hbody, Except.ok.injEq, Option.map_eq_some_iff] at hfound
        obtain ⟨body, rfl, rfl⟩ := hfound
        obtain ⟨hbehind, hbalanced, hnone⟩ := bodyOf_eq_some_iff.mp hbody
        rw [hbehind] at h
        rw [← Offset.bytes_add, ← extent_append]
        exact ⟨(live_here_iff h).mpr ⟨hbalanced, List.prefix_append _ _⟩,
          (forall_lt_not_live_iff h).mpr hnone⟩
    · rintro ⟨hlive, hfirst⟩
      obtain ⟨u, ⟨rest, hrest⟩, hbalanced, rfl⟩ := (live_iff h).mp hlive
      rw [List.append_assoc] at hrest
      subst hrest
      -- The slice up to the first live token is a body.
      have hbody : bodyOf closing.toList (extent before) (u ++ (closing.toList ++ rest)) =
          .ok (some ⟨u, rest⟩) :=
        bodyOf_eq_some_iff.mpr ⟨rfl, hbalanced, (forall_lt_not_live_iff h).mp hfirst⟩
      rw [hbody, extent_append, Offset.bytes_add]
      rfl

/-- **Every other outcome, exactly.**  No token is found where it does not occur, or is nowhere live
in a balanced text; where it occurs, a fault is reported exactly if the text has it. -/
theorem findClosing_failure_iff (text closing : String) (start : Nat) :
    (findClosing text start closing = .ok none ↔
      ∃ rest, IsSlice text start text.utf8ByteSize rest ∧
        (¬ closing.toList <:+: rest ∨ Balanced rest ∧ ∀ p, ¬ Live text closing start p)) ∧
    ∀ e, findClosing text start closing = .error (.malformed e) ↔
      ∃ rest, IsSlice text start text.utf8ByteSize rest ∧ closing.toList <:+: rest ∧
        ScanFault text closing start e := by
  cases hcut : cutAt start text.toList with
  | none =>
    have hslice := cutAt_eq_none_iff.mp hcut
    rw [findClosing, hcut]
    -- No slice starts at `start`, so neither side of the two equivalences holds.
    have hno : ∀ {P : List Char → Prop}, ¬ ∃ rest, IsSlice text start text.utf8ByteSize rest ∧
        P rest := by
      intro P h
      obtain ⟨rest, hrest, -⟩ := h
      exact hslice _ rest hrest
    simp [hno]
  | some halves =>
    obtain ⟨before, behind⟩ := halves
    obtain ⟨h, rfl⟩ := cutAt_eq_some_iff.mp hcut
    -- The slice up to the end of the text is what is behind `start`.
    have hrest : ∀ rest, IsSlice text (extent before).bytes text.utf8ByteSize rest ↔
        rest = behind := by
      intro rest
      rw [← bytes_extent_toList]
      exact isSlice_end_iff h
    simp only [hrest, exists_eq_left, findClosing_eq h]
    refine ⟨?_, fun e => ?_⟩
    · have hdead : (Balanced behind ∧ ∀ p, ¬ Live text closing (extent before).bytes p) ↔
          Balanced behind ∧ NoneLive closing.toList behind [] ∧ closing.toList ≠ [] :=
        and_congr_right fun hbalanced => forall_not_live_iff h hbalanced
      rw [hdead, ← bodyOf_eq_none_iff (extent before)]
      rcases bodyOf closing.toList (extent before) behind with e | (_ | body) <;> simp
    · rw [← scanBody_eq_error_iff h, ← bodyOf_eq_error_iff]
      rcases bodyOf closing.toList (extent before) behind with e' | body? <;> simp

-- The closing brace stands where a parenthesis is open, and is not its partner.
example : findClosing "$\x7b (\x7d) \x7d" 2 "\x7d" =
    .error (.malformed (.spanned (.unbalancedOpener 3 '(' ')') (.ofLength 3 1))) := by
  cbv

end Interpolation
