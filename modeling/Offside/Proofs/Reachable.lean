import Offside.Proofs.Literal

/-!
# The nestings that can be reached

`history calls` is the nesting after any sequence of lines and resets. Whatever the lines hold, it is
`Sound`: the two counters of blocks agree, and outside a literal no column is kept. One line opens at
most one block, and ends at most as many as it has closing braces at its front (`feed_counters`,
`ended_le_leadingClosers`).

Subtractions in `Nesting.closeBlocks` stop at zero. `feedGuarded` goes over a line pass by pass, ends one
block at a time and gives up where one of the counters is zero already. From a sound nesting it never
gives up (`feedGuarded_eq`), so no subtraction is ever cut off.
-/

namespace Offside

namespace Nesting

/-- What holds of a nesting between two lines. -/
structure Sound (n : Nesting) : Prop where
  level_eq : n.level = n.openBlocks
  base_eq : n.literalDepth = 0 → n.literalBase = 0

theorem Sound.closeBlocks {n : Nesting} (h : n.Sound) (k : Nat) : (n.closeBlocks k).Sound :=
  ⟨by simp [Nesting.closeBlocks, h.level_eq], h.base_eq⟩

/-- Ends one block, provided that both counters count one. -/
def closeBlock? (n : Nesting) : Option Nesting :=
  if 1 ≤ n.level ∧ 1 ≤ n.openBlocks then some (n.closeBlocks 1) else none

@[simp] theorem closeBlock_openBlock (n : Nesting) : n.openBlock.closeBlock? = some n :=
  if_pos ⟨Nat.le_add_left .., Nat.le_add_left ..⟩

end Nesting

namespace Layout

open Text Brace

/-! ### How far one line moves the counters -/

/-- What is left of a line opens at most one block, and both counters count it. -/
theorem Placed.counters {n : Nesting} {raw : Text} {p : Placement} (h : Placed n raw p) :
    ∃ k ≤ 1, p.nesting.level = n.level + k ∧ p.nesting.openBlocks = n.openBlocks + k := by
  cases h with
  | block _ _ _ _ before after =>
    cases hends : (Body.ofTail (trim after)).ends with
    | true => exact ⟨0, by simp [Body.after, hends]⟩
    | false => exact ⟨1, by simp [Body.after, hends, Nesting.openBlock]⟩
  | blank | comment | continuation | stray | literal | statement => exact ⟨0, by simp, rfl, rfl⟩

theorem Placed.base {n : Nesting} {raw : Text} {p : Placement} (h : Placed n raw p)
    (hn : n.literalDepth = 0 → n.literalBase = 0) :
    p.nesting.literalDepth = 0 → p.nesting.literalBase = 0 := by
  cases h with
  | continuation | literal => exact fun hdepth => if_pos hdepth
  | block _ _ _ _ before after =>
    cases hends : (Body.ofTail (trim after)).ends with
    | true => simpa [Body.after, hends] using hn
    | false => simpa [Body.after, hends, Nesting.openBlock] using hn
  | blank | comment | stray | statement => exact hn

/-- **The counters after a line**: less the blocks that it ends, and at most one more. -/
theorem feed_counters (n : Nesting) (raw : Text) :
    ∃ k ≤ 1, (feed n raw).nesting.level = n.level - ended n raw + k ∧
      (feed n raw).nesting.openBlocks = n.openBlocks - ended n raw + k := by
  rcases feed_cases n raw with hfeed | ⟨rest, hplaced⟩
  · rw [hfeed]
    exact ⟨0, by simp, rfl, rfl⟩
  · exact hplaced.counters

theorem feed_sound {n : Nesting} (h : n.Sound) (raw : Text) : (feed n raw).nesting.Sound := by
  obtain ⟨k, -, hlevel, hblocks⟩ := feed_counters n raw
  refine ⟨by rw [hlevel, hblocks, h.level_eq], ?_⟩
  rcases feed_cases n raw with hfeed | ⟨rest, hplaced⟩
  · rw [hfeed]
    exact h.base_eq
  · exact hplaced.base h.base_eq

theorem closed_le (blocks : Nat) (raw : Text) : (peel blocks raw).closed ≤ blocks := by
  fun_induction peel blocks raw with
  | case1 => exact Nat.zero_le _
  | case2 => exact Nat.le_add_left ..
  | case3 blocks raw text htrim hempty more ih => exact Nat.succ_le_succ ih
  | case4 => exact Nat.zero_le _

theorem ended_le_openBlocks (n : Nesting) (raw : Text) : ended n raw ≤ n.openBlocks := by
  unfold ended
  split_ifs
  · exact Nat.zero_le _
  · exact closed_le _ _

/-- The closing braces at the start of a text, blanks between them not counted. -/
def leadingClosers (t : Text) : Text := (t.filter fun c => !isBlank c).takeWhile (· == '}')

theorem peelView_leadingClosers : PeelView leadingClosers '}' where
  nil := rfl
  trim t := by
    unfold leadingClosers
    rw [filter_trim (fun c hc => by simp [hc])]
  trimEnd t := by
    unfold leadingClosers
    rw [filter_trimEnd (fun c hc => by simp [hc])]
  stripTerminator t := by
    -- a terminator at the end is no closing brace, and comes after all of them
    rcases Keyword.exists_stripTerminator t with h | h
    · rw [← h]
    · conv_rhs => rw [h]
      unfold leadingClosers
      rw [List.filter_append, show [Keyword.terminator].filter (fun c => !isBlank c) =
        [Keyword.terminator] by decide, List.takeWhile_append]
      split_ifs with hall
      · exact ((List.takeWhile_prefix _).eq_of_length hall).trans (List.append_nil _).symm
      · rfl
  closing t := by
    unfold leadingClosers
    rw [List.filter_cons_of_pos (by decide), List.takeWhile_cons_of_pos (by decide)]

/-- A line ends no more blocks than it has closing braces at its start. -/
theorem ended_le_leadingClosers (n : Nesting) (raw : Text) :
    ended n raw ≤ (leadingClosers (trim raw)).length := by
  rw [peelView_leadingClosers.trim, peelView_leadingClosers.line n raw, List.length_append,
    List.length_replicate]
  exact Nat.le_add_right ..

/-! ### One block at a time -/

/-- As `placeBlock`, but gives up where a block would be ended that is not open. -/
def placeBlockGuarded (n : Nesting) (text : Text) (brace : Nat) : Option Placement :=
  let head := Text.trim (text.take brace)
  if Keyword.isHeader head then
    let header := OutLine.header n.level (withColon head)
    let inner := n.openBlock
    match Body.ofTail (Text.trim (text.drop (brace + 1))) with
    | .later => some { nesting := inner, lines := [header] }
    | .started body => some { nesting := inner, lines := [header, .plain inner.level body] }
    | .whole body => inner.closeBlock?.map fun outer =>
        { nesting := outer, lines := [header, .plain inner.level body] }
  else some { nesting := n, lines := [statement n text] }

/-- As `place`, with blocks placed by `placeBlockGuarded`; the other lines end no block. -/
def placeGuarded (n : Nesting) (raw : Text) : Option Placement :=
  if n.inLiteral = true ∨ ¬ IsCode (trim raw) ∨ (trim raw).head? = some '}' ∨
      startsLiteral (trim raw) = true then some (place n raw)
  else
    match structuralAt? (trim raw) with
    | some brace => placeBlockGuarded n (trim raw) brace
    | none => some (place n raw)

/-- Every pass works on a shorter text. -/
theorem length_afterBrace_lt {raw text : Text} (h : trim raw = '}' :: text) :
    (afterBrace text).length < raw.length := by
  have hraw := length_trim_le raw
  rw [h, List.length_cons] at hraw
  have hend := trimEnd_prefix (Keyword.stripTerminator (trim text))
  calc (afterBrace text).length ≤ (Keyword.stripTerminator (trim text)).length := hend.length_le
    _ ≤ (trim text).length := (Keyword.stripTerminator_isPrefix _).length_le
    _ ≤ text.length := length_trim_le text
    _ < raw.length := by omega

/-- Lays out a line pass by pass. As long as it starts with a closing brace and blocks are open, a pass
takes the brace off and ends one block; the last pass places what is left. Gives up where a block would
be ended while one of the counters is zero. -/
def feedGuarded (n : Nesting) (raw : Text) : Option Placement :=
  match _h : trim raw with
  | '}' :: text =>
    if n.inLiteral = true ∨ n.openBlocks = 0 then placeGuarded n raw
    else
      n.closeBlock?.bind fun outer =>
        if (afterBrace text).isEmpty then some { nesting := outer }
        else feedGuarded outer (afterBrace text)
  | _ => placeGuarded n raw
termination_by raw.length
decreasing_by exact length_afterBrace_lt ‹_›

/-- The block that a line opens and ends again was open in between. -/
theorem placeBlockGuarded_eq (n : Nesting) (text : Text) (brace : Nat) :
    placeBlockGuarded n text brace = some (placeBlock n text brace) := by
  unfold placeBlockGuarded placeBlock
  simp only
  split_ifs
  · cases Body.ofTail (trim (text.drop (brace + 1))) <;> simp
  · rfl

theorem placeGuarded_eq (n : Nesting) (raw : Text) : placeGuarded n raw = some (place n raw) := by
  unfold placeGuarded
  split_ifs with hother
  · rfl
  · push Not at hother
    obtain ⟨hin, hcode, hbrace, hlit⟩ := hother
    cases hs : structuralAt? (trim raw) with
    | none => rfl
    | some brace =>
      simp only [placeBlockGuarded_eq, Option.some.injEq]
      unfold place
      simp only
      rw [if_neg (by simp [hcode.1]), if_neg (by simp [hcode.2]), if_neg hin, if_neg hbrace,
        if_neg hlit, hs]

/-- **One pass**: a closing brace that ends a block comes off, and the rest is a line of its own. -/
theorem feed_pass {n : Nesting} {raw text : Text} (htrim : trim raw = '}' :: text)
    (hin : n.inLiteral = false) (hopen : n.openBlocks ≠ 0) :
    feed n raw = if (afterBrace text).isEmpty then { nesting := n.closeBlocks 1 }
      else feed (n.closeBlocks 1) (afterBrace text) := by
  obtain ⟨blocks, hblocks⟩ := Nat.exists_eq_succ_of_ne_zero hopen
  have hin' : (n.closeBlocks 1).inLiteral = false := hin
  have hrest : (n.closeBlocks 1).openBlocks = blocks := by simp [Nesting.closeBlocks, hblocks]
  have hpeel : peel n.openBlocks raw =
      if (afterBrace text).isEmpty then ⟨1, none⟩
      else ⟨(peel blocks (afterBrace text)).closed + 1, (peel blocks (afterBrace text)).rest⟩ := by
    rw [hblocks, Nat.succ_eq_add_one, peel, htrim]
    rfl
  by_cases hempty : (afterBrace text).isEmpty
  · rw [if_pos hempty] at hpeel ⊢
    simp only [feed, hin, hpeel]
    rfl
  · rw [if_neg hempty] at hpeel ⊢
    simp only [feed, hin, hin', hpeel, hrest, Nesting.closeBlocks_closeBlocks, Nat.add_comm 1]
    rfl

theorem feed_of_no_blocks {n : Nesting} (h : n.openBlocks = 0) (raw : Text) :
    feed n raw = place n raw := by
  unfold feed
  rw [h]
  split_ifs <;> rfl

/-- **No block is ended that is not open**: from a sound nesting every pass finds both counters
positive. -/
theorem feedGuarded_eq {n : Nesting} (h : n.Sound) (raw : Text) :
    feedGuarded n raw = some (feed n raw) := by
  fun_induction feedGuarded n raw with
  | case1 n raw text htrim hplace =>
    rw [placeGuarded_eq]
    rcases hplace with hin | hopen
    · rw [feed, if_pos hin]
    · rw [feed_of_no_blocks hopen]
  | case2 n raw text htrim hplace ih =>
    push Not at hplace
    obtain ⟨hin, hopen⟩ := hplace
    -- the pass looked at one counter only; that the other is positive too is what soundness gives
    have hclose : n.closeBlock? = some (n.closeBlocks 1) :=
      if_pos (by rw [h.level_eq]; omega)
    rw [hclose, Option.bind_some, feed_pass htrim (by simpa using hin) hopen]
    split_ifs with hempty
    · rfl
    · exact ih _ (h.closeBlocks 1)
  | case3 n raw hbrace =>
    rw [placeGuarded_eq, feed_of_head_ne]
    intro hhead
    obtain ⟨text, htext⟩ := List.head?_eq_some_iff.mp hhead
    exact hbrace text htext

/-! ### Histories -/

/-- What can be asked of a layout: to take a line, or to start afresh. -/
inductive Call where
  | line (raw : Text)
  | reset
  deriving Repr, DecidableEq

/-- The nesting after a call. -/
def Call.run (n : Nesting) : Call → Nesting
  | line raw => (feed n raw).nesting
  | reset => {}

/-- The nesting after some calls. -/
def history (calls : List Call) : Nesting := calls.foldl Call.run {}

theorem history_concat (calls : List Call) (call : Call) :
    history (calls ++ [call]) = call.run (history calls) := by
  simp [history]

theorem history_sound (calls : List Call) : (history calls).Sound := by
  induction calls using List.reverseRecOn with
  | nil => exact ⟨rfl, fun _ => rfl⟩
  | append_singleton calls call ih =>
    rw [history_concat]
    cases call with
    | line raw => exact feed_sound ih raw
    | reset => exact ⟨rfl, fun _ => rfl⟩

/-- **What holds of every nesting that can be reached.** After any lines and resets the two counters
agree, and a column is kept only inside a literal. A further reset leads back to the start. Every further
line, whatever it holds, leaves the counters alone inside a literal, opens at most one block, ends at
most as many as it has closing braces at its start, and ends none without finding both counters
positive. -/
theorem history_invariant (calls : List Call) :
    (history calls).level = (history calls).openBlocks ∧
    ((history calls).literalDepth = 0 → (history calls).literalBase = 0) ∧
    history (calls ++ [.reset]) = {} ∧
    ∀ raw : Text,
      let before := history calls
      let after := history (calls ++ [.line raw])
      (0 < before.literalDepth → after.level = before.level ∧ after.openBlocks = before.openBlocks) ∧
      after.openBlocks ≤ before.openBlocks + 1 ∧
      before.openBlocks ≤ after.openBlocks + (leadingClosers (trim raw)).length ∧
      feedGuarded before raw = some (feed before raw) := by
  have hsound := history_sound calls
  refine ⟨hsound.level_eq, hsound.base_eq, history_concat calls .reset, fun raw => ?_⟩
  intro before after
  have hafter : after = (feed before raw).nesting := history_concat calls (.line raw)
  obtain ⟨k, hk, -, hblocks⟩ := feed_counters before raw
  have hended := ended_le_openBlocks before raw
  have hclosers := ended_le_leadingClosers before raw
  refine ⟨fun hdepth => ?_, ?_, ?_, feedGuarded_eq hsound raw⟩
  · rw [hafter, feed_inLiteral (by simpa [Nesting.inLiteral] using hdepth)]
    exact ⟨rfl, rfl⟩
  · rw [hafter, hblocks]
    omega
  · rw [hafter, hblocks]
    omega

/-- A line of closing braces that ends two blocks, and the same line inside a literal, where it ends
none. -/
theorem history_invariant_closers :
    let blocks : List Call := [.line "d = \x7b".toList, .reset, .line "if x \x7b".toList,
      .line "while y \x7b".toList]
    let literal : List Call := blocks ++ [.line "  d = \x7b".toList]
    let raw := " \x7d \x7d;".toList
    ((history blocks).literalDepth = 0 ∧ (history blocks).literalBase = 0) ∧
      ((history blocks).openBlocks = 2 ∧ (history (blocks ++ [.line raw])).openBlocks = 0 ∧
        2 ≤ 0 + (leadingClosers (trim raw)).length) ∧
      (0 < (history literal).literalDepth ∧ (history literal).openBlocks = 2 ∧
        (history (literal ++ [.line raw])).openBlocks = 2) ∧
      feedGuarded (history blocks) raw = some (feed (history blocks) raw) := by
  intro blocks literal raw
  have hnone : (history blocks).literalDepth = 0 := by decide
  have htwo : (history blocks).openBlocks = 2 := by decide
  have hzero : (history (blocks ++ [.line raw])).openBlocks = 0 := by decide
  have hin : 0 < (history literal).literalDepth := by decide
  have htwo' : (history literal).openBlocks = 2 := by decide
  obtain ⟨-, hbase, -, hline⟩ := history_invariant blocks
  obtain ⟨-, -, hclosers, hguarded⟩ := hline raw
  obtain ⟨hinside, -⟩ := (history_invariant literal).2.2.2 raw
  rw [htwo, hzero] at hclosers
  exact ⟨⟨hnone, hbase hnone⟩, ⟨htwo, hzero, hclosers⟩, ⟨hin, htwo', (hinside hin).2.trans htwo'⟩,
    hguarded⟩

end Layout

end Offside
