import Offside.Proofs.Run

/-!
# Blocks are evidence

The check on style looks at a line as a whole and remembers nothing of the nesting; the layout looks at
what is left of the line once closing braces are off it. They agree where it matters: a line that opens
a block shows the brace style (`evidence_of_opens`), because taking closing braces off a line leaves
the roles of the other braces alone (`peelView_kinds`).

So a run that succeeds and opens a block has settled on braces, no later than at the line that opens
the first one, and has met no header that ends in a colon (`block_settles_style`).
-/

namespace Offside

namespace Layout

open Text Brace

theorem peelView_kinds : PeelView kinds .closing where
  nil := rfl
  trim := kinds_trim
  trimEnd := kinds_trimEnd
  stripTerminator := kinds_stripTerminator
  closing := kinds_closing_cons

/-- A line of which code is left is a line of code. -/
theorem isCode_of_remainder {n : Nesting} {raw rest : Text} (h : remainder n raw = some rest)
    (hcode : IsCode (trim rest)) : IsCode (trim raw) := by
  by_cases hbrace : (trim raw).head? = some '}'
  · refine ⟨fun hnil => ?_, ?_⟩
    · rw [hnil] at hbrace
      exact absurd hbrace (by simp)
    · unfold Keyword.isComment
      rw [hbrace]
      decide
  · have hsame : remainder n raw = some raw := by
      unfold remainder
      rw [peel_of_head_ne hbrace, ite_self]
    rw [hsame, Option.some.injEq] at h
    rwa [h]

/-- **A line that opens a block shows the brace style.** -/
theorem evidence_of_opens {n : Nesting} {raw : Text} (h : Opens n raw) :
    Style.evidence? raw = some .brace := by
  obtain ⟨rest, before, after, hrest, hcode, split, -, -⟩ := h.exists_split
  have hmem : .structural ∈ kinds (trim raw) := by
    rw [kinds_trim, peelView_kinds.line n raw, hrest, Option.getD_some, ← kinds_trim rest]
    refine List.mem_append_right _ (structuralAt_isSome_iff.mp ?_)
    rw [split.first]
    rfl
  have hraw := isCode_of_remainder hrest hcode
  unfold Style.evidence? Style.ofTrimmed?
  rw [if_neg (by simp [hraw.1, hraw.2]), if_pos (structuralAt_isSome_iff.mpr hmem)]

end Layout

namespace Style

/-- The first sighting is no later than any line that shows a style. -/
theorem firstSighting_le {lines : List Text} {i : Nat} (hi : i < lines.length) {found : Style}
    (h : evidence? lines[i] = some found) (number : Nat) :
    ∃ s, firstSighting number lines = some s ∧ s.line ≤ number + i ∧
      ∃ line ∈ lines, evidence? line = some s.style := by
  induction lines generalizing i number with
  | nil => simp at hi
  | cons line lines ih =>
    rw [firstSighting]
    cases hev : evidence? line with
    | some style => exact ⟨_, rfl, by simp, line, by simp, hev⟩
    | none =>
      cases i with
      | zero => rw [List.getElem_cons_zero, hev] at h; exact absurd h (by simp)
      | succ i =>
        rw [List.getElem_cons_succ] at h
        obtain ⟨s, hs, hle, l, hl, hls⟩ := ih (by simpa using hi) h (number + 1)
        exact ⟨s, hs, by omega, l, by simp [hl], hls⟩

end Style

open Layout in
/-- **The check on style misses no block.** Whatever the nesting, a line that opens a block shows the
brace style. Hence if a source is converted and its line number `i + 1` opened a block, the verdict is
for braces and was settled by that line or an earlier one, and no line of the source, before or after
it, shows the colon style. -/
theorem block_settles_style :
    (∀ (n : Nesting) (raw : Text), Opens n raw → Style.evidence? raw = some .brace) ∧
    ∀ (w : Width) (lines out : List Text),
      (Converter.convertLines { width := w } lines).result = .ok out →
      ∀ (i : Nat) (hi : i < lines.length), Opens (after {} (lines.take i)) lines[i] →
        (∃ k ≤ i + 1, (Converter.convertLines { width := w } lines).converter.checks =
          [.style (some ⟨.brace, k⟩)]) ∧
        ∀ line ∈ lines, Style.evidence? line ≠ some .colon := by
  refine ⟨fun n raw => evidence_of_opens, fun w lines out hok i hi hopens => ?_⟩
  have hagrees := Converter.agrees_of_convertLines hok
  have hconv := (Converter.convertLines_of_agrees w hagrees).2
  have hev := evidence_of_opens hopens
  obtain ⟨style, -, hall⟩ := hagrees
  obtain rfl : style = .brace := (hall lines[i] (List.getElem_mem hi) .brace hev).symm
  obtain ⟨⟨found, k⟩, hfirst, hle, line, hline, hfound⟩ := Style.firstSighting_le hi hev 1
  obtain rfl : found = .brace := hall line hline found hfound
  refine ⟨⟨k, by simpa [Nat.add_comm] using hle, ?_⟩, fun line hline hcolon => ?_⟩
  · rw [hconv, hfirst]
  · exact absurd (hall line hline .colon hcolon) (by decide)

open Layout in
/-- The third line ends a block and opens another that ends at once. -/
theorem block_settles_style_else :
    let lines := ["if x \x7b".toList, "go();".toList, "\x7d else \x7b stop() \x7d".toList]
    let run := Converter.convertLines { width := .standard } lines
    run.result = .ok ["if x:".toList, "    go()".toList, "else:".toList, "    stop()".toList] ∧
      Opens (after {} (lines.take 2)) "\x7d else \x7b stop() \x7d".toList ∧
      (∃ k ≤ 3, run.converter.checks = [.style (some ⟨.brace, k⟩)]) ∧
      ∀ line ∈ lines, Style.evidence? line ≠ some .colon := by
  intro lines run
  have hok : run.result =
      .ok ["if x:".toList, "    go()".toList, "else:".toList, "    stop()".toList] := by decide
  have hopens : Opens (after {} (lines.take 2)) "\x7d else \x7b stop() \x7d".toList := by decide
  exact ⟨hok, hopens, block_settles_style.2 .standard lines _ hok 2 (by decide) hopens⟩

end Offside
