import Offside.Proofs.Cut

/-!
# Blocks that end on the line of their header

The braces of a header line balance if the tail after the opening brace closes one brace more than it
opens, so the block that the line opens is also closed on it. Whether the layout ends the block there is
another matter: of a tail of negative depth it looks at the last character only (`Body.ends_iff`). Hence a
block ends on the line of its header if the closing brace is the last character of the line, and stays
open if anything comes after it, be it only a terminator (`balanced_line_nesting`).
-/

namespace Offside.Layout

open Text Brace

/-- A tail that closes the block is a whole body if nothing follows the closing brace. -/
theorem Body.ends_iff {tail : Text} (h : netDepth tail < 0) :
    (Body.ofTail tail).ends = true ↔ tail.getLast? = some '}' := by
  unfold Body.ofTail
  by_cases hpass : tail = ['}']
  · subst hpass
    exact ⟨fun _ => rfl, fun _ => rfl⟩
  · have hne : tail ≠ [] := by
      rintro rfl
      exact absurd h (by decide)
    rw [if_neg hpass, if_neg hne]
    by_cases hlast : tail.getLast? = some '}'
    · rw [if_pos ⟨hlast, h⟩]
      exact ⟨fun _ => hlast, fun _ => rfl⟩
    · rw [if_neg fun hwhole => hlast hwhole.1]
      exact ⟨fun hends => absurd hends (by simp [Body.ends]), fun hlast' => absurd hlast' hlast⟩

/-- The last character of a trimmed line is that of its trimmed tail. -/
theorem getLast_tail {text before after : Text} (split : SplitsAt text before after)
    (htrim : trim text = text) (hne : trim after ≠ []) :
    (trim after).getLast? = text.getLast? := by
  obtain ⟨a, b, -, hb, hafter⟩ := exists_trim after
  have htext : text = (before ++ '{' :: (a ++ trim after)) ++ b := by
    rw [split.eq]
    conv_lhs => rw [hafter]
    simp
  have hnil : b = [] := by
    cases hlast : b.getLast? with
    | none => exact List.getLast?_eq_none_iff.mp hlast
    | some c =>
      -- a blank at the end of the tail would be one at the end of the line
      have hblank : isBlank c = true := hb c (List.mem_of_getLast? hlast)
      have hend : (trim text).getLast? = some c := by
        rw [htrim, htext, List.getLast?_append, hlast]
        rfl
      rw [getLast_trim hend] at hblank
      exact absurd hblank (by decide)
  obtain ⟨c, hc⟩ := Option.ne_none_iff_exists'.mp (mt List.getLast?_eq_none_iff.mp hne)
  have hline : text = (before ++ '{' :: a) ++ trim after := by
    rw [htext, hnil]
    simp
  conv_rhs => rw [hline, List.getLast?_append, hc]
  rw [hc]
  rfl

/-- **A header line whose braces balance leaves the nesting as it was if it ends in its closing brace, and
one block open otherwise.** The head before the first structural brace is balanced by itself, and no data
literal before that brace stays open. -/
theorem balanced_line_nesting {n : Nesting} {line : Text} {b : Nat} (hn : n.literalDepth = 0)
    (htrim : trim line = line) (hcomment : Keyword.isComment line = false)
    (hbrace : line.head? ≠ some '}') (hb : structuralAt? line = some b)
    (hhead : Keyword.isHeader (line.take b) = true) (hbefore : netDepth (line.take b) = 0)
    (hlit : ∀ i, openLiteralAt? line = some i → ¬ i < b) (hnet : netDepth line = 0) :
    (feed n line).nesting = if line.getLast? = some '}' then n else n.openBlock := by
  obtain ⟨before, after, split, rfl⟩ := exists_splitsAt hb
  rw [split.take] at hhead hbefore
  have hin : n.inLiteral = false := by simp [Nesting.inLiteral, hn]
  have hcode : IsCode (trim line) := by
    rw [htrim]
    refine ⟨fun hnil => ?_, hcomment⟩
    rw [hnil] at hb
    exact absurd hb (by simp [structuralAt?, roles])
  have hstarts : startsLiteral (trim line) = false := by
    rw [htrim]
    unfold startsLiteral
    cases hopen : openLiteralAt? line with
    | none => rfl
    | some i =>
      rw [hb]
      exact decide_eq_false (hlit i hopen)
  have htail : netDepth (trim after) = -1 := by
    have hsum := split.netDepth_eq
    rw [netDepth_trim]
    omega
  have hne : trim after ≠ [] := by
    intro hnil
    rw [hnil] at htail
    exact absurd htail (by decide)
  have hends := Body.ends_iff (by omega : netDepth (trim after) < 0)
  rw [getLast_tail split htrim hne] at hends
  rw [feed_of_head_ne (by rwa [htrim])]
  rcases place_code hcode hin (by rwa [htrim]) hstarts with
    ⟨before', after', split', -, hplace⟩ | ⟨hother, -⟩
  · rw [htrim] at split'
    obtain ⟨rfl, rfl⟩ := split.unique split'
    rw [hplace]
    show (Body.ofTail (trim after)).after n = _
    unfold Body.after
    simp only [hends]
  · have hsplit : SplitsAt (trim line) before after := by rwa [htrim]
    have hnot := hother before after hsplit
    unfold Keyword.isHeader at hnot hhead
    rw [trim_trim, hhead] at hnot
    exact absurd hnot (by decide)

/-- A line with a set in its head and a dict in its body, closed at its end; and one with a comment after
the closing brace. -/
theorem balanced_line_nesting_dict :
    let n : Nesting := { level := 2, openBlocks := 2 }
    let closed := "if has(\x7b1\x7d) \x7b d = \x7b2: '\x7d'\x7d; \x7d".toList
    let noted := "if x \x7b y() \x7d # done".toList
    (structuralAt? closed = some 12 ∧ netDepth closed = 0 ∧ (feed n closed).nesting = n) ∧
      structuralAt? noted = some 5 ∧ netDepth noted = 0 ∧ (feed n noted).nesting = n.openBlock := by
  intro n closed noted
  have hclosed : structuralAt? closed = some 12 := by decide
  have hnoted : structuralAt? noted = some 5 := by decide
  have hnone : openLiteralAt? closed = none ∧ openLiteralAt? noted = none := by decide
  exact ⟨⟨hclosed, by decide, balanced_line_nesting rfl (by decide) (by decide) (by decide) hclosed
      (by decide) (by decide) (by simp [hnone.1]) (by decide)⟩,
    hnoted, by decide, balanced_line_nesting rfl (by decide) (by decide) (by decide) hnoted
      (by decide) (by decide) (by simp [hnone.2]) (by decide)⟩

/-- **A terminator after the closing brace keeps the block open**, though the braces of the line balance;
the closing brace is then written as text. -/
theorem terminated_body_stays_open :
    let line := "if x \x7b y(); \x7d;".toList
    (trim line = line ∧ Keyword.isComment line = false ∧ line.head? ≠ some '}') ∧
      (structuralAt? line = some 5 ∧ Keyword.isHeader (line.take 5) = true ∧
        netDepth (line.take 5) = 0 ∧ openLiteralAt? line = none ∧ netDepth line = 0) ∧
      (feed {} line).nesting = { level := 1, openBlocks := 1 } ∧
      (feed {} line).lines = [.header 0 "if x:".toList, .plain 1 "y(); \x7d".toList] ∧
      (feed {} "if x \x7b y(); \x7d".toList).nesting = {} := by
  decide

end Offside.Layout
