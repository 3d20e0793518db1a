import Offside.Proofs.Reading
import Offside.Proofs.Scaling

/-!
# Sources that are shifted to the right

A source is shifted if one and the same margin of spaces and tabs is put before each of its lines. The
check on style and the blocks do not see it. A data literal over several lines sees it twice, in the
column of the line that opens it and in the columns of the lines that follow, and the two cancel.

There is one exception. A line that first ends a block and then opens a literal is placed without what was
peeled off it, and the literal is taken to start at column 0 wherever the line stands. Such a literal is
*adrift*: its lines move with the margin. `drifts` follows this along a run, and `laidShifted` is what a
run over the shifted source comes to. If no literal is adrift a source and its shifted form are converted
to the same lines (`shifted_source_converted`).
-/

namespace Offside

namespace Text

/-- Spaces and tabs only. -/
def Margin (p : Text) : Prop := ∀ c ∈ p, c = ' ' ∨ c = '\t'

instance (p : Text) : Decidable (Margin p) := List.decidableBAll (fun c => c = ' ' ∨ c = '\t') p

theorem Margin.blank {p : Text} (h : Margin p) : Blank p := by
  intro c hc
  rcases h c hc with rfl | rfl <;> decide

theorem Margin.indentation_append {p : Text} (h : Margin p) (t : Text) :
    indentation (p ++ t) = indentation t + p.length := by
  have hcolumn : ∀ c ∈ p, (c == ' ' || c == '\t') = true := by
    intro c hc
    simpa using h c hc
  unfold indentation
  rw [List.takeWhile_append_of_pos hcolumn, List.length_append, Nat.add_comm]

end Text

open Text in
/-- Lines that show the same text, the second one `d` columns further to the right. -/
structure Shifted (d : Nat) (line line' : Text) : Prop where
  trim_eq : trim line' = trim line
  column_eq : indentation line' = indentation line + d

open Text in
theorem shifted_margin {p : Text} (hp : Margin p) (line : Text) : Shifted p.length line (p ++ line) where
  trim_eq := by
    have hpad := trim_pad hp.blank blank_nil line
    rwa [List.append_nil] at hpad
  column_eq := hp.indentation_append line

/-! ### Nestings -/

namespace Nesting

/-- The nesting at the same point of a source that is shifted by `d` columns. Unless it is adrift, the
literal that is open starts further to the right. -/
def shifted (d : Nat) (adrift : Bool) (n : Nesting) : Nesting :=
  { n with literalBase := if n.inLiteral && !adrift then n.literalBase + d else n.literalBase }

theorem shifted_of_inLiteral {n : Nesting} (h : n.inLiteral = true) (d : Nat) :
    n.shifted d false = { n with literalBase := n.literalBase + d } := by
  simp [shifted, h]

theorem shifted_of_not_inLiteral {n : Nesting} (h : n.inLiteral = false) (d : Nat) (adrift : Bool) :
    n.shifted d adrift = n := by
  simp [shifted, h]

theorem shifted_true (d : Nat) (n : Nesting) : n.shifted d true = n := by
  simp [shifted]

/-- Outside literals it makes no difference what is said to be adrift. -/
theorem shifted_inLiteral_and (d : Nat) (adrift : Bool) (n : Nesting) :
    n.shifted d (n.inLiteral && adrift) = n.shifted d adrift := by
  cases h : n.inLiteral with
  | true => rfl
  | false => rw [shifted_of_not_inLiteral h, shifted_of_not_inLiteral h]

theorem adjustLiteral_shifted {n : Nesting} (h : n.inLiteral = true) (d : Nat) (adrift : Bool)
    (delta : Int) :
    (n.shifted d adrift).adjustLiteral delta = (n.adjustLiteral delta).shifted d adrift := by
  cases adrift with
  | true => rw [shifted_true, shifted_true]
  | false =>
    rw [shifted_of_inLiteral h]
    by_cases hdepth : (n.literalDepth + delta).toNat = 0
    · have hout : (n.adjustLiteral delta).inLiteral = false := by
        simp [adjustLiteral, inLiteral, hdepth]
      rw [shifted_of_not_inLiteral hout]
      simp [adjustLiteral, hdepth]
    · have hin : (n.adjustLiteral delta).inLiteral = true := by
        have hpos : 0 < (n.literalDepth + delta).toNat := by omega
        simp [adjustLiteral, inLiteral, hpos]
      rw [shifted_of_inLiteral hin]
      simp [adjustLiteral, hdepth]

theorem enterLiteral_shifted (n : Nesting) (base d : Nat) (depth : Int) :
    n.enterLiteral (base + d) depth = (n.enterLiteral base depth).shifted d false := by
  rw [Layout.enterLiteral_eq, Layout.enterLiteral_eq]
  by_cases hdepth : depth ≤ 0
  · have hout : (Layout.insideLiteral n base depth).inLiteral = false := by
      simp [Layout.insideLiteral, inLiteral, hdepth]
    rw [shifted_of_not_inLiteral hout]
    simp only [Layout.insideLiteral, if_pos hdepth]
  · have hin : (Layout.insideLiteral n base depth).inLiteral = true :=
      Layout.inLiteral_insideLiteral (by omega)
    rw [shifted_of_inLiteral hin]
    simp only [Layout.insideLiteral, if_neg hdepth]

end Nesting

/-- A line inside a data literal, `d` columns further to the right. -/
def OutLine.push (d : Nat) : OutLine → OutLine
  | continuation columns text => continuation (columns + d) text
  | line => line

namespace Layout

open Text

/-- Whether the literal that is open after a line is adrift: it was so before the line, or the line opens
it after it has ended a block. -/
def drifts (n : Nesting) (adrift : Bool) (line : Text) : Bool :=
  (feed n line).nesting.inLiteral && (adrift || decide (0 < ended n line))

/-- The lines to be written for a source that is shifted by `d` columns. -/
def laidShifted (d : Nat) (n : Nesting) (adrift : Bool) : List Text → List OutLine
  | [] => []
  | line :: later =>
    (if adrift then (feed n line).lines.map (OutLine.push d) else (feed n line).lines) ++
      laidShifted d (feed n line).nesting (drifts n adrift line) later

/-- A literal that is adrift is open, and is taken to start at the left edge. -/
def Drifting (n : Nesting) (adrift : Bool) : Prop :=
  adrift = true → n.inLiteral = true ∧ n.literalBase = 0

/-! ### One line -/

theorem starts_afterBrace (t : Text) : Starts (afterBrace t) := by
  have hend : afterBrace t <+: Keyword.stripTerminator (trim t) := trimEnd_prefix _
  exact (starts_trim t).of_isPrefix (hend.trans (Keyword.stripTerminator_isPrefix _))

theorem rest_of_closed_eq_zero {blocks : Nat} {raw : Text} (h : (peel blocks raw).closed = 0) :
    (peel blocks raw).rest = some raw := by
  fun_induction peel blocks raw with
  | case1 => rfl
  | case2 => exact absurd h (by simp)
  | case3 => exact absurd h (by simp)
  | case4 => rfl

/-- What is left of a line that ended a block has lost its indentation. -/
theorem indentation_of_peeled {blocks : Nat} {raw rest : Text} (hclosed : 0 < (peel blocks raw).closed)
    (hrest : (peel blocks raw).rest = some rest) : indentation rest = 0 := by
  fun_induction peel blocks raw with
  | case1 => exact absurd hclosed (by simp)
  | case2 => exact absurd hrest (by simp)
  | case3 blocks raw text htrim hempty more ih =>
    by_cases hmore : 0 < more.closed
    · exact ih hmore hrest
    · have hsome : more.rest = some (afterBrace text) :=
        rest_of_closed_eq_zero (Nat.eq_zero_of_not_pos hmore)
      obtain rfl : afterBrace text = rest := Option.some.inj (hsome.symm.trans hrest)
      exact (starts_afterBrace text).indentation_eq_zero
  | case4 => exact absurd hclosed (by simp)

theorem placeBlock_inLiteral (n : Nesting) (text : Text) (brace : Nat) :
    (placeBlock n text brace).nesting.inLiteral = n.inLiteral := by
  unfold placeBlock
  simp only
  split_ifs
  · split <;> rfl
  · rfl

theorem place_shifted {d : Nat} {line line' : Text} (h : Shifted d line line') {n : Nesting}
    (hin : n.inLiteral = false) :
    (place n line').nesting = (place n line).nesting.shifted d false ∧
      (place n line').lines = (place n line).lines := by
  unfold place
  simp only [h.trim_eq, h.column_eq]
  split_ifs with hempty hcomment hin' hbrace hlit
  · exact ⟨(Nesting.shifted_of_not_inLiteral hin ..).symm, rfl⟩
  · exact ⟨(Nesting.shifted_of_not_inLiteral hin ..).symm, rfl⟩
  · rw [hin] at hin'
    exact absurd hin' (by decide)
  · exact ⟨(Nesting.shifted_of_not_inLiteral hin ..).symm, rfl⟩
  · exact ⟨Nesting.enterLiteral_shifted .., rfl⟩
  · cases Brace.structuralAt? (trim line) with
    | none => exact ⟨(Nesting.shifted_of_not_inLiteral hin ..).symm, rfl⟩
    | some brace =>
      exact ⟨(Nesting.shifted_of_not_inLiteral ((placeBlock_inLiteral ..).trans hin) ..).symm, rfl⟩

/-- How much is peeled off a line depends on its trimmed text; so does what is left, if anything is
peeled. -/
theorem peel_of_trim_eq {line line' : Text} (h : trim line' = trim line) (blocks : Nat) :
    (peel blocks line').closed = (peel blocks line).closed ∧
      (0 < (peel blocks line).closed → peel blocks line' = peel blocks line) := by
  cases blocks with
  | zero => exact ⟨rfl, fun hclosed => absurd hclosed (by simp [peel])⟩
  | succ blocks =>
    simp only [peel, h]
    split
    · exact ⟨rfl, fun _ => rfl⟩
    · exact ⟨rfl, fun hclosed => absurd hclosed (by simp)⟩

/-- A line that ends no block is placed as it is. -/
theorem feed_of_ended_eq_zero {n : Nesting} {line : Text} (h : ended n line = 0) :
    feed n line = place n line := by
  have hrest : remainder n line = some line := by
    unfold ended at h
    unfold remainder
    split_ifs at h ⊢ with hin
    · rfl
    · exact rest_of_closed_eq_zero h
  rw [feed_of_remainder_some hrest, h, Nesting.closeBlocks_zero]

theorem literalLine_shifted {d : Nat} {line line' : Text} (h : Shifted d line line') {n : Nesting}
    {adrift : Bool} (hin : n.inLiteral = true) (hdrift : Drifting n adrift) :
    literalLine (n.shifted d adrift) line' =
      if adrift then (literalLine n line).push d else literalLine n line := by
  have hcolumn : indentation line' - (n.shifted d adrift).literalBase =
      indentation line - n.literalBase + if adrift then d else 0 := by
    rw [h.column_eq]
    cases adrift with
    | true => rw [Nesting.shifted_true, (hdrift rfl).2]; rfl
    | false => rw [Nesting.shifted_of_inLiteral hin]; exact Nat.add_sub_add_right ..
  unfold literalLine
  rw [h.trim_eq, hcolumn]
  cases adrift <;> split_ifs <;> rfl

/-- **One line of a shifted source.** Inside a literal that is adrift its line is pushed to the right, and
elsewhere nothing changes. -/
theorem feed_shifted {d : Nat} {line line' : Text} (h : Shifted d line line') {n : Nesting}
    {adrift : Bool} (hdrift : Drifting n adrift) :
    (feed (n.shifted d adrift) line').nesting = (feed n line).nesting.shifted d (drifts n adrift line) ∧
      (feed (n.shifted d adrift) line').lines =
        if adrift then (feed n line).lines.map (OutLine.push d) else (feed n line).lines := by
  unfold drifts
  rw [Nesting.shifted_inLiteral_and]
  cases hin : n.inLiteral with
  | true =>
    have hended : ended n line = 0 := if_pos hin
    have hchange : literalChange line' = literalChange line := by
      unfold literalChange
      rw [h.trim_eq]
    rw [feed_inLiteral hin, feed_inLiteral (n := n.shifted d adrift) hin, hchange, hended,
      decide_eq_false (Nat.lt_irrefl 0), Bool.or_false]
    refine ⟨Nesting.adjustLiteral_shifted hin .., ?_⟩
    simp only [literalLine_shifted h hin hdrift]
    cases adrift <;> rfl
  | false =>
    have hanchored : adrift = false := by
      cases adrift with
      | false => rfl
      | true => rw [(hdrift rfl).1] at hin; exact absurd hin (by decide)
    subst hanchored
    rw [Nesting.shifted_of_not_inLiteral hin]
    obtain ⟨hclosed, hpeel⟩ := peel_of_trim_eq h.trim_eq n.openBlocks
    by_cases hended : 0 < ended n line
    · have hsame : feed n line' = feed n line := by
        have heq : ended n line = (peel n.openBlocks line).closed := if_neg (by simp [hin])
        rw [feed, feed, hin, hpeel (heq ▸ hended)]
        rfl
      rw [hsame]
      simp [hended, Nesting.shifted_true]
    · have hzero : ended n line = 0 ∧ ended n line' = 0 := by
        unfold ended at hended ⊢
        rw [hclosed]
        omega
      rw [feed_of_ended_eq_zero hzero.1, feed_of_ended_eq_zero hzero.2]
      simpa [hended] using place_shifted h hin

/-- The only line that opens a literal takes its column for the base. -/
theorem Placed.base_of_inLiteral {n : Nesting} {raw : Text} {p : Placement} (h : Placed n raw p)
    (hin : n.inLiteral = false) (hcolumn : indentation raw = 0) (hafter : p.nesting.inLiteral = true) :
    p.nesting.literalBase = 0 := by
  have hstays : ∀ m : Nesting, m.inLiteral = n.inLiteral → m.inLiteral ≠ true := by
    intro m hm hm'
    rw [hm, hin] at hm'
    exact absurd hm' (by decide)
  cases h with
  | continuation _ hin' => rw [hin] at hin'; exact absurd hin' (by decide)
  | literal => simp [Nesting.enterLiteral, Nesting.adjustLiteral, hcolumn]
  | block _ _ _ _ before after =>
    refine absurd hafter (hstays _ ?_)
    unfold Body.after
    split_ifs <;> rfl
  | blank | comment | stray | statement => exact absurd hafter (hstays _ rfl)

/-- A literal opened after a block has ended starts at the left edge. -/
theorem drifting_feed {n : Nesting} {adrift : Bool} (h : Drifting n adrift) (line : Text) :
    Drifting (feed n line).nesting (drifts n adrift line) := by
  intro hdrifts
  unfold drifts at hdrifts
  rw [Bool.and_eq_true] at hdrifts
  obtain ⟨hafter, hdrifts⟩ := hdrifts
  refine ⟨hafter, ?_⟩
  cases hin : n.inLiteral with
  | true =>
    have hended : ended n line = 0 := if_pos hin
    have hbase := (h (by simpa [hended] using hdrifts)).2
    rw [feed_inLiteral hin]
    simp [Nesting.adjustLiteral, hbase]
  | false =>
    have hended : 0 < ended n line := by
      rcases Bool.or_eq_true_iff.mp hdrifts with hadrift | hended
      · exact absurd (hin.symm.trans (h hadrift).1) (by decide)
      · simpa using hended
    have hclosed : 0 < (peel n.openBlocks line).closed := by simpa [ended, hin] using hended
    cases hrest : remainder n line with
    | none =>
      rw [feed_of_remainder_none hrest] at hafter
      exact absurd (hin.symm.trans hafter) (by decide)
    | some rest =>
      have hcolumn : indentation rest = 0 :=
        indentation_of_peeled hclosed (by simpa [remainder, hin] using hrest)
      rw [feed_of_remainder_some hrest] at hafter ⊢
      exact (placed_place _ rest).base_of_inLiteral hin hcolumn hafter

/-! ### Whole sources -/

/-- No line leaves a literal open after it has ended a block. -/
def Anchored (n : Nesting) (lines : List Text) : Prop :=
  ∀ (k : Nat) (hk : k < lines.length), 0 < ended (after n (lines.take k)) lines[k] →
    (after n (lines.take (k + 1))).inLiteral = false

instance (n : Nesting) (lines : List Text) : Decidable (Anchored n lines) :=
  Nat.decidableBallLT lines.length _

theorem laidShifted_of_anchored {n : Nesting} {lines : List Text} (h : Anchored n lines) (d : Nat) :
    laidShifted d n false lines = laid n lines := by
  induction lines generalizing n with
  | nil => rfl
  | cons line later ih =>
    have hfirst : drifts n false line = false := by
      unfold drifts
      by_cases hended : 0 < ended n line
      · have hout : (feed n line).nesting.inLiteral = false := h 0 (Nat.succ_pos _) hended
        rw [hout, Bool.false_and]
      · simp [hended]
    have hlater : Anchored (feed n line).nesting later :=
      fun k hk => h (k + 1) (Nat.succ_lt_succ hk)
    rw [laidShifted, laid, hfirst, ih hlater]
    rfl

end Layout

namespace Converter

open Layout Text

/-- **A run over a shifted source** fails where the run over the source fails, and else lays out what
`laidShifted` says. -/
theorem feed_shifted {d : Nat} {lines lines' : List Text} (h : List.Forall₂ (Shifted d) lines lines')
    {c : Converter} {v : Verdict} (hc : c.checks = [.style v]) {adrift : Bool}
    (hdrift : Drifting c.nesting adrift) (number : Nat) :
    (feed { c with nesting := c.nesting.shifted d adrift } number lines').result =
      (c.feed number lines).result.map fun _ => laidShifted d c.nesting adrift lines := by
  induction h generalizing c v adrift number with
  | nil => rfl
  | @cons line line' later later' hline _ ih =>
    obtain ⟨hnesting, hlines⟩ := Layout.feed_shifted hline hdrift
    have hrest := ih (c := { c with checks := (Check.all [.style v] line number).checks
                                    nesting := (Layout.feed c.nesting line).nesting })
      (Check.all_style_checks v line number) (drifting_feed hdrift line) (number + 1)
    simp only [feed, hc, all_of_trim_eq hline.trim_eq]
    cases (Check.all [.style v] line number).objection with
    | some objection => rfl
    | none =>
      simp only [hnesting, hlines, hrest, laidShifted]
      cases (feed _ (number + 1) later).result <;> rfl

/-- **Shifting a source to the right changes nothing but literals that are adrift.** With the check on
style, in whatever state, a source with a margin before each line fails as the source does, or it is
converted to the same lines, those of literals adrift pushed to the right by the margin. So where no
literal is adrift the results are the same. -/
theorem shifted_source_converted (c : Converter) {v : Verdict} (hc : c.checks = [.style v])
    (lines : List Text) {p : Text} (hp : Margin p) :
    (c.convertLines (lines.map (p ++ ·))).result =
        (c.convertLines lines).result.map (fun _ =>
          dropLeadingBlank ((laidShifted p.length {} false lines).map (OutLine.render c.width))) ∧
      (Anchored {} lines →
        (c.convertLines (lines.map (p ++ ·))).result = (c.convertLines lines).result) := by
  have hreset : c.reset.checks = [.style none] := by simp [reset, hc, Check.reset]
  have hlines : List.Forall₂ (Shifted p.length) lines (lines.map (p ++ ·)) := by
    rw [List.forall₂_map_right_iff]
    exact List.forall₂_same.mpr fun line _ => shifted_margin hp line
  have hdrift : Drifting c.reset.nesting false := fun hfalse => absurd hfalse (by decide)
  have hrun := feed_shifted hlines hreset hdrift 1
  have hresult : (c.convertLines (lines.map (p ++ ·))).result =
      (c.convertLines lines).result.map (fun _ =>
        dropLeadingBlank ((laidShifted p.length {} false lines).map (OutLine.render c.width))) := by
    rw [convertLines_eq_map, convertLines_eq_map]
    have hstart : c.reset.nesting.shifted p.length false = c.reset.nesting := rfl
    rw [hstart] at hrun
    rw [hrun]
    cases (c.reset.feed 1 lines).result <;> rfl
  refine ⟨hresult, fun hanchored => ?_⟩
  rw [hresult, laidShifted_of_anchored hanchored]
  rcases convertLines_result c lines with ⟨-, hok⟩ | ⟨objection, -, herror⟩
  · rw [hok]
    rfl
  · rw [herror]
    rfl

/-- A literal in a block, one of its lines to the left of its first line, before a tab and a space: no
literal is adrift, and the source is converted as it would be at the left edge. -/
theorem shifted_source_converted_tab :
    let c : Converter := { width := .standard }
    let lines := ["if x \x7b".toList, "  d = \x7b".toList, "      1: 2,".toList, "".toList, " \x7d".toList,
      "\x7d else \x7b".toList, "go();".toList, "\x7d".toList]
    let p := "\t ".toList
    let out := ["if x:".toList, "    d = \x7b".toList, "    1: 2,".toList, "".toList, "\x7d".toList,
      "else:".toList, "    go()".toList]
    (Margin p ∧ Anchored {} lines ∧ (c.convertLines lines).result = .ok out) ∧
      (c.convertLines (lines.map (p ++ ·))).result = .ok out := by
  intro c lines p out
  have hp : Margin p := by decide
  have hanchored : Anchored {} lines := by decide
  have hok : (c.convertLines lines).result = .ok out := by decide
  exact ⟨⟨hp, hanchored, hok⟩, ((shifted_source_converted c rfl lines hp).2 hanchored).trans hok⟩

/-- **A literal opened after a block has ended moves with the margin.** Four spaces before each line push
the lines of such a literal one level to the right. -/
theorem literal_behind_closer_drifts :
    let c : Converter := { width := .standard }
    let lines := ["if x \x7b".toList, "    y()".toList, "\x7d return \x7b".toList, "    'a': 1".toList,
      "\x7d".toList]
    let p := "    ".toList
    (Margin p ∧ (c.convertLines (lines.map (p ++ ·))).result ≠ (c.convertLines lines).result) ∧
      (c.convertLines lines).result = .ok ["if x:".toList, "    y()".toList, "return \x7b".toList,
        "    'a': 1".toList, "\x7d".toList] ∧
      (c.convertLines (lines.map (p ++ ·))).result = .ok ["if x:".toList, "    y()".toList,
        "return \x7b".toList, "        'a': 1".toList, "    \x7d".toList] := by
  decide

end Converter

end Offside
