import Mathlib.Algebra.Ring.Int.Defs
import Offside.Proofs.Run

/-!
# Data literals over several lines

Inside a data literal every line is copied: `feed_inLiteral` says at once what any line does there, be it
blank, a comment, a closing brace or something that looks like a header. So the depth of the literal
after `k` further lines is the sum of what these lines add (`after_literal`), and the blocks around the
literal are not touched until it is over (`literal_copied`).
-/

namespace Offside

namespace Brace

theorem getElem_shift {rs : List (Option Role)} {r : Option Role} {pos i : Nat} {x : Option Role}
    (h : pos + 1 ≤ i ∧ rs[i - (pos + 1)]? = some x) : pos ≤ i ∧ (r :: rs)[i - pos]? = some x := by
  refine ⟨by omega, ?_⟩
  rw [show i - pos = i - (pos + 1) + 1 by omega, List.getElem?_cons_succ]
  exact h.2

/-- The literal found open is the one that was open before, or one of the data braces read. -/
theorem openLiteral_eq_some {pos : Nat} {state : Option (Nat × Nat)} {rs : List (Option Role)}
    {i : Nat} (h : openLiteral pos state rs = some i) :
    (∃ depth, state = some (i, depth)) ∨
      pos ≤ i ∧ rs[i - pos]? = some (some .dataLiteral) := by
  fun_induction openLiteral pos state rs with
  | case1 pos state =>
    obtain ⟨⟨start, depth⟩, hstate, rfl⟩ := Option.map_eq_some_iff.mp h
    exact Or.inl ⟨depth, hstate⟩
  | case2 pos more ih =>
    rcases ih h with ⟨depth, hstate⟩ | hlater
    · obtain ⟨rfl, -⟩ := Prod.mk.inj (Option.some.inj hstate)
      exact Or.inr ⟨le_rfl, by rw [Nat.sub_self]; rfl⟩
    · exact Or.inr (getElem_shift hlater)
  | case3 pos start depth more ih =>
    rcases ih h with ⟨depth', hstate⟩ | hlater
    · obtain ⟨rfl, -⟩ := Prod.mk.inj (Option.some.inj hstate)
      exact Or.inl ⟨depth, rfl⟩
    · exact Or.inr (getElem_shift hlater)
  | case4 pos start more ih =>
    rcases ih h with ⟨depth, hstate⟩ | hlater
    · exact absurd hstate (by simp)
    · exact Or.inr (getElem_shift hlater)
  | case5 pos start depth more ih =>
    rcases ih h with ⟨depth', hstate⟩ | hlater
    · obtain ⟨rfl, -⟩ := Prod.mk.inj (Option.some.inj hstate)
      exact Or.inl ⟨depth + 1, rfl⟩
    · exact Or.inr (getElem_shift hlater)
  | case6 pos state r more _ _ _ _ ih =>
    rcases ih h with hstate | hlater
    · exact Or.inl hstate
    · exact Or.inr (getElem_shift hlater)

/-- What is found open is a data literal. -/
theorem getElem_openLiteralAt {line : Text} {i : Nat} (h : openLiteralAt? line = some i) :
    (roles line)[i]? = some (some .dataLiteral) := by
  rcases openLiteral_eq_some h with ⟨depth, hstate⟩ | ⟨-, hrole⟩
  · exact absurd hstate (by simp)
  · exact hrole

/-- A literal that stays open, with no structural brace before it, is the start of a literal. -/
theorem startsLiteral_of_openLiteralAt {line : Text} {i : Nat} (h : openLiteralAt? line = some i)
    (hbefore : ∀ j < i, (roles line)[j]? ≠ some (some .structural)) : startsLiteral line = true := by
  unfold startsLiteral
  rw [h]
  cases hs : structuralAt? line with
  | none => rfl
  | some j =>
    have hj := getElem_structuralAt hs
    have hne : j ≠ i := by
      rintro rfl
      rw [getElem_openLiteralAt h] at hj
      exact absurd hj (by decide)
    have hle : ¬ j < i := fun hlt => hbefore j hlt hj
    simp only [decide_eq_true_eq]
    omega

end Brace

namespace Layout

open Text Brace

instance (text : Text) : Decidable (IsCode text) := inferInstanceAs (Decidable (_ ∧ _))

/-- How a line inside a literal changes its depth. -/
def literalChange (line : Text) : Int := if IsCode (trim line) then netDepth (trim line) else 0

/-- How a line inside a literal is written. -/
def literalLine (n : Nesting) (line : Text) : OutLine :=
  if trim line = [] then .blank
  else if Keyword.isComment (trim line) then .plain n.level (trim line)
  else .continuation (indentation line - n.literalBase) (Keyword.stripTerminator (trim line))

theorem adjustLiteral_zero {n : Nesting} (h : n.inLiteral = true) : n.adjustLiteral 0 = n := by
  have hpos : 0 < n.literalDepth := by simpa [Nesting.inLiteral] using h
  have hdepth : (n.literalDepth + (0 : Int)).toNat = n.literalDepth := by omega
  unfold Nesting.adjustLiteral
  simp only [hdepth, if_neg (by omega : ¬ n.literalDepth = 0)]

/-- **Inside a literal a line is copied, and all it can change is the depth of the literal.** -/
theorem feed_inLiteral {n : Nesting} (h : n.inLiteral = true) (line : Text) :
    feed n line = { nesting := n.adjustLiteral (literalChange line), lines := [literalLine n line] } := by
  have hfeed : feed n line = place n line := if_pos h
  rw [hfeed]
  unfold literalChange literalLine
  have hplaced := placed_place n line
  generalize place n line = p at hplaced
  cases hplaced with
  | blank hblank =>
    have hcode : ¬ IsCode (trim line) := fun hc => hc.1 hblank
    rw [if_neg hcode, if_pos hblank, adjustLiteral_zero h]
  | comment hcomment =>
    have hcode : ¬ IsCode (trim line) := fun hc => by
      rw [hc.2] at hcomment
      exact absurd hcomment (by decide)
    have hne : trim line ≠ [] := fun hnil => by
      rw [hnil] at hcomment
      exact absurd hcomment (by decide)
    rw [if_neg hcode, if_neg hne, if_pos hcomment, adjustLiteral_zero h]
  | continuation hcode =>
    rw [if_pos hcode, if_neg hcode.1, if_neg (by simp [hcode.2])]
  | stray hin => rw [h] at hin; exact absurd hin (by decide)
  | literal _ hin => rw [h] at hin; exact absurd hin (by decide)
  | block _ hin => rw [h] at hin; exact absurd hin (by decide)
  | statement _ hin => rw [h] at hin; exact absurd hin (by decide)

/-- The nesting with a literal whose first line stands at column `base`, once `depth` more braces of it
were opened than closed. -/
def insideLiteral (n : Nesting) (base : Nat) (depth : Int) : Nesting :=
  { n with literalDepth := depth.toNat, literalBase := if depth ≤ 0 then 0 else base }

theorem enterLiteral_eq (n : Nesting) (base : Nat) (depth : Int) :
    n.enterLiteral base depth = insideLiteral n base depth := by
  have hdepth : ((0 : Nat) + depth).toNat = depth.toNat := by omega
  have hzero : depth.toNat = 0 ↔ depth ≤ 0 := by omega
  unfold Nesting.enterLiteral Nesting.adjustLiteral insideLiteral
  simp only [hdepth, hzero]

theorem inLiteral_insideLiteral {n : Nesting} {base : Nat} {depth : Int} (h : 0 < depth) :
    (insideLiteral n base depth).inLiteral = true := by
  unfold Nesting.inLiteral insideLiteral
  simp only [decide_eq_true_eq]
  omega

theorem adjustLiteral_insideLiteral {n : Nesting} {base : Nat} {depth : Int} (h : 0 < depth)
    (delta : Int) :
    (insideLiteral n base depth).adjustLiteral delta = insideLiteral n base (depth + delta) := by
  have hdepth : (depth.toNat + delta).toNat = (depth + delta).toNat := by omega
  have hzero : (depth + delta).toNat = 0 ↔ depth + delta ≤ 0 := by omega
  unfold Nesting.adjustLiteral insideLiteral
  simp only [hdepth, hzero, if_neg (by omega : ¬ depth ≤ 0)]

/-- A line that starts a literal is written as a statement. -/
theorem feed_startsLiteral {n : Nesting} (hn : n.inLiteral = false) {line : Text}
    (hcode : IsCode (trim line)) (hbrace : (trim line).head? ≠ some '}')
    (hlit : startsLiteral (trim line) = true) :
    (feed n line).nesting = insideLiteral n (indentation line) (netDepth (trim line)) ∧
      (feed n line).lines = [statement n (trim line)] := by
  rw [feed_of_head_ne hbrace, ← enterLiteral_eq]
  have hplaced := placed_place n line
  generalize place n line = p at hplaced
  cases hplaced with
  | blank h => exact absurd h hcode.1
  | comment h => rw [hcode.2] at h; exact absurd h (by decide)
  | continuation _ hin => rw [hn] at hin; exact absurd hin (by decide)
  | stray _ h => exact absurd h hbrace
  | literal => exact ⟨rfl, rfl⟩
  | block _ _ _ h => rw [hlit] at h; exact absurd h (by decide)
  | statement _ _ _ h => rw [hlit] at h; exact absurd h (by decide)

/-- Opening braces less closing braces of a literal, after its first line and `k` others. -/
def literalDepthAt (first : Text) (others : List Text) (k : Nat) : Int :=
  netDepth (trim first) + ((others.take k).map literalChange).sum

theorem literalDepthAt_succ (first : Text) {others : List Text} {k : Nat} (hk : k < others.length) :
    literalDepthAt first others (k + 1) =
      literalDepthAt first others k + literalChange others[k] := by
  unfold literalDepthAt
  rw [List.take_succ_eq_append_getElem hk, List.map_append, List.sum_append]
  simp [Int.add_assoc]

section Copied

variable {n : Nesting} {first : Text} {others : List Text}

/-- **The nesting along a literal**: only its depth changes, up to the line that ends it. -/
theorem after_literal (hn : n.inLiteral = false) (hcode : IsCode (trim first))
    (hbrace : (trim first).head? ≠ some '}') (hlit : startsLiteral (trim first) = true)
    (hpos : ∀ k < others.length, 0 < literalDepthAt first others k) :
    ∀ k ≤ others.length, after n ((first :: others).take (k + 1)) =
      insideLiteral n (indentation first) (literalDepthAt first others k) := by
  intro k
  induction k with
  | zero =>
    intro _
    have hfirst := (feed_startsLiteral hn hcode hbrace hlit).1
    rw [List.take_succ_cons, List.take_zero, after_cons, after_nil, hfirst]
    simp [literalDepthAt]
  | succ k ih =>
    intro hk
    have hopen := hpos k (by omega)
    rw [after_take_succ n (by simp; omega), ih (by omega), List.getElem_cons_succ,
      feed_inLiteral (inLiteral_insideLiteral hopen), adjustLiteral_insideLiteral hopen,
      literalDepthAt_succ first (by omega)]

/-- How many levels a line of a literal is indented: whole levels to the right of the line that opened
the literal, and at least one as soon as it stands to the right at all. -/
def relativeLevel (w : Width) (base column : Nat) : Nat :=
  let right : Int := column - base
  if right ≤ 0 then 0 else max 1 (right / w.spaces).toNat

/-- A line of a literal as it is written, the literal being inside `level` blocks and its first line
at column `base`. -/
def copied (w : Width) (level base : Nat) (line : Text) : Text :=
  if trim line = [] then []
  else if Keyword.isComment (trim line) then w.indent level ++ trim line
  else w.indent (relativeLevel w base (indentation line)) ++ Keyword.stripTerminator (trim line)

theorem levels_sub (w : Width) (base column : Nat) :
    w.levels (column - base) = relativeLevel w base column := by
  unfold Width.levels relativeLevel
  simp only
  by_cases h : column ≤ base
  · rw [if_pos (by omega), if_pos (by omega)]
  · have hcast : ((column : Int) - base) = ((column - base : Nat) : Int) := by omega
    rw [if_neg (by omega), if_neg (by omega), hcast, ← Int.natCast_ediv, Int.toNat_natCast]

theorem render_literalLine (w : Width) (n : Nesting) (line : Text) :
    (literalLine n line).render w = copied w n.level n.literalBase line := by
  unfold literalLine copied
  split_ifs
  · exact OutLine.render_blank w
  · rfl
  · rw [← levels_sub]
    rfl

/-- **A data literal over several lines is copied through and never touches the blocks around it.**
The literal starts on `first`, and the depth stays positive up to the last of the other lines, where it
falls to zero. The line numbered `k` is fed to the nesting after the `k` lines before it. -/
theorem literal_copied (w : Width) (hn : n.literalDepth = 0) (hcode : IsCode (trim first))
    (hbrace : (trim first).head? ≠ some '}') {i : Nat} (hopen : openLiteralAt? (trim first) = some i)
    (hbefore : ∀ j < i, (roles (trim first))[j]? ≠ some (some .structural))
    (hpos : ∀ k < others.length, 0 < literalDepthAt first others k)
    (hend : literalDepthAt first others others.length ≤ 0)
    (k : Nat) (hk : k < (first :: others).length) :
    let p := feed (after n ((first :: others).take k)) (first :: others)[k]
    p.nesting.level = n.level ∧ p.nesting.openBlocks = n.openBlocks ∧
      (k < others.length → (p.nesting.literalDepth : Int) = literalDepthAt first others k ∧
        p.nesting.literalBase = indentation first) ∧
      (k = others.length → p.nesting.literalDepth = 0 ∧ p.nesting.literalBase = 0) ∧
      p.lines.map (OutLine.render w) =
        [if k = 0 then w.indent n.level ++ Keyword.stripTerminator (trim first)
          else copied w n.level (indentation first) (first :: others)[k]] := by
  have hin : n.inLiteral = false := by simp [Nesting.inLiteral, hn]
  have hlit := startsLiteral_of_openLiteralAt hopen hbefore
  have hafter := after_literal hin hcode hbrace hlit hpos
  have hnesting : (feed (after n ((first :: others).take k)) (first :: others)[k]).nesting =
      insideLiteral n (indentation first) (literalDepthAt first others k) := by
    rw [← after_take_succ n hk]
    exact hafter k (by simpa [Nat.lt_succ_iff] using hk)
  intro p
  refine ⟨by rw [hnesting]; rfl, by rw [hnesting]; rfl, fun hlt => ?_, fun heq => ?_, ?_⟩
  · have hdepth := hpos k hlt
    rw [hnesting]
    unfold insideLiteral
    exact ⟨Int.toNat_of_nonneg (by omega), if_neg (by omega)⟩
  · rw [← heq] at hend
    rw [hnesting]
    unfold insideLiteral
    exact ⟨Int.toNat_of_nonpos hend, if_pos hend⟩
  · cases k with
    | zero =>
      have hfirst := (feed_startsLiteral hin hcode hbrace hlit).2
      simp only [p, List.take_zero, after_nil, List.getElem_cons_zero, hfirst]
      rfl
    | succ k =>
      have hlt : k < others.length := by simpa using hk
      have hdepth := hpos k hlt
      have hinside : (insideLiteral n (indentation first)
          (literalDepthAt first others k)).inLiteral = true := inLiteral_insideLiteral hdepth
      have hbase : (insideLiteral n (indentation first)
          (literalDepthAt first others k)).literalBase = indentation first := if_neg (by omega)
      simp only [p, hafter k (by omega), List.getElem_cons_succ, feed_inLiteral hinside,
        List.map_cons, List.map_nil, render_literalLine, hbase]
      rfl

/-- A dict inside a block, with a nested dict, a comment, a blank line, a line that closes one brace
and opens another, and a last line that closes them all. -/
theorem literal_copied_dict :
    let n : Nesting := { level := 1, openBlocks := 1 }
    let first := "  table = \x7b".toList
    let others := ["    'a': \x7b".toList, "      # \x7d \x7d".toList, [], "    \x7d, 'b': \x7b".toList,
      "  \x7d\x7d;".toList]
    let p := feed (after n ((first :: others).take 4)) "    \x7d, 'b': \x7b".toList
    openLiteralAt? (trim first) = some 8 ∧
      (∀ k < others.length, 0 < literalDepthAt first others k) ∧
      literalDepthAt first others others.length ≤ 0 ∧
      p.nesting.openBlocks = 1 ∧ (p.nesting.literalDepth : Int) = 2 ∧ p.nesting.literalBase = 2 ∧
      p.lines.map (OutLine.render .standard) = ["    \x7d, 'b': \x7b".toList] := by
  intro n first others p
  have hopen : openLiteralAt? (trim first) = some 8 := by decide
  have hpos : ∀ k < others.length, 0 < literalDepthAt first others k := by decide
  have hend : literalDepthAt first others others.length ≤ 0 := by decide
  obtain ⟨-, hblocks, hdepth, -, hlines⟩ := @literal_copied n first others .standard rfl
    (by decide) (by decide) 8 hopen (by decide) hpos hend 4 (by decide)
  obtain ⟨hdepth, hbase⟩ := hdepth (by decide)
  exact ⟨hopen, hpos, hend, hblocks, hdepth.trans (by decide), hbase.trans (by decide),
    hlines.trans (by decide)⟩

end Copied

end Layout

end Offside
