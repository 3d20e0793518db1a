import Offside.Proofs.Run

/-!
# The off-side rule

What is written can be read back as blocks by indentation. Blank lines and the lines inside a data
literal have no say in this; among the others (`governed`) a line stands at most one level deeper than
the one before, and deeper only if that one is a header.

The step lemma is `feed_steps`: what a line of source is written as starts no deeper than the nesting
before it, and the nesting after it is no deeper than what is written last allows (`OutLine.ceiling`).
-/

namespace Offside

namespace OutLine

/-- Whether a line was written inside a data literal. -/
def isContinuation : OutLine → Bool
  | continuation .. => true
  | _ => false

/-- The deepest level at which the line after it may stand. -/
def ceiling (w : Width) : OutLine → Nat
  | header level _ => level + 1
  | line => line.levelAt w

theorem ceiling_le (w : Width) (line : OutLine) : line.ceiling w ≤ line.levelAt w + 1 := by
  cases line with
  | header level text => exact le_rfl
  | blank | plain | continuation => exact Nat.le_succ _

/-- Only a header lets the next line stand deeper. -/
theorem exists_header_of_lt_ceiling {w : Width} {line : OutLine} (h : line.levelAt w < line.ceiling w) :
    ∃ level text, line = header level text := by
  cases line with
  | header level text => exact ⟨level, text, rfl⟩
  | blank | plain | continuation => exact absurd h (lt_irrefl _)

end OutLine

namespace Layout

open Text Brace

/-- The lines that the off-side rule is about: those that hold more than blanks, outside literals. -/
def governed (w : Width) (lines : List OutLine) : List OutLine :=
  lines.filter fun line => !line.isContinuation && !decide (Blank (line.render w))

theorem governed_append (w : Width) (xs ys : List OutLine) :
    governed w (xs ++ ys) = governed w xs ++ governed w ys := List.filter_append ..

theorem mem_governed {w : Width} {lines : List OutLine} {line : OutLine} :
    line ∈ governed w lines ↔
      line ∈ lines ∧ line.isContinuation = false ∧ ¬ Blank (line.render w) := by
  simp [governed]

/-! ### Every text starts with a character that shows -/

/-- The text does not start with a blank. -/
def Starts (t : Text) : Prop := ∀ c, t.head? = some c → isBlank c = false

theorem Starts.of_isPrefix {t u : Text} (h : Starts u) (hp : t <+: u) : Starts t := by
  intro c hc
  obtain ⟨rest, rfl⟩ := hp
  exact h c (by rw [List.head?_append, hc]; rfl)

theorem starts_trim (t : Text) : Starts (trim t) := fun _ => head_trim

theorem starts_body {tail : Text} (h : Starts tail) {level : Nat} {line : OutLine}
    (hmem : line ∈ (Body.ofTail tail).lines level) : Starts line.text := by
  unfold Body.ofTail at hmem
  split_ifs at hmem
  · rw [List.mem_singleton.mp hmem]
    intro c hc
    rw [← Option.some.inj hc]
    decide
  · exact absurd hmem (by simp [Body.lines])
  · rw [List.mem_singleton.mp hmem]
    have hend := trimEnd_prefix tail.dropLast
    exact h.of_isPrefix ((Keyword.stripTerminator_isPrefix _).trans
      (hend.trans (List.dropLast_prefix _)))
  · rw [List.mem_singleton.mp hmem]
    exact h.of_isPrefix (Keyword.stripTerminator_isPrefix _)

theorem Placed.starts {n : Nesting} {raw : Text} {p : Placement} (h : Placed n raw p)
    {line : OutLine} (hmem : line ∈ p.lines) : Starts line.text := by
  have htrim := starts_trim raw
  have hstrip := htrim.of_isPrefix (Keyword.stripTerminator_isPrefix (trim raw))
  cases h with
  | blank =>
    rw [List.mem_singleton.mp hmem]
    exact fun c hc => absurd hc (by simp [OutLine.text])
  | comment =>
    rw [List.mem_singleton.mp hmem]
    exact htrim
  | continuation | stray | literal | statement =>
    rw [List.mem_singleton.mp hmem]
    exact hstrip
  | block _ _ _ _ before after =>
    rcases List.mem_cons.mp hmem with rfl | hbody
    · intro c hc
      rw [OutLine.text, List.head?_append, Option.or_eq_some_iff] at hc
      rcases hc with hc | ⟨-, hc⟩
      · exact head_trim hc
      · rw [← Option.some.inj hc]
        decide
    · exact starts_body (starts_trim after) hbody

/-! ### One line of source -/

/-- Lines that can be written where `start` is the deepest level, after which a line may stand as deep
as `level`. -/
inductive Steps (w : Width) : Nat → List OutLine → Nat → Prop where
  | stop {start level : Nat} (h : level ≤ start) : Steps w start [] level
  | line {start level : Nat} {line : OutLine} {later : List OutLine} (h : line.levelAt w ≤ start)
      (rest : Steps w (line.ceiling w) later level) : Steps w start (line :: later) level

section Steps

variable {w : Width} {start level : Nat}

theorem Steps.mono {start' : Nat} {lines : List OutLine} (h : Steps w start lines level)
    (hle : start ≤ start') : Steps w start' lines level := by
  cases h with
  | stop h => exact .stop (h.trans hle)
  | line h rest => exact .line (h.trans hle) rest

theorem Steps.append {level' : Nat} {xs ys : List OutLine} (hx : Steps w start xs level)
    (hy : Steps w level ys level') : Steps w start (xs ++ ys) level' := by
  induction hx with
  | stop h => exact hy.mono h
  | line h _ ih => exact .line h (ih hy)

theorem Steps.head_le {lines : List OutLine} (h : Steps w start lines level) {line : OutLine}
    (hline : lines.head? = some line) : line.levelAt w ≤ start := by
  cases h with
  | stop => exact absurd hline (by simp)
  | line h => exact Option.some.inj hline ▸ h

theorem Steps.next_le {lines : List OutLine} (h : Steps w start lines level) {i : Nat}
    (hi : i + 1 < lines.length) : lines[i + 1].levelAt w ≤ lines[i].ceiling w := by
  induction h generalizing i with
  | stop => simp at hi
  | line _ rest ih =>
    cases i with
    | zero => exact rest.head_le (by simp [List.head?_eq_getElem?])
    | succ i => exact ih (by simpa using hi)

/-- A line that is written at its level, or does not count. -/
theorem steps_plain {level' : Nat} (h : level ≤ start) (h' : level' ≤ level) (text : Text) :
    Steps w start (governed w [.plain level text]) level' := by
  by_cases hblank : Blank ((OutLine.plain level text).render w)
  · have hnone : governed w [.plain level text] = [] := by simp [governed, hblank]
    rw [hnone]
    exact .stop (h'.trans h)
  · have hone : governed w [.plain level text] = [.plain level text] := by
      simp [governed, hblank, OutLine.isContinuation]
    rw [hone]
    exact .line h (.stop h')

end Steps

/-- Headers count. -/
theorem governed_header (w : Width) (level : Nat) (head : Text) (lines : List OutLine) :
    governed w (.header level (head ++ [':']) :: lines) =
      .header level (head ++ [':']) :: governed w lines := by
  refine List.filter_cons_of_pos ?_
  have hcolon : ¬ Blank ((OutLine.header level (head ++ [':'])).render w) := by
    intro hblank
    have hshows := hblank ':' (by simp [OutLine.render, OutLine.text])
    exact absurd hshows (by decide)
  simp [OutLine.isContinuation, hcolon]

theorem Placed.steps {n : Nesting} {raw : Text} {p : Placement} (h : Placed n raw p) (w : Width) :
    Steps w n.level (governed w p.lines) p.nesting.level := by
  cases h with
  | blank =>
    have hnone : governed w [.blank] = [] := by simp [governed]
    rw [hnone]
    exact .stop le_rfl
  | continuation => exact .stop le_rfl
  | comment | stray | literal | statement => exact steps_plain le_rfl le_rfl _
  | block _ _ _ _ before after =>
    -- the header always counts, so a body may stand one level deeper even if the block ends with it
    rw [governed_header]
    refine .line le_rfl ?_
    cases Body.ofTail (trim after) with
    | later => exact .stop le_rfl
    | started text => exact steps_plain le_rfl le_rfl text
    | whole text => exact steps_plain le_rfl (Nat.le_succ _) text

/-- **What one line of source is written as** keeps to the rule, from the nesting before it to the nesting
after it. -/
theorem feed_steps (w : Width) (n : Nesting) (raw : Text) :
    Steps w n.level (governed w (feed n raw).lines) (feed n raw).nesting.level := by
  have hclose : (n.closeBlocks (ended n raw)).level ≤ n.level := Nat.sub_le ..
  rcases feed_cases n raw with hfeed | ⟨rest, hplaced⟩
  · rw [hfeed]
    exact .stop hclose
  · exact (hplaced.steps w).mono hclose

/-! ### Whole sources -/

/-- **So does a whole source.** -/
theorem laid_steps (w : Width) (n : Nesting) (lines : List Text) :
    Steps w n.level (governed w (laid n lines)) (after n lines).level := by
  induction lines generalizing n with
  | nil => exact .stop le_rfl
  | cons line later ih =>
    rw [laid, governed_append, after_cons]
    exact (feed_steps w n line).append (ih _)

/-- Every line that is written was placed. -/
theorem exists_placed_of_mem_laid {n : Nesting} {lines : List Text} {line : OutLine}
    (h : line ∈ laid n lines) : ∃ m raw p, Placed m raw p ∧ line ∈ p.lines := by
  induction lines generalizing n with
  | nil => exact absurd h (by simp [laid])
  | cons raw later ih =>
    rw [laid, List.mem_append] at h
    rcases h with h | h
    · rcases feed_cases n raw with hfeed | ⟨rest, hplaced⟩
      · rw [hfeed] at h
        exact absurd h (by simp)
      · exact ⟨_, rest, _, hplaced, h⟩
    · exact ih h

theorem Placed.header_text {n : Nesting} {raw : Text} {p : Placement} (h : Placed n raw p)
    {level : Nat} {text : Text} (hmem : .header level text ∈ p.lines) :
    ∃ head, Keyword.isHeader head = true ∧ text = head ++ [':'] := by
  obtain ⟨before, after, -, -, hhead, rfl⟩ := h.of_header hmem
  refine ⟨trim before, hhead, ?_⟩
  rcases List.mem_cons.mp hmem with heq | hbody
  · exact (OutLine.header.inj heq).2
  · cases hofTail : Body.ofTail (trim after) <;> simp [hofTail, Body.lines] at hbody

/-- The columns before a text that starts with no blank. -/
theorem Starts.indentation_indent {text : Text} (h : Starts text) (w : Width) (level : Nat) :
    indentation (w.indent level ++ text) = level * w.spaces := by
  have hpad : ∀ c ∈ w.indent level, (c == ' ' || c == '\t') = true := by
    intro c hc
    rw [List.eq_of_mem_replicate hc]
    decide
  have hstop : text.takeWhile (fun c => c == ' ' || c == '\t') = [] := by
    cases text with
    | nil => rfl
    | cons c rest =>
      have hc : isBlank c = false := h c rfl
      refine List.takeWhile_cons_of_neg fun hspace => ?_
      rcases Bool.or_eq_true_iff.mp hspace with hspace | hspace <;>
      · rw [eq_of_beq hspace] at hc
        exact absurd hc (by decide)
  unfold indentation
  rw [List.takeWhile_append_of_pos hpad, hstop, List.append_nil]
  exact List.length_replicate

theorem Starts.indentation_eq_zero {t : Text} (h : Starts t) : indentation t = 0 := by
  have hindent := h.indentation_indent .standard 0
  rwa [Width.indent_zero, List.nil_append, Nat.zero_mul] at hindent

theorem starts_of_mem_laid {n : Nesting} {lines : List Text} {line : OutLine} (h : line ∈ laid n lines) :
    Starts line.text := by
  obtain ⟨m, raw, p, hplaced, hline⟩ := exists_placed_of_mem_laid h
  exact hplaced.starts hline

theorem exists_text_of_governed {w : Width} {n : Nesting} {lines : List Text} {line : OutLine}
    (h : line ∈ governed w (laid n lines)) :
    ∃ c rest, isBlank c = false ∧ line.render w = w.indent (line.levelAt w) ++ c :: rest := by
  obtain ⟨hmem, -, hshows⟩ := mem_governed.mp h
  unfold OutLine.render at hshows ⊢
  cases htext : line.text with
  | nil =>
    rw [htext, List.append_nil] at hshows
    exact absurd (blank_indent w _) hshows
  | cons c rest => exact ⟨c, rest, starts_of_mem_laid hmem c (by rw [htext]; rfl), rfl⟩

theorem indentation_governed {w : Width} {n : Nesting} {lines : List Text} {line : OutLine}
    (h : line ∈ governed w (laid n lines)) :
    indentation (line.render w) = line.levelAt w * w.spaces :=
  (starts_of_mem_laid (mem_governed.mp h).1).indentation_indent w _

/-- **The lines that are written keep to the off-side rule.** Blank lines and the lines inside a data
literal apart, every line is a whole number of levels of spaces and a text that starts with no blank; the
first stands at the margin; the next line stands at most one level deeper than a line, and if it does
stand one level deeper, that line is a header followed by a colon. -/
theorem laid_keeps_offside_rule (w : Width) (lines : List Text) :
    (∀ line ∈ governed w (laid {} lines), ∃ level c rest, isBlank c = false ∧
      line.render w = List.replicate (level * w.spaces) ' ' ++ c :: rest) ∧
    (∀ line, (governed w (laid {} lines)).head? = some line → indentation (line.render w) = 0) ∧
    ∀ (i : Nat) (hi : i + 1 < (governed w (laid {} lines)).length),
      let a := indentation ((governed w (laid {} lines))[i].render w)
      let b := indentation ((governed w (laid {} lines))[i + 1].render w)
      b ≤ a + w.spaces ∧ (b = a + w.spaces → ∃ level head, Keyword.isHeader head = true ∧
        (governed w (laid {} lines))[i] = .header level (head ++ [':'])) := by
  have hsteps := laid_steps w {} lines
  refine ⟨?_, ?_, ?_⟩
  · intro line hline
    obtain ⟨c, rest, hc, hrender⟩ := exists_text_of_governed hline
    exact ⟨_, c, rest, hc, hrender⟩
  · intro line hline
    have hlevel := hsteps.head_le hline
    rw [indentation_governed (List.mem_of_mem_head? hline), Nat.le_zero.mp hlevel, Nat.zero_mul]
  · intro i hi a b
    have hmem := List.getElem_mem (Nat.lt_of_succ_lt hi)
    have ha : a = (governed w (laid {} lines))[i].levelAt w * w.spaces := indentation_governed hmem
    have hb : b = (governed w (laid {} lines))[i + 1].levelAt w * w.spaces :=
      indentation_governed (List.getElem_mem hi)
    have hnext := hsteps.next_le hi
    have hceiling := OutLine.ceiling_le w (governed w (laid {} lines))[i]
    have hdeeper : a + w.spaces = ((governed w (laid {} lines))[i].levelAt w + 1) * w.spaces := by
      rw [ha, Nat.succ_mul]
    rw [hdeeper, hb]
    refine ⟨Nat.mul_le_mul_right _ (hnext.trans hceiling), fun heq => ?_⟩
    have hlevel := Nat.eq_of_mul_eq_mul_right w.pos heq
    obtain ⟨level, text, hheader⟩ := OutLine.exists_header_of_lt_ceiling
      (show (governed w (laid {} lines))[i].levelAt w < OutLine.ceiling w _ by omega)
    rw [hheader] at hmem ⊢
    obtain ⟨m, raw, p, hplaced, hline⟩ := exists_placed_of_mem_laid (mem_governed.mp hmem).1
    obtain ⟨head, hhead, rfl⟩ := hplaced.header_text hline
    exact ⟨level, head, hhead, rfl⟩

/-- A block with a literal in it, a body that is nothing but a terminator, and a block on one line. -/
theorem laid_keeps_offside_rule_literal :
    let w : Width := ⟨2, by decide⟩
    let lines := ["if x \x7b".toList, "  d = \x7b".toList, "      1".toList, "  \x7d".toList,
      "  while y \x7b ; \x7d".toList, "\x7d else \x7b stop(); \x7d".toList, "go()".toList]
    let out := governed w (laid {} lines)
    out.map (OutLine.render w) = ["if x:".toList, "  d = \x7b".toList, "  while y:".toList,
        "else:".toList, "  stop()".toList, "go()".toList] ∧
      indentation ("if x:".toList) = 0 ∧
      (∃ level c rest, isBlank c = false ∧
        "  while y:".toList = List.replicate (level * w.spaces) ' ' ++ c :: rest) ∧
      ∃ level head, Keyword.isHeader head = true ∧ out[3]? = some (.header level (head ++ [':'])) := by
  intro w lines out
  have hout : out.map (OutLine.render w) = ["if x:".toList, "  d = \x7b".toList,
      "  while y:".toList, "else:".toList, "  stop()".toList, "go()".toList] := by decide
  have hhead : out.head? = some (.header 0 "if x:".toList) := by decide
  have hwhile : .header 1 "while y:".toList ∈ out := by decide
  obtain ⟨htext, hfirst, hnext⟩ := laid_keeps_offside_rule w lines
  obtain ⟨level, head, hheader, hline⟩ := (hnext 3 (by decide)).2 (by decide)
  exact ⟨hout, hfirst _ hhead, htext _ hwhile, level, head, hheader,
    (List.getElem?_eq_getElem (by decide)).trans (congrArg some hline)⟩

end Layout

end Offside
