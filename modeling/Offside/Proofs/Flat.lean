import Offside.Proofs.Indentation
import Offside.Proofs.LineBreaks
import Offside.Proofs.Literal
import Offside.Proofs.Reachable

/-!
# Sources without blocks

A source in which no line has a structural brace is flattened: each line is written as one line, at the
margin, unless a data literal is open (`feed_flat` for one line, `laid_flat` for all). Closing braces at the
start of a line stay, for there is no block to end.

What comes out can be put in again. The second run sees other columns than the first, but a literal that
starts at the margin has its lines at whole levels, and these stay where they are
(`relativeLevel_mul`). So the two runs go through the same nestings, but for the column of the literal
(`feed_flattened`), and write the same lines (`flattenedLines_flattenedLines`).
-/

namespace Offside

/-- The nesting with the first line of its literal at the margin. -/
def Nesting.atMargin (n : Nesting) : Nesting := { n with literalBase := 0 }

theorem Nesting.inLiteral_atMargin (n : Nesting) : n.atMargin.inLiteral = n.inLiteral := rfl

theorem Nesting.adjustLiteral_atMargin (n : Nesting) (delta : Int) :
    n.atMargin.adjustLiteral delta = (n.adjustLiteral delta).atMargin := by
  simp [adjustLiteral, atMargin]

theorem Nesting.enterLiteral_atMargin (n : Nesting) (base : Nat) (depth : Int) :
    n.atMargin.enterLiteral 0 depth = (n.enterLiteral base depth).atMargin := by
  simp [enterLiteral, adjustLiteral, atMargin]

namespace Layout

open Text Brace

/-- A blank, a comment, or code without a structural brace. -/
def Unbraced (line : Text) : Prop := IsCode (trim line) → structuralAt? (trim line) = none

instance (line : Text) : Decidable (Unbraced line) := inferInstanceAs (Decidable (_ → _))

/-- No block is open. -/
structure Flat (n : Nesting) : Prop where
  level_eq : n.level = 0
  openBlocks_eq : n.openBlocks = 0

theorem flat_start : Flat {} := ⟨rfl, rfl⟩

/-- A line of a source without blocks as it is written, the nesting before it being given. -/
def flattened (w : Width) (n : Nesting) (line : Text) : Text :=
  if trim line = [] then []
  else if Keyword.isComment (trim line) then trim line
  else if n.literalDepth = 0 then Keyword.stripTerminator (trim line)
  else w.indent (relativeLevel w n.literalBase (indentation line)) ++ Keyword.stripTerminator (trim line)

theorem literalDepth_eq_zero {n : Nesting} (h : n.inLiteral = false) : n.literalDepth = 0 := by
  simpa [Nesting.inLiteral] using h

theorem flattened_of_not_inLiteral {n : Nesting} (hin : n.inLiteral = false) {line : Text}
    (hcode : IsCode (trim line)) (w : Width) :
    flattened w n line = Keyword.stripTerminator (trim line) := by
  rw [flattened, if_neg hcode.1, if_neg (by simp [hcode.2]), if_pos (literalDepth_eq_zero hin)]

theorem Flat.render_statement {n : Nesting} (hn : Flat n) (w : Width) (text : Text) :
    (statement n text).render w = Keyword.stripTerminator text := by
  rw [statement, OutLine.render, OutLine.levelAt, hn.level_eq, Width.indent_zero]
  rfl

/-- **A line without a structural brace is written as one line**, and no block is open after it if none
was before. -/
theorem feed_flat {n : Nesting} (hn : Flat n) {line : Text} (h : Unbraced line) (w : Width) :
    (feed n line).lines.map (OutLine.render w) = [flattened w n line] ∧ Flat (feed n line).nesting := by
  rw [feed_of_no_blocks hn.openBlocks_eq]
  have hplaced := placed_place n line
  generalize place n line = p at hplaced
  cases hplaced with
  | blank hblank =>
    refine ⟨?_, hn⟩
    rw [flattened, if_pos hblank, List.map_singleton, OutLine.render_blank]
  | comment hcomment =>
    refine ⟨?_, hn⟩
    have hne : trim line ≠ [] := by
      intro hnil
      rw [hnil] at hcomment
      exact absurd hcomment (by decide)
    rw [flattened, if_neg hne, if_pos hcomment, List.map_singleton, OutLine.render, OutLine.levelAt,
      hn.level_eq, Width.indent_zero]
    rfl
  | continuation hcode hin =>
    refine ⟨?_, hn.level_eq, hn.openBlocks_eq⟩
    have hdepth : n.literalDepth ≠ 0 := by
      simp only [Nesting.inLiteral, decide_eq_true_eq] at hin
      omega
    rw [flattened, if_neg hcode.1, if_neg (by simp [hcode.2]), if_neg hdepth, List.map_singleton,
      ← levels_sub]
    rfl
  | stray hin hbrace =>
    refine ⟨?_, hn⟩
    have hcode : IsCode (trim line) := by
      obtain ⟨text, htext⟩ := List.head?_eq_some_iff.mp hbrace
      rw [htext]
      exact ⟨by simp, rfl⟩
    rw [List.map_singleton, hn.render_statement, flattened_of_not_inLiteral hin hcode]
  | literal hcode hin =>
    refine ⟨?_, hn.level_eq, hn.openBlocks_eq⟩
    rw [List.map_singleton, hn.render_statement, flattened_of_not_inLiteral hin hcode]
  | block hcode _ _ _ before after split =>
    -- a line that opens a block has a structural brace
    have hnone := h hcode
    rw [split.first] at hnone
    exact absurd hnone (by simp)
  | statement hcode hin =>
    refine ⟨?_, hn⟩
    rw [List.map_singleton, hn.render_statement, flattened_of_not_inLiteral hin hcode]

/-! ### Line for line -/

/-- The lines of a source without blocks as they are written. -/
def flattenedLines (w : Width) (n : Nesting) : List Text → List Text
  | [] => []
  | line :: later => flattened w n line :: flattenedLines w (feed n line).nesting later

theorem length_flattenedLines (w : Width) (n : Nesting) (lines : List Text) :
    (flattenedLines w n lines).length = lines.length := by
  induction lines generalizing n with
  | nil => rfl
  | cons line later ih => rw [flattenedLines, List.length_cons, List.length_cons, ih]

theorem getElem_flattenedLines (w : Width) (n : Nesting) {lines : List Text} {k : Nat}
    (hk : k < lines.length) :
    (flattenedLines w n lines)[k]? = some (flattened w (after n (lines.take k)) lines[k]) := by
  induction lines generalizing n k with
  | nil => exact absurd hk (by simp)
  | cons line later ih =>
    cases k with
    | zero => rfl
    | succ k => exact ih (feed n line).nesting (by simpa using hk)

theorem exists_of_mem_flattenedLines {w : Width} {n : Nesting} {lines : List Text} {out : Text}
    (h : out ∈ flattenedLines w n lines) : ∃ m, ∃ line ∈ lines, out = flattened w m line := by
  induction lines generalizing n with
  | nil => exact absurd h (by simp [flattenedLines])
  | cons line later ih =>
    rcases List.mem_cons.mp h with rfl | h
    · exact ⟨n, line, by simp, rfl⟩
    · obtain ⟨m, other, hmem, hout⟩ := ih h
      exact ⟨m, other, by simp [hmem], hout⟩

theorem laid_flat {n : Nesting} (hn : Flat n) {lines : List Text} (h : ∀ line ∈ lines, Unbraced line)
    (w : Width) :
    (laid n lines).map (OutLine.render w) = flattenedLines w n lines ∧ Flat (after n lines) := by
  induction lines generalizing n with
  | nil => exact ⟨rfl, hn⟩
  | cons line later ih =>
    obtain ⟨hline, hflat⟩ := feed_flat hn (h line (by simp)) w
    obtain ⟨hlater, hafter⟩ := ih hflat fun l hl => h l (by simp [hl])
    refine ⟨?_, hafter⟩
    rw [laid, List.map_append, hline, hlater]
    rfl

/-- Lines without a structural brace can only show colons. -/
theorem agrees_of_unbraced {lines : List Text} (h : ∀ line ∈ lines, Unbraced line) :
    Style.Agrees none lines := by
  refine ⟨.colon, by simp, fun line hline found hfound => ?_⟩
  unfold Style.evidence? Style.ofTrimmed? at hfound
  split_ifs at hfound with hskip hbrace hcolon
  · simp only [Bool.or_eq_true, List.isEmpty_iff, not_or, Bool.not_eq_true] at hskip
    rw [h line hline hskip] at hbrace
    exact absurd hbrace (by simp)
  · exact (Option.some.inj hfound).symm

theorem convertLines_flat (w : Width) {lines : List Text} (h : ∀ line ∈ lines, Unbraced line) :
    (Converter.convertLines { width := w } lines).result =
        .ok (Converter.dropLeadingBlank (flattenedLines w {} lines)) ∧
      (Converter.convertLines { width := w } lines).converter.nesting = after {} lines := by
  obtain ⟨hresult, hconverter⟩ := Converter.convertLines_of_agrees w (agrees_of_unbraced h)
  rw [hresult, hconverter, (laid_flat flat_start h w).1]
  exact ⟨rfl, rfl⟩

/-- **A source without structural braces is flattened line for line.** It is converted, no block is open
after any of its lines, and for each line one is written, the line `flattened` by the nesting that the run
over the lines before it leaves. -/
theorem flat_line_for_line (w : Width) (lines : List Text) (h : ∀ line ∈ lines, Unbraced line) :
    (∀ k, (Converter.convertLines { width := w } (lines.take k)).converter.nesting =
        after {} (lines.take k) ∧
      (after {} (lines.take k)).level = 0 ∧ (after {} (lines.take k)).openBlocks = 0) ∧
    ∃ out : List Text,
      (Converter.convertLines { width := w } lines).result = .ok (Converter.dropLeadingBlank out) ∧
      out.length = lines.length ∧
      ∀ (k : Nat) (hk : k < lines.length),
        out[k]? = some (flattened w (after {} (lines.take k)) lines[k]) := by
  refine ⟨fun k => ?_, flattenedLines w {} lines, (convertLines_flat w h).1,
    length_flattenedLines w {} lines, fun k hk => getElem_flattenedLines w {} hk⟩
  have htake : ∀ line ∈ lines.take k, Unbraced line := fun line hline => h line (List.mem_of_mem_take hline)
  have hflat := (laid_flat flat_start htake w).2
  exact ⟨(convertLines_flat w htake).2, hflat.level_eq, hflat.openBlocks_eq⟩

/-- An empty first line, a closing brace that ends nothing, a line that looks like a header, and a literal
with a comment and a closing brace in front of one of its lines. -/
theorem flat_line_for_line_literal :
    let w : Width := ⟨2, by decide⟩
    let lines := ["".toList, "  \x7d go();".toList, "    if x:".toList, "  d = \x7b".toList,
      "   # \x7b".toList, "       'a': [\x7b\x7d,".toList, "     \x7d; go(d);".toList]
    let out := ["\x7d go()".toList, "if x:".toList, "d = \x7b".toList, "# \x7b".toList,
      "    'a': [\x7b\x7d,".toList, "  \x7d; go(d)".toList]
    (∀ line ∈ lines, Unbraced line) ∧
      (Converter.convertLines { width := w } (lines.take 5)).converter.nesting.openBlocks = 0 ∧
      (Converter.convertLines { width := w } lines).result = .ok out ∧
      ∃ all : List Text, out = Converter.dropLeadingBlank all ∧ all.length = 7 ∧
        all[5]? = some "    'a': [\x7b\x7d,".toList := by
  intro w lines out
  have hbrace : ∀ line ∈ lines, Unbraced line := by decide
  have hrun : (Converter.convertLines { width := w } lines).result = .ok out := by decide
  obtain ⟨hstates, all, hall, hlength, hline⟩ := flat_line_for_line w lines hbrace
  obtain ⟨hnesting, -, hblocks⟩ := hstates 5
  rw [← hnesting] at hblocks
  have hout : out = Converter.dropLeadingBlank all := Except.ok.inj (hrun.symm.trans hall)
  exact ⟨hbrace, hblocks, hrun, all, hout, hlength, (hline 5 (by decide)).trans (by decide)⟩

/-! ### A second run -/

/-- A comment, or a text that does not end in a terminator. -/
def Unterminated (line : Text) : Prop :=
  Keyword.isComment (trim line) = false → (trim line).getLast? ≠ some Keyword.terminator

instance (line : Text) : Decidable (Unterminated line) := inferInstanceAs (Decidable (_ → _))

/-- The level at which a line of a source without blocks is written. -/
def flatLevel (w : Width) (n : Nesting) (line : Text) : Nat :=
  if IsCode (trim line) ∧ n.literalDepth ≠ 0 then relativeLevel w n.literalBase (indentation line) else 0

theorem flattened_eq {line : Text} (hterm : Unterminated line) (w : Width) (n : Nesting) :
    flattened w n line = w.indent (flatLevel w n line) ++ trim line := by
  unfold flattened flatLevel IsCode
  by_cases hblank : trim line = []
  · simp [hblank]
  by_cases hcomment : Keyword.isComment (trim line) = true
  · simp [hblank, hcomment]
  have hstrip : Keyword.stripTerminator (trim line) = trim line :=
    Keyword.stripTerminator_eq_self (hterm (by simpa using hcomment))
  by_cases hdepth : n.literalDepth = 0 <;> simp [hblank, hcomment, hstrip, hdepth]

theorem trim_flattened {line : Text} (hterm : Unterminated line) (w : Width) (n : Nesting) :
    trim (flattened w n line) = trim line := by
  have hpad := trim_pad (blank_indent w (flatLevel w n line)) blank_nil (trim line)
  rw [List.append_nil, trim_trim] at hpad
  rw [flattened_eq hterm, hpad]

theorem indentation_flattened {line : Text} (hterm : Unterminated line) (w : Width) (n : Nesting) :
    indentation (flattened w n line) = flatLevel w n line * w.spaces := by
  rw [flattened_eq hterm, (starts_trim line).indentation_indent]

/-- A line of a literal that stands at a whole level, the literal being at the margin, stays there. -/
theorem relativeLevel_mul (w : Width) (level : Nat) : relativeLevel w 0 (level * w.spaces) = level := by
  rw [← levels_sub, Nat.sub_zero, Width.levels]
  have hpos := w.pos
  split_ifs with hzero
  · exact ((Nat.mul_eq_zero.mp hzero).resolve_right (by omega)).symm
  · rw [Nat.mul_div_cancel _ hpos]
    have hlevel : level ≠ 0 := fun h => hzero (by rw [h, Nat.zero_mul])
    omega

/-- **A flattened line stays as it is** where the literal starts at the margin. -/
theorem flattened_flattened {line : Text} (hterm : Unterminated line) (w : Width) (n : Nesting) :
    flattened w n.atMargin (flattened w n line) = flattened w n line := by
  have htrim := trim_flattened hterm w n
  have hagain : Unterminated (flattened w n line) := by
    rw [Unterminated, htrim]
    exact hterm
  have hlevel : flatLevel w n.atMargin (flattened w n line) = flatLevel w n line := by
    rw [flatLevel, htrim, indentation_flattened hterm]
    by_cases hin : IsCode (trim line) ∧ n.literalDepth ≠ 0
    · exact (if_pos hin).trans (relativeLevel_mul w _)
    · exact (if_neg hin).trans (if_neg hin).symm
  rw [flattened_eq hagain, hlevel, htrim, ← flattened_eq hterm]

theorem placeBlock_atMargin (n : Nesting) (text : Text) (brace : Nat) :
    (placeBlock n.atMargin text brace).nesting = (placeBlock n text brace).nesting.atMargin := by
  unfold placeBlock
  simp only
  split_ifs
  · cases Body.ofTail (trim (text.drop (brace + 1))) <;> rfl
  · rfl

/-- Of a line, the nesting after it takes the trimmed text, and its column only where a literal may
start. -/
theorem place_atMargin {n : Nesting} {raw other : Text} (htrim : trim other = trim raw)
    (hcolumn : n.inLiteral = false → indentation other = 0) :
    (place n.atMargin other).nesting = (place n raw).nesting.atMargin := by
  unfold place
  simp only [htrim, Nesting.inLiteral_atMargin]
  split_ifs with hblank hcomment hin hbrace hliteral
  · rfl
  · rfl
  · exact n.adjustLiteral_atMargin _
  · rfl
  · rw [hcolumn (by simpa using hin)]
    exact n.enterLiteral_atMargin _ _
  · cases structuralAt? (trim raw) with
    | none => rfl
    | some brace => exact placeBlock_atMargin n _ brace

theorem flatLevel_eq_zero {n : Nesting} (h : n.inLiteral = false) (w : Width) (line : Text) :
    flatLevel w n line = 0 :=
  if_neg fun hin => hin.2 (literalDepth_eq_zero h)

theorem feed_flattened {n : Nesting} (hn : Flat n) {line : Text} (hterm : Unterminated line) (w : Width) :
    (feed n.atMargin (flattened w n line)).nesting = (feed n line).nesting.atMargin := by
  have hblocks : n.atMargin.openBlocks = 0 := hn.openBlocks_eq
  rw [feed_of_no_blocks hblocks, feed_of_no_blocks hn.openBlocks_eq]
  refine place_atMargin (trim_flattened hterm w n) fun hin => ?_
  rw [indentation_flattened hterm, flatLevel_eq_zero hin, Nat.zero_mul]

/-- **Flattened lines are written as they are.** The second run goes through the nestings of the first,
with each literal at the margin. -/
theorem flattenedLines_flattenedLines {n : Nesting} (hn : Flat n) {lines : List Text}
    (hbrace : ∀ line ∈ lines, Unbraced line) (hterm : ∀ line ∈ lines, Unterminated line) (w : Width) :
    flattenedLines w n.atMargin (flattenedLines w n lines) = flattenedLines w n lines := by
  induction lines generalizing n with
  | nil => rfl
  | cons line later ih =>
    have hline : Unterminated line := hterm line (by simp)
    have hflat : Flat (feed n line).nesting := (feed_flat hn (hbrace line (by simp)) w).2
    have hlater := ih hflat (fun l hl => hbrace l (by simp [hl])) fun l hl => hterm l (by simp [hl])
    rw [flattenedLines, flattenedLines, flattened_flattened hline, feed_flattened hn hline, hlater]

/-! ### As text -/

theorem newline_notMem_flattened {line : Text} (hterm : Unterminated line) (h : '\n' ∉ line) (w : Width)
    (n : Nesting) : '\n' ∉ flattened w n line := by
  rw [flattened_eq hterm, List.mem_append, not_or]
  constructor
  · intro hmem
    exact absurd (List.eq_of_mem_replicate hmem) (by decide)
  · intro hmem
    obtain ⟨a, b, -, -, hline⟩ := exists_trim line
    exact h (by rw [hline]; simp [hmem])

theorem getLast_flattened {line : Text} (hterm : Unterminated line) (w : Width) (n : Nesting) :
    (flattened w n line).getLast? ≠ some '\r' := by
  intro hret
  rw [flattened_eq hterm] at hret
  cases htext : (trim line).getLast? with
  | some c =>
    rw [List.getLast?_append, htext, Option.some_or, Option.some.injEq] at hret
    subst hret
    exact absurd (getLast_trim htext) (by decide)
  | none =>
    rw [List.getLast?_append, htext, Option.none_or] at hret
    exact absurd (List.eq_of_mem_replicate (List.mem_of_getLast? hret)) (by decide)

/-- Flattened lines can be told apart in the text that they make up. -/
theorem ofText_flattenedLines {lines : List Text} (hterm : ∀ line ∈ lines, Unterminated line)
    (hlines : ∀ line ∈ lines, '\n' ∉ line) (w : Width) (n : Nesting) :
    Lines.ofText (Lines.toText (flattenedLines w n lines)) = flattenedLines w n lines := by
  refine Lines.ofText_toText fun out hout => ?_
  obtain ⟨m, line, hmem, rfl⟩ := exists_of_mem_flattenedLines hout
  exact ⟨newline_notMem_flattened (hterm line hmem) (hlines line hmem) w m,
    getLast_flattened (hterm line hmem) w m⟩

theorem dropLeadingBlank_flattenedLines {lines : List Text}
    (hterm : ∀ line ∈ lines, Unterminated line)
    (hfirst : ∀ line ∈ lines.head?, trim line ≠ []) (w : Width) (n : Nesting) :
    Converter.dropLeadingBlank (flattenedLines w n lines) = flattenedLines w n lines := by
  cases lines with
  | nil => rfl
  | cons line later =>
    have hne : flattened w n line ≠ [] := by
      intro hnil
      have htrim := trim_flattened (hterm line (by simp)) w n
      rw [hnil, trim_nil] at htrim
      exact hfirst line rfl htrim.symm
    rw [flattenedLines]
    cases hout : flattened w n line with
    | nil => exact absurd hout hne
    | cons c rest => rfl

theorem unbraced_flattenedLines {lines : List Text} (hbrace : ∀ line ∈ lines, Unbraced line)
    (hterm : ∀ line ∈ lines, Unterminated line) (w : Width) (n : Nesting) :
    ∀ out ∈ flattenedLines w n lines, Unbraced out := by
  intro out hout
  obtain ⟨m, line, hmem, rfl⟩ := exists_of_mem_flattenedLines hout
  rw [Unbraced, trim_flattened (hterm line hmem)]
  exact hbrace line hmem

/-- **Flattened text is a fixed point.** A text without structural braces, without terminators and with a
first line that shows is converted into the text of its flattened lines, and this text, at the same width,
into itself. -/
theorem flattened_text_fixed (w : Width) (s : Text)
    (hbrace : ∀ line ∈ Lines.ofText s, Unbraced line)
    (hterm : ∀ line ∈ Lines.ofText s, Unterminated line)
    (hfirst : ∀ line ∈ (Lines.ofText s).head?, trim line ≠ []) :
    ∃ t, Lines.ofText t = flattenedLines w {} (Lines.ofText s) ∧
      (Converter.convertText { width := w } s).result = .ok t ∧
      (Converter.convertText { width := w } t).result = .ok t := by
  set lines := Lines.ofText s with hlines
  set out := flattenedLines w {} lines with hout
  have hkept : Converter.dropLeadingBlank out = out := dropLeadingBlank_flattenedLines hterm hfirst w {}
  have hagain : flattenedLines w {} out = out := flattenedLines_flattenedLines flat_start hbrace hterm w
  have hread : Lines.ofText (Lines.toText out) = out :=
    ofText_flattenedLines hterm (fun line hline => Lines.feed_notMem_of_mem_split hline) w {}
  have hfirstRun := (convertLines_flat w hbrace).1
  have hsecondRun := (convertLines_flat w (unbraced_flattenedLines hbrace hterm w {})).1
  rw [← hout, hkept] at hfirstRun
  rw [← hout, hagain, hkept] at hsecondRun
  refine ⟨Lines.toText out, hread, ?_, ?_⟩
  · rw [Converter.convertText, ← hlines, Converter.joined, hfirstRun]
    rfl
  · rw [Converter.convertText, hread, Converter.joined, hsecondRun]
    rfl

/-- A literal that starts at column 3, with a line five columns to the right of it, a comment, a line to
the left of it and its last line, and after it a closing brace and a colon. -/
theorem flattened_text_fixed_literal :
    let w : Width := ⟨2, by decide⟩
    let s := "   d = \x7b\n        'a': [1,\r\n # one;\n 2],\n    \x7d\n\n  \x7d \x7d\n if x:".toList
    let t := "d = \x7b\n    'a': [1,\n# one;\n2],\n  \x7d\n\n\x7d \x7d\nif x:\n".toList
    (Converter.convertText { width := w } s).result = .ok t ∧
      (Converter.convertText { width := w } t).result = .ok t := by
  intro w s t
  have hrun : (Converter.convertText { width := w } s).result = .ok t := by decide
  obtain ⟨u, -, hu, hfixed⟩ := flattened_text_fixed w s (by decide) (by decide) (by decide)
  obtain rfl : u = t := Except.ok.inj (hu.symm.trans hrun)
  exact ⟨hrun, hfixed⟩

end Layout

end Offside
