import Offside.Proofs.Indentation
import Offside.Proofs.Objections

/-!
# What the width of a level can change

Two runs over the same lines that differ in their width only. They agree on everything up to the moment
when lines are written (`Converter.feed_width`): checks and layout never ask for the width. What is written
then differs in leading spaces alone, because a text never starts with a blank (`OutLine.bare_render`),
and outside data literals a line stands at the same level in both (`OutLine.levelAt_eq`).

Inside a data literal the level does depend on the width, but not whether it is zero. This is what makes
both runs drop the first line or neither (`Converter.exists_kept`).
-/

namespace Offside

namespace OutLine

open Text

theorem levelAt_eq {line : OutLine} (h : line.isContinuation = false) (w w' : Width) :
    line.levelAt w = line.levelAt w' := by
  cases line with
  | continuation => exact absurd h (by simp [isContinuation])
  | blank | header | plain => rfl

/-- Whether a line stands at the margin is not a matter of the width. -/
theorem levelAt_eq_zero {w : Width} {line : OutLine} (h : line.levelAt w = 0) (w' : Width) :
    line.levelAt w' = 0 := by
  cases line with
  | continuation columns text =>
    have hcolumns : columns = 0 := by
      by_contra hne
      have hlevels : max 1 (columns / w.spaces) = 0 := by rwa [levelAt, Width.levels, if_neg hne] at h
      omega
    rw [hcolumns]
    rfl
  | blank | header | plain => exact h

theorem render_eq_nil {w : Width} {line : OutLine} (h : line.render w = []) (w' : Width) :
    line.render w' = [] := by
  obtain ⟨hindent, htext⟩ := List.append_eq_nil_iff.mp h
  have hlevel : line.levelAt w = 0 := by
    have hlength := congrArg List.length hindent
    rw [Width.indent, List.length_replicate, List.length_nil] at hlength
    exact (Nat.mul_eq_zero.mp hlength).resolve_right w.pos.ne'
  rw [render, levelAt_eq_zero hlevel w', Width.indent_zero, htext]
  rfl

/-- Without its leading spaces a line is its text. -/
theorem bare_render {line : OutLine} (h : Layout.Starts line.text) (w : Width) :
    (line.render w).dropWhile (· == ' ') = line.text := by
  have hspaces : ∀ c ∈ w.indent (line.levelAt w), (c == ' ') = true := by
    intro c hc
    rw [List.eq_of_mem_replicate hc]
    rfl
  rw [render, List.dropWhile_append_of_pos hspaces]
  cases htext : line.text with
  | nil => rfl
  | cons c rest =>
    have hblank : isBlank c = false := h c (by rw [htext]; rfl)
    refine List.dropWhile_cons_of_neg fun hspace => ?_
    rw [eq_of_beq hspace] at hblank
    exact absurd hblank (by decide)

end OutLine

namespace Converter

open Layout Text

/-- **A run does not ask for the width** until all lines are laid out. -/
theorem feed_width (c : Converter) (w : Width) (number : Nat) (lines : List Text) :
    (feed { c with width := w } number lines).result = (c.feed number lines).result ∧
      (feed { c with width := w } number lines).converter.nesting =
        (c.feed number lines).converter.nesting := by
  induction lines generalizing c number with
  | nil => exact ⟨rfl, rfl⟩
  | cons line later ih =>
    simp only [feed]
    cases (Check.all c.checks line number).objection with
    | some objection => exact ⟨rfl, rfl⟩
    | none =>
      obtain ⟨hresult, hnesting⟩ := ih { c with checks := (Check.all c.checks line number).checks
                                                nesting := (Layout.feed c.nesting line).nesting } (number + 1)
      refine ⟨?_, hnesting⟩
      simp only [hresult]

theorem convertLines_nesting (c : Converter) (w : Width) (lines : List Text) :
    (convertLines { c with width := w } lines).converter.nesting =
      (c.reset.feed 1 lines).converter.nesting := by
  have hnesting := (feed_width c.reset w 1 lines).2
  rw [← hnesting]
  unfold convertLines
  simp only
  split <;> rfl

/-- The width enters when the lines that were laid out are written. -/
theorem convertLines_eq_map (c : Converter) (lines : List Text) :
    (c.convertLines lines).result =
      (c.reset.feed 1 lines).result.map fun out => dropLeadingBlank (out.map (OutLine.render c.width)) := by
  cases hrun : (c.reset.feed 1 lines).result <;> simp only [convertLines, hrun] <;> rfl

theorem convertLines_error_iff (c : Converter) (w : Width) (lines : List Text) (fault : ConversionFault) :
    (convertLines { c with width := w } lines).result = .error fault ↔
      (c.reset.feed 1 lines).result = .error fault := by
  have hrun : (feed (reset { c with width := w }) 1 lines).result = (c.reset.feed 1 lines).result :=
    (feed_width c.reset w 1 lines).1
  rw [convertLines_eq_map, hrun]
  cases (c.reset.feed 1 lines).result <;> simp [Except.map]

theorem convertLines_ok (c : Converter) (w : Width) {lines out : List Text}
    (h : (convertLines { c with width := w } lines).result = .ok out) :
    out = dropLeadingBlank ((laid {} lines).map (OutLine.render w)) := by
  rcases convertLines_result { c with width := w } lines with ⟨-, hok⟩ | ⟨objection, -, herror⟩
  · rw [hok, Except.ok.injEq] at h
    exact h.symm
  · rw [herror] at h
    exact absurd h (by simp)

/-- The first line is dropped for every width or for none. -/
theorem exists_kept (lines : List OutLine) :
    ∃ kept, (kept = lines ∨ ∃ first, lines = first :: kept ∧ ∀ w, first.render w = []) ∧
      ∀ w, dropLeadingBlank (lines.map (OutLine.render w)) = kept.map (OutLine.render w) := by
  cases lines with
  | nil => exact ⟨[], Or.inl rfl, fun _ => rfl⟩
  | cons first later =>
    by_cases hfirst : first.render .standard = []
    · have hempty := OutLine.render_eq_nil hfirst
      refine ⟨later, Or.inr ⟨first, rfl, hempty⟩, fun w => ?_⟩
      rw [List.map_cons, hempty w]
      rfl
    · refine ⟨first :: later, Or.inl rfl, fun w => ?_⟩
      have hshown : first.render w ≠ [] := fun hnil => hfirst (OutLine.render_eq_nil hnil _)
      obtain ⟨d, rest, hrender⟩ := List.exists_cons_of_ne_nil hshown
      rw [List.map_cons, hrender]
      rfl

/-- **The width only scales indentation.** Whatever the checks and whatever runs came before, two runs
that differ in their width fail for the same reason or both succeed, and their nestings are the same after
every line. If they succeed they write the same lines but for leading spaces, and every line that was
laid out outside a data literal stands at one level in both. The lines written are all those laid out, or
all but a first one that is empty in both. -/
theorem width_scales_indentation (c : Converter) (w₁ w₂ : Width) (lines : List Text) :
    let run := fun (w : Width) (lines : List Text) => convertLines { c with width := w } lines
    ((∃ out, (run w₁ lines).result = .ok out) ↔ ∃ out, (run w₂ lines).result = .ok out) ∧
    (∀ fault, (run w₁ lines).result = .error fault ↔ (run w₂ lines).result = .error fault) ∧
    (∀ k, (run w₁ (lines.take k)).converter.nesting = (run w₂ (lines.take k)).converter.nesting) ∧
    ∀ out₁ out₂, (run w₁ lines).result = .ok out₁ → (run w₂ lines).result = .ok out₂ →
      out₁.length = out₂.length ∧
      ∃ kept : List OutLine, out₁ = kept.map (OutLine.render w₁) ∧ out₂ = kept.map (OutLine.render w₂) ∧
        (kept = laid {} lines ∨
          ∃ first, laid {} lines = first :: kept ∧ first.render w₁ = [] ∧ first.render w₂ = []) ∧
        ∀ line ∈ kept,
          (line.render w₁).dropWhile (· == ' ') = (line.render w₂).dropWhile (· == ' ') ∧
          (line.isContinuation = false → ∃ level, indentation (line.render w₁) = level * w₁.spaces ∧
            indentation (line.render w₂) = level * w₂.spaces) := by
  intro run
  have herror : ∀ fault, (run w₁ lines).result = .error fault ↔ (run w₂ lines).result = .error fault :=
    fun fault => (convertLines_error_iff c w₁ lines fault).trans (convertLines_error_iff c w₂ lines fault).symm
  refine ⟨?_, herror, fun k => ?_, fun out₁ out₂ h₁ h₂ => ?_⟩
  · cases hresult₁ : (run w₁ lines).result with
    | error fault => simp [(herror fault).mp hresult₁]
    | ok out₁ =>
      cases hresult₂ : (run w₂ lines).result with
      | error fault =>
        rw [(herror fault).mpr hresult₂] at hresult₁
        exact absurd hresult₁ (by simp)
      | ok out₂ => simp
  · exact (convertLines_nesting c w₁ _).trans (convertLines_nesting c w₂ _).symm
  · obtain ⟨kept, hkept, hwritten⟩ := exists_kept (laid {} lines)
    have hout₁ : out₁ = kept.map (OutLine.render w₁) := (convertLines_ok c w₁ h₁).trans (hwritten w₁)
    have hout₂ : out₂ = kept.map (OutLine.render w₂) := (convertLines_ok c w₂ h₂).trans (hwritten w₂)
    have hmem : ∀ line ∈ kept, line ∈ laid {} lines := by
      intro line hline
      rcases hkept with rfl | ⟨first, hlaid, -⟩
      · exact hline
      · rw [hlaid]
        exact List.mem_cons_of_mem _ hline
    refine ⟨by rw [hout₁, hout₂, List.length_map, List.length_map], kept, hout₁, hout₂, ?_, ?_⟩
    · exact hkept.imp_right fun ⟨first, hlaid, hempty⟩ => ⟨first, hlaid, hempty w₁, hempty w₂⟩
    · intro line hline
      have hstarts := starts_of_mem_laid (hmem line hline)
      refine ⟨?_, fun hplain => ⟨line.levelAt w₁, ?_, ?_⟩⟩
      · rw [OutLine.bare_render hstarts, OutLine.bare_render hstarts]
      · exact hstarts.indentation_indent w₁ _
      · rw [OutLine.levelAt_eq hplain w₁ w₂]
        exact hstarts.indentation_indent w₂ _

/-- A literal inside a block, after an empty line: at two spaces a level its line stands two levels to the
right, at three spaces one level. -/
theorem width_scales_indentation_literal :
    let c : Converter := { width := .standard }
    let two : Width := ⟨2, by decide⟩
    let three : Width := ⟨3, by decide⟩
    let lines := ["".toList, "if x \x7b".toList, "  d = \x7b".toList, "       1,".toList,
      "  # one".toList, "  \x7d".toList, "\x7d".toList]
    let out₁ := ["if x:".toList, "  d = \x7b".toList, "    1,".toList, "  # one".toList, "\x7d".toList]
    let out₂ := ["if x:".toList, "   d = \x7b".toList, "   1,".toList, "   # one".toList, "\x7d".toList]
    ((convertLines { c with width := two } lines).result = .ok out₁ ∧
        (convertLines { c with width := three } lines).result = .ok out₂) ∧
      (convertLines { c with width := two } (lines.take 4)).converter.nesting =
        (convertLines { c with width := three } (lines.take 4)).converter.nesting ∧
      ∃ kept : List OutLine, out₁ = kept.map (OutLine.render two) ∧
        out₂ = kept.map (OutLine.render three) ∧
        ∀ line ∈ kept,
          (line.render two).dropWhile (· == ' ') = (line.render three).dropWhile (· == ' ') := by
  intro c two three lines out₁ out₂
  have h₁ : (convertLines { c with width := two } lines).result = .ok out₁ := by decide
  have h₂ : (convertLines { c with width := three } lines).result = .ok out₂ := by decide
  obtain ⟨-, -, hnesting, hout⟩ := width_scales_indentation c two three lines
  obtain ⟨-, kept, hkept₁, hkept₂, -, hline⟩ := hout out₁ out₂ h₁ h₂
  exact ⟨⟨h₁, h₂⟩, hnesting 4, kept, hkept₁, hkept₂, fun line hmem => (hline line hmem).1⟩

end Converter

end Offside
