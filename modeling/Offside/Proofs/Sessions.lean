import Offside.Conversion

/-!
# One converter, many runs

A run leaves its converter as it happened to end: with blocks and literals open, with a verdict settled,
and, where a check objected, with the checks before that one a line ahead of those after it. A source that
cannot be read leaves it as it was. `Converter.reset` takes all of this back, because a run changes only
what a reset clears (`Converter.reset_feed`); so whatever was asked of a converter before, it is the one
that was built once it is reset (`Converter.reset_after`), and every run begins with that.
-/

namespace Offside

namespace Check

/-- A check keeps its kind and its text, and a reset clears the rest. -/
theorem reset_of_judge {check check' : Check} {line : Text} {number : Nat}
    (h : check.judge line number = .ok check') : check'.reset = check.reset := by
  cases check with
  | style v =>
    cases hjudge : v.judge line number with
    | ok v' =>
      simp only [judge, hjudge, Except.map, Except.ok.injEq] at h
      rw [← h]
      rfl
    | error objection => simp [judge, hjudge, Except.map] at h
  | forbid needle =>
    simp only [judge] at h
    by_cases hoccurs : Text.occurs needle line
    · rw [if_pos hoccurs] at h
      exact absurd h (by simp)
    · rw [if_neg hoccurs] at h
      rw [← Except.ok.inj h]

theorem map_reset_all (checks : List Check) (line : Text) (number : Nat) :
    (all checks line number).checks.map reset = checks.map reset := by
  induction checks with
  | nil => rfl
  | cons check later ih =>
    cases hjudge : check.judge line number with
    | error objection => simp only [all, hjudge]
    | ok check' =>
      simp only [all, hjudge, List.map_cons]
      rw [reset_of_judge hjudge, ih]

end Check

namespace Converter

theorem reset_reset (c : Converter) : c.reset.reset = c.reset := by
  have hchecks : (c.checks.map Check.reset).map Check.reset = c.checks.map Check.reset := by
    rw [List.map_map]
    apply List.map_congr_left
    intro check _
    cases check <;> rfl
  unfold reset
  rw [hchecks]

/-- **What a run leaves behind is gone after a reset**, be the run complete or cut off. -/
theorem reset_feed (c : Converter) (number : Nat) (lines : List Text) :
    (c.feed number lines).converter.reset = c.reset := by
  induction lines generalizing c number with
  | nil => rfl
  | cons line later ih =>
    have hchecks := Check.map_reset_all c.checks line number
    cases hobjection : (Check.all c.checks line number).objection with
    | some objection =>
      simp only [feed, hobjection, reset]
      rw [hchecks]
    | none =>
      simp only [feed, hobjection]
      rw [ih]
      simp only [reset]
      rw [hchecks]

/-- A run starts from the converter that a reset gives, and from nothing else. -/
theorem convertLines_of_reset {c d : Converter} (h : c.reset = d.reset) (lines : List Text) :
    c.convertLines lines = d.convertLines lines := by
  have hwidth : c.reset.width = d.reset.width := by rw [h]
  have hwidth' : c.width = d.width := hwidth
  unfold convertLines
  rw [h, hwidth']

theorem reset_convertLines (c : Converter) (lines : List Text) :
    (c.convertLines lines).converter.reset = c.reset := by
  have hfeed : (c.reset.feed 1 lines).converter.reset = c.reset := by
    rw [reset_feed, reset_reset]
  cases hresult : (c.reset.feed 1 lines).result with
  | ok out =>
    simp only [convertLines, hresult]
    exact hfeed
  | error fault =>
    simp only [convertLines, hresult]
    exact hfeed

theorem reset_convertSource (c : Converter) (source : Source) :
    (c.convertSource source).converter.reset = c.reset := by
  unfold convertSource
  cases source.read with
  | error fault => rfl
  | ok lines => exact reset_convertLines c lines

/-! ### Sessions -/

/-- What can be asked of a converter. -/
inductive Call where
  | lines (lines : List Text)
  | text (text : Text)
  | source (source : Source)
  | reset

/-- The converter after a call. -/
def Call.leave (c : Converter) : Call → Converter
  | lines given => (c.convertLines given).converter
  | text given => (c.convertText given).converter
  | source given => (c.convertSource given).converter
  | reset => c.reset

/-- The converter after some calls. -/
def after (c : Converter) (history : List Call) : Converter := history.foldl Call.leave c

theorem reset_leave (c : Converter) (call : Call) : (call.leave c).reset = c.reset := by
  cases call with
  | lines lines => exact reset_convertLines c lines
  | text text => exact reset_convertLines c (Lines.ofText text)
  | source source => exact reset_convertSource c source
  | reset => exact reset_reset c

theorem reset_after (c : Converter) (history : List Call) : (c.after history).reset = c.reset := by
  induction history generalizing c with
  | nil => rfl
  | cons call later ih =>
    have hlater : (c.after (call :: later)).reset = (call.leave c).reset := ih (call.leave c)
    rw [hlater, reset_leave]

/-- **Runs are independent.** Whatever calls a converter has answered, finished, cut off by a check with
blocks and literals open, or given up because a source could not be read, the next run goes as it goes on
a converter that was just built for the same width with the same checks. Lines and texts lead to the same
result, the same events and the same converter afterwards, and a source to the same result and events. -/
theorem run_forgets_history (w : Width) (checks : List Check) (history : List Call) :
    let built : Converter := { width := w, checks := checks }
    let used := built.after history
    (∀ lines : List Text, used.convertLines lines = built.convertLines lines) ∧
    (∀ text : Text, used.convertText text = built.convertText text) ∧
    ∀ source : Source, (used.convertSource source).result = (built.convertSource source).result ∧
      (used.convertSource source).events = (built.convertSource source).events := by
  intro built used
  have hreset : used.reset = built.reset := reset_after built history
  have hlines : ∀ lines : List Text, used.convertLines lines = built.convertLines lines :=
    convertLines_of_reset hreset
  refine ⟨hlines, fun text => ?_, fun source => ?_⟩
  · unfold convertText
    rw [hlines]
  · unfold convertSource
    cases source.read with
    | error fault => exact ⟨rfl, rfl⟩
    | ok lines =>
      show (joined (used.convertLines lines)).result = _ ∧ (joined (used.convertLines lines)).events = _
      rw [hlines]
      exact ⟨rfl, rfl⟩

/-- A run that is cut off inside two blocks and a literal, and a source that cannot be read after it. -/
example :
    let cutOff : Call := .lines ["if x \x7b".toList, "for y in z \x7b".toList, "d = \x7b".toList,
      "stop".toList]
    let broken : Call := .source { bytes := [0xff] }
    let used := after { width := .standard, checks := [.style none, .forbid "stop".toList] }
      [cutOff, broken]
    used.nesting = { level := 2, openBlocks := 2, literalDepth := 1 } ∧
      used.checks = [.style (some ⟨.brace, 1⟩), .forbid "stop".toList] := by
  decide +kernel

end Converter

end Offside
