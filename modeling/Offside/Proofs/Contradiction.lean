import Offside.Proofs.Objections

/-!
# The contradiction that is reported

A source mixes styles if one of its lines shows braces and another colons. `FirstContradiction lines c`
says which two lines `c` names then: the first that shows a style at all, and the first after it that
shows the other. A run with the standard check fails on exactly the sources that mix styles, and reports
exactly this pair (`first_contradiction_reported`).

Behind it is a check that settles once: after any calls its verdict is the first sighting since the last
reset (`Check.afterCalls_standard`), and a line that contradicts it changes nothing.
-/

namespace Offside

namespace Style

/-- The style that the line with a number shows; lines are numbered from 1. -/
def at? (lines : List Text) : Nat → Option Style
  | 0 => none
  | k + 1 => lines[k]?.bind evidence?

theorem at_append_left {before : List Text} {k : Nat} (h : k ≤ before.length) (after : List Text) :
    at? (before ++ after) k = at? before k := by
  cases k with
  | zero => rfl
  | succ k => rw [at?, at?, List.getElem?_append_left (by omega)]

theorem at_concat (before : List Text) (line : Text) (after : List Text) :
    at? (before ++ line :: after) (before.length + 1) = evidence? line := by
  simp [at?]

theorem mem_of_at {lines : List Text} {k : Nat} {style : Style} (h : at? lines k = some style) :
    ∃ line ∈ lines, evidence? line = some style := by
  cases k with
  | zero => exact absurd h (by simp [at?])
  | succ k =>
    obtain ⟨line, hline, hstyle⟩ := Option.bind_eq_some_iff.mp h
    exact ⟨line, List.mem_of_getElem? hline, hstyle⟩

theorem at_of_mem {lines : List Text} {line : Text} (hmem : line ∈ lines) {style : Style}
    (h : evidence? line = some style) : ∃ k, at? lines k = some style := by
  obtain ⟨k, hk⟩ := List.getElem?_of_mem hmem
  exact ⟨k + 1, by rw [at?, hk]; exact h⟩

/-- What the first sighting is: a line that shows a style, with no such line before it. -/
theorem firstSighting_spec {number : Nat} {lines : List Text} {s : Sighting}
    (h : firstSighting number lines = some s) :
    ∃ i, s.line = number + i ∧ at? lines (i + 1) = some s.style ∧ ∀ k ≤ i, at? lines k = none := by
  induction lines generalizing number with
  | nil => simp [firstSighting] at h
  | cons line lines ih =>
    rw [firstSighting] at h
    cases hev : evidence? line with
    | some style =>
      rw [hev, Option.some.injEq] at h
      subst h
      refine ⟨0, rfl, hev, fun k hk => ?_⟩
      rw [Nat.le_zero.mp hk]
      rfl
    | none =>
      rw [hev] at h
      obtain ⟨i, hi, hstyle, hbefore⟩ := ih h
      refine ⟨i + 1, by omega, hstyle, fun k hk => ?_⟩
      rcases k with _ | _ | k
      · rfl
      · exact hev
      · exact hbefore (k + 1) (by omega)

/-- Lines that do not agree on a style show both. -/
theorem not_agrees_iff {lines : List Text} :
    ¬ Agrees none lines ↔ ∃ i j, at? lines i = some .brace ∧ at? lines j = some .colon := by
  constructor
  · intro h
    -- neither style is the style of all lines, so each is contradicted by a line of the other
    have hother : ∀ style : Style, ∃ line ∈ lines, ∃ found, evidence? line = some found ∧
        found ≠ style := by
      intro style
      by_contra hno
      push Not at hno
      exact h ⟨style, by simp, hno⟩
    obtain ⟨l, hl, found, hfound, hne⟩ := hother .colon
    obtain ⟨l', hl', found', hfound', hne'⟩ := hother .brace
    obtain ⟨i, hi⟩ := at_of_mem hl hfound
    obtain ⟨j, hj⟩ := at_of_mem hl' hfound'
    refine ⟨i, j, ?_, ?_⟩
    · cases found with
      | brace => exact hi
      | colon => exact absurd rfl hne
    · cases found' with
      | brace => exact absurd rfl hne'
      | colon => exact hj
  · rintro ⟨i, j, hi, hj⟩ ⟨style, -, hall⟩
    obtain ⟨l, hl, hbrace⟩ := mem_of_at hi
    obtain ⟨l', hl', hcolon⟩ := mem_of_at hj
    have hsame := (hall l hl _ hbrace).trans (hall l' hl' _ hcolon).symm
    exact absurd hsame (by decide)

end Style

/-- The two lines that a contradiction has to name: the first that shows a style, and the first after it
that shows another. -/
structure FirstContradiction (lines : List Text) (c : Contradiction) : Prop where
  established : Style.at? lines c.established.line = some c.established.style
  nothing_before : ∀ k < c.established.line, Style.at? lines k = none
  later : c.established.line < c.found.line
  found : Style.at? lines c.found.line = some c.found.style
  differs : c.found.style ≠ c.established.style
  same_between : ∀ k, c.established.line < k → k < c.found.line →
    ∀ style, Style.at? lines k = some style → style = c.established.style

namespace Verdict

/-- Where a line is refused, the verdict was settled by another line and for another style. -/
theorem judge_eq_error_iff {v : Verdict} {line : Text} {number : Nat} {c : Contradiction} :
    v.judge line number = .error c ↔
      ∃ found s, Style.evidence? line = some found ∧ v = some s ∧ found ≠ s.style ∧
        c = ⟨⟨found, number⟩, s⟩ := by
  unfold judge
  cases hev : Style.evidence? line with
  | none => simp
  | some found =>
    cases v with
    | none => simp
    | some s =>
      by_cases hsame : found = s.style
      · simp [hsame]
      · simp only [if_neg hsame, Except.error.injEq]
        constructor
        · rintro rfl
          exact ⟨found, s, rfl, rfl, hsame, rfl⟩
        · rintro ⟨_, _, hfound, hs, -, rfl⟩
          rw [Option.some.inj hfound, Option.some.inj hs]

end Verdict

namespace Check

/-- **A line never unsettles a verdict**, be it accepted or refused. -/
theorem all_style_checks (v : Verdict) (line : Text) (number : Nat) :
    (all [.style v] line number).checks = [.style (v.see line number)] := by
  by_cases haccepts : v.Accepts line
  · rw [Converter.all_of_accepts haccepts]
  · obtain ⟨c, hc⟩ := Verdict.judge_of_not_accepts haccepts number
    obtain ⟨found, s, -, rfl, -, -⟩ := Verdict.judge_eq_error_iff.mp hc
    simp [all, judge, hc, Except.map, Verdict.see]

theorem all_style_objection (v : Verdict) (line : Text) (number : Nat) (c : Contradiction) :
    (all [.style v] line number).objection = some c ↔ v.judge line number = .error c := by
  cases hjudge : v.judge line number with
  | ok v' => simp [all, judge, hjudge, Except.map]
  | error e => simp [all, judge, hjudge, Except.map]

/-- What the check on style objects to first: the lines before agree, and the verdict they leave is
contradicted. -/
theorem firstObjection_style {v : Verdict} {number k : Nat} {lines : List Text} {c : Contradiction}
    (h : firstObjection (.style v) number lines = some (k, c)) :
    ∃ before line after, lines = before ++ line :: after ∧ Style.Agrees v before ∧
      v.or (Style.firstSighting number before) = some c.established ∧
      Style.evidence? line = some c.found.style ∧ c.found.line = number + before.length ∧
      c.found.style ≠ c.established.style := by
  induction lines generalizing v number with
  | nil => simp [firstObjection] at h
  | cons line lines ih =>
    -- an accepted line joins those before; a refused one is the line sought, and a verdict stands already
    by_cases haccepts : v.Accepts line
    · have hjudge : judge (.style v) line number = .ok (.style (v.see line number)) := by
        rw [judge, Verdict.judge_of_accepts haccepts]
        rfl
      rw [firstObjection_of_ok hjudge] at h
      obtain ⟨before, other, after, hlines, hagrees, hfirst, hev, hnumber, hne⟩ := ih h
      refine ⟨line :: before, other, after, by rw [hlines]; rfl,
        (Verdict.agrees_cons_iff number).mpr ⟨haccepts, hagrees⟩, ?_, hev, ?_, hne⟩
      · rw [← Verdict.see_or_firstSighting, hfirst]
      · rw [List.length_cons]
        omega
    · obtain ⟨e, he⟩ := Verdict.judge_of_not_accepts haccepts number
      have hjudge : judge (.style v) line number = .error e := by
        rw [judge, he]
        rfl
      rw [firstObjection_of_error hjudge, Option.some.injEq, Prod.mk.injEq] at h
      obtain ⟨-, rfl⟩ := h
      obtain ⟨found, s, hev, rfl, hne, rfl⟩ := Verdict.judge_eq_error_iff.mp he
      refine ⟨[], line, lines, rfl, ⟨s.style, ?_, by simp⟩, rfl, hev, rfl, hne⟩
      rintro s' hs'
      rw [Option.some.inj hs']

/-- So its first objection to a source names the right two lines. -/
theorem firstContradiction_of_objection {k : Nat} {lines : List Text} {c : Contradiction}
    (h : firstObjection (.style none) 1 lines = some (k, c)) : FirstContradiction lines c := by
  obtain ⟨before, line, after, rfl, ⟨style, -, hall⟩, hfirst, hev, hfound, hne⟩ :=
    firstObjection_style h
  rw [Option.none_or] at hfirst
  obtain ⟨i, hi, hstyle, hbefore⟩ := Style.firstSighting_spec hfirst
  -- every style shown before the refused line is that of the first sighting
  have hsame : ∀ {k s}, Style.at? before k = some s → s = style := by
    intro k s hk
    obtain ⟨l, hl, hs⟩ := Style.mem_of_at hk
    exact hall l hl s hs
  have hlt : i < before.length := by
    obtain ⟨l, hl, -⟩ := Option.bind_eq_some_iff.mp hstyle
    exact (List.getElem?_eq_some_iff.mp hl).1
  have hline : c.established.line = i + 1 := by omega
  refine ⟨?_, ?_, by omega, ?_, hne, ?_⟩
  · rw [hline, Style.at_append_left (by omega)]
    exact hstyle
  · intro k hk
    rw [Style.at_append_left (by omega)]
    exact hbefore k (by omega)
  · rw [hfound, Nat.add_comm, Style.at_concat]
    exact hev
  · intro k _ hk s hs
    rw [Style.at_append_left (by omega)] at hs
    rw [hsame hs, hsame hstyle]

/-! ### Calls -/

/-- What can be asked of checks: to judge a line with its number, or to start afresh. -/
inductive Call where
  | line (text : Text) (number : Nat)
  | reset
  deriving Repr, DecidableEq

/-- What comes of a call. -/
def Call.answer (checks : List Check) : Call → Checked
  | line text number => all checks text number
  | reset => { checks := checks.map Check.reset }

/-- The checks after some calls. -/
def afterCalls (checks : List Check) (calls : List Call) : List Check :=
  calls.foldl (fun checks call => (call.answer checks).checks) checks

/-- The style that a call shows. -/
def Call.sighting? : Call → Option Sighting
  | line text number => (Style.evidence? text).map fun style => ⟨style, number⟩
  | reset => none

/-- The first sighting since the last reset. -/
def settled (calls : List Call) : Verdict :=
  (calls.rtakeWhile (· ≠ .reset)).findSome? Call.sighting?

theorem settled_line (calls : List Call) (text : Text) (number : Nat) :
    settled (calls ++ [.line text number]) = (settled calls).see text number := by
  unfold settled
  rw [List.rtakeWhile_concat_pos _ _ _ (by simp), List.findSome?_append]
  cases (calls.rtakeWhile (· ≠ .reset)).findSome? Call.sighting? with
  | some s => rfl
  | none => simp [Call.sighting?, Verdict.see]

/-- **The verdict is the first sighting since the last reset.** -/
theorem afterCalls_standard (calls : List Call) :
    afterCalls standard calls = [.style (settled calls)] := by
  induction calls using List.reverseRecOn with
  | nil => rfl
  | append_singleton calls call ih =>
    have hstep : afterCalls standard (calls ++ [call]) =
        (call.answer (afterCalls standard calls)).checks := by
      simp [afterCalls]
    rw [hstep, ih]
    cases call with
    | line text number => rw [Call.answer, all_style_checks, settled_line]
    | reset =>
      unfold settled
      rw [List.rtakeWhile_concat_neg _ _ _ (by simp)]
      rfl

end Check

open Converter in
/-- **The first contradiction is reported, and nothing else.** A source with the standard check fails if
and only if one line shows braces and another colons; the fault then names the first line that shows a
style and the first later one that shows another, and its line is the latter. As for the check itself,
after any calls its verdict is the first sighting since the last reset; a line is refused if and only if
it shows another style than the verdict has, and the refusal leaves the verdict as it was. -/
theorem first_contradiction_reported :
    (∀ (w : Width) (lines : List Text),
      ((∃ fault, (convertLines { width := w } lines).result = .error fault) ↔
        ∃ i j, Style.at? lines i = some .brace ∧ Style.at? lines j = some .colon) ∧
      ∀ fault, (convertLines { width := w } lines).result = .error fault →
        ∃ c, fault = .mixed c ∧ FirstContradiction lines c ∧ fault.line? = some c.found.line) ∧
    ∀ calls : List Check.Call,
      Check.afterCalls Check.standard calls = [.style (Check.settled calls)] ∧
      ∀ (line : Text) (number : Nat),
        let answer := Check.all (Check.afterCalls Check.standard calls) line number
        (∀ c, answer.objection = some c ↔
          ∃ found s, Style.evidence? line = some found ∧ Check.settled calls = some s ∧
            found ≠ s.style ∧ c = ⟨⟨found, number⟩, s⟩) ∧
        (answer.objection ≠ none → answer.checks = Check.afterCalls Check.standard calls) := by
  refine ⟨fun w lines => ⟨?_, fun fault hfault => ?_⟩, fun calls => ⟨Check.afterCalls_standard calls,
    fun line number => ?_⟩⟩
  · rw [← Style.not_agrees_iff]
    constructor
    · rintro ⟨fault, hfault⟩ hagrees
      rw [(convertLines_of_agrees w hagrees).1] at hfault
      exact absurd hfault (by simp)
    · intro hnot
      cases hresult : (convertLines { width := w } lines).result with
      | ok out => exact absurd (agrees_of_convertLines hresult) hnot
      | error fault => exact ⟨fault, rfl⟩
  · rcases convertLines_result { width := w } lines with ⟨-, hok⟩ |
      ⟨c, ⟨i, k, hi, -⟩, herror⟩
    · rw [hok] at hfault
      exact absurd hfault (by simp)
    · rw [herror, Except.error.injEq] at hfault
      obtain ⟨check, hcheck, hfirst⟩ := Check.getElem_objections_reset.mp hi
      obtain rfl : check = .style none := List.mem_singleton.mp (List.mem_of_getElem? hcheck)
      exact ⟨c, hfault.symm, Check.firstContradiction_of_objection hfirst, by rw [← hfault]; rfl⟩
  · intro answer
    have hchecks := Check.afterCalls_standard calls
    have hobjection : ∀ c, answer.objection = some c ↔
        (Check.settled calls).judge line number = .error c := by
      intro c
      simp only [answer, hchecks]
      exact Check.all_style_objection _ line number c
    refine ⟨fun c => (hobjection c).trans Verdict.judge_eq_error_iff, fun hne => ?_⟩
    obtain ⟨c, hc⟩ := Option.ne_none_iff_exists'.mp hne
    obtain ⟨found, s, -, hs, -, -⟩ := Verdict.judge_eq_error_iff.mp ((hobjection c).mp hc)
    simp only [answer, hchecks, Check.all_style_checks, hs]
    rfl

/-- A source whose fifth line contradicts its second, and a check that was reset, settled for colons at a
line numbered 3 and is then shown a brace. -/
theorem first_contradiction_reported_fifth :
    let lines := ["# if x:".toList, "def f() \x7b".toList, "\x7d".toList, "if x \x7b".toList,
      "class A:".toList, "for y in z \x7b".toList]
    let c : Contradiction := ⟨⟨.colon, 5⟩, ⟨.brace, 2⟩⟩
    let calls : List Check.Call := [.line "if x \x7b".toList 9, .reset, .line "go()".toList 7,
      .line "if y:".toList 3]
    let answer := Check.all (Check.afterCalls Check.standard calls) "else \x7b".toList 4
    (Converter.convertLines { width := .standard } lines).result = .error (.mixed c) ∧
      FirstContradiction lines c ∧
      answer.objection = some ⟨⟨.brace, 4⟩, ⟨.colon, 3⟩⟩ ∧
      answer.checks = [.style (some ⟨.colon, 3⟩)] := by
  intro lines c calls answer
  have hfault : (Converter.convertLines { width := .standard } lines).result = .error (.mixed c) := by
    decide
  have hsettled : Check.settled calls = some ⟨.colon, 3⟩ := by decide
  have hshows : Style.evidence? "else \x7b".toList = some .brace := by decide
  obtain ⟨hrun, hcalls⟩ := first_contradiction_reported
  obtain ⟨c', hc', hfirst, -⟩ := (hrun .standard lines).2 _ hfault
  obtain rfl := ConversionFault.mixed.inj hc'
  obtain ⟨hverdict, hline⟩ := hcalls calls
  obtain ⟨hobjection, hkept⟩ := hline "else \x7b".toList 4
  have hobjects := (hobjection ⟨⟨.brace, 4⟩, ⟨.colon, 3⟩⟩).mpr
    ⟨.brace, ⟨.colon, 3⟩, hshows, hsettled, by decide, rfl⟩
  refine ⟨hfault, hfirst, hobjects, ?_⟩
  rw [hsettled] at hverdict
  exact (hkept (by rw [hobjects]; simp)).trans hverdict

end Offside
