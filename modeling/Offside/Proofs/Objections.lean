import Mathlib.Data.Prod.Lex
import Offside.Proofs.Run

/-!
# Checks together and checks alone

`Check.firstObjection` is what comes of a check that is shown a source alone: the number of the first
line it objects to, and the objection. A run shows each line to one check after the other, stops in the
middle of a line at the first objection, and lays out lines in between. None of this matters
(`Converter.feed_result`): a run fails if and only if some check would object alone, and then it fails
with the objection at the least line, and among those with that of the check that comes first.
-/

namespace Offside

namespace Check

/-- What a check objects to first when it is shown the lines alone, the first of which has the number
given: the number of the line, and the objection. -/
def firstObjection (check : Check) (number : Nat) : List Text → Option (Nat × Contradiction)
  | [] => none
  | line :: later =>
    match check.judge line number with
    | .error objection => some (number, objection)
    | .ok check' => firstObjection check' (number + 1) later

/-- What each of some checks objects to first, were it alone. -/
def objections (checks : List Check) (number : Nat) (lines : List Text) :
    List (Option (Nat × Contradiction)) :=
  checks.map fun check => check.firstObjection number lines

/-- The objection that comes first: at the least line, and there by the check with the least position. -/
def Earliest (os : List (Option (Nat × Contradiction))) (objection : Contradiction) : Prop :=
  ∃ i k : Nat, os[i]? = some (some (k, objection)) ∧
    ∀ (j l : Nat) (other : Contradiction), os[j]? = some (some (l, other)) → toLex (k, i) ≤ toLex (l, j)

theorem firstObjection_of_ok {check check' : Check} {line : Text} {number : Nat}
    (h : check.judge line number = .ok check') (later : List Text) :
    check.firstObjection number (line :: later) = check'.firstObjection (number + 1) later := by
  rw [firstObjection, h]

theorem firstObjection_of_error {check : Check} {line : Text} {number : Nat}
    {objection : Contradiction} (h : check.judge line number = .error objection) (later : List Text) :
    check.firstObjection number (line :: later) = some (number, objection) := by
  rw [firstObjection, h]

/-- No check objects to a line before the first. -/
theorem le_of_firstObjection {check : Check} {number k : Nat} {lines : List Text}
    {objection : Contradiction} (h : check.firstObjection number lines = some (k, objection)) :
    number ≤ k := by
  induction lines generalizing check number with
  | nil => simp [firstObjection] at h
  | cons line later ih =>
    cases hjudge : check.judge line number with
    | error e =>
      rw [firstObjection_of_error hjudge, Option.some.injEq, Prod.mk.injEq] at h
      exact h.1.le
    | ok check' =>
      rw [firstObjection_of_ok hjudge] at h
      have hle := ih h
      omega

/-- **What a line can do to the checks**: all accept it and move on, or it is refused by the first check
that objects. -/
theorem all_cases (checks : List Check) (line : Text) (number : Nat) :
    (∃ checks', List.Forall₂ (fun a b => a.judge line number = .ok b) checks checks' ∧
      (all checks line number).checks = checks' ∧ (all checks line number).objection = none) ∨
    ∃ before check after objection, checks = before ++ check :: after ∧
      (∀ a ∈ before, ∃ b, a.judge line number = .ok b) ∧ check.judge line number = .error objection ∧
      (all checks line number).objection = some objection := by
  induction checks with
  | nil => exact Or.inl ⟨[], .nil, rfl, rfl⟩
  | cons check later ih =>
    cases hjudge : check.judge line number with
    | error objection =>
      right
      exact ⟨[], check, later, objection, rfl, by simp, hjudge, by simp [all, hjudge]⟩
    | ok check' =>
      rcases ih with ⟨checks', hpass, hchecks, hnone⟩ |
        ⟨before, refuser, after, objection, hsplit, hbefore, hrefuse, hsome⟩
      · left
        exact ⟨check' :: checks', .cons hjudge hpass, by simp [all, hjudge, hchecks],
          by simp [all, hjudge, hnone]⟩
      · right
        refine ⟨check :: before, refuser, after, objection, by rw [hsplit]; rfl, ?_, hrefuse,
          by simp [all, hjudge, hsome]⟩
        intro a ha
        rcases List.mem_cons.mp ha with rfl | ha
        · exact ⟨check', hjudge⟩
        · exact hbefore a ha

/-- A line that all checks accept is as good as skipped. -/
theorem objections_cons {checks checks' : List Check} {line : Text} {number : Nat}
    (h : List.Forall₂ (fun a b => a.judge line number = .ok b) checks checks') (later : List Text) :
    objections checks number (line :: later) = objections checks' (number + 1) later := by
  induction h with
  | nil => rfl
  | cons hjudge _ ih =>
    unfold objections at ih ⊢
    rw [List.map_cons, List.map_cons, firstObjection_of_ok hjudge, ih]

/-- The first check to refuse a line has the earliest objection of all. -/
theorem earliest_of_refused {before after : List Check} {check : Check} {line : Text} {number : Nat}
    {objection : Contradiction} (hbefore : ∀ a ∈ before, ∃ b, a.judge line number = .ok b)
    (hrefuse : check.judge line number = .error objection) (later : List Text) :
    Earliest (objections (before ++ check :: after) number (line :: later)) objection := by
  refine ⟨before.length, number, ?_, ?_⟩
  · simp [objections, firstObjection_of_error hrefuse]
  · intro j l other hj
    rw [objections, List.getElem?_map, Option.map_eq_some_iff] at hj
    obtain ⟨a, ha, hl⟩ := hj
    have hle := le_of_firstObjection hl
    rw [Prod.Lex.toLex_le_toLex]
    by_cases hlt : number < l
    · exact Or.inl hlt
    · -- an objection at this very line: the check is not one of those before
      refine Or.inr ⟨by omega, ?_⟩
      by_contra hj
      rw [List.getElem?_append_left (by omega)] at ha
      obtain ⟨b, hb⟩ := hbefore a (List.mem_of_getElem? ha)
      rw [firstObjection_of_ok hb] at hl
      have := le_of_firstObjection hl
      omega

theorem objections_reset_eq_none_iff {checks : List Check} {number : Nat} {lines : List Text} :
    (∀ o ∈ objections (checks.map reset) number lines, o = none) ↔
      ∀ check ∈ checks, check.reset.firstObjection number lines = none := by
  simp [objections]

theorem getElem_objections_reset {checks : List Check} {number i : Nat} {lines : List Text}
    {o : Option (Nat × Contradiction)} :
    (objections (checks.map reset) number lines)[i]? = some o ↔
      ∃ check, checks[i]? = some check ∧ check.reset.firstObjection number lines = o := by
  simp [objections]

end Check

namespace Converter

open Layout

/-- **What a run comes to**: all lines laid out if no check objects alone, and else the earliest of the
objections. -/
theorem feed_result (c : Converter) (number : Nat) (lines : List Text) :
    (∀ o ∈ Check.objections c.checks number lines, o = none) ∧
        (c.feed number lines).result = .ok (laid c.nesting lines) ∨
      ∃ objection, Check.Earliest (Check.objections c.checks number lines) objection ∧
        (c.feed number lines).result = .error (.mixed objection) := by
  induction lines generalizing c number with
  | nil =>
    refine Or.inl ⟨fun o ho => ?_, rfl⟩
    obtain ⟨check, -, rfl⟩ := List.mem_map.mp ho
    rfl
  | cons line later ih =>
    rcases Check.all_cases c.checks line number with ⟨checks', hpass, hchecks, hnone⟩ |
      ⟨before, check, after, objection, hsplit, hbefore, hrefuse, hsome⟩
    · -- all accept: the checks that move on object to the later lines as these would to all of them
      have hrun := ih { c with checks := checks', nesting := (Layout.feed c.nesting line).nesting }
        (number + 1)
      rw [Check.objections_cons hpass]
      rcases hrun with ⟨hall, hok⟩ | ⟨objection, hearliest, herror⟩
      · refine Or.inl ⟨hall, ?_⟩
        simp only [feed, hnone, hchecks, hok]
        rfl
      · refine Or.inr ⟨objection, hearliest, ?_⟩
        simp only [feed, hnone, hchecks, herror]
        rfl
    · refine Or.inr ⟨objection, ?_, by simp only [feed, hsome]⟩
      rw [hsplit]
      exact Check.earliest_of_refused hbefore hrefuse later

/-- The same for a source, every check being reset first. -/
theorem convertLines_result (c : Converter) (lines : List Text) :
    (∀ o ∈ Check.objections (c.checks.map Check.reset) 1 lines, o = none) ∧
        (c.convertLines lines).result =
          .ok (dropLeadingBlank ((laid {} lines).map (OutLine.render c.width))) ∨
      ∃ objection, Check.Earliest (Check.objections (c.checks.map Check.reset) 1 lines) objection ∧
        (c.convertLines lines).result = .error (.mixed objection) := by
  rcases feed_result c.reset 1 lines with ⟨hall, hok⟩ | ⟨objection, hearliest, herror⟩
  · refine Or.inl ⟨hall, ?_⟩
    simp only [convertLines, hok]
    rfl
  · refine Or.inr ⟨objection, hearliest, ?_⟩
    simp only [convertLines, herror]

/-- Whether a source is accepted is a matter of each check alone. -/
theorem accepts_iff (c : Converter) (lines : List Text) :
    (∃ out, (c.convertLines lines).result = .ok out) ↔
      ∀ check ∈ c.checks, check.reset.firstObjection 1 lines = none := by
  rw [← Check.objections_reset_eq_none_iff]
  rcases convertLines_result c lines with ⟨hall, hok⟩ | ⟨objection, ⟨i, k, hi, -⟩, herror⟩
  · exact ⟨fun _ => hall, fun _ => ⟨_, hok⟩⟩
  · constructor
    · rintro ⟨out, hok⟩
      rw [herror] at hok
      exact absurd hok (by simp)
    · intro hall
      exact absurd (hall _ (List.mem_of_getElem? hi)) (by simp)

/-- **Checks compose by the earliest objection, whatever is laid out in between.** A run fails if and
only if one of its checks, reset and shown the source alone, objects to a line. It then fails with the
objection whose line number and position in the list are least in the lexicographic order. If no check
objects the lines are laid out as they would be without checks, and an empty line at the front goes.
So the order of the checks has no say in whether a source is accepted. -/
theorem convertLines_earliest_objection (c : Converter) (lines : List Text) :
    ((∃ fault, (c.convertLines lines).result = .error fault) ↔
      ∃ check ∈ c.checks, check.reset.firstObjection 1 lines ≠ none) ∧
    (∀ fault, (c.convertLines lines).result = .error fault →
      ∃ (i k : Nat) (check : Check) (objection : Contradiction), c.checks[i]? = some check ∧
        check.reset.firstObjection 1 lines = some (k, objection) ∧ fault = .mixed objection ∧
        ∀ (j l : Nat) (other : Check) (objection' : Contradiction), c.checks[j]? = some other →
          other.reset.firstObjection 1 lines = some (l, objection') → toLex (k, i) ≤ toLex (l, j)) ∧
    ((∀ check ∈ c.checks, check.reset.firstObjection 1 lines = none) →
      (c.convertLines lines).result =
        .ok (dropLeadingBlank ((laid {} lines).map (OutLine.render c.width)))) ∧
    ∀ checks, checks.Perm c.checks →
      ((∃ out, (convertLines { c with checks := checks } lines).result = .ok out) ↔
        ∃ out, (c.convertLines lines).result = .ok out) := by
  refine ⟨?_, ?_, ?_, ?_⟩
  · have haccepts := accepts_iff c lines
    cases hresult : (c.convertLines lines).result with
    | ok out =>
      have hall := haccepts.mp ⟨out, hresult⟩
      constructor
      · rintro ⟨fault, hfault⟩
        exact absurd hfault (by simp)
      · rintro ⟨check, hmem, hsome⟩
        exact absurd (hall check hmem) hsome
    | error fault =>
      refine ⟨fun _ => ?_, fun _ => ⟨fault, rfl⟩⟩
      by_contra hnone
      push Not at hnone
      obtain ⟨out, hok⟩ := haccepts.mpr hnone
      rw [hresult] at hok
      exact absurd hok (by simp)
  · intro fault hfault
    rcases convertLines_result c lines with ⟨-, hok⟩ | ⟨objection, ⟨i, k, hi, hleast⟩, herror⟩
    · rw [hok] at hfault
      exact absurd hfault (by simp)
    · obtain ⟨check, hcheck, hfirst⟩ := Check.getElem_objections_reset.mp hi
      rw [herror, Except.error.injEq] at hfault
      refine ⟨i, k, check, objection, hcheck, hfirst, hfault.symm, ?_⟩
      intro j l other objection' hother hl
      exact hleast j l objection' (Check.getElem_objections_reset.mpr ⟨other, hother, hl⟩)
  · intro hnone
    rcases convertLines_result c lines with ⟨-, hok⟩ | ⟨objection, -, herror⟩
    · exact hok
    · obtain ⟨out, hok⟩ := (accepts_iff c lines).mpr hnone
      rw [herror] at hok
      exact absurd hok (by simp)
  · intro checks hperm
    rw [accepts_iff, accepts_iff]
    exact ⟨fun h check hmem => h check (hperm.mem_iff.mpr hmem),
      fun h check hmem => h check (hperm.mem_iff.mp hmem)⟩

/-- Three checks with one objection at the third line and two at the second. Of these the check on style
comes first; in another order the other one does, but the source is not accepted either way. -/
theorem convertLines_earliest_objection_second :
    let c : Converter := { width := .standard
                           checks := [.forbid "stop".toList, .style none, .forbid "def".toList] }
    let mixed := ["if x \x7b".toList, "def f():".toList, "stop".toList]
    let clean := ["".toList, "if x \x7b go(); \x7d".toList]
    let objection : Contradiction := ⟨⟨.colon, 2⟩, ⟨.brace, 1⟩⟩
    (c.convertLines mixed).result = .error (.mixed objection) ∧
      (∃ (i k : Nat) (check : Check), c.checks[i]? = some check ∧
        check.reset.firstObjection 1 mixed = some (k, objection) ∧
        toLex (k, i) ≤ toLex (3, 0) ∧ toLex (k, i) ≤ toLex (2, 2)) ∧
      (c.convertLines clean).result = .ok ["if x:".toList, "    go()".toList] ∧
      ∃ out, (convertLines { c with checks := c.checks.reverse } clean).result = .ok out := by
  intro c mixed clean objection
  have hmixed : (c.convertLines mixed).result = .error (.mixed objection) := by decide
  have hstop : (Check.forbid "stop".toList).reset.firstObjection 1 mixed =
      some (3, ⟨⟨.brace, 3⟩, ⟨.colon, 0⟩⟩) := by decide
  have hdef : (Check.forbid "def".toList).reset.firstObjection 1 mixed =
      some (2, ⟨⟨.brace, 2⟩, ⟨.colon, 0⟩⟩) := by decide
  have hnone : ∀ check ∈ c.checks, check.reset.firstObjection 1 clean = none := by decide
  have hperm : c.checks.reverse.Perm c.checks := List.reverse_perm _
  obtain ⟨-, hleast, -, -⟩ := convertLines_earliest_objection c mixed
  obtain ⟨-, -, hclean, horder⟩ := convertLines_earliest_objection c clean
  obtain ⟨i, k, check, objection', hcheck, hfirst, hfault, hle⟩ := hleast _ hmixed
  obtain rfl := ConversionFault.mixed.inj hfault
  exact ⟨hmixed, ⟨i, k, check, hcheck, hfirst, hle 0 3 _ _ rfl hstop, hle 2 2 _ _ rfl hdef⟩,
    (hclean hnone).trans (by decide), (horder _ hperm).mpr ⟨_, hclean hnone⟩⟩

end Converter

end Offside
