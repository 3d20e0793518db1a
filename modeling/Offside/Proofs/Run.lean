import Offside.Conversion
import Offside.Proofs.Cases

/-!
# Runs

What a run over many lines comes to. `Layout.after` is the nesting after some lines and `Layout.laid` the
lines written for them, whatever the checks say. With the standard check alone a run succeeds if and only
if the lines agree on a style (`Style.Agrees`), and then it leaves behind the nesting, the lines and the
verdict that these definitions name (`Converter.feed_of_agrees`, `Converter.agrees_of_feed`).
-/

namespace Offside

namespace Layout

/-- The nesting after some lines. -/
def after (n : Nesting) (lines : List Text) : Nesting :=
  lines.foldl (fun m line => (feed m line).nesting) n

/-- The lines to be written for some lines. -/
def laid (n : Nesting) : List Text → List OutLine
  | [] => []
  | line :: later => (feed n line).lines ++ laid (feed n line).nesting later

@[simp] theorem after_nil (n : Nesting) : after n [] = n := rfl

@[simp] theorem after_cons (n : Nesting) (line : Text) (lines : List Text) :
    after n (line :: lines) = after (feed n line).nesting lines := rfl

theorem after_take_succ (n : Nesting) {lines : List Text} {k : Nat} (hk : k < lines.length) :
    after n (lines.take (k + 1)) = (feed (after n (lines.take k)) lines[k]).nesting := by
  rw [List.take_succ_eq_append_getElem hk, after, List.foldl_append]
  rfl

end Layout

namespace Style

/-- The first line that shows a style, the first line of all having the number given. -/
def firstSighting (number : Nat) : List Text → Verdict
  | [] => none
  | line :: later =>
    match evidence? line with
    | some style => some ⟨style, number⟩
    | none => firstSighting (number + 1) later

/-- No line shows another style than the verdict or another line. -/
def Agrees (v : Verdict) (lines : List Text) : Prop :=
  ∃ style, (∀ s, v = some s → s.style = style) ∧
    ∀ line ∈ lines, ∀ found, evidence? line = some found → found = style

end Style

namespace Verdict

/-- Whether a line goes with the verdict. -/
def Accepts (v : Verdict) (line : Text) : Prop :=
  ∀ found s, Style.evidence? line = some found → v = some s → found = s.style

/-- The verdict after a line that goes with it. -/
def see (v : Verdict) (line : Text) (number : Nat) : Verdict :=
  match v with
  | some s => some s
  | none => (Style.evidence? line).map fun style => ⟨style, number⟩

theorem judge_of_accepts {v : Verdict} {line : Text} (h : v.Accepts line) (number : Nat) :
    v.judge line number = .ok (v.see line number) := by
  unfold judge see
  cases hev : Style.evidence? line with
  | none => cases v <;> rfl
  | some found =>
    cases v with
    | none => rfl
    | some s => exact if_pos (h found s hev rfl)

theorem judge_of_not_accepts {v : Verdict} {line : Text} (h : ¬ v.Accepts line) (number : Nat) :
    ∃ contradiction, v.judge line number = .error contradiction := by
  unfold Accepts at h
  push Not at h
  obtain ⟨found, s, hev, rfl, hne⟩ := h
  unfold judge
  rw [hev]
  exact ⟨_, if_neg hne⟩

theorem agrees_cons_iff {v : Verdict} {line : Text} {lines : List Text} (number : Nat) :
    Style.Agrees v (line :: lines) ↔ v.Accepts line ∧ Style.Agrees (v.see line number) lines := by
  constructor
  · rintro ⟨style, hv, hlines⟩
    refine ⟨fun found s hev hs => ?_, style, fun s hs => ?_, fun l hl => hlines l (by simp [hl])⟩
    · rw [hlines line (by simp) found hev, hv s hs]
    · unfold see at hs
      cases v with
      | some s' => exact hv s hs
      | none =>
        obtain ⟨found, hev, rfl⟩ := Option.map_eq_some_iff.mp hs
        exact hlines line (by simp) found hev
  · rintro ⟨haccepts, style, hsee, hlines⟩
    cases v with
    | some s =>
      refine ⟨style, hsee, fun l hl found hev => ?_⟩
      rcases List.mem_cons.mp hl with rfl | hl
      · rw [haccepts found s hev rfl, hsee s rfl]
      · exact hlines l hl found hev
    | none =>
      refine ⟨style, fun s hs => absurd hs (by simp), fun l hl found hev => ?_⟩
      rcases List.mem_cons.mp hl with rfl | hl
      · exact hsee ⟨found, number⟩ (by simp [see, hev])
      · exact hlines l hl found hev

theorem see_or_firstSighting (v : Verdict) (line : Text) (lines : List Text) (number : Nat) :
    (v.see line number).or (Style.firstSighting (number + 1) lines) =
      v.or (Style.firstSighting number (line :: lines)) := by
  rw [Style.firstSighting]
  cases v with
  | some s => rfl
  | none => cases hev : Style.evidence? line <;> simp [see, hev]

end Verdict

namespace Converter

open Layout

theorem all_of_accepts {v : Verdict} {line : Text} (h : v.Accepts line) (number : Nat) :
    Check.all [.style v] line number =
      { checks := [.style (v.see line number)], events := v.news line number } := by
  simp [Check.all, Check.judge, Verdict.judge_of_accepts h, Except.map, Check.news]

theorem all_of_not_accepts {v : Verdict} {line : Text} (h : ¬ v.Accepts line) (number : Nat) :
    ∃ contradiction, (Check.all [.style v] line number).objection = some contradiction := by
  obtain ⟨contradiction, hjudge⟩ := Verdict.judge_of_not_accepts h number
  exact ⟨contradiction, by simp [Check.all, Check.judge, hjudge, Except.map]⟩

/-- **Lines that agree on a style are laid out to the last one.** -/
theorem feed_of_agrees {c : Converter} {v : Verdict} (hc : c.checks = [.style v]) {lines : List Text}
    (h : Style.Agrees v lines) (number : Nat) :
    (c.feed number lines).result = .ok (laid c.nesting lines) ∧
      (c.feed number lines).converter =
        { c with checks := [.style (v.or (Style.firstSighting number lines))]
                 nesting := after c.nesting lines } := by
  induction lines generalizing c v number with
  | nil =>
    refine ⟨rfl, ?_⟩
    rw [Style.firstSighting, Option.or_none, ← hc]
    rfl
  | cons line lines ih =>
    obtain ⟨haccepts, hrest⟩ := (Verdict.agrees_cons_iff number).mp h
    have hall := all_of_accepts haccepts number
    rw [← hc] at hall
    obtain ⟨hresult, hconv⟩ := ih (c := { c with checks := [.style (v.see line number)]
                                                 nesting := (Layout.feed c.nesting line).nesting })
      rfl hrest (number + 1)
    constructor
    · simp only [feed, hall, hresult]
      rfl
    · simp only [feed, hall, hconv]
      rw [Verdict.see_or_firstSighting]
      rfl

/-- A run that succeeds has seen no two styles. -/
theorem agrees_of_feed {c : Converter} {v : Verdict} (hc : c.checks = [.style v]) {lines : List Text}
    {number : Nat} {out : List OutLine} (h : (c.feed number lines).result = .ok out) :
    Style.Agrees v lines := by
  induction lines generalizing c v number out with
  | nil =>
    cases v with
    | none => exact ⟨.brace, by simp, by simp⟩
    | some s => exact ⟨s.style, by simp, by simp⟩
  | cons line lines ih =>
    rw [Verdict.agrees_cons_iff number]
    by_cases haccepts : v.Accepts line
    · refine ⟨haccepts, ?_⟩
      have hall := all_of_accepts haccepts number
      rw [← hc] at hall
      simp only [feed, hall] at h
      cases hresult : (feed { c with checks := [.style (v.see line number)]
                                     nesting := (Layout.feed c.nesting line).nesting }
          (number + 1) lines).result with
      | ok rest => exact ih rfl hresult
      | error fault =>
        rw [hresult] at h
        exact absurd h (by simp [Except.map])
    · obtain ⟨contradiction, hobj⟩ := all_of_not_accepts haccepts number
      rw [← hc] at hobj
      simp only [feed, hobj] at h
      exact absurd h (by simp)

theorem convertLines_of_agrees (w : Width) {lines : List Text} (h : Style.Agrees none lines) :
    (convertLines { width := w } lines).result =
        .ok (dropLeadingBlank ((laid {} lines).map (OutLine.render w))) ∧
      (convertLines { width := w } lines).converter =
        { width := w, checks := [.style (Style.firstSighting 1 lines)], nesting := after {} lines } := by
  obtain ⟨hresult, hconv⟩ := feed_of_agrees (c := reset { width := w }) rfl h 1
  simp only [convertLines, hresult, hconv]
  exact ⟨rfl, rfl⟩

theorem agrees_of_convertLines {w : Width} {lines out : List Text}
    (h : (convertLines { width := w } lines).result = .ok out) : Style.Agrees none lines := by
  cases hresult : (feed (reset { width := w }) 1 lines).result with
  | ok laidOut => exact agrees_of_feed rfl hresult
  | error fault =>
    simp only [convertLines, hresult] at h
    exact absurd h (by simp)

end Converter

end Offside
