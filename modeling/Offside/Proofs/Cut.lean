import Offside.Proofs.Cases
import Offside.Proofs.Tags

/-!
# Where a line may be cut

`modeAfter` is the mode that a piece of a line leads to, given what follows the piece. The only question
about what follows is whether a field of an f-string is closed, so wherever the reading stands outside
strings the line may be cut: the piece before is read as if the line ended there (`scan_append_of_code`).

A brace that is not inert is such a place, and it hides what lies before it. So the two sides of a live
brace are read as lines of their own (`roles_cut`), and the depth of the line is the sum of theirs and of
the weight of the brace (`SplitsAt.netDepth_eq`).
-/

namespace Offside.Brace

open Text

/-- The mode that the reading of a text leads to, with `rest` after it on the line. -/
def modeAfter (before : Text) (mode : Mode) : Text → Text → Mode
  | [], _ => mode
  | c :: t, rest => modeAfter (c :: before) (step before mode c (t ++ rest)).2 t rest

@[simp] theorem modeAfter_nil (before : Text) (mode : Mode) (rest : Text) :
    modeAfter before mode [] rest = mode := rfl

@[simp] theorem modeAfter_cons (before : Text) (mode : Mode) (c : Char) (t rest : Text) :
    modeAfter before mode (c :: t) rest =
      modeAfter (c :: before) (step before mode c (t ++ rest)).2 t rest := rfl

theorem modeAfter_concat (before : Text) (mode : Mode) (t : Text) (c : Char) (rest : Text) :
    modeAfter before mode (t ++ [c]) rest =
      (step (t.reverse ++ before) (modeAfter before mode t (c :: rest)) c rest).2 := by
  induction t generalizing before mode with
  | nil => rfl
  | cons d t ih =>
    rw [List.cons_append, modeAfter_cons, ih]
    simp

/-! ### What follows does not matter -/

theorem closes_append {depth : Nat} {t : Text} (h : closes depth t = true) (rest : Text) :
    closes depth (t ++ rest) = true := by
  induction t generalizing depth with
  | nil => exact absurd h (by cases depth <;> simp [closes])
  | cons c t ih =>
    rw [List.cons_append]
    by_cases hopen : c = '{'
    · subst hopen
      simp only [closes, if_pos] at h ⊢
      exact ih h
    · by_cases hclose : c = '}'
      · subst hclose
        cases depth with
        | zero => rfl
        | succ depth => exact ih h
      · have hnone := isBrace_eq_false hopen hclose
        rw [closes_of_not_brace hnone] at h ⊢
        exact ih h

/-- A field that is left again is closed before that. -/
theorem closes_of_modeAfter {past : Text} {q : Char} {depth : Nat} {t rest : Text}
    (h : modeAfter past (.field q depth) t rest = .code) : closes depth t = true := by
  induction t generalizing past depth with
  | nil => exact absurd h (by simp)
  | cons c t ih =>
    rw [modeAfter_cons] at h
    by_cases hopen : c = '{'
    · subst hopen
      simp only [closes, if_pos]
      exact ih h
    · by_cases hclose : c = '}'
      · subst hclose
        cases depth with
        | zero => rfl
        | succ depth => exact ih h
      · rw [closes_of_not_brace (isBrace_eq_false hopen hclose)]
        simp only [step, if_neg hopen, if_neg hclose] at h
        exact ih h

theorem step_append_of_code {past : Text} {mode : Mode} {c : Char} {t rest : Text}
    (h : modeAfter past mode (c :: t) rest = .code) :
    step past mode c (t ++ rest) = step past mode c t := by
  cases mode with
  | code | plain | field => rfl
  | template q =>
    by_cases hquote : c = q
    · simp only [step, if_pos hquote]
    · by_cases hopen : c = '{'
      · have hcloses : closes 0 (t ++ rest) = closes 0 t := by
          cases ht : closes 0 t with
          | true => exact closes_append ht rest
          | false =>
            -- a field closed only by what follows would still be open after `t`
            refine Bool.eq_false_of_not_eq_true fun hrest => ?_
            simp only [modeAfter_cons, step, if_neg hquote, if_pos hopen, hrest, if_true] at h
            rw [closes_of_modeAfter h] at ht
            exact absurd ht (by decide)
        simp only [step, hcloses]
      · simp only [step, if_neg hquote, if_neg hopen]

theorem modeAfter_cut {past : Text} {mode : Mode} {t rest : Text}
    (h : modeAfter past mode t rest = .code) : modeAfter past mode t [] = .code := by
  induction t generalizing past mode with
  | nil => exact h
  | cons c t ih =>
    have hstep := step_append_of_code h
    rw [modeAfter_cons, hstep] at h
    rw [modeAfter_cons, List.append_nil]
    exact ih h

/-- **Outside strings a line may be cut.** What follows does not change the roles before it. -/
theorem scan_append_of_code {past : Text} {mode : Mode} {t rest : Text}
    (h : modeAfter past mode t rest = .code) :
    scan past mode (t ++ rest) = scan past mode t ++ scan (t.reverse ++ past) .code rest := by
  induction t generalizing past mode with
  | nil =>
    obtain rfl : mode = .code := h
    rfl
  | cons c t ih =>
    have hstep := step_append_of_code h
    rw [modeAfter_cons, hstep] at h
    rw [List.cons_append, scan_cons, scan_cons, hstep, ih h]
    simp

/-! ### Changing what follows -/

theorem closes_append_congr {u v : Text} (h : ∀ depth, closes depth u = closes depth v) (t : Text)
    (depth : Nat) : closes depth (t ++ u) = closes depth (t ++ v) := by
  induction t generalizing depth with
  | nil => exact h depth
  | cons c t ih =>
    rw [List.cons_append, List.cons_append, closes.eq_def, closes.eq_def depth (c :: (t ++ v))]
    cases depth <;> simp only [ih]

/-- Texts that close the same fields of f-strings lead to the same mode before them. -/
theorem modeAfter_congr {u v : Text} (h : ∀ depth, closes depth u = closes depth v) (past : Text)
    (mode : Mode) (t : Text) : modeAfter past mode t u = modeAfter past mode t v := by
  induction t generalizing past mode with
  | nil => rfl
  | cons c t ih =>
    have hstep : step past mode c (t ++ u) = step past mode c (t ++ v) := by
      cases mode <;> simp only [step, closes_append_congr h]
    rw [modeAfter_cons, modeAfter_cons, hstep, ih]

theorem modeAfter_append (past : Text) (mode : Mode) (t u rest : Text) :
    modeAfter past mode (t ++ u) rest =
      modeAfter (t.reverse ++ past) (modeAfter past mode t (u ++ rest)) u rest := by
  induction t generalizing past mode with
  | nil => rfl
  | cons c t ih =>
    rw [List.cons_append, modeAfter_cons, ih]
    simp

theorem modeAfter_quoted {mode : Mode} (h : mode.Quoted) (past t rest : Text) :
    (modeAfter past mode t rest).Quoted := by
  induction t generalizing past mode with
  | nil => exact h
  | cons c t ih => exact ih (step_quoted h past c (t ++ rest)) (c :: past)

/-- Text without quotes and braces. -/
def Idle (t : Text) : Prop := ∀ c ∈ t, c ≠ '"' ∧ c ≠ '\'' ∧ isBrace c = false

instance (t : Text) : Decidable (Idle t) :=
  List.decidableBAll (fun c => c ≠ '"' ∧ c ≠ '\'' ∧ isBrace c = false) t

theorem Idle.plain {t : Text} (h : Idle t) : Plain t := fun c hc => (h c hc).2.2

theorem modeAfter_idle {t : Text} (ht : Idle t) {mode : Mode} (h : mode.Quoted) (past rest : Text) :
    modeAfter past mode t rest = mode := by
  induction t generalizing past with
  | nil => rfl
  | cons c t ih =>
    obtain ⟨hdouble, hsingle, hbrace⟩ := ht c (by simp)
    have hparts := hbrace
    simp only [isBrace, Bool.or_eq_false_iff, beq_eq_false_iff_ne] at hparts
    have hquote : ∀ q : Char, q = '"' ∨ q = '\'' → c ≠ q := by
      rintro q (rfl | rfl)
      · exact hdouble
      · exact hsingle
    have hstep : (step past mode c (t ++ rest)).2 = mode := by
      cases mode with
      | code => simp [step, hdouble, hsingle, hparts]
      | plain q => simp [step, hquote q h, hbrace]
      | template q => simp [step, hquote q h, hparts]
      | field q depth => simp [step, hparts]
    rw [modeAfter_cons, hstep]
    exact ih (fun d hd => ht d (by simp [hd])) _

theorem closes_plain_append {s : Text} (hs : Plain s) (depth : Nat) (t : Text) :
    closes depth (s ++ t) = closes depth t := by
  induction s with
  | nil => rfl
  | cons c s ih =>
    rw [List.cons_append, closes_of_not_brace (hs c (by simp)), ih fun d hd => hs d (by simp [hd])]

/-- **Idle text at the end of a piece does not matter** to the mode that the piece leads to. -/
theorem modeAfter_append_idle {u : Text} (hu : Idle u) (t rest : Text) :
    modeAfter [] .code (t ++ u) rest = modeAfter [] .code t rest := by
  have hcode : Mode.code.Quoted := trivial
  have hquoted := modeAfter_quoted hcode [] t (u ++ rest)
  rw [modeAfter_append, modeAfter_idle hu hquoted]
  exact modeAfter_congr (fun depth => closes_plain_append hu.plain depth rest) [] .code t

/-! ### The two sides of a live brace -/

/-- Only outside strings does a brace take part in nesting, and it leaves the mode as it is. -/
theorem step_live {past : Text} {mode : Mode} {c : Char} {rest : Text} {r : Role}
    (h : (step past mode c rest).1 = some r) (hr : r ≠ .inert) :
    mode = .code ∧ (step past mode c rest).2 = .code ∧ isBrace c = true := by
  cases mode with
  | code =>
    refine ⟨rfl, ?_⟩
    simp only [step] at h ⊢
    split_ifs at h ⊢ with hquote hescaped htemplate hopen hclose
    · exact ⟨rfl, hopen ▸ rfl⟩
    · exact ⟨rfl, hclose ▸ rfl⟩
  | plain q =>
    simp only [step] at h
    split_ifs at h
    exact absurd (Option.some.inj h).symm hr
  | template q =>
    simp only [step] at h
    split_ifs at h <;> exact absurd (Option.some.inj h).symm hr
  | field q depth =>
    cases depth <;> simp only [step] at h <;> split_ifs at h <;>
      exact absurd (Option.some.inj h).symm hr

theorem modeAfter_of_live {past : Text} {mode : Mode} {before : Text} {c : Char} {after : Text}
    {r : Role} (h : (scan past mode (before ++ c :: after))[before.length]? = some (some r))
    (hr : r ≠ .inert) : modeAfter past mode before (c :: after) = .code := by
  induction before generalizing past mode with
  | nil =>
    rw [List.nil_append, scan_cons, List.length_nil, List.getElem?_cons_zero, Option.some.injEq] at h
    exact (step_live h hr).1
  | cons d before ih =>
    rw [List.cons_append, scan_cons, List.length_cons, List.getElem?_cons_succ] at h
    exact ih h

/-- **The two sides of a live brace are read as lines of their own.** -/
theorem roles_cut {before : Text} {c : Char} {after : Text} {r : Role}
    (h : (roles (before ++ c :: after))[before.length]? = some (some r)) (hr : r ≠ .inert) :
    roles (before ++ c :: after) = roles before ++ some r :: roles after := by
  have hcut : roles (before ++ c :: after) =
      roles before ++ scan (before.reverse ++ []) .code (c :: after) :=
    scan_append_of_code (modeAfter_of_live h hr)
  rw [hcut, List.getElem?_append_right (by simp), length_roles, Nat.sub_self, scan_cons,
    List.getElem?_cons_zero, Option.some.injEq] at h
  obtain ⟨-, hcode, hbrace⟩ := step_live h hr
  rw [hcut, scan_cons, h, hcode]
  exact congrArg _ (congrArg _ (scan_alike (alike_brace hbrace _) [] .code after))

theorem roles_brace {before after : Text} {c : Char} (hc : isBrace c = true)
    (h : modeAfter [] .code before (c :: after) = .code) :
    roles (before ++ c :: after) =
      roles before ++ (step before.reverse .code c after).1 :: roles after := by
  have hcut : roles (before ++ c :: after) =
      roles before ++ scan (before.reverse ++ []) .code (c :: after) := scan_append_of_code h
  have hcode : (step before.reverse .code c after).2 = .code := by
    simp only [isBrace, Bool.or_eq_true, beq_iff_eq] at hc
    rcases hc with rfl | rfl <;> simp [step]
  rw [hcut, List.append_nil, scan_cons, hcode]
  exact congrArg _ (congrArg _ (scan_alike (alike_brace hc _) [] .code after))

/-- An opening brace outside strings is read by what lies before it. -/
theorem roles_opening {before after : Text} (h : modeAfter [] .code before ('{' :: after) = .code) :
    roles (before ++ '{' :: after) =
      roles before ++ some (openingRole before.reverse) :: roles after := by
  rw [roles_brace (by decide) h]
  simp [step]

/-- A closing brace outside strings closes. -/
theorem roles_closing {before after : Text} (h : modeAfter [] .code before ('}' :: after) = .code) :
    roles (before ++ '}' :: after) = roles before ++ some .closing :: roles after := by
  rw [roles_brace (by decide) h]
  simp [step]

theorem SplitsAt.roles_eq {text before after : Text} (h : SplitsAt text before after) :
    roles text = roles before ++ some .structural :: roles after := by
  have hrole := getElem_structuralAt h.first
  rw [h.eq] at hrole ⊢
  exact roles_cut hrole (by decide)

/-- **What makes a brace the first structural one**: none before it, and it stands outside strings, after
something that starts no data literal. -/
theorem splitsAt_iff {before after : Text} :
    SplitsAt (before ++ '{' :: after) before after ↔
      structuralAt? before = none ∧ modeAfter [] .code before ('{' :: after) = .code ∧
        openingRole before.reverse = .structural := by
  constructor
  · intro h
    have hrole := getElem_structuralAt h.first
    have hmode := modeAfter_of_live hrole (by decide)
    refine ⟨?_, hmode, ?_⟩
    · have hfirst := h.first
      unfold structuralAt? at hfirst ⊢
      rw [h.roles_eq, List.findIdx?_append] at hfirst
      cases hbefore : (roles before).findIdx? (· == some .structural) with
      | none => rfl
      | some i =>
        rw [hbefore, Option.some_or, Option.some.injEq] at hfirst
        obtain ⟨hi, -⟩ := List.findIdx?_eq_some_iff_getElem.mp hbefore
        rw [length_roles] at hi
        omega
    · rw [roles_opening hmode, List.getElem?_append_right (by simp), length_roles, Nat.sub_self,
        List.getElem?_cons_zero, Option.some.injEq, Option.some.injEq] at hrole
      exact hrole
  · rintro ⟨hbefore, hmode, hrole⟩
    refine ⟨rfl, ?_⟩
    unfold structuralAt? at hbefore ⊢
    rw [roles_opening hmode, hrole, List.findIdx?_append, hbefore, List.findIdx?_cons, length_roles]
    simp

/-- The first structural brace stays the first if the text after it closes the same fields as before. -/
theorem SplitsAt.replace {text before after after' : Text} (h : SplitsAt text before after)
    (hcloses : ∀ depth, closes depth after = closes depth after') :
    SplitsAt (before ++ '{' :: after') before after' := by
  rw [h.eq] at h
  obtain ⟨hbefore, hmode, hrole⟩ := splitsAt_iff.mp h
  have hsame : modeAfter [] .code before ('{' :: after) = modeAfter [] .code before ('{' :: after') :=
    modeAfter_congr (fun depth => by simp only [closes, if_pos, hcloses]) [] .code before
  exact splitsAt_iff.mpr ⟨hbefore, hsame ▸ hmode, hrole⟩

/-- It also stays the first if nothing comes after it, whatever it was that came after it. -/
theorem SplitsAt.bare {text before after : Text} (h : SplitsAt text before after) :
    SplitsAt (before ++ ['{']) before [] := by
  rw [h.eq] at h
  obtain ⟨hbefore, hmode, hrole⟩ := splitsAt_iff.mp h
  have hsame : modeAfter [] .code before [] = modeAfter [] .code before ['{'] :=
    modeAfter_congr (fun depth => by cases depth <;> rfl) [] .code before
  exact splitsAt_iff.mpr ⟨hbefore, hsame ▸ modeAfter_cut hmode, hrole⟩

/-! ### Depth -/

theorem depthOf_none (k : Nat) : depthOf (List.replicate k none) = 0 := by
  induction k with
  | zero => rfl
  | succ k ih => rw [List.replicate_succ, depthOf_cons, ih]; rfl

@[simp] theorem netDepth_trim (t : Text) : netDepth (trim t) = netDepth t := by
  obtain ⟨a, b, ha, hb, hab⟩ := exists_trim t
  conv_rhs => rw [hab]
  unfold netDepth
  rw [roles_append_plain (Plain.of_blank hb), roles_blank_append ha, depthOf_append, depthOf_append,
    depthOf_none, depthOf_none]
  omega

/-- **The depth of a line that is cut at its first structural brace.** -/
theorem SplitsAt.netDepth_eq {text before after : Text} (h : SplitsAt text before after) :
    netDepth text = netDepth before + 1 + netDepth after := by
  have hweight : (some Role.structural).elim 0 Role.weight = 1 := rfl
  unfold netDepth
  rw [h.roles_eq, depthOf_append, depthOf_cons, hweight]
  omega

end Offside.Brace
