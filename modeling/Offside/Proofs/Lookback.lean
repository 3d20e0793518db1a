import Offside.Brace.Balance
import Offside.Proofs.Trim

/-!
# How far the reading of a line looks

The role of a brace depends on the text before it through three questions only: is a quote escaped,
does it open an f-string, does a brace start a data literal. `Alike a b` says that `a` and `b`, as
pasts, answer them in the same way however the line goes on, so the line is read in the same way after
either (`scan_alike`). A brace hides all that lies before it (`alike_brace`), a quote too (`alike_quote`),
and blanks at the start of a line are as good as nothing (`alike_blank`).

Forwards, the reading looks for the brace that closes a field of an f-string, and so at braces only:
text without braces at the end of a line changes nothing before it (`scan_append_plain`).

Together: trimming a line, taking a terminator off it or taking the closing brace off its front leaves
the role of every other brace as it was. `kinds` is the list of roles with the positions left out.
-/

namespace Offside.Brace

open Text

/-! ### Looking back -/

/-- Pasts that no continuation of the line tells apart. The texts are in reverse, as in `scan`. -/
structure Alike (a b : Text) : Prop where
  escaped : ∀ pre, escaped (pre ++ a) = escaped (pre ++ b)
  opensTemplate : ∀ pre, opensTemplate (pre ++ a) = opensTemplate (pre ++ b)
  openingRole : ∀ pre, openingRole (pre ++ a) = openingRole (pre ++ b)

theorem step_congr {a b : Text} (he : escaped a = escaped b)
    (ht : opensTemplate a = opensTemplate b) (hr : openingRole a = openingRole b) (mode : Mode)
    (c : Char) (rest : Text) : step a mode c rest = step b mode c rest := by
  cases mode <;> simp only [step, he, ht, hr]

theorem scan_alike {a b : Text} (h : Alike a b) (pre : Text) (mode : Mode) (line : Text) :
    scan (pre ++ a) mode line = scan (pre ++ b) mode line := by
  induction line generalizing pre mode with
  | nil => rfl
  | cons c rest ih =>
    have hstep := step_congr (h.escaped pre) (h.opensTemplate pre) (h.openingRole pre) mode c rest
    rw [scan_cons, scan_cons, hstep]
    exact congrArg _ (ih (c :: pre) _)

/-- What ends a run of backslashes, of string marks and of name characters. -/
def isStop (c : Char) : Bool := c != '\\' && !isMarkLetter c && !isNameChar c

/-- Letters, digits and marks lie between the space and the opening brace. -/
theorem isStop_of_toNat {c : Char} (h : c.toNat ≤ 0x20 ∨ 0x7b ≤ c.toNat) : isStop c = true := by
  have hne : ∀ d : Char, 0x20 < d.toNat → d.toNat < 0x7b → c ≠ d := by
    rintro d h1 h2 rfl
    omega
  have hname : isNameChar c = false := by
    have hval : c.toNat = c.val.toNat := rfl
    have hA : 'A'.val.toNat = 65 ∧ 'Z'.val.toNat = 90 := ⟨rfl, rfl⟩
    have ha : 'a'.val.toNat = 97 ∧ 'z'.val.toNat = 122 := ⟨rfl, rfl⟩
    have h0 : '0'.val.toNat = 48 ∧ '9'.val.toNat = 57 := ⟨rfl, rfl⟩
    have hranges : isNameChar c = (decide ('A'.val ≤ c.val ∧ c.val ≤ 'Z'.val) ||
        decide ('a'.val ≤ c.val) && decide (c.val ≤ 'z'.val) ||
        decide ('0'.val ≤ c.val) && decide (c.val ≤ '9'.val) || c == '_') := rfl
    rw [hranges]
    simp only [Bool.or_eq_false_iff, Bool.and_eq_false_iff, decide_eq_false_iff_not,
      UInt32.le_iff_toNat_le, beq_eq_false_iff_ne]
    refine ⟨by omega, hne '_' (by decide) (by decide)⟩
  have hmark : isMarkLetter c = false := by
    simp only [isMarkLetter, List.contains_eq_mem, decide_eq_false_iff_not, List.mem_cons,
      List.not_mem_nil, or_false, not_or]
    refine ⟨?_, ?_, ?_, ?_, ?_, ?_, ?_, ?_⟩ <;> exact hne _ (by decide) (by decide)
  simp [isStop, hname, hmark, hne '\\' (by decide) (by decide)]

theorem isStop_brace {c : Char} (h : isBrace c = true) : isStop c = true := by
  simp only [isBrace, Bool.or_eq_true, beq_iff_eq] at h
  rcases h with rfl | rfl <;> decide

theorem isStop_blank {c : Char} (h : isBlank c = true) : isStop c = true := by
  simp only [isBlank, Bool.or_eq_true, Bool.and_eq_true, decide_eq_true_eq, beq_iff_eq] at h
  exact isStop_of_toNat (by omega)

theorem isBlank_brace {c : Char} (h : isBrace c = true) : isBlank c = false := by
  simp only [isBrace, Bool.or_eq_true, beq_iff_eq] at h
  rcases h with rfl | rfl <;> decide

theorem isBrace_blank {c : Char} (h : isBlank c = true) : isBrace c = false := by
  cases hb : isBrace c with
  | false => rfl
  | true => rw [isBlank_brace hb] at h; exact absurd h (by decide)

theorem takeWhile_stop {p : Char → Bool} {c : Char} (hc : p c = false) (pre before : Text) :
    (pre ++ c :: before).takeWhile p = pre.takeWhile p := by
  induction pre with
  | nil => exact List.takeWhile_cons_of_neg (by simp [hc])
  | cons d pre ih =>
    rw [List.cons_append, List.takeWhile_cons, List.takeWhile_cons, ih]

theorem escaped_stop {c : Char} (hc : isStop c = true) (pre before : Text) :
    escaped (pre ++ c :: before) = escaped pre := by
  have hp : (c == '\\') = false := by
    simp only [isStop, Bool.and_eq_true, bne_iff_ne] at hc
    simpa using hc.1.1
  unfold escaped
  rw [takeWhile_stop (p := (· == '\\')) hp]

theorem opensTemplate_stop {c : Char} (hc : isStop c = true) (pre before : Text) :
    opensTemplate (pre ++ c :: before) = opensTemplate pre := by
  simp only [isStop, Bool.and_eq_true, Bool.not_eq_true'] at hc
  obtain ⟨⟨-, hmark⟩, hname⟩ := hc
  -- at most two marks and one character before them are looked at
  rcases pre with _ | ⟨x, _ | ⟨y, _ | ⟨z, pre⟩⟩⟩
  · simp [opensTemplate, marks, hmark]
  · cases hx : isMarkLetter x <;> simp [opensTemplate, marks, hmark, hname, hx]
  · cases hx : isMarkLetter x <;> cases hy : isMarkLetter y <;>
      simp [opensTemplate, marks, hname, hx, hy]
  · cases hx : isMarkLetter x <;> cases hy : isMarkLetter y <;>
      simp [opensTemplate, marks, hx, hy]

theorem isPrefixOf_append_of_notMem {v : Text} (u t : Text) (h : ∀ c, v.head? = some c → c ∉ u) :
    u.isPrefixOf (t ++ v) = u.isPrefixOf t := by
  induction u generalizing t with
  | nil => simp
  | cons x u ih =>
    cases t with
    | nil =>
      cases v with
      | nil => rfl
      | cons c v =>
        have hx : x ≠ c := fun hxc => h c rfl (by simp [hxc])
        simp [List.isPrefixOf, hx]
    | cons y t =>
      have hu := ih t fun c hc hcu => h c hc (by simp [hcu])
      simp only [List.cons_append, List.isPrefixOf, hu]

theorem literalLeads_chars : ∀ lead ∈ literalLeads, ∀ c ∈ lead,
    isBlank c = false ∧ isBrace c = false := by
  have h : (literalLeads.all fun lead => lead.all fun c => !isBlank c && !isBrace c) = true := by
    decide
  simpa only [List.all_eq_true, Bool.and_eq_true, Bool.not_eq_true'] using h

/-- A tail that starts with no character of a lead, and shows nothing else once it is trimmed, does
not matter to the role of a brace. -/
theorem openingRole_append {v : Text} (hv : trimStart v = v ∨ trimStart v = [])
    (hlead : ∀ c, v.head? = some c → ∀ lead ∈ literalLeads, c ∉ lead) (pre : Text) :
    openingRole (pre ++ v) = openingRole pre := by
  have hsame : ∀ lead ∈ literalLeads,
      lead.reverse.isPrefixOf (trimStart (pre ++ v)) = lead.reverse.isPrefixOf (trimStart pre) := by
    intro lead hl
    have hnot : ∀ c, v.head? = some c → c ∉ lead.reverse :=
      fun c hc hmem => hlead c hc lead hl (List.mem_reverse.mp hmem)
    rw [trimStart_append]
    split_ifs with hpre
    · rw [hpre]
      rcases hv with hv | hv
      · rw [hv]
        exact isPrefixOf_append_of_notMem _ [] hnot
      · rw [hv]
    · exact isPrefixOf_append_of_notMem _ _ hnot
  have hany : literalLeads.any (fun lead => lead.reverse.isPrefixOf (trimStart (pre ++ v))) =
      literalLeads.any (fun lead => lead.reverse.isPrefixOf (trimStart pre)) := by
    rw [Bool.eq_iff_iff, List.any_eq_true, List.any_eq_true]
    constructor
    · rintro ⟨lead, hl, h⟩
      exact ⟨lead, hl, by rwa [← hsame lead hl]⟩
    · rintro ⟨lead, hl, h⟩
      exact ⟨lead, hl, by rwa [hsame lead hl]⟩
  unfold openingRole
  rw [hany]

/-- A character that ends all runs, is no blank and occurs in no lead hides what lies before it. -/
theorem alike_stop {c : Char} (hstop : isStop c = true) (hblank : isBlank c = false)
    (hlead : ∀ lead ∈ literalLeads, c ∉ lead) (before : Text) : Alike (c :: before) [] where
  escaped pre := by rw [escaped_stop hstop, List.append_nil]
  opensTemplate pre := by rw [opensTemplate_stop hstop, List.append_nil]
  openingRole pre := by
    have hself : trimStart (c :: before) = c :: before :=
      trimStart_eq_self fun d hd => by
        rw [List.head?_cons, Option.some.injEq] at hd
        exact hd ▸ hblank
    rw [List.append_nil]
    refine openingRole_append (Or.inl hself) (fun d hd => ?_) pre
    rw [List.head?_cons, Option.some.injEq] at hd
    exact hd ▸ hlead

/-- **A brace hides what lies before it.** -/
theorem alike_brace {c : Char} (hc : isBrace c = true) (before : Text) : Alike (c :: before) [] := by
  refine alike_stop (isStop_brace hc) (isBlank_brace hc) (fun lead hlead hmem => ?_) before
  have hchar := (literalLeads_chars lead hlead c hmem).2
  rw [hchar] at hc
  exact absurd hc (by decide)

/-- **And so does a quote.** -/
theorem alike_quote {q : Char} (hq : q = '"' ∨ q = '\'') (before : Text) : Alike (q :: before) [] := by
  rcases hq with rfl | rfl <;> exact alike_stop (by decide) (by decide) (by decide) before

/-- **Blanks at the start of a line do not matter.** -/
theorem alike_blank {b : Text} (hb : Blank b) : Alike b [] := by
  cases b with
  | nil => exact ⟨fun _ => rfl, fun _ => rfl, fun _ => rfl⟩
  | cons c b =>
    have hc : isBlank c = true := hb c (by simp)
    refine ⟨fun pre => ?_, fun pre => ?_, fun pre => ?_⟩
    · rw [escaped_stop (isStop_blank hc), List.append_nil]
    · rw [opensTemplate_stop (isStop_blank hc), List.append_nil]
    · rw [List.append_nil]
      refine openingRole_append (Or.inr (trimStart_eq_nil_iff.mpr hb)) (fun d hd lead hlead hmem => ?_) pre
      rw [List.head?_cons, Option.some.injEq] at hd
      have hchar := (literalLeads_chars lead hlead d hmem).1
      rw [← hd, hc] at hchar
      exact absurd hchar (by decide)

/-! ### Looking ahead -/

/-- Text without braces. -/
def Plain (t : Text) : Prop := ∀ c ∈ t, isBrace c = false

theorem Plain.of_blank {t : Text} (h : Blank t) : Plain t := fun c hc => isBrace_blank (h c hc)

theorem closes_of_not_brace {c : Char} (hc : isBrace c = false) (depth : Nat) (rest : Text) :
    closes depth (c :: rest) = closes depth rest := by
  simp only [isBrace, Bool.or_eq_false_iff, beq_eq_false_iff_ne] at hc
  rw [closes.eq_def]
  simp only [hc.1, hc.2, if_false]

theorem closes_plain {s : Text} (hs : Plain s) (depth : Nat) : closes depth s = false := by
  induction s with
  | nil => cases depth <;> rfl
  | cons c s ih =>
    rw [closes_of_not_brace (hs c (by simp))]
    exact ih fun d hd => hs d (by simp [hd])

theorem closes_append_plain {s : Text} (hs : Plain s) (depth : Nat) (t : Text) :
    closes depth (t ++ s) = closes depth t := by
  induction t generalizing depth with
  | nil =>
    rw [List.nil_append, closes_plain hs]
    cases depth <;> rfl
  | cons c t ih =>
    rw [List.cons_append, closes.eq_def, closes.eq_def depth (c :: t)]
    cases depth <;> simp only [ih]

theorem step_append_plain {s : Text} (hs : Plain s) (before : Text) (mode : Mode) (c : Char)
    (rest : Text) : step before mode c (rest ++ s) = step before mode c rest := by
  cases mode <;> simp only [step, closes_append_plain hs]

/-- Only a brace has a role. -/
theorem step_role_none {c : Char} (hc : isBrace c = false) (before : Text) (mode : Mode)
    (rest : Text) : (step before mode c rest).1 = none := by
  have h := hc
  simp only [isBrace, Bool.or_eq_false_iff, beq_eq_false_iff_ne] at h
  cases mode <;> simp only [step, h.1, h.2, hc, if_false, Bool.false_eq_true] <;> split_ifs <;> rfl

theorem scan_plain {s : Text} (hs : Plain s) (before : Text) (mode : Mode) :
    scan before mode s = List.replicate s.length none := by
  induction s generalizing before mode with
  | nil => rfl
  | cons c s ih =>
    rw [scan_cons, step_role_none (hs c (by simp)), ih fun d hd => hs d (by simp [hd])]
    rfl

/-- **Text without braces at the end of a line changes nothing before it.** -/
theorem scan_append_plain {s : Text} (hs : Plain s) (before : Text) (mode : Mode) (t : Text) :
    scan before mode (t ++ s) = scan before mode t ++ List.replicate s.length none := by
  induction t generalizing before mode with
  | nil => exact scan_plain hs before mode
  | cons c t ih =>
    rw [List.cons_append, scan_cons, scan_cons, step_append_plain hs, ih, List.cons_append]

/-! ### Roles of a line with its ends cut off -/

theorem roles_append_plain {s : Text} (hs : Plain s) (t : Text) :
    roles (t ++ s) = roles t ++ List.replicate s.length none :=
  scan_append_plain hs [] .code t

/-- Roles of nothing at the end do not open or close a literal. -/
theorem openLiteral_append_none (pos : Nat) (state : Option (Nat × Nat)) (rs : List (Option Role))
    (k : Nat) : openLiteral pos state (rs ++ List.replicate k none) = openLiteral pos state rs := by
  induction rs generalizing pos state with
  | nil =>
    induction k generalizing pos with
    | zero => rfl
    | succ k ih =>
      rw [List.nil_append] at ih
      rw [List.nil_append, List.replicate_succ]
      rcases state with _ | ⟨start, _ | depth⟩ <;> exact ih (pos + 1)
  | cons r rs ih =>
    rcases state with _ | ⟨start, _ | depth⟩ <;> rcases r with _ | _ | _ | _ | _ <;>
      exact ih (pos + 1) _

theorem structuralAt_append_plain {s : Text} (hs : Plain s) (t : Text) :
    structuralAt? (t ++ s) = structuralAt? t := by
  unfold structuralAt?
  rw [roles_append_plain hs, List.findIdx?_append]
  simp

theorem openLiteralAt_append_plain {s : Text} (hs : Plain s) (t : Text) :
    openLiteralAt? (t ++ s) = openLiteralAt? t := by
  unfold openLiteralAt?
  rw [roles_append_plain hs, openLiteral_append_none]

theorem scan_blank_append {a : Text} (ha : Blank a) {past : Text} (hp : Blank past) (t : Text) :
    scan past .code (a ++ t) = List.replicate a.length none ++ roles t := by
  induction a generalizing past with
  | nil => exact scan_alike (alike_blank hp) [] .code t
  | cons c a ih =>
    have hc : isBlank c = true := ha c (by simp)
    have hcode : step past .code c (a ++ t) = (none, .code) := by
      have hne : ∀ d : Char, isBlank d = false → c ≠ d := by
        rintro d hd rfl
        rw [hd] at hc
        exact absurd hc (by decide)
      simp [step, hne '"' (by decide), hne '\'' (by decide), hne '{' (by decide),
        hne '}' (by decide)]
    have hpast : Blank (c :: past) := fun d hd => by
      rcases List.mem_cons.mp hd with rfl | hd
      · exact hc
      · exact hp d hd
    rw [List.cons_append, scan_cons, hcode, ih (fun d hd => ha d (by simp [hd])) hpast]
    rfl

theorem roles_blank_append {a : Text} (ha : Blank a) (t : Text) :
    roles (a ++ t) = List.replicate a.length none ++ roles t :=
  scan_blank_append ha blank_nil t

/-- **After a closing brace the line is read as if it started there.** -/
theorem roles_closing_cons (t : Text) : roles ('}' :: t) = some .closing :: roles t := by
  have hstep : step [] .code '}' t = (some .closing, .code) := by simp [step]
  unfold roles
  rw [scan_cons, hstep]
  exact congrArg _ (scan_alike (alike_brace (by decide) []) [] .code t)

/-- The roles of the braces of a line, in order. -/
def kinds (line : Text) : List Role := (roles line).filterMap id

theorem kinds_trim (t : Text) : kinds (trim t) = kinds t := by
  obtain ⟨a, b, ha, hb, hab⟩ := exists_trim t
  conv_rhs => rw [hab]
  unfold kinds
  rw [roles_append_plain (Plain.of_blank hb), roles_blank_append ha]
  simp

theorem kinds_trimEnd (t : Text) : kinds (trimEnd t) = kinds t := by
  obtain ⟨b, hb, htb⟩ := exists_trimEnd t
  conv_rhs => rw [htb]
  unfold kinds
  rw [roles_append_plain (Plain.of_blank hb)]
  simp

theorem plain_terminator : Plain [Keyword.terminator] := fun c hc => by
  rw [List.mem_singleton] at hc
  exact hc ▸ by decide

theorem kinds_stripTerminator (t : Text) : kinds (Keyword.stripTerminator t) = kinds t := by
  rcases Keyword.exists_stripTerminator t with h | h
  · rw [← h]
  · conv_rhs => rw [h]
    unfold kinds
    rw [roles_append_plain plain_terminator]
    simp

theorem kinds_closing_cons (t : Text) : kinds ('}' :: t) = .closing :: kinds t := by
  unfold kinds
  rw [roles_closing_cons]
  rfl

/-- A line has a structural brace if one of its braces has that role. -/
theorem structuralAt_isSome_iff {t : Text} : (structuralAt? t).isSome ↔ .structural ∈ kinds t := by
  unfold structuralAt? kinds
  rw [List.findIdx?_isSome, List.any_eq_true]
  simp

end Offside.Brace
