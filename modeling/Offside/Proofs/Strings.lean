import Offside.Proofs.Cut

/-!
# Strings

A string is cut out of its line by its two quotes. `Fills q mode s` says that `s` may stand between them:
it is read to its end without leaving the string, its braces are inert, and the quote after it ends the
string. Text without f-strings that ends outside strings is read in the same way whatever follows it
(`Settled.modeAfter_eq`), and the quote that ends a string hides all that lies before it, so the text on
either side of a string is read as a line of its own (`roles_string`).

Two kinds of contents fill a string: of a plain string any text whose quotes are escaped
(`Enclosed.fills`), and of an f-string any text whose fields are closed, whatever they hold
(`TemplateBody.fills`). The main results say what this means for the tags of the line.
-/

namespace Offside.Brace

open Text

/-! ### The text before a string -/

/-- A quote that stands outside strings and is not escaped opens a string. -/
def OpensString (a : Text) (i : Nat) : Prop :=
  (a[i]? = some '"' ∨ a[i]? = some '\'') ∧ escaped (a.take i).reverse = false ∧
    modeAfter [] .code (a.take i) (a.drop i) = .code

instance (a : Text) (i : Nat) : Decidable (OpensString a i) :=
  inferInstanceAs (Decidable (_ ∧ _))

/-- Text in which no f-string is opened, and which ends outside strings. -/
structure Settled (a : Text) : Prop where
  plain : ∀ i < a.length, OpensString a i → opensTemplate (a.take i).reverse = false
  outside : modeAfter [] .code a [] = .code

instance (a : Text) : Decidable (Settled a) :=
  decidable_of_iff (_ ∧ _) ⟨fun h => ⟨h.1, h.2⟩, fun h => ⟨h.plain, h.outside⟩⟩

/-- Whether the reading stands outside f-strings, where it does not look ahead. -/
def Mode.steady : Mode → Bool
  | .code | .plain _ => true
  | .template _ | .field .. => false

theorem step_of_steady {mode : Mode} (h : mode.steady = true) (past : Text) (c : Char)
    (rest rest' : Text) : step past mode c rest = step past mode c rest' := by
  cases mode with
  | code | plain => rfl
  | template | field => exact absurd h (by simp [Mode.steady])

/-- Only a quote that opens an f-string leads into one. -/
theorem step_steady {past : Text} {mode : Mode} {c : Char} {rest : Text} (h : mode.steady = true)
    (hplain : mode = .code → c = '"' ∨ c = '\'' → escaped past = false → opensTemplate past = false) :
    (step past mode c rest).2.steady = true := by
  cases mode with
  | code =>
    by_cases hquote : c = '"' ∨ c = '\''
    · simp only [step, if_pos hquote]
      split_ifs with hescaped htemplate
      · rfl
      · rw [hplain rfl hquote (by simpa using hescaped)] at htemplate
        exact absurd htemplate (by decide)
      · rfl
    · simp only [step, if_neg hquote]
      split_ifs <;> rfl
  | plain q =>
    simp only [step]
    split_ifs <;> rfl
  | template | field => exact absurd h (by simp [Mode.steady])

/-- Where no f-string is opened, what follows does not matter. -/
theorem modeAfter_of_steady {a : Text}
    (hplain : ∀ i < a.length, OpensString a i → opensTemplate (a.take i).reverse = false)
    {u v : Text} (ha : a = u ++ v) (hsteady : (modeAfter [] .code u v).steady = true) (rest : Text) :
    modeAfter u.reverse (modeAfter [] .code u v) v rest =
      modeAfter u.reverse (modeAfter [] .code u v) v [] := by
  -- `u` has been read and led outside f-strings; the induction is on what is left of `a`
  induction v generalizing u with
  | nil => rfl
  | cons c v ih =>
    have hnext : modeAfter [] .code (u ++ [c]) v =
        (step u.reverse (modeAfter [] .code u (c :: v)) c v).2 := by
      rw [modeAfter_concat, List.append_nil]
    have htake : a.take u.length = u := by rw [ha, List.take_left]
    have hdrop : a.drop u.length = c :: v := by rw [ha, List.drop_left]
    have hsteady' : (modeAfter [] .code (u ++ [c]) v).steady = true := by
      rw [hnext]
      refine step_steady hsteady fun hmode hquote hescaped => ?_
      have hopens : OpensString a u.length := by
        refine ⟨?_, by rw [htake, hescaped], by rw [htake, hdrop, hmode]⟩
        rw [ha, List.getElem?_append_right le_rfl, Nat.sub_self, List.getElem?_cons_zero]
        simpa using hquote
      have := hplain u.length (by simp [ha]) hopens
      rwa [htake] at this
    have hrest := ih (u := u ++ [c]) (by simp [ha]) hsteady'
    rw [hnext, List.reverse_concat] at hrest
    rw [modeAfter_cons, modeAfter_cons, step_of_steady hsteady _ _ (v ++ rest) v,
      step_of_steady hsteady _ _ (v ++ []) v, hrest]

theorem Settled.modeAfter_eq {a : Text} (h : Settled a) (rest : Text) :
    modeAfter [] .code a rest = .code := by
  have hsame := modeAfter_of_steady h.plain (u := []) rfl rfl rest
  exact hsame.trans h.outside

/-! ### The contents of a string -/

@[simp] theorem inertSpan_nil : inertSpan [] = [] := rfl

@[simp] theorem inertSpan_cons (c : Char) (t : Text) :
    inertSpan (c :: t) = (if isBrace c then some .inert else none) :: inertSpan t := rfl

@[simp] theorem inertSpan_append (t u : Text) : inertSpan (t ++ u) = inertSpan t ++ inertSpan u :=
  List.map_append

@[simp] theorem length_inertSpan (t : Text) : (inertSpan t).length = t.length := List.length_map _

/-- The text may stand between the quotes of a string. -/
def Fills (q : Char) (mode : Mode) (s : Text) : Prop :=
  ∀ past rest, scan (q :: past) mode (s ++ q :: rest) =
    inertSpan s ++ none :: scan (q :: (s.reverse ++ q :: past)) .code rest

/-- What a plain string may hold: the quote that ends it only where it is escaped, and at the end
nothing that would escape one. -/
structure Enclosed (q : Char) (s : Text) : Prop where
  escapes : ∀ i < s.length, s[i]? = some q → escaped (s.take i).reverse = true
  ends : escaped s.reverse = false

instance (q : Char) (s : Text) : Decidable (Enclosed q s) :=
  decidable_of_iff (_ ∧ _) ⟨fun h => ⟨h.1, h.2⟩, fun h => ⟨h.escapes, h.ends⟩⟩

theorem escaped_quote {q : Char} (hq : q = '"' ∨ q = '\'') (u past : Text) :
    escaped (u ++ q :: past) = escaped u := by
  rcases hq with rfl | rfl <;> exact escaped_stop (by decide) u past

theorem step_enclosed {q : Char} (hq : q = '"' ∨ q = '\'') {past : Text} {c : Char}
    (hescaped : c = q → escaped past = true) (rest : Text) :
    step past (.plain q) c rest = (if isBrace c then some .inert else none, .plain q) := by
  by_cases hc : c = q
  · have hnone : isBrace c = false := hc ▸ isBrace_quote hq
    simp only [step, if_pos hc, hescaped hc, hnone, if_true, Bool.false_eq_true, if_false]
  · simp only [step, if_neg hc]
    split_ifs <;> rfl

theorem scan_enclosed {q : Char} (hq : q = '"' ∨ q = '\'') {s : Text} (h : Enclosed q s)
    {u v : Text} (hs : s = u ++ v) (past rest : Text) :
    scan (u.reverse ++ q :: past) (.plain q) (v ++ q :: rest) =
      inertSpan v ++ none :: scan (q :: (s.reverse ++ q :: past)) .code rest := by
  induction v generalizing u with
  | nil =>
    obtain rfl : s = u := by rw [hs, List.append_nil]
    have hstep : step (s.reverse ++ q :: past) (.plain q) q rest = (none, .code) := by
      simp [step, escaped_quote hq, h.ends]
    rw [List.nil_append, scan_cons, hstep]
    rfl
  | cons c v ih =>
    have htake : s.take u.length = u := by rw [hs, List.take_left]
    -- the quote that opens the string ends every run of backslashes, so only `u` is looked at
    have hescaped : c = q → escaped (u.reverse ++ q :: past) = true := by
      rintro rfl
      rw [escaped_quote hq, ← htake]
      refine h.escapes u.length (by simp [hs]) ?_
      rw [hs, List.getElem?_append_right le_rfl, Nat.sub_self, List.getElem?_cons_zero]
    have hrest := ih (u := u ++ [c]) (by simp [hs])
    rw [List.reverse_concat, List.cons_append] at hrest
    rw [List.cons_append, scan_cons, step_enclosed hq hescaped, hrest, inertSpan_cons,
      List.cons_append]

/-- **Whatever a plain string holds is inert.** -/
theorem Enclosed.fills {q : Char} (hq : q = '"' ∨ q = '\'') {s : Text} (h : Enclosed q s) :
    Fills q (.plain q) s :=
  fun past rest => scan_enclosed hq h (u := []) rfl past rest

/-- Text in which braces come in pairs, one inside the other or side by side. -/
inductive Balanced : Text → Prop where
  | nil : Balanced []
  | char {c : Char} {t : Text} (hc : isBrace c = false) (ht : Balanced t) : Balanced (c :: t)
  | group {inner t : Text} (hinner : Balanced inner) (ht : Balanced t) :
    Balanced ('{' :: (inner ++ '}' :: t))

/-- What an f-string may hold: fields with any text in which braces come in pairs, and between them
neither braces, nor backslashes, nor the quote that ends the string. -/
inductive TemplateBody (q : Char) : Text → Prop where
  | nil : TemplateBody q []
  | char {c : Char} {t : Text} (hquote : c ≠ q) (hslash : c ≠ '\\') (hc : isBrace c = false)
      (ht : TemplateBody q t) : TemplateBody q (c :: t)
  | field {inner t : Text} (hinner : Balanced inner) (ht : TemplateBody q t) :
    TemplateBody q ('{' :: (inner ++ '}' :: t))

theorem Balanced.closes_append {t : Text} (h : Balanced t) (depth : Nat) (rest : Text) :
    closes depth (t ++ rest) = closes depth rest := by
  induction h generalizing depth rest with
  | nil => rfl
  | char hc _ ih => rw [List.cons_append, closes_of_not_brace hc, ih]
  | @group inner t _ _ ihinner iht =>
    have hopen : closes depth ('{' :: (inner ++ '}' :: t) ++ rest) =
        closes (depth + 1) (inner ++ '}' :: (t ++ rest)) := by
      simp [closes]
    have hclose : closes (depth + 1) ('}' :: (t ++ rest)) = closes depth (t ++ rest) := by
      simp [closes]
    rw [hopen, ihinner, hclose, iht]

/-- **A field is not left before the brace that closes it**, and quotes mean nothing there. -/
theorem Balanced.scan_field {t : Text} (h : Balanced t) (past : Text) (q : Char) (depth : Nat)
    (rest : Text) : scan past (.field q depth) (t ++ rest) =
      inertSpan t ++ scan (t.reverse ++ past) (.field q depth) rest := by
  induction h generalizing past depth rest with
  | nil => rfl
  | @char c t hc _ ih =>
    have hne : c ≠ '{' ∧ c ≠ '}' := by simpa [isBrace] using hc
    have hstep : step past (.field q depth) c (t ++ rest) = (none, .field q depth) := by
      simp [step, hne]
    rw [List.cons_append, scan_cons, hstep, ih]
    simp [hc]
  | @group inner t _ _ ihinner iht =>
    have hopen : ∀ more, step past (.field q depth) '{' more = (some .inert, .field q (depth + 1)) :=
      fun _ => rfl
    have hclose : ∀ past more, step past (.field q (depth + 1)) '}' more =
        (some .inert, .field q depth) := fun _ _ => rfl
    have hline : '{' :: (inner ++ '}' :: t) ++ rest = '{' :: (inner ++ '}' :: (t ++ rest)) := by simp
    rw [hline, scan_cons, hopen, ihinner, scan_cons, hclose, iht]
    simp [isBrace]

theorem TemplateBody.getLast_ne {q : Char} {t : Text} (h : TemplateBody q t) :
    t.getLast? ≠ some '\\' := by
  induction h with
  | nil => simp
  | @char c t _ hslash _ _ ih =>
    rw [List.getLast?_cons]
    cases hlast : t.getLast? with
    | none => simpa using hslash
    | some d =>
      rw [hlast] at ih
      simpa using ih
  | @field inner t _ _ ih =>
    rw [← List.cons_append, List.getLast?_append, List.getLast?_cons]
    cases hlast : t.getLast? with
    | none => simp
    | some d =>
      rw [hlast] at ih
      simpa using ih

/-- Nothing in an f-string escapes the quote that ends it. -/
theorem TemplateBody.escaped_eq {q : Char} (hq : q = '"' ∨ q = '\'') {t : Text}
    (h : TemplateBody q t) (past : Text) : escaped (t.reverse ++ q :: past) = false := by
  rw [escaped_quote hq]
  have hhead := h.getLast_ne
  rw [← List.head?_reverse] at hhead
  cases hrev : t.reverse with
  | nil => rfl
  | cons c u =>
    rw [hrev, List.head?_cons] at hhead
    have hc : (c == '\\') = false := by simpa using hhead
    simp [escaped, hc]

theorem TemplateBody.scan_eq {q : Char} (hq : q = '"' ∨ q = '\'') {t : Text}
    (h : TemplateBody q t) (past rest : Text) :
    scan past (.template q) (t ++ rest) =
      inertSpan t ++ scan (t.reverse ++ past) (.template q) rest := by
  induction h generalizing past with
  | nil => rfl
  | @char c t hquote _ hc _ ih =>
    have hne : c ≠ '{' ∧ c ≠ '}' := by simpa [isBrace] using hc
    have hstep : step past (.template q) c (t ++ rest) = (none, .template q) := by
      simp [step, hquote, hne]
    rw [List.cons_append, scan_cons, hstep, ih]
    simp [hc]
  | @field inner t hinner _ ih =>
    have hq' : '{' ≠ q := by rcases hq with rfl | rfl <;> decide
    -- the search for the end of the field stops at its own brace, whatever comes later
    have hcloses : closes 0 (inner ++ '}' :: (t ++ rest)) = true := by
      rw [hinner.closes_append]
      rfl
    have hopen : step past (.template q) '{' (inner ++ '}' :: (t ++ rest)) =
        (some .inert, .field q 0) := by
      simp [step, hq', hcloses]
    have hclose : ∀ past more, step past (.field q 0) '}' more = (some .inert, .template q) :=
      fun _ _ => rfl
    have hline : '{' :: (inner ++ '}' :: t) ++ rest = '{' :: (inner ++ '}' :: (t ++ rest)) := by simp
    rw [hline, scan_cons, hopen, hinner.scan_field, scan_cons, hclose, ih]
    simp [isBrace]

/-- **Whatever the fields of an f-string hold is inert.** -/
theorem TemplateBody.fills {q : Char} (hq : q = '"' ∨ q = '\'') {t : Text} (h : TemplateBody q t) :
    Fills q (.template q) t := by
  intro past rest
  have hstep : step (t.reverse ++ q :: past) (.template q) q rest = (none, .code) := by
    simp [step, h.escaped_eq hq]
  rw [h.scan_eq hq, scan_cons, hstep]

/-! ### The line around a string -/

section Line

variable {a s : Text} {q : Char} {mode : Mode}

/-- **A line is read on either side of a string as if the other side were not there.** -/
theorem roles_string (hq : q = '"' ∨ q = '\'') (ha : Settled a)
    (hopen : ∀ rest, step a.reverse .code q rest = (none, mode)) (hs : Fills q mode s) (b : Text) :
    roles (a ++ [q] ++ s ++ [q] ++ b) = roles a ++ none :: (inertSpan s ++ none :: roles b) := by
  have hline : a ++ [q] ++ s ++ [q] ++ b = a ++ q :: (s ++ q :: b) := by simp
  have hcut : roles (a ++ q :: (s ++ q :: b)) = roles a ++ scan (a.reverse ++ []) .code _ :=
    scan_append_of_code (ha.modeAfter_eq _)
  have hafter : scan (q :: (s.reverse ++ q :: a.reverse)) .code b = roles b :=
    scan_alike (alike_quote hq _) [] .code b
  rw [hline, hcut, List.append_nil, scan_cons, hopen, hs, hafter]

/-- The tags of a line that lie in the part of it that follows `before`. -/
def tagsIn (before part line : Text) : List Tag :=
  (tags line).filter fun tag =>
    byteSize before ≤ tag.index && tag.index < byteSize before + byteSize part

theorem tagsIn_eq {line before part after : Text} (hline : line = before ++ part ++ after)
    {rs ss ts : List (Option Role)} (hroles : roles line = rs ++ ss ++ ts)
    (hbefore : before.length = rs.length) (hpart : part.length = ss.length) :
    tagsIn before part line = tagsFrom (byteSize before) part ss := by
  have htags : tags line = tagsFrom 0 before rs ++ tagsFrom (byteSize before) part ss ++
      tagsFrom (byteSize before + byteSize part) after ts := by
    unfold tags
    rw [hroles, hline, tagsFrom_append (by simp [hbefore, hpart]), tagsFrom_append hbefore,
      byteSize_append, Nat.zero_add, Nat.zero_add]
  have hout : ∀ tag : Tag, tag ∈ tagsFrom 0 before rs ∨
      tag ∈ tagsFrom (byteSize before + byteSize part) after ts →
      ¬ (byteSize before ≤ tag.index && tag.index < byteSize before + byteSize part) = true := by
    rintro tag (htag | htag)
    · have := index_lt_of_mem_tagsFrom htag
      simp only [Bool.and_eq_true, decide_eq_true_eq]
      omega
    · have := le_index_of_mem_tagsFrom htag
      simp only [Bool.and_eq_true, decide_eq_true_eq]
      omega
  unfold tagsIn
  rw [htags, List.filter_append, List.filter_append,
    List.filter_eq_nil_iff.mpr fun tag htag => hout tag (Or.inl htag),
    List.filter_eq_nil_iff.mpr fun tag htag => hout tag (Or.inr htag), List.nil_append,
    List.append_nil]
  refine List.filter_eq_self.mpr fun tag htag => ?_
  simp only [Bool.and_eq_true, decide_eq_true_eq]
  exact ⟨le_index_of_mem_tagsFrom htag, index_lt_of_mem_tagsFrom htag⟩

/-- **The tags before a string, in it and after it.** -/
theorem tagsIn_string (hq : q = '"' ∨ q = '\'') (ha : Settled a)
    (hopen : ∀ rest, step a.reverse .code q rest = (none, mode)) (hs : Fills q mode s) (b : Text) :
    tagsIn [] a (a ++ [q] ++ s ++ [q] ++ b) = tags a ∧
      tagsIn (a ++ [q]) s (a ++ [q] ++ s ++ [q] ++ b) =
        tagsFrom (byteSize (a ++ [q])) s (inertSpan s) ∧
      tagsIn (a ++ [q] ++ s ++ [q]) b (a ++ [q] ++ s ++ [q] ++ b) =
        tagsFrom (byteSize (a ++ [q] ++ s ++ [q])) b (roles b) := by
  have hroles := roles_string hq ha hopen hs b
  refine ⟨?_, ?_, ?_⟩
  · have hline : a ++ [q] ++ s ++ [q] ++ b = [] ++ a ++ ([q] ++ s ++ [q] ++ b) := by simp
    have hcut : roles (a ++ [q] ++ s ++ [q] ++ b) =
        [] ++ roles a ++ none :: (inertSpan s ++ none :: roles b) := by rw [hroles, List.nil_append]
    exact tagsIn_eq hline hcut rfl (by simp)
  · have hline : a ++ [q] ++ s ++ [q] ++ b = a ++ [q] ++ s ++ ([q] ++ b) := by simp
    have hcut : roles (a ++ [q] ++ s ++ [q] ++ b) =
        roles a ++ [none] ++ inertSpan s ++ none :: roles b := by rw [hroles]; simp
    exact tagsIn_eq hline hcut (by simp) (by simp)
  · have hline : a ++ [q] ++ s ++ [q] ++ b = a ++ [q] ++ s ++ [q] ++ b ++ [] := by simp
    have hcut : roles (a ++ [q] ++ s ++ [q] ++ b) =
        roles a ++ none :: (inertSpan s ++ [none]) ++ roles b ++ [] := by rw [hroles]; simp
    exact tagsIn_eq hline hcut (by simp) (by simp)

end Line

/-! ### Main results -/

/-- **What a plain string holds is opaque.** Let `a` end outside strings, with no f-string in it, and let
the quote after `a` open a plain string. Whether the string holds `s₁` or `s₂`, the tags in the text
before it are the same, the braces in the string itself are all inert, and the tags in the text after it
are the same up to the sizes of the two contents. -/
theorem plain_string_opaque {a b s₁ s₂ : Text} {q : Char} (hq : q = '"' ∨ q = '\'') (ha : Settled a)
    (hopen : escaped a.reverse = false) (hplain : opensTemplate a.reverse = false)
    (h₁ : Enclosed q s₁) (h₂ : Enclosed q s₂) :
    let line (s : Text) : Text := a ++ [q] ++ s ++ [q] ++ b
    tagsIn [] a (line s₁) = tagsIn [] a (line s₂) ∧
      (∀ s ∈ [s₁, s₂], tagsIn (a ++ [q]) s (line s) =
        tagsFrom (byteSize (a ++ [q])) s (inertSpan s)) ∧
      (tagsIn (a ++ [q] ++ s₁ ++ [q]) b (line s₁)).map (Tag.shift (byteSize s₂)) =
        (tagsIn (a ++ [q] ++ s₂ ++ [q]) b (line s₂)).map (Tag.shift (byteSize s₁)) := by
  intro line
  have hstep : ∀ rest, step a.reverse .code q rest = (none, .plain q) := fun rest => by
    simp [step, hq, hopen, hplain]
  obtain ⟨hbefore₁, hinside₁, hafter₁⟩ := tagsIn_string hq ha hstep (h₁.fills hq) b
  obtain ⟨hbefore₂, hinside₂, hafter₂⟩ := tagsIn_string hq ha hstep (h₂.fills hq) b
  refine ⟨hbefore₁.trans hbefore₂.symm, fun s hs => ?_, ?_⟩
  · rcases List.mem_pair.mp hs with rfl | rfl
    · exact hinside₁
    · exact hinside₂
  · have hsize : byteSize (a ++ [q] ++ s₁ ++ [q]) + byteSize s₂ =
        byteSize (a ++ [q] ++ s₂ ++ [q]) + byteSize s₁ := by
      simp only [byteSize_append]
      omega
    rw [hafter₁, hafter₂, ← tagsFrom_shift, ← tagsFrom_shift, hsize]

/-- A raw string after a string with an escaped quote. It holds an escaped quote between braces, or two
characters of two bytes each and a pair of backslashes at the end. -/
theorem plain_string_opaque_raw :
    let a := "x = 'don\\'t' + r".toList
    let b := " if y \x7b".toList
    let s₁ := "\x7b\\\"\x7d".toList
    let s₂ := "éé\\\\".toList
    let line (s : Text) : Text := a ++ ['"'] ++ s ++ ['"'] ++ b
    (Settled a ∧ Enclosed '"' s₁ ∧ Enclosed '"' s₂) ∧
      tagsIn [] a (line s₁) = tagsIn [] a (line s₂) ∧
      (∀ s ∈ [s₁, s₂], tagsIn (a ++ ['"']) s (line s) =
        tagsFrom (byteSize (a ++ ['"'])) s (inertSpan s)) ∧
      (tagsIn (a ++ ['"'] ++ s₁ ++ ['"']) b (line s₁)).map (Tag.shift 6) =
        (tagsIn (a ++ ['"'] ++ s₂ ++ ['"']) b (line s₂)).map (Tag.shift 4) := by
  intro a b s₁ s₂ line
  have ha : Settled a := by decide
  have h₁ : Enclosed '"' s₁ := by decide
  have h₂ : Enclosed '"' s₂ := by decide
  exact ⟨⟨ha, h₁, h₂⟩, plain_string_opaque (Or.inl rfl) ha (by decide) (by decide) h₁ h₂⟩

/-- **The fields of an f-string are inert, however deep they nest.** Let `a` end outside strings, with no
f-string in it, and let the quote after `a` open an f-string. Against the same line with an empty string,
the contents add inert braces and nothing else: the tags before the string stay as they are, and those
after it move on by the size of the contents. -/
theorem template_fields_inert {a b t : Text} {q : Char} (hq : q = '"' ∨ q = '\'') (ha : Settled a)
    (hopen : escaped a.reverse = false) (hmarked : opensTemplate a.reverse = true)
    (ht : TemplateBody q t) :
    let line := a ++ [q] ++ t ++ [q] ++ b
    let bare := a ++ [q] ++ [q] ++ b
    tagsIn (a ++ [q]) t line = tagsFrom (byteSize (a ++ [q])) t (inertSpan t) ∧
      tagsIn [] a line = tagsIn [] a bare ∧
      tagsIn (a ++ [q] ++ t ++ [q]) b line =
        (tagsIn (a ++ [q] ++ [q]) b bare).map (Tag.shift (byteSize t)) := by
  intro line bare
  have hstep : ∀ rest, step a.reverse .code q rest = (none, .template q) := fun rest => by
    simp [step, hq, hopen, hmarked]
  have hnil : TemplateBody q [] := .nil
  obtain ⟨hbefore, hinside, hafter⟩ := tagsIn_string hq ha hstep (ht.fills hq) b
  obtain ⟨hbare, -, hrest⟩ := tagsIn_string hq ha hstep (hnil.fills hq) b
  rw [List.append_nil] at hbare hrest
  refine ⟨hinside, hbefore.trans hbare.symm, ?_⟩
  have hsize : byteSize (a ++ [q] ++ t ++ [q]) = byteSize (a ++ [q] ++ [q]) + byteSize t := by
    simp only [byteSize_append]
    omega
  rw [hafter, hrest, ← tagsFrom_shift, hsize]

/-- A field with a quote inside a pair of braces and a backslash at its end. -/
theorem template_fields_inert_nested :
    let a := "x = rf".toList
    let b := ", y = \x7b".toList
    let t : Text := ['é', '{', '{', '"', '}', '\\', '}']
    let line := a ++ ['"'] ++ t ++ ['"'] ++ b
    let bare := a ++ ['"'] ++ ['"'] ++ b
    (Settled a ∧ TemplateBody '"' t) ∧
      tagsIn (a ++ ['"']) t line = tagsFrom (byteSize (a ++ ['"'])) t (inertSpan t) ∧
      tagsIn [] a line = tagsIn [] a bare ∧
      tagsIn (a ++ ['"'] ++ t ++ ['"']) b line =
        (tagsIn (a ++ ['"'] ++ ['"']) b bare).map (Tag.shift 8) := by
  intro a b t line bare
  have ha : Settled a := by decide
  have hfield : Balanced ['{', '"', '}', '\\'] :=
    @Balanced.group ['"'] ['\\'] (.char rfl .nil) (.char rfl .nil)
  have ht : TemplateBody '"' t :=
    .char (by decide) (by decide) rfl (@TemplateBody.field _ ['{', '"', '}', '\\'] [] hfield .nil)
  exact ⟨⟨ha, ht⟩, template_fields_inert (Or.inl rfl) ha (by decide) (by decide) ht⟩

/-- The braces of such a string and the one after it. -/
example : tags "x = rf\"é\x7b\x7b\"\x7d\\\x7d\", y = \x7b".toList = [⟨9, .inert⟩, ⟨10, .inert⟩,
    ⟨12, .inert⟩, ⟨14, .inert⟩, ⟨22, .dataLiteral⟩] := by
  decide

end Offside.Brace
