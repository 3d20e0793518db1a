import Offside.Proofs.Cases

/-!
# Nothing of a line is lost

The *ink* of a text is what remains without blanks and terminators. Peeling takes closing braces off the
front of the ink of a line and nothing else (`peelView_ink`), a line that opens no block is written with
the ink it has (`Placed.ink_of_no_header`), and a line that opens one trades its brace for a colon
(`ink_of_opens`). Each is an equation between texts, so it speaks of the order of the characters and of
how often they occur.

`feed_keeps_text` is what this means for the text proper, `core`, and for the braces.
-/

namespace Offside.Layout

open Text Brace

/-- Neither a blank nor a terminator. -/
def isInk (c : Char) : Bool := !isBlank c && c != Keyword.terminator

/-- A text without blanks and terminators. -/
def ink (t : Text) : Text := t.filter isInk

/-- A text without blanks, terminators and braces. -/
def core (t : Text) : Text := t.filter fun c => isInk c && !isBrace c

/-- The lines as they are written, one after the other. -/
def written (w : Width) (lines : List OutLine) : Text := (lines.map (OutLine.render w)).flatten

/-- The ink of lines to be written. -/
def inkOf (lines : List OutLine) : Text := lines.flatMap fun line => ink line.text

theorem isInk_blank (c : Char) (h : isBlank c = true) : isInk c = false := by simp [isInk, h]

theorem isInk_brace {c : Char} (h : isBrace c = true) : isInk c = true := by
  simp only [isBrace, Bool.or_eq_true, beq_iff_eq] at h
  rcases h with rfl | rfl <;> decide

@[simp] theorem ink_nil : ink [] = [] := rfl

@[simp] theorem ink_append (t u : Text) : ink (t ++ u) = ink t ++ ink u := List.filter_append ..

theorem ink_brace_cons {c : Char} (h : isBrace c = true) (t : Text) : ink (c :: t) = c :: ink t :=
  List.filter_cons_of_pos (isInk_brace h)

@[simp] theorem ink_trim (t : Text) : ink (trim t) = ink t := filter_trim isInk_blank t

@[simp] theorem ink_trimEnd (t : Text) : ink (trimEnd t) = ink t := filter_trimEnd isInk_blank t

@[simp] theorem ink_stripTerminator (t : Text) : ink (Keyword.stripTerminator t) = ink t :=
  Keyword.filter_stripTerminator (by decide) t

theorem peelView_ink : PeelView ink '}' where
  nil := rfl
  trim := ink_trim
  trimEnd := ink_trimEnd
  stripTerminator := ink_stripTerminator
  closing := ink_brace_cons (by decide)

theorem ink_indent (w : Width) (level : Nat) : ink (w.indent level) = [] :=
  filter_blank isInk_blank (blank_indent w level)

theorem ink_written (w : Width) (lines : List OutLine) : ink (written w lines) = inkOf lines := by
  induction lines with
  | nil => rfl
  | cons line lines ih =>
    have hrender : ink (line.render w) = ink line.text := by
      unfold OutLine.render
      rw [ink_append, ink_indent, List.nil_append]
    rw [written, List.map_cons, List.flatten_cons, ink_append, hrender]
    exact congrArg _ ih

theorem core_eq (t : Text) : core t = (ink t).filter fun c => !isBrace c := by
  unfold core ink
  rw [List.filter_filter]
  exact List.filter_congr fun c _ => Bool.and_comm ..

theorem count_ink {c : Char} (h : isBrace c = true) (t : Text) : (ink t).count c = t.count c :=
  List.count_filter (isInk_brace h)

/-! ### Placing the rest -/

theorem inkOf_statement (n : Nesting) (t : Text) : inkOf [statement n t] = ink t := by
  simp [inkOf, statement, OutLine.text]

/-- **A line that opens no block keeps its ink.** -/
theorem Placed.ink_of_no_header {n : Nesting} {raw : Text} {p : Placement} (h : Placed n raw p)
    (hno : ∀ level text, .header level text ∉ p.lines) : inkOf p.lines = ink raw := by
  cases h with
  | blank h =>
    rw [← ink_trim raw, h]
    rfl
  | comment => simp [inkOf, OutLine.text]
  | continuation => simp [inkOf, OutLine.text]
  | stray => rw [inkOf_statement, ink_trim]
  | literal => rw [inkOf_statement, ink_trim]
  | block => exact absurd List.mem_cons_self (hno _ _)
  | statement => rw [inkOf_statement, ink_trim]

/-- The body of a block that does something, with the closing brace that ends the block, is the tail
of its line. -/
theorem ink_body {tail : Text} (h : tail ≠ ['}']) (level : Nat) :
    ink tail = inkOf ((Body.ofTail tail).lines level) ++
      if (Body.ofTail tail).ends then ['}'] else [] := by
  unfold Body.ofTail
  rw [if_neg h]
  by_cases hnil : tail = []
  · rw [if_pos hnil, hnil]
    rfl
  · rw [if_neg hnil]
    by_cases hwhole : tail.getLast? = some '}' ∧ netDepth tail < 0
    · rw [if_pos hwhole]
      have htail := List.dropLast_append_getLast? _ hwhole.1
      conv_lhs => rw [← htail, ink_append, ink_brace_cons (by decide)]
      simp [Body.lines, Body.ends, inkOf, OutLine.text]
    · rw [if_neg hwhole]
      simp [Body.lines, Body.ends, inkOf, OutLine.text]

/-! ### The whole line -/

theorem ink_of_not_opens {n : Nesting} {raw : Text} (h : ¬ Opens n raw) :
    ink raw = List.replicate (ended n raw) '}' ++ inkOf (feed n raw).lines := by
  rw [peelView_ink.line n raw]
  cases hrest : remainder n raw with
  | none =>
    rw [feed_of_remainder_none hrest]
    rfl
  | some rest =>
    have hno : ∀ level text, .header level text ∉ (feed n raw).lines :=
      fun level text hmem => h ⟨level, text, hmem⟩
    rw [feed_of_remainder_some hrest] at hno ⊢
    rw [(placed_place _ rest).ink_of_no_header hno]
    rfl

theorem ink_of_opens {n : Nesting} {raw : Text} (h : Opens n raw) :
    ∃ rest head after, remainder n raw = some rest ∧ SplitsAt (trim rest) head after ∧
      ink raw = List.replicate (ended n raw) '}' ++ (ink head ++ '{' :: ink (trim after)) ∧
      inkOf (feed n raw).lines = ink head ++ ':' :: inkOf ((Body.ofTail (trim after)).lines 0) ∧
      ((Body.ofTail (trim after)).ends = true ↔
        (feed n raw).nesting.openBlocks = n.openBlocks - ended n raw) := by
  obtain ⟨rest, head, after, hrest, -, split, -, hfeed⟩ := h.exists_split
  refine ⟨rest, head, after, hrest, split, ?_, ?_, ?_⟩
  · rw [peelView_ink.line n raw, hrest, Option.getD_some, ← ink_trim rest, split.eq, ink_append,
      ink_brace_cons (by decide), ink_trim after]
  · have hcolon : ink [':'] = [':'] := by decide
    rw [hfeed]
    cases Body.ofTail (trim after) <;>
      simp [inkOf, OutLine.text, Body.lines, hcolon]
  · rw [hfeed]
    cases hends : (Body.ofTail (trim after)).ends <;>
      simp [Body.after, hends, Nesting.openBlock, Nesting.closeBlocks]

/-- Ink that agrees up to closing braces at the front: the same text, the same opening braces. -/
theorem core_eq_of_ink {raw out : Text} {k : Nat} (h : ink raw = List.replicate k '}' ++ ink out) :
    core out = core raw ∧ out.count '{' = raw.count '{' ∧ out.count '}' + k = raw.count '}' := by
  have hopen := count_ink (show isBrace '{' = true by decide)
  have hclose := count_ink (show isBrace '}' = true by decide)
  refine ⟨?_, ?_, ?_⟩
  · rw [core_eq, core_eq, h, List.filter_append, List.filter_replicate]
    rfl
  · rw [← hopen out, ← hopen raw, h, List.count_append, List.count_replicate]
    simp
  · rw [← hclose out, ← hclose raw, h, List.count_append, List.count_replicate]
    simp [Nat.add_comm]

/-- A body keeps its text and its braces, less the brace that ends its block. -/
theorem body_keeps_text (tail : Text) (level : Nat) :
    (inkOf ((Body.ofTail tail).lines level)).filter (fun c => !isBrace c) =
        (if tail = ['}'] then ['p', 'a', 's', 's'] else core tail) ∧
      (inkOf ((Body.ofTail tail).lines level)).count '{' = tail.count '{' ∧
      (inkOf ((Body.ofTail tail).lines level)).count '}' +
        (if (Body.ofTail tail).ends = true then 1 else 0) = tail.count '}' := by
  by_cases h : tail = ['}']
  · subst h
    exact ⟨rfl, rfl, rfl⟩
  · have hink := ink_body h level
    rw [if_neg h, core_eq, ← count_ink (by decide) tail, ← count_ink (by decide) tail, hink]
    split_ifs with hends
    · refine ⟨?_, ?_, ?_⟩
      · rw [List.filter_append]
        exact (List.append_nil _).symm
      · rw [List.count_append]
        rfl
      · rw [List.count_append]
        rfl
    · rw [List.append_nil]
      exact ⟨rfl, rfl, rfl⟩

/-- **The text of a line is written once and in its order**, whatever the nesting and the width. The
closing braces that end blocks go. A line that opens a block trades its brace for a colon, and the
brace that ends the block on the same line goes too; an empty block is written as `pass`. All other
braces stay. -/
theorem feed_keeps_text (w : Width) (n : Nesting) (raw : Text) :
    (¬ Opens n raw →
      core (written w (feed n raw).lines) = core raw ∧
      (written w (feed n raw).lines).count '{' = raw.count '{' ∧
      (written w (feed n raw).lines).count '}' + ended n raw = raw.count '}') ∧
    (Opens n raw → ∃ rest head after, remainder n raw = some rest ∧
      SplitsAt (trim rest) head after ∧
      core raw = core head ++ core (trim after) ∧
      core (written w (feed n raw).lines) = core head ++
        ':' :: (if trim after = ['}'] then ['p', 'a', 's', 's'] else core (trim after)) ∧
      (written w (feed n raw).lines).count '{' + 1 = raw.count '{' ∧
      (written w (feed n raw).lines).count '}' + ended n raw +
        (if (feed n raw).nesting.openBlocks = n.openBlocks - ended n raw then 1 else 0) =
          raw.count '}') := by
  constructor
  · intro h
    refine core_eq_of_ink ?_
    rw [ink_written]
    exact ink_of_not_opens h
  · intro h
    obtain ⟨rest, head, after, hrest, split, hraw, hout, hends⟩ := ink_of_opens h
    rw [← ink_written w] at hout
    obtain ⟨hcore, hopen, hclose⟩ := body_keeps_text (trim after) 0
    refine ⟨rest, head, after, hrest, split, ?_, ?_, ?_, ?_⟩
    · rw [core_eq raw, hraw, core_eq head, core_eq (trim after)]
      simp [isBrace]
    · rw [core_eq, hout, ← hcore, core_eq head]
      simp [isBrace]
    · have hcount := count_ink (show isBrace '{' = true by decide)
      have hread : raw.count '{' = head.count '{' + ((trim after).count '{' + 1) := by
        rw [← hcount raw, hraw, List.count_append, List.count_append, List.count_cons, hcount head,
          hcount (trim after)]
        simp [List.count_replicate]
      have hwrite : (written w (feed n raw).lines).count '{' =
          head.count '{' + (trim after).count '{' := by
        rw [← hcount (written w _), hout, ← hopen]
        simp [hcount]
      omega
    · have hcount := count_ink (show isBrace '}' = true by decide)
      have hread : raw.count '}' = ended n raw + (head.count '}' + (trim after).count '}') := by
        rw [← hcount raw, hraw, List.count_append, List.count_append, List.count_cons, hcount head,
          hcount (trim after)]
        simp
      have hwrite : (written w (feed n raw).lines).count '}' =
          head.count '}' + (inkOf ((Body.ofTail (trim after)).lines 0)).count '}' := by
        rw [← hcount (written w _), hout]
        simp [hcount]
      simp only [hends] at hclose
      omega

/-- Two blocks end, one opens and ends again, and its body holds a set; outside all blocks a closing
brace stays. -/
theorem feed_keeps_text_else :
    let n : Nesting := { level := 2, openBlocks := 2 }
    let raw := "\x7d \x7delse \x7b x = \x7b1\x7d; \x7d;".toList
    let stray := "\x7d x = \x7b1\x7d;".toList
    (Opens n raw ∧ ¬ Opens {} stray) ∧
      ((written .standard (feed n raw).lines).count '{' + 1 = raw.count '{' ∧
        (written .standard (feed n raw).lines).count '}' + 2 + 1 = raw.count '}') ∧
      core (written .standard (feed {} stray).lines) = core stray := by
  intro n raw stray
  have hopens : Opens n raw := by decide
  have hstray : ¬ Opens {} stray := by decide
  have hended : ended n raw = 2 := by decide
  have hclosed : (feed n raw).nesting.openBlocks = n.openBlocks - ended n raw := by decide
  obtain ⟨_, _, _, -, -, -, -, hopen, hclose⟩ := (feed_keeps_text .standard n raw).2 hopens
  rw [if_pos hclosed, hended] at hclose
  exact ⟨⟨hopens, hstray⟩, ⟨hopen, hclose⟩, ((feed_keeps_text .standard {} stray).1 hstray).1⟩

end Offside.Layout
