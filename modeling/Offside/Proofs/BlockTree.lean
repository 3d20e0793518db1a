import Offside.Proofs.Program
import Offside.Proofs.Run

/-!
# Programs of blocks are converted

A program written with braces, in any of its layouts, is converted to the same program written with
indentation (`converted_program`).

The argument goes through the marks of the program. `Follows w d ms e out` says what the marks `ms` come
to, read inside `d` blocks: `out` is written and `e` blocks are open after them. The marks of a program
come to its indented text (`follows_marks`); the marks of one line come to what the layout makes of the
line (`feed_line`); so, line by line, the marks of all lines come to what a run makes of them
(`laid_lines`). That no line shows the colon style is a matter of the text of each line alone
(`evidence_line`).
-/

namespace Offside.Program

open Text Brace Layout

/-! ### What marks come to -/

/-- The nesting inside `d` blocks and outside literals. -/
def inside (d : Nat) : Nesting := { level := d, openBlocks := d }

/-- Read inside `d` blocks, the marks write some lines and leave `e` blocks open. -/
inductive Follows (w : Width) : Nat → List Mark → Nat → List Text → Prop where
  | nil (d : Nat) : Follows w d [] d []
  | statement {d e : Nat} {ms : List Mark} {out : List Text} (s : Statement)
    (rest : Follows w d ms e out) :
    Follows w d (.statement s :: ms) e ((w.indent d ++ s.text) :: out)
  | comment {d e : Nat} {ms : List Mark} {out : List Text} (c : Comment)
    (rest : Follows w d ms e out) :
    Follows w d (.comment c :: ms) e ((w.indent d ++ c.text) :: out)
  | blank {d e : Nat} {ms : List Mark} {out : List Text} (rest : Follows w d ms e out) :
    Follows w d (.blank :: ms) e ([] :: out)
  | opening {d e : Nat} {ms : List Mark} {out : List Text} (h : Header)
    (rest : Follows w (d + 1) ms e out) :
    Follows w d (.opening h :: ms) e ((w.indent d ++ h.text ++ [':']) :: out)
  | closing {d e : Nat} {ms : List Mark} {out : List Text} (rest : Follows w d ms e out) :
    Follows w (d + 1) (.closing :: ms) e out

variable {w : Width}

theorem Follows.append {d e f : Nat} {ms ns : List Mark} {out more : List Text}
    (h : Follows w d ms e out) (h' : Follows w e ns f more) :
    Follows w d (ms ++ ns) f (out ++ more) := by
  induction h with
  | nil => exact h'
  | statement s _ ih => exact .statement s (ih h')
  | comment c _ ih => exact .comment c (ih h')
  | blank _ ih => exact .blank (ih h')
  | opening h _ ih => exact .opening h (ih h')
  | closing _ ih => exact .closing (ih h')

theorem Follows.split {d f : Nat} {ms ns : List Mark} {out : List Text}
    (h : Follows w d (ms ++ ns) f out) :
    ∃ e before after, Follows w d ms e before ∧ Follows w e ns f after ∧ out = before ++ after := by
  induction ms generalizing d out with
  | nil => exact ⟨d, [], out, .nil d, h, rfl⟩
  | cons m ms ih =>
    rw [List.cons_append] at h
    cases h with
    | statement s rest =>
      obtain ⟨e, before, after, h1, h2, rfl⟩ := ih rest
      exact ⟨e, _, after, .statement s h1, h2, rfl⟩
    | comment c rest =>
      obtain ⟨e, before, after, h1, h2, rfl⟩ := ih rest
      exact ⟨e, _, after, .comment c h1, h2, rfl⟩
    | blank rest =>
      obtain ⟨e, before, after, h1, h2, rfl⟩ := ih rest
      exact ⟨e, _, after, .blank h1, h2, rfl⟩
    | opening h rest =>
      obtain ⟨e, before, after, h1, h2, rfl⟩ := ih rest
      exact ⟨e, _, after, .opening h h1, h2, rfl⟩
    | closing rest =>
      obtain ⟨e, before, after, h1, h2, rfl⟩ := ih rest
      exact ⟨e, _, after, .closing h1, h2, rfl⟩

theorem Follows.of_closings {d e k : Nat} {ms : List Mark} {out : List Text}
    (h : Follows w d (List.replicate k .closing ++ ms) e out) :
    ∃ d', d = d' + k ∧ Follows w d' ms e out := by
  induction k generalizing d with
  | zero => exact ⟨d, rfl, h⟩
  | succ k ih =>
    rw [List.replicate_succ, List.cons_append] at h
    cases h with
    | closing rest =>
      obtain ⟨d', rfl, hd'⟩ := ih rest
      exact ⟨d', rfl, hd'⟩

mutual

theorem Node.follows_marks (w : Width) (d : Nat) :
    ∀ node : Node, Follows w d node.marks d (node.indented w d)
  | .statement s => .statement s (.nil d)
  | .comment c => .comment c (.nil d)
  | .blank => .blank (.nil d)
  | .block h body => by
    have hbody := follows_marks w (d + 1) body
    have hclose : Follows w (d + 1) [.closing] d [] := .closing (.nil d)
    have hall := Follows.opening h (hbody.append hclose)
    rwa [List.append_nil] at hall

/-- **The marks of a program come to its indented text**, and end every block they open. -/
theorem follows_marks (w : Width) (d : Nat) :
    ∀ nodes : List Node, Follows w d (marks nodes) d (indented w d nodes)
  | [] => .nil d
  | node :: nodes => (node.follows_marks w d).append (follows_marks w d nodes)

end

/-! ### Closing braces at the front of a line -/

/-- A text that stays as it is when blanks and a terminator are taken off. -/
structure Solid (t : Text) : Prop where
  nonempty : t ≠ []
  trimmed : trim t = t
  noTerminator : t.getLast? ≠ some Keyword.terminator

theorem head_of_trimmed {t : Text} (h : trim t = t) {c : Char} (hc : t.head? = some c) :
    isBlank c = false := head_trim (by rwa [h])

theorem getLast_of_trimmed {t : Text} (h : trim t = t) {c : Char} (hc : t.getLast? = some c) :
    isBlank c = false := getLast_trim (by rwa [h])

/-- Trimmed texts side by side are trimmed. -/
theorem trim_append {t u : Text} (ht : trim t = t) (hu : trim u = u) (hne : t ≠ []) (hne' : u ≠ []) :
    trim (t ++ u) = t ++ u := by
  refine trim_eq_self (fun c hc => head_of_trimmed ht ?_) fun c hc => getLast_of_trimmed hu ?_
  · rwa [List.head?_append_of_ne_nil _ hne] at hc
  · rwa [List.getLast?_append_of_ne_nil _ hne'] at hc

theorem trim_terminators {t : Text} (h : trim t = t) (hne : t ≠ []) (terminated : Bool) :
    trim (t ++ terminators terminated) = t ++ terminators terminated := by
  cases terminated with
  | false => rwa [terminators, if_neg (by decide), List.append_nil]
  | true => exact trim_append h (by decide) hne (by decide)

theorem Solid.strip {t : Text} (h : Solid t) (terminated : Bool) :
    Keyword.stripTerminator (t ++ terminators terminated) = t := by
  cases terminated with
  | false =>
    rw [terminators, if_neg (by decide), List.append_nil]
    exact Keyword.stripTerminator_eq_self h.noTerminator
  | true => exact Keyword.stripTerminator_concat t

theorem afterBrace_solid {t : Text} (h : Solid t) (gap : Pad) (terminated : Bool) :
    afterBrace (gap.val ++ (t ++ terminators terminated)) = t := by
  have hpad := trim_pad gap.property blank_nil (t ++ terminators terminated)
  rw [List.append_nil, trim_terminators h.trimmed h.nonempty] at hpad
  unfold afterBrace
  rw [hpad, h.strip, ← h.trimmed, trimEnd_trim]

/-- A closing brace in front of a trimmed text. -/
theorem trim_closer {t : Text} (h : trim t = t) (hne : t ≠ []) (gap : Pad) :
    trim ('}' :: (gap.val ++ t)) = '}' :: (gap.val ++ t) := by
  refine trim_eq_self (fun c hc => ?_) fun c hc => getLast_of_trimmed h ?_
  · obtain rfl : '}' = c := Option.some.inj hc
    decide
  · rwa [← List.cons_append, List.getLast?_append_of_ne_nil _ hne] at hc

theorem closers_cons (gap : Pad) (gaps : List Pad) (t : Text) :
    closers (gap :: gaps) ++ t = '}' :: (gap.val ++ (closers gaps ++ t)) := by
  simp [closers]

theorem closers_ne_nil {t : Text} (h : t ≠ []) (gaps : List Pad) : closers gaps ++ t ≠ [] := by
  simp [h]

theorem trim_closers {t : Text} (h : trim t = t) (hne : t ≠ []) (gaps : List Pad) :
    trim (closers gaps ++ t) = closers gaps ++ t := by
  induction gaps with
  | nil => exact h
  | cons gap gaps ih =>
    rw [closers_cons]
    exact trim_closer ih (closers_ne_nil hne gaps) gap

theorem Solid.closers {t : Text} (h : Solid t) (gaps : List Pad) : Solid (closers gaps ++ t) where
  nonempty := closers_ne_nil h.nonempty gaps
  trimmed := trim_closers h.trimmed h.nonempty gaps
  noTerminator := by
    rw [List.getLast?_append_of_ne_nil _ h.nonempty]
    exact h.noTerminator

/-- A closing brace at the front is peeled, with the blanks and the terminator around the rest. -/
theorem peel_closer {t : Text} (h : Solid t) (blocks : Nat) (lead gap trail : Pad)
    (terminated : Bool) :
    peel (blocks + 1) (lead.val ++ ('}' :: (gap.val ++ (t ++ terminators terminated))) ++ trail.val) =
      ⟨(peel blocks t).closed + 1, (peel blocks t).rest⟩ := by
  have hne : t ++ terminators terminated ≠ [] := by simp [h.nonempty]
  rw [peel, trim_pad lead.property trail.property,
    trim_closer (trim_terminators h.trimmed h.nonempty terminated) hne]
  simp only [afterBrace_solid h]
  rw [if_neg (by simp [h.nonempty])]

/-- Closing braces in front of a text are peeled before it. -/
theorem peel_closers {t : Text} (h : Solid t) (blocks : Nat) (gaps : List Pad) :
    peel (blocks + gaps.length) (closers gaps ++ t) =
      ⟨(peel blocks t).closed + gaps.length, (peel blocks t).rest⟩ := by
  induction gaps with
  | nil => rfl
  | cons gap gaps ih =>
    have hstep := peel_closer (h.closers gaps) (blocks + gaps.length) ⟨[], blank_nil⟩ gap
      ⟨[], blank_nil⟩ false
    rw [ih] at hstep
    simp only [terminators, Bool.false_eq_true, if_false, List.append_nil, List.nil_append] at hstep
    rw [closers_cons]
    exact hstep

/-- The same with blanks and a terminator around it all. -/
theorem peel_line {t : Text} (h : Solid t) (blocks : Nat) (lead trail gap : Pad) (gaps : List Pad)
    (terminated : Bool) :
    peel (blocks + (gap :: gaps).length)
        (lead.val ++ (closers (gap :: gaps) ++ (t ++ terminators terminated)) ++ trail.val) =
      ⟨(peel blocks t).closed + (gap :: gaps).length, (peel blocks t).rest⟩ := by
  have hstep := peel_closer (h.closers gaps) (blocks + gaps.length) lead gap trail terminated
  rw [peel_closers h, List.append_assoc (closers gaps) t, ← closers_cons, Nat.add_assoc] at hstep
  exact hstep

theorem inLiteral_inside (d : Nat) : (inside d).inLiteral = false := rfl

theorem closeBlocks_inside (d k : Nat) : (inside (d + k)).closeBlocks k = inside d := by
  simp [inside, Nesting.closeBlocks]

/-- What `feed` does inside blocks, from what is peeled. -/
theorem feed_inside {raw : Text} {d k : Nat} {rest : Option Text}
    (h : peel (d + k) raw = ⟨k, rest⟩) :
    feed (inside (d + k)) raw =
      rest.elim { nesting := inside d } fun text => place (inside d) text := by
  have hblocks : (inside (d + k)).openBlocks = d + k := rfl
  unfold feed
  rw [inLiteral_inside, hblocks, h]
  simp only [closeBlocks_inside]
  cases rest <;> rfl

/-- **A line with closing braces at its front** ends as many blocks; what is placed is the rest of
the line, with or without its terminator. -/
theorem feed_closers {t : Text} (h : Solid t) (hbrace : t.head? ≠ some '}') (d : Nat)
    (lead trail : Pad) (gaps : List Pad) (terminated : Bool) :
    ∃ rest, feed (inside (d + gaps.length))
        (lead.val ++ (closers gaps ++ (t ++ terminators terminated)) ++ trail.val) =
      place (inside d) rest ∧ (trim rest = t ∨ trim rest = t ++ terminators terminated) := by
  have hpeel : ∀ blocks, peel blocks t = ⟨0, some t⟩ :=
    peel_of_head_ne (by rwa [h.trimmed])
  cases gaps with
  | nil =>
    have htrim : trim (lead.val ++ (closers [] ++ (t ++ terminators terminated)) ++ trail.val) =
        t ++ terminators terminated := by
      rw [trim_pad lead.property trail.property]
      exact trim_terminators h.trimmed h.nonempty terminated
    refine ⟨_, feed_of_head_ne ?_, Or.inr htrim⟩
    rw [htrim, List.head?_append_of_ne_nil _ h.nonempty]
    exact hbrace
  | cons gap gaps =>
    refine ⟨t, ?_, Or.inl h.trimmed⟩
    have hline := peel_line h d lead trail gap gaps terminated
    rw [hpeel, Nat.zero_add] at hline
    exact feed_inside hline

/-- A line of closing braces only ends as many blocks and writes nothing. -/
theorem feed_closing (d : Nat) (lead trail : Pad) (gaps : List Pad) (terminated : Bool) :
    feed (inside (d + (gaps.length + 1)))
        (lead.val ++ (closers gaps ++ ('}' :: terminators terminated)) ++ trail.val) =
      { nesting := inside d } := by
  have hlast : Solid ['}'] := ⟨by decide, by decide, by decide⟩
  have hpeel : peel (d + 1) ['}'] = ⟨1, none⟩ := rfl
  cases gaps with
  | nil =>
    have htrim : trim (lead.val ++ (closers [] ++ ('}' :: terminators terminated)) ++ trail.val) =
        '}' :: terminators terminated := by
      rw [trim_pad lead.property trail.property]
      exact trim_terminators hlast.trimmed hlast.nonempty terminated
    have hafter : afterBrace (terminators terminated) = [] := by cases terminated <;> decide
    have hline : peel (d + 1)
        (lead.val ++ (closers [] ++ ('}' :: terminators terminated)) ++ trail.val) = ⟨1, none⟩ := by
      rw [peel, htrim]
      simp only [hafter]
      rfl
    exact feed_inside hline
  | cons gap gaps =>
    have hline := peel_line hlast (d + 1) lead trail gap gaps terminated
    rw [hpeel, List.singleton_append] at hline
    rw [show d + ((gap :: gaps).length + 1) = d + 1 + (gap :: gaps).length by omega]
    have hcount : d + 1 + (gap :: gaps).length = d + (1 + (gap :: gaps).length) := by omega
    rw [hcount] at hline ⊢
    exact feed_inside hline

/-! ### Placing the rest of a line -/

theorem plain_terminators (terminated : Bool) : Plain (terminators terminated) := by
  cases terminated with
  | false => exact fun c hc => absurd hc (by simp [terminators])
  | true => exact plain_terminator

theorem isComment_append {t : Text} (h : t ≠ []) (u : Text) :
    Keyword.isComment (t ++ u) = Keyword.isComment t := by
  unfold Keyword.isComment
  rw [List.head?_append_of_ne_nil _ h]

theorem Statement.solid (s : Statement) : Solid s.text := ⟨s.nonempty, s.trimmed, s.noTerminator⟩

theorem place_statement (s : Statement) (d : Nat) {rest : Text} {terminated : Bool}
    (h : trim rest = s.text ++ terminators terminated) :
    place (inside d) rest = { nesting := inside d, lines := [.plain d s.text] } := by
  have hstruct : structuralAt? (trim rest) = none := by
    rw [h, structuralAt_append_plain (plain_terminators terminated), s.noBlock]
  have hlit : startsLiteral (trim rest) = false := by
    unfold startsLiteral
    rw [h, openLiteralAt_append_plain (plain_terminators terminated), s.noLiteral]
  have hcode : IsCode (trim rest) := by
    rw [h]
    exact ⟨by simp [s.nonempty], by rw [isComment_append s.nonempty, s.notComment]⟩
  have hbrace : (trim rest).head? ≠ some '}' := by
    rw [h, List.head?_append_of_ne_nil _ s.nonempty]
    exact s.notCloser
  rcases place_code hcode (inLiteral_inside d) hbrace hlit with ⟨_, _, split, -, -⟩ | ⟨-, hplace⟩
  · rw [split.first] at hstruct
    exact absurd hstruct (by simp)
  · rw [hplace, Layout.statement, h, s.solid.strip]
    rfl

theorem Header.nonempty (h : Header) : h.text ≠ [] := by
  intro hnil
  have hheader := h.isHeader
  rw [hnil] at hheader
  exact absurd hheader (by decide)

theorem place_opening (h : Header) (gap : Pad)
    (first : structuralAt? (h.text ++ gap.val ++ ['{']) = some (h.text ++ gap.val).length)
    (noLiteral : openLiteralAt? (h.text ++ gap.val ++ ['{']) = none) (d : Nat) {rest : Text}
    (hrest : trim rest = h.text ++ gap.val ++ ['{']) :
    place (inside d) rest =
      { nesting := inside (d + 1), lines := [.header d (h.text ++ [':'])] } := by
  have hsplit : SplitsAt (trim rest) (h.text ++ gap.val) [] := ⟨hrest, by rw [hrest]; exact first⟩
  have hhead : trim (h.text ++ gap.val) = h.text := by
    have hpad := trim_pad blank_nil gap.property h.text
    rwa [List.nil_append, h.trimmed] at hpad
  have hlit : startsLiteral (trim rest) = false := by
    unfold startsLiteral
    rw [hrest, noLiteral]
  have hcode : IsCode (trim rest) := by
    rw [hrest, List.append_assoc]
    exact ⟨by simp, by rw [isComment_append h.nonempty, h.notComment]⟩
  have hbrace : (trim rest).head? ≠ some '}' := by
    rw [hrest, List.append_assoc, List.head?_append_of_ne_nil _ h.nonempty]
    exact h.notCloser
  rcases place_code hcode (inLiteral_inside d) hbrace hlit with
    ⟨before, after, split, -, hplace⟩ | ⟨hother, -⟩
  · obtain ⟨rfl, rfl⟩ := hsplit.unique split
    rw [hplace, hhead]
    rfl
  · have hno := hother _ _ hsplit
    rw [hhead, h.isHeader] at hno
    exact absurd hno (by decide)

/-! ### One line -/

theorem feed_blank (d : Nat) (pad : Pad) :
    feed (inside d) (Line.blank pad).text = { nesting := inside d, lines := [.blank] } := by
  have htrim : trim (Line.blank pad).text = [] := trim_pad pad.property blank_nil []
  rw [feed_of_head_ne (by simp [htrim])]
  unfold place
  simp [htrim]

theorem feed_comment (d : Nat) (lead : Pad) (c : Comment) (trail : Pad) :
    feed (inside d) (Line.comment lead c trail).text =
      { nesting := inside d, lines := [.plain d c.text] } := by
  have htrim : trim (Line.comment lead c trail).text = c.text :=
    (trim_pad lead.property trail.property c.text).trans c.trimmed
  have hmark : c.text.head? = some Keyword.commentMark := by simpa [Keyword.isComment] using c.marked
  have hne : c.text ≠ [] := fun hnil => by simp [hnil] at hmark
  rw [feed_of_head_ne (by rw [htrim, hmark]; decide)]
  unfold place
  simp [htrim, hne, c.marked, inside]

theorem feed_statement (d : Nat) (lead : Pad) (gaps : List Pad) (s : Statement) (terminated : Bool)
    (trail : Pad) :
    feed (inside (d + gaps.length)) (Line.statement lead gaps s terminated trail).text =
      { nesting := inside d, lines := [.plain d s.text] } := by
  obtain ⟨rest, hfeed, htrim⟩ := feed_closers s.solid s.notCloser d lead trail gaps terminated
  refine hfeed.trans ?_
  rcases htrim with htrim | htrim
  · have hnone : trim rest = s.text ++ terminators false := by simp [terminators, htrim]
    exact place_statement s d hnone
  · exact place_statement s d htrim

theorem Header.solid (h : Header) (gap : Pad) : Solid (h.text ++ gap.val ++ ['{']) where
  nonempty := by simp
  trimmed := by
    refine trim_eq_self (fun c hc => head_of_trimmed h.trimmed ?_) fun c hc => ?_
    · rwa [List.append_assoc, List.head?_append_of_ne_nil _ h.nonempty] at hc
    · rw [List.getLast?_concat, Option.some.injEq] at hc
      exact hc ▸ by decide
  noTerminator := by
    rw [List.getLast?_concat]
    decide

theorem feed_opening (d : Nat) (lead : Pad) (gaps : List Pad) (h : Header) (gap trail : Pad)
    (first : structuralAt? (h.text ++ gap.val ++ ['{']) = some (h.text ++ gap.val).length)
    (noLiteral : openLiteralAt? (h.text ++ gap.val ++ ['{']) = none) :
    feed (inside (d + gaps.length)) (Line.opening lead gaps h gap trail first noLiteral).text =
      { nesting := inside (d + 1), lines := [.header d (h.text ++ [':'])] } := by
  have hbrace : (h.text ++ gap.val ++ ['{']).head? ≠ some '}' := by
    rw [List.append_assoc, List.head?_append_of_ne_nil _ h.nonempty]
    exact h.notCloser
  obtain ⟨rest, hfeed, htrim⟩ := feed_closers (h.solid gap) hbrace d lead trail gaps false
  simp only [terminators, Bool.false_eq_true, if_false, List.append_nil, or_self] at hfeed htrim
  exact hfeed.trans (place_opening h gap first noLiteral d htrim)

/-- **The marks of a line come to what the layout makes of it.** -/
theorem feed_line {d e : Nat} {out : List Text} (line : Line) (h : Follows w d line.marks e out) :
    (feed (inside d) line.text).nesting = inside e ∧
      (feed (inside d) line.text).lines.map (OutLine.render w) = out := by
  cases line with
  | blank pad =>
    cases h with
    | blank hnil =>
      cases hnil
      rw [feed_blank]
      exact ⟨rfl, congrArg (fun line => [line]) (OutLine.render_blank w)⟩
  | comment lead c trail =>
    cases h with
    | comment _ hnil =>
      cases hnil
      rw [feed_comment]
      exact ⟨rfl, rfl⟩
  | closing lead gaps terminated trail =>
    have hmarks : Follows w d (List.replicate (gaps.length + 1) .closing ++ []) e out := by
      rwa [List.append_nil]
    obtain ⟨d', rfl, hnil⟩ := hmarks.of_closings
    cases hnil
    have hfeed : feed (inside (e + (gaps.length + 1)))
        (Line.closing lead gaps terminated trail).text = { nesting := inside e } :=
      feed_closing e lead trail gaps terminated
    rw [hfeed]
    exact ⟨rfl, rfl⟩
  | statement lead gaps s terminated trail =>
    obtain ⟨d', rfl, hrest⟩ := h.of_closings
    cases hrest with
    | statement _ hnil =>
      cases hnil
      rw [feed_statement]
      exact ⟨rfl, rfl⟩
  | opening lead gaps hd gap trail first noLiteral =>
    obtain ⟨d', rfl, hrest⟩ := h.of_closings
    cases hrest with
    | opening _ hnil =>
      cases hnil
      rw [feed_opening]
      exact ⟨rfl, by simp [OutLine.render, OutLine.levelAt, OutLine.text]⟩

/-! ### No line shows the colon style -/

theorem ofTrimmed_colon {t : Text} (h : Style.ofTrimmed? t = some .colon) :
    Keyword.isComment t = false ∧ Keyword.isHeader t = true ∧ t.getLast? = some ':' := by
  unfold Style.ofTrimmed? at h
  split_ifs at h with hcode hbrace hcolon
  · simp at h
  · simp only [Bool.and_eq_true, beq_iff_eq] at hcolon
    simp only [Bool.or_eq_true, not_or, Bool.not_eq_true] at hcode
    exact ⟨hcode.2, hcolon.1, hcolon.2⟩

/-- Text in front that shares no character with the needle does not hold it. -/
theorem occurs_append {needle : Text} (hne : needle ≠ []) {u : Text} (h : ∀ c ∈ u, c ∉ needle)
    (t : Text) : occurs needle (u ++ t) = occurs needle t := by
  induction u with
  | nil => rfl
  | cons c u ih =>
    have hprefix : needle.isPrefixOf (c :: (u ++ t)) = false := by
      cases needle with
      | nil => exact absurd rfl hne
      | cons d needle =>
        have hdc : d ≠ c := fun hdc => h c (by simp) (by simp [hdc])
        simp [List.isPrefixOf, hdc]
    rw [List.cons_append, occurs, hprefix, Bool.false_or, ih fun d hd => h d (by simp [hd])]

theorem blockKeywords_chars : ∀ keyword ∈ Keyword.blockKeywords,
    keyword.toList ≠ [] ∧ keyword.toList.head? ≠ some '}' ∧
      (trimEnd keyword.toList).head? ≠ some '}' := by decide

theorem entryPoint_chars : ∀ c ∈ Keyword.entryPoint.toList, isBlank c = false ∧ c ≠ '}' := by
  have h : (Keyword.entryPoint.toList.all fun c => !isBlank c && c != '}') = true := by decide
  simpa only [List.all_eq_true, Bool.and_eq_true, Bool.not_eq_true', bne_iff_ne] using h

theorem mem_closers {gaps : List Pad} {c : Char} (h : c ∈ closers gaps) :
    c = '}' ∨ isBlank c = true := by
  obtain ⟨gap, -, hc⟩ := List.mem_flatMap.mp h
  rcases List.mem_cons.mp hc with rfl | hc
  · exact Or.inl rfl
  · exact Or.inr (gap.property c hc)

/-- No keyword starts with a closing brace. -/
theorem not_introduces {t : Text} (h : t.head? = some '}') {keyword : String}
    (hmem : keyword ∈ Keyword.blockKeywords) : Keyword.introduces t keyword.toList = false := by
  obtain ⟨hne, hhead, htrim⟩ := blockKeywords_chars keyword hmem
  unfold Keyword.introduces
  rw [Bool.or_eq_false_iff]
  constructor
  · rw [Bool.eq_false_iff]
    intro hprefix
    obtain ⟨u, rfl⟩ := List.isPrefixOf_iff_prefix.mp hprefix
    rw [List.head?_append_of_ne_nil _ hne] at h
    exact hhead h
  · rw [beq_eq_false_iff_ne]
    rintro rfl
    exact htrim h

/-- Closing braces in front of a text do not make it a header. -/
theorem isHeader_of_closers {t : Text} (ht : trim t = t) (hne : t ≠ []) (gaps : List Pad)
    (h : Keyword.isHeader (closers gaps ++ t) = true) : Keyword.isHeader t = true := by
  cases gaps with
  | nil => exact h
  | cons gap gaps =>
    unfold Keyword.isHeader at h ⊢
    rw [trim_closers ht hne, Bool.or_eq_true, List.any_eq_true] at h
    rcases h with ⟨keyword, hmem, hintro⟩ | hoccurs
    · rw [not_introduces rfl hmem] at hintro
      exact absurd hintro (by decide)
    · have hfree : ∀ c ∈ closers (gap :: gaps), c ∉ Keyword.entryPoint.toList := by
        intro c hc hentry
        obtain ⟨hblank, hbrace⟩ := entryPoint_chars c hentry
        rcases mem_closers hc with hc | hc
        · exact hbrace hc
        · rw [hblank] at hc
          exact absurd hc (by decide)
      rw [occurs_append (by decide) hfree] at hoccurs
      rw [ht, hoccurs, Bool.or_true]

theorem trim_inner (line : Line) : trim line.inner = line.inner := by
  cases line with
  | blank pad => rfl
  | comment lead c trail => exact c.trimmed
  | closing lead gaps terminated trail =>
    exact trim_closers (trim_terminators (by decide : trim ['}'] = ['}']) (by decide) terminated)
      (by simp) gaps
  | statement lead gaps s terminated trail =>
    exact trim_closers (trim_terminators s.trimmed s.nonempty terminated) (by simp [s.nonempty]) gaps
  | opening lead gaps h gap trail first noLiteral =>
    exact trim_closers (h.solid gap).trimmed (h.solid gap).nonempty gaps

/-- No line of a program shows the colon style, whatever closing braces stand at its front. -/
theorem evidence_line (line : Line) : Style.evidence? line.text ≠ some .colon := by
  intro hcolon
  have htrim : trim line.text = line.inner :=
    (trim_pad line.pads.1.property line.pads.2.property line.inner).trans (trim_inner line)
  unfold Style.evidence? at hcolon
  rw [htrim] at hcolon
  obtain ⟨hcomment, hheader, hlast⟩ := ofTrimmed_colon hcolon
  cases line with
  | blank pad => exact absurd hlast (by simp [Line.inner])
  | comment lead c trail =>
    have hmark : Keyword.isComment c.text = false := hcomment
    rw [c.marked] at hmark
    exact absurd hmark (by decide)
  | closing lead gaps terminated trail =>
    have hend : ('}' :: terminators terminated).getLast? = some ':' := by
      rwa [Line.inner, List.getLast?_append_of_ne_nil _ (by simp)] at hlast
    cases terminated <;> exact absurd hend (by decide)
  | statement lead gaps s terminated trail =>
    cases terminated with
    | true =>
      rw [Line.inner, terminators, if_pos rfl, ← List.append_assoc, List.getLast?_concat] at hlast
      exact absurd hlast (by decide)
    | false =>
      rw [Line.inner, terminators, if_neg (by decide), List.append_nil] at hlast hheader
      rw [List.getLast?_append_of_ne_nil _ s.nonempty] at hlast
      exact s.noColonHeader ⟨isHeader_of_closers s.trimmed s.nonempty gaps hheader, hlast⟩
  | opening lead gaps h gap trail first noLiteral =>
    rw [Line.inner, ← List.append_assoc, List.getLast?_concat] at hlast
    exact absurd hlast (by decide)

/-! ### The whole program -/

theorem laid_lines {d e : Nat} {out : List Text} (lines : List Line)
    (h : Follows w d (lines.flatMap Line.marks) e out) :
    (laid (inside d) (lines.map Line.text)).map (OutLine.render w) = out ∧
      after (inside d) (lines.map Line.text) = inside e := by
  induction lines generalizing d out with
  | nil =>
    cases h
    exact ⟨rfl, rfl⟩
  | cons line lines ih =>
    rw [List.flatMap_cons] at h
    obtain ⟨d', before, more, hline, hlines, rfl⟩ := h.split
    obtain ⟨hnesting, hout⟩ := feed_line line hline
    obtain ⟨hlaid, hafter⟩ := ih hlines
    rw [List.map_cons, laid, List.map_append, hout, hnesting, hlaid, after_cons, hnesting, hafter]
    exact ⟨rfl, rfl⟩

/-- **A program written with braces is converted to the program written with indentation.** However
its closing braces share lines, and whatever blanks stand around, the conversion succeeds, writes each
piece of the program once and at its depth, and leaves no block and no literal open. As with every
source, a blank line at the very front is dropped. -/
theorem converted_program (w : Width) {program : List Node} {lines : List Line}
    (h : Prints program lines) :
    (Converter.convertLines { width := w } (lines.map Line.text)).result =
        .ok (Converter.dropLeadingBlank (indented w 0 program)) ∧
      (Converter.convertLines { width := w } (lines.map Line.text)).converter.nesting = {} := by
  have hagrees : Style.Agrees none (lines.map Line.text) := by
    refine ⟨.brace, fun s hs => absurd hs (by simp), fun text htext found hev => ?_⟩
    obtain ⟨line, -, rfl⟩ := List.mem_map.mp htext
    cases found with
    | brace => rfl
    | colon => exact absurd hev (evidence_line line)
  have hfollows : Follows w 0 (lines.flatMap Line.marks) 0 (indented w 0 program) := by
    rw [h]
    exact follows_marks w 0 program
  obtain ⟨hlaid, hafter⟩ := laid_lines lines hfollows
  obtain ⟨hresult, hconverter⟩ := Converter.convertLines_of_agrees w hagrees
  refine ⟨?_, ?_⟩
  · rw [hresult]
    exact congrArg (fun out => Except.ok (Converter.dropLeadingBlank out)) hlaid
  · rw [hconverter]
    exact hafter

/-- Three levels, a dict in a body, two closing braces and a header on one line, and a closing brace
and a statement on another. -/
theorem converted_program_nested :
    let pad : Pad := ⟨[' '], by decide⟩
    let none : Pad := ⟨[], by decide⟩
    let test : Header := { text := "if x".toList }
    let loop : Header := { text := "while y".toList }
    let other : Header := { text := "else".toList }
    let step : Statement := { text := "y = \x7bx: y\x7d".toList }
    let done : Statement := { text := "go()".toList }
    let note : Comment := { text := "# \x7d".toList }
    let program : List Node :=
      [.block test [.comment note, .block loop [.statement step]],
        .block other [.blank, .statement done], .statement done]
    let lines : List Line :=
      [.opening none [] test pad none (by decide) (by decide),
        .comment pad note none,
        .opening pad [] loop none pad (by decide) (by decide),
        .statement none [] step true pad,
        .opening none [pad, none] other pad none (by decide) (by decide),
        .blank pad,
        .statement pad [] done false none,
        .statement pad [none] done true none]
    Prints program lines ∧
      (Converter.convertLines { width := .standard } (lines.map Line.text)).result =
        .ok ["if x:".toList, "    # \x7d".toList, "    while y:".toList, "        y = \x7bx: y\x7d".toList,
          "else:".toList, [], "    go()".toList, "go()".toList] := by
  intro pad none test loop other step done note program lines
  have hprints : Prints program lines := rfl
  exact ⟨hprints, (converted_program .standard hprints).1.trans (by decide)⟩

end Offside.Program
