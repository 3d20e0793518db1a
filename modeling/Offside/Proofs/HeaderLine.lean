import Offside.Proofs.BlockTree
import Offside.Proofs.Indentation
import Offside.Proofs.Cut
import Offside.Proofs.OpenBraces

/-!
# The line of a header

What a header line comes to is settled at its first structural brace: by the head before it, the tail after
it, and whether a data literal is open there (`feed_header`). Two questions about such lines are answered.

A block whose body stands on the line of its header comes to the same as the block over three lines
(`one_line_block_agrees`). The body is read in three ways here: between the braces of the block, with the
closing brace after it, and alone. These readings agree because the closing brace stands outside strings.

A header that already carries its colon is another matter. A brace after a colon starts a data literal, so
no such line opens a block (`colon_starts_literal`).
-/

namespace Offside

namespace Brace

open Text

/-- A structural brace at the end of a line leaves open what was open before it. -/
theorem SplitsAt.openLiteralAt_before {text before : Text} (h : SplitsAt text before []) :
    openLiteralAt? text = openLiteralAt? before := by
  rw [openLiteralAt_eq, openLiteralAt_eq, h.roles_eq, leftOpen_append]
  rfl

/-- No literal is open at the brace if none is found open before it. -/
theorem SplitsAt.openLiteralAt_eq_none {text before : Text} (h : SplitsAt text before [])
    (hlit : ∀ i, openLiteralAt? text = some i → ¬ i < before.length) : openLiteralAt? before = none := by
  cases hfound : openLiteralAt? before with
  | none => rfl
  | some i =>
    obtain ⟨hi, -⟩ := List.getElem?_eq_some_iff.mp (getElem_openLiteralAt hfound)
    rw [length_roles] at hi
    exact absurd hi (hlit i (h.openLiteralAt_before.trans hfound))

/-- If no literal is open at its first structural brace, a line starts none. -/
theorem SplitsAt.startsLiteral_eq_false {text before after : Text} (h : SplitsAt text before after)
    (hopen : openLiteralAt? before = none) : startsLiteral text = false := by
  rw [openLiteralAt_eq, List.getLast?_eq_none_iff] at hopen
  unfold startsLiteral
  cases hfound : openLiteralAt? text with
  | none => rfl
  | some i =>
    rw [openLiteralAt_eq, h.roles_eq, leftOpen_append, hopen] at hfound
    rcases mem_leftOpen (List.mem_of_getLast? hfound) with hmem | ⟨role, ⟨hle, -⟩, -⟩
    · exact absurd hmem (by simp)
    · rw [length_roles, Nat.zero_add] at hle
      rw [h.first]
      exact decide_eq_false (by omega)

/-- A data literal opened at the end of a line, where no other is open, is the one found open. -/
theorem openLiteralAt_concat {before : Text} (hopen : openLiteralAt? before = none)
    (hmode : modeAfter [] .code before ['{'] = .code)
    (hrole : openingRole before.reverse = .dataLiteral) :
    openLiteralAt? (before ++ ['{']) = some before.length := by
  rw [openLiteralAt_eq, List.getLast?_eq_none_iff] at hopen
  rw [openLiteralAt_eq, roles_opening hmode, hrole, leftOpen_append, hopen, length_roles, Nat.zero_add]
  rfl

/-! ### A colon before the brace -/

/-- A brace after a colon starts a data literal. -/
theorem openingRole_after_colon (t : Text) : openingRole (t ++ [':', ' ']).reverse = .dataLiteral := by
  rw [List.reverse_append]
  exact openingRole_colon (by decide : Blank [' ']) t.reverse

section Colon

variable {t : Text} (split : SplitsAt (t ++ [' '] ++ ['{']) (t ++ [' ']) [])

include split

theorem modeAfter_colon : modeAfter [] .code (t ++ [':', ' ']) ['{'] = .code := by
  obtain ⟨-, hmode, -⟩ := splitsAt_iff.mp split
  rw [modeAfter_append_idle (by decide)] at hmode ⊢
  exact hmode

theorem roles_colon :
    roles (t ++ [':', ' '] ++ ['{']) = roles t ++ [none, none, some .dataLiteral] := by
  rw [roles_opening (modeAfter_colon split), openingRole_after_colon,
    roles_append_plain (by decide : Idle [':', ' ']).plain, List.append_assoc]
  rfl

theorem netDepth_colon : netDepth (t ++ [':', ' '] ++ ['{']) = netDepth t + 1 := by
  unfold netDepth
  rw [roles_colon split, depthOf_append]
  rfl

theorem startsLiteral_colon (hopen : openLiteralAt? (t ++ [' ']) = none) :
    startsLiteral (t ++ [':', ' '] ++ ['{']) = true := by
  have hcolon : openLiteralAt? (t ++ [':', ' ']) = none := by
    rw [openLiteralAt_append_plain (by decide : Idle [' ']).plain] at hopen
    rw [openLiteralAt_append_plain (by decide : Idle [':', ' ']).plain, hopen]
  have hfound := openLiteralAt_concat hcolon (modeAfter_colon split) (openingRole_after_colon t)
  -- the header has no structural brace, and the one after the colon is none
  have hblock : structuralAt? (t ++ [':', ' '] ++ ['{']) = none := by
    obtain ⟨hbefore, -⟩ := splitsAt_iff.mp split
    rw [structuralAt_append_plain (by decide : Idle [' ']).plain] at hbefore
    unfold structuralAt? at hbefore ⊢
    rw [roles_colon split, List.findIdx?_append, hbefore]
    rfl
  unfold startsLiteral
  rw [hfound, hblock]

end Colon

end Brace

namespace Layout

open Text Brace Program

/-- A trimmed line of code outside literals opens a block or is a statement. -/
theorem feed_code {n : Nesting} {line : Text} (hin : n.inLiteral = false) (htrim : trim line = line)
    (hcode : IsCode line) (hbrace : line.head? ≠ some '}') (hlit : startsLiteral line = false) :
    (∃ before after, SplitsAt line before after ∧ Keyword.isHeader (trim before) = true ∧
      feed n line =
        { nesting := (Body.ofTail (trim after)).after n
          lines := .header n.level (trim before ++ [':']) ::
            (Body.ofTail (trim after)).lines (n.level + 1) }) ∨
    (∀ before after, SplitsAt line before after → Keyword.isHeader (trim before) = false) ∧
      feed n line = { nesting := n, lines := [statement n line] } := by
  rw [← htrim] at hcode hbrace hlit
  have hplace := place_code hcode hin hbrace hlit
  rwa [← feed_of_head_ne hbrace, htrim] at hplace

/-! ### Header and brace -/

/-- **What a header line comes to.** The tail after the brace may hold anything, but ends in no blank. -/
theorem feed_header (h : Header) {n : Nesting} {tail : Text} (hin : n.inLiteral = false)
    (split : SplitsAt (h.text ++ [' '] ++ '{' :: tail) (h.text ++ [' ']) tail)
    (hopen : openLiteralAt? (h.text ++ [' ']) = none)
    (hlast : ∀ c, ('{' :: tail).getLast? = some c → isBlank c = false) :
    feed n (h.text ++ [' '] ++ '{' :: tail) =
      { nesting := (Body.ofTail (trim tail)).after n
        lines := .header n.level (h.text ++ [':']) :: (Body.ofTail (trim tail)).lines (n.level + 1) } := by
  have hhead : (h.text ++ [' '] ++ '{' :: tail).head? = h.text.head? := by
    rw [List.append_assoc, List.head?_append_of_ne_nil _ h.nonempty]
  have htrim : trim (h.text ++ [' '] ++ '{' :: tail) = h.text ++ [' '] ++ '{' :: tail := by
    refine trim_eq_self (fun c hc => head_of_trimmed h.trimmed (hhead ▸ hc)) fun c hc => hlast c ?_
    rwa [List.getLast?_append_of_ne_nil _ (by simp)] at hc
  have hbefore : trim (h.text ++ [' ']) = h.text := by
    have hpad := trim_pad blank_nil (by decide : Blank [' ']) h.text
    rwa [List.nil_append, h.trimmed] at hpad
  have hcode : IsCode (h.text ++ [' '] ++ '{' :: tail) := by
    rw [List.append_assoc]
    exact ⟨by simp, by rw [isComment_append h.nonempty, h.notComment]⟩
  have hbrace : (h.text ++ [' '] ++ '{' :: tail).head? ≠ some '}' := hhead ▸ h.notCloser
  have hlit := split.startsLiteral_eq_false hopen
  rcases feed_code hin htrim hcode hbrace hlit with ⟨before', after', split', -, hfeed⟩ | ⟨hother, -⟩
  · obtain ⟨rfl, rfl⟩ := split.unique split'
    rw [hfeed, hbefore]
  · have hno := hother _ _ split
    rw [hbefore, h.isHeader] at hno
    exact absurd hno (by decide)

/-- A header with nothing after its brace opens a block. -/
theorem feed_bare_header (h : Header) {n : Nesting} (hin : n.inLiteral = false)
    (split : SplitsAt (h.text ++ [' '] ++ ['{']) (h.text ++ [' ']) [])
    (hopen : openLiteralAt? (h.text ++ [' ']) = none) :
    feed n (h.text ++ [' ', '{']) =
      { nesting := n.openBlock, lines := [.header n.level (h.text ++ [':'])] } := by
  have hline : h.text ++ [' ', '{'] = h.text ++ [' '] ++ ['{'] := by simp
  have hlast : ∀ c, ['{'].getLast? = some c → isBlank c = false := by
    rintro c ⟨⟩
    decide
  rw [hline, feed_header h hin split hopen hlast]
  rfl

/-- The line of a closing brace alone ends the block opened last. -/
theorem feed_closer {n : Nesting} (hin : n.inLiteral = false) :
    feed n.openBlock ['}'] = { nesting := n } := by
  have hin' : n.openBlock.inLiteral = false := hin
  have hpeel : peel n.openBlock.openBlocks ['}'] = ⟨1, none⟩ := rfl
  unfold feed
  rw [hin', hpeel]
  rfl

/-! ### The body between the braces -/

/-- A text that may be the body of a block on one line: a statement complete on its line, without blocks of
its own, that leaves a closing brace after it outside strings. -/
structure Simple (s : Text) : Prop where
  nonempty : s ≠ []
  trimmed : trim s = s
  notComment : Keyword.isComment s = false
  notCloser : s.head? ≠ some '}'
  noBlock : structuralAt? s = none
  noLiteral : openLiteralAt? s = none
  balanced : netDepth s = 0
  closable : (roles (s ++ [' ', '}']))[s.length + 1]? = some (some .closing)

namespace Simple

variable {s : Text} (h : Simple s) (terminated : Bool)

include h

theorem modeAfter_eq : modeAfter [] .code s ['}'] = .code := by
  have hclosable : (roles ((s ++ [' ']) ++ ['}']))[(s ++ [' ']).length]? = some (some .closing) := by
    simpa using h.closable
  have hlive := modeAfter_of_live hclosable (by decide)
  rwa [modeAfter_append_idle (by decide)] at hlive

/-- The closing brace ends the block and nothing else. -/
theorem netDepth_closed : netDepth (s ++ terminators terminated ++ [' ', '}']) = -1 := by
  have hidle : Idle (terminators terminated ++ [' ']) := by cases terminated <;> decide
  have hmode : modeAfter [] .code (s ++ (terminators terminated ++ [' '])) ['}'] = .code := by
    rw [modeAfter_append_idle hidle, h.modeAfter_eq]
  have htext : s ++ terminators terminated ++ [' ', '}'] =
      s ++ (terminators terminated ++ [' ']) ++ ['}'] := by simp
  have hbalanced : depthOf (roles s) = 0 := h.balanced
  unfold netDepth
  rw [htext, roles_closing hmode, roles_append_plain hidle.plain, depthOf_append, depthOf_append,
    depthOf_none, hbalanced]
  rfl

theorem ofTail_eq :
    Body.ofTail (s ++ terminators terminated ++ [' ', '}']) =
      .whole (Keyword.stripTerminator (s ++ terminators terminated)) := by
  have hnet := h.netDepth_closed terminated
  have htrim := trim_terminators h.trimmed h.nonempty terminated
  generalize s ++ terminators terminated = body at hnet htrim ⊢
  have hpass : body ++ [' ', '}'] ≠ ['}'] := fun heq => by simpa using congrArg List.length heq
  have hwhole : (body ++ [' ', '}']).getLast? = some '}' ∧ netDepth (body ++ [' ', '}']) < 0 :=
    ⟨by simp, by omega⟩
  have hdrop : (body ++ [' ', '}']).dropLast = body ++ [' '] := by
    rw [List.dropLast_append_of_ne_nil (by simp)]
    rfl
  unfold Body.ofTail
  rw [if_neg hpass, if_neg (by simp), if_pos hwhole, hdrop, trimEnd_append_blank (by decide), ← htrim,
    trimEnd_trim]

/-- On a line of its own the body is a statement. -/
theorem feed_eq {n : Nesting} (hin : n.inLiteral = false) :
    feed n (s ++ terminators terminated) =
      { nesting := n, lines := [statement n (s ++ terminators terminated)] } := by
  have hplain := plain_terminators terminated
  have htrim := trim_terminators h.trimmed h.nonempty terminated
  have hcode : IsCode (s ++ terminators terminated) :=
    ⟨by simp [h.nonempty], by rw [isComment_append h.nonempty, h.notComment]⟩
  have hbrace : (s ++ terminators terminated).head? ≠ some '}' := by
    rw [List.head?_append_of_ne_nil _ h.nonempty]
    exact h.notCloser
  have hblock : structuralAt? (s ++ terminators terminated) = none := by
    rw [structuralAt_append_plain hplain, h.noBlock]
  have hlit : startsLiteral (s ++ terminators terminated) = false := by
    unfold startsLiteral
    rw [openLiteralAt_append_plain hplain, h.noLiteral]
  rcases feed_code hin htrim hcode hbrace hlit with ⟨before, after, split, -⟩ | ⟨-, hfeed⟩
  · rw [split.first] at hblock
    exact absurd hblock (by simp)
  · exact hfeed

theorem trim_tail :
    trim (' ' :: (s ++ terminators terminated ++ [' ', '}'])) =
      s ++ terminators terminated ++ [' ', '}'] := by
  have htrim := trim_terminators h.trimmed h.nonempty terminated
  have hne : s ++ terminators terminated ≠ [] := by simp [h.nonempty]
  generalize s ++ terminators terminated = body at htrim hne ⊢
  have hpad := trim_pad (by decide : Blank [' ']) blank_nil (body ++ [' ', '}'])
  rw [List.append_nil] at hpad
  refine hpad.trans (trim_eq_self (fun c hc => ?_) fun c hc => ?_)
  · rw [List.head?_append_of_ne_nil _ hne] at hc
    exact head_of_trimmed htrim hc
  · rw [List.getLast?_append_of_ne_nil _ (by simp)] at hc
    obtain rfl : '}' = c := by simpa using hc
    decide

variable {n : Nesting} (header : Header)

/-- The block on one line. -/
theorem feed_one_line (hin : n.inLiteral = false)
    (split : SplitsAt (header.text ++ [' '] ++ '{' :: ' ' :: (s ++ terminators terminated ++ [' ', '}']))
      (header.text ++ [' ']) (' ' :: (s ++ terminators terminated ++ [' ', '}'])))
    (hopen : openLiteralAt? (header.text ++ [' ']) = none) :
    feed n (header.text ++ [' ', '{', ' '] ++ (s ++ terminators terminated) ++ [' ', '}']) =
      { nesting := n
        lines := [.header n.level (header.text ++ [':']),
          .plain (n.level + 1) (Keyword.stripTerminator (s ++ terminators terminated))] } := by
  have hline : header.text ++ [' ', '{', ' '] ++ (s ++ terminators terminated) ++ [' ', '}'] =
      header.text ++ [' '] ++ '{' :: ' ' :: (s ++ terminators terminated ++ [' ', '}']) := by simp
  have hlast : ∀ c, ('{' :: ' ' :: (s ++ terminators terminated ++ [' ', '}'])).getLast? = some c →
      isBlank c = false := by
    intro c hc
    rw [← List.cons_append, ← List.cons_append, List.getLast?_append_of_ne_nil _ (by simp)] at hc
    obtain rfl : '}' = c := by simpa using hc
    decide
  rw [hline, feed_header header hin split hopen hlast, h.trim_tail, h.ofTail_eq]
  rfl

/-- The block over three lines. -/
theorem laid_three_lines (hin : n.inLiteral = false)
    (split : SplitsAt (header.text ++ [' '] ++ ['{']) (header.text ++ [' ']) [])
    (hopen : openLiteralAt? (header.text ++ [' ']) = none) :
    laid n [header.text ++ [' ', '{'], s ++ terminators terminated, ['}']] =
        [.header n.level (header.text ++ [':']),
          .plain (n.level + 1) (Keyword.stripTerminator (s ++ terminators terminated))] ∧
      after n [header.text ++ [' ', '{'], s ++ terminators terminated, ['}']] = n := by
  have hinner : n.openBlock.inLiteral = false := hin
  have hopening := feed_bare_header header hin split hopen
  have hbody := h.feed_eq terminated hinner
  constructor
  · simp only [laid, hopening, hbody, feed_closer hin]
    rfl
  · simp only [after_cons, after_nil, hopening, hbody, feed_closer hin]

end Simple

/-- **A block on one line comes to the same as the block over three lines**: the header with its colon, the
body one level deeper, and the nesting as before. A terminator may follow the body. The brace after the
header is the first structural one of the line, and no data literal before it stays open. -/
theorem one_line_block_agrees (h : Header) {s : Text} (hs : Simple s) (terminated : Bool) {n : Nesting}
    (hn : n.literalDepth = 0)
    (hfirst : structuralAt? (h.text ++ [' ', '{', ' '] ++ s ++ [' ', '}']) = some (h.text.length + 1))
    (hlit : ∀ i, openLiteralAt? (h.text ++ [' ', '{']) = some i → ¬ i < h.text.length + 1) :
    let body := s ++ terminators terminated
    let line := h.text ++ [' ', '{', ' '] ++ body ++ [' ', '}']
    let lines := [h.text ++ [' ', '{'], body, ['}']]
    feed n line =
        { nesting := n
          lines := [.header n.level (h.text ++ [':']),
            .plain (n.level + 1) (Keyword.stripTerminator body)] } ∧
      laid n lines = (feed n line).lines ∧ after n lines = (feed n line).nesting := by
  intro body line lines
  have hin : n.inLiteral = false := by simp [Nesting.inLiteral, hn]
  have hlen : (h.text ++ [' ']).length = h.text.length + 1 := by simp
  have split : SplitsAt (h.text ++ [' ', '{', ' '] ++ s ++ [' ', '}']) (h.text ++ [' '])
      (' ' :: s ++ [' ', '}']) := ⟨by simp, by rw [hfirst, hlen]⟩
  have hopen : openLiteralAt? (h.text ++ [' ']) = none :=
    split.bare.openLiteralAt_eq_none (by simpa using hlit)
  -- a terminator closes no field of an f-string, so the brace stays the first structural one
  have hcloses : ∀ depth, closes depth (' ' :: s ++ [' ', '}']) =
      closes depth (' ' :: (body ++ [' ', '}'])) := by
    have hskip := closes_plain_append (plain_terminators terminated)
    have htail := closes_append_congr (fun depth => (hskip depth [' ', '}']).symm) (' ' :: s)
    simpa [body] using htail
  have hfeed := hs.feed_one_line terminated h hin (split.replace hcloses) hopen
  obtain ⟨hlaid, hafter⟩ := hs.laid_three_lines terminated h hin split.bare hopen
  refine ⟨hfeed, ?_, ?_⟩
  · rw [hlaid, hfeed]
  · rw [hafter, hfeed]

/-- A body full of braces, in a dict, a set, a string and an f-string, with a terminator after it. -/
theorem one_line_block_agrees_dict :
    let h : Header := { text := "if has(\x7b1\x7d)".toList }
    let s := "d = \x7b'\x7d': f'\x7bg(\x7bx\x7d)\x7d', 2: \x7b3\x7d\x7d".toList
    let n : Nesting := { level := 2, openBlocks := 2 }
    let line := h.text ++ " \x7b ".toList ++ s ++ "; \x7d".toList
    Simple s ∧ structuralAt? line = some 12 ∧ openLiteralAt? (h.text ++ [' ', '{']) = none ∧
      (feed n line).lines = [.header 2 "if has(\x7b1\x7d):".toList, .plain 3 s] ∧
      laid n [h.text ++ [' ', '{'], s ++ [';'], ['}']] = (feed n line).lines ∧
      (feed n line).nesting = n := by
  intro h s n line
  have hs : Simple s := by constructor <;> decide
  have hnone : openLiteralAt? (h.text ++ [' ', '{']) = none := by decide
  obtain ⟨hfeed, hlaid, -⟩ := one_line_block_agrees h hs true (n := n) rfl (by decide)
    (by simp [hnone])
  exact ⟨hs, by decide, hnone, congrArg Placement.lines hfeed, hlaid, congrArg Placement.nesting hfeed⟩

/-! ### A header with its colon -/

/-- **A header that carries its colon opens no block.** Where the header alone opens one, the brace after
the colon starts a data literal, and the line is written as it stands. -/
theorem colon_starts_literal (h : Header) {n : Nesting} (hn : n.literalDepth = 0)
    (hfirst : structuralAt? (h.text ++ [' ', '{']) = some (h.text.length + 1))
    (hopen : openLiteralAt? (h.text ++ [' ', '{']) = none) :
    let line := h.text ++ [':', ' ', '{']
    feed n (h.text ++ [' ', '{']) =
        { nesting := n.openBlock, lines := [.header n.level (h.text ++ [':'])] } ∧
      (feed n line).lines = [.plain n.level line] ∧
      (feed n line).nesting = insideLiteral n 0 (netDepth h.text + 1) := by
  intro line
  have hin : n.inLiteral = false := by simp [Nesting.inLiteral, hn]
  have split : SplitsAt (h.text ++ [' '] ++ ['{']) (h.text ++ [' ']) [] :=
    ⟨rfl, by simpa using hfirst⟩
  have hbefore : openLiteralAt? (h.text ++ [' ']) = none := by
    rw [← split.openLiteralAt_before]
    simpa using hopen
  have hline : line = h.text ++ [':', ' '] ++ ['{'] := by simp [line]
  have htrim : trim line = line := trim_append h.trimmed (by decide) h.nonempty (by decide)
  have hcode : IsCode line := ⟨by simp [line], by rw [isComment_append h.nonempty, h.notComment]⟩
  have hbrace : line.head? ≠ some '}' := by
    rw [List.head?_append_of_ne_nil _ h.nonempty]
    exact h.notCloser
  have hlit : startsLiteral line = true := hline ▸ startsLiteral_colon split hbefore
  have hnet : netDepth line = netDepth h.text + 1 := hline ▸ netDepth_colon split
  have hindent : indentation line = 0 := by
    have hstarts := (starts_trim line).indentation_eq_zero
    rwa [htrim] at hstarts
  have hstrip : Keyword.stripTerminator line = line := by
    refine Keyword.stripTerminator_eq_self ?_
    simp [line, Keyword.terminator]
  rw [← htrim] at hcode hbrace hlit
  obtain ⟨hnesting, hlines⟩ := feed_startsLiteral hin hcode hbrace hlit
  refine ⟨feed_bare_header h hin split hbefore, ?_, ?_⟩
  · rw [hlines, htrim, statement, hstrip]
  · rw [hnesting, htrim, hindent, hnet]

/-- A header with a dict in it, inside two blocks. -/
theorem colon_starts_literal_dict :
    let h : Header := { text := "while f(\x7b'\x7b': 1\x7d)".toList }
    let n : Nesting := { level := 2, openBlocks := 2 }
    structuralAt? (h.text ++ [' ', '{']) = some 18 ∧ openLiteralAt? (h.text ++ [' ', '{']) = none ∧
      feed n (h.text ++ [' ', '{']) =
        { nesting := { level := 3, openBlocks := 3 }, lines := [.header 2 (h.text ++ [':'])] } ∧
      (feed n (h.text ++ [':', ' ', '{'])).nesting = { n with literalDepth := 1 } := by
  intro h n
  have hfirst : structuralAt? (h.text ++ [' ', '{']) = some 18 := by decide
  have hopen : openLiteralAt? (h.text ++ [' ', '{']) = none := by decide
  obtain ⟨hbare, -, hcolon⟩ := colon_starts_literal h (n := n) rfl hfirst hopen
  refine ⟨hfirst, hopen, hbare, ?_⟩
  rw [hcolon]
  decide

/-- **The colon keeps the block from being opened**: with it the header is not written as a header and all
lines up to the closing brace are taken for those of a literal. -/
theorem colon_header_keeps_block_shut :
    let h : Header := { text := "if x".toList }
    let bare := h.text ++ [' ', '{']
    let line := h.text ++ [':', ' ', '{']
    (h.text.getLast? ≠ some ':' ∧ structuralAt? bare = some 5 ∧ openLiteralAt? bare = none) ∧
      (feed {} bare).lines = [.header 0 "if x:".toList] ∧
      (feed {} bare).nesting = { level := 1, openBlocks := 1 } ∧
      (feed {} line).lines = [.plain 0 "if x: \x7b".toList] ∧
      (feed {} line).nesting = { literalDepth := 1 } := by
  decide

end Layout

end Offside
