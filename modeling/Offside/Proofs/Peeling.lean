import Offside.Proofs.BlockTree
import Offside.Proofs.Reachable

/-!
# A run of closing braces at the front of a line

Such a line is closing braces with blanks between them and a rest. Each pass of `peel` takes one brace,
trims what follows and strips a terminator from it. The terminator is gone after the first pass, and so
are the blanks at the end of the line; from there on the text is `closing gaps r`, and a pass takes the
first gap (`peel_pass`). So as many braces are peeled as there are blocks to end, if there are so many
(`peel_closing`). What is left is the rest of the line, or the braces that ended nothing with the rest
behind them (`closing_run_peeled`).
-/

namespace Offside

namespace Text

theorem trimEnd_cons {c : Char} (hc : isBlank c = false) (t : Text) :
    trimEnd (c :: t) = c :: trimEnd t := by
  have hself : trimStart [c] = [c] := List.dropWhile_cons_of_neg (by simp [hc])
  have happend := trimStart_append t.reverse [c]
  unfold trimEnd
  rw [List.reverse_cons, show List.dropWhile isBlank (t.reverse ++ [c]) = _ from happend, hself]
  split_ifs with hnil
  · rw [show List.dropWhile isBlank t.reverse = [] from hnil]
    rfl
  · rw [List.reverse_append]
    rfl

theorem trim_trimEnd (t : Text) : trim (trimEnd t) = trim t := by
  obtain ⟨b, hb, htb⟩ := exists_trimEnd t
  have hpad := trim_pad blank_nil hb (trimEnd t)
  rwa [List.nil_append, ← htb, eq_comm] at hpad

end Text

namespace Layout

open Text Program

/-- What may follow a run of closing braces: a trimmed text, or none, that starts with no closing brace and
ends in no terminator. -/
structure Rest (r : Text) : Prop where
  trimmed : trim r = r
  notCloser : r.head? ≠ some '}'
  noTerminator : r.getLast? ≠ some Keyword.terminator

/-- Closing braces and what follows them, without blanks at the end. -/
def closing (gaps : List Pad) (r : Text) : Text := trimEnd (closers gaps ++ r)

section Closing

variable {gap : Pad} {gaps : List Pad} {r : Text}

theorem closing_cons (gap : Pad) (gaps : List Pad) (r : Text) :
    closing (gap :: gaps) r = '}' :: trimEnd (gap.val ++ (closers gaps ++ r)) := by
  rw [closing, closers_cons, trimEnd_cons (by decide)]

theorem Rest.closing_nil (hr : Rest r) : closing [] r = r := by
  have h := trimEnd_trim r
  rwa [hr.trimmed] at h

theorem Rest.closing_eq_nil_iff (hr : Rest r) : closing gaps r = [] ↔ gaps = [] ∧ r = [] := by
  cases gaps with
  | nil => rw [hr.closing_nil]; simp
  | cons gap gaps => rw [closing_cons]; simp

theorem Rest.closing_of_ne_nil (hr : Rest r) (hne : r ≠ []) : closing gaps r = closers gaps ++ r := by
  have h := trimEnd_trim (closers gaps ++ r)
  rwa [trim_closers hr.trimmed hne] at h

theorem Rest.head_closers (hr : Rest r) {c : Char} (h : (closers gaps ++ r).head? = some c) :
    isBlank c = false := by
  cases gaps with
  | nil => exact head_of_trimmed hr.trimmed h
  | cons gap gaps =>
    rw [closers_cons] at h
    obtain rfl : '}' = c := Option.some.inj h
    decide

theorem Rest.trim_closers (hr : Rest r) : trim (closers gaps ++ r) = closing gaps r := by
  unfold trim
  rw [trimStart_eq_self fun c => hr.head_closers]
  rfl

theorem Rest.trim_closing (hr : Rest r) (gaps : List Pad) : trim (closing gaps r) = closing gaps r := by
  rw [closing, trim_trimEnd, hr.trim_closers]
  rfl

theorem Rest.getLast_closing (hr : Rest r) : (closing gaps r).getLast? ≠ some Keyword.terminator := by
  by_cases hnil : r = []
  · intro hlast
    have hend : closing gaps r <+: closers gaps ++ r := trimEnd_prefix _
    have hmem := hend.subset (List.mem_of_getLast? hlast)
    rw [hnil, List.append_nil] at hmem
    rcases mem_closers hmem with hbrace | hblank
    · exact absurd hbrace (by decide)
    · exact absurd hblank (by decide)
  · rw [hr.closing_of_ne_nil hnil, List.getLast?_append_of_ne_nil _ hnil]
    exact hr.noTerminator

/-- The first pass takes the terminator and the blanks at the end of the line with it. -/
theorem Rest.afterBrace_eq (hr : Rest r) (gap : Pad) (gaps : List Pad) (terminated : Bool) :
    afterBrace (gap.val ++ (closers gaps ++ (r ++ terminators terminated))) = closing gaps r := by
  have hpad := trim_pad gap.property blank_nil (closers gaps ++ (r ++ terminators terminated))
  rw [List.append_nil] at hpad
  unfold afterBrace
  rw [hpad, ← List.append_assoc]
  cases terminated with
  | false =>
    have hend := trimEnd_trim (closing gaps r)
    rw [hr.trim_closing gaps] at hend
    rw [terminators, if_neg (by decide), List.append_nil, hr.trim_closers,
      Keyword.stripTerminator_eq_self hr.getLast_closing, hend]
  | true =>
    have hself : trim (closers gaps ++ r ++ [Keyword.terminator]) =
        closers gaps ++ r ++ [Keyword.terminator] := by
      refine trim_eq_self (fun c hc => ?_) fun c hc => ?_
      · rw [List.head?_append] at hc
        cases hhead : (closers gaps ++ r).head? with
        | none =>
          rw [hhead] at hc
          obtain rfl : Keyword.terminator = c := Option.some.inj hc
          decide
        | some d =>
          rw [hhead] at hc
          obtain rfl : d = c := Option.some.inj hc
          exact hr.head_closers hhead
      · rw [List.getLast?_concat] at hc
        obtain rfl : Keyword.terminator = c := Option.some.inj hc
        decide
    rw [terminators, if_pos rfl, hself, Keyword.stripTerminator_concat]
    rfl

theorem Rest.afterBrace_trimEnd (hr : Rest r) (gap : Pad) (gaps : List Pad) :
    afterBrace (trimEnd (gap.val ++ (closers gaps ++ r))) = closing gaps r := by
  have h := hr.afterBrace_eq gap gaps false
  rw [terminators, if_neg (by decide), List.append_nil] at h
  rw [← h]
  unfold afterBrace
  rw [trim_trimEnd]

/-- **One pass.** A closing brace comes off, and what follows is the text for the other gaps. -/
theorem peel_pass {line text : Text} (hline : trim line = '}' :: text)
    (htext : afterBrace text = closing gaps r) (blocks : Nat) :
    peel (blocks + 1) line =
      if closing gaps r = [] then ⟨1, none⟩
      else ⟨(peel blocks (closing gaps r)).closed + 1, (peel blocks (closing gaps r)).rest⟩ := by
  rw [peel, hline]
  simp only [htext, List.isEmpty_iff]

/-- **A run of closing braces is peeled as far as there are blocks to end**, and the rest of the line
after it if there are enough of them. -/
theorem Rest.peel_closing (hr : Rest r) (hne : closing gaps r ≠ []) (blocks : Nat) :
    peel blocks (closing gaps r) =
      ⟨min blocks gaps.length,
        if closing (gaps.drop blocks) r = [] then none else some (closing (gaps.drop blocks) r)⟩ := by
  induction gaps generalizing blocks with
  | nil =>
    rw [hr.closing_nil] at hne
    rw [List.drop_nil, hr.closing_nil, if_neg hne,
      peel_of_head_ne (by rw [hr.trimmed]; exact hr.notCloser),
      List.length_nil, Nat.min_zero]
  | cons gap gaps ih =>
    cases blocks with
    | zero => rw [List.drop_zero, if_neg hne, Nat.zero_min, peel]
    | succ blocks =>
      have hline := hr.trim_closing (gap :: gaps)
      rw [closing_cons] at hline
      rw [closing_cons, peel_pass hline (hr.afterBrace_trimEnd gap gaps), List.drop_succ_cons,
        List.length_cons]
      split_ifs with hnil hleft hleft
      · rw [(hr.closing_eq_nil_iff.mp hnil).1]
        simp
      · obtain ⟨rfl, rfl⟩ := hr.closing_eq_nil_iff.mp hnil
        exact absurd (by rw [List.drop_nil]; exact hnil) hleft
      · rw [ih hnil, if_pos hleft, Nat.succ_min_succ]
      · rw [ih hnil, if_neg hleft, Nat.succ_min_succ]

/-- The same for a whole line, with its terminator. -/
theorem Rest.peel_line (hr : Rest r) {line : Text} {terminated : Bool}
    (hline : trim line = closers (gap :: gaps) ++ (r ++ terminators terminated)) (blocks : Nat) :
    peel (blocks + 1) line = peel (blocks + 1) (closing (gap :: gaps) r) := by
  have hclosing := hr.trim_closing (gap :: gaps)
  rw [closing_cons] at hclosing
  rw [closers_cons] at hline
  rw [peel_pass hline (hr.afterBrace_eq gap gaps terminated), closing_cons,
    peel_pass hclosing (hr.afterBrace_trimEnd gap gaps)]

/-- A closing brace that ends no block is written as it stands. -/
theorem place_stray {n : Nesting} (hin : n.inLiteral = false) {raw : Text}
    (h : (trim raw).head? = some '}') :
    place n raw =
      { nesting := n, lines := [statement n (trim raw)], events := [.strayBrace (trim raw)] } := by
  obtain ⟨text, htext⟩ := List.head?_eq_some_iff.mp h
  have hcomment : Keyword.isComment (trim raw) = false := by
    rw [htext]
    rfl
  unfold place
  simp only
  rw [if_neg (by rw [htext]; simp), if_neg (by simp [hcomment]), if_neg (by simp [hin]), if_pos h]

/-- What a line with closing braces in front comes to once some blocks are ended. -/
theorem feed_of_peel {n : Nesting} (hin : n.inLiteral = false) {line : Text} {closed : Nat}
    {rest : Option Text} (h : peel n.openBlocks line = ⟨closed, rest⟩) :
    ended n line = closed ∧
      feed n line = rest.elim { nesting := n.closeBlocks closed } (place (n.closeBlocks closed)) := by
  have hended : ended n line = closed := by
    rw [ended, if_neg (by simp [hin]), h]
  have hrest : remainder n line = rest := by
    rw [remainder, if_neg (by simp [hin]), h]
  refine ⟨hended, ?_⟩
  cases rest with
  | none => rw [feed_of_remainder_none hrest, hended]; rfl
  | some text => rw [feed_of_remainder_some hrest, hended]; rfl

/-- Closing braces that are left when all blocks are ended. -/
theorem feed_stray {n : Nesting} (hin : n.inLiteral = false) (hblocks : n.openBlocks = n.level)
    {line rest : Text} (hpeel : peel n.openBlocks line = ⟨n.level, some rest⟩)
    (hbrace : (trim rest).head? = some '}') (hrest : afterBrace rest = closing gaps r) :
    ended n line = n.level ∧
      ∃ text seen, feed n line = { nesting := { n with level := 0, openBlocks := 0 }
                                   lines := [.plain 0 text]
                                   events := [.strayBrace seen] } ∧
        trimEnd text = closing gaps r := by
  have hall : n.closeBlocks n.level = { n with level := 0, openBlocks := 0 } := by
    simp [Nesting.closeBlocks, hblocks]
  have hplace := place_stray (n := n.closeBlocks n.level) hin hbrace
  rw [hall] at hplace
  obtain ⟨hended, hfeed⟩ := feed_of_peel hin hpeel
  refine ⟨hended, Keyword.stripTerminator (trim rest), trim rest, ?_, hrest⟩
  rw [hfeed, Option.elim_some, hall, hplace]
  rfl

/-- **Peeling a run of closing braces.** Outside literals, let a line be `k ≥ 1` closing braces with
blanks between them, a rest and at most one terminator. If `k` blocks are open, exactly `k` are ended, and
the line comes to nothing more if the rest is empty and else to what the rest comes to as a line of its
own. If fewer are open, all are ended. The other braces and the rest are written as one line at the left
edge, without the terminator and up to blanks at its end, with one warning. -/
theorem closing_run_peeled {n : Nesting} (hn : n.literalDepth = 0) (hblocks : n.openBlocks = n.level)
    (hne : gaps ≠ []) (hr : Rest r) {line : Text} {terminated : Bool}
    (hline : trim line = closers gaps ++ (r ++ terminators terminated)) :
    (gaps.length ≤ n.level →
      ended n line = gaps.length ∧
        feed n line =
          if r = [] then { nesting := n.closeBlocks gaps.length }
          else feed (n.closeBlocks gaps.length) r) ∧
    (n.level < gaps.length →
      ended n line = n.level ∧
        ∃ text seen, feed n line = { nesting := { n with level := 0, openBlocks := 0 }
                                     lines := [.plain 0 text]
                                     events := [.strayBrace seen] } ∧
          trimEnd text = trimEnd (closers (gaps.drop n.level) ++ r)) := by
  have hin : n.inLiteral = false := by simp [Nesting.inLiteral, hn]
  obtain ⟨gap, gaps, rfl⟩ := List.exists_cons_of_ne_nil hne
  cases hlevel : n.level with
  | zero =>
    -- nothing to end: the line is placed with its terminator
    have hnone : n.openBlocks = 0 := hblocks.trans hlevel
    have hbrace : (trim line).head? = some '}' := by rw [hline, closers_cons]; rfl
    have hafter : afterBrace line = closing (gap :: gaps) r := by
      have h := hr.afterBrace_eq ⟨[], blank_nil⟩ (gap :: gaps) terminated
      rwa [List.nil_append, ← hline, afterBrace, trim_trim] at h
    have hpeel : peel n.openBlocks line = ⟨n.level, some line⟩ := by rw [hnone, hlevel, peel]
    have hstray := feed_stray hin hblocks hpeel hbrace hafter
    rw [hlevel] at hstray
    exact ⟨fun hle => absurd hle (by simp), fun _ => hstray⟩
  | succ blocks =>
    have hclosing : closing (gap :: gaps) r ≠ [] := by rw [closing_cons]; simp
    have hpeel := hr.peel_line hline blocks
    rw [hr.peel_closing hclosing, ← hlevel, ← hblocks] at hpeel
    rw [← hlevel]
    refine ⟨fun hle => ?_, fun hlt => ?_⟩
    · rw [hblocks, Nat.min_eq_right hle, List.drop_eq_nil_of_le hle, hr.closing_nil, ← hblocks] at hpeel
      obtain ⟨hended, hfeed⟩ := feed_of_peel hin hpeel
      refine ⟨hended, hfeed.trans ?_⟩
      split_ifs with hnil
      · rfl
      · rw [feed_of_head_ne (by rw [hr.trimmed]; exact hr.notCloser)]
        rfl
    · have hleft : (gap :: gaps).drop n.level ≠ [] := by
        intro hnil
        have hle := List.drop_eq_nil_iff.mp hnil
        omega
      obtain ⟨gap', gaps', hdrop⟩ := List.exists_cons_of_ne_nil hleft
      rw [hblocks, Nat.min_eq_left hlt.le, hdrop, closing_cons, if_neg (by simp), ← closing_cons,
        ← hblocks] at hpeel
      rw [hdrop]
      have hafter : afterBrace (closing (gap' :: gaps') r) = closing (gap' :: gaps') r := by
        have h := hr.afterBrace_trimEnd ⟨[], blank_nil⟩ (gap' :: gaps')
        rwa [List.nil_append] at h
      refine feed_stray hin hblocks (by rw [hpeel, hblocks]) ?_ hafter
      rw [hr.trim_closing, closing_cons]
      rfl

/-- Three braces, the last one before `else`, with three blocks open and with one. The terminator is
dropped in either case, and with one block open two braces are written. -/
theorem closing_run_peeled_else :
    let gaps : List Pad := [⟨" ".toList, by decide⟩, ⟨[], by decide⟩, ⟨"  ".toList, by decide⟩]
    let r := "else \x7b x()".toList
    let line := "  \x7d \x7d\x7d  else \x7b x();".toList
    let three : Nesting := { level := 3, openBlocks := 3 }
    let one : Nesting := { level := 1, openBlocks := 1 }
    (Rest r ∧ trim line = closers gaps ++ (r ++ terminators true)) ∧
      (ended three line = 3 ∧ feed three line = feed {} r ∧
        feed {} r = { nesting := { level := 1, openBlocks := 1 },
                      lines := [.header 0 "else:".toList, .plain 1 "x()".toList] }) ∧
      ended one line = 1 ∧
        ∃ text seen,
          feed one line =
            { nesting := {}, lines := [.plain 0 text], events := [.strayBrace seen] } ∧
          trimEnd text = "\x7d\x7d  else \x7b x()".toList := by
  intro gaps r line three one
  have hr : Rest r := ⟨by decide, by decide, by decide⟩
  have hline : trim line = closers gaps ++ (r ++ terminators true) := by decide
  obtain ⟨hended, hfeed⟩ := (closing_run_peeled (n := three) rfl rfl (by decide) hr hline).1 (by decide)
  obtain ⟨hended', text, seen, hstray, htext⟩ :=
    (closing_run_peeled (n := one) rfl rfl (by decide) hr hline).2 (by decide)
  exact ⟨⟨hr, hline⟩, ⟨hended, hfeed.trans (if_neg (by decide)), by decide⟩, hended', text, seen, hstray,
    htext.trans (by decide)⟩

end Closing

end Layout

end Offside
