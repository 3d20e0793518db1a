import Offside.Layout.Feed
import Offside.Proofs.Lookback

/-!
# What placing a line can do

`Placed n raw p` lists once what may come of a line whose leading closing braces are gone: seven cases,
each with all that is known when it is reached. `placed_place` says that the list is complete, and
every invariant of the layout is proved from it.

A line that opens a block is cut at its first structural brace. `SplitsAt text before after` says that
`text` is so cut; the brace is then an opening one, and the text before it does not end in a colon,
because a brace after a colon starts a data literal.

`feed` first ends blocks: `ended` is the number of closing braces that it takes off the front of the
line, and `remainder` is the text that is left to be placed (`feed_cases`). Whatever is read off a line
without regard to the blanks at its ends and its terminator loses nothing but these braces
(`PeelView.line`).
-/

namespace Offside

namespace Brace

open Text

/-- The only character that can be structural is an opening brace outside strings, and it is so
because of what lies before it. -/
theorem step_structural {past : Text} {mode : Mode} {c : Char} {rest : Text}
    (h : (step past mode c rest).1 = some .structural) :
    c = '{' ∧ openingRole past = .structural := by
  cases mode with
  | code =>
    simp only [step] at h
    split_ifs at h with h1 h2 h3 h4 h5
    · exact ⟨h4, Option.some.inj h⟩
    · simp at h
  | plain q =>
    simp only [step] at h
    split_ifs at h
    simp at h
  | template q =>
    simp only [step] at h
    split_ifs at h <;> simp at h
  | field q depth =>
    cases depth <;> simp only [step] at h <;> split_ifs at h <;> simp at h

theorem scan_structural {past : Text} {mode : Mode} {line : Text} {i : Nat}
    (h : (scan past mode line)[i]? = some (some .structural)) :
    ∃ before after, line = before ++ '{' :: after ∧ before.length = i ∧
      openingRole (before.reverse ++ past) = .structural := by
  induction line generalizing past mode i with
  | nil => simp at h
  | cons c rest ih =>
    rw [scan_cons] at h
    cases i with
    | zero =>
      rw [List.getElem?_cons_zero, Option.some.injEq] at h
      obtain ⟨rfl, hrole⟩ := step_structural h
      exact ⟨[], rest, rfl, rfl, hrole⟩
    | succ i =>
      rw [List.getElem?_cons_succ] at h
      obtain ⟨before, after, hline, hlen, hrole⟩ := ih h
      refine ⟨c :: before, after, by rw [hline]; rfl, by rw [List.length_cons, hlen], ?_⟩
      simpa using hrole

/-- The text is cut at its first structural brace. -/
structure SplitsAt (text before after : Text) : Prop where
  eq : text = before ++ '{' :: after
  first : structuralAt? text = some before.length

theorem getElem_structuralAt {text : Text} {i : Nat} (h : structuralAt? text = some i) :
    (roles text)[i]? = some (some .structural) := by
  obtain ⟨hi, hrole, -⟩ := List.findIdx?_eq_some_iff_getElem.mp h
  rw [List.getElem?_eq_getElem hi]
  exact congrArg some (by simpa using hrole)

theorem exists_splitsAt {text : Text} {i : Nat} (h : structuralAt? text = some i) :
    ∃ before after, SplitsAt text before after ∧ before.length = i := by
  obtain ⟨before, after, htext, hlen, -⟩ := scan_structural (getElem_structuralAt h)
  exact ⟨before, after, ⟨htext, by rw [h, hlen]⟩, hlen⟩

theorem SplitsAt.take {text before after : Text} (h : SplitsAt text before after) :
    text.take before.length = before := by rw [h.eq, List.take_left]

theorem SplitsAt.drop {text before after : Text} (h : SplitsAt text before after) :
    text.drop (before.length + 1) = after := by
  rw [h.eq, ← List.drop_drop, List.drop_left]
  rfl

theorem SplitsAt.unique {text before after before' after' : Text} (h : SplitsAt text before after)
    (h' : SplitsAt text before' after') : before = before' ∧ after = after' := by
  have hlen : before.length = before'.length := by
    rw [← Option.some.injEq, ← h.first, ← h'.first]
  exact ⟨by rw [← h.take, ← h'.take, hlen], by rw [← h.drop, ← h'.drop, hlen]⟩

theorem openingRole_colon {b : Text} (hb : Blank b) (u : Text) :
    openingRole (b ++ ':' :: u) = .dataLiteral := by
  have htrim : trimStart (b ++ ':' :: u) = ':' :: u := by
    rw [trimStart_blank_append hb]
    exact trimStart_eq_self fun c hc => by
      rw [List.head?_cons, Option.some.injEq] at hc
      exact hc ▸ by decide
  unfold openingRole
  rw [htrim]
  simp [literalLeads, List.isPrefixOf]

/-- A brace after a colon starts a data literal, so no head of a block ends in a colon. -/
theorem SplitsAt.getLast_ne_colon {text before after : Text} (h : SplitsAt text before after) :
    (trim before).getLast? ≠ some ':' := by
  obtain ⟨before', after', htext, hlen, hrole⟩ := scan_structural (getElem_structuralAt h.first)
  have hbefore : before' = before := by
    have htake := h.take
    rwa [htext, ← hlen, List.take_left] at htake
  subst hbefore
  intro hcolon
  obtain ⟨a, b, -, hb, hab⟩ := exists_trim before'
  have hrev : before'.reverse = b.reverse ++ ':' :: ((trim before').dropLast.reverse ++ a.reverse) := by
    conv_lhs => rw [hab, ← List.dropLast_append_getLast? _ hcolon]
    simp
  rw [List.append_nil, hrev, openingRole_colon hb.reverse] at hrole
  exact absurd hrole (by decide)

end Brace

namespace Layout

open Text Brace

/-- Neither blank nor a comment. -/
def IsCode (text : Text) : Prop := text ≠ [] ∧ Keyword.isComment text = false

/-- The lines of a body that stands on the line of its header. -/
def Body.lines (level : Nat) : Body → List OutLine
  | later => []
  | started text => [.plain level text]
  | whole text => [.plain level text]

/-- Whether the block ends on the line of its header. -/
def Body.ends : Body → Bool
  | later => false
  | started _ => false
  | whole _ => true

/-- The nesting after a header and its body. -/
def Body.after (n : Nesting) (body : Body) : Nesting := if body.ends then n else n.openBlock

/-- All that may come of a line that ends no block. -/
inductive Placed (n : Nesting) (raw : Text) : Placement → Prop where
  | blank (h : trim raw = []) : Placed n raw { nesting := n, lines := [.blank] }
  | comment (h : Keyword.isComment (trim raw) = true) :
    Placed n raw { nesting := n, lines := [.plain n.level (trim raw)] }
  | continuation (hcode : IsCode (trim raw)) (hin : n.inLiteral = true) :
    Placed n raw
      { nesting := n.adjustLiteral (netDepth (trim raw))
        lines := [.continuation (indentation raw - n.literalBase)
          (Keyword.stripTerminator (trim raw))] }
  | stray (hin : n.inLiteral = false) (hbrace : (trim raw).head? = some '}') :
    Placed n raw
      { nesting := n, lines := [statement n (trim raw)], events := [.strayBrace (trim raw)] }
  | literal (hcode : IsCode (trim raw)) (hin : n.inLiteral = false)
      (hbrace : (trim raw).head? ≠ some '}') (hlit : startsLiteral (trim raw) = true) :
    Placed n raw
      { nesting := n.enterLiteral (indentation raw) (netDepth (trim raw))
        lines := [statement n (trim raw)]
        events := [.literalEntered
          (n.enterLiteral (indentation raw) (netDepth (trim raw))).literalDepth] }
  | block (hcode : IsCode (trim raw)) (hin : n.inLiteral = false)
      (hbrace : (trim raw).head? ≠ some '}') (hlit : startsLiteral (trim raw) = false)
      (before after : Text) (split : SplitsAt (trim raw) before after)
      (hhead : Keyword.isHeader (trim before) = true) :
    Placed n raw
      { nesting := (Body.ofTail (trim after)).after n
        lines := .header n.level (trim before ++ [':']) ::
          (Body.ofTail (trim after)).lines (n.level + 1) }
  | statement (hcode : IsCode (trim raw)) (hin : n.inLiteral = false)
      (hbrace : (trim raw).head? ≠ some '}') (hlit : startsLiteral (trim raw) = false)
      (hhead : ∀ before after, SplitsAt (trim raw) before after →
        Keyword.isHeader (trim before) = false) :
    Placed n raw { nesting := n, lines := [statement n (trim raw)] }

theorem placeBlock_header {n : Nesting} {text before after : Text}
    (split : SplitsAt text before after) (hhead : Keyword.isHeader (trim before) = true) :
    placeBlock n text before.length =
      { nesting := (Body.ofTail (trim after)).after n
        lines := .header n.level (trim before ++ [':']) ::
          (Body.ofTail (trim after)).lines (n.level + 1) } := by
  have hcolon : withColon (trim before) = trim before ++ [':'] := if_neg split.getLast_ne_colon
  unfold placeBlock
  rw [split.take, split.drop, if_pos hhead, hcolon]
  cases Body.ofTail (trim after) <;> rfl

theorem placeBlock_other {n : Nesting} {text before after : Text}
    (split : SplitsAt text before after) (hhead : Keyword.isHeader (trim before) = false) :
    placeBlock n text before.length = { nesting := n, lines := [statement n text] } := by
  unfold placeBlock
  rw [split.take, if_neg (by simp [hhead])]

theorem placed_place (n : Nesting) (raw : Text) : Placed n raw (place n raw) := by
  unfold place
  simp only
  split_ifs with hempty hcomment hin hbrace hlit
  · exact .blank (List.isEmpty_iff.mp hempty)
  · exact .comment hcomment
  · exact .continuation ⟨fun h => hempty (by simp [h]), by simpa using hcomment⟩ hin
  · exact .stray (by simpa using hin) hbrace
  · exact .literal ⟨fun h => hempty (by simp [h]), by simpa using hcomment⟩ (by simpa using hin)
      hbrace hlit
  · have hcode : IsCode (trim raw) := ⟨fun h => hempty (by simp [h]), by simpa using hcomment⟩
    have hin' : n.inLiteral = false := by simpa using hin
    have hlit' : startsLiteral (trim raw) = false := by simpa using hlit
    cases hs : structuralAt? (trim raw) with
    | none =>
      refine .statement hcode hin' hbrace hlit' fun before after split => ?_
      rw [split.first] at hs
      exact absurd hs (by simp)
    | some brace =>
      obtain ⟨before, after, split, rfl⟩ := exists_splitsAt hs
      cases hhead : Keyword.isHeader (trim before) with
      | true =>
        simp only
        rw [placeBlock_header split hhead]
        exact .block hcode hin' hbrace hlit' before after split hhead
      | false =>
        simp only
        rw [placeBlock_other split hhead]
        refine .statement hcode hin' hbrace hlit' fun before' after' split' => ?_
        rw [← (split.unique split').1, hhead]

/-- A line of code outside literals that starts none opens a block or is a statement. -/
theorem place_code {n : Nesting} {raw : Text} (hcode : IsCode (trim raw)) (hin : n.inLiteral = false)
    (hbrace : (trim raw).head? ≠ some '}') (hlit : startsLiteral (trim raw) = false) :
    (∃ before after, SplitsAt (trim raw) before after ∧ Keyword.isHeader (trim before) = true ∧
      place n raw =
        { nesting := (Body.ofTail (trim after)).after n
          lines := .header n.level (trim before ++ [':']) ::
            (Body.ofTail (trim after)).lines (n.level + 1) }) ∨
    (∀ before after, SplitsAt (trim raw) before after → Keyword.isHeader (trim before) = false) ∧
      place n raw = { nesting := n, lines := [statement n (trim raw)] } := by
  have hplaced := placed_place n raw
  generalize place n raw = p at hplaced
  cases hplaced with
  | blank h => exact absurd h hcode.1
  | comment h => rw [hcode.2] at h; exact absurd h (by decide)
  | continuation _ h => rw [hin] at h; exact absurd h (by decide)
  | stray _ h => exact absurd h hbrace
  | literal _ _ _ h => rw [hlit] at h; exact absurd h (by decide)
  | block _ _ _ _ before after split hhead => exact Or.inl ⟨before, after, split, hhead, rfl⟩
  | statement _ _ _ _ hhead => exact Or.inr ⟨hhead, rfl⟩

/-! ### Ending blocks first -/

/-- How many blocks a line ends before anything of it is placed. -/
def ended (n : Nesting) (raw : Text) : Nat :=
  if n.inLiteral then 0 else (peel n.openBlocks raw).closed

/-- What is left of a line to be placed. -/
def remainder (n : Nesting) (raw : Text) : Option Text :=
  if n.inLiteral then some raw else (peel n.openBlocks raw).rest

theorem feed_of_remainder_none {n : Nesting} {raw : Text} (h : remainder n raw = none) :
    feed n raw = { nesting := n.closeBlocks (ended n raw) } := by
  unfold remainder at h
  unfold feed ended
  split_ifs at h ⊢ with hin
  simp only [h]

theorem feed_of_remainder_some {n : Nesting} {raw rest : Text} (h : remainder n raw = some rest) :
    feed n raw = place (n.closeBlocks (ended n raw)) rest := by
  unfold remainder at h
  unfold feed ended
  split_ifs at h ⊢ with hin
  · rw [Option.some.inj h]
    rfl
  · simp only [h]

/-- What feeding a line can do: it ends blocks and that is all, or something is left and placed. -/
theorem feed_cases (n : Nesting) (raw : Text) :
    feed n raw = { nesting := n.closeBlocks (ended n raw) } ∨
      ∃ rest, Placed (n.closeBlocks (ended n raw)) rest (feed n raw) := by
  cases hrest : remainder n raw with
  | none => exact Or.inl (feed_of_remainder_none hrest)
  | some rest =>
    rw [feed_of_remainder_some hrest]
    exact Or.inr ⟨rest, placed_place _ rest⟩

/-- A view of texts that sees neither blanks at the ends nor a terminator, and of a closing brace at the
front sees only that it is there. -/
structure PeelView {α : Type} (view : Text → List α) (closer : α) : Prop where
  nil : view [] = []
  trim (t : Text) : view (Text.trim t) = view t
  trimEnd (t : Text) : view (Text.trimEnd t) = view t
  stripTerminator (t : Text) : view (Keyword.stripTerminator t) = view t
  closing (t : Text) : view ('}' :: t) = closer :: view t

section PeelView

variable {α : Type} {view : Text → List α} {closer : α}

theorem PeelView.afterBrace (h : PeelView view closer) (t : Text) :
    view (Layout.afterBrace t) = view t := by
  unfold Layout.afterBrace
  rw [h.trimEnd, h.stripTerminator, h.trim]

/-- **Peeling takes closing braces and nothing else.** -/
theorem PeelView.peel (h : PeelView view closer) (blocks : Nat) (raw : Text) :
    view raw = List.replicate (Layout.peel blocks raw).closed closer ++
      view ((Layout.peel blocks raw).rest.getD []) := by
  fun_induction Layout.peel blocks raw with
  | case1 raw => rfl
  | case2 blocks raw text htrim hempty =>
    have hrest : view text = [] := by
      rw [← h.afterBrace, List.isEmpty_iff.mp hempty, h.nil]
    rw [← h.trim raw, htrim, h.closing, hrest, Option.getD_none, h.nil]
    rfl
  | case3 blocks raw text htrim hempty more ih =>
    rw [← h.trim raw, htrim, h.closing, ← h.afterBrace, ih]
    rfl
  | case4 => rfl

/-- A line is the closing braces that end blocks and what is left to be placed. -/
theorem PeelView.line (h : PeelView view closer) (n : Nesting) (raw : Text) :
    view raw = List.replicate (ended n raw) closer ++ view ((remainder n raw).getD []) := by
  unfold ended remainder
  split_ifs
  · rfl
  · exact h.peel n.openBlocks raw

end PeelView

theorem peel_of_head_ne {raw : Text} (h : (trim raw).head? ≠ some '}') (blocks : Nat) :
    peel blocks raw = ⟨0, some raw⟩ := by
  fun_cases peel blocks raw with
  | case1 => rfl
  | case2 blocks raw text htrim => exact absurd (by rw [htrim]; rfl) h
  | case3 blocks raw text htrim => exact absurd (by rw [htrim]; rfl) h
  | case4 => rfl

/-- A line that does not start with a closing brace is placed as it is. -/
theorem feed_of_head_ne {n : Nesting} {raw : Text} (h : (trim raw).head? ≠ some '}') :
    feed n raw = place n raw := by
  unfold feed
  split_ifs
  · rfl
  · rw [peel_of_head_ne h]
    rfl

/-- The line opens a block, be it one that ends on the same line. -/
def Opens (n : Nesting) (raw : Text) : Prop := ∃ level text, .header level text ∈ (feed n raw).lines

instance (n : Nesting) (raw : Text) : Decidable (Opens n raw) :=
  decidable_of_iff (∃ line ∈ (feed n raw).lines, line matches .header _ _) (by
    constructor
    · rintro ⟨line, hmem, hline⟩
      cases line with
      | header level text => exact ⟨level, text, hmem⟩
      | blank | plain | continuation => exact absurd hline (by simp)
    · rintro ⟨level, text, hmem⟩
      exact ⟨_, hmem, rfl⟩)

theorem Placed.of_header {n : Nesting} {raw : Text} {p : Placement} (h : Placed n raw p)
    {level : Nat} {text : Text} (hmem : .header level text ∈ p.lines) :
    ∃ before after, IsCode (trim raw) ∧ SplitsAt (trim raw) before after ∧
      Keyword.isHeader (trim before) = true ∧
      p = { nesting := (Body.ofTail (trim after)).after n
            lines := .header n.level (trim before ++ [':']) ::
              (Body.ofTail (trim after)).lines (n.level + 1) } := by
  cases h with
  | block hcode _ _ _ before after split hhead => exact ⟨before, after, hcode, split, hhead, rfl⟩
  | blank | comment | continuation | stray | literal | statement => simp [Layout.statement] at hmem

/-- A line that opens a block has a head and a tail around its first structural brace. -/
theorem Opens.exists_split {n : Nesting} {raw : Text} (h : Opens n raw) :
    ∃ rest before after, remainder n raw = some rest ∧ IsCode (trim rest) ∧
      SplitsAt (trim rest) before after ∧ Keyword.isHeader (trim before) = true ∧
      feed n raw =
        { nesting := (Body.ofTail (trim after)).after (n.closeBlocks (ended n raw))
          lines := .header (n.closeBlocks (ended n raw)).level (trim before ++ [':']) ::
            (Body.ofTail (trim after)).lines ((n.closeBlocks (ended n raw)).level + 1) } := by
  obtain ⟨level, text, hmem⟩ := h
  cases hrest : remainder n raw with
  | none =>
    rw [feed_of_remainder_none hrest] at hmem
    exact absurd hmem (by simp)
  | some rest =>
    rw [feed_of_remainder_some hrest] at hmem ⊢
    obtain ⟨before, after, hcode, split, hhead, hp⟩ := (placed_place _ rest).of_header hmem
    exact ⟨rest, before, after, rfl, hcode, split, hhead, hp⟩

end Layout

end Offside
