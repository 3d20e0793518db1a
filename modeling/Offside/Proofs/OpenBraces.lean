import Mathlib.Data.List.Infix
import Offside.Proofs.Literal

/-!
# Braces left open

`leftOpen opens` matches the braces of a line: a closing brace closes the brace opened last, and only the
roles that `opens` accepts count as opening. Two readings of a line differ in nothing but this. For the
nesting of braces every opening brace counts (`unmatched`); the search for an open data literal counts
data literals alone, and what it reports is the outermost of these (`openLiteralAt_eq`). The second reading
leaves no brace open that the first one closes (`leftOpen_sublist`), but it may close more: where a
structural brace is closed, a data literal pays for it.

So a literal that a line leaves open is followed over the next lines if it comes before all structural
braces and the closing braces after it are paid for by data literals (`open_literal_tracked`).
-/

namespace Offside

/-- Whether a brace opens something. -/
def Role.isOpening (r : Role) : Bool := r == structural || r == dataLiteral

/-- Whether a brace opens a data literal. -/
def Role.isLiteral (r : Role) : Bool := r == dataLiteral

namespace Brace

open Text

/-- The braces open after one more character, the one opened last first. -/
def turn (opens : Role → Bool) (pos : Nat) (stack : List Nat) : Option Role → List Nat
  | none => stack
  | some .closing => stack.tail
  | some r => if opens r then pos :: stack else stack

/-- The positions of the braces that are left open, over the roles from position `pos` on. -/
def leftOpen (opens : Role → Bool) (pos : Nat) (stack : List Nat) : List (Option Role) → List Nat
  | [] => stack
  | r :: more => leftOpen opens (pos + 1) (turn opens pos stack r) more

/-- The positions of the braces of a line that no brace closes. -/
def unmatched (line : Text) : List Nat := leftOpen Role.isOpening 0 [] (roles line)

section LeftOpen

variable {opens : Role → Bool} {pos : Nat} {stack : List Nat} {rs : List (Option Role)}

@[simp] theorem leftOpen_nil : leftOpen opens pos stack [] = stack := rfl

@[simp] theorem leftOpen_cons (r : Option Role) (more : List (Option Role)) :
    leftOpen opens pos stack (r :: more) = leftOpen opens (pos + 1) (turn opens pos stack r) more :=
  rfl

theorem leftOpen_append (ss : List (Option Role)) :
    leftOpen opens pos stack (rs ++ ss) =
      leftOpen opens (pos + rs.length) (leftOpen opens pos stack rs) ss := by
  induction rs generalizing pos stack with
  | nil => rfl
  | cons r rs ih =>
    rw [List.cons_append, leftOpen_cons, ih, leftOpen_cons, List.length_cons, Nat.add_right_comm,
      Nat.add_assoc]

/-- What one character does: nothing, or it closes the last brace, or it opens one. -/
theorem turn_cases (opens : Role → Bool) (pos : Nat) (stack : List Nat) (r : Option Role) :
    turn opens pos stack r = stack ∨ turn opens pos stack r = stack.tail ∨
      turn opens pos stack r = pos :: stack ∧ ∃ role, r = some role ∧ opens role = true := by
  unfold turn
  split
  · exact Or.inl rfl
  · exact Or.inr (Or.inl rfl)
  · split_ifs with hopens
    · exact Or.inr (Or.inr ⟨rfl, _, rfl, hopens⟩)
    · exact Or.inl rfl

/-- A brace left open was open before or is one of those read. -/
theorem mem_leftOpen {j : Nat} (h : j ∈ leftOpen opens pos stack rs) :
    j ∈ stack ∨ ∃ role, (pos ≤ j ∧ rs[j - pos]? = some (some role)) ∧ opens role = true := by
  induction rs generalizing pos stack with
  | nil => exact Or.inl h
  | cons r rs ih =>
    rcases ih h with hstack | ⟨role, hrole, hopens⟩
    · rcases turn_cases opens pos stack r with heq | heq | ⟨heq, role, rfl, hopens⟩
      · exact Or.inl (heq ▸ hstack)
      · rw [heq] at hstack
        exact Or.inl (List.mem_of_mem_tail hstack)
      · rw [heq] at hstack
        rcases List.mem_cons.mp hstack with rfl | hstack
        · exact Or.inr ⟨role, ⟨le_rfl, by rw [Nat.sub_self]; rfl⟩, hopens⟩
        · exact Or.inl hstack
    · exact Or.inr ⟨role, getElem_shift hrole, hopens⟩

/-- Braces are closed from the last one on, so what was open before stays open up to some point. -/
theorem exists_leftOpen (opens : Role → Bool) (pos : Nat) (stack : List Nat) (rs : List (Option Role)) :
    ∃ above k, leftOpen opens pos stack rs = above ++ stack.drop k ∧ ∀ j ∈ above, pos ≤ j := by
  induction rs generalizing pos stack with
  | nil => exact ⟨[], 0, rfl, by simp⟩
  | cons r rs ih =>
    obtain ⟨above, k, heq, habove⟩ := ih (pos + 1) (turn opens pos stack r)
    have hlow : ∀ j ∈ above, pos ≤ j := fun j hj => by
      have := habove j hj
      omega
    rcases turn_cases opens pos stack r with hturn | hturn | ⟨hturn, -⟩
    · exact ⟨above, k, by rw [leftOpen_cons, heq, hturn], hlow⟩
    · exact ⟨above, k + 1, by rw [leftOpen_cons, heq, hturn, List.drop_tail], hlow⟩
    · cases k with
      | zero =>
        refine ⟨above ++ [pos], 0, by rw [leftOpen_cons, heq, hturn]; simp, fun j hj => ?_⟩
        rcases List.mem_append.mp hj with hj | hj
        · exact hlow j hj
        · exact (List.mem_singleton.mp hj).ge
      | succ k => exact ⟨above, k, by rw [leftOpen_cons, heq, hturn]; rfl, hlow⟩

/-- A brace that stays open keeps those open that were open before it. -/
theorem subset_leftOpen {i : Nat} (hstack : ∀ j ∈ stack, j < i)
    (h : i ∈ leftOpen opens (i + 1) (i :: stack) rs) :
    stack ⊆ leftOpen opens (i + 1) (i :: stack) rs := by
  obtain ⟨above, k, heq, habove⟩ := exists_leftOpen opens (i + 1) (i :: stack) rs
  rw [heq] at h ⊢
  cases k with
  | zero =>
    intro j hj
    exact List.mem_append_right _ (List.mem_cons_of_mem _ hj)
  | succ k =>
    rcases List.mem_append.mp h with habs | habs
    · have := habove i habs
      omega
    · have := hstack i (List.mem_of_mem_drop habs)
      omega

/-- Counting fewer roles as opening leaves fewer braces open. -/
theorem leftOpen_sublist {stack' : List Nat} (h : stack.Sublist stack') :
    (leftOpen Role.isLiteral pos stack rs).Sublist (leftOpen Role.isOpening pos stack' rs) := by
  induction rs generalizing pos stack stack' with
  | nil => exact h
  | cons r rs ih =>
    refine ih ?_
    rcases r with _ | _ | _ | _ | _
    · exact h
    · exact h.cons pos
    · exact h.cons_cons pos
    · exact h.tail
    · exact h

/-- Without structural braces there is nothing to tell the two readings apart. -/
theorem leftOpen_of_no_structural (h : some Role.structural ∉ rs) :
    leftOpen Role.isLiteral pos stack rs = leftOpen Role.isOpening pos stack rs := by
  induction rs generalizing pos stack with
  | nil => rfl
  | cons r rs ih =>
    have hturn : turn Role.isLiteral pos stack r = turn Role.isOpening pos stack r := by
      rcases r with _ | _ | _ | _ | _
      · rfl
      · exact absurd List.mem_cons_self h
      · rfl
      · rfl
      · rfl
    rw [leftOpen_cons, leftOpen_cons, hturn]
    exact ih fun hmem => h (List.mem_cons_of_mem _ hmem)

/-- Braces stay open as long as those closed after them are paid for by data literals. -/
theorem leftOpen_keeps (extra : List Nat)
    (h : ∀ front, front <+: rs →
      front.count (some .closing) ≤ front.count (some .dataLiteral) + extra.length) :
    ∃ above, leftOpen Role.isLiteral pos (extra ++ stack) rs = above ++ stack := by
  induction rs generalizing pos extra with
  | nil => exact ⟨extra, rfl⟩
  | cons r rs ih =>
    have hcons : ∀ front, front <+: rs → (r :: front).count (some .closing) ≤
        (r :: front).count (some .dataLiteral) + extra.length :=
      fun front hfront => h (r :: front) (List.cons_prefix_cons.mpr ⟨rfl, hfront⟩)
    rcases r with _ | _ | _ | _ | _
    · exact ih extra fun front hfront => by simpa using hcons front hfront
    · exact ih extra fun front hfront => by simpa using hcons front hfront
    · refine ih (pos :: extra) fun front hfront => ?_
      have hle : front.count (some .closing) ≤
          front.count (some .dataLiteral) + 1 + extra.length := by simpa using hcons front hfront
      rw [List.length_cons]
      omega
    · cases extra with
      | nil => exact absurd (h [some .closing] ⟨rs, rfl⟩) (by decide)
      | cons e extra =>
        refine ih extra fun front hfront => ?_
        have hle : front.count (some .closing) + 1 ≤
            front.count (some .dataLiteral) + (extra.length + 1) := by simpa using hcons front hfront
        omega
    · exact ih extra fun front hfront => by simpa using hcons front hfront

/-- The search for an open literal keeps the outermost brace of the stack and the number of the others. -/
theorem openLiteral_eq (pos : Nat) (stack : List Nat) (rs : List (Option Role)) :
    openLiteral pos (stack.getLast?.map fun i => (i, stack.length - 1)) rs =
      (leftOpen Role.isLiteral pos stack rs).getLast? := by
  induction rs generalizing pos stack with
  | nil =>
    rw [leftOpen_nil]
    cases stack.getLast? <;> rfl
  | cons r rs ih =>
    rw [leftOpen_cons, ← ih]
    rcases stack with _ | ⟨x, _ | ⟨y, stack⟩⟩ <;> rcases r with _ | _ | _ | _ | _ <;> rfl

end LeftOpen

/-- **The literal found open is the outermost of those that are left open**, counting data literals. -/
theorem openLiteralAt_eq (line : Text) :
    openLiteralAt? line = (leftOpen Role.isLiteral 0 [] (roles line)).getLast? :=
  openLiteral_eq 0 [] (roles line)

/-- The first data literal among the braces of a line that stay unmatched. -/
structure LeavesOpen (line : Text) (i : Nat) : Prop where
  mem : i ∈ unmatched line
  literal : (roles line)[i]? = some (some .dataLiteral)
  first : ∀ j ∈ unmatched line, (roles line)[j]? = some (some .dataLiteral) → i ≤ j

section LeavesOpen

variable {line : Text} {i : Nat}

/-- A literal after a structural brace is not taken for the start of one. -/
theorem LeavesOpen.startsLiteral_eq_false (h : LeavesOpen line i) {j : Nat} (hj : j < i)
    (hstructural : (roles line)[j]? = some (some .structural)) : startsLiteral line = false := by
  unfold startsLiteral
  cases hfound : openLiteralAt? line with
  | none => rfl
  | some found =>
    -- what is found open is unmatched, so it is no earlier than `i`
    have hmem : found ∈ unmatched line := by
      rw [openLiteralAt_eq] at hfound
      exact (leftOpen_sublist (List.Sublist.refl [])).subset (List.mem_of_getLast? hfound)
    have hle := h.first found hmem (getElem_openLiteralAt hfound)
    obtain ⟨hj', hrole⟩ := List.getElem?_eq_some_iff.mp hstructural
    cases hs : structuralAt? line with
    | none =>
      have hnone := List.findIdx?_eq_none_iff.mp hs _ (List.getElem_mem hj')
      rw [hrole] at hnone
      exact absurd hnone (by decide)
    | some brace =>
      have hbrace : brace ≤ j := by
        obtain ⟨_, _, hbefore⟩ := List.findIdx?_eq_some_iff_getElem.mp hs
        by_contra hlt
        have hnot := hbefore j (by omega)
        rw [hrole] at hnot
        exact absurd hnot (by decide)
      exact decide_eq_false (by omega)

theorem leftOpen_roles {opens : Role → Bool} (hopens : opens .dataLiteral = true)
    (hlit : (roles line)[i]? = some (some .dataLiteral)) :
    leftOpen opens 0 [] (roles line) = leftOpen opens (i + 1)
      (i :: leftOpen opens 0 [] ((roles line).take i)) ((roles line).drop (i + 1)) := by
  obtain ⟨hi, hrole⟩ := List.getElem?_eq_some_iff.mp hlit
  have hlen : ((roles line).take i).length = i := List.length_take_of_le hi.le
  conv_lhs => rw [← List.take_append_drop i (roles line), List.drop_eq_getElem_cons hi, hrole,
    leftOpen_append, hlen, leftOpen_cons, Nat.zero_add]
  simp only [turn, hopens, if_true]

/-- Before the first literal left open all is closed, if no structural brace comes before it. -/
theorem LeavesOpen.closed_before (h : LeavesOpen line i)
    (hbefore : ∀ j < i, (roles line)[j]? ≠ some (some .structural)) :
    leftOpen Role.isOpening 0 [] ((roles line).take i) = [] := by
  have hplace : ∀ j ∈ leftOpen Role.isOpening 0 [] ((roles line).take i), j < i ∧
      (roles line)[j]? = some (some .dataLiteral) := by
    intro j hj
    rcases mem_leftOpen hj with hnil | ⟨role, ⟨-, hrole⟩, hopens⟩
    · exact absurd hnil (by simp)
    · rw [Nat.sub_zero, List.getElem?_take] at hrole
      split_ifs at hrole with hlt
      refine ⟨hlt, ?_⟩
      cases role with
      | structural => exact absurd hrole (hbefore j hlt)
      | dataLiteral => exact hrole
      | closing | inert => exact absurd hopens (by decide)
  have hsplit := leftOpen_roles (show Role.isOpening .dataLiteral = true from rfl) h.literal
  refine List.eq_nil_iff_forall_not_mem.mpr fun j hj => ?_
  -- a brace open before `i` stays open with it, and it would be an earlier literal
  have hmem := h.mem
  unfold unmatched at hmem
  rw [hsplit] at hmem
  have hkept : j ∈ unmatched line := by
    unfold unmatched
    rw [hsplit]
    exact subset_leftOpen (fun k hk => (hplace k hk).1) hmem hj
  have hle := h.first j hkept (hplace j hj).2
  have hlt := (hplace j hj).1
  omega

/-- A literal before all structural braces, whose braces are not used up by others, is found. -/
theorem LeavesOpen.startsLiteral_eq_true (h : LeavesOpen line i)
    (hbefore : ∀ j < i, (roles line)[j]? ≠ some (some .structural))
    (hpaid : ∀ front, front <+: (roles line).drop (i + 1) →
      front.count (some .closing) ≤ front.count (some .dataLiteral)) :
    startsLiteral line = true := by
  have hnone : some Role.structural ∉ (roles line).take i := by
    intro hmem
    obtain ⟨j, hj, heq⟩ := List.mem_iff_getElem.mp hmem
    have hj' : j < i ∧ j < (roles line).length := by
      rw [List.length_take] at hj
      omega
    rw [List.getElem_take] at heq
    exact hbefore j hj'.1 (List.getElem?_eq_some_iff.mpr ⟨hj'.2, heq⟩)
  have hkeeps : ∃ above, leftOpen Role.isLiteral (i + 1) ([] ++ [i]) ((roles line).drop (i + 1)) =
      above ++ [i] :=
    leftOpen_keeps [] fun front hfront => by simpa using hpaid front hfront
  have hfound : openLiteralAt? line = some i := by
    obtain ⟨above, habove⟩ := hkeeps
    rw [List.nil_append] at habove
    rw [openLiteralAt_eq, leftOpen_roles rfl h.literal, leftOpen_of_no_structural hnone,
      h.closed_before hbefore, habove, List.getLast?_append]
    rfl
  exact startsLiteral_of_openLiteralAt hfound hbefore

end LeavesOpen

end Brace

namespace Layout

open Text Brace

/-- **The lines of a literal are copied, and none of them ends a block**, up to the line that ends the
literal. -/
theorem laid_inLiteral {n : Nesting} {lines : List Text}
    (h : ∀ k < lines.length, 0 < (after n (lines.take k)).literalDepth) :
    laid n lines = lines.map (literalLine n) ∧ (after n lines).openBlocks = n.openBlocks ∧
      (after n lines).level = n.level := by
  induction lines generalizing n with
  | nil => exact ⟨rfl, rfl, rfl⟩
  | cons line lines ih =>
    have hin : n.inLiteral = true := decide_eq_true (h 0 (by simp))
    have hfeed := feed_inLiteral hin line
    obtain ⟨hlaid, hblocks, hlevel⟩ := ih (n := (feed n line).nesting) fun k hk =>
      h (k + 1) (by simpa using hk)
    have hsame : lines.map (literalLine (feed n line).nesting) = lines.map (literalLine n) := by
      cases lines with
      | nil => rfl
      | cons next later =>
        -- the literal is still open, so its column is still known
        have hopen : 0 < (feed n line).nesting.literalDepth := h 1 (by simp)
        have hbase : (feed n line).nesting.literalBase = n.literalBase := by
          rw [hfeed] at hopen ⊢
          exact if_neg (by simpa [Nesting.adjustLiteral] using hopen.ne')
        refine List.map_congr_left fun text _ => ?_
        unfold literalLine
        rw [hbase, hfeed]
        rfl
    refine ⟨?_, ?_, ?_⟩
    · rw [laid, hlaid, hsame, hfeed]
      rfl
    · rw [after_cons, hblocks, hfeed]
      rfl
    · rw [after_cons, hlevel, hfeed]
      rfl

/-- **A literal left open is followed, unless a structural brace comes before it.** Of the data literals
of a line that stay unmatched let the first stand at `i`. If a structural brace comes before it, no
literal is followed. If none does, and no stretch of the line that starts right after `i` closes more braces
than it opens data literals, the depth of the literal is that of the line. As long as a literal is followed,
lines are copied and no block ends. -/
theorem open_literal_tracked {n : Nesting} {raw : Text} {i : Nat} (hn : n.literalDepth = 0)
    (hcode : IsCode (trim raw)) (hbrace : (trim raw).head? ≠ some '}')
    (hopen : LeavesOpen (trim raw) i) :
    let next := (feed n raw).nesting
    ((∃ j < i, (roles (trim raw))[j]? = some (some .structural)) → next.literalDepth = 0) ∧
    ((∀ j < i, (roles (trim raw))[j]? ≠ some (some .structural)) →
      (∀ front, front <+: (roles (trim raw)).drop (i + 1) →
        front.count (some .closing) ≤ front.count (some .dataLiteral)) →
      next.literalDepth = (netDepth (trim raw)).toNat) ∧
    ∀ lines : List Text, (∀ k < lines.length, 0 < (after next (lines.take k)).literalDepth) →
      laid next lines = lines.map (literalLine next) ∧
        (after next lines).openBlocks = next.openBlocks ∧ (after next lines).level = next.level := by
  have hin : n.inLiteral = false := by simp [Nesting.inLiteral, hn]
  refine ⟨?_, fun hbefore hpaid => ?_, fun lines => laid_inLiteral⟩
  · rintro ⟨j, hj, hrole⟩
    have hstarts := hopen.startsLiteral_eq_false hj hrole
    rw [feed_of_head_ne hbrace]
    rcases place_code hcode hin hbrace hstarts with ⟨before, tail, -, -, hplace⟩ | ⟨-, hplace⟩
    · rw [hplace]
      show ((Body.ofTail (trim tail)).after n).literalDepth = 0
      unfold Body.after
      split_ifs
      · exact hn
      · exact hn
    · rw [hplace]
      exact hn
  · have hstarts := hopen.startsLiteral_eq_true hbefore hpaid
    rw [(feed_startsLiteral hin hcode hbrace hstarts).1]
    rfl

/-- A dict with a set closed inside it and a structural brace after that, and a dict that starts in the
body of a block. -/
theorem open_literal_tracked_nested :
    let n : Nesting := { level := 1, openBlocks := 1 }
    let dict := "  d = \x7b'a': \x7b1\x7d, x \x7b".toList
    let lines := ["\x7d".toList, "if y \x7b".toList, "\x7d\x7d;".toList]
    let body := "if x \x7b d = \x7b".toList
    (LeavesOpen (trim dict) 4 ∧ (feed n dict).nesting.literalDepth = 2 ∧
      laid (feed n dict).nesting lines = lines.map (literalLine (feed n dict).nesting) ∧
      (after (feed n dict).nesting lines).openBlocks = 1) ∧
    LeavesOpen (trim body) 11 ∧ (feed n body).nesting.literalDepth = 0 := by
  intro n dict lines body
  have hdict : LeavesOpen (trim dict) 4 := ⟨by decide, by decide, by decide⟩
  have hbody : LeavesOpen (trim body) 11 := ⟨by decide, by decide, by decide⟩
  have hpaid : ∀ front ∈ ((roles (trim dict)).drop 5).inits,
      front.count (some .closing) ≤ front.count (some .dataLiteral) := by decide
  obtain ⟨-, hdepth, hcopied⟩ := @open_literal_tracked n dict 4 rfl (by decide) (by decide) hdict
  obtain ⟨hlaid, hblocks, -⟩ := hcopied lines (by decide)
  have hnone := (@open_literal_tracked n body 11 rfl (by decide) (by decide) hbody).1
  exact ⟨⟨hdict, hdepth (by decide) fun front hfront => hpaid front ((List.mem_inits ..).mpr hfront),
    hlaid, hblocks⟩, hbody, hnone ⟨5, by decide, by decide⟩⟩

/-- **A literal that starts in the body of a block is not followed**, though no brace of the line closes
it: the brace that closes it on the next line ends the block. Nor is one on a line that closes as many
braces as it opens. -/
theorem literal_in_body_untracked :
    let body := "if x \x7b d = \x7b".toList
    let next := (feed {} body).nesting
    let even := "a \x7d, b = \x7b".toList
    ((IsCode (trim body) ∧ (trim body).head? ≠ some '}') ∧
      (11 ∈ unmatched (trim body) ∧ (roles (trim body))[11]? = some (some .dataLiteral)) ∧
      next.literalDepth = 0 ∧ next.openBlocks = 1 ∧ (feed next ['}']).nesting.openBlocks = 0) ∧
    (IsCode (trim even) ∧ (trim even).head? ≠ some '}') ∧
      (9 ∈ unmatched (trim even) ∧ (roles (trim even))[9]? = some (some .dataLiteral)) ∧
      (feed {} even).nesting.literalDepth = 0 := by
  decide

end Layout

end Offside
