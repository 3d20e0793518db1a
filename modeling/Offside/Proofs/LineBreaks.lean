import Mathlib.Data.List.Forall2
import Offside.Source

/-!
# Cutting a source into lines

Facts about `Lines.split` for any alphabet. Characters that are neither a line feed nor a carriage return
are put before the first line of what follows (`split_append`), and a line with its line feed comes off
the front (`split_line`). So a source may be spelled in another alphabet, as long as the line ends are
spelled apart from all else, and it is cut at the same places (`Spelling.split`).

Two texts with the same lines need not be the same: a carriage return before a line feed does not show,
unless there are two of them (`ofText_crlf`).
-/

namespace Offside.Lines

/-- Puts a piece before the first of some lines. -/
def glue {α : Type} (piece : List α) : List (List α) → List (List α)
  | [] => [piece]
  | line :: lines => (piece ++ line) :: lines

theorem glue_glue {α : Type} (a b : List α) (lines : List (List α)) :
    glue a (glue b lines) = glue (a ++ b) lines := by
  cases lines <;> simp [glue]

theorem forall_mem_glue_nil {α : Type} {P : List α → Prop} (hnil : P []) {lines : List (List α)}
    (h : ∀ line ∈ lines, P line) : ∀ line ∈ glue [] lines, P line := by
  cases lines with
  | nil => simpa [glue] using hnil
  | cons first lines => exact h

section Split

variable {α : Type} [DecidableEq α] {feed ret : α}

theorem split_feed_cons (rest : List α) :
    split feed ret (feed :: rest) = [] :: split feed ret rest := by
  rw [split, if_pos rfl]

theorem split_ret_cons (hne : ret ≠ feed) {rest : List α} (hhead : rest.head? = some feed) :
    split feed ret (ret :: rest) = split feed ret rest := by
  rw [split, if_neg hne, if_pos ⟨rfl, hhead⟩]

/-- A character that belongs to no line end is put before the first line of what follows. -/
theorem split_cons {c : α} (hc : c ≠ feed) {rest : List α} (hret : ¬ (c = ret ∧ rest.head? = some feed)) :
    split feed ret (c :: rest) = glue [c] (split feed ret rest) := by
  rw [split, if_neg hc, if_neg hret]
  cases split feed ret rest <;> rfl

theorem split_append {piece : List α} (hne : piece ≠ []) (hpiece : ∀ c ∈ piece, c ≠ feed ∧ c ≠ ret)
    (rest : List α) : split feed ret (piece ++ rest) = glue piece (split feed ret rest) := by
  induction piece with
  | nil => exact absurd rfl hne
  | cons c piece ih =>
    obtain ⟨hfeed, hret⟩ := hpiece c (by simp)
    rw [List.cons_append, split_cons hfeed (fun h => hret h.1)]
    by_cases hnil : piece = []
    · rw [hnil, List.nil_append]
    · rw [ih hnil fun d hd => hpiece d (by simp [hd]), glue_glue]
      rfl

/-- **A line and its line feed come off the front**, provided that no carriage return stands between. -/
theorem split_line {line : List α} (hfeed : feed ∉ line) (hret : line.getLast? ≠ some ret)
    (rest : List α) : split feed ret (line ++ feed :: rest) = line :: split feed ret rest := by
  induction line with
  | nil => exact split_feed_cons rest
  | cons c line ih =>
    have hc : c ≠ feed := fun h => hfeed (by simp [h])
    have hlast : line ≠ [] → line.getLast? ≠ some ret := by
      intro hne h
      exact hret (by rw [List.getLast?_cons, h]; rfl)
    have hend : ¬ (c = ret ∧ (line ++ feed :: rest).head? = some feed) := by
      rintro ⟨rfl, hhead⟩
      cases line with
      | nil => exact hret rfl
      | cons d line =>
        rw [List.cons_append, List.head?_cons, Option.some.injEq] at hhead
        exact hfeed (by simp [hhead])
    rw [List.cons_append, split_cons hc hend]
    by_cases hnil : line = []
    · rw [hnil, List.nil_append, split_feed_cons]
      rfl
    · rw [ih (fun h => hfeed (by simp [h])) (hlast hnil)]
      rfl

theorem feed_notMem_of_mem_split {xs line : List α} (h : line ∈ split feed ret xs) : feed ∉ line := by
  induction xs generalizing line with
  | nil => exact absurd h (by simp)
  | cons c rest ih =>
    by_cases hc : c = feed
    · rw [hc, split_feed_cons] at h
      rcases List.mem_cons.mp h with rfl | h
      · simp
      · exact ih h
    by_cases hret : c = ret ∧ rest.head? = some feed
    · obtain ⟨rfl, hhead⟩ := hret
      rw [split_ret_cons hc hhead] at h
      exact ih h
    · rw [split_cons hc hret] at h
      cases hsplit : split feed ret rest with
      | nil =>
        rw [hsplit] at h
        rw [List.mem_singleton.mp h]
        simpa using Ne.symm hc
      | cons first lines =>
        rw [hsplit] at h
        rcases List.mem_cons.mp h with rfl | h
        · have hfirst : feed ∉ first := ih (by rw [hsplit]; simp)
          simpa using ⟨Ne.symm hc, hfirst⟩
        · exact ih (by rw [hsplit]; simp [h])

section Closed

variable {P : List α → Prop} (hnil : P []) (hfeed : P [feed]) (hret : P [ret])
  (happend : ∀ a b, P a → P b → P (a ++ b))

include hnil hfeed hret happend

/-- The piece is the part of the first line that was read already. -/
theorem append_of_forall_mem_glue (piece xs : List α)
    (h : ∀ line ∈ glue piece (split feed ret xs), P line) : P (piece ++ xs) := by
  induction xs generalizing piece with
  | nil => exact happend _ _ (h piece (by simp [glue])) hnil
  | cons c rest ih =>
    -- where a line ends the piece is complete, and the rest is read with nothing before it
    have hrest : (∀ line ∈ split feed ret rest, P line) → P rest :=
      fun hlines => ih [] (forall_mem_glue_nil hnil hlines)
    by_cases hc : c = feed
    · rw [hc, split_feed_cons] at h
      have hpiece : P piece := h piece (by simp [glue])
      rw [hc]
      exact happend _ _ hpiece (happend [feed] rest hfeed
        (hrest fun line hline => h line (by simp [glue, hline])))
    by_cases hend : c = ret ∧ rest.head? = some feed
    · obtain ⟨rfl, hhead⟩ := hend
      rw [split_ret_cons hc hhead] at h
      obtain ⟨rest', rfl⟩ := List.head?_eq_some_iff.mp hhead
      rw [split_feed_cons] at h hrest
      have hpiece : P piece := h piece (by simp [glue])
      refine happend _ _ hpiece (happend [c] _ hret (hrest fun line hline => ?_))
      rcases List.mem_cons.mp hline with rfl | hline
      · exact hnil
      · exact h line (by simp [glue, hline])
    · rw [split_cons hc hend, glue_glue] at h
      have hwhole := ih _ h
      rwa [List.append_assoc] at hwhole

/-- **What holds of every line holds of the whole**, if it can be appended and holds of the characters
that end a line. -/
theorem of_forall_mem_split (xs : List α) (h : ∀ line ∈ split feed ret xs, P line) : P xs :=
  append_of_forall_mem_glue hnil hfeed hret happend [] xs (forall_mem_glue_nil hnil h)

end Closed

end Split

/-! ### Another alphabet -/

/-- A spelling of characters in another alphabet that keeps the two characters of line ends apart from
all others. -/
structure Spelling {α β : Type} (spell : α → List β) (feed ret : α) (feed' ret' : β) : Prop where
  feed_eq : spell feed = [feed']
  ret_eq : spell ret = [ret']
  ne : ret' ≠ feed'
  nonempty (c : α) : spell c ≠ []
  other (c : α) : c ≠ feed → c ≠ ret → ∀ b ∈ spell c, b ≠ feed' ∧ b ≠ ret'

section Spelling

variable {α β : Type} {spell : α → List β} {feed ret : α} {feed' ret' : β}

theorem Spelling.head_eq_iff (h : Spelling spell feed ret feed' ret') (t : List α) :
    (t.flatMap spell).head? = some feed' ↔ t.head? = some feed := by
  cases t with
  | nil => simp
  | cons c t =>
    obtain ⟨b, bs, hb⟩ := List.exists_cons_of_ne_nil (h.nonempty c)
    rw [List.flatMap_cons, hb, List.cons_append, List.head?_cons, List.head?_cons, Option.some.injEq,
      Option.some.injEq]
    constructor
    · rintro rfl
      by_contra hfeed
      by_cases hret : c = ret
      · rw [hret, h.ret_eq] at hb
        exact h.ne (List.cons.inj hb).1
      · exact (h.other c hfeed hret b (by rw [hb]; simp)).1 rfl
    · rintro rfl
      rw [h.feed_eq] at hb
      exact (List.cons.inj hb).1.symm

theorem map_glue (c : α) (lines : List (List α)) :
    (glue [c] lines).map (·.flatMap spell) = glue (spell c) (lines.map (·.flatMap spell)) := by
  cases lines <;> simp [glue]

/-- **A source is cut at the same places however it is spelled.** -/
theorem Spelling.split [DecidableEq α] [DecidableEq β] (h : Spelling spell feed ret feed' ret')
    (t : List α) :
    Lines.split feed' ret' (t.flatMap spell) = (Lines.split feed ret t).map (·.flatMap spell) := by
  induction t with
  | nil => rfl
  | cons c t ih =>
    rw [List.flatMap_cons]
    by_cases hfeed : c = feed
    · rw [hfeed, h.feed_eq, List.singleton_append, split_feed_cons, split_feed_cons, ih]
      rfl
    by_cases hret : c = ret
    · subst hret
      rw [h.ret_eq, List.singleton_append]
      by_cases hhead : t.head? = some feed
      · rw [split_ret_cons h.ne ((h.head_eq_iff t).mpr hhead), split_ret_cons hfeed hhead, ih]
      · rw [split_cons h.ne (fun hb => hhead ((h.head_eq_iff t).mp hb.2)),
          split_cons hfeed (fun hb => hhead hb.2), map_glue, h.ret_eq, ih]
    · rw [split_append (h.nonempty c) (h.other c hfeed hret), split_cons hfeed (fun hb => hret hb.1),
        map_glue, ih]

end Spelling

/-! ### Texts -/

/-- Lines that hold no line feed, and no carriage return at their end, are read back from their text. -/
theorem ofText_toText {lines : List Text}
    (h : ∀ line ∈ lines, '\n' ∉ line ∧ line.getLast? ≠ some '\r') : ofText (toText lines) = lines := by
  induction lines with
  | nil => rfl
  | cons line lines ih =>
    obtain ⟨hfeed, hret⟩ := h line (by simp)
    have hlines := ih fun l hl => h l (by simp [hl])
    unfold ofText at hlines ⊢
    rw [toText_cons, split_line hfeed hret, hlines]

/-- The text with a carriage return put before every line feed. -/
def crlf (t : Text) : Text := t.flatMap fun c => if c = '\n' then ['\r', '\n'] else [c]

theorem crlf_feed_cons (t : Text) : crlf ('\n' :: t) = '\r' :: '\n' :: crlf t := rfl

theorem crlf_cons {c : Char} (hc : c ≠ '\n') (t : Text) : crlf (c :: t) = c :: crlf t := by
  simp [crlf, hc]

theorem head_crlf_ne (t : Text) : (crlf t).head? ≠ some '\n' := by
  cases t with
  | nil => simp [crlf]
  | cons c t =>
    by_cases hc : c = '\n'
    · rw [hc, crlf_feed_cons, List.head?_cons]
      decide
    · rw [crlf_cons hc]
      simpa using hc

/-- **A carriage return before every line feed** shows only where there was one already. -/
theorem ofText_crlf (t : Text) :
    List.Forall₂ (fun line line' => line' = line ∨ line' = line ++ ['\r']) (ofText t)
      (ofText (crlf t)) := by
  have hbreak : ∀ t, ofText ('\r' :: '\n' :: t) = [] :: ofText t := fun t => rfl
  induction t with
  | nil => exact .nil
  | cons c t ih =>
    by_cases hc : c = '\n'
    · rw [hc, crlf_feed_cons, hbreak]
      exact .cons (Or.inl rfl) ih
    have hcrlf : ofText (crlf (c :: t)) = glue [c] (ofText (crlf t)) := by
      rw [crlf_cons hc]
      exact split_cons hc fun h => head_crlf_ne t h.2
    rw [hcrlf]
    by_cases hret : c = '\r' ∧ t.head? = some '\n'
    · -- the one place where something shows: the carriage return that was there is now part of the line
      obtain ⟨rfl, hhead⟩ := hret
      obtain ⟨t', rfl⟩ := List.head?_eq_some_iff.mp hhead
      rw [crlf_feed_cons, hbreak] at ih ⊢
      rw [hbreak]
      rw [show ofText ('\n' :: t') = [] :: ofText t' from rfl] at ih
      exact .cons (Or.inr rfl) (List.forall₂_cons.mp ih).2
    · have hplain : ofText (c :: t) = glue [c] (ofText t) := split_cons hc hret
      rw [hplain]
      generalize ofText t = lines, ofText (crlf t) = lines' at ih
      cases ih with
      | nil => exact .cons (Or.inl rfl) .nil
      | cons hline hlines =>
        refine .cons ?_ hlines
        rcases hline with rfl | rfl
        · exact Or.inl rfl
        · exact Or.inr rfl

end Offside.Lines
