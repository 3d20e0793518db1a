import Mathlib.Data.List.DropRight
import Offside.Keyword
import Offside.Layout.Width

/-!
# Trimming

A trim takes blanks off the two ends of a text and touches nothing else: `exists_trim` gives the text
back from its trimmed form. A text is *trimmed* if `trim t = t`; `trim_pad` says that blanks put around
a text do not show once it is trimmed, and `trim_eq_self` recognises a trimmed text by its two ends.

The second part is about terminators and about the characters that no trim and no terminator can
take away.
-/

namespace Offside

namespace Text

/-- Only blanks. -/
def Blank (t : Text) : Prop := ∀ c ∈ t, isBlank c = true

-- Over the members of the text: an instance for predicates on characters would try every character.
instance (t : Text) : Decidable (Blank t) := List.decidableBAll (isBlank · = true) t

@[simp] theorem blank_nil : Blank [] := fun _ h => nomatch h

theorem blank_indent (w : Width) (level : Nat) : Blank (w.indent level) := by
  intro c hc
  rw [List.eq_of_mem_replicate hc]
  decide

theorem Blank.reverse {t : Text} (h : Blank t) : Blank t.reverse :=
  fun c hc => h c (List.mem_reverse.mp hc)

/-! ### One end -/

theorem trimStart_blank_append {a : Text} (ha : Blank a) (t : Text) :
    trimStart (a ++ t) = trimStart t :=
  List.dropWhile_append_of_pos ha

theorem trimEnd_append_blank {b : Text} (hb : Blank b) (t : Text) :
    trimEnd (t ++ b) = trimEnd t := by
  unfold trimEnd
  rw [List.reverse_append, List.dropWhile_append_of_pos hb.reverse]

theorem trimStart_append (t u : Text) :
    trimStart (t ++ u) = if trimStart t = [] then trimStart u else trimStart t ++ u := by
  have h : trimStart (t ++ u) =
      if (trimStart t).isEmpty then trimStart u else trimStart t ++ u := List.dropWhile_append
  rw [h]
  simp only [List.isEmpty_iff]

theorem trimStart_eq_nil_iff {t : Text} : trimStart t = [] ↔ Blank t := by
  simp [trimStart, Blank]

theorem trimEnd_prefix (t : Text) : trimEnd t <+: t := List.rdropWhile_prefix _ t

theorem exists_trimStart (t : Text) : ∃ a, Blank a ∧ t = a ++ trimStart t :=
  ⟨t.takeWhile isBlank, fun _ hc => List.mem_takeWhile_imp hc,
    List.takeWhile_append_dropWhile.symm⟩

theorem exists_trimEnd (t : Text) : ∃ b, Blank b ∧ t = trimEnd t ++ b :=
  ⟨t.rtakeWhile isBlank, fun _ hc => List.mem_rtakeWhile_imp hc,
    List.rdropWhile_append_rtakeWhile.symm⟩

theorem head_trimStart {t : Text} {c : Char} (h : (trimStart t).head? = some c) :
    isBlank c = false := by
  have hnot := List.head?_dropWhile_not isBlank t
  rw [show List.dropWhile isBlank t = trimStart t from rfl, h] at hnot
  simpa using hnot

theorem getLast_trimEnd {t : Text} {c : Char} (h : (trimEnd t).getLast? = some c) :
    isBlank c = false := by
  unfold trimEnd at h
  rw [List.getLast?_reverse] at h
  exact head_trimStart h

theorem trimStart_eq_self {t : Text} (h : ∀ c, t.head? = some c → isBlank c = false) :
    trimStart t = t := by
  cases t with
  | nil => rfl
  | cons c t => exact List.dropWhile_cons_of_neg (by simp [h c rfl])

theorem trimEnd_eq_self {t : Text} (h : ∀ c, t.getLast? = some c → isBlank c = false) :
    trimEnd t = t := by
  have hr : trimStart t.reverse = t.reverse :=
    trimStart_eq_self fun c hc => h c (by rwa [List.head?_reverse] at hc)
  unfold trimEnd
  rw [show List.dropWhile isBlank t.reverse = t.reverse from hr, List.reverse_reverse]

/-! ### Both ends -/

/-- A text is its trimmed form between blanks. -/
theorem exists_trim (t : Text) : ∃ a b, Blank a ∧ Blank b ∧ t = a ++ trim t ++ b := by
  obtain ⟨a, ha, hat⟩ := exists_trimStart t
  obtain ⟨b, hb, hbt⟩ := exists_trimEnd (trimStart t)
  refine ⟨a, b, ha, hb, ?_⟩
  calc t = a ++ trimStart t := hat
    _ = a ++ (trim t ++ b) := by rw [trim, ← hbt]
    _ = a ++ trim t ++ b := (List.append_assoc ..).symm

/-- Blanks around a text do not show once it is trimmed. -/
theorem trim_pad {a b : Text} (ha : Blank a) (hb : Blank b) (t : Text) :
    trim (a ++ t ++ b) = trim t := by
  unfold trim
  rw [List.append_assoc, trimStart_blank_append ha, trimStart_append]
  split_ifs with ht
  · -- nothing but blanks: both sides are empty
    rw [ht, trimStart_eq_nil_iff.mpr hb]
  · exact trimEnd_append_blank hb _

theorem head_trim {t : Text} {c : Char} (h : (trim t).head? = some c) : isBlank c = false := by
  obtain ⟨u, hu⟩ := trimEnd_prefix (trimStart t)
  refine head_trimStart (t := t) ?_
  rw [← hu, List.head?_append, show (trimEnd (trimStart t)).head? = some c from h]
  rfl

theorem getLast_trim {t : Text} {c : Char} (h : (trim t).getLast? = some c) : isBlank c = false :=
  getLast_trimEnd h

/-- A text with no blank at either end is trimmed. -/
theorem trim_eq_self {t : Text} (hh : ∀ c, t.head? = some c → isBlank c = false)
    (hl : ∀ c, t.getLast? = some c → isBlank c = false) : trim t = t := by
  unfold trim
  rw [trimStart_eq_self hh, trimEnd_eq_self hl]

theorem length_trim_le (t : Text) : (trim t).length ≤ t.length := by
  obtain ⟨a, b, -, -, h⟩ := exists_trim t
  have hlength := congrArg List.length h
  simp only [List.length_append] at hlength
  omega

@[simp] theorem trim_trim (t : Text) : trim (trim t) = trim t :=
  trim_eq_self (fun _ => head_trim) fun _ => getLast_trim

theorem trimEnd_trim (t : Text) : trimEnd (trim t) = trim t :=
  trimEnd_eq_self fun _ => getLast_trim

/-! ### What stays -/

/-- Characters that are neither blank nor a terminator are never trimmed away. -/
theorem filter_blank {p : Char → Bool} (hp : ∀ c, isBlank c = true → p c = false) {b : Text}
    (hb : Blank b) : b.filter p = [] :=
  List.filter_eq_nil_iff.mpr fun c hc => by simp [hp c (hb c hc)]

theorem filter_trim {p : Char → Bool} (hp : ∀ c, isBlank c = true → p c = false) (t : Text) :
    (trim t).filter p = t.filter p := by
  obtain ⟨a, b, ha, hb, hab⟩ := exists_trim t
  conv_rhs => rw [hab]
  simp [filter_blank hp ha, filter_blank hp hb]

theorem filter_trimEnd {p : Char → Bool} (hp : ∀ c, isBlank c = true → p c = false) (t : Text) :
    (trimEnd t).filter p = t.filter p := by
  obtain ⟨b, hb, htb⟩ := exists_trimEnd t
  conv_rhs => rw [htb]
  simp [filter_blank hp hb]

end Text

namespace Keyword

/-- A text is its stripped form with at most one terminator after it. -/
theorem exists_stripTerminator (t : Text) :
    t = stripTerminator t ∨ t = stripTerminator t ++ [terminator] := by
  unfold stripTerminator
  split_ifs with h
  · right
    exact (List.dropLast_append_getLast? _ h).symm
  · exact Or.inl rfl

theorem stripTerminator_isPrefix (t : Text) : stripTerminator t <+: t := by
  rcases exists_stripTerminator t with h | h
  · exact h ▸ List.prefix_rfl
  · exact ⟨[terminator], h.symm⟩

theorem stripTerminator_eq_self {t : Text} (h : t.getLast? ≠ some terminator) :
    stripTerminator t = t := if_neg h

@[simp] theorem stripTerminator_concat (t : Text) : stripTerminator (t ++ [terminator]) = t := by
  simp [stripTerminator]

theorem filter_stripTerminator {p : Char → Bool} (hp : p terminator = false) (t : Text) :
    (stripTerminator t).filter p = t.filter p := by
  rcases exists_stripTerminator t with h | h
  · rw [← h]
  · conv_rhs => rw [h]
    simp [hp]

end Keyword

end Offside
