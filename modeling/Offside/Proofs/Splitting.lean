import Offside.Command.Split
import Offside.Proofs.Options

/-!
# Where the settings on a command line end

The arguments that give settings are a text of their own: items, of one argument or of two, and at the
very end perhaps an option that lacks its value. `Leading` is what such arguments say and
`Leading.arguments` writes them down; of two ways to read them there is only one
(`Leading.arguments_injective`).

`Cut arguments l post` says that the arguments are those of `l` and then `post`, and that `post` goes on
with no settings. The splitting takes one item at a time (`splitLeading_item`) and stops where it is
told to, so it finds the cut, and there is no other (`split_partitions`).
-/

namespace Offside.Command

open Options

/-- An option that gives a setting. -/
abbrev SettingsFlag := { flag : Bytes // flag ∈ settingsFlags }

/-- An option that gives a setting, together with its value. -/
inductive Item where
  /-- The value stands in the same argument, after an equals sign. -/
  | inline (flag : SettingsFlag) (value : Bytes)
  /-- The value is the next argument, whatever that looks like. -/
  | separate (flag : SettingsFlag) (value : Bytes)

/-- The arguments that an item takes. -/
def Item.arguments : Item → List Bytes
  | inline flag value => [flag.val ++ equals :: value]
  | separate flag value => [flag.val, value]

/-- What the arguments before the command say. -/
structure Leading where
  items : List Item
  /-- An option after the items whose value is missing. -/
  bare : Option SettingsFlag

/-- The arguments as they are written. -/
def Leading.arguments (l : Leading) : List Bytes :=
  l.items.flatMap Item.arguments ++ l.bare.toList.map Subtype.val

/-- The argument is an option that gives a setting, with a value or without. -/
def NamesSetting (argument : Bytes) : Prop :=
  ∃ flag : SettingsFlag, argument = flag.val ∨ ∃ value, argument = flag.val ++ equals :: value

/-- The arguments are cut where the settings end. -/
structure Cut (arguments : List Bytes) (l : Leading) (post : List Bytes) : Prop where
  append_eq : l.arguments ++ post = arguments
  /-- Only the end of the arguments keeps an option from its value. -/
  bare_last : l.bare.isSome = true → post = []
  stops : ∀ argument, post.head? = some argument → ¬ NamesSetting argument

/-! ### One argument -/

theorem equals_not_mem (flag : SettingsFlag) : equals ∉ flag.val := by
  have h : ∀ flag ∈ settingsFlags, equals ∉ flag := by decide +kernel
  exact h flag.val flag.property

theorem lead?_flag (flag : SettingsFlag) : lead? flag.val = some .separate := by
  unfold lead?
  rw [cutAt_of_not_mem (equals_not_mem flag)]
  simp [flag.property]

theorem lead?_inline (flag : SettingsFlag) (value : Bytes) :
    lead? (flag.val ++ equals :: value) = some .inline := by
  unfold lead?
  rw [cutAt_append (equals_not_mem flag)]
  simp [flag.property]

/-- What an argument that is taken for an option looks like. -/
theorem exists_of_lead? {argument : Bytes} {lead : Lead} (h : lead? argument = some lead) :
    ∃ flag : SettingsFlag, lead = .separate ∧ argument = flag.val ∨
      lead = .inline ∧ ∃ value, argument = flag.val ++ equals :: value := by
  obtain ⟨name, value, hcut⟩ : ∃ name value, cutAt equals argument = (name, value) := ⟨_, _, rfl⟩
  have hargument := eq_of_cutAt hcut
  unfold lead? at h
  rw [hcut] at h
  simp only [Option.ite_none_right_eq_some, Option.some.injEq] at h
  obtain ⟨hmem, rfl⟩ := h
  refine ⟨⟨name, List.contains_iff_mem.mp hmem⟩, ?_⟩
  cases value with
  | none => exact Or.inl ⟨rfl, by simpa using hargument⟩
  | some value => exact Or.inr ⟨rfl, value, by simpa using hargument⟩

theorem lead?_eq_none_iff {argument : Bytes} : lead? argument = none ↔ ¬ NamesSetting argument := by
  constructor
  · rintro h ⟨flag, rfl | ⟨value, rfl⟩⟩
    · rw [lead?_flag] at h
      exact absurd h (by simp)
    · rw [lead?_inline] at h
      exact absurd h (by simp)
  · intro h
    cases hlead : lead? argument with
    | none => rfl
    | some lead =>
      obtain ⟨flag, ⟨-, harg⟩ | ⟨-, hvalue⟩⟩ := exists_of_lead? hlead
      · exact absurd ⟨flag, Or.inl harg⟩ h
      · exact absurd ⟨flag, Or.inr hvalue⟩ h

/-! ### What is written is read in one way -/

/-- The first item can be told from the arguments. -/
theorem Item.arguments_append_inj {item item' : Item} {rest rest' : List Bytes}
    (h : item.arguments ++ rest = item'.arguments ++ rest') : item = item' ∧ rest = rest' := by
  have hlead : (item.arguments ++ rest).head?.map lead? = (item'.arguments ++ rest').head?.map lead? := by
    rw [h]
  cases item with
  | inline flag value =>
    cases item' with
    | inline flag' value' =>
      obtain ⟨harg, rfl⟩ := List.cons_eq_cons.mp h
      have hcut := congrArg (cutAt equals) harg
      rw [cutAt_append (equals_not_mem flag), cutAt_append (equals_not_mem flag'), Prod.mk.injEq,
        Option.some.injEq] at hcut
      rw [Subtype.ext hcut.1, hcut.2]
      exact ⟨rfl, rfl⟩
    | separate flag' value' =>
      -- the equals sign in the first argument tells the two kinds apart
      simp [Item.arguments, lead?_flag, lead?_inline] at hlead
  | separate flag value =>
    cases item' with
    | inline flag' value' =>
      simp [Item.arguments, lead?_flag, lead?_inline] at hlead
    | separate flag' value' =>
      obtain ⟨hflag, htail⟩ := List.cons_eq_cons.mp h
      obtain ⟨rfl, rfl⟩ := List.cons_eq_cons.mp htail
      rw [Subtype.ext hflag]
      exact ⟨rfl, rfl⟩

/-- An option without its value is no item. -/
theorem Item.arguments_append_ne (item : Item) (rest : List Bytes) (bare : Option SettingsFlag) :
    item.arguments ++ rest ≠ bare.toList.map Subtype.val := by
  intro h
  cases bare with
  | none => cases item <;> exact absurd h (by simp [Item.arguments])
  | some flag =>
    cases item with
    | inline flag' value =>
      have hlead := congrArg (fun arguments => arguments.head?.map lead?) h
      simp [Item.arguments, lead?_flag, lead?_inline] at hlead
    | separate flag' value => exact absurd h (by simp [Item.arguments])

/-- **Arguments that give settings say one thing.** -/
theorem Leading.arguments_injective : Function.Injective Leading.arguments := by
  rintro ⟨items, bare⟩ ⟨items', bare'⟩ h
  unfold Leading.arguments at h
  induction items generalizing items' with
  | nil =>
    cases items' with
    | nil =>
      have hbare : bare = bare' := by
        cases bare with
        | none =>
          cases bare' with
          | none => rfl
          | some flag' => exact absurd h (by simp)
        | some flag =>
          cases bare' with
          | none => exact absurd h (by simp)
          | some flag' =>
            have hflag : flag.val = flag'.val := List.head_eq_of_cons_eq h
            rw [Subtype.ext hflag]
      rw [hbare]
    | cons item items' =>
      rw [List.flatMap_cons, List.append_assoc] at h
      exact absurd h.symm (item.arguments_append_ne _ bare)
  | cons item items ih =>
    cases items' with
    | nil =>
      rw [List.flatMap_cons, List.append_assoc] at h
      exact absurd h (item.arguments_append_ne _ bare')
    | cons item' items' =>
      rw [List.flatMap_cons, List.flatMap_cons, List.append_assoc, List.append_assoc] at h
      obtain ⟨rfl, hrest⟩ := Item.arguments_append_inj h
      obtain ⟨rfl, rfl⟩ := Leading.mk.inj (ih items' hrest)
      rfl

/-! ### The splitting -/

/-- **One pass takes one item.** -/
theorem splitLeading_item (item : Item) (rest : List Bytes) :
    splitLeading (item.arguments ++ rest) =
      (item.arguments ++ (splitLeading rest).1, (splitLeading rest).2) := by
  cases item with
  | inline flag value =>
    show splitLeading ((flag.val ++ equals :: value) :: rest) = _
    rw [splitLeading.eq_def]
    simp only [lead?_inline]
    rfl
  | separate flag value =>
    show splitLeading (flag.val :: value :: rest) = _
    rw [splitLeading.eq_def]
    simp only [lead?_flag]
    rfl

theorem splitLeading_items (items : List Item) (rest : List Bytes) :
    splitLeading (items.flatMap Item.arguments ++ rest) =
      (items.flatMap Item.arguments ++ (splitLeading rest).1, (splitLeading rest).2) := by
  induction items with
  | nil => rfl
  | cons item items ih =>
    rw [List.flatMap_cons, List.append_assoc, splitLeading_item, ih, List.append_assoc]

theorem splitLeading_of_stops {post : List Bytes}
    (h : ∀ argument, post.head? = some argument → ¬ NamesSetting argument) :
    splitLeading post = ([], post) := by
  cases post with
  | nil => rfl
  | cons argument post =>
    rw [splitLeading.eq_def]
    simp only [lead?_eq_none_iff.mpr (h argument rfl)]

/-- **A cut is found by the splitting**, so there is no other. -/
theorem Cut.splitLeading_eq {arguments : List Bytes} {l : Leading} {post : List Bytes}
    (h : Cut arguments l post) : splitLeading arguments = (l.arguments, post) := by
  obtain ⟨items, bare⟩ := l
  rw [← h.append_eq]
  unfold Leading.arguments
  rw [List.append_assoc, splitLeading_items]
  cases bare with
  | none =>
    show (_ ++ (splitLeading post).1, (splitLeading post).2) = _
    rw [splitLeading_of_stops h.stops]
    rfl
  | some flag =>
    -- nothing follows the option, so there is no value to take along
    have hbare : splitLeading [flag.val] = ([flag.val], []) := by
      rw [splitLeading.eq_def]
      simp only [lead?_flag]
    obtain rfl : post = [] := h.bare_last rfl
    show (_ ++ (splitLeading [flag.val]).1, (splitLeading [flag.val]).2) = _
    rw [hbare]
    rfl

theorem Cut.cons {arguments : List Bytes} {l : Leading} {post : List Bytes} (h : Cut arguments l post)
    (item : Item) : Cut (item.arguments ++ arguments) ⟨item :: l.items, l.bare⟩ post where
  append_eq := by
    rw [← h.append_eq]
    simp [Leading.arguments]
  bare_last := h.bare_last
  stops := h.stops

/-- **Every list of arguments has a cut.** -/
theorem exists_cut (arguments : List Bytes) : ∃ l post, Cut arguments l post := by
  have hend : ∀ argument : Bytes, ([] : List Bytes).head? = some argument → ¬ NamesSetting argument :=
    fun _ h => absurd h (by simp)
  fun_induction splitLeading arguments with
  | case1 => exact ⟨⟨[], none⟩, [], rfl, fun _ => rfl, hend⟩
  | case2 argument rest hlead =>
    refine ⟨⟨[], none⟩, argument :: rest, rfl, fun h => absurd h (by simp), fun _ h => ?_⟩
    rw [← Option.some.inj h]
    exact lead?_eq_none_iff.mp hlead
  | case3 argument rest hlead settings command _ ih =>
    obtain ⟨l, post, hcut⟩ := ih
    obtain ⟨flag, ⟨hne, -⟩ | ⟨-, value, rfl⟩⟩ := exists_of_lead? hlead
    · exact absurd hne (by simp)
    · exact ⟨_, post, hcut.cons (.inline flag value)⟩
  | case4 argument hlead =>
    obtain ⟨flag, ⟨-, rfl⟩ | ⟨hne, -⟩⟩ := exists_of_lead? hlead
    · exact ⟨⟨[], some flag⟩, [], rfl, fun _ => rfl, hend⟩
    · exact absurd hne (by simp)
  | case5 argument hlead value rest settings command _ ih =>
    obtain ⟨l, post, hcut⟩ := ih
    obtain ⟨flag, ⟨-, rfl⟩ | ⟨hne, -⟩⟩ := exists_of_lead? hlead
    · exact ⟨_, post, hcut.cons (.separate flag value)⟩
    · exact absurd hne (by simp)

/-- **The arguments are cut at the first one that gives no setting.** What comes before the cut is read
completely as settings with their values, of which only the last may lack its value, and then nothing
follows. What comes after the cut starts with no such option. The arguments have no other cut, nor have
those before it another reading; and what comes after the cut is not cut again. -/
theorem split_partitions (program : Bytes) (rest : List Bytes) :
    ∃ l post, split (program :: rest) = (program :: l.arguments, program :: post) ∧
      Cut rest l post ∧ (∀ l' post', Cut rest l' post' → l' = l ∧ post' = post) ∧
      split (program :: post) = ([program], program :: post) := by
  obtain ⟨l, post, hcut⟩ := exists_cut rest
  have hsplit := hcut.splitLeading_eq
  refine ⟨l, post, ?_, hcut, fun l' post' hcut' => ?_, ?_⟩
  · simp only [split, hsplit]
  · rw [hcut'.splitLeading_eq, Prod.mk.injEq] at hsplit
    exact ⟨Leading.arguments_injective hsplit.1, hsplit.2⟩
  · simp only [split, splitLeading_of_stops hcut.stops]

/-- An option taken for a value, a value after an equals sign, and an option behind the command. -/
example : split (["bython", "--indent-size", "--log-filter", "--log-format=", "a.by", "--log-filter"].map
    Bytes.ofString) = (["bython", "--indent-size", "--log-filter", "--log-format="].map Bytes.ofString,
      ["bython", "a.by", "--log-filter"].map Bytes.ofString) := by
  decide +kernel

end Offside.Command
