import Offside.Options.Grammar

/-!
# Reading options

The reading of arguments goes from left to right with a value pending, and a value that stands apart from
its option is stored late. What the reading comes to can be said without the pending value: the argument
alone decides what option it names (`Grammar.recognise`), a value that is awaited has to follow at once
(`Grammar.readFrom_awaiting`), and it might be stored at once (`Grammar.readFrom_holding`). All this is for
grammars without operands.
-/

namespace Offside

namespace Utf8

theorem first_eq_some_iff {b : Bytes} {c : Char} :
    first b = some c ↔ ∃ rest, b = String.utf8EncodeChar c ++ rest := by
  constructor
  · intro h
    obtain ⟨l, hl⟩ := ByteArray.exists_of_utf8DecodeChar?_eq_some h
    have htake : b.take 4 = String.utf8EncodeChar c ++ l.data.toList := by
      simpa using congrArg (fun bytes => bytes.data.toList) hl
    refine ⟨l.data.toList ++ b.drop 4, ?_⟩
    rw [← List.append_assoc, ← htake, List.take_append_drop]
  · rintro ⟨rest, rfl⟩
    have hsize : (String.utf8EncodeChar c).length ≤ 4 := by
      rw [String.length_utf8EncodeChar]
      exact c.utf8Size_le_four
    have hencode : (String.utf8EncodeChar c).toByteArray = [c].utf8Encode := by
      simp [List.utf8Encode]
    unfold first
    rw [List.take_append, List.take_of_length_le hsize, List.toByteArray_append, hencode]
    exact List.utf8DecodeChar?_utf8Encode_singleton_append

end Utf8

namespace Options

@[simp] theorem mapError_ok {ε ε' α : Type} (f : ε → ε') (a : α) :
    (Except.ok a).mapError f = .ok a := rfl

@[simp] theorem mapError_error {ε ε' α : Type} (f : ε → ε') (e : ε) :
    (Except.error e : Except ε α).mapError f = .error (f e) := rfl

theorem cutAt_append {b : UInt8} {name : Bytes} (h : b ∉ name) (rest : Bytes) :
    cutAt b (name ++ b :: rest) = (name, some rest) := by
  induction name with
  | nil => simp [cutAt]
  | cons c name ih =>
    have hc : c ≠ b := fun hcb => h (by simp [hcb])
    have hname : b ∉ name := fun hmem => h (List.mem_cons_of_mem c hmem)
    simp [cutAt, hc, ih hname]

theorem cutAt_of_not_mem {b : UInt8} {name : Bytes} (h : b ∉ name) : cutAt b name = (name, none) := by
  induction name with
  | nil => rfl
  | cons c name ih =>
    have hc : c ≠ b := fun hcb => h (by simp [hcb])
    have hname : b ∉ name := fun hmem => h (List.mem_cons_of_mem c hmem)
    simp [cutAt, hc, ih hname]

theorem eq_of_cutAt {b : UInt8} {body name : Bytes} {value : Option Bytes}
    (h : cutAt b body = (name, value)) : body = name ++ value.elim [] (b :: ·) := by
  induction body generalizing name with
  | nil =>
    obtain ⟨rfl, rfl⟩ := Prod.mk.inj h
    rfl
  | cons c body ih =>
    by_cases hc : c = b
    · simp only [cutAt, if_pos hc] at h
      obtain ⟨rfl, rfl⟩ := Prod.mk.inj h
      simp [hc]
    · simp only [cutAt, if_neg hc] at h
      obtain ⟨rfl, hvalue⟩ := Prod.mk.inj h
      rw [List.cons_append, ← ih (Prod.ext rfl hvalue)]

theorem long?_dashes {name : Bytes} (h : name ≠ []) :
    long? (dash :: dash :: name) = some (cutAt equals name) := by
  cases name with
  | nil => exact absurd rfl h
  | cons c rest => simp [long?]

theorem eq_of_long? {argument name : Bytes} {value : Option Bytes}
    (h : long? argument = some (name, value)) :
    argument = dash :: dash :: (name ++ value.elim [] (equals :: ·)) := by
  match argument with
  | [] => simp [long?] at h
  | [a] => simp [long?] at h
  | [a, b] => simp [long?] at h
  | a :: b :: c :: rest =>
    by_cases hab : a = dash ∧ b = dash
    · simp only [long?, if_pos hab, Option.some.injEq] at h
      rw [hab.1, hab.2, eq_of_cutAt h]
    · simp [long?, if_neg hab] at h

theorem eq_of_cluster? {argument letters : Bytes} (h : cluster? argument = some letters) :
    argument = dash :: letters := by
  match argument with
  | [] => simp [cluster?] at h
  | [a] => simp [cluster?] at h
  | a :: b :: rest =>
    by_cases hab : a = dash ∧ b ≠ dash
    · simp only [cluster?, if_pos hab, Option.some.injEq] at h
      rw [hab.1, h]
    · simp [cluster?, if_neg hab] at h

/-- An argument that may be the value of the option before it. -/
def Separate (argument : Bytes) : Prop := argument.head? ≠ some dash ∨ argument = [dash]

theorem separate_iff {argument : Bytes} : Separate argument ↔
    argument ≠ [dash, dash] ∧ long? argument = none ∧ cluster? argument = none := by
  match argument with
  | [] => simp [Separate, long?, cluster?]
  | [a] => by_cases ha : a = dash <;> simp [Separate, long?, cluster?, ha]
  | [a, b] =>
    by_cases ha : a = dash <;> by_cases hb : b = dash <;> simp [Separate, long?, cluster?, ha, hb]
  | a :: b :: c :: rest =>
    by_cases ha : a = dash <;> by_cases hb : b = dash <;> simp [Separate, long?, cluster?, ha, hb]

namespace Grammar

variable {α : Type} {g : Grammar α}

/-! ### One argument

What option an argument names does not depend on what has been read before. -/

/-- The option `--name`, and the value in the same argument. -/
def longRule (g : Grammar α) (name : Bytes) (value : Option Bytes) :
    Except Stop (Rule α × Option Bytes) :=
  match g.rules.find? (fun rule => Bytes.ofString rule.long == name) with
  | none => .error (.fault (.unexpected ('-' :: '-' :: Utf8.lossy name)))
  | some rule =>
    match rule.action, value with
    | .ask _, some value => .error (.fault (.unneededValue (Utf8.lossy value) rule.shown))
    | _, _ => .ok (rule, value)

/-- The option that the first letter of a cluster names, and the value behind it. -/
def clusterRule (g : Grammar α) (letters : Bytes) : Except Stop (Rule α × Option Bytes) :=
  match Utf8.first letters with
  | none => .error (.fault (.unexpected ('-' :: Utf8.lossy letters)))
  | some c =>
    match g.rules.find? (fun rule => rule.short == some c) with
    | none => .error (.fault (.unexpected ['-', c]))
    | some rule => .ok (rule, clusterValue (letters.drop c.utf8Size))

/-- The option that an argument names, if it is not a value. -/
def recognise (g : Grammar α) (argument : Bytes) : Option (Except Stop (Rule α × Option Bytes)) :=
  match long? argument, cluster? argument with
  | some (name, value), _ => some (g.longRule name value)
  | none, some letters => some (g.clusterRule letters)
  | none, none => none

theorem long_eq (s : State α) (name : Bytes) (value : Option Bytes) :
    g.long s name value = (g.longRule name value).bind fun p => s.option p.1 p.2 := by
  unfold Grammar.long longRule
  cases g.rules.find? fun rule => Bytes.ofString rule.long == name with
  | none => rfl
  | some rule => cases haction : rule.action <;> cases value <;> simp only [haction] <;> rfl

theorem cluster_eq (s : State α) (letters : Bytes) :
    g.cluster s letters = (g.clusterRule letters).bind fun p => s.option p.1 p.2 := by
  unfold Grammar.cluster clusterRule
  cases Utf8.first letters with
  | none => rfl
  | some c =>
    simp only
    cases g.rules.find? fun rule => rule.short == some c <;> rfl

theorem next_of_recognise {s : State α} (hended : s.ended = false) {argument : Bytes}
    (hdashes : argument ≠ [dash, dash]) {found : Except Stop (Rule α × Option Bytes)}
    (h : g.recognise argument = some found) :
    g.next s argument = found.bind fun p => s.option p.1 p.2 := by
  unfold next
  rw [hended, if_neg Bool.false_ne_true, if_neg hdashes]
  unfold recognise at h
  cases hlong : long? argument with
  | some p =>
    simp only [hlong, Option.some.injEq] at h ⊢
    rw [← h, long_eq]
  | none =>
    cases hcluster : cluster? argument with
    | none => simp [hlong, hcluster] at h
    | some letters =>
      simp only [hlong, hcluster, Option.some.injEq] at h ⊢
      rw [← h, cluster_eq]

theorem recognise_eq_none_iff {argument : Bytes} :
    g.recognise argument = none ↔ long? argument = none ∧ cluster? argument = none := by
  unfold recognise
  cases long? argument with
  | some p => simp
  | none => cases cluster? argument <;> simp

/-! ### Runs

In a grammar without operands. -/

/-- What the arguments come to from a state on. -/
def readFrom (g : Grammar α) (s : State α) (arguments : List Bytes) : Except Stop α := do
  let final ← arguments.foldlM g.next s
  let settled ← final.settle.mapError .fault
  return settled.read

theorem readFrom_cons (s : State α) (argument : Bytes) (rest : List Bytes) :
    g.readFrom s (argument :: rest) = (g.next s argument).bind fun s' => g.readFrom s' rest := by
  unfold readFrom
  rw [List.foldlM_cons, bind_assoc]
  rfl

theorem readFrom_cons_eq_ok_iff {s : State α} {argument : Bytes} {rest : List Bytes} {a : α} :
    g.readFrom s (argument :: rest) = .ok a ↔
      ∃ s', g.next s argument = .ok s' ∧ g.readFrom s' rest = .ok a := by
  rw [readFrom_cons]
  cases g.next s argument with
  | error stop => simp [Except.bind]
  | ok s' => simp [Except.bind]

theorem readFrom_nil_eq_ok_iff {s : State α} {a : α} :
    g.readFrom s [] = .ok a ↔ ∃ settled, s.settle = .ok settled ∧ settled.read = a := by
  show (s.settle.mapError Stop.fault).bind (fun settled => .ok settled.read) = .ok a ↔ _
  cases s.settle with
  | error fault => simp [Except.bind]
  | ok settled => simp [Except.bind]

/-- Behind `--` there is no place for an argument. -/
theorem nil_of_ended {s : State α} (hended : s.ended = true) (hoperands : s.operands = [])
    {arguments : List Bytes} {a : α} (h : g.readFrom s arguments = .ok a) : arguments = [] := by
  cases arguments with
  | nil => rfl
  | cons argument rest =>
    obtain ⟨s', hnext, -⟩ := readFrom_cons_eq_ok_iff.mp h
    simp [next, hended, State.operand, hoperands] at hnext

theorem next_dashes {s : State α} (hended : s.ended = false) :
    g.next s [dash, dash] = .ok { s with ended := true } := by
  simp [next, hended]

/-- A value that is neither awaited nor an option has no place. -/
theorem next_eq_error {s : State α} (hended : s.ended = false) (hoperands : s.operands = [])
    {argument : Bytes} (hdashes : argument ≠ [dash, dash]) (hnone : g.recognise argument = none)
    (hpending : ∀ shown store, s.pending ≠ .awaiting shown store) :
    g.next s argument = .error (.fault (.unexpected (Utf8.lossy argument))) := by
  obtain ⟨hlong, hcluster⟩ := recognise_eq_none_iff.mp hnone
  unfold next
  rw [hended, if_neg Bool.false_ne_true, if_neg hdashes, hlong, hcluster]
  cases hp : s.pending with
  | awaiting shown store => exact absurd hp (hpending shown store)
  | nothing => simp [State.operand, hoperands]
  | holding store value => simp [State.operand, hoperands]

theorem settle_holding (read : α) (store : Store α) (value : Bytes) (ended : Bool) :
    (⟨read, .holding store value, [], ended⟩ : State α).settle =
      (store value read).map fun read' => ⟨read', .nothing, [], ended⟩ := by
  simp only [State.settle]
  cases store value read <;> rfl

theorem option_holding (read : α) (store : Store α) (value : Bytes) (rule : Rule α)
    (inline : Option Bytes) :
    (⟨read, .holding store value, [], false⟩ : State α).option rule inline =
      ((store value read).mapError .fault).bind fun read' =>
        (⟨read', .nothing, [], false⟩ : State α).option rule inline := by
  unfold State.option
  rw [settle_holding]
  cases store value read <;> rfl

/-- **A value that is stored late might be stored at once.** -/
theorem readFrom_holding {read a : α} {store : Store α} {value : Bytes} {rest : List Bytes} :
    g.readFrom ⟨read, .holding store value, [], false⟩ rest = .ok a ↔
      ∃ read', store value read = .ok read' ∧
        g.readFrom ⟨read', .nothing, [], false⟩ rest = .ok a := by
  have hnil (ended : Bool) : g.readFrom ⟨read, .holding store value, [], ended⟩ [] = .ok a ↔
      ∃ read', store value read = .ok read' ∧ g.readFrom ⟨read', .nothing, [], ended⟩ [] = .ok a := by
    simp only [readFrom_nil_eq_ok_iff, settle_holding]
    cases store value read <;> simp [Except.map, State.settle]
  cases rest with
  | nil => exact hnil false
  | cons argument rest =>
    simp only [readFrom_cons_eq_ok_iff]
    by_cases hdashes : argument = [dash, dash]
    · subst hdashes
      simp only [next_dashes, Except.ok.injEq, exists_eq_left']
      constructor
      · intro h
        obtain rfl := nil_of_ended rfl rfl h
        exact (hnil true).mp h
      · rintro ⟨read', hstore, h⟩
        obtain rfl := nil_of_ended rfl rfl h
        exact (hnil true).mpr ⟨read', hstore, h⟩
    · cases hfound : g.recognise argument with
      | none =>
        have herror (read' : α) (pending : Pending α)
            (hpending : ∀ shown store', pending ≠ .awaiting shown store') :
            g.next ⟨read', pending, [], false⟩ argument =
              .error (.fault (.unexpected (Utf8.lossy argument))) :=
          next_eq_error rfl rfl hdashes hfound hpending
        simp [herror]
      | some found =>
        have hnext (read' : α) (pending : Pending α) : g.next ⟨read', pending, [], false⟩ argument =
            found.bind fun p => (⟨read', pending, [], false⟩ : State α).option p.1 p.2 :=
          next_of_recognise rfl hdashes hfound
        simp only [hnext]
        cases found with
        | error stop => simp [Except.bind]
        | ok p =>
          simp only [Except.bind, option_holding]
          cases store value read <;> simp

/-- **A value that is awaited has to follow**, and is stored before anything else. -/
theorem readFrom_awaiting {read a : α} {shown : String} {store : Store α} {arguments : List Bytes} :
    g.readFrom ⟨read, .awaiting shown store, [], false⟩ arguments = .ok a ↔
      ∃ value rest, arguments = value :: rest ∧ Separate value ∧
        ∃ read', store value read = .ok read' ∧
          g.readFrom ⟨read', .nothing, [], false⟩ rest = .ok a := by
  have hnil (ended : Bool) : g.readFrom ⟨read, .awaiting shown store, [], ended⟩ [] ≠ .ok a := by
    simp [readFrom_nil_eq_ok_iff, State.settle]
  cases arguments with
  | nil => simp [hnil]
  | cons argument rest =>
    simp only [readFrom_cons_eq_ok_iff]
    by_cases hseparate : Separate argument
    · obtain ⟨hdashes, hlong, hcluster⟩ := separate_iff.mp hseparate
      have hnext : g.next ⟨read, .awaiting shown store, [], false⟩ argument =
          .ok ⟨read, .holding store argument, [], false⟩ := by
        simp [next, hdashes, hlong, hcluster]
      simp only [hnext, Except.ok.injEq, exists_eq_left', readFrom_holding]
      constructor
      · rintro ⟨read', h⟩
        exact ⟨argument, rest, rfl, hseparate, read', h⟩
      · rintro ⟨value, rest', heq, -, h⟩
        obtain ⟨rfl, rfl⟩ := List.cons.inj heq
        exact h
    · constructor
      · rintro ⟨s', hnext, h⟩
        exfalso
        by_cases hdashes : argument = [dash, dash]
        · subst hdashes
          rw [next_dashes rfl, Except.ok.injEq] at hnext
          subst hnext
          obtain rfl := nil_of_ended rfl rfl h
          exact hnil true h
        · cases hfound : g.recognise argument with
          | none => exact hseparate (separate_iff.mpr ⟨hdashes, recognise_eq_none_iff.mp hfound⟩)
          | some found =>
            -- an option settles what is pending first, and the value is still missing
            rw [next_of_recognise rfl hdashes hfound] at hnext
            cases found with
            | error stop => simp [Except.bind] at hnext
            | ok p => simp [Except.bind, State.option, State.settle, bind] at hnext
      · rintro ⟨value, rest', heq, hvalue, -⟩
        obtain ⟨rfl, rfl⟩ := List.cons.inj heq
        exact absurd hvalue hseparate

end Grammar

theorem once_eq_ok_iff {α β : Type} {shown : String} {place : α → Option β} {fill : β → α → α}
    {read : Bytes → Except Fault β} {value : Bytes} {a b : α} :
    once shown place fill read value a = .ok b ↔
      place a = none ∧ ∃ x, read value = .ok x ∧ fill x a = b := by
  unfold once
  cases place a with
  | some y => simp
  | none => cases read value <;> simp [Except.map]

end Options

end Offside
