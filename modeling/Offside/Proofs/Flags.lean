import Offside.Proofs.Options
import Offside.Settings.Arguments

/-!
# The flags on a command line

`Written` cuts arguments into flags and their values, and `Given.Spelled` says what these give. The
arguments that are read without a fault are those that are written so (`Given.parse_eq_ok_iff`).
-/

namespace Offside

namespace Settings

open Options

/-- The flags that give settings, and the one that names a file with settings. -/
inductive Flag where
  | indentSize
  | logFilter
  | logFormat
  | configPath
  deriving Repr, DecidableEq

namespace Flag

def long : Flag → String
  | indentSize => "indent-size"
  | logFilter => "log-filter"
  | logFormat => "log-format"
  | configPath => "config-path"

def short : Flag → Option Char
  | indentSize => some 'i'
  | logFilter => some 'l'
  | logFormat => some 'L'
  | configPath => none

def shown : Flag → String
  | indentSize => Given.indentSizeShown
  | logFilter => Given.logFilterShown
  | logFormat => Given.logFormatShown
  | configPath => Given.configPathShown

/-- What a flag gives. -/
abbrev Val : Flag → Type
  | indentSize => Nat
  | logFilter => Text
  | logFormat => LogFormat
  | configPath => Bytes

def read : (f : Flag) → Bytes → Except Fault f.Val
  | indentSize => Given.readSize
  | logFilter => asText
  | logFormat => Given.readFormat
  | configPath => Given.readPath

def get : (f : Flag) → Given → Option f.Val
  | indentSize => Given.indentSize
  | logFilter => Given.logFilter
  | logFormat => Given.logFormat
  | configPath => Given.configPath

def set : (f : Flag) → f.Val → Given → Given
  | indentSize => fun n g => { g with indentSize := some n }
  | logFilter => fun t g => { g with logFilter := some t }
  | logFormat => fun l g => { g with logFormat := some l }
  | configPath => fun p g => { g with configPath := some p }

def store (f : Flag) : Store Given := once f.shown f.get f.set f.read

def rule (f : Flag) : Rule Given :=
  { long := f.long, short := f.short, shown := f.shown, action := .take f.store }

@[simp] theorem get_set_self (f : Flag) (x : f.Val) (g : Given) : f.get (f.set x g) = some x := by
  cases f <;> rfl

theorem get_set_ne {f f' : Flag} (h : f' ≠ f) (x : f.Val) (g : Given) :
    f'.get (f.set x g) = f'.get g := by
  cases f <;> cases f' <;> first | rfl | exact absurd rfl h

/-- The flags are all that the arguments give. -/
theorem ext_get {g g' : Given} (h : ∀ f : Flag, f.get g = f.get g') : g = g' := by
  obtain ⟨size, filter, format, path⟩ := g
  obtain ⟨size', filter', format', path'⟩ := g'
  have hsize : size = size' := h indentSize
  have hfilter : filter = filter' := h logFilter
  have hformat : format = format' := h logFormat
  have hpath : path = path' := h configPath
  rw [hsize, hfilter, hformat, hpath]

/-! ### The names of a flag -/

theorem rules_eq : Given.grammar.rules = [indentSize.rule, logFilter.rule, logFormat.rule,
    configPath.rule, { long := "help", short := some 'h', shown := "--help", action := .ask .help }] :=
  rfl

theorem exists_of_mem_rules {r : Rule Given} (h : r ∈ Given.grammar.rules) :
    (∃ f : Flag, r = f.rule) ∨ r.action = .ask .help := by
  rw [rules_eq] at h
  simp only [List.mem_cons, List.not_mem_nil, or_false] at h
  rcases h with rfl | rfl | rfl | rfl | rfl
  · exact .inl ⟨indentSize, rfl⟩
  · exact .inl ⟨logFilter, rfl⟩
  · exact .inl ⟨logFormat, rfl⟩
  · exact .inl ⟨configPath, rfl⟩
  · exact .inr rfl

theorem long_spec (f : Flag) : Bytes.ofString f.long ≠ [] ∧ equals ∉ Bytes.ofString f.long := by
  cases f <;> decide +kernel

theorem find_long (f : Flag) :
    Given.grammar.rules.find? (fun r => Bytes.ofString r.long == Bytes.ofString f.long) =
      some f.rule := by
  have hnames : ∀ f f' : Flag, (Bytes.ofString f.long == Bytes.ofString f'.long) = decide (f = f') := by
    intro f f'
    cases f <;> cases f' <;> decide +kernel
  rw [rules_eq]
  cases f <;> simp [rule, hnames]

theorem find_short {f : Flag} {c : Char} (h : f.short = some c) :
    Given.grammar.rules.find? (fun r => r.short == some c) = some f.rule := by
  rw [rules_eq]
  cases f <;> simp only [short, Option.some.injEq, reduceCtorEq] at h <;> subst h <;> rfl

theorem short_spec {f : Flag} {c : Char} (h : f.short = some c) :
    String.utf8EncodeChar c = [c.toUInt8] ∧ c.toUInt8 ≠ dash := by
  cases f <;> simp only [short, Option.some.injEq, reduceCtorEq] at h <;> subst h <;> decide

/-- The ways to name a flag in an argument, which may hold the value too. -/
inductive Names (f : Flag) : Bytes → Option Bytes → Prop
  | long : f.Names (dash :: dash :: Bytes.ofString f.long) none
  | longEquals (v : Bytes) : f.Names (dash :: dash :: (Bytes.ofString f.long ++ equals :: v)) (some v)
  | short {c : Char} : f.short = some c → f.Names [dash, c.toUInt8] none
  | shortEquals {c : Char} (v : Bytes) :
      f.short = some c → f.Names (dash :: c.toUInt8 :: equals :: v) (some v)
  | shortDirect {c : Char} {b : UInt8} (v : Bytes) :
      f.short = some c → b ≠ equals → f.Names (dash :: c.toUInt8 :: b :: v) (some (b :: v))

theorem recognise_of_long {f : Flag} {argument : Bytes} {inline : Option Bytes}
    (h : long? argument = some (Bytes.ofString f.long, inline)) :
    Given.grammar.recognise argument = some (.ok (f.rule, inline)) := by
  simp only [Grammar.recognise, h, Grammar.longRule, find_long]
  rfl

theorem recognise_of_short {f : Flag} {c : Char} (h : f.short = some c) (rest : Bytes) :
    Given.grammar.recognise (dash :: c.toUInt8 :: rest) = some (.ok (f.rule, clusterValue rest)) := by
  obtain ⟨hencode, hdash⟩ := short_spec h
  have hlong : long? (dash :: c.toUInt8 :: rest) = none := by
    cases rest <;> simp [long?, hdash]
  have hcluster : cluster? (dash :: c.toUInt8 :: rest) = some (c.toUInt8 :: rest) := by
    simp [cluster?, hdash]
  have hfirst : Utf8.first (c.toUInt8 :: rest) = some c :=
    Utf8.first_eq_some_iff.mpr ⟨rest, by rw [hencode]; rfl⟩
  have hsize : c.utf8Size = 1 := by
    rw [← String.length_utf8EncodeChar, hencode]
    rfl
  simp [Grammar.recognise, hlong, hcluster, Grammar.clusterRule, hfirst, find_short h, hsize]

theorem Names.recognise {f : Flag} {argument : Bytes} {inline : Option Bytes}
    (h : f.Names argument inline) :
    Given.grammar.recognise argument = some (.ok (f.rule, inline)) := by
  obtain ⟨hne, hequals⟩ := f.long_spec
  cases h with
  | long =>
    apply recognise_of_long
    rw [long?_dashes hne, cutAt_of_not_mem hequals]
  | longEquals v =>
    apply recognise_of_long
    rw [long?_dashes (by simp [hne]), cutAt_append hequals]
  | short h => exact recognise_of_short h []
  | shortEquals v h => rw [recognise_of_short h, clusterValue, if_pos rfl]
  | shortDirect v h hb => rw [recognise_of_short h, clusterValue, if_neg hb]

/-- **No other argument names a flag.** -/
theorem names_of_recognise {argument : Bytes} {r : Rule Given} {inline : Option Bytes}
    (h : Given.grammar.recognise argument = some (.ok (r, inline))) :
    (∃ f : Flag, r = f.rule ∧ f.Names argument inline) ∨ r.action = .ask .help := by
  unfold Grammar.recognise at h
  cases hlong : long? argument with
  | some p =>
    obtain ⟨name, value⟩ := p
    simp only [hlong, Option.some.injEq] at h
    unfold Grammar.longRule at h
    cases hfind : Given.grammar.rules.find? fun r => Bytes.ofString r.long == name with
    | none => simp [hfind] at h
    | some r' =>
      have hr : r' = r ∧ value = inline := by
        simp only [hfind] at h
        cases haction : r'.action <;> cases value <;> simp_all
      obtain ⟨rfl, rfl⟩ := hr
      rcases exists_of_mem_rules (List.mem_of_find?_eq_some hfind) with ⟨f, rfl⟩ | hask
      · have hname : Bytes.ofString f.long = name := by simpa [rule] using List.find?_some hfind
        refine .inl ⟨f, rfl, ?_⟩
        rw [eq_of_long? hlong, ← hname]
        cases value with
        | none => simpa using Names.long
        | some v => exact Names.longEquals v
      · exact .inr hask
  | none =>
    cases hcluster : cluster? argument with
    | none => simp [hlong, hcluster] at h
    | some letters =>
      simp only [hlong, hcluster, Option.some.injEq] at h
      unfold Grammar.clusterRule at h
      cases hfirst : Utf8.first letters with
      | none => simp [hfirst] at h
      | some c =>
        simp only [hfirst] at h
        cases hfind : Given.grammar.rules.find? fun r => r.short == some c with
        | none => simp [hfind] at h
        | some r' =>
          simp only [hfind, Except.ok.injEq, Prod.mk.injEq] at h
          obtain ⟨rfl, rfl⟩ := h
          rcases exists_of_mem_rules (List.mem_of_find?_eq_some hfind) with ⟨f, rfl⟩ | hask
          · have hshort : f.short = some c := by simpa [rule] using List.find?_some hfind
            obtain ⟨hencode, -⟩ := short_spec hshort
            obtain ⟨rest, rfl⟩ := Utf8.first_eq_some_iff.mp hfirst
            refine .inl ⟨f, rfl, ?_⟩
            rw [eq_of_cluster? hcluster, ← String.length_utf8EncodeChar, List.drop_left, hencode]
            cases rest with
            | nil => exact Names.short hshort
            | cons b v =>
              by_cases hb : b = equals
              · subst hb
                exact Names.shortEquals v hshort
              · rw [clusterValue, if_neg hb]
                exact Names.shortDirect v hshort hb
          · exact .inr hask

theorem store_eq_ok_iff {f : Flag} {v : Bytes} {g g' : Given} :
    f.store v g = .ok g' ↔ f.get g = none ∧ ∃ x, f.read v = .ok x ∧ f.set x g = g' :=
  once_eq_ok_iff

end Flag

/-! ### All arguments -/

/-- Arguments, cut into flags and their values. -/
inductive Written : List Bytes → List (Flag × Bytes) → Prop
  | nil : Written [] []
  | dashes : Written [[dash, dash]] []
  | inline {f : Flag} {argument v : Bytes} {rest : List Bytes} {flags : List (Flag × Bytes)} :
      f.Names argument (some v) → Written rest flags → Written (argument :: rest) ((f, v) :: flags)
  | apart {f : Flag} {argument v : Bytes} {rest : List Bytes} {flags : List (Flag × Bytes)} :
      f.Names argument none → Separate v → Written rest flags →
      Written (argument :: v :: rest) ((f, v) :: flags)

namespace Given

/-- Arguments that are read: each flag stands at most once, with a value that fits it, and this is what
they give. -/
def Spelled (arguments : List Bytes) (given : Given) : Prop :=
  ∃ flags, Written arguments flags ∧ (flags.map Prod.fst).Nodup ∧
    (∀ f v, (f, v) ∈ flags → ∃ x, f.read v = .ok x ∧ f.get given = some x) ∧
    ∀ f, f ∉ flags.map Prod.fst → f.get given = none

/-- Stores the values of flags one after the other. -/
def storeAll (flags : List (Flag × Bytes)) (g : Given) : Except Fault Given :=
  flags.foldlM (fun g u => u.1.store u.2 g) g

theorem storeAll_nil_eq_ok_iff {g a : Given} : storeAll [] g = .ok a ↔ g = a :=
  ⟨Except.ok.inj, congrArg Except.ok⟩

theorem storeAll_cons_eq_ok_iff {f : Flag} {v : Bytes} {flags : List (Flag × Bytes)} {g a : Given} :
    storeAll ((f, v) :: flags) g = .ok a ↔
      ∃ g', f.store v g = .ok g' ∧ storeAll flags g' = .ok a := by
  show (f.store v g).bind (storeAll flags) = .ok a ↔ _
  cases f.store v g <;> simp [Except.bind]

theorem next_of_names {f : Flag} {argument : Bytes} {inline : Option Bytes}
    (h : f.Names argument inline) (g : Given) :
    grammar.next ⟨g, .nothing, [], false⟩ argument =
      (⟨g, .nothing, [], false⟩ : State Given).option f.rule inline := by
  have hfound := h.recognise
  have hdashes : argument ≠ [dash, dash] := by
    rintro rfl
    exact absurd hfound (by simp [Grammar.recognise, long?, cluster?])
  exact Grammar.next_of_recognise rfl hdashes hfound

theorem readFrom_inline {f : Flag} {argument v : Bytes} (h : f.Names argument (some v)) {g a : Given}
    {rest : List Bytes} :
    grammar.readFrom ⟨g, .nothing, [], false⟩ (argument :: rest) = .ok a ↔
      ∃ g', f.store v g = .ok g' ∧ grammar.readFrom ⟨g', .nothing, [], false⟩ rest = .ok a := by
  have hoption : (⟨g, .nothing, [], false⟩ : State Given).option f.rule (some v) =
      ((f.store v g).map fun g' => ⟨g', .nothing, [], false⟩).mapError .fault := by
    show ((f.store v g).mapError Stop.fault).bind
      (fun g' => Except.ok (⟨g', .nothing, [], false⟩ : State Given)) = _
    cases f.store v g <;> rfl
  rw [Grammar.readFrom_cons_eq_ok_iff, next_of_names h, hoption]
  cases f.store v g <;> simp [Except.map]

theorem readFrom_apart {f : Flag} {argument : Bytes} (h : f.Names argument none) {g a : Given}
    {rest : List Bytes} :
    grammar.readFrom ⟨g, .nothing, [], false⟩ (argument :: rest) = .ok a ↔
      ∃ v rest', rest = v :: rest' ∧ Separate v ∧ ∃ g', f.store v g = .ok g' ∧
        grammar.readFrom ⟨g', .nothing, [], false⟩ rest' = .ok a := by
  have hoption : (⟨g, .nothing, [], false⟩ : State Given).option f.rule none =
      .ok ⟨g, .awaiting f.shown f.store, [], false⟩ := rfl
  rw [Grammar.readFrom_cons_eq_ok_iff, next_of_names h, hoption]
  simp only [Except.ok.injEq, exists_eq_left', Grammar.readFrom_awaiting]

theorem readFrom_nil {g a : Given} {ended : Bool} :
    grammar.readFrom ⟨g, .nothing, [], ended⟩ [] = .ok a ↔ g = a := by
  simp [Grammar.readFrom_nil_eq_ok_iff, State.settle]

theorem readFrom_of_written {arguments : List Bytes} {flags : List (Flag × Bytes)}
    (h : Written arguments flags) {g a : Given} (hstore : storeAll flags g = .ok a) :
    grammar.readFrom ⟨g, .nothing, [], false⟩ arguments = .ok a := by
  induction h generalizing g with
  | nil => exact readFrom_nil.mpr (storeAll_nil_eq_ok_iff.mp hstore)
  | dashes =>
    refine Grammar.readFrom_cons_eq_ok_iff.mpr ⟨_, Grammar.next_dashes rfl, ?_⟩
    exact readFrom_nil.mpr (storeAll_nil_eq_ok_iff.mp hstore)
  | inline hnames _ ih =>
    obtain ⟨g', hfirst, hlater⟩ := storeAll_cons_eq_ok_iff.mp hstore
    exact (readFrom_inline hnames).mpr ⟨g', hfirst, ih hlater⟩
  | @apart f argument v rest flags hnames hseparate _ ih =>
    obtain ⟨g', hfirst, hlater⟩ := storeAll_cons_eq_ok_iff.mp hstore
    exact (readFrom_apart hnames).mpr ⟨v, rest, rfl, hseparate, g', hfirst, ih hlater⟩

theorem written_of_readFrom {arguments : List Bytes} {g a : Given}
    (h : grammar.readFrom ⟨g, .nothing, [], false⟩ arguments = .ok a) :
    ∃ flags, Written arguments flags ∧ storeAll flags g = .ok a := by
  match arguments with
  | [] => exact ⟨[], .nil, storeAll_nil_eq_ok_iff.mpr (readFrom_nil.mp h)⟩
  | argument :: rest =>
    obtain ⟨s', hnext, hrest⟩ := Grammar.readFrom_cons_eq_ok_iff.mp h
    by_cases hdashes : argument = [dash, dash]
    · subst hdashes
      rw [Grammar.next_dashes rfl, Except.ok.injEq] at hnext
      subst hnext
      obtain rfl := Grammar.nil_of_ended rfl rfl hrest
      exact ⟨[], .dashes, storeAll_nil_eq_ok_iff.mpr (readFrom_nil.mp hrest)⟩
    cases hfound : grammar.recognise argument with
    | none =>
      rw [Grammar.next_eq_error rfl rfl hdashes hfound (by simp)] at hnext
      exact absurd hnext (by simp)
    | some found =>
      rw [Grammar.next_of_recognise rfl hdashes hfound] at hnext
      cases found with
      | error stop => exact absurd hnext (by simp [Except.bind])
      | ok p =>
        obtain ⟨r, inline⟩ := p
        rcases Flag.names_of_recognise hfound with ⟨f, rfl, hnames⟩ | hask
        · cases inline with
          | some v =>
            obtain ⟨g', hstore, hrest⟩ := (readFrom_inline hnames).mp h
            obtain ⟨flags, hwritten, hflags⟩ := written_of_readFrom hrest
            exact ⟨(f, v) :: flags, .inline hnames hwritten,
              storeAll_cons_eq_ok_iff.mpr ⟨g', hstore, hflags⟩⟩
          | none =>
            obtain ⟨v, rest', rfl, hseparate, g', hstore, hrest⟩ := (readFrom_apart hnames).mp h
            obtain ⟨flags, hwritten, hflags⟩ := written_of_readFrom hrest
            exact ⟨(f, v) :: flags, .apart hnames hseparate hwritten,
              storeAll_cons_eq_ok_iff.mpr ⟨g', hstore, hflags⟩⟩
        · -- an option without a value ends the reading
          simp [Except.bind, State.option, State.settle, hask, bind, throw, throwThe,
            MonadExceptOf.throw] at hnext
termination_by arguments.length

/-- **Each flag is stored once**, and the rest of what is given stays. -/
theorem storeAll_eq_ok_iff {flags : List (Flag × Bytes)} {g a : Given} :
    storeAll flags g = .ok a ↔
      (flags.map Prod.fst).Nodup ∧
      (∀ f v, (f, v) ∈ flags → f.get g = none ∧ ∃ x, f.read v = .ok x ∧ f.get a = some x) ∧
      ∀ f, f ∉ flags.map Prod.fst → f.get a = f.get g := by
  induction flags generalizing g with
  | nil =>
    constructor
    · intro h
      obtain rfl := storeAll_nil_eq_ok_iff.mp h
      simp
    · rintro ⟨-, -, h⟩
      exact storeAll_nil_eq_ok_iff.mpr (Flag.ext_get fun f => (h f (by simp)).symm)
  | cons u flags ih =>
    obtain ⟨f, v⟩ := u
    rw [storeAll_cons_eq_ok_iff]
    constructor
    · rintro ⟨g', hstore, hflags⟩
      obtain ⟨hnone, x, hread, rfl⟩ := Flag.store_eq_ok_iff.mp hstore
      obtain ⟨hnodup, hmem, hother⟩ := ih.mp hflags
      have hnew : f ∉ flags.map Prod.fst := by
        intro hf
        obtain ⟨⟨f', v'⟩, hin, rfl⟩ := List.mem_map.mp hf
        -- a flag that stands again finds its place taken
        have hfree := (hmem f' v' hin).1
        simp at hfree
      refine ⟨List.nodup_cons.mpr ⟨hnew, hnodup⟩, ?_, ?_⟩
      · intro f' v' hin
        rcases List.mem_cons.mp hin with heq | htail
        · obtain ⟨rfl, rfl⟩ := Prod.mk.inj heq
          exact ⟨hnone, x, hread, by rw [hother f' hnew, Flag.get_set_self]⟩
        · have hne : f' ≠ f := by
            rintro rfl
            exact hnew (List.mem_map.mpr ⟨(f', v'), htail, rfl⟩)
          rw [← Flag.get_set_ne hne x g]
          exact hmem f' v' htail
      · intro f' hf'
        simp only [List.map_cons, List.mem_cons, not_or] at hf'
        rw [hother f' hf'.2, Flag.get_set_ne hf'.1]
    · rintro ⟨hnodup, hmem, hother⟩
      obtain ⟨hnew, hnodup⟩ := List.nodup_cons.mp hnodup
      obtain ⟨hnone, x, hread, hget⟩ := hmem f v List.mem_cons_self
      refine ⟨f.set x g, Flag.store_eq_ok_iff.mpr ⟨hnone, x, hread, rfl⟩, ih.mpr ⟨hnodup, ?_, ?_⟩⟩
      · intro f' v' hin
        have hne : f' ≠ f := by
          rintro rfl
          exact hnew (List.mem_map.mpr ⟨(f', v'), hin, rfl⟩)
        rw [Flag.get_set_ne hne]
        exact hmem f' v' (List.mem_cons_of_mem _ hin)
      · intro f' hf'
        by_cases hne : f' = f
        · subst hne
          rw [hget, Flag.get_set_self]
        · rw [Flag.get_set_ne hne]
          exact hother f' (by simp [hne, hf'])

/-- **Arguments are read exactly if they are spelled as flags**, and then they give what is spelled. -/
theorem parse_eq_ok_iff {arguments : List Bytes} {given : Given} :
    parse arguments = .ok given ↔ Spelled arguments given := by
  have hempty (f : Flag) : f.get {} = none := by cases f <;> rfl
  constructor
  · intro h
    obtain ⟨flags, hwritten, hstore⟩ := written_of_readFrom h
    obtain ⟨hnodup, hmem, hother⟩ := storeAll_eq_ok_iff.mp hstore
    exact ⟨flags, hwritten, hnodup, fun f v hin => (hmem f v hin).2,
      fun f hf => (hother f hf).trans (hempty f)⟩
  · rintro ⟨flags, hwritten, hnodup, hmem, hother⟩
    refine readFrom_of_written hwritten (storeAll_eq_ok_iff.mpr ⟨hnodup, ?_, ?_⟩)
    · exact fun f v hin => ⟨hempty f, hmem f v hin⟩
    · exact fun f hf => (hother f hf).trans (hempty f).symm

end Given

end Settings

end Offside
