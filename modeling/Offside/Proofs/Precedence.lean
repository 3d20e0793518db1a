import Mathlib.Data.List.Induction
import Offside.Proofs.Flags
import Offside.Settings.Load

/-!
# Which value of a setting counts

A setting can be given by a flag, a variable, a file and as a standard. The layers of these are laid over
each other as a whole; what comes out is said here setting by setting. Two things keep it from being just
the first value that is given.

* Flags that repeat the three standard settings, and name no file, count for nothing, all three of them
  (`Given.counted`). A flag may then lose against a variable or a file.
* A table of the environment is laid over a table of the file. Only a format can be a table. The variable
  prevails all the same, unless its table is empty (`Reads.later`), for a table that means a format has a
  single key. This takes that no table of the environment has a key twice (`Environment.distinct_given?`).
-/

namespace Offside.Settings

/-! ### Tables -/

namespace Fields

def keys : Fields → List Text
  | nil => []
  | cons key _ rest => key :: rest.keys

theorem get?_put (key other : Text) (v : Value) : ∀ f : Fields,
    (f.put key v).get? other = if key = other then some v else f.get? other
  | nil => by simp [put, get?]
  | cons k w rest => by
    by_cases hk : k = key
    · subst hk
      by_cases hother : k = other <;> simp [put, get?, hother]
    · have ih := get?_put key other v rest
      by_cases hother : k = other
      · subst hother
        simp [put, get?, hk, Ne.symm hk]
      · simp [put, get?, hk, hother, ih]

theorem mem_keys_put (key other : Text) (v : Value) : ∀ f : Fields,
    other ∈ (f.put key v).keys ↔ other = key ∨ other ∈ f.keys
  | nil => by simp [put, keys]
  | cons k w rest => by
    by_cases hk : k = key
    · simp [put, keys, hk]
    · simp only [put, hk, if_false, keys, List.mem_cons, mem_keys_put key other v rest]
      tauto

theorem nodup_put (key : Text) (v : Value) : ∀ f : Fields, f.keys.Nodup → (f.put key v).keys.Nodup
  | nil, _ => by simp [put, keys]
  | cons k w rest, h => by
    obtain ⟨hnew, hrest⟩ := List.nodup_cons.mp h
    by_cases hk : k = key
    · simpa [put, keys, hk] using h
    · have hmem : k ∉ (rest.put key v).keys := by
        rw [mem_keys_put]
        tauto
      simpa [put, hk, keys] using ⟨hmem, nodup_put key v rest hrest⟩

theorem nodup_overlay : ∀ f t : Fields, f.keys.Nodup → (f.overlay t).keys.Nodup
  | f, nil, h => by
    rw [overlay]
    exact h
  | f, cons key v later, h => by
    rw [overlay]
    exact nodup_overlay _ later (nodup_put key _ f h)

theorem mem_keys_overlay (other : Text) : ∀ f t : Fields,
    other ∈ (f.overlay t).keys ↔ other ∈ f.keys ∨ other ∈ t.keys
  | f, nil => by simp [overlay, keys]
  | f, cons key v later => by
    rw [overlay, mem_keys_overlay other _ later, mem_keys_put, keys, List.mem_cons]
    tauto

theorem get?_overlay_single (f : Fields) (key other : Text) (v : Value) :
    (f.overlay (single key v)).get? other =
      if key = other then Layer.prevailing? (f.get? other) (some v) else f.get? other := by
  rw [single, overlay, overlay, get?_put]
  by_cases h : key = other
  · subst h
    cases f.get? key <;> simp [Layer.prevailing?]
  · simp [h]

end Fields

namespace Value

/-- No key of a table stands twice. -/
def Distinct : Value → Prop
  | table fields => fields.keys.Nodup
  | _ => True

/-- **The later value prevails**, or both are tables and are laid over each other. -/
theorem overlay_cases (earlier later : Value) : earlier.overlay later = later ∨
    ∃ f t, earlier = table f ∧ later = table t ∧ earlier.overlay later = table (f.overlay t) := by
  cases later with
  | table t =>
    cases earlier with
    | table f => exact .inr ⟨f, t, rfl, rfl, rfl⟩
    | _ => exact .inl rfl
  | _ => exact .inl rfl

theorem overlay_of_ne_table {earlier later : Value}
    (h : (∀ f, earlier ≠ table f) ∨ ∀ t, later ≠ table t) : earlier.overlay later = later := by
  rcases overlay_cases earlier later with heq | ⟨f, t, hf, ht, -⟩
  · exact heq
  · exact absurd h (by simp [hf, ht])

theorem Distinct.overlay {earlier later : Value} (he : earlier.Distinct) (hl : later.Distinct) :
    (earlier.overlay later).Distinct := by
  rcases overlay_cases earlier later with heq | ⟨f, t, rfl, rfl, heq⟩
  · rw [heq]
    exact hl
  · exact Fields.nodup_overlay f t he

/-- A table that means a format is the later one of two, unless that is empty. -/
theorem eq_of_overlay_tables {f t : Fields} (ht : t.keys.Nodup) (hne : t ≠ .nil) {key : Text}
    (h : f.overlay t = .cons key nothing .nil) : t = .cons key nothing .nil := by
  have hkeys : ∀ other ∈ t.keys, other = key := by
    intro other hother
    have hmem := (Fields.mem_keys_overlay other f t).mpr (.inr hother)
    simpa [h, Fields.keys] using hmem
  match t, ht, hne with
  | .cons k v .nil, _, _ =>
    obtain rfl : k = key := hkeys k (by simp [Fields.keys])
    have hget : Layer.prevailing? (f.get? k) (some v) = some nothing := by
      have hsingle := Fields.get?_overlay_single f k k v
      rw [if_pos rfl, Fields.single, h] at hsingle
      simpa [Fields.get?] using hsingle.symm
    have hv : v = nothing := by
      cases hold : f.get? k with
      | none => simpa [hold, Layer.prevailing?] using hget
      | some old =>
        simp only [hold, Layer.prevailing?, Option.some.injEq] at hget
        rcases overlay_cases old v with heq | ⟨_, _, _, _, heq⟩
        · rw [← heq, hget]
        · exact absurd (heq.symm.trans hget) (by simp)
    rw [hv]
  | .cons k v (.cons k' v' rest), ht, _ =>
    have hk : k = key := hkeys k (by simp [Fields.keys])
    have hk' : k' = key := hkeys k' (by simp [Fields.keys])
    simp [Fields.keys, hk, hk'] at ht

theorem exists_of_format? {f : Fields} {l : LogFormat} (h : (table f).format? = some l) :
    ∃ key, f = .cons key nothing .nil ∧ LogFormat.ofName? key = some l := by
  unfold format? at h
  split at h
  · exact absurd ‹table f = _› (by simp)
  · rename_i key heq
    exact ⟨key, by simpa using heq, h⟩
  · exact absurd h (by simp)

end Value

/-- A way to read a value as a setting of which tables are no hindrance: of two values that are laid over
each other the later one is read, and an empty table is as good as none. -/
structure Reads {α : Type} (r : Value → Option α) : Prop where
  later {earlier later : Value} {x : α} : later.Distinct → later ≠ .table .nil →
    r (earlier.overlay later) = some x → r later = some x
  earlier {earlier : Value} {x : α} : r (earlier.overlay (.table .nil)) = some x → r earlier = some x

namespace Reads

/-- What no table can be read as is taken from the later value. -/
theorem of_tables {α : Type} {r : Value → Option α} (hr : ∀ f, r (.table f) = none) : Reads r where
  later := by
    intro earlier later x _ _ h
    rcases Value.overlay_cases earlier later with heq | ⟨f, t, _, _, heq⟩
    · rwa [heq] at h
    · simp [heq, hr] at h
  earlier := by
    intro earlier x h
    rcases Value.overlay_cases earlier (.table .nil) with heq | ⟨f, t, _, _, heq⟩
    · simp [heq, hr] at h
    · simp [heq, hr] at h

theorem size : Reads Value.size? := of_tables fun _ => rfl

theorem text : Reads Value.text? := of_tables fun _ => rfl

theorem format : Reads Value.format? where
  later := by
    intro earlier later l hdistinct hne h
    rcases Value.overlay_cases earlier later with heq | ⟨f, t, rfl, rfl, heq⟩
    · rwa [heq] at h
    · obtain ⟨key, hkey, hname⟩ := Value.exists_of_format? (heq ▸ h)
      have hnil : t ≠ .nil := fun ht => hne (by rw [ht])
      rw [Value.eq_of_overlay_tables hdistinct hnil hkey]
      exact hname
  earlier := by
    intro earlier l h
    rcases Value.overlay_cases earlier (.table .nil) with heq | ⟨f, t, rfl, ht, heq⟩
    · rw [heq] at h
      exact absurd h (by simp [Value.format?])
    · obtain rfl : Fields.nil = t := by simpa using ht
      rwa [heq, Fields.overlay] at h

end Reads

/-! ### The environment -/

namespace Environment

/-- What a variable gives for a key: its value, or a table if the name leads further. -/
def gives? (key : Text) (v : Text × Text) : Option Value :=
  match path? v.1 with
  | some (k :: path) => if k = key then some (nested path (read v.2)) else none
  | _ => none

example : gives? "indent_size".toList ("Bython_Indent_Size".toList, " 3".toList) = some (.integer 3) := by
  decide +kernel

/-- What the variables for a key give together; those for other keys have no part in it. -/
def given? (environment : Variables) (key : Text) : Option Value :=
  environment.foldl (fun sofar v => Layer.prevailing? sofar (gives? key v)) none

theorem get?_fields (environment : Variables) (key : Text) :
    (fields environment).get? key = given? environment key := by
  induction environment using List.reverseRecOn with
  | nil => rfl
  | append_singleton environment v ih =>
    simp only [fields, given?, List.foldl_append, List.foldl_cons, List.foldl_nil] at ih ⊢
    rw [← ih]
    unfold gives?
    cases hpath : path? v.1 with
    | none => simp [Layer.prevailing?]
    | some path =>
      cases path with
      | nil => simp [Layer.prevailing?]
      | cons k path =>
        simp only [Fields.get?_overlay_single]
        by_cases hk : k = key
        · simp [hk]
        · simp [hk, Layer.prevailing?]

theorem nodup_pairs? {fuel : Nat} {fields f : Fields} {t rest : Text} (hfields : fields.keys.Nodup)
    (h : pairs? fuel fields t = some (f, rest)) : f.keys.Nodup := by
  induction fuel generalizing fields t with
  | zero => simp [pairs?] at h
  | succ fuel ih =>
    unfold pairs? at h
    split at h
    · obtain ⟨rfl, -⟩ := Prod.mk.inj (Option.some.inj h)
      exact hfields
    · split at h
      · simp at h
      · split at h
        · exact ih (Fields.nodup_put _ _ _ hfields) h
        · obtain ⟨rfl, -⟩ := Prod.mk.inj (Option.some.inj h)
          exact Fields.nodup_put _ _ _ hfields
        · simp at h

theorem distinct_scalar (t : Text) : (scalar t).Distinct := by
  unfold scalar
  split
  · split <;> trivial
  all_goals trivial

theorem distinct_value? {fuel : Nat} {t rest : Text} {v : Value}
    (h : value? fuel t = some (v, rest)) : v.Distinct := by
  cases fuel with
  | zero => simp [value?] at h
  | succ fuel =>
    unfold value? at h
    split at h <;>
      simp only [Option.map_eq_some_iff, Option.some.injEq, Prod.mk.injEq, reduceCtorEq] at h
    · obtain ⟨rfl, -⟩ := h
      trivial
    · obtain ⟨rfl, -⟩ := h
      trivial
    · obtain ⟨_, _, rfl, -⟩ := h
      trivial
    · obtain ⟨p, hpairs, rfl, -⟩ := h
      have hnil : Fields.nil.keys.Nodup := List.nodup_nil
      exact nodup_pairs? hnil hpairs
    · obtain ⟨_, _, rfl, -⟩ := h
      trivial
    · obtain ⟨rfl, -⟩ := h
      trivial
    · obtain ⟨rfl, -⟩ := h
      exact distinct_scalar _

theorem distinct_read (raw : Text) : (read raw).Distinct := by
  unfold read
  simp only
  split
  · trivial
  · split
    · trivial
    · split
      · rename_i v hvalue
        exact distinct_value? hvalue
      · trivial

theorem distinct_gives? {key : Text} {v : Text × Text} {value : Value}
    (h : gives? key v = some value) : value.Distinct := by
  unfold gives? at h
  split at h
  · rename_i k path _
    split at h
    · obtain rfl := Option.some.inj h
      cases path with
      | nil => exact distinct_read _
      | cons k path => simp [nested, Value.Distinct, Fields.single, Fields.keys]
    · simp at h
  · simp at h

/-- **No table of the environment has a key twice.** -/
theorem distinct_given? {environment : Variables} {key : Text} {value : Value}
    (h : given? environment key = some value) : value.Distinct := by
  induction environment using List.reverseRecOn generalizing value with
  | nil => simp [given?] at h
  | append_singleton environment v ih =>
    have hlast : given? (environment ++ [v]) key =
        Layer.prevailing? (given? environment key) (gives? key v) := by
      simp [given?]
    rw [hlast] at h
    cases hlater : gives? key v with
    | none =>
      cases hsofar : given? environment key with
      | none => simp [hsofar, hlater, Layer.prevailing?] at h
      | some sofar =>
        simp only [hsofar, hlater, Layer.prevailing?, Option.some.injEq] at h
        exact h ▸ ih hsofar
    | some later =>
      cases hsofar : given? environment key with
      | none =>
        simp only [hsofar, hlater, Layer.prevailing?, Option.some.injEq] at h
        exact h ▸ distinct_gives? hlater
      | some sofar =>
        simp only [hsofar, hlater, Layer.prevailing?, Option.some.injEq] at h
        exact h ▸ (ih hsofar).overlay (distinct_gives? hlater)

end Environment

/-! ### The file -/

/-- What the file gives: it is the first one that loads. -/
def Surroundings.fileLayer (s : Surroundings) (named : Option Bytes) : Layer :=
  ((s.candidates named).findSome? fun c => (loadFile s c.path).toOption).getD {}

theorem search_layer (s : Surroundings) (optional : List FailedFile) (cs : List Candidate) :
    (search s optional cs).layer =
      (cs.findSome? fun c => (loadFile s c.path).toOption).getD {} := by
  induction cs generalizing optional with
  | nil => rfl
  | cons c cs ih =>
    rw [List.findSome?_cons]
    cases hload : loadFile s c.path with
    | ok layer => simp [search, hload, Except.toOption]
    | error problem =>
      have hnone : (Except.error problem : Except FileProblem Layer).toOption = none := rfl
      simp only [search, hload, hnone]
      by_cases hrequired : c.required
      · simpa [hrequired] using ih optional
      · by_cases hmissing : problem = .unreadable .missing
        · simpa [hrequired, hmissing] using ih optional
        · simpa [hrequired, hmissing] using ih _

/-! ### All layers -/

/-- What holds for a setting when no flag counts: the value of the environment, then of the file, then the
standard. An empty table of the environment is as good as no variable. -/
def withoutFlag (environment file : Option Value) (standard : Value) : Value :=
  ((environment.filter (· ≠ .table .nil)).or file).getD standard

/-- Flags that repeat what is standard. -/
def Given.repeated : Given where
  indentSize := some standard.indentSize
  logFilter := some standard.logFilter
  logFormat := some standard.logFormat

/-- The flags that count: all, unless they just repeat what is standard. -/
def Given.counted (given : Given) : Given := if given = Given.repeated then {} else given

theorem Given.layer_eq (given : Given) :
    given.layer =
      { indentSize := given.counted.indentSize.map fun n : Nat => Value.integer n
        logFilter := given.counted.logFilter.map .text
        logFormat := given.counted.logFormat.map fun f => .text f.name.toList } := by
  have hstandard : given.isStandard = decide (given = Given.repeated) := rfl
  unfold Given.layer Given.counted
  rw [hstandard]
  by_cases h : given = Given.repeated
  · simp [h]
  · cases hsize : given.indentSize <;> simp [h, hsize]

/-- **One setting**: of what is laid over each other, the value that counts is read. -/
theorem Reads.precedence {α : Type} {r : Value → Option α} (hr : Reads r) {flag : Option α}
    {ofFlag : α → Value} (htable : ∀ a t, ofFlag a ≠ .table t)
    (hback : ∀ a x, r (ofFlag a) = some x → a = x) {environment file : Option Value}
    (hdistinct : ∀ v, environment = some v → v.Distinct) {standard : Value}
    (hstandard : ∀ t, standard ≠ .table t) {v : Value} {x : α}
    (hv : Layer.prevailing? (Layer.prevailing? (Layer.prevailing? (some standard) file) environment)
      (flag.map ofFlag) = some v) (hx : r v = some x) :
    flag.or (r (withoutFlag environment file standard)) = some x := by
  have hfile : Layer.prevailing? (some standard) file = some (file.getD standard) := by
    cases file with
    | none => rfl
    | some v => exact congrArg some (Value.overlay_of_ne_table (.inl hstandard))
  rw [hfile] at hv
  cases flag with
  | some a =>
    have hlast (below : Value) : below.overlay (ofFlag a) = ofFlag a :=
      Value.overlay_of_ne_table (.inr (htable a))
    have hv' : v = ofFlag a := by
      cases environment <;> simpa [Layer.prevailing?, hlast] using hv.symm
    rw [Option.some_or, hback a x (hv' ▸ hx)]
  | none =>
    rw [Option.none_or]
    cases environment with
    | none =>
      obtain rfl := Option.some.inj hv
      exact hx
    | some e =>
      obtain rfl := Option.some.inj hv
      by_cases he : e = .table .nil
      · subst he
        exact hr.earlier hx
      · have hchosen : withoutFlag (some e) file standard = e := by
          simp [withoutFlag, Option.filter, he]
        rw [hchosen]
        exact hr.later (hdistinct e rfl) he hx

theorem Layer.of_settings? {l : Layer} {settings : Settings} (h : l.settings? = some settings) :
    (∃ v, l.indentSize = some v ∧ v.size? = some settings.indentSize) ∧
    (∃ v, l.logFilter = some v ∧ v.text? = some settings.logFilter) ∧
    ∃ v, l.logFormat = some v ∧ v.format? = some settings.logFormat := by
  simp only [Layer.settings?, Option.bind_eq_bind, Option.bind_eq_some_iff, Option.pure_def,
    Option.some.injEq] at h
  obtain ⟨size, hsize, n, hn, filter, hfilter, t, ht, format, hformat, f, hf, rfl⟩ := h
  exact ⟨⟨size, hsize, hn⟩, ⟨filter, hfilter, ht⟩, format, hformat, hf⟩

/-- What is loaded comes from arguments that are read, and from the layers laid over each other. -/
theorem exists_of_load {s : Surroundings} {arguments : List Bytes} {settings : Settings}
    (h : load s arguments = .ok settings) :
    ∃ given, Given.parse (arguments.drop 1) = .ok given ∧
      (merged s (s.fileLayer given.configPath) given).settings? = some settings := by
  unfold load readArguments at h
  cases hparse : Given.parse (arguments.drop 1) with
  | error stop =>
    simp only [hparse] at h
    split at h <;> simp at h
  | ok given =>
    refine ⟨given, rfl, ?_⟩
    simp only [hparse, search_layer, List.nil_append] at h
    unfold Surroundings.fileLayer
    split at h
    · simp at h
    · split at h
      · rename_i settings' hmerged _
        rw [hmerged, Except.ok.inj h]
      · simp at h

/-- **Every setting is decided on its own**: by a flag that counts, else by the environment, else by the file
that is used, else by the standard. What is given for another setting has no part in it, except that it
takes all three flags to see whether they count. -/
theorem load_precedence {s : Surroundings} {arguments : List Bytes} {settings : Settings}
    (h : load s arguments = .ok settings) :
    ∃ given, Given.Spelled (arguments.drop 1) given ∧
      let environment (key : String) := Environment.given? s.environment key.toList
      let file := s.fileLayer given.configPath
      given.counted.indentSize.or
        (withoutFlag (environment "indent_size") file.indentSize (.integer 4)).size? =
          some settings.indentSize ∧
      given.counted.logFilter.or
        (withoutFlag (environment "log_filter") file.logFilter (.text "info".toList)).text? =
          some settings.logFilter ∧
      given.counted.logFormat.or
        (withoutFlag (environment "log_format") file.logFormat (.text "json".toList)).format? =
          some settings.logFormat := by
  obtain ⟨given, hparse, hmerged⟩ := exists_of_load h
  refine ⟨given, Given.parse_eq_ok_iff.mp hparse, ?_⟩
  obtain ⟨⟨size, hsize, hsize'⟩, ⟨filter, hfilter, hfilter'⟩, format, hformat, hformat'⟩ :=
    Layer.of_settings? hmerged
  simp only [merged, Layer.overlay, Given.layer_eq, Environment.layer, Layer.ofFields,
    Environment.get?_fields, Layer.ofSettings] at hsize hfilter hformat
  have hdistinct (key : String) (v : Value)
      (hv : Environment.given? s.environment key.toList = some v) : v.Distinct :=
    Environment.distinct_given? hv
  refine ⟨?_, ?_, ?_⟩
  · refine Reads.size.precedence (by simp) ?_ (hdistinct _) (by simp) hsize hsize'
    intro n x hn
    simp only [Value.size?, Option.ite_none_right_eq_some, Option.some.injEq, Int.toNat_natCast] at hn
    exact hn.2
  · refine Reads.text.precedence (by simp) ?_ (hdistinct _) (by simp) hfilter hfilter'
    intro t x ht
    exact Option.some.inj ht
  · refine Reads.format.precedence (by simp) ?_ (hdistinct _) (by simp) hformat hformat'
    intro l x hl
    have hname : Value.format? (.text l.name.toList) = some l := by cases l <;> decide
    exact Option.some.inj (hname.symm.trans hl)

/-- A flag over a variable, a variable over a file, and a file over the standard. -/
theorem load_precedence_each :
    let s : Surroundings :=
      { environment := [("BYTHON_INDENT_SIZE".toList, "3".toList),
          ("BYTHON_LOG_FILTER".toList, "warn".toList)]
        tree := { entries := [([".bython.toml".toList], .file (Utf8.encode
          "log_filter = 'debug'\nlog_format = 'compact'\n".toList))] } }
    let arguments := ["bython", "-i8"].map Bytes.ofString
    let settings : Settings := { indentSize := 8, logFilter := "warn".toList, logFormat := .compact }
    load s arguments = .ok settings ∧ ∃ given, Given.Spelled [Bytes.ofString "-i8"] given ∧
      given.counted.indentSize.or
        (withoutFlag (some (.integer 3)) (s.fileLayer given.configPath).indentSize (.integer 4)).size? =
          some 8 := by
  intro s arguments settings
  have h : load s arguments = .ok settings := by decide +kernel
  obtain ⟨given, hspelled, hsize, -⟩ := load_precedence h
  have henvironment : Environment.given? s.environment "indent_size".toList = some (.integer 3) := by
    decide +kernel
  simp only [henvironment] at hsize
  exact ⟨h, given, hspelled, hsize⟩

/-- **Flags that repeat the standard lose.** With two flags the first one prevails over the variable; with
a third one that says nothing about the size, the variable prevails. -/
theorem repeated_flags_lose :
    let s : Surroundings := { environment := [("BYTHON_INDENT_SIZE".toList, "8".toList)] }
    let arguments := ["bython", "--indent-size", "4", "--log-filter", "info"].map Bytes.ofString
    let more := ["--log-format", "json"].map Bytes.ofString
    load s arguments = .ok { indentSize := 4 } ∧ load s (arguments ++ more) = .ok { indentSize := 8 } := by
  decide +kernel

end Offside.Settings
