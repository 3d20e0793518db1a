import Offside.Command.Run
import Offside.Proofs.Reading

/-!
# All or nothing

A run of the command is made of acts that may fail, and what an act did before a failure stays done. That
a run fails without a trace is therefore a matter of order: every act but the last leaves the files and the
standard output alone (`Untouched`), and the last one is a single write, which fails without effect. The
logging that an earlier run of the same process set up stays in force through all of them (`KeepsLog`).

`Leads m t done failed` says where an act `m` leads from the trail `t`. There is a rule for each way of
putting acts together, and a lemma for each act of a run.
-/

namespace Offside

namespace FileTree

theorem get_insert_self {place : Place} (h : place ≠ []) (t : FileTree) (entry : Entry) :
    (t.insert place entry).get? place = some entry := by
  simp [get?, insert, h]

theorem get_insert_ne {place other : Place} (h : other ≠ place) (t : FileTree) (entry : Entry) :
    (t.insert place entry).get? other = t.get? other := by
  have hlookup : ∀ entries : List (Place × Entry),
      (entries.filter fun e => e.1 != place).lookup other = entries.lookup other := by
    intro entries
    induction entries with
    | nil => rfl
    | cons e entries ih =>
      by_cases he : e.1 = place
      · have hother : (other == e.1) = false := by simpa [he] using h
        rw [List.filter_cons_of_neg (by simp [he]), ih, List.lookup_cons, hother]
      · rw [List.filter_cons_of_pos (by simp [he]), List.lookup_cons, List.lookup_cons, ih]
  have hhead : (other == place) = false := by simpa using h
  unfold get? insert
  simp only [List.lookup_cons, hhead, hlookup]

theorem locate_ne_nil {t : FileTree} {here place : Place} {path : Path}
    (h : t.locate here path = .ok place) : place ≠ [] := by
  unfold locate at h
  cases hname : path.name? with
  | none => simp [hname] at h
  | some name =>
    cases hparent : t.parentOf here path with
    | error fault => simp [hname, hparent] at h
    | ok directory =>
      simp only [hname, hparent] at h
      split_ifs at h
      rw [← Except.ok.inj h]
      simp

/-- **A write changes one place**: the file that the path leads to. -/
theorem write_spec {t t' : FileTree} {here : Place} {path : Path} {content : Bytes}
    (h : t.write here path content = .ok t') : ∃ place, t.locate here path = .ok place ∧
      t'.get? place = some (.file content) ∧ ∀ other ≠ place, t'.get? other = t.get? other := by
  unfold write at h
  cases hlocate : t.locate here path with
  | error fault => simp [hlocate] at h
  | ok place =>
    have hinsert : t' = t.insert place (.file content) := by
      simp only [hlocate] at h
      split at h
      · exact absurd h (by simp)
      · exact (Except.ok.inj h).symm
    rw [hinsert]
    exact ⟨place, rfl, get_insert_self (locate_ne_nil hlocate) t _,
      fun other hne => get_insert_ne hne t _⟩

theorem read_of_readText {t : FileTree} {here : Place} {path : Path} {text : Text}
    (h : t.readText here path = .ok text) : t.read here path = .ok (Utf8.encode text) := by
  unfold readText at h
  cases hread : t.read here path with
  | error fault => simp [hread] at h
  | ok content =>
    cases hdecode : Utf8.decode content with
    | none => simp [hread, hdecode] at h
    | some decoded =>
      simp only [hread, hdecode, Except.ok.injEq] at h
      rw [Utf8.decode_eq_some_iff.mp hdecode, h]

end FileTree

namespace Converter

/-- A source that is converted ends without a failure and holds a text, which is what is converted. -/
theorem exists_text_of_convertSource {c : Converter} {source : Source} {out : Text}
    (h : (c.convertSource source).result = .ok out) :
    ∃ text, source = { bytes := Utf8.encode text } ∧ (c.convertText text).result = .ok out := by
  obtain ⟨bytes, failure⟩ := source
  cases failure with
  | some reason =>
    exfalso
    unfold convertSource Source.read at h
    cases hread : Source.decodeLines
      (Lines.split Source.feed Source.ret (Source.complete bytes)) with
    | none => simp [hread] at h
    | some lines => simp [hread] at h
  | none =>
    cases hread : Source.decodeLines (Lines.split Source.feed Source.ret bytes) with
    | none => simp [convertSource, Source.read, hread] at h
    | some lines =>
      obtain ⟨text, rfl, rfl⟩ := Source.decodeLines_eq_some_iff.mp hread
      simp only [convertSource, Source.read, hread] at h
      exact ⟨text, rfl, h⟩

end Converter

namespace Command

/-! ### A logic of acts -/

/-- From a trail an act leads to a value and a trail of which `done` holds, or to a failure and a trail of
which `failed` holds. -/
def Leads {α : Type} (m : Act α) (t : Trail) (done : α → Trail → Prop)
    (failed : Failure → Trail → Prop) : Prop :=
  match m t with
  | .ok a t' => done a t'
  | .error failure t' => failed failure t'

section Rules

variable {α β : Type} {m : Act α} {t : Trail} {done : α → Trail → Prop}
  {failed : Failure → Trail → Prop}

theorem Leads.mono {done' : α → Trail → Prop} (h : Leads m t done failed)
    (hdone : ∀ a t', done a t' → done' a t') : Leads m t done' failed := by
  unfold Leads at h ⊢
  cases hm : m t with
  | ok a t' =>
    rw [hm] at h
    exact hdone a t' h
  | error failure t' =>
    rw [hm] at h
    exact h

theorem leads_pure {a : α} (h : done a t) : Leads (pure a) t done failed := h

theorem leads_throw {failure : Failure} (h : failed failure t) :
    Leads (throw failure : Act α) t done failed := h

theorem leads_bind {f : α → Act β} {done : β → Trail → Prop}
    (h : Leads m t (fun a t' => Leads (f a) t' done failed) failed) :
    Leads (m >>= f) t done failed := by
  unfold Leads at h ⊢
  cases hm : m t with
  | ok a t' =>
    have hbind : (m >>= f) t = f a t' := by simp [bind, EStateM.bind, hm]
    rw [hm] at h
    rw [hbind]
    exact h
  | error failure t' =>
    have hbind : (m >>= f) t = .error failure t' := by simp [bind, EStateM.bind, hm]
    rw [hm] at h
    rw [hbind]
    exact h

/-- One act after another. -/
theorem Leads.bind {f : α → Act β} {done' : β → Trail → Prop} (h : Leads m t done failed)
    (hf : ∀ a t', done a t' → Leads (f a) t' done' failed) : Leads (m >>= f) t done' failed :=
  leads_bind (h.mono hf)

theorem leads_get_bind {f : Trail → Act α} (h : Leads (f t) t done failed) :
    Leads (get >>= f) t done failed := h

theorem leads_modify {f : Trail → Trail} {done : Unit → Trail → Prop} (h : done () (f t)) :
    Leads (modify f) t done failed := h

theorem leads_ofExcept {ε : Type} {failure : ε → Failure} {result : Except ε α}
    (hok : ∀ a, result = .ok a → done a t)
    (herror : ∀ fault, result = .error fault → failed (failure fault) t) :
    Leads (Act.ofExcept failure result) t done failed := by
  cases result with
  | ok a => exact hok a rfl
  | error fault => exact herror fault rfl

end Rules

/-! ### The acts of a run -/

/-- The filter and the format that were in force before the run still are. -/
def KeepsLog (w : World) (t : Trail) : Prop := ∀ log, w.logging.inForce = some log → t.log = some log

/-- Nothing has been written yet, and the logging that was set up before the run is in force. -/
structure Untouched (w : World) (t : Trail) : Prop where
  stdout_eq : t.stdout = []
  tree_eq : t.tree = w.surroundings.tree
  keepsLog : KeepsLog w t

/-- The text that is the source of an invocation: what the standard input holds to its end, if the input is
not named or named by a dash, and else what the named file holds; either in UTF-8. -/
inductive Selects (w : World) (i : Invocation) (source : Text) : Prop where
  | input (h : i.input = none ∨ i.input = some ['-'])
      (hinput : w.input = { bytes := Utf8.encode source })
  | file (path : Text) (h : i.input = some path) (hne : path ≠ ['-'])
      (hread : w.surroundings.tree.read w.surroundings.here (.ofText path) = .ok (Utf8.encode source))

/-- A text was written to where an invocation wants it, and nowhere else: to the standard output, if the
output is not named or named by a dash, and else to the named file. -/
inductive Delivers (w : World) (i : Invocation) (text stdout : Text) (tree : FileTree) : Prop where
  | output (h : i.output = none ∨ i.output = some ['-']) (hstdout : stdout = text)
      (htree : tree = w.surroundings.tree)
  | file (path : Text) (place : Place) (h : i.output = some path) (hne : path ≠ ['-'])
      (hlocate : w.surroundings.tree.locate w.surroundings.here (.ofText path) = .ok place)
      (hfile : tree.get? place = some (.file (Utf8.encode text)))
      (hothers : ∀ other ≠ place, tree.get? other = w.surroundings.tree.get? other)
      (hstdout : stdout = [])

/-- What the arguments ask for. -/
def World.asked (w : World) : Except Options.Stop Invocation := Invocation.parse (split w.arguments).2

/-- What the settings are. -/
def World.loaded (w : World) : Except (List Settings.LoadFault) Settings :=
  Settings.load w.surroundings (split w.arguments).1

/-- A failure with what it comes from. -/
inductive Cause (w : World) : Failure → Prop where
  | usage {fault : Options.Fault} (h : w.asked = .error (.fault fault)) : Cause w (.usage fault)
  | settings {faults : List Settings.LoadFault} (h : w.loaded = .error faults) : Cause w (.settings faults)
  | filter {s : Settings} (hfresh : w.logging = .fresh) (hs : w.loaded = .ok s)
      (h : Log.Filter.parse s.logFilter = none) : Cause w .filter
  | width {s : Settings} (hs : w.loaded = .ok s) (h : s.indentSize = 0) : Cause w (.width .zero)
  | read {i : Invocation} {path : Text} {fault : FileFault} (hi : w.asked = .ok i)
      (hpath : i.inputPath? = some path)
      (h : w.surroundings.tree.readText w.surroundings.here (.ofText path) = .error fault) :
      Cause w (.read path fault)
  | file {i : Invocation} {path source : Text} {width : Width} {fault : ConversionFault}
      (hi : w.asked = .ok i) (hpath : i.inputPath? = some path)
      (hsource : w.surroundings.tree.readText w.surroundings.here (.ofText path) = .ok source)
      (h : (Converter.convertText { width := width } source).result = .error fault) :
      Cause w (.conversion fault)
  | input {i : Invocation} {width : Width} {fault : ConversionFault} (hi : w.asked = .ok i)
      (hpath : i.inputPath? = none)
      (h : (Converter.convertSource { width := width } w.input).result = .error fault) :
      Cause w (.conversion fault)
  | write {i : Invocation} {path : Text} {content : Bytes} {fault : FileFault} (hi : w.asked = .ok i)
      (hpath : i.outputPath? = some path)
      (h : w.surroundings.tree.write w.surroundings.here (.ofText path) content = .error fault) :
      Cause w (.write path fault)
  | output {reason : String} (h : w.outputFailure = some reason) : Cause w (.output reason)

/-- A failure for which there is a cause, and nothing has been written. -/
def Stopped (w : World) (failure : Failure) (t : Trail) : Prop := Untouched w t ∧ Cause w failure

variable {w : World} {i : Invocation} {t : Trail}

theorem unnamed_iff {named : Option Text} :
    named.filter (· != Invocation.standardStream) = none ↔ named = none ∨ named = some ['-'] := by
  cases named with
  | none => simp
  | some path => simp [Invocation.standardStream]

theorem named_iff {named : Option Text} {path : Text} :
    named.filter (· != Invocation.standardStream) = some path ↔ named = some path ∧ path ≠ ['-'] := by
  rw [Option.filter_eq_some_iff]
  simp [Invocation.standardStream]

theorem leads_tell {events : List Event} (h : Untouched w t) {failed : Failure → Trail → Prop} :
    Leads (Act.tell events) t (fun _ t' => Untouched w t') failed :=
  leads_modify ⟨h.stdout_eq, h.tree_eq, h.keepsLog⟩

theorem leads_loadSettings (h : Untouched w t) :
    Leads (w.loadSettings (split w.arguments).1) t (fun s t' => Untouched w t' ∧ w.loaded = .ok s)
      (Stopped w) := by
  have hload : Settings.load { w.surroundings with tree := t.tree } (split w.arguments).1 = w.loaded := by
    rw [h.tree_eq]
    rfl
  refine leads_get_bind (leads_ofExcept (fun s hs => ⟨h, ?_⟩) fun faults hfaults => ⟨h, .settings ?_⟩)
  · rw [← hload, hs]
  · rw [← hload, hfaults]

theorem leads_startLogging (h : Untouched w t) {s : Settings} (hs : w.loaded = .ok s) :
    Leads (w.startLogging s) t (fun _ t' => Untouched w t') (Stopped w) := by
  unfold World.startLogging
  cases hlogging : w.logging with
  | established filter format => exact leads_pure h
  | fresh =>
    cases hfilter : Log.Filter.parse s.logFilter with
    | none => exact leads_throw ⟨h, .filter hlogging hs hfilter⟩
    | some filter =>
      refine leads_modify ⟨h.stdout_eq, h.tree_eq, fun log hlog => ?_⟩
      rw [hlogging] at hlog
      exact absurd hlog (by simp [Logging.inForce])

theorem leads_width (h : Untouched w t) {s : Settings} (hs : w.loaded = .ok s) :
    Leads (Act.ofExcept .width s.width) t
      (fun width t' => Untouched w t' ∧ 0 < s.indentSize ∧ width.spaces = s.indentSize) (Stopped w) := by
  unfold Settings.width Width.ofNat
  split_ifs with hpos
  · exact leads_pure ⟨h, hpos, rfl⟩
  · exact leads_throw ⟨h, .width hs (by omega)⟩

theorem leads_ofRun (h : Untouched w t) {run : Run Text}
    (hcause : ∀ fault, run.result = .error fault → Cause w (.conversion fault)) :
    Leads (Act.ofRun run) t (fun text t' => Untouched w t' ∧ run.result = .ok text) (Stopped w) := by
  refine (leads_tell h).bind fun _ t' h' => ?_
  exact leads_ofExcept (fun text htext => ⟨h', htext⟩) fun fault hfault => ⟨h', hcause fault hfault⟩

/-- The conversion reads and does not write. -/
theorem leads_convert (h : Untouched w t) (hi : w.asked = .ok i) (width : Width) :
    Leads (w.convert i width) t
      (fun text t' => Untouched w t' ∧ ∃ source, Selects w i source ∧
        (Converter.convertText { width := width } source).result = .ok text) (Stopped w) := by
  unfold World.convert
  cases hpath : i.inputPath? with
  | none =>
    refine (leads_tell h).bind fun _ t' h' => ?_
    refine (leads_ofRun h' fun fault hfault => .input hi hpath hfault).mono fun text t'' hdone => ?_
    obtain ⟨source, hinput, hresult⟩ := Converter.exists_text_of_convertSource hdone.2
    exact ⟨hdone.1, source, .input (unnamed_iff.mp hpath) hinput, hresult⟩
  | some path =>
    obtain ⟨hnamed, hne⟩ := named_iff.mp hpath
    refine (leads_tell h).bind fun _ t' h' => ?_
    refine leads_get_bind (leads_bind (leads_ofExcept (fun source hsource => ?_) fun fault hfault => ?_))
    · rw [h'.tree_eq] at hsource
      refine (leads_ofRun h' fun fault hfault => .file hi hpath hsource hfault).mono
        fun text t'' hdone => ?_
      exact ⟨hdone.1, source, .file path hnamed hne (FileTree.read_of_readText hsource), hdone.2⟩
    · rw [h'.tree_eq] at hfault
      exact ⟨h', .read hi hpath hfault⟩

/-- The standard output takes the whole text or nothing. -/
theorem leads_writeOut (h : Untouched w t) (text : Text) :
    Leads (w.writeOut text) t
      (fun _ t' => t'.stdout = text ∧ t'.tree = w.surroundings.tree ∧ KeepsLog w t') (Stopped w) := by
  unfold World.writeOut
  cases hfailure : w.outputFailure with
  | none =>
    refine leads_modify ⟨?_, h.tree_eq, h.keepsLog⟩
    show t.stdout ++ text = text
    rw [h.stdout_eq]
    rfl
  | some reason =>
    by_cases hempty : text.isEmpty
    · simp only [if_pos hempty]
      refine leads_pure ⟨?_, h.tree_eq, h.keepsLog⟩
      rw [h.stdout_eq, List.isEmpty_iff.mp hempty]
    · simp only [if_neg hempty]
      exact leads_throw ⟨h, .output hfailure⟩

/-- **The last act is a single write**, to where the text belongs. -/
theorem leads_deliver (h : Untouched w t) (hi : w.asked = .ok i) (text : Text) :
    Leads (w.deliver i text) t
      (fun _ t' => Delivers w i text t'.stdout t'.tree ∧ KeepsLog w t') (Stopped w) := by
  unfold World.deliver
  cases hpath : i.outputPath? with
  | none =>
    refine (leads_writeOut h text).mono fun _ t' hdone => ?_
    obtain ⟨hstdout, htree, hlog⟩ := hdone
    exact ⟨.output (unnamed_iff.mp hpath) hstdout htree, hlog⟩
  | some path =>
    obtain ⟨hnamed, hne⟩ := named_iff.mp hpath
    refine leads_bind (leads_get_bind (leads_bind (leads_ofExcept (fun tree htree => ?_)
      fun fault hfault => ?_)))
    · rw [h.tree_eq] at htree
      obtain ⟨place, hlocate, hfile, hothers⟩ := FileTree.write_spec htree
      refine leads_modify (leads_modify ⟨?_, h.keepsLog⟩)
      exact .file path place hnamed hne hlocate hfile hothers h.stdout_eq
    · rw [h.tree_eq] at hfault
      exact ⟨h, .write hi hpath hfault⟩

/-- What a run has done that converts: the settings that were loaded give a width, the source that was
selected is converted with it, and the result was written. -/
structure Converts (w : World) (i : Invocation) (s : Settings) (width : Width) (source text : Text)
    (stdout : Text) (tree : FileTree) : Prop where
  asked : w.asked = .ok i
  loaded : w.loaded = .ok s
  positive : 0 < s.indentSize
  spaces : width.spaces = s.indentSize
  selected : Selects w i source
  accepted : (Converter.convertText { width := width } source).result = .ok text
  delivered : Delivers w i text stdout tree

theorem leads_perform (h : Untouched w t) (hi : w.asked = .ok i) :
    Leads (w.perform (split w.arguments).1 i) t
      (fun _ t' => (∃ s width source text, Converts w i s width source text t'.stdout t'.tree) ∧
        KeepsLog w t') (Stopped w) := by
  unfold World.perform
  refine (leads_loadSettings h).bind fun s t₁ hload => ?_
  obtain ⟨h₁, hs⟩ := hload
  refine (leads_startLogging h₁ hs).bind fun _ t₂ h₂ => ?_
  refine (leads_width h₂ hs).bind fun width t₃ hwidth => ?_
  obtain ⟨h₃, hpos, hspaces⟩ := hwidth
  refine (leads_convert h₃ hi width).bind fun text t₄ hconvert => ?_
  obtain ⟨h₄, source, hselects, hresult⟩ := hconvert
  refine (leads_deliver h₄ hi text).mono fun _ t' hdeliver => ?_
  exact ⟨⟨s, width, source, text, hi, hs, hpos, hspaces, hselects, hresult, hdeliver.1⟩, hdeliver.2⟩

/-- The text that the arguments ask for in place of a conversion. -/
inductive Answers (w : World) : Text → Prop where
  | help (h : w.asked = .error .help) : Answers w (helpText (split w.arguments).2)
  | version (h : w.asked = .error .version) : Answers w versionText

/-- Only the arguments matter for it. -/
theorem Answers.of_arguments {w' : World} {text : Text} (h : Answers w text)
    (harguments : w'.arguments = w.arguments) : Answers w' text := by
  have hasked : w'.asked = w.asked := by
    unfold World.asked
    rw [harguments]
  cases h with
  | help h =>
    rw [← harguments]
    exact .help (hasked.trans h)
  | version h => exact .version (hasked.trans h)

theorem attempt_eq (w : World) : w.attempt = match w.asked with
    | .error (.fault fault) => throw (.usage fault)
    | .error .help => w.writeOut (helpText (split w.arguments).2)
    | .error .version => w.writeOut versionText
    | .ok i => w.perform (split w.arguments).1 i := rfl

theorem attempt_of_answers {text : Text} (h : Answers w text) : w.attempt = w.writeOut text := by
  rw [attempt_eq]
  cases h with
  | help h => rw [h]
  | version h => rw [h]

/-- **A run from its start to its end.** -/
theorem leads_attempt (w : World) :
    Leads w.attempt w.start
      (fun _ t => ((∃ text, Answers w text ∧ t.stdout = text ∧ t.tree = w.surroundings.tree) ∨
          ∃ i s width source text, Converts w i s width source text t.stdout t.tree) ∧ KeepsLog w t)
      (Stopped w) := by
  have hstart : Untouched w w.start := ⟨rfl, rfl, fun _ hlog => hlog⟩
  have hanswer : ∀ text, Answers w text → Leads w.attempt w.start
      (fun _ t => (∃ text, Answers w text ∧ t.stdout = text ∧ t.tree = w.surroundings.tree) ∧
        KeepsLog w t) (Stopped w) := by
    intro text htext
    rw [attempt_of_answers htext]
    refine (leads_writeOut hstart text).mono fun _ t hdone => ?_
    exact ⟨⟨text, htext, hdone.1, hdone.2.1⟩, hdone.2.2⟩
  cases hasked : w.asked with
  | ok i =>
    rw [attempt_eq, hasked]
    refine (leads_perform hstart hasked).mono fun _ t hdone => ?_
    exact ⟨Or.inr ⟨i, hdone.1⟩, hdone.2⟩
  | error stop =>
    cases stop with
    | fault fault =>
      rw [attempt_eq, hasked]
      exact leads_throw ⟨hstart, .usage hasked⟩
    | help => exact (hanswer _ (.help hasked)).mono fun _ t h => ⟨Or.inl h.1, h.2⟩
    | version => exact (hanswer _ (.version hasked)).mono fun _ t h => ⟨Or.inl h.1, h.2⟩

theorem Answers.ne_nil {text : Text} (h : Answers w text) : text ≠ [] := by
  cases h with
  | help =>
    have husage : usage (split w.arguments).2 ≠ [] := List.append_ne_nil_of_right_ne_nil _ (by decide)
    exact List.append_ne_nil_of_left_ne_nil (List.append_ne_nil_of_right_ne_nil _ husage) _
  | version => decide

/-- What the arguments ask for in place of a conversion is written whatever stands around the run, as long
as the standard output takes it: no settings are loaded and no source is read. -/
theorem run_of_answers {text : Text} (h : Answers w text) :
    (w.run.success = true ↔ w.outputFailure = none) ∧
      (w.outputFailure = none → w.run.stdout = text ∧ w.run.tree = w.surroundings.tree) := by
  unfold World.run
  rw [attempt_of_answers h]
  unfold World.writeOut
  cases hfailure : w.outputFailure with
  | none => exact ⟨⟨fun _ => rfl, fun _ => rfl⟩, fun _ => ⟨rfl, rfl⟩⟩
  | some reason =>
    have hempty : ¬ text.isEmpty = true := fun hempty => h.ne_nil (List.isEmpty_iff.mp hempty)
    simp only [if_neg hempty]
    refine ⟨⟨fun hsuccess => ?_, fun hnone => ?_⟩, fun hnone => ?_⟩
    · exact absurd hsuccess Bool.false_ne_true
    · exact absurd hnone (by simp)
    · exact absurd hnone (by simp)

theorem toList_append_ne_nil {s : String} (h : s.toList ≠ []) (t : String) : (s ++ t).toList ≠ [] := by
  rw [String.toList_append]
  exact List.append_ne_nil_of_left_ne_nil h _

/-- Every failure has something to say. -/
theorem Failure.message_ne_nil (arguments : List Bytes) (failure : Failure) :
    failure.message arguments ≠ [] := by
  cases failure with
  | conversion fault =>
    cases fault with
    | mixed c =>
      show c.message.toList ≠ []
      unfold Contradiction.message
      repeat apply toList_append_ne_nil
      decide
    | unreadable fault => exact toList_append_ne_nil (by decide) _
  | width fault => exact toList_append_ne_nil (by decide) _
  | output reason => exact toList_append_ne_nil (by decide) _
  | usage fault => exact List.append_ne_nil_of_right_ne_nil _ (by decide)
  | settings faults => exact List.append_ne_nil_of_left_ne_nil (by decide) _
  | filter =>
    show "invalid log filter: invalid filter directive".toList ≠ []
    decide
  | read path fault =>
    exact List.append_ne_nil_of_left_ne_nil (List.append_ne_nil_of_left_ne_nil (by decide) _) _
  | write path fault =>
    exact List.append_ne_nil_of_left_ne_nil (List.append_ne_nil_of_left_ne_nil (by decide) _) _

/-- The events are logged by the filter and in the format that are in force at the end. -/
theorem Trail.outcome_of_log {filter : Log.Filter} {format : LogFormat}
    (h : t.log = some (filter, format)) (success : Bool) (stderr : Text) :
    (t.outcome success stderr).logged = (t.outcome success stderr).events.filter filter.admits ∧
      (t.outcome success stderr).format = format := by
  simp [Trail.outcome, h]

/-- **All or nothing.** If a run fails, no file has changed, nothing was written to the standard output,
and the standard error says why: it holds the message of a failure for which there is a cause. If a run
succeeds, nothing was written to the standard error. Then either the arguments asked for the help text or
the version, which was written without a look at the settings, the files or the standard input, or the
settings that were loaded give a positive indent size, the selected source is text in UTF-8 and is
accepted, and what it is converted to is all that was written, to where it belongs. In both cases the
events are logged as the earlier run wants it that set up the logging, and not as the settings of this run
ask for. -/
theorem run_all_or_nothing (w : World) {filter : Log.Filter} {format : LogFormat}
    (hlogging : w.logging = .established filter format) :
    let o := w.run
    (o.success = false → o.tree = w.surroundings.tree ∧ o.stdout = [] ∧
      ∃ failure, Cause w failure ∧ failure.message w.arguments ≠ [] ∧
        o.stderr = failure.message w.arguments ++ ['\n']) ∧
    (o.success = true → o.stderr = [] ∧
      ((∃ text, Answers w text ∧ o.stdout = text ∧ o.tree = w.surroundings.tree ∧
          ∀ (s : Settings.Surroundings) (input : Source),
            let o' := World.run { w with surroundings := s, input := input }
            o'.success = true ∧ o'.stdout = text ∧ o'.tree = s.tree) ∨
        ∃ i s width source text, Converts w i s width source text o.stdout o.tree)) ∧
    o.logged = o.events.filter filter.admits ∧ o.format = format := by
  intro o
  have hinForce : w.logging.inForce = some (filter, format) := by
    rw [hlogging]
    rfl
  have hleads := leads_attempt w
  unfold Leads at hleads
  cases hattempt : w.attempt w.start with
  | error failure t =>
    have ho : o = t.outcome false (failure.message w.arguments ++ ['\n']) := by
      simp only [o, World.run, hattempt]
    rw [hattempt] at hleads
    obtain ⟨huntouched, hcause⟩ := hleads
    rw [ho]
    refine ⟨fun _ => ⟨huntouched.tree_eq, huntouched.stdout_eq, failure, hcause, ?_, rfl⟩, ?_, ?_⟩
    · exact failure.message_ne_nil w.arguments
    · intro hsuccess
      exact absurd hsuccess (by simp [Trail.outcome])
    · exact Trail.outcome_of_log (huntouched.keepsLog _ hinForce) _ _
  | ok u t =>
    have ho : o = t.outcome true [] := by
      simp only [o, World.run, hattempt]
    rw [hattempt] at hleads
    obtain ⟨hdone, hlog⟩ := hleads
    refine ⟨fun hfailed => ?_, fun hsuccess => ⟨?_, ?_⟩, ?_⟩
    · rw [ho] at hfailed
      exact absurd hfailed (by simp [Trail.outcome])
    · rw [ho]
      rfl
    · rcases hdone with ⟨text, hanswers, hstdout, htree⟩ | hconverts
      · refine Or.inl ⟨text, hanswers, by rw [ho]; exact hstdout, by rw [ho]; exact htree, ?_⟩
        intro s input o'
        have hfailure : w.outputFailure = none := (run_of_answers hanswers).1.mp hsuccess
        have hanswers' : Answers { w with surroundings := s, input := input } text :=
          hanswers.of_arguments rfl
        obtain ⟨hsuccess', hwritten⟩ := run_of_answers hanswers'
        exact ⟨hsuccess'.mpr hfailure, hwritten hfailure⟩
      · rw [ho]
        exact Or.inr hconverts
    · rw [ho]
      exact Trail.outcome_of_log (hlog _ hinForce) _ _

/-- A file that is converted into another one with the width of an argument, and is logged although another
argument turns that off; a standard input that mixes styles and would go to a file; and a call for help
with settings that do not load. -/
theorem run_all_or_nothing_file :
    let files : FileTree :=
      { entries := [(["a.by".toList], .file (Utf8.encode "if x \x7b\n\tgo();\n\x7d".toList))] }
    let good : World :=
      { arguments :=
          ["bython", "--indent-size=2", "--log-filter=off", "a.by", "-o", "a.py"].map Bytes.ofString
        surroundings := { tree := files }, logging := .established [{ threshold := 4 }] .compact }
    let mixed : World :=
      { arguments := ["bython", "-", "--output=a.by"].map Bytes.ofString
        surroundings := { tree := files }, logging := .established
        input := { bytes := Utf8.encode "if x \x7b\nif y:\n".toList } }
    let help : World :=
      { arguments := ["bython", "a.by", "--help"].map Bytes.ofString, logging := .established
        surroundings :=
          { tree := files, environment := [("BYTHON_INDENT_SIZE".toList, "none".toList)] } }
    (good.run.success = true ∧ good.run.stderr = [] ∧ .readingFile "a.by".toList ∈ good.run.logged ∧
        good.run.format = .compact ∧ ∃ i s width source text, i.output = some "a.py".toList ∧
          Converts good i s width source text good.run.stdout good.run.tree) ∧
      (mixed.run.success = false ∧ mixed.run.tree = files ∧ mixed.run.stdout = [] ∧
        mixed.run.stderr ≠ []) ∧
      (help.run.success = true ∧ help.run.stdout = helpText help.arguments ∧ help.run.tree = files) := by
  intro files good mixed help
  have hgood : good.run.success = true := by decide +kernel
  have hmixed : mixed.run.success = false := by decide +kernel
  have hhelp : help.run.success = true := by decide +kernel
  have hasked : good.asked = .ok { input := some "a.by".toList, output := some "a.py".toList } := by
    decide +kernel
  have hasked' : help.asked = .error .help := by decide +kernel
  have htold : .readingFile "a.by".toList ∈ good.run.events := by decide +kernel
  obtain ⟨-, hsucceeds, hlogged, hformat⟩ := run_all_or_nothing good rfl
  obtain ⟨hstderr, hdone⟩ := hsucceeds hgood
  obtain ⟨htree, hstdout, failure, -, -, hmessage⟩ := (run_all_or_nothing mixed rfl).1 hmixed
  obtain ⟨-, hdone'⟩ := (run_all_or_nothing help rfl).2.1 hhelp
  refine ⟨⟨hgood, hstderr, ?_, hformat, ?_⟩, ⟨hmixed, htree, hstdout, by simp [hmessage]⟩, hhelp, ?_⟩
  · rw [hlogged]
    exact List.mem_filter.mpr ⟨htold, by decide⟩
  · rcases hdone with ⟨text, hanswers, -⟩ | ⟨i, s, width, source, text, hconverts⟩
    · cases hanswers with
      | help h => exact absurd (hasked.symm.trans h) (by simp)
      | version h => exact absurd (hasked.symm.trans h) (by simp)
    · refine ⟨i, s, width, source, text, ?_, hconverts⟩
      rw [← Except.ok.inj (hasked.symm.trans hconverts.asked)]
  · rcases hdone' with ⟨text, hanswers, hout, htree', -⟩ | ⟨i, s, width, source, text, hconverts⟩
    · cases hanswers with
      | help => exact ⟨hout, htree'⟩
      | version h => exact absurd (hasked'.symm.trans h) (by simp)
    · exact absurd (hasked'.symm.trans hconverts.asked) (by simp)

end Command

end Offside
