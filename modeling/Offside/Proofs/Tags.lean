import Offside.Proofs.Reading

/-!
# Every brace has one tag

The tags of a line are its braces, each once and in order, at the bytes where they stand. This is so
because the reading gives a role to every brace and to nothing else (`scan_fits`): whatever a line holds,
the modes it leads through are opened by quotes (`Mode.Quoted`), so no brace is taken for the end of a
string.

A field of an f-string can also be read in one go: look for the brace that closes it, mark the braces up
to there, and go on behind it. `readSpans` reads a line in this way. It counts the braces that are open
and gives up where the count would go below zero, which never happens, and it comes to the same roles
(`readSpans_eq`).
-/

namespace Offside

namespace Utf8

theorem encodeChar_ascii {c : Char} (h : c.toNat < 0x80) : String.utf8EncodeChar c = [c.toUInt8] := by
  have hcode : c.toNat = c.val.toNat := rfl
  have hbound : (127 : UInt32).toNat = 127 := rfl
  have hsize : c.utf8Size = 1 := by
    rw [Char.utf8Size_eq_one_iff, UInt32.le_iff_toNat_le]
    omega
  exact String.utf8EncodeChar_eq_singleton hsize

/-- **An ASCII byte is a character of its own**: it stands exactly where the character starts. -/
theorem getElem_encode_ascii {d : Char} (hd : d.toNat < 0x80) (line : Text) (i : Nat) :
    (encode line)[i]? = some d.toUInt8 ↔
      ∃ pre post, line = pre ++ d :: post ∧ i = Text.byteSize pre := by
  have hbyte : d.toUInt8.toNat = d.toNat := by
    have hmod : d.toUInt8.toNat = d.toNat % 256 := rfl
    omega
  induction line generalizing i with
  | nil => simp [encode]
  | cons c line ih =>
    have hsize : (String.utf8EncodeChar c).length = c.utf8Size := String.length_utf8EncodeChar c
    have hpos : 0 < c.utf8Size := c.utf8Size_pos
    have hencode : encode (c :: line) = String.utf8EncodeChar c ++ encode line := rfl
    rw [hencode]
    by_cases hi : i < c.utf8Size
    · -- the byte belongs to the first character, which is then `d` itself and has no other byte
      rw [List.getElem?_append_left (by omega)]
      constructor
      · intro h
        have hcode := toNat_of_mem_encodeChar (List.mem_of_getElem? h) (by omega)
        obtain rfl : c = d := Char.toNat_inj.mp (by omega)
        rw [encodeChar_ascii hd, List.length_singleton] at hsize
        exact ⟨[], line, rfl, by rw [Text.byteSize_nil]; omega⟩
      · rintro ⟨pre, post, hline, rfl⟩
        cases pre with
        | nil =>
          obtain ⟨rfl, -⟩ := List.cons_eq_cons.mp hline
          rw [encodeChar_ascii hd]
          rfl
        | cons e pre =>
          obtain ⟨rfl, -⟩ := List.cons_eq_cons.mp hline
          rw [Text.byteSize_cons] at hi
          omega
    · rw [List.getElem?_append_right (by omega), hsize]
      refine (ih (i - c.utf8Size)).trans ?_
      constructor
      · rintro ⟨pre, post, rfl, hpre⟩
        exact ⟨c :: pre, post, rfl, by rw [Text.byteSize_cons]; omega⟩
      · rintro ⟨pre, post, hline, rfl⟩
        cases pre with
        | nil =>
          rw [Text.byteSize_nil] at hi
          omega
        | cons e pre =>
          obtain ⟨rfl, rfl⟩ := List.cons_eq_cons.mp hline
          exact ⟨pre, post, rfl, by rw [Text.byteSize_cons]; omega⟩

end Utf8

/-- The same brace, `k` bytes further on. -/
def Tag.shift (k : Nat) (tag : Tag) : Tag := { tag with index := tag.index + k }

namespace Brace

/-! ### Roles -/

/-- Strings are opened by quotes. -/
def Mode.Quoted : Mode → Prop
  | .code => True
  | .plain q | .template q | .field q _ => q = '"' ∨ q = '\''

/-- The roles that a character may have: none unless it is a brace, and of an opening brace and a
closing one those that suit it. -/
def Fits (c : Char) : Option Role → Prop
  | none => isBrace c = false
  | some .structural | some .dataLiteral => c = '{'
  | some .closing => c = '}'
  | some .inert => isBrace c = true

theorem openingRole_cases (before : Text) :
    openingRole before = .structural ∨ openingRole before = .dataLiteral := by
  unfold openingRole
  split_ifs
  · exact Or.inr rfl
  · exact Or.inl rfl

theorem step_quoted {mode : Mode} (h : mode.Quoted) (before : Text) (c : Char) (rest : Text) :
    (step before mode c rest).2.Quoted := by
  cases mode with
  | code =>
    by_cases hquote : c = '"' ∨ c = '\''
    · simp only [step, if_pos hquote]
      split_ifs
      · trivial
      · exact hquote
      · exact hquote
    · simp only [step, if_neg hquote]
      split_ifs <;> trivial
  | plain q =>
    simp only [step]
    split_ifs
    · exact h
    · trivial
    · exact h
    · exact h
  | template q =>
    simp only [step]
    split_ifs
    · exact h
    · trivial
    · exact h
    · exact h
    · exact h
    · exact h
  | field q depth =>
    simp only [step]
    split_ifs
    · exact h
    · cases depth <;> exact h
    · exact h

theorem isBrace_quote {q : Char} (h : q = '"' ∨ q = '\'') : isBrace q = false := by
  rcases h with rfl | rfl <;> decide

theorem isBrace_eq_false {c : Char} (hopen : c ≠ '{') (hclose : c ≠ '}') : isBrace c = false := by
  simp [isBrace, hopen, hclose]

/-- **One character gets a role that it may have.** -/
theorem step_fits {mode : Mode} (h : mode.Quoted) (before : Text) (c : Char) (rest : Text) :
    Fits c (step before mode c rest).1 := by
  cases mode with
  | code =>
    by_cases hquote : c = '"' ∨ c = '\''
    · have hnone := isBrace_quote hquote
      simp only [step, if_pos hquote]
      split_ifs <;> exact hnone
    · simp only [step, if_neg hquote]
      split_ifs with hopen hclose
      · rcases openingRole_cases before with hrole | hrole <;> rw [hrole] <;> exact hopen
      · exact hclose
      · exact isBrace_eq_false hopen hclose
  | plain q =>
    have hquote : isBrace q = false := isBrace_quote h
    simp only [step]
    split_ifs with hq _ hbrace
    · exact hq ▸ hquote
    · exact hq ▸ hquote
    · exact hbrace
    · exact Bool.eq_false_of_not_eq_true hbrace
  | template q =>
    have hquote : isBrace q = false := isBrace_quote h
    simp only [step]
    split_ifs with hq _ hopen _ hclose
    · exact hq ▸ hquote
    · exact hq ▸ hquote
    · exact hopen ▸ rfl
    · exact hopen ▸ rfl
    · exact hclose ▸ rfl
    · exact isBrace_eq_false hopen hclose
  | field q depth =>
    simp only [step]
    split_ifs with hopen hclose
    · exact hopen ▸ rfl
    · cases depth <;> exact hclose ▸ rfl
    · exact isBrace_eq_false hopen hclose

theorem Fits.brace_cases {c : Char} {role : Role} (h : Fits c (some role)) :
    c = '{' ∧ role ∈ [.structural, .dataLiteral, .inert] ∨ c = '}' ∧ role ∈ [.closing, .inert] := by
  cases role with
  | structural => exact Or.inl ⟨h, by decide⟩
  | dataLiteral => exact Or.inl ⟨h, by decide⟩
  | closing => exact Or.inr ⟨h, by decide⟩
  | inert =>
    have hbrace : isBrace c = true := h
    simp only [isBrace, Bool.or_eq_true, beq_iff_eq] at hbrace
    rcases hbrace with rfl | rfl
    · exact Or.inl ⟨rfl, by decide⟩
    · exact Or.inr ⟨rfl, by decide⟩

/-- **Every brace has a role that suits it, and nothing else has one.** -/
theorem scan_fits {mode : Mode} (h : mode.Quoted) (before line : Text) :
    List.Forall₂ Fits line (scan before mode line) := by
  induction line generalizing before mode with
  | nil => exact .nil
  | cons c rest ih => exact .cons (step_fits h before c rest) (ih (step_quoted h before c rest) _)

/-! ### Tags -/

theorem le_index_of_mem_tagsFrom {offset : Nat} {line : Text} {rs : List (Option Role)} {tag : Tag}
    (h : tag ∈ tagsFrom offset line rs) : offset ≤ tag.index := by
  fun_induction tagsFrom offset line rs with
  | case1 offset c line role more ih =>
    rcases List.mem_cons.mp h with rfl | h
    · exact le_rfl
    · exact le_trans (Nat.le_add_right _ _) (ih h)
  | case2 offset c line more ih => exact le_trans (Nat.le_add_right _ _) (ih h)
  | case3 => exact absurd h (by simp)

theorem index_lt_of_mem_tagsFrom {offset : Nat} {t : Text} {rs : List (Option Role)} {tag : Tag}
    (h : tag ∈ tagsFrom offset t rs) : tag.index < offset + Text.byteSize t := by
  fun_induction tagsFrom offset t rs with
  | case1 offset c t role more ih =>
    rw [Text.byteSize_cons]
    rcases List.mem_cons.mp h with rfl | h
    · have hpos : 0 < c.utf8Size := c.utf8Size_pos
      show offset < _
      omega
    · have := ih h
      omega
  | case2 offset c t more ih =>
    have := ih h
    rw [Text.byteSize_cons]
    omega
  | case3 => exact absurd h (by simp)

theorem tagsFrom_pairwise (offset : Nat) (line : Text) (rs : List (Option Role)) :
    (tagsFrom offset line rs).Pairwise fun a b => a.index < b.index := by
  fun_induction tagsFrom offset line rs with
  | case1 offset c line role more ih =>
    refine List.pairwise_cons.mpr ⟨fun tag htag => ?_, ih⟩
    have hle := le_index_of_mem_tagsFrom htag
    have hpos : 0 < c.utf8Size := c.utf8Size_pos
    show offset < tag.index
    omega
  | case2 offset c line more ih => exact ih
  | case3 => exact List.Pairwise.nil

theorem tagsFrom_append {t : Text} {rs : List (Option Role)} (h : t.length = rs.length)
    (offset : Nat) (u : Text) (ss : List (Option Role)) :
    tagsFrom offset (t ++ u) (rs ++ ss) =
      tagsFrom offset t rs ++ tagsFrom (offset + Text.byteSize t) u ss := by
  induction t generalizing rs offset with
  | nil =>
    obtain rfl : rs = [] := List.length_eq_zero_iff.mp h.symm
    rfl
  | cons c t ih =>
    cases rs with
    | nil => exact absurd h (by simp)
    | cons r rs =>
      have hlen : t.length = rs.length := by simpa using h
      have hoffset : offset + (c.utf8Size + Text.byteSize t) =
          offset + c.utf8Size + Text.byteSize t := by omega
      cases r with
      | none => simp only [List.cons_append, tagsFrom, ih hlen, Text.byteSize_cons, hoffset]
      | some role => simp only [List.cons_append, tagsFrom, ih hlen, Text.byteSize_cons, hoffset]

theorem tagsFrom_shift (k offset : Nat) (t : Text) (rs : List (Option Role)) :
    tagsFrom (offset + k) t rs = (tagsFrom offset t rs).map (Tag.shift k) := by
  induction t generalizing rs offset with
  | nil => rfl
  | cons c t ih =>
    have hoffset : offset + k + c.utf8Size = offset + c.utf8Size + k := by omega
    cases rs with
    | nil => rfl
    | cons r rs =>
      cases r with
      | none => simp only [tagsFrom, hoffset, ih]
      | some role => simp only [tagsFrom, hoffset, ih, List.map_cons, Tag.shift]

/-- A tag stands where a character starts that may have its role. -/
theorem exists_char_of_mem_tagsFrom {line : Text} {rs : List (Option Role)}
    (h : List.Forall₂ Fits line rs) {offset : Nat} {tag : Tag} (htag : tag ∈ tagsFrom offset line rs) :
    ∃ pre c post, line = pre ++ c :: post ∧ tag.index = offset + Text.byteSize pre ∧
      Fits c (some tag.role) := by
  induction h generalizing offset with
  | nil => exact absurd htag (by simp [tagsFrom])
  | @cons c r line rs hfits _ ih =>
    have hlater : tag ∈ tagsFrom (offset + c.utf8Size) line rs → ∃ pre d post,
        c :: line = pre ++ d :: post ∧ tag.index = offset + Text.byteSize pre ∧
          Fits d (some tag.role) := by
      intro htag
      obtain ⟨pre, d, post, rfl, hindex, hrole⟩ := ih htag
      exact ⟨c :: pre, d, post, rfl, by rw [Text.byteSize_cons]; omega, hrole⟩
    cases r with
    | none => exact hlater htag
    | some role =>
      rcases List.mem_cons.mp htag with rfl | htag
      · exact ⟨[], c, line, rfl, rfl, hfits⟩
      · exact hlater htag

/-- And no brace goes without. -/
theorem exists_tag_of_brace {c : Char} (hc : isBrace c = true) {pre post : Text}
    {rs : List (Option Role)} (h : List.Forall₂ Fits (pre ++ c :: post) rs) (offset : Nat) :
    ∃ tag ∈ tagsFrom offset (pre ++ c :: post) rs, tag.index = offset + Text.byteSize pre := by
  induction pre generalizing rs offset with
  | nil =>
    cases h with
    | @cons _ r _ rs hfits _ =>
      cases r with
      | none =>
        have hnone : isBrace c = false := hfits
        rw [hnone] at hc
        exact absurd hc (by decide)
      | some role => exact ⟨⟨offset, role⟩, List.mem_cons_self, rfl⟩
  | cons d pre ih =>
    cases h with
    | @cons _ r _ rs _ hrest =>
      obtain ⟨tag, htag, hindex⟩ := ih hrest (offset + d.utf8Size)
      refine ⟨tag, ?_, by rw [Text.byteSize_cons]; omega⟩
      cases r with
      | none => exact htag
      | some role => exact List.mem_cons_of_mem _ htag

/-! ### Fields in one go -/

/-- How far the brace lies that closes the first one of a text, when `opened` braces are open before it;
none if there is none. Gives up where more braces are closed than were opened. -/
def matching : Nat → Text → Option (Option Nat)
  | _, [] => some none
  | opened, c :: rest =>
    if c = '{' then (matching (opened + 1) rest).map (Option.map (· + 1))
    else if c = '}' then
      match opened with
      | 0 => none
      | 1 => some (some 0)
      | opened + 2 => (matching (opened + 1) rest).map (Option.map (· + 1))
    else (matching opened rest).map (Option.map (· + 1))

/-- The roles of characters inside a string: the braces are inert. -/
def inertSpan (t : Text) : List (Option Role) := t.map fun c => if isBrace c then some .inert else none

/-- Reads a line as `scan` does, but each field of an f-string in one go: up to the brace that closes it,
or the opening brace alone if none does. -/
def readSpans (before : Text) (mode : Mode) (line : Text) : Option (List (Option Role)) :=
  match mode, line with
  | _, [] => some []
  | .template q, '{' :: rest =>
    (matching 0 ('{' :: rest)).bind fun found =>
      let far := found.getD 0
      (readSpans ((rest.take far).reverse ++ '{' :: before) (.template q) (rest.drop far)).map
        (inertSpan ('{' :: rest.take far) ++ ·)
  | mode, c :: rest =>
    (readSpans (c :: before) (step before mode c rest).2 rest).map ((step before mode c rest).1 :: ·)
termination_by line.length

/-- What the search for the end of a field comes to: nothing closes it, or it is read up to the brace that
is found. -/
inductive FieldEnd (depth : Nat) (rest : Text) : Option Nat → Prop where
  | unclosed (h : closes depth rest = false) : FieldEnd depth rest none
  | closed (k : Nat) (h : closes depth rest = true)
      (hscan : ∀ before q, scan before (.field q depth) rest = inertSpan (rest.take (k + 1)) ++
        scan ((rest.take (k + 1)).reverse ++ before) (.template q) (rest.drop (k + 1))) :
      FieldEnd depth rest (some k)

theorem FieldEnd.cons {depth depth' : Nat} {c : Char} {rest : Text} {found : Option Nat}
    (h : FieldEnd depth' rest found) (hcloses : closes depth (c :: rest) = closes depth' rest)
    (hstep : ∀ before q, step before (.field q depth) c rest =
      (if isBrace c then some .inert else none, .field q depth')) :
    FieldEnd depth (c :: rest) (found.map (· + 1)) := by
  cases h with
  | unclosed h => exact .unclosed (hcloses.trans h)
  | closed k h hscan =>
    refine .closed (k + 1) (hcloses.trans h) fun before q => ?_
    rw [scan_cons, hstep, hscan]
    simp [inertSpan]

/-- **Inside a field the count stays positive.** -/
theorem exists_matching (depth : Nat) (rest : Text) :
    ∃ found, matching (depth + 1) rest = some found ∧ FieldEnd depth rest found := by
  induction rest generalizing depth with
  | nil => exact ⟨none, rfl, .unclosed (by cases depth <;> rfl)⟩
  | cons c rest ih =>
    by_cases hopen : c = '{'
    · subst hopen
      obtain ⟨found, hfound, hend⟩ := ih (depth + 1)
      refine ⟨found.map (· + 1), ?_, hend.cons (by simp [closes]) fun before q => rfl⟩
      rw [matching.eq_def]
      simp only [if_pos, hfound]
      rfl
    · by_cases hclose : c = '}'
      · subst hclose
        cases depth with
        | zero => exact ⟨some 0, rfl, .closed 0 rfl fun before q => rfl⟩
        | succ depth =>
          obtain ⟨found, hfound, hend⟩ := ih depth
          refine ⟨found.map (· + 1), ?_, hend.cons (by simp [closes]) fun before q => rfl⟩
          rw [matching, if_neg hopen, if_pos rfl]
          simp only [hfound]
          rfl
      · obtain ⟨found, hfound, hend⟩ := ih depth
        have hnone := isBrace_eq_false hopen hclose
        refine ⟨found.map (· + 1), ?_, hend.cons (closes_of_not_brace hnone depth rest) fun before q => ?_⟩
        · rw [matching.eq_def]
          simp only [if_neg hopen, if_neg hclose, hfound]
          rfl
        · simp [step, hopen, hclose, hnone]

/-- Whether the reading stands in a field. -/
def Mode.isField : Mode → Bool
  | .field .. => true
  | _ => false

/-- Only an opening brace in an f-string leads into a field. -/
theorem step_isField {mode : Mode} {c : Char} (hmode : mode.isField = false)
    (hopen : ∀ q, mode = .template q → c = '{' → False) (before rest : Text) :
    (step before mode c rest).2.isField = false := by
  cases mode with
  | code =>
    simp only [step]
    split_ifs <;> rfl
  | plain q =>
    simp only [step]
    split_ifs <;> rfl
  | template q =>
    have hne : c ≠ '{' := hopen q rfl
    simp only [step, if_neg hne]
    split_ifs <;> rfl
  | field q depth => exact absurd hmode (by simp [Mode.isField])

/-- **Fields may be read in one go.** The search for the end of a field never gives up, and what it marks
has the roles that it has character by character. -/
theorem readSpans_eq {mode : Mode} (hquoted : mode.Quoted) (hmode : mode.isField = false)
    (before line : Text) : readSpans before mode line = some (scan before mode line) := by
  fun_induction readSpans before mode line with
  | case1 before mode => rfl
  | case2 before q rest ih =>
    have hq : '{' ≠ q := by
      rcases hquoted with rfl | rfl <;> decide
    have hstep : step before (.template q) '{' rest =
        (some .inert, if closes 0 rest then .field q 0 else .template q) := by
      simp [step, hq]
    obtain ⟨found, hfound, hend⟩ := exists_matching 0 rest
    have hmatching : matching 0 ('{' :: rest) = some (found.map (· + 1)) := by
      rw [matching.eq_def]
      simp only [if_pos, hfound]
      rfl
    have hrest := ih (found.map (· + 1)) hquoted hmode
    rw [hmatching, Option.bind_some, scan_cons, hstep]
    cases hend with
    | unclosed hcloses =>
      simp only [Option.map_none, Option.getD_none, List.take_zero, List.drop_zero] at hrest ⊢
      rw [hrest, hcloses]
      rfl
    | closed k hcloses hscan =>
      simp only [Option.map_some, Option.getD_some] at hrest ⊢
      rw [hrest, hcloses, if_pos rfl, hscan]
      rfl
  | case3 before mode c rest hopen ih =>
    rw [ih (step_quoted hquoted before c rest) (step_isField hmode hopen before rest), scan_cons]
    rfl

/-- **The tags of a line are its braces.** Their indexes increase strictly, and are the offsets of all the
bytes that hold a brace and of no others. An opening brace is structural, starts a data literal or is
inert, and a closing brace closes or is inert. Reading each field of an f-string in one go gives the same
roles, and the count of open braces by which its end is found never goes below zero. -/
theorem tags_are_braces (line : Text) :
    let bytes := Utf8.encode line
    ((tags line).map Tag.index).Pairwise (· < ·) ∧
    (∀ i, i ∈ (tags line).map Tag.index ↔
      bytes[i]? = some '{'.toUInt8 ∨ bytes[i]? = some '}'.toUInt8) ∧
    (∀ tag ∈ tags line,
      bytes[tag.index]? = some '{'.toUInt8 ∧ tag.role ∈ [.structural, .dataLiteral, .inert] ∨
      bytes[tag.index]? = some '}'.toUInt8 ∧ tag.role ∈ [.closing, .inert]) ∧
    readSpans [] .code line = some (roles line) := by
  intro bytes
  have hcode : Mode.code.Quoted := trivial
  have hfits : List.Forall₂ Fits line (roles line) := scan_fits hcode [] line
  have hbyte : ∀ {d : Char}, d.toNat < 0x80 → ∀ i, bytes[i]? = some d.toUInt8 ↔
      ∃ pre post, line = pre ++ d :: post ∧ i = Text.byteSize pre :=
    fun hd i => Utf8.getElem_encode_ascii hd line i
  have hrole : ∀ tag ∈ tags line,
      bytes[tag.index]? = some '{'.toUInt8 ∧ tag.role ∈ [.structural, .dataLiteral, .inert] ∨
      bytes[tag.index]? = some '}'.toUInt8 ∧ tag.role ∈ [.closing, .inert] := by
    intro tag htag
    obtain ⟨pre, c, post, hline, hindex, hchar⟩ := exists_char_of_mem_tagsFrom hfits htag
    rw [Nat.zero_add] at hindex
    rcases hchar.brace_cases with ⟨rfl, hmem⟩ | ⟨rfl, hmem⟩
    · exact Or.inl ⟨(hbyte (by decide) _).mpr ⟨pre, post, hline, hindex⟩, hmem⟩
    · exact Or.inr ⟨(hbyte (by decide) _).mpr ⟨pre, post, hline, hindex⟩, hmem⟩
  have htagged : ∀ {d : Char}, isBrace d = true → d.toNat < 0x80 → ∀ i, bytes[i]? = some d.toUInt8 →
      i ∈ (tags line).map Tag.index := by
    intro d hbrace hd i hi
    obtain ⟨pre, post, rfl, rfl⟩ := (hbyte hd i).mp hi
    obtain ⟨tag, htag, hindex⟩ := exists_tag_of_brace hbrace hfits 0
    exact List.mem_map.mpr ⟨tag, htag, by rw [hindex, Nat.zero_add]⟩
  refine ⟨?_, fun i => ⟨fun hi => ?_, fun hi => ?_⟩, hrole, readSpans_eq hcode rfl [] line⟩
  · exact List.pairwise_map.mpr (tagsFrom_pairwise 0 line (roles line))
  · obtain ⟨tag, htag, rfl⟩ := List.mem_map.mp hi
    rcases hrole tag htag with ⟨h, -⟩ | ⟨h, -⟩
    · exact Or.inl h
    · exact Or.inr h
  · rcases hi with hi | hi
    · exact htagged (by decide) (by decide) i hi
    · exact htagged (by decide) (by decide) i hi

/-- An f-string after a character of two bytes, with a field inside a field and an opening brace that
nothing closes. -/
example : tags "é = f'\x7ba\x7bb\x7d\x7dß\x7b', \x7b".toList = [⟨7, .inert⟩, ⟨9, .inert⟩, ⟨11, .inert⟩,
    ⟨12, .inert⟩, ⟨15, .inert⟩, ⟨19, .dataLiteral⟩] := by
  decide

end Brace

end Offside
