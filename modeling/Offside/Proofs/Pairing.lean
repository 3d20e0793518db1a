import Offside.Proofs.OpenBraces
import Offside.Proofs.Resuming

/-!
# Data literals and the braces that close them

`Pairing` pairs the braces of a line as one would by hand: the tags are read from left to right, and a
closing brace is paired with the last data literal before it that belongs to no pair yet, if there is one.
What belongs to no pair is `loose`. Nothing is said about a stack, but the loose data literals come and go
like one (`Pairing.Sound.loose_read`), and it is the one that `leftOpen` keeps (`map_index_loose`).

Every closing brace either belongs to a pair or is loose. So the depth of the tags read, with the loose
closing braces added, is the number of loose data literals and structural braces (`Pairing.Sound.balance`).
-/

namespace Offside

namespace Brace

open Text

/-- The tags of a line that were read, the last one first, and the pairs found among them. -/
structure Pairing where
  seen : List Tag := []
  pairs : List (Tag × Tag) := []

namespace Pairing

/-- Whether a tag belongs to a pair. -/
def isPaired (p : Pairing) (tag : Tag) : Bool :=
  p.pairs.any fun pair => pair.1 == tag || pair.2 == tag

/-- The tags of a role that belong to no pair, the last one first. -/
def loose (p : Pairing) (role : Role) : List Tag :=
  p.seen.filter fun tag => tag.role == role && !p.isPaired tag

/-- Reads one more tag. A closing brace is paired with the last data literal that belongs to no pair. -/
def read (p : Pairing) (tag : Tag) : Pairing where
  seen := tag :: p.seen
  pairs :=
    match tag.role, p.loose .dataLiteral with
    | .closing, opened :: _ => (opened, tag) :: p.pairs
    | _, _ => p.pairs

/-- What holds of the tags read so far. -/
structure Sound (p : Pairing) : Prop where
  ordered : p.seen.Pairwise fun a b => b.index < a.index
  paired : ∀ pair ∈ p.pairs, pair.1 ∈ p.seen ∧ pair.2 ∈ p.seen
  /-- Closing braces are paired with data literals or loose. -/
  balance : Tag.depth p.seen + (p.loose .closing).length =
    (p.loose .dataLiteral).length + (p.seen.countP fun tag => tag.role == .structural)

section Read

variable {p : Pairing} {tag : Tag}

theorem Sound.loose_ordered (h : p.Sound) (role : Role) :
    (p.loose role).Pairwise fun a b => b.index < a.index := h.ordered.filter _

theorem role_of_mem_loose {role : Role} (h : tag ∈ p.loose role) : tag.role = role := by
  have hfilter := (List.mem_filter.mp h).2
  simp only [Bool.and_eq_true, beq_iff_eq] at hfilter
  exact hfilter.1

theorem seen_read (p : Pairing) (tag : Tag) : (p.read tag).seen = tag :: p.seen := rfl

theorem ne_of_mem_seen (hnew : ∀ old ∈ p.seen, old.index < tag.index) {old : Tag} (h : old ∈ p.seen) :
    old ≠ tag := by
  rintro rfl
  exact absurd (hnew old h) (Nat.lt_irrefl _)

/-- A tag further on than those read belongs to no pair. -/
theorem Sound.isPaired_new (h : p.Sound) (hnew : ∀ old ∈ p.seen, old.index < tag.index) :
    p.isPaired tag = false := by
  unfold isPaired
  rw [List.any_eq_false]
  intro pair hpair
  obtain ⟨hfirst, hsecond⟩ := h.paired pair hpair
  simp [ne_of_mem_seen hnew hfirst, ne_of_mem_seen hnew hsecond]

/-- A tag that makes no pair is loose. -/
theorem loose_of_pairs_eq (hpairs : (p.read tag).pairs = p.pairs) (hpaired : p.isPaired tag = false)
    (role : Role) :
    (p.read tag).loose role = if tag.role = role then tag :: p.loose role else p.loose role := by
  have hsame : (p.read tag).isPaired = p.isPaired := by
    funext t
    unfold isPaired
    rw [hpairs]
  unfold loose
  rw [seen_read, hsame, List.filter_cons, hpaired]
  simp

/-- A tag that makes a pair is not loose, and neither is its partner any more. -/
theorem loose_of_pairs_cons {opened : Tag} (hpairs : (p.read tag).pairs = (opened, tag) :: p.pairs)
    (hnew : ∀ old ∈ p.seen, old.index < tag.index) (role : Role) :
    (p.read tag).loose role = (p.loose role).filter fun t => opened != t := by
  have hpaired : ∀ t, (p.read tag).isPaired t = (opened == t || tag == t || p.isPaired t) := by
    intro t
    unfold isPaired
    rw [hpairs, List.any_cons]
  unfold loose
  rw [seen_read, List.filter_cons_of_neg (by simp [hpaired]), List.filter_filter]
  refine List.filter_congr fun t ht => ?_
  have hne : (tag == t) = false := beq_false_of_ne (ne_of_mem_seen hnew ht).symm
  rw [hpaired, hne, Bool.or_false, Bool.not_or, bne]
  exact Bool.and_left_comm ..

/-- **What one more tag does to those that are loose.** -/
theorem Sound.loose_read (h : p.Sound) (hnew : ∀ old ∈ p.seen, old.index < tag.index) :
    (p.read tag).loose .dataLiteral =
        (match tag.role with
          | .dataLiteral => tag :: p.loose .dataLiteral
          | .closing => (p.loose .dataLiteral).tail
          | _ => p.loose .dataLiteral) ∧
      (p.read tag).loose .closing =
        (if tag.role = .closing ∧ p.loose .dataLiteral = [] then tag :: p.loose .closing
          else p.loose .closing) := by
  have hsame := fun hpairs => loose_of_pairs_eq hpairs (h.isPaired_new hnew)
  cases hrole : tag.role with
  | structural | dataLiteral | inert =>
    have hpairs : (p.read tag).pairs = p.pairs := by simp only [read, hrole]
    simp [hsame hpairs, hrole]
  | closing =>
    cases hloose : p.loose .dataLiteral with
    | nil =>
      have hpairs : (p.read tag).pairs = p.pairs := by simp only [read, hrole, hloose]
      simp [hsame hpairs, hrole, hloose]
    | cons opened others =>
      have hpairs : (p.read tag).pairs = (opened, tag) :: p.pairs := by simp only [read, hrole, hloose]
      have hcons := loose_of_pairs_cons hpairs hnew
      have hordered := h.loose_ordered .dataLiteral
      have hopened : opened ∈ p.loose .dataLiteral := by rw [hloose]; exact List.mem_cons_self
      rw [hloose] at hordered
      -- the partner goes, and only the partner: indexes tell literals apart, roles tell them from closers
      constructor
      · rw [hcons, hloose, List.filter_cons_of_neg (by simp), List.tail_cons, List.filter_eq_self]
        intro t ht
        rw [bne_iff_ne]
        rintro rfl
        exact absurd ((List.pairwise_cons.mp hordered).1 opened ht) (Nat.lt_irrefl _)
      · rw [hcons, if_neg (by simp), List.filter_eq_self]
        intro t ht
        rw [bne_iff_ne]
        rintro rfl
        exact absurd ((role_of_mem_loose hopened).symm.trans (role_of_mem_loose ht)) (by decide)

theorem mem_pairs_read {pair : Tag × Tag} (h : pair ∈ (p.read tag).pairs) :
    pair ∈ p.pairs ∨ pair.1 ∈ p.seen ∧ pair.2 = tag := by
  unfold Pairing.read at h
  simp only at h
  split at h
  · next opened others _ hloose =>
    rcases List.mem_cons.mp h with rfl | h
    · have hmem : opened ∈ p.loose .dataLiteral := by rw [hloose]; exact List.mem_cons_self
      exact Or.inr ⟨List.mem_of_mem_filter hmem, rfl⟩
    · exact Or.inl h
  · exact Or.inl h

/-- **One more tag keeps all this.** -/
theorem Sound.read (h : p.Sound) (hnew : ∀ old ∈ p.seen, old.index < tag.index) :
    (p.read tag).Sound := by
  obtain ⟨hliterals, hclosers⟩ := h.loose_read hnew
  refine ⟨List.pairwise_cons.mpr ⟨hnew, h.ordered⟩, fun pair hpair => ?_, ?_⟩
  · rw [seen_read]
    rcases mem_pairs_read hpair with hold | ⟨hfirst, hsecond⟩
    · obtain ⟨hfirst, hsecond⟩ := h.paired pair hold
      exact ⟨List.mem_cons_of_mem _ hfirst, List.mem_cons_of_mem _ hsecond⟩
    · exact ⟨List.mem_cons_of_mem _ hfirst, hsecond ▸ List.mem_cons_self⟩
  · have hbalance := h.balance
    rw [hliterals, hclosers, seen_read, Tag.depth_cons, List.countP_cons]
    cases hrole : tag.role with
    | structural =>
      simp only [Role.weight, reduceCtorEq, false_and, if_false, beq_self_eq_true, if_true]
      omega
    | dataLiteral =>
      simp only [Role.weight, reduceCtorEq, false_and, if_false, beq_iff_eq, List.length_cons]
      omega
    | closing =>
      -- one brace less open: a literal that gets its partner, or one more closing brace without any
      cases hloose : p.loose .dataLiteral with
      | nil =>
        rw [hloose, List.length_nil] at hbalance
        simp only [Role.weight, and_self, if_true, beq_iff_eq, reduceCtorEq, if_false, List.length_cons,
          List.tail_nil, List.length_nil]
        omega
      | cons opened others =>
        rw [hloose, List.length_cons] at hbalance
        simp only [Role.weight, reduceCtorEq, and_false, if_false, beq_iff_eq, List.tail_cons]
        omega
    | inert =>
      simp only [Role.weight, reduceCtorEq, false_and, if_false, beq_iff_eq]
      omega

end Read

theorem seen_foldl (ts : List Tag) (p : Pairing) : (ts.foldl read p).seen = ts.reverse ++ p.seen := by
  induction ts generalizing p with
  | nil => rfl
  | cons tag ts ih =>
    rw [List.foldl_cons, ih, seen_read, List.reverse_cons, List.append_assoc]
    rfl

/-- **Reading tags one after the other.** The indexes of the loose data literals are what a stack would
hold, and a loose closing brace stays loose. -/
theorem Sound.foldl {p : Pairing} (h : p.Sound) {ts : List Tag}
    (hts : ts.Pairwise fun a b => a.index < b.index)
    (hnew : ∀ tag ∈ ts, ∀ old ∈ p.seen, old.index < tag.index) :
    (ts.foldl Pairing.read p).Sound ∧
      ((ts.foldl Pairing.read p).loose .dataLiteral).map Tag.index =
        ts.foldl (fun stack tag => turn Role.isLiteral tag.index stack (some tag.role))
          ((p.loose .dataLiteral).map Tag.index) ∧
      p.loose .closing ⊆ (ts.foldl Pairing.read p).loose .closing := by
  induction ts generalizing p with
  | nil => exact ⟨h, rfl, List.Subset.refl _⟩
  | cons tag ts ih =>
    obtain ⟨hlater, hts⟩ := List.pairwise_cons.mp hts
    have htag := hnew tag List.mem_cons_self
    obtain ⟨hliterals, hclosers⟩ := h.loose_read htag
    have hstack : ((p.read tag).loose .dataLiteral).map Tag.index =
        turn Role.isLiteral tag.index ((p.loose .dataLiteral).map Tag.index) (some tag.role) := by
      rw [hliterals]
      cases hrole : tag.role <;> simp [turn, Role.isLiteral]
    have hkept : p.loose .closing ⊆ (p.read tag).loose .closing := by
      rw [hclosers]
      split_ifs
      · exact List.subset_cons_self _ _
      · exact List.Subset.refl _
    obtain ⟨hsound, hall, hsubset⟩ := ih (h.read htag) hts fun t ht old hold => by
      rcases List.mem_cons.mp hold with rfl | hold
      · exact hlater t ht
      · exact hnew t (List.mem_cons_of_mem _ ht) old hold
    rw [List.foldl_cons, List.foldl_cons, ← hstack]
    exact ⟨hsound, hall, List.Subset.trans hkept hsubset⟩

theorem sound_start : ({} : Pairing).Sound :=
  ⟨List.Pairwise.nil, fun _ hpair => absurd hpair (by simp), rfl⟩

/-- Of tags in falling order the last one is the leftmost. -/
theorem getLast_index_iff {ts : List Tag} (h : ts.Pairwise fun a b => b.index < a.index) {i : Nat} :
    ts.getLast?.map Tag.index = some i ↔
      ∃ tag ∈ ts, tag.index = i ∧ ∀ other ∈ ts, i ≤ other.index := by
  have hleast : ∀ last, ts.getLast? = some last → ∀ other ∈ ts, last.index ≤ other.index := by
    intro last hlast other hother
    obtain ⟨others, rfl⟩ := List.getLast?_eq_some_iff.mp hlast
    rcases List.mem_append.mp hother with hother | hother
    · exact ((List.pairwise_append.mp h).2.2 other hother last (by simp)).le
    · rw [List.mem_singleton.mp hother]
  constructor
  · intro hi
    obtain ⟨last, hlast, rfl⟩ := Option.map_eq_some_iff.mp hi
    exact ⟨last, List.mem_of_getLast? hlast, rfl, hleast last hlast⟩
  · rintro ⟨tag, htag, rfl, hall⟩
    cases hlast : ts.getLast? with
    | none =>
      rw [List.getLast?_eq_none_iff.mp hlast] at htag
      exact absurd htag (by simp)
    | some last =>
      have hle := hleast last hlast tag htag
      have hge := hall last (List.mem_of_getLast? hlast)
      rw [Option.map_some, Option.some.injEq]
      omega

end Pairing

/-- The pairs of a line. -/
def pairing (line : Text) : Pairing := (tags line).foldl Pairing.read {}

/-! ### Positions and bytes -/

theorem turn_map (opens : Role → Bool) (f : Nat → Nat) (pos : Nat) (stack : List Nat) (r : Option Role) :
    turn opens (f pos) (stack.map f) r = (turn opens pos stack r).map f := by
  rcases r with _ | _ | _ | _ | _
  · rfl
  · cases hopens : opens .structural <;> simp [turn, hopens]
  · cases hopens : opens .dataLiteral <;> simp [turn, hopens]
  · exact List.map_tail.symm
  · cases hopens : opens .inert <;> simp [turn, hopens]

/-- **Tags are matched as roles are**, `f` giving the byte at which a position lies. -/
theorem foldl_turn_tagsFrom {opens : Role → Bool} {f : Nat → Nat} {offset pos : Nat} {t : Text}
    {rs : List (Option Role)} (h : t.length = rs.length)
    (hf : ∀ j, f (pos + j) = offset + byteOffset t j) (stack : List Nat) :
    (tagsFrom offset t rs).foldl (fun stack tag => turn opens tag.index stack (some tag.role))
      (stack.map f) = (leftOpen opens pos stack rs).map f := by
  induction t generalizing rs offset pos stack with
  | nil =>
    obtain rfl : rs = [] := List.length_eq_zero_iff.mp h.symm
    rfl
  | cons c t ih =>
    cases rs with
    | nil => exact absurd h (by simp)
    | cons r rs =>
      have hlen : t.length = rs.length := by simpa using h
      have hnext : ∀ j, f (pos + 1 + j) = offset + c.utf8Size + byteOffset t j := by
        intro j
        have hstep := hf (j + 1)
        have hoffset : byteOffset (c :: t) (j + 1) = c.utf8Size + byteOffset t j := rfl
        rw [hoffset, ← Nat.add_assoc offset] at hstep
        rw [← hstep]
        congr 1
        omega
      cases r with
      | none => exact ih hlen hnext stack
      | some role =>
        have hpos : offset = f pos := (hf 0).symm
        rw [leftOpen_cons, ← ih hlen hnext, ← turn_map, ← hpos]
        rfl

section Line

variable {line : Text}

theorem pairing_sound (line : Text) : (pairing line).Sound :=
  (Pairing.sound_start.foldl (tagsFrom_pairwise 0 line (roles line))
    fun _ _ _ hold => absurd hold (by simp)).1

/-- **The loose data literals are the stack of `leftOpen`**, in bytes. -/
theorem map_index_loose (line : Text) :
    ((pairing line).loose .dataLiteral).map Tag.index =
      (leftOpen Role.isLiteral 0 [] (roles line)).map (byteOffset line) := by
  obtain ⟨-, hliterals, -⟩ := Pairing.sound_start.foldl (tagsFrom_pairwise 0 line (roles line))
    fun _ _ _ hold => absurd hold (by simp)
  exact hliterals.trans (foldl_turn_tagsFrom (by simp) (by simp) [])

/-- **The literal found open is the leftmost one that belongs to no pair.** -/
theorem openLiteralAt_index (line : Text) :
    (openLiteralAt? line).map (byteOffset line) =
      ((pairing line).loose .dataLiteral).getLast?.map Tag.index := by
  rw [openLiteralAt_eq, ← List.getLast?_map, ← List.getLast?_map, map_index_loose]

theorem openLiteralAt_isSome_iff :
    (openLiteralAt? line).isSome ↔ (pairing line).loose .dataLiteral ≠ [] := by
  have h := congrArg Option.isSome (openLiteralAt_index line)
  rw [Option.isSome_map, Option.isSome_map] at h
  rw [h, List.getLast?_isSome]

/-- **Depth and pairs**: without structural braces and loose closing braces the depth of a line is the
number of its loose data literals. -/
theorem netDepth_of_paired (hstructural : ∀ tag ∈ tags line, tag.role ≠ .structural)
    (hclosers : (pairing line).loose .closing = []) :
    netDepth line = ((pairing line).loose .dataLiteral).length := by
  have hseen : (pairing line).seen = (tags line).reverse := by
    rw [pairing, Pairing.seen_foldl, List.append_nil]
  have hnone : (pairing line).seen.countP (fun tag => tag.role == .structural) = 0 := by
    rw [List.countP_eq_zero]
    intro tag htag
    rw [hseen, List.mem_reverse] at htag
    simpa using hstructural tag htag
  have hbalance := (pairing_sound line).balance
  rw [hclosers, hnone, hseen, Tag.depth_reverse, ← netDepth_eq] at hbalance
  simpa using hbalance

/-- A closing brace at the front of a line has no partner. -/
theorem loose_closing_of_head (h : line.head? = some '}') : (pairing line).loose .closing ≠ [] := by
  obtain ⟨text, rfl⟩ := List.head?_eq_some_iff.mp h
  have hordered : (tags ('}' :: text)).Pairwise fun a b => a.index < b.index := tagsFrom_pairwise 0 _ _
  rw [tags_closing_cons] at hordered
  obtain ⟨hlater, hordered⟩ := List.pairwise_cons.mp hordered
  have hfirst : (({} : Pairing).read ⟨0, .closing⟩).Sound :=
    Pairing.sound_start.read fun old hold => absurd hold (by simp)
  obtain ⟨-, -, hkept⟩ := hfirst.foldl hordered fun tag htag old hold => by
    rw [List.mem_singleton.mp hold]
    exact hlater tag htag
  rw [pairing, tags_closing_cons, List.foldl_cons]
  exact List.ne_nil_of_mem (hkept (List.mem_singleton.mpr rfl))

theorem structuralAt_eq_none (h : ∀ tag ∈ tags line, tag.role ≠ .structural) :
    structuralAt? line = none := by
  cases hbrace : structuralAt? line with
  | none => rfl
  | some brace =>
    obtain ⟨before, after, split, -⟩ := exists_splitsAt hbrace
    have hrole := getElem_structuralAt split.first
    rw [split.eq] at hrole h
    have htags := tags_cut hrole (by decide)
    exact absurd rfl (h ⟨byteSize before, .structural⟩ (by rw [htags]; simp))

end Line

end Brace

namespace Layout

open Text Brace

/-- **A literal starts with as many open braces as there are unpaired data literals**, on a line without
structural braces and unpaired closing ones. -/
theorem Placed.literalDepth_of_paired {n : Nesting} {rest : Text} {p : Placement} (h : Placed n rest p)
    (hn : n.literalDepth = 0) (hcomment : Keyword.isComment (trim rest) = false)
    (hstructural : ∀ tag ∈ tags (trim rest), tag.role ≠ .structural)
    (hclosers : (pairing (trim rest)).loose .closing = []) :
    p.nesting.literalDepth = ((pairing (trim rest)).loose .dataLiteral).length ∧
      ((pairing (trim rest)).loose .dataLiteral ≠ [] →
        p.events = [.literalEntered ((pairing (trim rest)).loose .dataLiteral).length]) := by
  have hnone := structuralAt_eq_none hstructural
  cases h with
  | blank h =>
    rw [h]
    exact ⟨hn, fun hne => absurd rfl hne⟩
  | comment h =>
    rw [hcomment] at h
    exact absurd h (by decide)
  | continuation _ hin =>
    rw [Nesting.inLiteral, hn] at hin
    exact absurd hin (by decide)
  | stray _ hbrace => exact absurd hclosers (loose_closing_of_head hbrace)
  | literal =>
    have hdepth : (n.enterLiteral (indentation rest) (netDepth (trim rest))).literalDepth =
        ((pairing (trim rest)).loose .dataLiteral).length := by
      rw [enterLiteral_eq, netDepth_of_paired hstructural hclosers]
      exact Int.toNat_natCast _
    exact ⟨hdepth, fun _ => by rw [hdepth]⟩
  | block _ _ _ _ before after split =>
    rw [split.first] at hnone
    exact absurd hnone (by simp)
  | statement _ _ _ hlit =>
    have hloose : (pairing (trim rest)).loose .dataLiteral = [] := by
      by_contra hne
      obtain ⟨i, hi⟩ := Option.isSome_iff_exists.mp (openLiteralAt_isSome_iff.mpr hne)
      rw [startsLiteral, hi, hnone] at hlit
      exact absurd hlit (by simp)
    rw [hloose]
    exact ⟨hn, fun hne => absurd rfl hne⟩

/-- **The literal that a line leaves open is the leftmost data literal that no brace closes.** A closing
brace closes the last data literal before it that is still unpaired, if there is one; structural and inert
braces do not count. If there are no structural braces and all closing braces find a partner, the depth
of the line is the number of unpaired data literals. Such a line, or such a rest of a line after its
leading closing braces, starts a literal if there are any, and their number is the depth at which the
literal starts. -/
theorem open_literal_leftmost (line : Text) :
    let p := pairing line
    (∀ i, (openLiteralAt? line).map (byteOffset line) = some i ↔
      ∃ tag ∈ p.loose .dataLiteral, tag.index = i ∧ ∀ other ∈ p.loose .dataLiteral, i ≤ other.index) ∧
    ((openLiteralAt? line).isSome ↔ p.loose .dataLiteral ≠ []) ∧
    ((∀ tag ∈ tags line, tag.role ≠ .structural) → p.loose .closing = [] →
      netDepth line = (p.loose .dataLiteral).length ∧
      ((openLiteralAt? line).isSome ↔ 0 < netDepth line) ∧
      ∀ (n : Nesting) (raw rest : Text), n.literalDepth = 0 → remainder n raw = some rest →
        trim rest = line → Keyword.isComment line = false →
        (feed n raw).nesting.literalDepth = (p.loose .dataLiteral).length ∧
          (p.loose .dataLiteral ≠ [] →
            (feed n raw).events = [.literalEntered (p.loose .dataLiteral).length])) := by
  intro p
  refine ⟨fun i => ?_, openLiteralAt_isSome_iff, fun hstructural hclosers => ?_⟩
  · rw [openLiteralAt_index]
    exact Pairing.getLast_index_iff ((pairing_sound line).loose_ordered .dataLiteral)
  · have hdepth := netDepth_of_paired hstructural hclosers
    refine ⟨hdepth, ?_, fun n raw rest hn hrest hline hcomment => ?_⟩
    · rw [openLiteralAt_isSome_iff, hdepth, ← List.length_pos_iff]
      omega
    · subst hline
      have hplaced := placed_place (n.closeBlocks (ended n raw)) rest
      rw [← feed_of_remainder_some hrest] at hplaced
      exact hplaced.literalDepth_of_paired hn hcomment hstructural hclosers

/-- A line with a structural brace and two closing braces without a partner, and a dict behind the brace
that ends a block, with a set closed in it and a dict open. -/
theorem open_literal_leftmost_nested :
    let mixed := "\x7d, x \x7b y = \x7b1\x7d\x7d, z = \x7b, \x7b".toList
    let line := "é = \x7b1: \x7b2\x7d, 3: \x7b".toList
    let n : Nesting := { level := 1, openBlocks := 1 }
    let raw := "  \x7d  é = \x7b1: \x7b2\x7d, 3: \x7b;".toList
    ((pairing mixed).loose .closing ≠ [] ∧
      (openLiteralAt? mixed).map (byteOffset mixed) = some 21) ∧
    ((∀ tag ∈ tags line, tag.role ≠ .structural) ∧ (pairing line).loose .closing = []) ∧
    netDepth line = 2 ∧ (openLiteralAt? line).isSome ∧ remainder n raw = some line ∧
      (feed n raw).nesting.literalDepth = 2 ∧ (feed n raw).events = [.literalEntered 2] := by
  intro mixed line n raw
  have hstructural : ∀ tag ∈ tags line, tag.role ≠ .structural := by decide
  have hclosers : (pairing line).loose .closing = [] := by decide
  have hrest : remainder n raw = some line := by decide
  have hleast : ∃ tag ∈ (pairing mixed).loose .dataLiteral, tag.index = 21 ∧
      ∀ other ∈ (pairing mixed).loose .dataLiteral, 21 ≤ other.index := by decide
  obtain ⟨hdepth, hopen, henters⟩ := (open_literal_leftmost line).2.2 hstructural hclosers
  obtain ⟨hentered, hevent⟩ := henters n raw line rfl hrest (by decide) (by decide)
  exact ⟨⟨by decide, ((open_literal_leftmost mixed).1 21).mpr hleast⟩, ⟨hstructural, hclosers⟩,
    hdepth.trans (by decide), hopen.mpr (by decide), hrest, hentered.trans (by decide),
    (hevent (by decide)).trans (by decide)⟩

end Layout

end Offside
