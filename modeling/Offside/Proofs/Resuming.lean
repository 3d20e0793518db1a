import Offside.Proofs.Cut

/-!
# Reading on from the middle of a line

The layout cuts lines: it trims them, it takes closing braces off their front, and it reads the two sides
of a structural brace apart. `Resumes line k front part` says that nothing is lost by such a cut: `part`
stands `k` bytes into the line, the braces before it have the roles `front`, and the other tags of the line
are those of `part`, `k` bytes further on. Cuts made one after the other add up (`Resumes.trans`).

A line may be cut after any brace that is not inert (`tags_cut`), and blanks at its ends and a terminator may
be cut off (`tags_trim`, `tags_stripTerminator`). Head and tail of a block, and what peeling leaves of a
line, are cut out in these ways (`reading_resumes`).
-/

namespace Offside

namespace Text

/-- Size of the blanks at the start of a text, in UTF-8 bytes. -/
def marginSize (t : Text) : Nat := byteSize (t.takeWhile isBlank)

end Text

namespace Utf8

theorem length_encode (t : Text) : (encode t).length = Text.byteSize t := by
  induction t with
  | nil => rfl
  | cons c t ih =>
    have hencode : encode (c :: t) = String.utf8EncodeChar c ++ encode t := rfl
    rw [hencode, List.length_append, String.length_utf8EncodeChar, ih, Text.byteSize_cons]

theorem drop_encode (s t : Text) : (encode (s ++ t)).drop (Text.byteSize s) = encode t := by
  rw [encode_append, ← length_encode, List.drop_left]

end Utf8

namespace Tag

theorem shift_zero : shift 0 = id := rfl

theorem shift_shift (j k : Nat) (tag : Tag) : (tag.shift j).shift k = tag.shift (k + j) := by
  unfold shift
  simp only [mk.injEq, and_true]
  omega

theorem map_shift_shift (j k : Nat) (ts : List Tag) :
    (ts.map (shift j)).map (shift k) = ts.map (shift (k + j)) := by
  rw [List.map_map]
  exact List.map_congr_left fun tag _ => shift_shift j k tag

/-- Opening braces less closing braces among some tags. -/
def depth (ts : List Tag) : Int := (ts.map fun tag => tag.role.weight).sum

theorem depth_append (ts us : List Tag) : depth (ts ++ us) = depth ts + depth us := by
  simp [depth]

theorem depth_cons (tag : Tag) (ts : List Tag) : depth (tag :: ts) = tag.role.weight + depth ts := by
  simp [depth]

theorem depth_reverse (ts : List Tag) : depth ts.reverse = depth ts := by
  simp [depth, List.sum_reverse]

theorem depth_shift (k : Nat) (ts : List Tag) : depth (ts.map (shift k)) = depth ts := by
  unfold depth
  rw [List.map_map]
  rfl

end Tag

namespace Brace

open Text

/-! ### Tags and roles -/

theorem tagsFrom_none (offset : Nat) (t : Text) (k : Nat) :
    tagsFrom offset t (List.replicate k none) = [] := by
  induction t generalizing offset k with
  | nil => rfl
  | cons c t ih =>
    cases k with
    | zero => rfl
    | succ k => exact ih (offset + c.utf8Size) k

theorem depth_tagsFrom {t : Text} {rs : List (Option Role)} (h : t.length = rs.length) (offset : Nat) :
    Tag.depth (tagsFrom offset t rs) = depthOf rs := by
  induction t generalizing rs offset with
  | nil =>
    obtain rfl : rs = [] := List.length_eq_zero_iff.mp h.symm
    rfl
  | cons c t ih =>
    cases rs with
    | nil => exact absurd h (by simp)
    | cons r rs =>
      have hlen : t.length = rs.length := by simpa using h
      rw [depthOf_cons, ← ih hlen (offset + c.utf8Size)]
      cases r with
      | none => exact (Int.zero_add _).symm
      | some role => exact Tag.depth_cons _ _

/-- **The depth of a line is that of its tags.** -/
theorem netDepth_eq (line : Text) : netDepth line = Tag.depth (tags line) :=
  (depth_tagsFrom (by simp) 0).symm

/-- A tag stands before the character that has its role. -/
theorem exists_split_of_mem_tagsFrom {offset : Nat} {t : Text} {rs : List (Option Role)} {tag : Tag}
    (h : tag ∈ tagsFrom offset t rs) :
    ∃ before c after, t = before ++ c :: after ∧ tag.index = offset + byteSize before ∧
      rs[before.length]? = some (some tag.role) := by
  fun_induction tagsFrom offset t rs with
  | case1 offset c t role more ih =>
    rcases List.mem_cons.mp h with rfl | h
    · exact ⟨[], c, t, rfl, rfl, rfl⟩
    · obtain ⟨before, d, after, rfl, hindex, hrole⟩ := ih h
      exact ⟨c :: before, d, after, rfl, by rw [byteSize_cons]; omega, hrole⟩
  | case2 offset c t more ih =>
    obtain ⟨before, d, after, rfl, hindex, hrole⟩ := ih h
    exact ⟨c :: before, d, after, rfl, by rw [byteSize_cons]; omega, hrole⟩
  | case3 => exact absurd h (by simp)

/-- The tags around one of them. -/
theorem filter_around {ts us : List Tag} {tag : Tag} (hts : ∀ t ∈ ts, t.index < tag.index)
    (hus : ∀ u ∈ us, tag.index < u.index) :
    (ts ++ tag :: us).filter (fun t => t.index < tag.index) = ts ∧
      (ts ++ tag :: us).filter (fun t => tag.index < t.index) = us := by
  constructor
  · rw [List.filter_append, List.filter_eq_self.mpr fun t ht => decide_eq_true (hts t ht),
      List.filter_cons_of_neg (by simp), List.filter_eq_nil_iff.mpr fun u hu => ?_, List.append_nil]
    have := hus u hu
    simp only [decide_eq_true_eq]
    omega
  · rw [List.filter_append, List.filter_eq_nil_iff.mpr fun t ht => ?_, List.nil_append,
      List.filter_cons_of_neg (by simp), List.filter_eq_self.mpr fun u hu => decide_eq_true (hus u hu)]
    have := hts t ht
    simp only [decide_eq_true_eq]
    omega

/-! ### Cuts -/

theorem isBrace_of_role {past : Text} {mode : Mode} {before : Text} {c : Char} {after : Text} {r : Role}
    (h : (scan past mode (before ++ c :: after))[before.length]? = some (some r)) :
    isBrace c = true := by
  induction before generalizing past mode with
  | nil =>
    rw [List.nil_append, scan_cons, List.length_nil, List.getElem?_cons_zero, Option.some.injEq] at h
    cases hc : isBrace c with
    | true => rfl
    | false =>
      rw [step_role_none hc] at h
      exact absurd h (by simp)
  | cons d before ih =>
    rw [List.cons_append, scan_cons, List.length_cons, List.getElem?_cons_succ] at h
    exact ih h

theorem utf8Size_brace {c : Char} (h : isBrace c = true) : c.utf8Size = 1 := by
  simp only [isBrace, Bool.or_eq_true, beq_iff_eq] at h
  rcases h with rfl | rfl <;> rfl

/-- **Cut at a live brace**, a line has the tags of the text before it, the brace, and the tags of the text
after it. -/
theorem tags_cut {before : Text} {c : Char} {after : Text} {r : Role}
    (h : (roles (before ++ c :: after))[before.length]? = some (some r)) (hr : r ≠ .inert) :
    tags (before ++ c :: after) =
      tags before ++ ⟨byteSize before, r⟩ :: (tags after).map (Tag.shift (byteSize before + 1)) := by
  have hcut := roles_cut h hr
  have hsize : c.utf8Size = 1 := utf8Size_brace (isBrace_of_role h)
  have hafter := tagsFrom_shift (byteSize before + 1) 0 after (roles after)
  rw [Nat.zero_add] at hafter
  unfold tags
  rw [hcut, tagsFrom_append (by simp), Nat.zero_add, tagsFrom, hsize, hafter]

theorem tags_closing_cons (text : Text) :
    tags ('}' :: text) = ⟨0, .closing⟩ :: (tags text).map (Tag.shift 1) := by
  have hrole : (roles ([] ++ '}' :: text))[([] : Text).length]? = some (some .closing) := by
    rw [List.nil_append, roles_closing_cons]
    rfl
  exact tags_cut hrole (by decide)

/-- Text without braces at the end of a line has no tags. -/
theorem tags_append_plain {s : Text} (hs : Plain s) (t : Text) : tags (t ++ s) = tags t := by
  unfold tags
  rw [roles_append_plain hs, tagsFrom_append (by simp), tagsFrom_none, List.append_nil]

/-- Blanks at the start of a line move its tags. -/
theorem tags_blank_append {a : Text} (ha : Blank a) (t : Text) :
    tags (a ++ t) = (tags t).map (Tag.shift (byteSize a)) := by
  unfold tags
  rw [roles_blank_append ha, tagsFrom_append (by simp), tagsFrom_none, List.nil_append, tagsFrom_shift]

theorem tags_trimEnd (t : Text) : tags (trimEnd t) = tags t := by
  obtain ⟨b, hb, htb⟩ := exists_trimEnd t
  conv_rhs => rw [htb, tags_append_plain (Plain.of_blank hb)]

/-- **The tags of a trimmed line are those of the line**, moved by the blanks that are gone. -/
theorem tags_trim (t : Text) : tags t = (tags (trim t)).map (Tag.shift (marginSize t)) := by
  have hblank : Blank (t.takeWhile isBlank) := fun c hc => List.mem_takeWhile_imp hc
  have hsplit : t = t.takeWhile isBlank ++ trimStart t := List.takeWhile_append_dropWhile.symm
  rw [trim, tags_trimEnd]
  conv_lhs => rw [hsplit, tags_blank_append hblank]
  rfl

theorem tags_stripTerminator (t : Text) : tags (Keyword.stripTerminator t) = tags t := by
  rcases Keyword.exists_stripTerminator t with h | h
  · rw [← h]
  · conv_rhs => rw [h, tags_append_plain plain_terminator]

/-- `part` stands `k` bytes into the line, the braces before it have the roles `front`, and from there on
the line is read as `part` is. -/
structure Resumes (line : Text) (k : Nat) (front : List Role) (part : Text) : Prop where
  stands : ∃ before after, line = before ++ part ++ after ∧ byteSize before = k
  reads : ∃ passed, tags line = passed ++ (tags part).map (Tag.shift k) ∧
    passed.map Tag.role = front ∧ ∀ tag ∈ passed, tag.index < k

section Resumes

variable {line part : Text} {k : Nat} {front : List Role}

theorem Resumes.trans (h : Resumes line k front part) {piece : Text} {j : Nat} {front' : List Role}
    (h' : Resumes part j front' piece) : Resumes line (k + j) (front ++ front') piece := by
  obtain ⟨before, after, hline, rfl⟩ := h.stands
  obtain ⟨before', after', hpart, rfl⟩ := h'.stands
  obtain ⟨passed, htags, hroles, hlow⟩ := h.reads
  obtain ⟨passed', htags', hroles', hlow'⟩ := h'.reads
  refine ⟨⟨before ++ before', after' ++ after, ?_, byteSize_append ..⟩,
    passed ++ passed'.map (Tag.shift (byteSize before)), ?_, ?_, fun tag htag => ?_⟩
  · rw [hline, hpart]
    simp
  · rw [htags, htags', List.map_append, Tag.map_shift_shift, List.append_assoc]
  · rw [List.map_append, hroles, List.map_map, ← hroles']
    rfl
  · rcases List.mem_append.mp htag with htag | htag
    · have := hlow tag htag
      omega
    · obtain ⟨tag', htag', rfl⟩ := List.mem_map.mp htag
      have := hlow' tag' htag'
      show tag'.index + byteSize before < _
      omega

theorem resumes_self (line : Text) : Resumes line 0 [] line where
  stands := ⟨[], [], by simp, rfl⟩
  reads := ⟨[], by rw [Tag.shift_zero, List.map_id, List.nil_append], rfl, by simp⟩

theorem resumes_trim (line : Text) : Resumes line (marginSize line) [] (trim line) where
  stands := by
    obtain ⟨b, -, hb⟩ := exists_trimEnd (trimStart line)
    refine ⟨line.takeWhile isBlank, b, ?_, rfl⟩
    rw [List.append_assoc, trim, ← hb]
    exact List.takeWhile_append_dropWhile.symm
  reads := ⟨[], tags_trim line, rfl, by simp⟩

/-- What is left of a line after a closing brace stands behind the blanks that follow the brace. -/
theorem resumes_afterBrace (text : Text) :
    Resumes text (marginSize text) [] (Layout.afterBrace text) where
  stands := by
    obtain ⟨before, after, htext, hsize⟩ := (resumes_trim text).stands
    obtain ⟨b, -, hb⟩ := exists_trimEnd (Keyword.stripTerminator (trim text))
    obtain ⟨d, hd⟩ := Keyword.stripTerminator_isPrefix (trim text)
    refine ⟨before, b ++ d ++ after, ?_, hsize⟩
    calc text = before ++ trim text ++ after := htext
      _ = before ++ (Layout.afterBrace text ++ b ++ d) ++ after := by rw [Layout.afterBrace, ← hb, hd]
      _ = before ++ Layout.afterBrace text ++ (b ++ d ++ after) := by simp
  reads := by
    refine ⟨[], ?_, rfl, by simp⟩
    unfold Layout.afterBrace
    rw [tags_trimEnd, tags_stripTerminator]
    exact tags_trim text

theorem resumes_closing (text : Text) : Resumes ('}' :: text) 1 [.closing] text where
  stands := ⟨['}'], [], by simp, rfl⟩
  reads := ⟨[⟨0, .closing⟩], tags_closing_cons text, rfl, by simp⟩

/-- **Peeling passes closing braces and nothing else**, and what is left is read as it is on the line. -/
theorem resumes_peel (blocks : Nat) (raw : Text) :
    ∃ k, Resumes raw k (List.replicate (Layout.peel blocks raw).closed .closing)
      ((Layout.peel blocks raw).rest.getD []) := by
  -- one pass is three cuts: trim the line, take the brace, and clear the ends of what follows it
  have hpass : ∀ {raw text : Text}, trim raw = '}' :: text →
      Resumes raw (marginSize raw + 1 + marginSize text) [.closing] (Layout.afterBrace text) := by
    intro raw text htrim
    have hline := resumes_trim raw
    rw [htrim] at hline
    exact (hline.trans (resumes_closing text)).trans (resumes_afterBrace text)
  fun_induction Layout.peel blocks raw with
  | case1 raw => exact ⟨0, resumes_self raw⟩
  | case2 blocks raw text htrim hempty =>
    have hrest := hpass htrim
    rw [List.isEmpty_iff.mp hempty] at hrest
    exact ⟨_, hrest⟩
  | case3 blocks raw text htrim hempty more ih =>
    obtain ⟨k, hk⟩ := ih
    exact ⟨_, (hpass htrim).trans hk⟩
  | case4 => exact ⟨0, resumes_self _⟩

end Resumes

/-- **A line may be cut after any brace that is not inert.** The text behind such a brace has the tags that
the line has there, and a trimmed line has those of the line, each moved by what is cut off. So the depth
of a line is that of the tags before the brace, of the brace, and of the trimmed text behind it. The head
and the tail around the first structural brace are read as they are on the line, and so is what is left
when closing braces are peeled off its front. -/
theorem reading_resumes (line : Text) :
    (∀ tag ∈ tags line, tag.role ≠ .inert →
      ∃ after, Utf8.encode after = (Utf8.encode line).drop (tag.index + 1) ∧
        (tags line).filter (fun later => tag.index < later.index) =
          (tags after).map (Tag.shift (tag.index + 1)) ∧
        netDepth line = Tag.depth ((tags line).filter fun earlier => earlier.index < tag.index) +
          tag.role.weight + netDepth (trim after)) ∧
    tags line = (tags (trim line)).map (Tag.shift (marginSize line)) ∧
    (∀ brace, structuralAt? line = some brace →
      let head := line.take brace
      let tail := line.drop (brace + 1)
      tags line = (tags (trim head)).map (Tag.shift (marginSize head)) ++
        ⟨byteSize head, .structural⟩ ::
          (tags (trim tail)).map (Tag.shift (byteSize head + 1 + marginSize tail))) ∧
    ∀ blocks, ∃ k, Resumes line k (List.replicate (Layout.peel blocks line).closed .closing)
      ((Layout.peel blocks line).rest.getD []) := by
  refine ⟨fun tag htag hlive => ?_, tags_trim line, fun brace hbrace => ?_,
    fun blocks => resumes_peel blocks line⟩
  · -- the tag stands for a character, and the line is cut there
    obtain ⟨before, c, after, rfl, hindex, hrole⟩ := exists_split_of_mem_tagsFrom htag
    rw [Nat.zero_add] at hindex
    have hsize : byteSize (before ++ [c]) = tag.index + 1 := by
      rw [byteSize_append, hindex, byteSize_cons, utf8Size_brace (isBrace_of_role hrole), byteSize_nil]
    have htags := tags_cut hrole hlive
    rw [← hindex] at htags
    have hbefore : ∀ earlier ∈ tags before, earlier.index < tag.index := by
      intro earlier hearlier
      have := index_lt_of_mem_tagsFrom hearlier
      omega
    have hafter : ∀ later ∈ (tags after).map (Tag.shift (tag.index + 1)), tag.index < later.index := by
      intro later hlater
      obtain ⟨later', -, rfl⟩ := List.mem_map.mp hlater
      show tag.index < later'.index + (tag.index + 1)
      omega
    obtain ⟨hfront, hback⟩ := filter_around hbefore hafter
    refine ⟨after, ?_, ?_, ?_⟩
    · rw [← hsize, ← Utf8.drop_encode (before ++ [c]) after, List.append_assoc]
      rfl
    · rw [htags]
      exact hback
    · rw [netDepth_trim, netDepth_eq, netDepth_eq after, htags, hfront, Tag.depth_append, Tag.depth_cons,
        Tag.depth_shift, Int.add_assoc]
  · obtain ⟨before, after, hsplit, rfl⟩ := exists_splitsAt hbrace
    have hrole := getElem_structuralAt hsplit.first
    intro head tail
    have hhead : head = before := hsplit.take
    have htail : tail = after := hsplit.drop
    rw [hhead, htail]
    rw [hsplit.eq] at hrole ⊢
    rw [tags_cut hrole (by decide)]
    conv_lhs => rw [tags_trim before, tags_trim after, Tag.map_shift_shift]

/-- A line that starts with a blank of three bytes, with a field of an f-string before its structural brace,
and a line with two closing braces at its front. -/
theorem reading_resumes_string :
    let line := "　if f'\x7bé\x7d' in s \x7b d = \x7b1: 2".toList
    let closers := "  \x7d \x7d else \x7b".toList
    (⟨19, .structural⟩ ∈ tags line ∧
      ∃ after, Utf8.encode after = (Utf8.encode line).drop 20 ∧
        [⟨25, .dataLiteral⟩] = (tags after).map (Tag.shift 20) ∧ 2 = 0 + 1 + netDepth (trim after)) ∧
    (structuralAt? line = some 16 ∧
      tags line = (tags (trim (line.take 16))).map (Tag.shift 3) ++
        ⟨19, .structural⟩ :: (tags (trim (line.drop 17))).map (Tag.shift 21)) ∧
    ∃ k, Resumes closers k [.closing, .closing] "else \x7b".toList := by
  intro line closers
  have htag : ⟨19, .structural⟩ ∈ tags line := by decide
  have hbrace : structuralAt? line = some 16 := by decide
  obtain ⟨hcut, -, hsplit, -⟩ := reading_resumes line
  obtain ⟨-, -, -, hpeel⟩ := reading_resumes closers
  exact ⟨⟨htag, hcut _ htag (by decide)⟩, ⟨hbrace, hsplit 16 hbrace⟩, hpeel 2⟩

end Brace

end Offside
