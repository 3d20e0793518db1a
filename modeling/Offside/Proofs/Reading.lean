import Offside.Proofs.Contradiction
import Offside.Proofs.LineBreaks
import Offside.Proofs.Reachable

/-!
# Sources that are read and texts that are given

A source that is read is cut into lines as bytes, and each line is decoded on its own; a text is cut into
lines as characters. Both give the same lines, because a byte that ends a line is never part of another
character (`Utf8.spelling`), and a source of which every line is well-formed is well-formed as a whole
(`Source.decodeLines_eq_some_iff`).

As to the line ends themselves, the layout and the check on style see of a line only its trimmed text and
the column where it starts (`Aligned`). A carriage return left at the end of a line changes neither, so
it makes no difference which line ends a text has (`Converter.convertLines_aligned`).
-/

namespace Offside

namespace Utf8

theorem decode_eq_some_iff {b : Bytes} {t : Text} : decode b = some t ↔ b = encode t := by
  constructor
  · intro h
    obtain ⟨chars, hchars, rfl⟩ := Option.map_eq_some_iff.mp h
    have hsome : b.toByteArray.utf8Decode?.isSome := by rw [hchars]; rfl
    have hencode := ByteArray.utf8Encode_get_utf8Decode? (h := hsome)
    simp only [hchars, Option.get_some] at hencode
    exact (List.toByteArray_inj.mp hencode).symm
  · rintro rfl
    have hencode : (encode t).toByteArray.utf8Decode? = some t.toArray := List.utf8Decode?_utf8Encode
    unfold decode
    rw [hencode]
    rfl

theorem encode_append (s t : Text) : encode (s ++ t) = encode s ++ encode t := List.flatMap_append ..

/-- A byte below 0x80 in the encoding of a character is the code of the character. -/
theorem toNat_of_mem_encodeChar {c : Char} {b : UInt8} (hb : b ∈ String.utf8EncodeChar c)
    (hlow : b.toNat < 0x80) : c.toNat = b.toNat := by
  have hcode : c.toNat = c.val.toNat := rfl
  unfold String.utf8EncodeChar at hb
  simp only at hb
  split_ifs at hb with h1 h2 h3
  · rw [List.mem_singleton.mp hb, UInt8.toNat_ofNat'] at hlow ⊢
    omega
  all_goals
    exfalso
    simp only [List.mem_cons, List.not_mem_nil, or_false] at hb
    rcases hb with rfl | rfl | rfl | rfl <;> rw [UInt8.toNat_ofNat'] at hlow <;> omega

/-- **Line ends are spelled apart from all else.** -/
theorem spelling : Lines.Spelling String.utf8EncodeChar '\n' '\r' Source.feed Source.ret where
  feed_eq := by decide
  ret_eq := by decide
  ne := by decide
  nonempty _ := String.utf8EncodeChar_ne_nil
  other c hfeed hret b hb := by
    have hne : ∀ d : Char, c ≠ d → d.toNat < 0x80 → b.toNat ≠ d.toNat := by
      intro d hcd hd hbd
      have hcode := toNat_of_mem_encodeChar hb (by omega)
      exact hcd (Char.toNat_inj.mp (by omega))
    refine ⟨?_, ?_⟩
    · rintro rfl
      exact hne '\n' hfeed (by decide) rfl
    · rintro rfl
      exact hne '\r' hret (by decide) rfl

end Utf8

namespace Source

theorem decodeLines_encode (lines : List Text) : decodeLines (lines.map Utf8.encode) = some lines := by
  unfold decodeLines
  induction lines with
  | nil => rfl
  | cons line lines ih =>
    rw [List.map_cons, List.mapM_cons, ih, Utf8.decode_eq_some_iff.mpr rfl]
    rfl

theorem exists_decode_of_mem {pieces : List Bytes} {lines : List Text}
    (h : decodeLines pieces = some lines) {piece : Bytes} (hmem : piece ∈ pieces) :
    ∃ line, piece = Utf8.encode line := by
  unfold decodeLines at h
  induction pieces generalizing lines with
  | nil => exact absurd hmem (by simp)
  | cons first pieces ih =>
    rw [List.mapM_cons] at h
    obtain ⟨line, hline, h⟩ := Option.bind_eq_some_iff.mp h
    obtain ⟨others, hothers, -⟩ := Option.bind_eq_some_iff.mp h
    rcases List.mem_cons.mp hmem with rfl | hmem
    · exact ⟨line, Utf8.decode_eq_some_iff.mp hline⟩
    · exact ih hothers hmem

/-- **Reading line by line is reading as a whole**: every line is well-formed if and only if all the bytes
are, and then the lines are those of the text. -/
theorem decodeLines_eq_some_iff {b : Bytes} {lines : List Text} :
    decodeLines (Lines.split feed ret b) = some lines ↔
      ∃ t, b = Utf8.encode t ∧ lines = Lines.ofText t := by
  have hencode : ∀ t, decodeLines (Lines.split feed ret (Utf8.encode t)) = some (Lines.ofText t) := by
    intro t
    have hsplit : Lines.split feed ret (Utf8.encode t) = (Lines.ofText t).map Utf8.encode :=
      Utf8.spelling.split t
    rw [hsplit, decodeLines_encode]
  constructor
  · intro h
    have hpiece : ∀ piece ∈ Lines.split feed ret b, ∃ t, piece = Utf8.encode t :=
      fun piece hmem => exists_decode_of_mem h hmem
    obtain ⟨t, rfl⟩ := Lines.of_forall_mem_split (P := fun bytes => ∃ t, bytes = Utf8.encode t)
      ⟨[], rfl⟩ ⟨['\n'], rfl⟩ ⟨['\r'], rfl⟩
      (by rintro _ _ ⟨s, rfl⟩ ⟨t, rfl⟩; exact ⟨s ++ t, (Utf8.encode_append s t).symm⟩) b hpiece
    rw [hencode, Option.some.injEq] at h
    exact ⟨t, rfl, h.symm⟩
  · rintro ⟨t, rfl, rfl⟩
    exact hencode t

theorem decodeLines_eq_none_iff {b : Bytes} :
    decodeLines (Lines.split feed ret b) = none ↔ ∀ t, b ≠ Utf8.encode t := by
  rw [Option.eq_none_iff_forall_ne_some]
  constructor
  · intro h t ht
    exact h _ (decodeLines_eq_some_iff.mpr ⟨t, ht, rfl⟩)
  · intro h lines hlines
    obtain ⟨t, ht, -⟩ := decodeLines_eq_some_iff.mp hlines
    exact h t ht

end Source

/-! ### Line ends -/

open Text in
/-- Lines that show the same text at the same column. -/
structure Aligned (a b : Text) : Prop where
  trim_eq : trim a = trim b
  column_eq : indentation a = indentation b

open Text in
theorem aligned_ret (line : Text) : Aligned line (line ++ ['\r']) where
  trim_eq := (trim_pad blank_nil (by decide) line).symm
  column_eq := by
    unfold indentation
    rw [Brace.takeWhile_stop (by decide)]

namespace Layout

open Text

theorem place_aligned {a b : Text} (h : Aligned a b) (n : Nesting) : place n a = place n b := by
  unfold place
  rw [h.trim_eq, h.column_eq]

/-- **Of a line the layout sees the trimmed text and its column.** -/
theorem feed_aligned {a b : Text} (h : Aligned a b) (n : Nesting) : feed n a = feed n b := by
  by_cases hbrace : (trim a).head? = some '}'
  · cases hin : n.inLiteral with
    | true =>
      rw [feed, feed, if_pos hin, if_pos hin, place_aligned h]
    | false =>
      by_cases hopen : n.openBlocks = 0
      · rw [feed_of_no_blocks hopen, feed_of_no_blocks hopen, place_aligned h]
      · -- a block ends: what is left is cut out of the trimmed text
        obtain ⟨text, htext⟩ := List.head?_eq_some_iff.mp hbrace
        rw [feed_pass htext hin hopen, feed_pass (h.trim_eq ▸ htext) hin hopen]
  · rw [feed_of_head_ne hbrace, feed_of_head_ne (h.trim_eq ▸ hbrace), place_aligned h]

end Layout

namespace Converter

/-- The check on style sees the trimmed text. -/
theorem all_of_trim_eq {a b : Text} (h : Text.trim a = Text.trim b) (v : Verdict) (number : Nat) :
    Check.all [.style v] a number = Check.all [.style v] b number := by
  have hev : Style.evidence? a = Style.evidence? b := congrArg Style.ofTrimmed? h
  simp only [Check.all, Check.judge, Check.news, Verdict.judge, Verdict.news, hev]

theorem feed_aligned {lines lines' : List Text} (h : List.Forall₂ Aligned lines lines') {c : Converter}
    {v : Verdict} (hc : c.checks = [.style v]) (number : Nat) :
    c.feed number lines = c.feed number lines' := by
  induction h generalizing c v number with
  | nil => rfl
  | @cons a b later later' hline _ ih =>
    have hrest := ih (c := { c with checks := (Check.all [.style v] b number).checks
                                    nesting := (Layout.feed c.nesting b).nesting })
      (Check.all_style_checks v b number) (number + 1)
    simp only [feed, hc, all_of_trim_eq hline.trim_eq, Layout.feed_aligned hline, hrest]

/-- **Sources whose lines are aligned are converted in the same way.** -/
theorem convertLines_aligned {lines lines' : List Text} (h : List.Forall₂ Aligned lines lines')
    {c : Converter} {v : Verdict} (hc : c.checks = [.style v]) :
    c.convertLines lines = c.convertLines lines' := by
  have hreset : c.reset.checks = [.style none] := by
    simp [reset, hc, Check.reset]
  unfold convertLines
  rw [feed_aligned h hreset, h.length_eq]

end Converter

open Converter in
/-- **A source is converted like its text, and line ends make no difference.** Bytes that are the UTF-8
encoding of a text are converted as the text is. Bytes that encode no text are unreadable, whatever their
first lines hold, and so is a source that fails, be it for the failure or for a complete line before it
that encodes no text. And with the check on style alone, in whatever state, a carriage return before every
line feed of a text changes nothing. -/
theorem source_matches_text (c : Converter) :
    (∀ s : Text, c.convertSource { bytes := Utf8.encode s } = c.convertText s) ∧
    (∀ bytes : Bytes, (∀ s, bytes ≠ Utf8.encode s) →
      (c.convertSource { bytes := bytes }).result = .error (.unreadable .notText)) ∧
    (∀ (bytes : Bytes) (reason : String), ∃ fault,
      (c.convertSource { bytes := bytes, failure := some reason }).result = .error (.unreadable fault) ∧
      ((∃ s, Source.complete bytes = Utf8.encode s) ∧ fault = .failed reason ∨
        (∀ s, Source.complete bytes ≠ Utf8.encode s) ∧ fault = .notText)) ∧
    ∀ v : Verdict, c.checks = [.style v] →
      ∀ s : Text, (c.convertText (Lines.crlf s)).result = (c.convertText s).result := by
  refine ⟨fun s => ?_, fun bytes hbytes => ?_, fun bytes reason => ?_, fun v hc s => ?_⟩
  · have hread := Source.decodeLines_eq_some_iff.mpr ⟨s, rfl, rfl⟩
    simp only [convertSource, Source.read, hread]
    rfl
  · have hread := Source.decodeLines_eq_none_iff.mpr hbytes
    simp only [convertSource, Source.read, hread]
  · simp only [convertSource, Source.read]
    cases hread : Source.decodeLines (Lines.split Source.feed Source.ret (Source.complete bytes)) with
    | none => exact ⟨.notText, rfl, Or.inr ⟨Source.decodeLines_eq_none_iff.mp hread, rfl⟩⟩
    | some lines =>
      obtain ⟨s, hs, -⟩ := Source.decodeLines_eq_some_iff.mp hread
      exact ⟨.failed reason, rfl, Or.inl ⟨⟨s, hs⟩, rfl⟩⟩
  · have hlines : List.Forall₂ Aligned (Lines.ofText s) (Lines.ofText (Lines.crlf s)) := by
      refine (Lines.ofText_crlf s).imp ?_
      rintro line line' (rfl | rfl)
      · exact ⟨rfl, rfl⟩
      · exact aligned_ret line
    rw [convertText, convertText, convertLines_aligned hlines hc]

open Converter in
/-- Two lines that mix styles and a byte that starts no character, the same two lines and a failure, and
a text in which a line ends in a carriage return already. -/
theorem source_matches_text_mixed :
    let c : Converter := { width := .standard }
    let mixed := Utf8.encode "if x \x7b\nif y:\n".toList
    let s := "if x \x7b\n\tgo('ß');\r\n\x7d".toList
    (c.convertSource { bytes := mixed }).result = .error (.mixed ⟨⟨.colon, 2⟩, ⟨.brace, 1⟩⟩) ∧
      ((∀ s, mixed ++ [0xff] ≠ Utf8.encode s) ∧
        (c.convertSource { bytes := mixed ++ [0xff] }).result = .error (.unreadable .notText)) ∧
      (∃ fault, (c.convertSource { bytes := mixed, failure := some "disk on fire" }).result =
        .error (.unreadable fault)) ∧
      Lines.crlf s = "if x \x7b\r\n\tgo('ß');\r\r\n\x7d".toList ∧
      (c.convertText (Lines.crlf s)).result = .ok "if x:\n    go('ß')\n".toList := by
  intro c mixed s
  have hnone : Utf8.decode (mixed ++ [0xff]) = none := by decide +kernel
  have hbytes : ∀ s, mixed ++ [0xff] ≠ Utf8.encode s := by
    intro s hs
    rw [Utf8.decode_eq_some_iff.mpr hs] at hnone
    exact absurd hnone (by simp)
  obtain ⟨htext, hnotText, hfailed, hcrlf⟩ := source_matches_text c
  obtain ⟨fault, hfault, -⟩ := hfailed mixed "disk on fire"
  have hmixed : (c.convertText "if x \x7b\nif y:\n".toList).result =
      .error (.mixed ⟨⟨.colon, 2⟩, ⟨.brace, 1⟩⟩) := by decide
  have hok : (c.convertText s).result = .ok "if x:\n    go('ß')\n".toList := by decide
  exact ⟨by rw [htext]; exact hmixed, ⟨hbytes, hnotText _ hbytes⟩, ⟨fault, hfault⟩, by decide,
    (hcrlf none rfl s).trans hok⟩

end Offside
