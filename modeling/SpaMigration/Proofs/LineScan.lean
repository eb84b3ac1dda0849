import Mathlib.Data.List.Induction
import SpaMigration.Proofs.ImportLine

/-!
# Scanning for the line of a span

The whole line of a span is found by stepping over single bytes, outwards from both of its ends. The steps never leave
the text, whatever the span is, and find the line that `wholeLine` tells by characters: no byte of a longer character
is taken for a blank or a line end, so a span that cuts through a character stays as it is.
-/
namespace SpaMigration

open Syntax Text

namespace Text

/-! ## Bytes of a text -/

/-- The bytes of a text in UTF-8. -/
def bytes (text : List Char) : List UInt8 := text.flatMap String.utf8EncodeChar

lemma bytes_append (s t : List Char) : bytes (s ++ t) = bytes s ++ bytes t := List.flatMap_append

lemma bytes_cons (c : Char) (s : List Char) : bytes (c :: s) = String.utf8EncodeChar c ++ bytes s := rfl

@[simp] lemma length_bytes (text : List Char) : (bytes text).length = byteSize text := by
  induction text with
  | nil => rfl
  | cons c text ih => rw [bytes_cons, List.length_append, String.length_utf8EncodeChar, ih, byteSize_cons]

/-- A character of one byte is that byte. -/
lemma toNat_toUInt8 {c : Char} (h : c.utf8Size = 1) : c.toUInt8.toNat = c.toNat ∧ c.toNat < 128 := by
  have hle : c.toNat ≤ 127 := UInt32.le_iff_toNat_le.mp (Char.utf8Size_eq_one_iff.mp h)
  have hbyte : c.toUInt8.toNat = c.toNat % 256 := UInt32.toNat_toUInt8 c.val
  omega

/-- The bytes of a longer character are no characters on their own. -/
lemma le_of_mem_utf8EncodeChar {b : UInt8} {c : Char} (hb : b ∈ String.utf8EncodeChar c) (hc : c.utf8Size ≠ 1) :
    128 ≤ b.toNat := by
  have hlong : ¬ c.val.toNat ≤ 127 := fun hle =>
    hc (Char.utf8Size_eq_one_iff.mpr (UInt32.le_iff_toNat_le.mpr hle))
  simp only [String.utf8EncodeChar, if_neg hlong] at hb
  split_ifs at hb
  all_goals
    simp only [List.mem_cons, List.not_mem_nil, or_false] at hb
    rcases hb with rfl | rfl | rfl | rfl
  all_goals
    simp only [UInt8.toNat_ofNat']
    omega

/-- A byte of a character is that of a character of one byte only when both are the same. -/
lemma eq_toUInt8_iff {b : UInt8} {c d : Char} (hb : b ∈ String.utf8EncodeChar c) (hd : d.utf8Size = 1) :
    b = d.toUInt8 ↔ c = d := by
  obtain ⟨hdByte, hdShort⟩ := toNat_toUInt8 hd
  by_cases hc : c.utf8Size = 1
  · obtain ⟨hcByte, -⟩ := toNat_toUInt8 hc
    rw [String.utf8EncodeChar_eq_singleton hc, List.mem_singleton] at hb
    obtain rfl : b = c.toUInt8 := hb
    rw [← UInt8.toNat_inj, ← Char.toNat_inj, hcByte, hdByte]
  · have hlong := le_of_mem_utf8EncodeChar hb hc
    constructor
    · rintro rfl
      omega
    · rintro rfl
      exact absurd hd hc

lemma utf8EncodeChar_ne_nil (c : Char) : String.utf8EncodeChar c ≠ [] :=
  List.length_pos_iff.mp (by rw [String.length_utf8EncodeChar]; exact c.utf8Size_pos)

/-- A cut that is not between two characters is inside of one. -/
lemma exists_of_splitAtByte?_eq_none {n : Nat} {text : List Char} (hn : n ≤ byteSize text)
    (h : splitAtByte? n text = none) :
    ∃ before c after, text = before ++ c :: after ∧ byteSize before < n ∧ n < byteSize before + c.utf8Size := by
  induction text generalizing n with
  | nil =>
    obtain rfl : n = 0 := Nat.le_zero.mp hn
    cases h
  | cons c text ih =>
    cases n with
    | zero => cases h
    | succ n =>
      rw [splitAtByte?] at h
      split_ifs at h with hc
      · obtain ⟨before, d, after, rfl, hlo, hhi⟩ :=
          ih (by rw [byteSize_cons] at hn; omega) (Option.map_eq_none_iff.mp h)
        exact ⟨c :: before, d, after, rfl, by rw [byteSize_cons]; omega, by rw [byteSize_cons]; omega⟩
      · exact ⟨[], c, text, rfl, n.succ_pos, by rw [byteSize_nil]; omega⟩

end Text

/-! ## The scan -/

/-- A byte that is a blank inside a line. -/
def isBlankByte (b : UInt8) : Bool := b == ' '.toUInt8 || b == '\t'.toUInt8

/-- Steps back over blanks; `none` where a byte is read that is not there. -/
def scanBack? (bytes : List UInt8) : Nat → Option Nat
  | 0 => some 0
  | place + 1 => do
    let b ← bytes[place]?
    if isBlankByte b then scanBack? bytes place else return place + 1

/-- Steps ahead over blanks up to the end of the bytes; `none` where a byte is read that is not there. -/
def scanAhead? (bytes : List UInt8) (place : Nat) : Option Nat :=
  if place < bytes.length then do
    let b ← bytes[place]?
    if isBlankByte b then scanAhead? bytes (place + 1) else return place
  else return place
termination_by bytes.length - place

/-- Whether a line starts at a place; `none` where a byte is read that is not there. -/
def startsLine? (bytes : List UInt8) : Nat → Option Bool
  | 0 => some true
  | place + 1 => do
    let b ← bytes[place]?
    return b == '\n'.toUInt8

/-- The place behind the line end at a place. The end of the bytes is one as well. -/
def behindLine? (bytes : List UInt8) (place : Nat) : Option Nat :=
  match bytes[place]? with
  | none => some place
  | some b =>
    if b == '\n'.toUInt8 then some (place + 1)
    else if b == '\r'.toUInt8 && bytes[place + 1]? == some '\n'.toUInt8 then some (place + 2)
    else none

/-- A span widened to its whole line, byte by byte; `none` where a byte is read that is not there. -/
def scanLine? (bytes : List UInt8) (span : Span) : Option Span := do
  let lo ← scanBack? bytes span.lo
  let hi ← scanAhead? bytes span.hi
  let starts ← startsLine? bytes lo
  match starts, behindLine? bytes hi with
  | true, some hi => return ⟨lo, hi⟩
  | _, _ => return span

section

variable {b : UInt8} {c : Char} {before after text : List Char}

lemma isBlankByte_eq (hb : b ∈ String.utf8EncodeChar c) : isBlankByte b = isLineBlank c := by
  rw [Bool.eq_iff_iff]
  simp only [isBlankByte, isLineBlank, Bool.or_eq_true, beq_iff_eq, eq_toUInt8_iff hb (d := ' ') rfl,
    eq_toUInt8_iff hb (d := '\t') rfl]

lemma beq_toUInt8_eq (hb : b ∈ String.utf8EncodeChar c) {d : Char} (hd : d.utf8Size = 1) :
    (b == d.toUInt8) = (c == d) := by
  rw [Bool.eq_iff_iff, beq_iff_eq, beq_iff_eq, eq_toUInt8_iff hb hd]

/-- At the offset of a character, and up to its end, there is a byte of it. -/
lemma exists_getElem?_bytes {n : Nat} (before : List Char) (c : Char) (after : List Char) (hlo : byteSize before ≤ n)
    (hhi : n < byteSize before + c.utf8Size) :
    ∃ b ∈ String.utf8EncodeChar c, (bytes (before ++ c :: after))[n]? = some b := by
  have hlt : n - byteSize before < (String.utf8EncodeChar c).length := by
    rw [String.length_utf8EncodeChar]
    omega
  refine ⟨_, List.getElem_mem hlt, ?_⟩
  rw [bytes_append, List.getElem?_append_right (by rwa [length_bytes]), length_bytes, bytes_cons,
    List.getElem?_append_left hlt, List.getElem?_eq_getElem hlt]

lemma exists_first_byte (before : List Char) (c : Char) (after : List Char) :
    ∃ b ∈ String.utf8EncodeChar c, (bytes (before ++ c :: after))[byteSize before]? = some b :=
  exists_getElem?_bytes before c after le_rfl (Nat.lt_add_of_pos_right c.utf8Size_pos)

lemma exists_last_byte (before : List Char) (c : Char) (after : List Char) :
    ∃ place, byteSize (before ++ [c]) = place + 1 ∧
      ∃ b ∈ String.utf8EncodeChar c, (bytes (before ++ c :: after))[place]? = some b := by
  have hpos := c.utf8Size_pos
  have hsize : byteSize (before ++ [c]) = byteSize before + c.utf8Size := by
    rw [byteSize_append, byteSize_cons, byteSize_nil, Nat.add_zero]
  obtain ⟨place, hplace⟩ : ∃ place, byteSize (before ++ [c]) = place + 1 := Nat.exists_eq_add_one.mpr (by omega)
  exact ⟨place, hplace, exists_getElem?_bytes before c after (by omega) (by omega)⟩

/-- Stepping back stops where the characters in front are no blanks any more. -/
lemma scanBack?_bytes (before after : List Char) :
    scanBack? (bytes (before ++ after)) (byteSize before) =
      some (byteSize before - (before.reverse.takeWhile isLineBlank).length) := by
  induction before using List.reverseRecOn generalizing after with
  | nil => rfl
  | append_singleton before c ih =>
    obtain ⟨place, hplace, b, hb, hget⟩ := exists_last_byte before c after
    rw [hplace, List.append_assoc, List.singleton_append, scanBack?, hget, Option.bind_eq_bind, Option.bind_some,
      isBlankByte_eq hb, List.reverse_append, List.reverse_singleton, List.singleton_append, List.takeWhile_cons]
    by_cases hc : isLineBlank c
    · obtain rfl : place = byteSize before := by
        have hsize := utf8Size_of_isLineBlank hc
        rw [byteSize_append, byteSize_cons, byteSize_nil] at hplace
        omega
      simp only [hc, if_true, ih, List.length_cons, Nat.add_sub_add_right]
    · simp [hc]

/-- Stepping ahead stops where the characters behind are no blanks any more. -/
lemma scanAhead?_bytes (before after : List Char) :
    scanAhead? (bytes (before ++ after)) (byteSize before) =
      some (byteSize before + (after.takeWhile isLineBlank).length) := by
  induction after generalizing before with
  | nil =>
    rw [scanAhead?, if_neg (by simp)]
    rfl
  | cons c after ih =>
    obtain ⟨b, hb, hget⟩ := exists_first_byte before c after
    have hinside : byteSize before < (bytes (before ++ c :: after)).length := (List.getElem?_eq_some_iff.mp hget).1
    rw [scanAhead?, if_pos hinside, hget, Option.bind_eq_bind,
      Option.bind_some, isBlankByte_eq hb, List.takeWhile_cons]
    by_cases hc : isLineBlank c
    · have hone := utf8Size_of_isLineBlank hc
      have hnext := ih (before ++ [c])
      rw [List.append_assoc, List.singleton_append, byteSize_append, byteSize_cons, byteSize_nil, Nat.add_zero,
        hone] at hnext
      simp only [hc, if_true, hnext, List.length_cons]
      congr 1
      omega
    · simp [hc]

/-- A line starts behind a line feed and at the start of the text. -/
lemma startsLine?_bytes (before after : List Char) :
    startsLine? (bytes (before ++ after)) (byteSize before) = some (before.getLast?.all (· == '\n')) := by
  cases before using List.reverseRecOn with
  | nil => rfl
  | append_singleton before c =>
    obtain ⟨place, hplace, b, hb, hget⟩ := exists_last_byte before c after
    rw [hplace, List.append_assoc, List.singleton_append, startsLine?, hget, Option.bind_eq_bind, Option.bind_some,
      beq_toUInt8_eq hb rfl, List.getLast?_append, List.getLast?_singleton, Option.some_or, Option.all_some]
    rfl

/-- The byte at the offset of a character is that of a character of one byte only when both are the same. -/
lemma getElem?_bytes_beq (before after : List Char) {d : Char} (hd : d.utf8Size = 1) :
    ((bytes (before ++ after))[byteSize before]? == some d.toUInt8) = (after.head? == some d) := by
  cases after with
  | nil =>
    rw [List.getElem?_eq_none (by simp)]
    rfl
  | cons c after =>
    obtain ⟨b, hb, hget⟩ := exists_first_byte before c after
    rw [hget, Option.some_beq_some, beq_toUInt8_eq hb hd, List.head?_cons, Option.some_beq_some]

/-- What ends a line in bytes ends it in characters. -/
lemma behindLine?_bytes (before after : List Char) :
    behindLine? (bytes (before ++ after)) (byteSize before) = (lineEnd? after).map (byteSize before + ·) := by
  cases after with
  | nil =>
    rw [behindLine?, List.getElem?_eq_none (by simp)]
    rfl
  | cons c after =>
    obtain ⟨b, hb, hget⟩ := exists_first_byte before c after
    rw [behindLine?, hget]
    simp only [beq_toUInt8_eq hb (d := '\n') rfl, beq_toUInt8_eq hb (d := '\r') rfl]
    by_cases hfeed : c = '\n'
    · subst hfeed
      rfl
    by_cases hreturn : c = '\r'
    · subst hreturn
      have hnext := getElem?_bytes_beq (before ++ ['\r']) after (d := '\n') rfl
      rw [byteSize_append, List.append_assoc, List.singleton_append] at hnext
      have hsize : byteSize ['\r'] = 1 := rfl
      rw [hsize] at hnext
      rw [hnext]
      cases after with
      | nil => rfl
      | cons d after =>
        by_cases hd : d = '\n'
        · subst hd
          rfl
        · simp [lineEnd?, hd]
    · simp [lineEnd?, hfeed, hreturn]

/-- Inside of a character both scans stay where they are, and find neither the start nor the end of a line. -/
lemma scan_inside (after : List Char) {n : Nat} (hlo : byteSize before < n) (hhi : n < byteSize before + c.utf8Size) :
    scanBack? (bytes (before ++ c :: after)) n = some n ∧
      startsLine? (bytes (before ++ c :: after)) n = some false ∧
      scanAhead? (bytes (before ++ c :: after)) n = some n ∧
      behindLine? (bytes (before ++ c :: after)) n = none := by
  have hlong : ∀ d : Char, d.utf8Size = 1 → (c == d) = false := by
    intro d hd
    rw [beq_eq_false_iff_ne]
    rintro rfl
    omega
  have hblank : isLineBlank c = false := by
    rw [isLineBlank, hlong ' ' rfl, hlong '\t' rfl]
    rfl
  obtain ⟨place, rfl⟩ : ∃ place, n = place + 1 := Nat.exists_eq_add_one.mpr (by omega)
  obtain ⟨front, hfront, hgetFront⟩ := exists_getElem?_bytes (n := place) before c after (by omega) (by omega)
  obtain ⟨b, hb, hget⟩ := exists_getElem?_bytes (n := place + 1) before c after (by omega) (by omega)
  refine ⟨?_, ?_, ?_, ?_⟩
  · simp [scanBack?, hgetFront, isBlankByte_eq hfront, hblank]
  · simp [startsLine?, hgetFront, beq_toUInt8_eq hfront (d := '\n') rfl, hlong '\n' rfl]
  · rw [scanAhead?, if_pos (List.getElem?_eq_some_iff.mp hget).1, hget]
    simp [isBlankByte_eq hb, hblank]
  · simp only [behindLine?, hget, beq_toUInt8_eq hb (d := '\n') rfl, beq_toUInt8_eq hb (d := '\r') rfl,
      hlong '\n' rfl, hlong '\r' rfl, Bool.false_and, Bool.false_eq_true, if_false]

/-- Where stepping back stops a line starts if nothing but blanks is in front of the span on its line. -/
lemma startsLine?_scanned (before after : List Char) :
    startsLine? (bytes (before ++ after)) (byteSize before - (before.reverse.takeWhile isLineBlank).length) =
      some ((before.reverse.dropWhile isLineBlank).head?.all (· == '\n')) := by
  have hbefore := (reverse_dropWhile_append_reverse_takeWhile isLineBlank before).symm
  have hblanks : byteSize (before.reverse.takeWhile isLineBlank).reverse =
      (before.reverse.takeWhile isLineBlank).length := by
    rw [byteSize_of_isLineBlank fun c hc => List.mem_takeWhile_imp (List.mem_reverse.mp hc), List.length_reverse]
  have hplace : byteSize before - (before.reverse.takeWhile isLineBlank).length =
      byteSize (before.reverse.dropWhile isLineBlank).reverse := by
    have hsize := congrArg byteSize hbefore
    rw [byteSize_append, hblanks] at hsize
    omega
  rw [hplace]
  nth_rewrite 1 [hbefore]
  rw [List.append_assoc, startsLine?_bytes, List.getLast?_reverse]

/-- Where stepping ahead stops a line ends if nothing but blanks is behind the span on its line. -/
lemma behindLine?_scanned (before after : List Char) :
    behindLine? (bytes (before ++ after)) (byteSize before + (after.takeWhile isLineBlank).length) =
      (lineEnd? (after.dropWhile isLineBlank)).map (byteSize before + (after.takeWhile isLineBlank).length + ·) := by
  have hblanks : byteSize (after.takeWhile isLineBlank) = (after.takeWhile isLineBlank).length :=
    byteSize_of_isLineBlank fun c hc => List.mem_takeWhile_imp hc
  have hfound := behindLine?_bytes (before ++ after.takeWhile isLineBlank) (after.dropWhile isLineBlank)
  rwa [List.append_assoc, List.takeWhile_append_dropWhile, byteSize_append, hblanks] at hfound

/-- Stepping ahead reads no byte outside of the text. -/
lemma scanAhead?_isSome {n : Nat} (hn : n ≤ byteSize text) : ∃ place, scanAhead? (bytes text) n = some place := by
  cases hcut : splitAtByte? n text with
  | none =>
    obtain ⟨before, c, after, rfl, hlo, hhi⟩ := exists_of_splitAtByte?_eq_none hn hcut
    exact ⟨n, (scan_inside after hlo hhi).2.2.1⟩
  | some parts =>
    obtain ⟨rfl, rfl⟩ := splitAtByte?_eq_some_iff.mp hcut
    exact ⟨_, scanAhead?_bytes parts.1 parts.2⟩

/-- For every span in a text the scan reads no byte outside of the text, and finds the line that the characters tell. -/
theorem scanLine?_eq {span : Span} (hlo : span.lo ≤ byteSize text) (hhi : span.hi ≤ byteSize text) :
    scanLine? (bytes text) span = some (wholeLine text span) := by
  obtain ⟨lo, hi⟩ := span
  obtain ⟨place, hplace⟩ := scanAhead?_isSome hhi
  cases hcutLo : splitAtByte? lo text with
  | none =>
    obtain ⟨before, c, after, rfl, hstart, hend⟩ := exists_of_splitAtByte?_eq_none hlo hcutLo
    obtain ⟨hback, hstarts, -, -⟩ := scan_inside after hstart hend
    simp [scanLine?, wholeLine, hcutLo, hback, hstarts, hplace]
  | some parts =>
    obtain ⟨before, rest⟩ := parts
    obtain ⟨htext, rfl⟩ := splitAtByte?_eq_some_iff.mp hcutLo
    have hback : scanBack? (bytes text) (byteSize before) =
        some (byteSize before - (before.reverse.takeWhile isLineBlank).length) := by rw [htext, scanBack?_bytes]
    have hstarts : startsLine? (bytes text) (byteSize before - (before.reverse.takeWhile isLineBlank).length) =
        some ((before.reverse.dropWhile isLineBlank).head?.all (· == '\n')) := by rw [htext, startsLine?_scanned]
    cases hcutHi : splitAtByte? hi text with
    | none =>
      obtain ⟨front, c, after, htext', hstart, hend⟩ := exists_of_splitAtByte?_eq_none hhi hcutHi
      obtain ⟨-, -, hahead, hbehind⟩ := scan_inside after hstart hend
      rw [← htext'] at hahead hbehind
      simp [scanLine?, wholeLine, hcutHi, hback, hstarts, hahead, hbehind]
    | some parts =>
      obtain ⟨front, after⟩ := parts
      obtain ⟨htext', rfl⟩ := splitAtByte?_eq_some_iff.mp hcutHi
      have hahead : scanAhead? (bytes text) (byteSize front) =
          some (byteSize front + (after.takeWhile isLineBlank).length) := by rw [htext', scanAhead?_bytes]
      have hbehind := behindLine?_scanned front after
      rw [← htext'] at hbehind
      simp only [scanLine?, wholeLine, hcutLo, hcutHi, hback, hstarts, hahead, hbehind, Option.bind_eq_bind,
        Option.bind_some, Option.pure_def]
      cases (before.reverse.dropWhile isLineBlank).head?.all (· == '\n') <;>
        cases lineEnd? (after.dropWhile isLineBlank) <;> rfl

end

end SpaMigration
