import Mathlib.Data.List.Count
import Mathlib.Data.Prod.Lex
import MonkeyLang.Proofs.Text.Line

/-!
# The law of a line

The line of a byte starts behind the last line feed in front of the byte and stops behind the next
one; its number counts the line feeds in front of the byte, and the column counts the bytes from
the start (`Line.Spans`). `lineAt?` keeps to this law on the line feeds themselves, inside of
characters and at the end of the text, so that places further on are greater (`lineAt?_spans`). It
does not matter whether the last line is always taken for one, as `lineAt?` does, or only where it
is not empty, as the search of `findLine?` does (`findLine?_eq`).
-/

namespace MonkeyLang.Text

variable {cs : List Char} {ls : List (List Char)}

/-! ### Searching the pieces of a text -/

/-- The pieces of a text are its lines without the empty one that may be at the end. -/
theorem pieces_eq_filter (cs : List Char) : pieces cs = (lines cs).filter (· ≠ []) := by
  induction cs with
  | nil => rfl
  | cons c cs ih =>
    have hpieces : pieces (c :: cs) = consLine c (pieces cs) := rfl
    have hlines := areLines_lines cs
    rw [hpieces, ih, lines_cons]
    generalize lines cs = ls at hlines ⊢
    by_cases hc : c = '\n'
    · rw [consLine, consLine, if_pos hc, if_pos hc, List.filter_cons_of_pos (by simp)]
    · rw [consLine, consLine, if_neg hc, if_neg hc, List.filter_cons_of_pos (by simp)]
      cases hlines with
      | @last line hline => cases line <;> rfl
      | @cons line ls hline hls => rw [List.filter_cons_of_pos (by simp)]; rfl

theorem lines_of_not_mem (h : '\n' ∉ cs) : lines cs = [cs] := by
  have hlines := areLines_lines cs
  have hflatten := flatten_lines cs
  generalize lines cs = ls at hlines hflatten ⊢
  cases hlines with
  | @last line hline => rw [← hflatten, List.flatten_singleton]
  | @cons line ls hline hls =>
    rw [← hflatten] at h
    exact absurd (by simp) h

/-- The last line is what follows the last line feed. -/
theorem AreLines.getLast_eq (h : AreLines ls) : ls.getLast h.ne_nil = behindLineFeed ls.flatten := by
  induction h with
  | @last line hline =>
    rw [List.getLast_singleton, List.flatten_singleton, behindLineFeed_of_not_mem hline]
  | @cons line ls hline hls ih =>
    rw [List.getLast_cons hls.ne_nil, ih, List.flatten_cons, List.append_assoc]
    exact (behindLineFeed_append line ls.flatten).symm

/-- The line at the end of a text whose last line is given; the number is behind the last piece. -/
def closingLine (last : List Char) (number : Nat) : Line :=
  if last = [] then ⟨number, "", 0⟩ else ⟨number - 1, String.ofList last, width last⟩

theorem searchPieces_cons (offset start number : Nat) (piece : List Char)
    (rest : List (List Char)) :
    searchPieces (start + offset) start number (piece :: rest) =
      if offset < width piece then .inl ⟨number, String.ofList piece, offset⟩
      else searchPieces (start + offset) (start + width piece) (number + 1) rest := by
  have hlt : start ≤ start + offset ∧ start + offset < start + width piece ↔
      offset < width piece := by omega
  rw [searchPieces]
  simp only [hlt, Nat.add_sub_cancel_left]

/-- Going through the pieces finds the line, where the last line is told by what follows them. -/
theorem AreLines.locate_eq_searchPieces (h : AreLines ls) {offset : Nat}
    (hoffset : offset ≤ width ls.flatten) (start number : Nat) :
    locate number ls offset =
      some ((searchPieces (start + offset) start number (ls.filter (· ≠ []))).elim id
        (closingLine (ls.getLast h.ne_nil))) := by
  induction h generalizing offset start number with
  | @last line hline =>
    rw [List.flatten_singleton] at hoffset
    rw [locate, if_pos hoffset, List.getLast_singleton]
    by_cases hnil : line = []
    · subst hnil
      obtain rfl : offset = 0 := Nat.le_zero.1 hoffset
      rfl
    · rw [List.filter_cons_of_pos (by simpa using hnil), List.filter_nil, searchPieces_cons]
      rcases Nat.lt_or_eq_of_le hoffset with hlt | rfl
      · rw [if_pos hlt]
        rfl
      · rw [if_neg (Nat.lt_irrefl _), searchPieces, Sum.elim_inr, closingLine, if_neg hnil]
        rfl
  | @cons line ls hline hls ih =>
    rw [List.filter_cons_of_pos (by simp), searchPieces_cons, locate_cons hls.ne_nil]
    rcases Nat.lt_or_ge offset (width (line ++ ['\n'])) with hlt | hge
    · rw [if_pos hlt, if_pos hlt]
      rfl
    · obtain ⟨behind, rfl⟩ := Nat.exists_eq_add_of_le hge
      rw [List.flatten_cons, width_append (line ++ ['\n'])] at hoffset
      rw [if_neg (Nat.not_lt.2 hge), if_neg (Nat.not_lt.2 hge), Nat.add_sub_cancel_left,
        ← Nat.add_assoc, List.getLast_cons hls.ne_nil]
      exact ih (Nat.le_of_add_le_add_left hoffset) _ _

theorem searchPieces_eq_inr {offset start number n : Nat} {ps : List (List Char)}
    (h : searchPieces offset start number ps = .inr n) : n = number + ps.length := by
  induction ps generalizing start number with
  | nil => exact (Sum.inr.inj h).symm
  | cons piece rest ih =>
    rw [searchPieces] at h
    split at h
    · cases h
    · rw [ih h, List.length_cons]
      omega

theorem endLine_eq (cs : List Char) :
    endLine (1 + (pieces cs).length) cs =
      closingLine ((lines cs).getLast (areLines_lines cs).ne_nil) (1 + (pieces cs).length) := by
  by_cases hfeed : '\n' ∈ cs
  · have hlast : (lines cs).getLast (areLines_lines cs).ne_nil =
        (cs.reverse.takeWhile (· ≠ '\n')).reverse := by
      rw [(areLines_lines cs).getLast_eq, flatten_lines]
      rfl
    rw [hlast, endLine, behindLast?, if_pos hfeed]
    cases (cs.reverse.takeWhile (· ≠ '\n')).reverse <;> rfl
  · have hlines := lines_of_not_mem hfeed
    have hlast : (lines cs).getLast (areLines_lines cs).ne_nil = cs := by
      simp only [hlines, List.getLast_singleton]
    rw [hlast, endLine, behindLast?, if_neg hfeed, pieces_eq_filter, hlines]
    cases cs <;> rfl

theorem locate_eq_none {offset : Nat} (hoffset : width ls.flatten < offset) (number : Nat) :
    locate number ls offset = none := by
  induction ls generalizing offset number with
  | nil => rfl
  | cons line ls ih =>
    rw [List.flatten_cons, width_append] at hoffset
    cases ls with
    | nil =>
      rw [List.flatten_nil, width_nil, Nat.add_zero] at hoffset
      rw [locate, if_neg (Nat.not_le.2 hoffset)]
    | cons m ls =>
      rw [locate_cons (List.cons_ne_nil m ls), if_neg (by omega)]
      exact ih (Nat.lt_sub_iff_add_lt'.2 hoffset) (number + 1)

theorem lineAt?_eq_none {s : String} {offset : Nat} (h : s.utf8ByteSize < offset) :
    lineAt? s offset = none :=
  locate_eq_none (by rwa [width_flatten_lines]) 1

/-- The search finds the line of every octet and of the end. -/
theorem findLine?_eq (s : String) (offset : Nat) : findLine? s offset = lineAt? s offset := by
  rw [findLine?]
  split
  · rename_i hpast
    exact (lineAt?_eq_none hpast).symm
  · rename_i hoffset
    rw [← width_flatten_lines, Nat.not_lt] at hoffset
    rw [lineAt?, (areLines_lines s.toList).locate_eq_searchPieces hoffset 0, Nat.zero_add,
      ← pieces_eq_filter]
    cases hsearch : searchPieces offset 0 1 (pieces s.toList) with
    | inl line => rfl
    | inr number =>
      rw [searchPieces_eq_inr hsearch]
      exact congrArg some (endLine_eq s.toList)

/-! ### Where a line starts and stops -/

/-- The index behind the last line feed in front of a byte, or `0` if there is none. -/
structure IsLineStart (bytes : List UInt8) (p start : Nat) : Prop where
  le : start ≤ p
  eq_zero_or_feed : start = 0 ∨ ∃ i, bytes[i]? = some 10 ∧ start = i + 1
  no_feed : ∀ i, start ≤ i → i < p → bytes[i]? ≠ some 10

/-- The index behind the first line feed that is not in front of a byte, or the number of bytes if
there is none. -/
inductive IsLineStop (bytes : List UInt8) (p : Nat) : Nat → Prop
  | feed {i : Nat} (hle : p ≤ i) (hi : bytes[i]? = some 10)
      (hfirst : ∀ j, p ≤ j → j < i → bytes[j]? ≠ some 10) : IsLineStop bytes p (i + 1)
  | last (hnone : ∀ j, p ≤ j → bytes[j]? ≠ some 10) : IsLineStop bytes p bytes.length

theorem ofUInt8_injective : Function.Injective Char.ofUInt8 := by
  intro a b h
  exact UInt8.toNat_inj.1 (congrArg Char.toNat h)

theorem getElem?_octets_eq_feed_iff (s : String) (i : Nat) :
    (octets s)[i]? = some '\n' ↔ s.toByteArray.data.toList[i]? = some 10 := by
  have hfeed : Char.ofUInt8 10 = '\n' := rfl
  rw [octets_eq_map_toByteArray, List.getElem?_map, ← hfeed, ← Option.map_some,
    (Option.map_injective ofUInt8_injective).eq_iff]

/-- What is behind the last line feed, if there is one. -/
theorem behindLineFeed_cases (os : List Char) :
    (∃ front back, '\n' ∉ back ∧ os = front ++ '\n' :: back ∧ behindLineFeed os = back) ∨
      ('\n' ∉ os ∧ behindLineFeed os = os) := by
  by_cases hfeed : '\n' ∈ os
  · obtain ⟨back, front, hos, hback⟩ := List.eq_append_cons_of_mem (List.mem_reverse.2 hfeed)
    have hos' : os = front.reverse ++ '\n' :: back.reverse := by
      rw [← List.reverse_reverse os, hos]
      simp
    have hback' : '\n' ∉ back.reverse := by rwa [List.mem_reverse]
    refine .inl ⟨_, _, hback', hos', ?_⟩
    rw [hos', behindLineFeed_append, behindLineFeed_of_not_mem hback']
  · exact .inr ⟨hfeed, behindLineFeed_of_not_mem hfeed⟩

/-- What is up to the first line feed, if there is one. -/
theorem throughLineFeed_cases (os : List Char) :
    (∃ front back, '\n' ∉ front ∧ os = front ++ '\n' :: back ∧
      throughLineFeed os = front ++ ['\n']) ∨ ('\n' ∉ os ∧ throughLineFeed os = os) := by
  by_cases hfeed : '\n' ∈ os
  · obtain ⟨front, back, hos, hfront⟩ := List.eq_append_cons_of_mem hfeed
    refine .inl ⟨front, back, hfront, hos, ?_⟩
    rw [hos, throughLineFeed_append hfront]
    rfl
  · have hall := throughLineFeed_append hfeed []
    rw [List.append_nil] at hall
    refine .inr ⟨hfeed, hall.trans ?_⟩
    exact List.append_nil os

section

variable {s : String} {front back : List Char}

theorem getElem?_ne_of_not_mem {piece : List Char} {i : Nat}
    (h : octets s = front ++ (piece ++ back)) (hpiece : '\n' ∉ piece) (hle : front.length ≤ i)
    (hlt : i < front.length + piece.length) : s.toByteArray.data.toList[i]? ≠ some 10 := by
  rw [Ne, ← getElem?_octets_eq_feed_iff, h, List.getElem?_append_right hle,
    List.getElem?_append_left (by omega)]
  exact fun hi => hpiece (List.mem_of_getElem? hi)

theorem getElem?_length_of_octets_eq (h : octets s = front ++ '\n' :: back) :
    s.toByteArray.data.toList[front.length]? = some 10 := by
  rw [← getElem?_octets_eq_feed_iff, h, List.getElem?_append_right (Nat.le_refl _), Nat.sub_self]
  rfl

theorem isLineStart_of_octets_eq (h : octets s = front ++ back) :
    IsLineStart s.toByteArray.data.toList front.length
      (front.length - (behindLineFeed front).length) := by
  rcases behindLineFeed_cases front with ⟨lead, tail, htail, rfl, hbehind⟩ | ⟨hnone, hbehind⟩
  · have hstart : (lead ++ '\n' :: tail).length - tail.length = lead.length + 1 := by
      rw [List.length_append, List.length_cons]
      omega
    have hfeed : octets s = lead ++ '\n' :: (tail ++ back) := by
      rw [h, List.append_assoc, List.cons_append]
    have hpiece : octets s = lead ++ ['\n'] ++ (tail ++ back) := by
      rw [hfeed, List.append_assoc, List.singleton_append]
    rw [hbehind, hstart]
    refine ⟨?_, .inr ⟨_, getElem?_length_of_octets_eq hfeed, rfl⟩, fun i hle hlt => ?_⟩
    · rw [List.length_append, List.length_cons]
      omega
    · refine getElem?_ne_of_not_mem hpiece htail ?_ ?_
      · rwa [List.length_append, List.length_singleton]
      · rw [List.length_append, List.length_cons] at hlt
        rw [List.length_append, List.length_singleton]
        omega
  · have hpiece : octets s = [] ++ (front ++ back) := h
    rw [hbehind, Nat.sub_self]
    refine ⟨Nat.zero_le _, .inl rfl, fun i hle hlt => ?_⟩
    exact getElem?_ne_of_not_mem hpiece hnone hle (by simpa using hlt)

theorem isLineStop_of_octets_eq (h : octets s = front ++ back) :
    IsLineStop s.toByteArray.data.toList front.length
      (front.length + (throughLineFeed back).length) := by
  rcases throughLineFeed_cases back with ⟨piece, rest, hpiece, rfl, hthrough⟩ | ⟨hnone, hthrough⟩
  · have hfeed : octets s = front ++ piece ++ '\n' :: rest := by rw [h, List.append_assoc]
    rw [hthrough, List.length_append, List.length_singleton, ← Nat.add_assoc, ← List.length_append]
    refine .feed ?_ (getElem?_length_of_octets_eq hfeed) fun j hle hlt => ?_
    · rw [List.length_append]
      exact Nat.le_add_right _ _
    · rw [List.length_append] at hlt
      exact getElem?_ne_of_not_mem h hpiece hle hlt
  · have hlength : front.length + back.length = s.toByteArray.data.toList.length := by
      rw [← List.length_append, ← h, length_octets_eq_utf8ByteSize]
      rfl
    rw [hthrough, hlength]
    refine .last fun j hle => ?_
    rcases Nat.lt_or_ge j (front.length + back.length) with hlt | hge
    · have hpiece : octets s = front ++ (back ++ []) := by rw [h, List.append_nil]
      exact getElem?_ne_of_not_mem hpiece hnone hle hlt
    · rw [List.getElem?_eq_none (hlength ▸ hge)]
      exact nofun

end

/-! ### The law of a line -/

/-- The line through the byte `p` of a text is the bytes from `start` to `stop`. -/
structure Line.Spans (line : Line) (bytes : List UInt8) (p start stop : Nat) : Prop where
  isLineStart : IsLineStart bytes p start
  isLineStop : IsLineStop bytes p stop
  number_eq : line.number = 1 + (bytes.take p).count 10
  column_eq : line.column = p - start
  text_eq : line.text.toByteArray.data.toList = (bytes.drop start).take (stop - start)

theorem behindLineFeed_suffix (os : List Char) : behindLineFeed os <:+ os :=
  List.rtakeWhile_suffix _ _

theorem throughLineFeed_prefix (os : List Char) : throughLineFeed os <+: os := by
  rcases throughLineFeed_cases os with ⟨front, back, -, rfl, hthrough⟩ | ⟨-, hthrough⟩
  · rw [hthrough]
    exact ⟨back, by rw [List.append_assoc, List.singleton_append]⟩
  · exact ⟨[], by rw [List.append_nil, hthrough]⟩

theorem count_take_octets (s : String) (p : Nat) :
    ((octets s).take p).count '\n' = (s.toByteArray.data.toList.take p).count 10 := by
  rw [octets_eq_map_toByteArray, ← List.map_take]
  exact List.count_map_of_injective _ _ ofUInt8_injective 10

/-- Around an offset, what is behind the last line feed and what is through the next one are the
octets from where the line starts to where it stops. -/
theorem take_drop_behind_through (front back : List Char) :
    ((front ++ back).drop (front.length - (behindLineFeed front).length)).take
        (front.length + (throughLineFeed back).length -
          (front.length - (behindLineFeed front).length)) =
      behindLineFeed front ++ throughLineFeed back := by
  obtain ⟨lead, hlead⟩ := behindLineFeed_suffix front
  obtain ⟨rest, hrest⟩ := throughLineFeed_prefix back
  generalize behindLineFeed front = behind at hlead ⊢
  generalize throughLineFeed back = through at hrest ⊢
  subst hlead hrest
  have hstart : (lead ++ behind).length - behind.length = lead.length := by
    rw [List.length_append, Nat.add_sub_cancel]
  have hspan : (lead ++ behind).length + through.length - lead.length =
      (behind ++ through).length := by
    rw [List.length_append, List.length_append, Nat.add_assoc, Nat.add_sub_cancel_left]
  rw [hstart, hspan, List.append_assoc, List.drop_left, ← List.append_assoc, List.take_left]

theorem Line.Holds.spans {s : String} {p : Nat} {line : Line} (h : line.Holds 1 (octets s) p)
    (hp : p ≤ s.utf8ByteSize) :
    ∃ start stop, line.Spans s.toByteArray.data.toList p start stop := by
  have hsplit := (List.take_append_drop p (octets s)).symm
  have hfront : ((octets s).take p).length = p := by
    rw [List.length_take_of_le]
    rwa [length_octets_eq_utf8ByteSize]
  have hbehind := (behindLineFeed_suffix ((octets s).take p)).length_le
  have hstart := isLineStart_of_octets_eq hsplit
  have hstop := isLineStop_of_octets_eq hsplit
  have htext := take_drop_behind_through ((octets s).take p) ((octets s).drop p)
  rw [← hsplit, ← h.text] at htext
  rw [hfront] at hbehind hstart hstop htext
  refine ⟨_, _, hstart, hstop, ?_, ?_, ?_⟩
  · rw [h.number, count_take_octets]
  · rw [h.column]
    omega
  · apply List.map_injective_iff.2 ofUInt8_injective
    rw [List.map_take, List.map_drop, ← octets_eq_map_toByteArray, ← octets_eq_map_toByteArray]
    exact htext.symm

theorem behindLineFeed_append_of_not_mem (os : List Char) {piece : List Char}
    (hpiece : '\n' ∉ piece) : behindLineFeed (os ++ piece) = behindLineFeed os ++ piece := by
  rcases behindLineFeed_cases os with ⟨front, back, hback, rfl, hbehind⟩ | ⟨hnone, hbehind⟩
  · have hboth : '\n' ∉ back ++ piece := by simp [hback, hpiece]
    rw [hbehind, List.append_assoc, List.cons_append, behindLineFeed_append,
      behindLineFeed_of_not_mem hboth]
  · have hboth : '\n' ∉ os ++ piece := by simp [hnone, hpiece]
    rw [hbehind, behindLineFeed_of_not_mem hboth]

/-- Further on in a text the number of the line is higher, or on the same line the column. -/
theorem Line.Holds.lt {line later : Line} {os : List Char} {p q : Nat} (h : line.Holds 1 os p)
    (hlater : later.Holds 1 os q) (hlt : p < q) (hq : q ≤ os.length) :
    toLex (line.number, line.column) < toLex (later.number, later.column) := by
  obtain ⟨n, rfl⟩ := Nat.exists_eq_add_of_lt hlt
  have hsplit : os.take (p + n + 1) = os.take p ++ (os.drop p).take (n + 1) := by
    rw [Nat.add_assoc, List.take_add]
  rw [Prod.Lex.toLex_lt_toLex, h.number, h.column, hlater.number, hlater.column, hsplit,
    List.count_append]
  by_cases hfeed : '\n' ∈ (os.drop p).take (n + 1)
  · have hpos := List.count_pos_iff.2 hfeed
    left
    dsimp only
    omega
  · right
    rw [List.count_eq_zero.2 hfeed, behindLineFeed_append_of_not_mem _ hfeed, List.length_append,
      List.length_take_of_le (by rw [List.length_drop]; omega)]
    exact ⟨rfl, Nat.lt_add_of_pos_right (Nat.succ_pos n)⟩

theorem lineAt?_eq_none_iff (s : String) (p : Nat) : lineAt? s p = none ↔ s.utf8ByteSize < p := by
  refine ⟨fun h => Nat.lt_of_not_le fun hp => ?_, lineAt?_eq_none⟩
  obtain ⟨line, hline, -⟩ := exists_lineAt?_eq_some hp
  rw [h] at hline
  cases hline

theorem Line.holds_of_lineAt?_eq_some {s : String} {p : Nat} {line : Line}
    (h : lineAt? s p = some line) : p ≤ s.utf8ByteSize ∧ line.Holds 1 (octets s) p := by
  have hp : p ≤ s.utf8ByteSize := by
    rw [← Nat.not_lt, ← lineAt?_eq_none_iff, h]
    exact nofun
  obtain ⟨found, hfound, -, hholds⟩ := exists_lineAt?_eq_some hp
  rw [h, Option.some_inj] at hfound
  exact ⟨hp, hfound ▸ hholds⟩

/-- At every byte, and at the end of the text, `lineAt?` gives the line that is there, its number
and the column; past the end it gives none. Further on in a text, the number of the line is higher,
or on the same line the column. The search of `findLine?` comes to the same. -/
theorem lineAt?_spans (content : String) :
    (∀ p, lineAt? content p = none ↔ content.utf8ByteSize < p) ∧
      (∀ p, p ≤ content.utf8ByteSize → ∃ (line : Line) (start stop : Nat),
        lineAt? content p = some line ∧
          line.Spans content.toByteArray.data.toList p start stop) ∧
      (∀ (p q : Nat) (line later : Line), p < q → lineAt? content p = some line →
        lineAt? content q = some later →
          toLex (line.number, line.column) < toLex (later.number, later.column)) ∧
      ∀ p, findLine? content p = lineAt? content p := by
  refine ⟨lineAt?_eq_none_iff content, fun p hp => ?_, fun p q line later hlt hline hlater => ?_,
    findLine?_eq content⟩
  · obtain ⟨line, hline, -, hholds⟩ := exists_lineAt?_eq_some hp
    obtain ⟨start, stop, hspans⟩ := hholds.spans hp
    exact ⟨line, start, stop, hline, hspans⟩
  · obtain ⟨-, hholds⟩ := Line.holds_of_lineAt?_eq_some hline
    obtain ⟨hq, hlater⟩ := Line.holds_of_lineAt?_eq_some hlater
    rw [← length_octets_eq_utf8ByteSize] at hq
    exact hholds.lt hlater hlt hq

/-- Between the octets of `é`, and on the empty line behind the line feed. -/
theorem lineAt?_spans_accent :
    ∃ line start stop, lineAt? "é\n" 1 = some line ∧
      line.Spans "é\n".toByteArray.data.toList 1 start stop ∧
        lineAt? "é\n" 3 = some ⟨2, "", 0⟩ ∧ toLex (line.number, line.column) < toLex (2, 0) := by
  obtain ⟨-, hspans, hlt, -⟩ := lineAt?_spans "é\n"
  obtain ⟨line, start, stop, hline, hspan⟩ := hspans 1 (by decide)
  have hend : lineAt? "é\n" 3 = some ⟨2, "", 0⟩ := by decide +kernel
  exact ⟨line, start, stop, hline, hspan, hend, hlt 1 3 line ⟨2, "", 0⟩ (by decide) hline hend⟩

end MonkeyLang.Text
