import Mathlib.Data.List.DropRight
import MonkeyLang.Proofs.Text.Octets
import MonkeyLang.Text.Line

/-!
# The line of an octet

Where an octet stands in a text can be said without the lines of the text: the number of its line
counts the line feeds in front of it, its column counts the octets behind the last of them, and
its line runs from there through the next line feed (`Line.Holds`). `lineAt?` finds that line
(`exists_lineAt?_eq_some`).
-/

namespace MonkeyLang.Text

/-- The octets behind the last line feed. -/
def behindLineFeed (os : List Char) : List Char :=
  os.rtakeWhile (· ≠ '\n')

/-- The octets through the first line feed, and all of them if there is none. -/
def throughLineFeed (os : List Char) : List Char :=
  os.takeWhile (· ≠ '\n') ++ (os.dropWhile (· ≠ '\n')).take 1

/-- The line that holds the octet with the given offset; the first line has the given number. -/
structure Line.Holds (line : Line) (first : Nat) (os : List Char) (offset : Nat) : Prop where
  number : line.number = first + (os.take offset).count '\n'
  column : line.column = (behindLineFeed (os.take offset)).length
  text : octets line.text =
    behindLineFeed (os.take offset) ++ throughLineFeed (os.drop offset)

variable {piece os : List Char}

/-! ### Around a line feed -/

theorem behindLineFeed_of_not_mem (h : '\n' ∉ os) : behindLineFeed os = os := by
  rw [behindLineFeed, List.rtakeWhile_eq_self_iff]
  intro c hc
  simpa using ne_of_mem_of_not_mem hc h

theorem behindLineFeed_append (piece os : List Char) :
    behindLineFeed (piece ++ '\n' :: os) = behindLineFeed os := by
  induction os using List.reverseRecOn with
  | nil => exact List.rtakeWhile_concat_neg _ _ _ (by simp)
  | append_singleton os c ih =>
    rw [behindLineFeed, behindLineFeed] at ih
    rw [← List.cons_append, ← List.append_assoc, behindLineFeed, behindLineFeed,
      List.rtakeWhile_concat, List.rtakeWhile_concat, ih]

theorem throughLineFeed_append (hpiece : '\n' ∉ piece) (os : List Char) :
    throughLineFeed (piece ++ os) = piece ++ throughLineFeed os := by
  have hpass : ∀ c ∈ piece, decide (c ≠ '\n') = true := by
    intro c hc
    simpa using ne_of_mem_of_not_mem hc hpiece
  rw [throughLineFeed, throughLineFeed, List.takeWhile_append_of_pos hpass,
    List.dropWhile_append_of_pos hpass, List.append_assoc]

/-! ### Lines in a row -/

/-- The lines of a text: each ends in its only line feed, but for the last, which has none. -/
inductive AreLines : List (List Char) → Prop
  | last {line : List Char} (hline : '\n' ∉ line) : AreLines [line]
  | cons {line : List Char} {ls : List (List Char)} (hline : '\n' ∉ line) (hls : AreLines ls) :
      AreLines ((line ++ ['\n']) :: ls)

theorem areLines_lines (cs : List Char) : AreLines (lines cs) := by
  induction cs with
  | nil => exact .last List.not_mem_nil
  | cons c cs ih =>
    rw [lines_cons, consLine]
    split
    · rename_i hc
      rw [hc]
      exact .cons List.not_mem_nil ih
    · rename_i hc
      cases hlines : lines cs with
      | nil => rw [hlines] at ih; cases ih
      | cons l ls =>
        rw [hlines] at ih
        cases ih with
        | last hline => exact .last (List.not_mem_cons_of_ne_of_not_mem (Ne.symm hc) hline)
        | @cons line _ hline hls =>
          exact .cons (List.not_mem_cons_of_ne_of_not_mem (Ne.symm hc) hline) hls

namespace AreLines

variable {ls : List (List Char)} {l : List Char}

theorem ne_nil (h : AreLines ls) : ls ≠ [] := by
  cases h <;> exact List.cons_ne_nil _ _

theorem exists_of_mem (h : AreLines ls) (hl : l ∈ ls) :
    ∃ line, '\n' ∉ line ∧ (l = line ∨ l = line ++ ['\n']) := by
  induction h with
  | @last line hline => exact ⟨line, hline, .inl (List.mem_singleton.1 hl)⟩
  | @cons line ls hline _ ih =>
    rcases List.mem_cons.1 hl with rfl | hl
    · exact ⟨line, hline, .inr rfl⟩
    · exact ih hl

end AreLines

/-! ### Looking for a line -/

/-- An offset in a piece without line feeds, at the front of a text, is on the line of the piece. -/
theorem Line.holds_of_le_length {text : String} {offset : Nat} (number : Nat)
    (hpiece : '\n' ∉ piece) (hoffset : offset ≤ piece.length)
    (hos : ∀ c ∈ os.head?, c = '\n') (htext : octets text = piece ++ os.take 1) :
    Line.Holds ⟨number, text, offset⟩ number (piece ++ os) offset := by
  have hfront : (piece ++ os).take offset = piece.take offset :=
    List.take_append_of_le_length hoffset
  have hnone : '\n' ∉ piece.take offset := hpiece ∘ List.mem_of_mem_take
  have hback : '\n' ∉ piece.drop offset := hpiece ∘ List.mem_of_mem_drop
  have hthrough : throughLineFeed os = os.take 1 := by
    cases os with
    | nil => rfl
    | cons c os =>
      obtain rfl : c = '\n' := hos c rfl
      rfl
  refine ⟨?_, ?_, ?_⟩
  · rw [hfront, List.count_eq_zero.2 hnone, Nat.add_zero]
  · rw [hfront, behindLineFeed_of_not_mem hnone, List.length_take_of_le hoffset]
  · rw [hfront, behindLineFeed_of_not_mem hnone, List.drop_append_of_le_length hoffset,
      throughLineFeed_append hback, hthrough, ← List.append_assoc, List.take_append_drop]
    exact htext

/-- A line in front of a text raises the numbers of its lines. -/
theorem Line.Holds.behind {line : Line} {number offset : Nat}
    (h : line.Holds (number + 1) os offset) (hpiece : '\n' ∉ piece) :
    line.Holds number (piece ++ '\n' :: os) (piece.length + (offset + 1)) := by
  have hfront : (piece ++ '\n' :: os).take (piece.length + (offset + 1)) =
      piece ++ '\n' :: os.take offset := by
    rw [List.take_length_add_append, List.take_succ_cons]
  have hback : (piece ++ '\n' :: os).drop (piece.length + (offset + 1)) = os.drop offset := by
    rw [List.drop_length_add_append, List.drop_succ_cons]
  refine ⟨?_, ?_, ?_⟩
  · rw [hfront, h.number, List.count_append, List.count_eq_zero.2 hpiece, List.count_cons_self]
    omega
  · rw [hfront, behindLineFeed_append, h.column]
  · rw [hfront, hback, behindLineFeed_append, h.text]

theorem locate_cons {l : List Char} {ls : List (List Char)} (hls : ls ≠ []) (number offset : Nat) :
    locate number (l :: ls) offset =
      if offset < width l then some ⟨number, String.ofList l, offset⟩
      else locate (number + 1) ls (offset - width l) := by
  cases ls with
  | nil => exact absurd rfl hls
  | cons m ls =>
    rw [locate]
    exact hls

theorem not_mem_flatMap_octetsOf {cs : List Char} (h : '\n' ∉ cs) :
    '\n' ∉ cs.flatMap octetsOf := by
  rw [← octets_ofList, mem_octets_iff_of_lt (by decide), String.toList_ofList]
  exact h

theorem flatMap_octetsOf_concat (cs : List Char) :
    (cs ++ ['\n']).flatMap octetsOf = cs.flatMap octetsOf ++ ['\n'] := by
  rw [List.flatMap_append, List.flatMap_singleton, octetsOf_of_lt (by decide)]

theorem AreLines.exists_locate_eq_some {ls : List (List Char)} (h : AreLines ls) {offset : Nat}
    (hoffset : offset ≤ width ls.flatten) (number : Nat) :
    ∃ line, locate number ls offset = some line ∧ line.text.toList ∈ ls ∧
      line.Holds number (ls.flatten.flatMap octetsOf) offset := by
  induction h generalizing offset number with
  | @last line hline =>
    rw [List.flatten_singleton] at hoffset ⊢
    refine ⟨⟨number, String.ofList line, offset⟩, ?_, by simp, ?_⟩
    · rw [locate, if_pos hoffset]
    · have htext : octets (String.ofList line) = line.flatMap octetsOf ++ [].take 1 := by
        rw [octets_ofList, List.take_nil, List.append_nil]
      rw [← length_flatMap_octetsOf] at hoffset
      rw [← List.append_nil (line.flatMap octetsOf)]
      exact Line.holds_of_le_length number (not_mem_flatMap_octetsOf hline) hoffset nofun htext
  | @cons line ls hline hls ih =>
    have hpiece : '\n' ∉ line.flatMap octetsOf := not_mem_flatMap_octetsOf hline
    have hwidth : width (line ++ ['\n']) = width line + 1 := width_append _ _
    rw [List.flatten_cons, width_append, hwidth] at hoffset
    rw [List.flatten_cons, List.flatMap_append, flatMap_octetsOf_concat, List.append_assoc,
      locate_cons hls.ne_nil, hwidth]
    rcases Nat.lt_or_ge offset (width line + 1) with hlt | hge
    · refine ⟨⟨number, String.ofList (line ++ ['\n']), offset⟩, if_pos hlt, by simp, ?_⟩
      have hle : offset ≤ (line.flatMap octetsOf).length := by
        rw [length_flatMap_octetsOf]
        exact Nat.le_of_lt_succ hlt
      have hfeed : ∀ c ∈ (['\n'] ++ ls.flatten.flatMap octetsOf).head?, c = '\n' := by
        simp
      refine Line.holds_of_le_length number hpiece hle hfeed ?_
      rw [octets_ofList, flatMap_octetsOf_concat]
      rfl
    · obtain ⟨behind, rfl⟩ := Nat.exists_eq_add_of_le hge
      obtain ⟨found, hfound, hmem, hholds⟩ := ih (Nat.le_of_add_le_add_left hoffset) (number + 1)
      refine ⟨found, ?_, List.mem_cons_of_mem _ hmem, ?_⟩
      · rw [if_neg (Nat.not_lt.2 hge), Nat.add_sub_cancel_left]
        exact hfound
      · have hoffset' : width line + 1 + behind =
            (line.flatMap octetsOf).length + (behind + 1) := by
          rw [length_flatMap_octetsOf, Nat.add_assoc, Nat.add_comm 1]
        rw [hoffset']
        exact hholds.behind hpiece

theorem width_flatten_lines (s : String) : width (lines s.toList).flatten = s.utf8ByteSize := by
  rw [flatten_lines, ← length_octets, length_octets_eq_utf8ByteSize]

theorem exists_lineAt?_eq_some {s : String} {offset : Nat} (h : offset ≤ s.utf8ByteSize) :
    ∃ line, lineAt? s offset = some line ∧ line.text.toList ∈ lines s.toList ∧
      line.Holds 1 (octets s) offset := by
  have hlines := areLines_lines s.toList
  have hoffset : offset ≤ width (lines s.toList).flatten := by rwa [width_flatten_lines]
  have hline := hlines.exists_locate_eq_some hoffset 1
  rwa [flatten_lines] at hline

end MonkeyLang.Text
