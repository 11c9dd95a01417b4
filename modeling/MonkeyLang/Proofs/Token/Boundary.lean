import MonkeyLang.Proofs.Token.Munch

/-!
# Where tokens begin

A token that is not illegal is written in visible ASCII characters. Behind such a token only
blanks can come before the next one, and these are ASCII too; so the next token begins where a
character begins, even if it is an illegal octet (`Tiles.exists_getElem?_before`).
-/

namespace MonkeyLang

open Text

/-- The ASCII characters that can be seen. -/
def isVisible (c : Char) : Bool :=
  33 ≤ c.toNat && c.toNat ≤ 126

theorem isVisible_iff {c : Char} : isVisible c ↔ 33 ≤ c.toNat ∧ c.toNat ≤ 126 := by
  simp [isVisible]

theorem toNat_lt_of_isVisible {c : Char} (h : isVisible c) : c.toNat < 128 := by
  rw [isVisible_iff] at h
  omega

theorem toNat_lt_of_isBlank {c : Char} (h : isBlank c) : c.toNat < 128 := by
  simp only [isBlank, Bool.or_eq_true, decide_eq_true_eq] at h
  obtain ((rfl | rfl) | rfl) | rfl := h <;> decide

theorem isVisible_of_isWordChar {c : Char} (h : isWordChar c) : isVisible c := by
  rw [isWordChar, Bool.or_eq_true, isLetter_iff, Char.isDigit_iff_toNat] at h
  rw [isVisible_iff]
  obtain (⟨hle, hge⟩ | ⟨hle, hge⟩ | rfl) | ⟨hle, hge⟩ := h
  · omega
  · omega
  · decide
  · exact ⟨Nat.le_trans (by decide) hle, Nat.le_trans hge (by decide)⟩

theorem IsSymbol.isVisible {c : Char} {kind : TokenKind} (h : IsSymbol c kind) :
    isVisible c := by
  cases h <;> decide

/-- Only illegal tokens hold characters that are not visible. -/
theorem FirstToken.isVisible {cs : List Char} {t : Token} (h : FirstToken cs t)
    (hkind : t.kind ≠ .illegal) : ∀ c ∈ t.literal.toList, isVisible c := by
  have hword {c : Char} {cs run : List Char}
      (hrun : LongestRun (fun d => d.isAlphanum || d = '_') (c :: cs) run) :
      ∀ d ∈ (String.ofList run).toList, MonkeyLang.isVisible d := by
    rw [isAlphanum_or_eq_isWordChar] at hrun
    intro d hd
    rw [String.toList_ofList] at hd
    exact isVisible_of_isWordChar (hrun.all d hd)
  cases h with
  | stop => exact nofun
  | keyword _ hrun _ => exact hword hrun
  | ident _ hrun _ => exact hword hrun
  | number _ hrun =>
    intro d hd
    rw [String.toList_ofList] at hd
    exact isVisible_of_isWordChar (isWordChar_of_isDigit (hrun.all d hd))
  | eq => exact List.all_eq_true.1 (by decide)
  | notEq => exact List.all_eq_true.1 (by decide)
  | assign _ => exact List.all_eq_true.1 (by decide)
  | bang _ => exact List.all_eq_true.1 (by decide)
  | symbol hsymbol =>
    rw [String.toList_ofList, List.forall_mem_singleton]
    exact hsymbol.isVisible
  | illegal => exact absurd rfl hkind

theorem isVisible_of_mem_scan {offset : Nat} {cs : List Char} {t : LocatedToken}
    (ht : t ∈ scan offset cs) (hkind : t.kind ≠ .illegal) :
    ∀ c ∈ t.token.literal.toList, isVisible c := by
  obtain ⟨n, -, hfirst⟩ := firstToken_of_mem_scan ht
  exact hfirst.isVisible hkind

/-- A scanned token begins with an octet that is no blank. -/
theorem exists_getElem?_of_mem_scan {cs : List Char} {t : LocatedToken} (ht : t ∈ scan 0 cs) :
    ∃ c, cs[t.offset]? = some c ∧ ¬ isBlank c := by
  obtain ⟨n, c, rest, hoffset, hdrop, hc, -⟩ := exists_drop_of_mem_scan ht
  refine ⟨c, ?_, hc⟩
  rw [hoffset, Nat.zero_add, ← List.head?_drop, hdrop, List.head?_cons]

namespace Tiles

variable {cs : List Char} {front rest : List LocatedToken} {t u : LocatedToken} {i : Nat} {c : Char}

theorem mem_literal_of_covers {ts : List LocatedToken} (h : Tiles cs ts) (ht : t ∈ ts)
    (hi : cs[i]? = some c) (hcovers : t.Covers i) : c ∈ t.token.literal.toList := by
  obtain ⟨j, rfl⟩ := Nat.exists_eq_add_of_le hcovers.1
  have hj : j < t.token.literal.length := Nat.lt_of_add_lt_add_left hcovers.2
  have hliteral := h.literal t ht j hj
  rw [hi] at hliteral
  exact List.mem_of_getElem? hliteral

/-- Between two tokens there are only blanks. -/
theorem isBlank_of_lt_offset (h : Tiles cs (front ++ t :: rest)) (hi : cs[i]? = some c)
    (hlt : i < t.offset) (hfront : ∀ u ∈ front, ¬ u.Covers i) : isBlank c := by
  obtain ⟨-, hincreasing, -⟩ := List.pairwise_append.1 h.increasing
  rw [h.blank i c hi]
  intro u hu hcovers
  rcases List.mem_append.1 hu with hu | hu
  · exact hfront u hu hcovers
  · have hle : t.offset ≤ u.offset := by
      rcases List.mem_cons.1 hu with rfl | hu
      · exact Nat.le_refl _
      · exact (List.rel_of_pairwise_cons hincreasing hu).le
    exact Nat.not_lt.2 (hle.trans hcovers.1) hlt

/-- The token that reaches up to another one is the one in front of it. -/
theorem getLast?_eq_of_covers (h : Tiles cs (front ++ t :: rest)) (hu : u ∈ front)
    (hcovers : u.Covers (t.offset - 1)) : front.getLast? = some u := by
  obtain rfl | ⟨front, v, rfl⟩ := List.eq_nil_or_concat' front
  · cases hu
  rw [List.getLast?_concat]
  rcases List.mem_append.1 hu with hu | hu
  · -- a token further left ends in front of `v`
    obtain ⟨hleft, -, -⟩ := List.pairwise_append.1 h.disjoint
    have hle : u.finish ≤ v.offset := (List.pairwise_append.1 hleft).2.2 u hu v List.mem_cons_self
    have hlt : v.offset < t.offset := (List.pairwise_append.1 h.increasing).2.2 v
      (List.mem_append_right front List.mem_cons_self) t List.mem_cons_self
    have hend := hcovers.2
    omega
  · rw [List.mem_singleton.1 hu]

/-- In front of a token there is an ASCII octet, unless the text begins with the token or the
token before it is illegal. -/
theorem exists_getElem?_before (h : Tiles cs (front ++ t :: rest))
    (hfront : ∀ u ∈ front.getLast?, ∀ c ∈ u.token.literal.toList, isVisible c)
    (hpos : 0 < t.offset) : ∃ c, cs[t.offset - 1]? = some c ∧ c.toNat < 128 := by
  have hlt : t.offset - 1 < t.offset := Nat.sub_one_lt_of_lt hpos
  have hinside : t.offset ≤ cs.length :=
    t.offset_le_finish.trans (h.inside t (List.mem_append_right front List.mem_cons_self))
  have hoctet := List.getElem?_eq_getElem (Nat.lt_of_lt_of_le hlt hinside)
  refine ⟨_, hoctet, ?_⟩
  by_cases hcovered : ∃ u ∈ front, u.Covers (t.offset - 1)
  · obtain ⟨u, hu, hcovers⟩ := hcovered
    have hliteral := h.mem_literal_of_covers (List.mem_append_left _ hu) hoctet hcovers
    exact toNat_lt_of_isVisible (hfront u (h.getLast?_eq_of_covers hu hcovers) _ hliteral)
  · apply toNat_lt_of_isBlank
    apply h.isBlank_of_lt_offset hoctet hlt
    intro u hu hcovers
    exact hcovered ⟨u, hu, hcovers⟩

end Tiles

/-- The first token of a text and those behind tokens that are not illegal begin where a character
begins. -/
theorem isValid_offset {source : String} {file : Option String} {front rest : List LocatedToken}
    {t : LocatedToken} (htokens : (Cursor.ofSource source file).tokens = front ++ t :: rest)
    (hfront : ∀ u ∈ front.getLast?, ∀ c ∈ u.token.literal.toList, isVisible c) :
    String.Pos.Raw.IsValid source ⟨t.offset⟩ := by
  have htiles : Tiles (octets source) (front ++ t :: rest) := by
    rw [← htokens, tokens_ofSource]
    exact tiles_scan _
  rcases Nat.eq_zero_or_pos t.offset with hzero | hpos
  · rw [hzero]
    exact String.Pos.Raw.isValid_zero
  · obtain ⟨c, hoctet, hc⟩ := htiles.exists_getElem?_before hfront hpos
    have hbehind := (isValid_of_getElem?_octets hoctet hc).2
    rwa [Nat.sub_add_cancel hpos] at hbehind

end MonkeyLang
