import Mathlib.Data.Nat.Digits.Defs
import MonkeyLang.Text.Numeral

/-!
# The value of a numeral

A run of digits has a value in the decimal system, and a numeral denotes that value or its
opposite (`Denotes`). Reading digit by digit keeps the word of the digits read so far, as long as
they have one; further digits only lead away from zero, so where a step leaves the words the whole
numeral lies outside of them. Hence a numeral is read exactly when the integer that it denotes is a
word (`int64?_eq_some_iff`). The printed form of a word is a numeral of it (`denotes_ofInt64`).
-/

namespace MonkeyLang.Text

/-! ### What a text denotes -/

/-- At least one ASCII digit, and nothing else. -/
structure IsDigits (cs : List Char) : Prop where
  ne_nil : cs ≠ []
  isDigit : ∀ c ∈ cs, c.isDigit

theorem isDigits_iff_all (cs : List Char) : IsDigits cs ↔ cs ≠ [] ∧ cs.all Char.isDigit := by
  constructor
  · rintro ⟨hne, hdigit⟩
    exact ⟨hne, List.all_eq_true.2 hdigit⟩
  · rintro ⟨hne, hall⟩
    exact ⟨hne, List.all_eq_true.1 hall⟩

instance (cs : List Char) : Decidable (IsDigits cs) :=
  decidable_of_iff' _ (isDigits_iff_all cs)

/-- The decimal value of a run of digits, of which the last counts the ones. -/
def decimal (cs : List Char) : Nat :=
  Nat.ofDigits 10 (cs.map fun c => c.toNat - '0'.toNat).reverse

/-- The integer that a numeral denotes: the decimal value of its digits, which a sign may precede.
No other text denotes an integer. -/
inductive Denotes : List Char → Int → Prop
  | unsigned {cs : List Char} {n : Int} (hcs : IsDigits cs) (hn : n = decimal cs) : Denotes cs n
  | plus {cs : List Char} {n : Int} (hcs : IsDigits cs) (hn : n = decimal cs) :
      Denotes ('+' :: cs) n
  | minus {cs : List Char} {n : Int} (hcs : IsDigits cs) (hn : n = -decimal cs) :
      Denotes ('-' :: cs) n

@[simp]
theorem decimal_nil : decimal [] = 0 := rfl

theorem decimal_cons (c : Char) (cs : List Char) :
    decimal (c :: cs) = (c.toNat - '0'.toNat) * 10 ^ cs.length + decimal cs := by
  rw [decimal, List.map_cons, List.reverse_cons, Nat.ofDigits_append, Nat.ofDigits_singleton,
    List.length_reverse, List.length_map, ← decimal, Nat.add_comm, Nat.mul_comm]

theorem decimal_concat (cs : List Char) (c : Char) :
    decimal (cs ++ [c]) = (c.toNat - '0'.toNat) + 10 * decimal cs := by
  rw [decimal, List.map_append, List.map_singleton, List.reverse_append, List.reverse_singleton,
    List.singleton_append, Nat.ofDigits_cons, ← decimal]

theorem not_isDigits_cons {c : Char} {cs : List Char} (hc : ¬ c.isDigit) :
    ¬ IsDigits (c :: cs) :=
  fun h => hc (h.isDigit c List.mem_cons_self)

theorem denotes_plus_iff {cs : List Char} {n : Int} :
    Denotes ('+' :: cs) n ↔ IsDigits cs ∧ n = decimal cs := by
  constructor
  · intro h
    cases h with
    | unsigned hcs _ => exact absurd hcs (not_isDigits_cons (by decide))
    | plus hcs hn => exact ⟨hcs, hn⟩
  · rintro ⟨hcs, hn⟩
    exact .plus hcs hn

theorem denotes_minus_iff {cs : List Char} {n : Int} :
    Denotes ('-' :: cs) n ↔ IsDigits cs ∧ n = -decimal cs := by
  constructor
  · intro h
    cases h with
    | unsigned hcs _ => exact absurd hcs (not_isDigits_cons (by decide))
    | minus hcs hn => exact ⟨hcs, hn⟩
  · rintro ⟨hcs, hn⟩
    exact .minus hcs hn

theorem denotes_iff_of_unsigned {cs : List Char} {n : Int} (hplus : ∀ ds, cs ≠ '+' :: ds)
    (hminus : ∀ ds, cs ≠ '-' :: ds) : Denotes cs n ↔ IsDigits cs ∧ n = decimal cs := by
  constructor
  · intro h
    cases h with
    | unsigned hcs hn => exact ⟨hcs, hn⟩
    | plus _ _ => exact absurd rfl (hplus _)
    | minus _ _ => exact absurd rfl (hminus _)
  · rintro ⟨hcs, hn⟩
    exact .unsigned hcs hn

/-- A text denotes one integer at most. -/
theorem Denotes.eq {cs : List Char} {m n : Int} (hm : Denotes cs m) (hn : Denotes cs n) :
    m = n := by
  cases hm with
  | unsigned hcs hm =>
    cases hn with
    | unsigned _ hn => rw [hm, hn]
    | plus _ _ => exact absurd hcs (not_isDigits_cons (by decide))
    | minus _ _ => exact absurd hcs (not_isDigits_cons (by decide))
  | plus _ hm => rw [hm, (denotes_plus_iff.1 hn).2]
  | minus _ hm => rw [hm, (denotes_minus_iff.1 hn).2]

/-! ### Words of integers -/

/-- The word of an integer, if it has one. -/
def word? (n : Int) : Option Int64 :=
  if Int64.minValue.toInt ≤ n ∧ n ≤ Int64.maxValue.toInt then some (Int64.ofInt n) else none

theorem word?_eq_some_iff {n : Int} {w : Int64} : word? n = some w ↔ w.toInt = n := by
  rw [word?]
  constructor
  · intro h
    split at h
    · rename_i hrange
      rw [← Option.some.inj h]
      exact Int64.toInt_ofInt_of_le hrange.1 (Int.lt_of_le_sub_one hrange.2)
    · cases h
  · rintro rfl
    rw [if_pos ⟨w.minValue_le_toInt, w.toInt_le⟩, Int64.ofInt_toInt]

theorem word?_eq_none_iff {n : Int} :
    word? n = none ↔ Int64.maxValue.toInt < n ∨ n < Int64.minValue.toInt := by
  rw [word?, ite_eq_right_iff, imp_iff_not (Option.some_ne_none _), Decidable.not_and_iff_or_not,
    Int.not_le, Int.not_le, or_comm]

/-- The integer at a distance from zero, on one of its sides. -/
def signed (negative : Bool) (distance : Nat) : Int :=
  if negative then -distance else distance

@[simp]
theorem signed_false (n : Nat) : signed false n = n := rfl

@[simp]
theorem signed_true (n : Nat) : signed true n = -n := rfl

/-- Away from zero there are no more words once there is none. -/
theorem word?_signed_eq_none {negative : Bool} {m n : Nat}
    (h : word? (signed negative m) = none) (hle : m ≤ n) : word? (signed negative n) = none := by
  have hmin : Int64.minValue.toInt < 0 := by decide
  have hmax : 0 < Int64.maxValue.toInt := by decide
  rw [word?_eq_none_iff] at h ⊢
  cases negative with
  | false =>
    rw [signed_false] at h ⊢
    omega
  | true =>
    rw [signed_true] at h ⊢
    omega

/-! ### Operations on words -/

theorem unlessOverflow_eq_word? {overflow : Bool} {n : Int} {result : Int64}
    (hoverflow : overflow ↔ Int64.maxValue.toInt < n ∨ n < Int64.minValue.toInt)
    (hresult : ¬ overflow → result.toInt = n) : unlessOverflow overflow result = word? n := by
  rw [unlessOverflow]
  split
  · rename_i h
    exact (word?_eq_none_iff.2 (hoverflow.1 h)).symm
  · rename_i h
    exact (word?_eq_some_iff.2 (hresult h)).symm

theorem unlessOverflow_mul (a b : Int64) :
    unlessOverflow (a.toBitVec.smulOverflow b.toBitVec) (a * b) = word? (a.toInt * b.toInt) := by
  refine unlessOverflow_eq_word? ?_ fun h => BitVec.toInt_mul_of_not_smulOverflow h
  simp only [BitVec.smulOverflow, Bool.or_eq_true, decide_eq_true_iff]
  exact Iff.rfl

theorem unlessOverflow_add (a b : Int64) :
    unlessOverflow (a.toBitVec.saddOverflow b.toBitVec) (a + b) = word? (a.toInt + b.toInt) := by
  refine unlessOverflow_eq_word? ?_ fun h => BitVec.toInt_add_of_not_saddOverflow h
  simp only [BitVec.saddOverflow, Bool.or_eq_true, decide_eq_true_iff]
  exact Iff.rfl

theorem unlessOverflow_sub (a b : Int64) :
    unlessOverflow (a.toBitVec.ssubOverflow b.toBitVec) (a - b) = word? (a.toInt - b.toInt) := by
  refine unlessOverflow_eq_word? ?_ fun h => BitVec.toInt_sub_of_not_ssubOverflow h
  simp only [BitVec.ssubOverflow, Bool.or_eq_true, decide_eq_true_iff]
  exact Iff.rfl

/-! ### Reading digits -/

theorem exists_digit?_eq_some {c : Char} (hc : c.isDigit) :
    ∃ digit, digit? c = some digit ∧ digit.toInt = (c.toNat - '0'.toNat : Nat) := by
  have hlt : c.toNat - '0'.toNat < 10 := by
    have hle : c.toNat ≤ 57 := (Char.isDigit_iff_toNat.1 hc).2
    have hzero : '0'.toNat = 48 := rfl
    omega
  refine ⟨_, if_pos hc, ?_⟩
  exact Int64.toInt_ofNat_of_lt (Nat.lt_trans hlt (by decide))

/-- One more digit keeps the word of the digits read so far, and fails where they have none. -/
theorem appendDigit?_eq_word? {negative : Bool} {word : Int64} {c : Char} {m : Nat}
    (hword : word.toInt = signed negative m) (hc : c.isDigit) :
    appendDigit? negative word c =
      word? (signed negative (10 * m + (c.toNat - '0'.toNat))) := by
  obtain ⟨digit, hdigit, hvalue⟩ := exists_digit?_eq_some hc
  have htens : word.toInt * (10 : Int64).toInt = signed negative (10 * m) := by
    have hten : (10 : Int64).toInt = 10 := rfl
    rw [hword, hten]
    cases negative <;> simp only [signed_false, signed_true] <;> omega
  rw [appendDigit?, hdigit, Option.bind_eq_bind, Option.bind_some, unlessOverflow_mul, htens]
  generalize c.toNat - '0'.toNat = d at hvalue ⊢
  cases hcase : word? (signed negative (10 * m)) with
  | none => exact (word?_signed_eq_none hcase (Nat.le_add_right _ _)).symm
  | some tens =>
    have hsum := word?_eq_some_iff.1 hcase
    rw [Option.bind_some]
    cases negative with
    | false =>
      rw [signed_false] at hsum ⊢
      rw [if_neg Bool.false_ne_true, unlessOverflow_add, hsum, hvalue]
      rfl
    | true =>
      rw [signed_true] at hsum ⊢
      rw [if_pos rfl, unlessOverflow_sub, hsum, hvalue]
      congr 1
      omega

/-- Reading a run of digits behind those of a word. -/
theorem foldlM_appendDigit?_eq_word? {negative : Bool} {word : Int64} {cs : List Char} {m : Nat}
    (hword : word.toInt = signed negative m) (hcs : ∀ c ∈ cs, c.isDigit) :
    cs.foldlM (appendDigit? negative) word =
      word? (signed negative (m * 10 ^ cs.length + decimal cs)) := by
  induction cs generalizing word m with
  | nil =>
    rw [List.foldlM_nil, List.length_nil, Nat.pow_zero, Nat.mul_one, decimal_nil, Nat.add_zero]
    exact (word?_eq_some_iff.2 hword).symm
  | cons c cs ih =>
    have htotal : m * 10 ^ (c :: cs).length + decimal (c :: cs) =
        (10 * m + (c.toNat - '0'.toNat)) * 10 ^ cs.length + decimal cs := by
      rw [decimal_cons, List.length_cons, Nat.pow_succ]
      ring
    rw [List.foldlM_cons, htotal, appendDigit?_eq_word? hword (hcs c List.mem_cons_self)]
    cases hcase : word? (signed negative (10 * m + (c.toNat - '0'.toNat))) with
    | none =>
      -- the digits behind this one do not lead back to the words
      refine (word?_signed_eq_none hcase ?_).symm
      exact (Nat.le_mul_of_pos_right _ (Nat.pow_pos (by decide))).trans (Nat.le_add_right _ _)
    | some next => exact ih (word?_eq_some_iff.1 hcase) fun d hd => hcs d (List.mem_cons_of_mem c hd)

theorem appendDigit?_eq_none {negative : Bool} {word : Int64} {c : Char} (hc : ¬ c.isDigit) :
    appendDigit? negative word c = none := by
  rw [appendDigit?, digit?, if_neg hc]
  rfl

/-- What is no digit is not read over. -/
theorem isDigit_of_foldlM_appendDigit? {negative : Bool} {word value : Int64} {cs : List Char}
    (h : cs.foldlM (appendDigit? negative) word = some value) : ∀ c ∈ cs, c.isDigit := by
  induction cs generalizing word with
  | nil => exact nofun
  | cons c cs ih =>
    rw [List.foldlM_cons] at h
    obtain ⟨next, hnext, hlater⟩ := Option.bind_eq_some_iff.1 h
    refine List.forall_mem_cons.2 ⟨?_, ih hlater⟩
    by_contra hc
    rw [appendDigit?_eq_none hc] at hnext
    cases hnext

theorem digits?_eq_some_iff {negative : Bool} {cs : List Char} {value : Int64} :
    digits? negative cs = some value ↔
      IsDigits cs ∧ value.toInt = signed negative (decimal cs) := by
  have hzero : (0 : Int64).toInt = signed negative 0 := by cases negative <;> rfl
  have hread (hcs : ∀ c ∈ cs, c.isDigit) :
      cs.foldlM (appendDigit? negative) 0 = word? (signed negative (decimal cs)) := by
    rw [foldlM_appendDigit?_eq_word? hzero hcs, Nat.zero_mul, Nat.zero_add]
  rw [digits?]
  constructor
  · intro h
    split at h
    · cases h
    · rename_i hne
      have hcs := isDigit_of_foldlM_appendDigit? h
      rw [hread hcs, word?_eq_some_iff] at h
      exact ⟨⟨hne, hcs⟩, h⟩
  · rintro ⟨hcs, hvalue⟩
    rw [if_neg hcs.ne_nil, hread hcs.isDigit, word?_eq_some_iff, hvalue]

/-- A text is read as a word exactly when it is a numeral that denotes the word. -/
theorem int64?_eq_some_iff {s : String} {value : Int64} :
    int64? s = some value ↔ Denotes s.toList value.toInt := by
  rw [int64?]
  split
  · rename_i cs hs
    rw [hs, digits?_eq_some_iff, denotes_plus_iff]
    exact Iff.rfl
  · rename_i cs hs
    rw [hs, digits?_eq_some_iff, denotes_minus_iff]
    exact Iff.rfl
  · rename_i hplus hminus
    rw [digits?_eq_some_iff, denotes_iff_of_unsigned hplus hminus]
    exact Iff.rfl

/-! ### Printing words -/

theorem isDigits_repr (n : Nat) : IsDigits (Nat.repr n).toList := by
  rw [Nat.toList_repr]
  exact ⟨Nat.toDigits_ne_nil, fun _ hc => Nat.isDigit_of_mem_toDigits (by decide) (by decide) hc⟩

theorem decimal_repr (n : Nat) : decimal (Nat.repr n).toList = n := by
  rw [Nat.toList_repr]
  have hzero : '0'.toNat = 48 := rfl
  induction n using Nat.strongRecOn with
  | _ n ih =>
    rcases Nat.lt_or_ge n 10 with hlt | hge
    · rw [Nat.toDigits_of_lt_base hlt, ← List.nil_append [_], decimal_concat, decimal_nil,
        Nat.toNat_digitChar_of_lt_ten hlt]
      omega
    · rw [Nat.toDigits_of_base_le (by decide) hge, decimal_concat, ih (n / 10) (by omega),
        Nat.toNat_digitChar_of_lt_ten (Nat.mod_lt n (by decide))]
      omega

/-- The printed form of a word denotes it. -/
theorem denotes_ofInt64 (n : Int64) : Denotes (ofInt64 n).toList n.toInt := by
  have hdigits := isDigits_repr n.toInt.natAbs
  have hdecimal := decimal_repr n.toInt.natAbs
  rw [ofInt64]
  split
  · have hvalue : n.toInt = -decimal (Nat.repr n.toInt.natAbs).toList := by
      rw [hdecimal]
      omega
    rw [String.toList_append]
    exact .minus hdigits hvalue
  · have hvalue : n.toInt = decimal (Nat.repr n.toInt.natAbs).toList := by
      rw [hdecimal]
      omega
    exact .unsigned hdigits hvalue

end MonkeyLang.Text
