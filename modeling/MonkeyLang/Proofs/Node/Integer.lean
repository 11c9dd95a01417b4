import MonkeyLang.Node.Printer
import MonkeyLang.Proofs.Text.Numeral
import MonkeyLang.Proofs.Token.Canonical

/-!
# Integers

An integer is made of a token whose literal is a numeral of a signed 64-bit word, and of no other
token; a token that makes none is handed back in the fault as it is (`ofToken_denotes`). The
numbers that are read from a source text have no sign, so whether they make an integer depends on
the upper limit alone.
-/

namespace MonkeyLang

open Text

/-! ### The numbers of a source text -/

theorem Regular.isDigits {t : Token} (h : Regular t) (hkind : t.kind = .int) :
    IsDigits t.literal.toList := by
  cases h with
  | fixed h => exact absurd hkind (h.ne_of_hasPayload rfl)
  | ident _ => cases hkind
  | number hne hdigits => exact ⟨fun hnil => hne (String.toList_eq_nil_iff.1 hnil), hdigits⟩

theorem Cursor.isDigits_next {c : Cursor} (hkind : c.next.1.kind = .int) :
    IsDigits c.next.1.literal.toList := by
  have hwords : c.words ≠ [] := by
    intro hnil
    rw [(kind_next_eq_eof_iff c).2 hnil] at hkind
    cases hkind
  obtain ⟨t, ts, hts⟩ := List.exists_cons_of_ne_nil hwords
  have hlocated : c.nextLocated = t := by rw [nextLocated_eq, hts, List.headD_cons]
  have hnext : c.next.1 = t.token := congrArg LocatedToken.token hlocated
  have hmem : t ∈ c.words := by rw [hts]; exact List.mem_cons_self
  obtain ⟨-, d, ds, -, -, hd, htoken⟩ := exists_drop_of_mem_scan hmem
  have hfirst : FirstToken (d :: ds) c.next.1 := by
    rw [hnext, htoken]
    exact firstToken_cons hd ds
  have hregular : Regular c.next.1 := hfirst.regular (by rw [hkind]; exact nofun)
  exact hregular.isDigits hkind

/-! ### Reading and printing -/

namespace IntegerLiteral

variable {t : Token} {position : Position}

theorem ofToken_eq_ok_iff {i : IntegerLiteral} :
    ofToken t position = .ok i ↔ i.token = t ∧ Denotes t.literal.toList i.value.toInt := by
  rw [ofToken]
  constructor
  · intro h
    split at h
    · rename_i value hvalue
      cases h
      exact ⟨rfl, int64?_eq_some_iff.1 hvalue⟩
    · cases h
  · rintro ⟨rfl, h⟩
    rw [int64?_eq_some_iff.2 h]

theorem eq_of_ofToken_eq_error {d : Diagnostic} (h : ofToken t position = .error d) :
    d = ⟨.invalidNumber t, position⟩ := by
  rw [ofToken] at h
  split at h
  · cases h
  · cases h
    rfl

/-- An integer is made exactly where a word is denoted. -/
theorem exists_ofToken_eq_ok_iff :
    (∃ i, ofToken t position = .ok i) ↔
      ∃ n, Denotes t.literal.toList n ∧ -2 ^ 63 ≤ n ∧ n ≤ 2 ^ 63 - 1 := by
  constructor
  · rintro ⟨i, hi⟩
    obtain ⟨-, hdenotes⟩ := ofToken_eq_ok_iff.1 hi
    exact ⟨_, hdenotes, i.value.le_toInt, Int.le_sub_one_of_lt i.value.toInt_lt⟩
  · rintro ⟨n, hdenotes, hmin, hmax⟩
    have hvalue : (Int64.ofInt n).toInt = n :=
      Int64.toInt_ofInt_of_le hmin (Int.lt_of_le_sub_one hmax)
    refine ⟨⟨t, .ofInt n⟩, ofToken_eq_ok_iff.2 ⟨rfl, ?_⟩⟩
    rwa [hvalue]

/-- A number without a sign makes an integer up to the highest word. -/
theorem exists_ofToken_eq_ok_iff_of_isDigits (h : IsDigits t.literal.toList) :
    (∃ i, ofToken t position = .ok i) ↔ decimal t.literal.toList ≤ 2 ^ 63 - 1 := by
  have hdenotes : Denotes t.literal.toList (decimal t.literal.toList) := .unsigned h rfl
  rw [exists_ofToken_eq_ok_iff]
  constructor
  · rintro ⟨n, hn, -, hmax⟩
    rw [hn.eq hdenotes] at hmax
    omega
  · intro hmax
    exact ⟨_, hdenotes, by omega, by omega⟩

theorem ofToken_display (i : IntegerLiteral) (position : Position) :
    ofToken ⟨.int, i.display⟩ position = .ok ⟨⟨.int, i.display⟩, i.value⟩ :=
  ofToken_eq_ok_iff.2 ⟨rfl, denotes_ofInt64 i.value⟩

/-- Whether a text makes an integer, and which, is decided by what it denotes, and a text that makes
none is in the fault as it is. A number that is read from a source text makes one exactly when its
decimal value is not too high. The printed form of an integer makes the same integer again. -/
theorem ofToken_denotes :
    (∀ (text : String) (position : Position),
        let t : Token := ⟨.int, text⟩
        ((∃ i, ofToken t position = .ok i) ↔
            ∃ n, Denotes text.toList n ∧ -2 ^ 63 ≤ n ∧ n ≤ 2 ^ 63 - 1) ∧
          (∀ i, ofToken t position = .ok i →
            i.token = t ∧ ∀ n, Denotes text.toList n → i.value.toInt = n) ∧
          ∀ d, ofToken t position = .error d → d = ⟨.invalidNumber t, position⟩) ∧
      (∀ (c : Cursor) (position : Position), c.next.1.kind = .int →
        IsDigits c.next.1.literal.toList ∧
          ((∃ i, ofToken c.next.1 position = .ok i) ↔
            decimal c.next.1.literal.toList ≤ 2 ^ 63 - 1)) ∧
      ∀ (i : IntegerLiteral) (position : Position),
        ofToken ⟨.int, i.display⟩ position = .ok ⟨⟨.int, i.display⟩, i.value⟩ := by
  refine ⟨?_, ?_, ofToken_display⟩
  · intro text position t
    refine ⟨exists_ofToken_eq_ok_iff, ?_, fun d hd => eq_of_ofToken_eq_error hd⟩
    intro i hi
    obtain ⟨htoken, hdenotes⟩ := ofToken_eq_ok_iff.1 hi
    exact ⟨htoken, fun n hn => hdenotes.eq hn⟩
  · intro c position hkind
    have hdigits := c.isDigits_next hkind
    exact ⟨hdigits, exists_ofToken_eq_ok_iff_of_isDigits hdigits⟩

/-- The lowest word, a number without a sign that is one too high, and the highest word behind leading
zeros. -/
theorem ofToken_denotes_limits :
    (∃ i, ofToken ⟨.int, "-9223372036854775808"⟩ .null = .ok i ∧
        i.value.toInt = -9223372036854775808) ∧
      (∃ d, ofToken ⟨.int, "9223372036854775808"⟩ .null = .error d ∧
        d = ⟨.invalidNumber ⟨.int, "9223372036854775808"⟩, .null⟩) ∧
      (Cursor.ofSource " 0009223372036854775807;" none).next.1.kind = .int ∧
      ∃ i, ofToken (Cursor.ofSource " 0009223372036854775807;" none).next.1 .null = .ok i := by
  obtain ⟨hread, hnumber, -⟩ := ofToken_denotes
  refine ⟨?_, ?_, ?_⟩
  · obtain ⟨hok, hvalue, -⟩ := hread "-9223372036854775808" .null
    have htext : "-9223372036854775808".toList = '-' :: "9223372036854775808".toList := by
      decide +kernel
    have hdigits : IsDigits "9223372036854775808".toList := by decide +kernel
    have hdenotes : Denotes "-9223372036854775808".toList (-9223372036854775808) := by
      rw [htext]
      exact .minus hdigits (by decide +kernel)
    obtain ⟨i, hi⟩ := hok.2 ⟨_, hdenotes, by decide, by decide⟩
    exact ⟨i, hi, (hvalue i hi).2 _ hdenotes⟩
  · obtain ⟨-, -, herror⟩ := hread "9223372036854775808" .null
    have hd : ofToken ⟨.int, "9223372036854775808"⟩ .null = .error _ := rfl
    exact ⟨_, hd, herror _ hd⟩
  · have hkind : (Cursor.ofSource " 0009223372036854775807;" none).next.1.kind = .int := by
      decide +kernel
    obtain ⟨-, hlimit⟩ := hnumber _ .null hkind
    exact ⟨hkind, hlimit.2 (by decide +kernel)⟩

end IntegerLiteral

end MonkeyLang
