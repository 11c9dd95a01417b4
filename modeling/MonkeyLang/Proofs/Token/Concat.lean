import MonkeyLang.Proofs.Token.Scan

/-!
# Scanning a text in pieces

The tokens of a text do not depend on where it stands, apart from their offsets (`scan_add`), and
what follows a text changes its tokens only by extending its last lexeme. A semicolon extends
none, so the pieces of a text before and behind it are scanned by themselves
(`scan_append_semicolon`).
-/

namespace MonkeyLang

open Text

/-- The token `n` octets further on. -/
def LocatedToken.shift (n : Nat) (t : LocatedToken) : LocatedToken :=
  { t with offset := t.offset + n }

theorem scan_add (offset n : Nat) (cs : List Char) :
    scan (offset + n) cs = (scan offset cs).map (.shift n) := by
  fun_induction scan offset cs with
  | case1 => rw [scan_nil, List.map_nil]
  | case2 offset c cs hc ih => rw [scan_cons_of_isBlank hc, Nat.add_right_comm, ih]
  | case3 offset c cs hc ih =>
    rw [scan_cons_of_not_isBlank hc, Nat.add_right_comm, ih, List.map_cons]
    rfl

/-- The tokens of a text lie within it. -/
theorem offset_lt_of_mem_scan {offset : Nat} {cs : List Char} {t : LocatedToken}
    (ht : t ∈ scan offset cs) : t.offset < offset + cs.length := by
  fun_induction scan offset cs with
  | case1 => cases ht
  | case2 offset c cs hc ih =>
    have hlt := ih ht
    rw [List.length_cons]
    omega
  | case3 offset c cs hc ih =>
    have hle := length_lexeme_le (c :: cs)
    rcases List.mem_cons.1 ht with rfl | ht
    · simp
    · have hlt := ih ht
      rw [List.length_drop] at hlt
      omega

/-! ### What follows a text -/

/-- Whether a character behind a lexeme makes it longer. -/
def isExtendedBy : List Char → Char → Bool
  | [], _ => false
  | c :: cs, d =>
    if isLetter c then isWordChar d
    else if c.isDigit then d.isDigit
    else isPairHead c && cs.isEmpty && d = '='

theorem takeWhile_append_of_head? {p : Char → Bool} (cs : List Char) {ds : List Char}
    (h : cs.takeWhile p = cs → ∀ d ∈ ds.head?, ¬ p d) :
    (cs ++ ds).takeWhile p = cs.takeWhile p := by
  induction cs with
  | nil =>
    cases ds with
    | nil => rfl
    | cons d ds => exact List.takeWhile_cons_of_neg (h rfl d rfl)
  | cons c cs ih =>
    by_cases hc : p c
    · rw [List.cons_append, List.takeWhile_cons_of_pos hc, List.takeWhile_cons_of_pos hc]
      have htail : (cs ++ ds).takeWhile p = cs.takeWhile p := by
        apply ih
        intro hcs
        apply h
        rw [List.takeWhile_cons_of_pos hc, hcs]
      rw [htail]
    · rw [List.cons_append, List.takeWhile_cons_of_neg hc, List.takeWhile_cons_of_neg hc]

/-- What follows a text does not change its first lexeme, unless the lexeme is the whole text and
is extended. -/
theorem lexeme_append {cs ds : List Char} (hcs : cs ≠ [])
    (h : lexeme cs = cs → ∀ d ∈ ds.head?, ¬ isExtendedBy cs d) :
    lexeme (cs ++ ds) = lexeme cs := by
  obtain ⟨c, cs, rfl⟩ := List.exists_cons_of_ne_nil hcs
  rw [List.cons_append]
  by_cases hletter : isLetter c
  · simp only [lexeme, isExtendedBy, if_pos hletter] at h ⊢
    rw [takeWhile_append_of_head? cs fun htake => h (congrArg (List.cons c) htake)]
  · by_cases hdigit : c.isDigit
    · simp only [lexeme, isExtendedBy, if_neg hletter, if_pos hdigit] at h ⊢
      rw [takeWhile_append_of_head? cs fun htake => h (congrArg (List.cons c) htake)]
    · simp only [lexeme, isExtendedBy, if_neg hletter, if_neg hdigit] at h ⊢
      cases cs with
      | nil =>
        have halone : ¬ (isPairHead c ∧ ([] : List Char).head? = some '=') := by simp
        have hpair : ¬ (isPairHead c ∧ ([] ++ ds).head? = some '=') := by
          rintro ⟨hc, hd⟩
          exact h (if_neg halone) '=' hd (by simp [hc])
        rw [if_neg halone, if_neg hpair]
      | cons d cs => rfl

/-- What stands behind a lexeme ends where its text ends. -/
theorem add_length_lexeme_add_length_drop (offset : Nat) (cs : List Char) :
    offset + (lexeme cs).length + (cs.drop (lexeme cs).length).length = offset + cs.length := by
  have hle := length_lexeme_le cs
  rw [List.length_drop]
  omega

/-- A text in front of a character that extends no lexeme is scanned by itself. -/
theorem scan_append_cons {d : Char} (hd : ∀ cs, ¬ isExtendedBy cs d) (offset : Nat)
    (cs ds : List Char) :
    scan offset (cs ++ d :: ds) = scan offset cs ++ scan (offset + cs.length) (d :: ds) := by
  fun_induction scan offset cs with
  | case1 => rfl
  | case2 offset c cs hc ih =>
    rw [List.cons_append, scan_cons_of_isBlank hc, ih, List.length_cons, Nat.add_assoc,
      Nat.add_comm 1]
  | case3 offset c cs hc ih =>
    have hlexeme : lexeme (c :: (cs ++ d :: ds)) = lexeme (c :: cs) :=
      lexeme_append (List.cons_ne_nil c cs) fun _ e he => by
        rw [List.head?_cons, Option.mem_some] at he
        exact he ▸ hd (c :: cs)
    rw [List.cons_append, scan_cons_of_not_isBlank hc, hlexeme, ← List.cons_append,
      List.drop_append_of_le_length (length_lexeme_le _), ih, add_length_lexeme_add_length_drop,
      List.cons_append]

/-- What continues neither words nor pairs extends no lexeme. -/
theorem not_isExtendedBy {d : Char} (hword : ¬ isWordChar d) (heq : d ≠ '=') (cs : List Char) :
    ¬ isExtendedBy cs d := by
  cases cs with
  | nil => exact Bool.noConfusion
  | cons c cs =>
    rw [isExtendedBy]
    split
    · exact hword
    · split
      · rw [isWordChar, Bool.or_eq_true] at hword
        exact hword ∘ .inr
      · simp [heq]

theorem scan_semicolon (offset : Nat) (cs : List Char) :
    scan offset (';' :: cs) = ⟨⟨.semicolon, ";"⟩, offset⟩ :: scan (offset + 1) cs := by
  have hlexeme : lexeme (';' :: cs) = [';'] := by
    rw [lexeme, if_neg (by decide), if_neg (by decide), if_neg fun h => absurd h.1 (by decide)]
  rw [scan_cons_of_not_isBlank (by decide), hlexeme]
  rfl

theorem scan_append_cons_semicolon (offset : Nat) (cs ds : List Char) :
    scan offset (cs ++ ';' :: ds) =
      scan offset cs ++ ⟨⟨.semicolon, ";"⟩, offset + cs.length⟩ ::
        scan (offset + cs.length + 1) ds := by
  rw [scan_append_cons (not_isExtendedBy (by decide) (by decide)), scan_semicolon]

/-- A semicolon is a token by itself, and the texts before and behind it are scanned as if it was
not there. -/
theorem scan_append_semicolon (offset : Nat) (cs ds : List Char) :
    scan offset (cs ++ ';' :: ds) =
      scan offset cs ++ ⟨⟨.semicolon, ";"⟩, offset + cs.length⟩ ::
        (scan offset ds).map (.shift (cs.length + 1)) := by
  rw [scan_append_cons_semicolon, Nat.add_assoc, scan_add]

end MonkeyLang
