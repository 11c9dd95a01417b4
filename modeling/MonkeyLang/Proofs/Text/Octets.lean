import MonkeyLang.Text.Octets

/-!
# The octets of a text

The octets of a text are the bytes that it is stored in. An ASCII character is its own octet, and
the octets of the other characters are none of ASCII.
-/

namespace MonkeyLang.Text

/-- The octets of a text are its bytes, each as the character of the same number. -/
theorem octets_eq_map_toByteArray (s : String) :
    octets s = s.toByteArray.data.toList.map Char.ofUInt8 := by
  obtain ⟨cs, rfl⟩ := s.exists_eq_ofList
  rw [String.toByteArray_ofList, List.utf8Encode, List.data_toByteArray]
  rw [List.toList_toArray, List.map_flatMap, octets, String.toList_ofList]
  rfl

theorem octets_ofList (cs : List Char) : octets (String.ofList cs) = cs.flatMap octetsOf := by
  rw [octets, String.toList_ofList]

theorem length_flatMap_octetsOf (cs : List Char) : (cs.flatMap octetsOf).length = width cs := by
  rw [← octets_ofList, length_octets, String.toList_ofList]

/-- A text has as many octets as it takes bytes. -/
theorem length_octets_eq_utf8ByteSize (s : String) : (octets s).length = s.utf8ByteSize := by
  rw [octets_eq_map_toByteArray, List.length_map]
  rfl

@[simp]
theorem octets_semicolon : octets ";" = [';'] := by
  decide

/-! ### ASCII -/

/-- An ASCII character is its own octet. -/
theorem octetsOf_of_lt {c : Char} (h : c.toNat < 128) : octetsOf c = [c] := by
  have hval : c.val.toNat ≤ 127 := Nat.le_of_lt_succ h
  have hoctet : Char.ofUInt8 (UInt8.ofNat c.val.toNat) = c := by
    apply Char.toNat_inj.1
    show (UInt8.ofNat c.val.toNat).toNat = c.toNat
    rw [UInt8.toNat_ofNat', Nat.mod_eq_of_lt (by omega)]
    rfl
  simp only [octetsOf, String.utf8EncodeChar, if_pos hval, List.map_cons, List.map_nil, hoctet]

/-- The octets of the other characters lie outside ASCII. -/
theorem le_toNat_of_mem_octetsOf {c d : Char} (h : 128 ≤ c.toNat) (hd : d ∈ octetsOf c) :
    128 ≤ d.toNat := by
  obtain ⟨b, hb, rfl⟩ := List.mem_map.1 hd
  have hval : ¬ c.val.toNat ≤ 127 := Nat.not_le.2 h
  show 128 ≤ b.toNat
  simp only [String.utf8EncodeChar, if_neg hval] at hb
  -- two, three or four bytes, each with its marker bits added
  split at hb
  · simp only [List.mem_cons, List.not_mem_nil, or_false] at hb
    obtain rfl | rfl := hb <;> (rw [UInt8.toNat_ofNat']; omega)
  · split at hb
    · simp only [List.mem_cons, List.not_mem_nil, or_false] at hb
      obtain rfl | rfl | rfl := hb <;> (rw [UInt8.toNat_ofNat']; omega)
    · simp only [List.mem_cons, List.not_mem_nil, or_false] at hb
      obtain rfl | rfl | rfl | rfl := hb <;> (rw [UInt8.toNat_ofNat']; omega)

/-- An ASCII character is among the octets of the texts that it is in. -/
theorem mem_octets_iff_of_lt {d : Char} (hd : d.toNat < 128) (s : String) :
    d ∈ octets s ↔ d ∈ s.toList := by
  constructor
  · intro h
    obtain ⟨c, hc, hdc⟩ := List.mem_flatMap.1 h
    rcases Nat.lt_or_ge c.toNat 128 with hlt | hge
    · rw [octetsOf_of_lt hlt, List.mem_singleton] at hdc
      exact hdc ▸ hc
    · exact absurd hd (Nat.not_lt.2 (le_toNat_of_mem_octetsOf hge hdc))
  · intro h
    refine List.mem_flatMap.2 ⟨d, h, ?_⟩
    rw [octetsOf_of_lt hd]
    exact List.mem_cons_self

/-- An ASCII text is its own octets. -/
theorem octets_of_forall_lt {s : String} (h : ∀ c ∈ s.toList, c.toNat < 128) :
    octets s = s.toList := by
  unfold octets
  generalize s.toList = cs at h ⊢
  induction cs with
  | nil => rfl
  | cons c cs ih =>
    rw [List.flatMap_cons, octetsOf_of_lt (h c List.mem_cons_self), ih]
    · rfl
    · intro d hd
      exact h d (List.mem_cons_of_mem c hd)

/-! ### Continuation octets -/

/-- The octets that stand behind the first one of a character. -/
def isContinuation (c : Char) : Bool :=
  128 ≤ c.toNat && c.toNat < 192

theorem isContinuation_ofUInt8_iff {b : Nat} (hb : b < 256) :
    isContinuation (Char.ofUInt8 (UInt8.ofNat b)) ↔ 128 ≤ b ∧ b < 192 := by
  have htoNat : (Char.ofUInt8 (UInt8.ofNat b)).toNat = b := by
    show (UInt8.ofNat b).toNat = b
    rw [UInt8.toNat_ofNat', Nat.mod_eq_of_lt hb]
  simp [isContinuation, htoNat]

/-- Every octet of a character but the first is a continuation. -/
theorem exists_octetsOf_eq_cons (c : Char) :
    ∃ first rest, octetsOf c = first :: rest ∧ ¬ isContinuation first ∧
      ∀ d ∈ rest, isContinuation d := by
  have hfirst {b : Nat} (hb : b < 128 ∨ 192 ≤ b ∧ b < 256) :
      ¬ isContinuation (Char.ofUInt8 (UInt8.ofNat b)) := by
    rw [isContinuation_ofUInt8_iff (by omega)]
    omega
  have hrest (v : Nat) : isContinuation (Char.ofUInt8 (UInt8.ofNat (v % 64 + 128))) := by
    rw [isContinuation_ofUInt8_iff (by omega)]
    omega
  simp only [octetsOf, String.utf8EncodeChar]
  -- one, two, three or four bytes
  split
  · exact ⟨_, [], rfl, hfirst (by omega), List.forall_mem_nil _⟩
  · split
    · refine ⟨_, [_], rfl, hfirst (by omega), ?_⟩
      simp only [List.forall_mem_cons, hrest, true_and]
      exact List.forall_mem_nil _
    · split
      · refine ⟨_, [_, _], rfl, hfirst (by omega), ?_⟩
        simp only [List.forall_mem_cons, hrest, true_and]
        exact List.forall_mem_nil _
      · refine ⟨_, [_, _, _], rfl, hfirst (by omega), ?_⟩
        simp only [List.forall_mem_cons, hrest, true_and]
        exact List.forall_mem_nil _

/-- A text begins with an ASCII character if its octets do. -/
theorem mem_head?_octets_iff_of_lt {d : Char} (hd : d.toNat < 128) (s : String) :
    d ∈ (octets s).head? ↔ d ∈ s.toList.head? := by
  rw [octets]
  cases s.toList with
  | nil => rfl
  | cons c cs =>
    rcases Nat.lt_or_ge c.toNat 128 with hlt | hge
    · simp [octetsOf_of_lt hlt]
    · obtain ⟨first, rest, hoctets, -, -⟩ := exists_octetsOf_eq_cons c
      have hfirst : 128 ≤ first.toNat := le_toNat_of_mem_octetsOf hge (by simp [hoctets])
      refine iff_of_false ?_ ?_
      · rw [List.flatMap_cons, hoctets]
        rintro ⟨rfl⟩
        exact absurd hd (Nat.not_lt.2 hfirst)
      · rintro ⟨rfl⟩
        exact absurd hd (Nat.not_lt.2 hge)

/-- A text has as many characters as octets that are no continuations. -/
theorem length_add_countP_isContinuation (cs : List Char) :
    cs.length + (cs.flatMap octetsOf).countP isContinuation = (cs.flatMap octetsOf).length := by
  induction cs with
  | nil => rfl
  | cons c cs ih =>
    obtain ⟨first, rest, hoctets, hfirst, hrest⟩ := exists_octetsOf_eq_cons c
    rw [List.flatMap_cons, List.countP_append, List.length_append, ← ih, hoctets,
      List.countP_cons_of_neg hfirst, List.countP_eq_length.2 hrest, List.length_cons,
      List.length_cons]
    omega

/-! ### Character boundaries -/

/-- An ASCII octet of a text is one of its characters, and stands as far on as the characters in
front of it are wide. -/
theorem exists_eq_append_of_getElem?_octets {s : String} {i : Nat} {c : Char}
    (hi : (octets s)[i]? = some c) (hc : c.toNat < 128) :
    ∃ front rest, s.toList = front ++ c :: rest ∧ width front = i := by
  rw [octets] at hi
  generalize s.toList = cs at hi ⊢
  induction cs generalizing i with
  | nil => cases hi
  | cons d cs ih =>
    rw [List.flatMap_cons] at hi
    rcases Nat.lt_or_ge i (octetsOf d).length with hlt | hge
    · rw [List.getElem?_append_left hlt] at hi
      have hd : d.toNat < 128 := by
        rcases Nat.lt_or_ge d.toNat 128 with hlt | hge
        · exact hlt
        · exact absurd hc (Nat.not_lt.2 (le_toNat_of_mem_octetsOf hge (List.mem_of_getElem? hi)))
      rw [octetsOf_of_lt hd] at hi hlt
      obtain rfl : i = 0 := by simpa using hlt
      obtain rfl : d = c := by simpa using hi
      exact ⟨[], cs, rfl, rfl⟩
    · rw [List.getElem?_append_right hge] at hi
      obtain ⟨front, rest, hcs, hwidth⟩ := ih hi
      refine ⟨d :: front, rest, ?_, ?_⟩
      · rw [hcs, List.cons_append]
      · rw [length_octetsOf] at hge hwidth
        rw [width_cons, hwidth]
        omega

theorem isValid_width {s : String} {front rest : List Char} (h : s.toList = front ++ rest) :
    String.Pos.Raw.IsValid s ⟨width front⟩ := by
  rw [String.Pos.Raw.isValid_iff_exists_append]
  refine ⟨String.ofList front, String.ofList rest, ?_, ?_⟩
  · rw [← String.ofList_append, ← h, String.ofList_toList]
  · have hsize : (String.ofList front).utf8ByteSize = width front := by
      rw [← length_octets_eq_utf8ByteSize, length_octets, String.toList_ofList]
    rw [← hsize]
    rfl

/-- On both sides of an ASCII octet a character begins or the text ends. -/
theorem isValid_of_getElem?_octets {s : String} {i : Nat} {c : Char}
    (hi : (octets s)[i]? = some c) (hc : c.toNat < 128) :
    String.Pos.Raw.IsValid s ⟨i⟩ ∧ String.Pos.Raw.IsValid s ⟨i + 1⟩ := by
  obtain ⟨front, rest, hs, rfl⟩ := exists_eq_append_of_getElem?_octets hi hc
  have hwidth : width (front ++ [c]) = width front + 1 := by
    rw [width_append, width_cons, width_nil, ← length_octetsOf c, octetsOf_of_lt hc]
    rfl
  constructor
  · exact isValid_width hs
  · have hs' : s.toList = front ++ [c] ++ rest := by
      rw [hs, List.append_assoc]
      rfl
    rw [← hwidth]
    exact isValid_width hs'

/-- The characters in front of an ASCII octet are those of the octets in front of it. -/
theorem exists_eq_append_of_flatMap_eq {cs lead rest : List Char} {c : Char}
    (h : cs.flatMap octetsOf = lead ++ c :: rest) (hc : c.toNat < 128) :
    ∃ front back, cs = front ++ c :: back ∧ front.flatMap octetsOf = lead ∧
      back.flatMap octetsOf = rest := by
  have hoctet : (octets (String.ofList cs))[lead.length]? = some c := by
    rw [octets_ofList, h, List.getElem?_append_right (Nat.le_refl _), Nat.sub_self]
    rfl
  obtain ⟨front, back, hcs, hwidth⟩ := exists_eq_append_of_getElem?_octets hoctet hc
  rw [String.toList_ofList] at hcs
  have hlength : (front.flatMap octetsOf).length = lead.length := by
    rw [length_flatMap_octetsOf, hwidth]
  rw [hcs, List.flatMap_append, List.flatMap_cons, octetsOf_of_lt hc] at h
  obtain ⟨hfront, hback⟩ := List.append_inj h hlength
  exact ⟨front, back, hcs, hfront, (List.cons.inj hback).2⟩

/-- ASCII octets at the front of a text are the characters at its front. -/
theorem prefix_of_flatMap_eq {cs word rest : List Char}
    (h : cs.flatMap octetsOf = word ++ rest) (hword : ∀ c ∈ word, c.toNat < 128) :
    word <+: cs := by
  induction word generalizing cs with
  | nil => exact List.nil_prefix
  | cons c word ih =>
    obtain ⟨hc, hword⟩ := List.forall_mem_cons.1 hword
    have hlead : cs.flatMap octetsOf = [] ++ c :: (word ++ rest) := h
    obtain ⟨front, back, rfl, hfront, hback⟩ := exists_eq_append_of_flatMap_eq hlead hc
    have hnil : front = [] := by
      have hlength := length_add_countP_isContinuation front
      rw [hfront] at hlength
      exact List.length_eq_zero_iff.1 hlength
    rw [hnil, List.nil_append, List.prefix_cons_inj]
    exact ih hback hword

/-- The characters in front of an ASCII word are those of the octets in front of it. -/
theorem exists_eq_append_append_of_octets_eq {s : String} {lead word rest : List Char}
    (h : octets s = lead ++ word ++ rest) (hword : ∀ c ∈ word, c.toNat < 128)
    (hne : word ≠ []) :
    ∃ front back, s.toList = front ++ word ++ back ∧ front.flatMap octetsOf = lead := by
  obtain ⟨c, word, rfl⟩ := List.exists_cons_of_ne_nil hne
  rw [List.append_assoc] at h
  obtain ⟨hc, hword⟩ := List.forall_mem_cons.1 hword
  obtain ⟨front, behind, hs, hfront, hbehind⟩ := exists_eq_append_of_flatMap_eq h hc
  obtain ⟨back, rfl⟩ := prefix_of_flatMap_eq hbehind hword
  refine ⟨front, back, ?_, hfront⟩
  rw [hs, List.append_assoc]
  rfl

/-! ### Pieces of a text -/

theorem isValid_of_slice?_eq_some {s piece : String} {start stop : Nat}
    (h : slice? s start stop = some piece) :
    String.Pos.Raw.IsValid s ⟨start⟩ ∧ String.Pos.Raw.IsValid s ⟨stop⟩ := by
  rw [slice?] at h
  split at h
  · rename_i hcut
    exact hcut.2
  · cases h

theorem slice?_append (front word back : String) :
    slice? (front ++ word ++ back) front.utf8ByteSize (front ++ word).utf8ByteSize =
      some word := by
  have hstart : String.Pos.Raw.IsValid (front ++ word ++ back) ⟨front.utf8ByteSize⟩ :=
    String.Pos.Raw.isValid_iff_exists_append.2 ⟨front, word ++ back, String.append_assoc .., rfl⟩
  have hstop : String.Pos.Raw.IsValid (front ++ word ++ back) ⟨(front ++ word).utf8ByteSize⟩ :=
    String.Pos.Raw.isValid_iff_exists_append.2 ⟨front ++ word, back, rfl, rfl⟩
  have hle : front.utf8ByteSize ≤ (front ++ word).utf8ByteSize := by
    rw [String.utf8ByteSize_append]
    exact Nat.le_add_right _ _
  have hcut := ByteArray.extract_append_size_add (a := front.toByteArray)
    (b := word.toByteArray ++ back.toByteArray) (i := 0) (j := word.toByteArray.size)
  rw [Nat.add_zero, ByteArray.extract_append_eq_left rfl, ← String.toByteArray_append,
    ← String.toByteArray_append, ← String.append_assoc, String.size_toByteArray,
    String.size_toByteArray, ← String.utf8ByteSize_append] at hcut
  rw [slice?, dif_pos ⟨hle, hstart, hstop⟩]
  exact congrArg some (String.toByteArray_inj.1 (String.toByteArray_extract.trans hcut))

/-- An ASCII word is cut out of a text at the offsets that it has among the octets of the text. -/
theorem slice?_of_octets_eq {s : String} {lead word rest : List Char}
    (h : octets s = lead ++ word ++ rest) (hword : ∀ c ∈ word, c.toNat < 128) (hne : word ≠ []) :
    slice? s lead.length (lead.length + word.length) = some (String.ofList word) := by
  obtain ⟨front, back, hs, hfront⟩ := exists_eq_append_append_of_octets_eq h hword hne
  have hsplit : s = String.ofList front ++ String.ofList word ++ String.ofList back := by
    rw [← String.ofList_append, ← String.ofList_append, ← hs, String.ofList_toList]
  have hstart : (String.ofList front).utf8ByteSize = lead.length := by
    rw [← length_octets_eq_utf8ByteSize, octets_ofList, hfront]
  have hsize : (String.ofList word).utf8ByteSize = word.length := by
    rw [← length_octets_eq_utf8ByteSize, octets_of_forall_lt (by rwa [String.toList_ofList]),
      String.toList_ofList]
  rw [← hstart, ← hsize, ← String.utf8ByteSize_append, hsplit]
  exact slice?_append _ _ _

end MonkeyLang.Text
