/-!
# Octets of a text

A source text is scanned one UTF-8 octet at a time. An octet is held as the character of the
same number, from U+0000 to U+00FF, so that scanned pieces are texts again and an ASCII
character stands for itself. Offsets into a text count its octets.
-/

namespace MonkeyLang.Text

/-- The UTF-8 octets of one character, each as the character of the same number. -/
def octetsOf (c : Char) : List Char :=
  (String.utf8EncodeChar c).map Char.ofUInt8

/-- The UTF-8 octets of a text, each as the character of the same number. -/
def octets (s : String) : List Char :=
  s.toList.flatMap octetsOf

/-- The number of octets that a list of characters takes in UTF-8. -/
def width (cs : List Char) : Nat :=
  cs.foldr (fun c n => c.utf8Size + n) 0

/-- The piece of a text between two offsets. There is none unless the first is not behind the
second and both lie where a character begins or the text ends. -/
def slice? (s : String) (start stop : Nat) : Option String :=
  if h : start ≤ stop ∧ String.Pos.Raw.IsValid s ⟨start⟩ ∧ String.Pos.Raw.IsValid s ⟨stop⟩ then
    some (String.extract ⟨⟨start⟩, h.2.1⟩ ⟨⟨stop⟩, h.2.2⟩)
  else
    none

@[simp]
theorem octets_empty : octets "" = [] := by
  simp [octets]

@[simp]
theorem octets_append (s t : String) : octets (s ++ t) = octets s ++ octets t := by
  simp [octets]

@[simp]
theorem length_octetsOf (c : Char) : (octetsOf c).length = c.utf8Size := by
  simp [octetsOf]

@[simp]
theorem width_nil : width [] = 0 := rfl

@[simp]
theorem width_cons (c : Char) (cs : List Char) : width (c :: cs) = c.utf8Size + width cs := rfl

@[simp]
theorem width_append (cs ds : List Char) : width (cs ++ ds) = width cs + width ds := by
  induction cs with
  | nil => simp
  | cons c cs ih => simp [ih, Nat.add_assoc]

/-- A text has as many octets as its width says. -/
theorem length_octets (s : String) : (octets s).length = width s.toList := by
  unfold octets
  induction s.toList with
  | nil => rfl
  | cons c cs ih => simp [ih]

end MonkeyLang.Text
