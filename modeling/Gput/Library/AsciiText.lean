import Mathlib.Data.List.DropRight
import Gput.Library.ByteString

/-!
# ASCII text in byte strings

Trimming, comparison up to case, and the pieces of a separated list, as the
byte-string functions of a standard library define them.
-/

namespace AsciiText

/-- Space, tab, line feed, form feed and carriage return. -/
def isWhitespace (byte : UInt8) : Bool :=
  byte == 32 || byte == 9 || byte == 10 || byte == 12 || byte == 13

/-- The control bytes of ASCII. -/
def isControl (byte : UInt8) : Bool :=
  byte < 32 || byte == 127

/-- Text without the white space at both ends. -/
def trim (text : List UInt8) : List UInt8 :=
  (text.dropWhile isWhitespace).rdropWhile isWhitespace

def toLower (byte : UInt8) : UInt8 :=
  if 65 ≤ byte ∧ byte ≤ 90 then byte + 32 else byte

/-- Equality up to the case of ASCII letters. -/
def eqIgnoreCase (left right : List UInt8) : Bool :=
  left.map toLower == right.map toLower

/-- Text without a last byte, if it ends with it. -/
def stripLast (byte : UInt8) (text : List UInt8) : List UInt8 :=
  if text.getLast? = some byte then text.dropLast else text

/-- A text that starts and ends with other bytes is trimmed already. -/
theorem trim_eq_self {text : List UInt8} (h : ∀ byte ∈ text, isWhitespace byte = false) :
    trim text = text := by
  have hleft : text.dropWhile isWhitespace = text := by
    cases text with
    | nil => rfl
    | cons byte rest => rw [List.dropWhile_cons_of_neg (by simp [h byte (by simp)])]
  rw [trim, hleft, List.rdropWhile_eq_self_iff]
  intro hne
  simp [h _ (List.getLast_mem hne)]

/-- White space in front of a text is trimmed away. -/
theorem trim_cons {byte : UInt8} (hbyte : isWhitespace byte = true) (text : List UInt8) :
    trim (byte :: text) = trim text := by
  rw [trim, List.dropWhile_cons_of_pos hbyte, trim]

theorem stripLast_append (byte : UInt8) (text : List UInt8) :
    stripLast byte (text ++ [byte]) = text := by
  rw [stripLast, List.getLast?_concat, if_pos rfl, List.dropLast_concat]

theorem stripLast_prefix (byte : UInt8) (text : List UInt8) : stripLast byte text <+: text := by
  rw [stripLast]
  split
  · exact List.dropLast_prefix text
  · exact List.prefix_rfl

theorem stripLast_eq_self {byte : UInt8} {text : List UInt8} (h : text.getLast? ≠ some byte) :
    stripLast byte text = text :=
  if_neg h

/-- Stripping takes one byte off, or nothing. -/
theorem stripLast_eq_iff {byte : UInt8} {text rest : List UInt8}
    (hrest : rest.getLast? ≠ some byte) :
    stripLast byte text = rest ↔ text = rest ∨ text = rest ++ [byte] := by
  constructor
  · intro h
    by_cases hlast : text.getLast? = some byte
    · obtain ⟨before, rfl⟩ := List.getLast?_eq_some_iff.mp hlast
      rw [stripLast_append] at h
      exact Or.inr (by rw [h])
    · rw [stripLast_eq_self hlast] at h
      exact Or.inl h
  · rintro (rfl | rfl)
    · exact stripLast_eq_self hrest
    · exact stripLast_append byte rest

end AsciiText
