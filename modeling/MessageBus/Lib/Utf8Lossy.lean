import Mathlib.Data.List.Basic

/-!
# Lossy decoding of UTF-8

Bytes to text the way Rust's `String::from_utf8_lossy` reads them: a well-formed character stands
for itself, and each maximal prefix of an ill-formed one for a single `U+FFFD`. On the bytes of a
text the decoding gives the text back (`lossy_utf8Bytes`).
-/

namespace Utf8Lossy

def utf8Bytes (s : String) : List UInt8 := s.toList.flatMap String.utf8EncodeChar

def isContinuation (b : UInt8) : Bool := 0x80 ≤ b && b ≤ 0xBF

/-- The second bytes that may follow a lead byte of three or four. -/
def isSecond (lead b : UInt8) : Bool :=
  if lead = 0xE0 then 0xA0 ≤ b && b ≤ 0xBF
  else if lead = 0xED then 0x80 ≤ b && b ≤ 0x9F
  else if lead = 0xF0 then 0x90 ≤ b && b ≤ 0xBF
  else if lead = 0xF4 then 0x80 ≤ b && b ≤ 0x8F
  else isContinuation b

/-- The length of the ill-formed prefix that one replacement stands for. -/
def invalidLen : List UInt8 → ℕ
  | lead :: b :: rest =>
    if 0xE0 ≤ lead && lead ≤ 0xF4 && isSecond lead b then
      match rest with
      | b' :: _ => if 0xF0 ≤ lead && isContinuation b' then 3 else 2
      | [] => 2
    else 1
  | _ => 1

theorem invalidLen_pos (bytes : List UInt8) : 0 < invalidLen bytes := by
  unfold invalidLen
  split
  · split_ifs
    · split
      · split_ifs <;> omega
      · omega
    · omega
  · omega

def lossyChars : List UInt8 → List Char
  | [] => []
  | b :: bytes =>
    match (b :: bytes).toByteArray.utf8DecodeChar? 0 with
    | some c => c :: lossyChars ((b :: bytes).drop c.utf8Size)
    | none => Char.ofNat 0xFFFD :: lossyChars ((b :: bytes).drop (invalidLen (b :: bytes)))
termination_by bytes => bytes.length
decreasing_by
  · have := c.utf8Size_pos
    simp only [List.length_drop, List.length_cons]
    omega
  · have := invalidLen_pos (b :: bytes)
    simp only [List.length_drop, List.length_cons]
    omega

def lossy (bytes : List UInt8) : String := String.ofList (lossyChars bytes)

theorem lossyChars_encode_append (c : Char) (bytes : List UInt8) :
    lossyChars (String.utf8EncodeChar c ++ bytes) = c :: lossyChars bytes := by
  have hdec : (String.utf8EncodeChar c ++ bytes).toByteArray.utf8DecodeChar? 0 = some c := by
    rw [List.toByteArray_append]
    exact ByteArray.utf8DecodeChar?_utf8EncodeChar_append
  have hdrop : (String.utf8EncodeChar c ++ bytes).drop c.utf8Size = bytes := by
    rw [← String.length_utf8EncodeChar, List.drop_left]
  rcases h : String.utf8EncodeChar c ++ bytes with _ | ⟨b, rest⟩
  · have := congrArg List.length h
    have := c.utf8Size_pos
    simp only [List.length_append, String.length_utf8EncodeChar, List.length_nil] at *
    omega
  · rw [h] at hdec hdrop
    rw [lossyChars]
    simp only [hdec, hdrop]

theorem lossyChars_flatMap (cs : List Char) :
    lossyChars (cs.flatMap String.utf8EncodeChar) = cs := by
  induction cs with
  | nil => rw [List.flatMap_nil, lossyChars]
  | cons c cs ih => rw [List.flatMap_cons, lossyChars_encode_append, ih]

theorem lossy_utf8Bytes (s : String) : lossy (utf8Bytes s) = s := by
  rw [lossy, utf8Bytes, lossyChars_flatMap, String.ofList_toList]

/-- A lone lead byte, a cut character and an encoded surrogate. -/
example : invalidLen [0xFF] = 1 ∧ invalidLen [0xE2, 0x82] = 2
    ∧ invalidLen [0xED, 0xA0, 0x80] = 1 := by
  decide

end Utf8Lossy
