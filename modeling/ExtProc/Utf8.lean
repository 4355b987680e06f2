import Mathlib.Tactic.Common

/-! UTF-8 decoding as the standard library does it: `std::str::from_utf8`, and
`String::from_utf8_lossy`, which writes U+FFFD for each maximal ill-formed prefix. -/
namespace Utf8

abbrev Bytes := List UInt8

def asBytes (s : String) : Bytes := s.toByteArray.data.toList

def fromUtf8 (bytes : Bytes) : Option String := String.fromUTF8? bytes.toByteArray

def isContinuation (b : UInt8) : Bool := 0x80 ≤ b && b ≤ 0xBF

/-- The second bytes that may follow a first byte of a three or four byte character. -/
def secondByteOk (b c : UInt8) : Bool :=
  if b = 0xE0 then 0xA0 ≤ c && c ≤ 0xBF
  else if b = 0xED then 0x80 ≤ c && c ≤ 0x9F
  else if b = 0xF0 then 0x90 ≤ c && c ≤ 0xBF
  else if b = 0xF4 then 0x80 ≤ c && c ≤ 0x8F
  else 0xE1 ≤ b && b ≤ 0xF3 && isContinuation c

/-- How many bytes one U+FFFD stands for when no character starts at `b`. -/
def invalidLength (b : UInt8) : Bytes → Nat
  | [] => 1
  | c :: rest =>
    if secondByteOk b c then
      match rest with
      | [] => 2
      | d :: _ => if 0xF0 ≤ b ∧ isContinuation d then 3 else 2
    else 1

/-- The characters of `fromUtf8Lossy`; the fuel is the number of bytes left. -/
def lossyChars : Nat → Bytes → List Char
  | 0, _ => []
  | _, [] => []
  | fuel + 1, b :: rest =>
    match (b :: rest).toByteArray.utf8DecodeChar? 0 with
    | some c => c :: lossyChars fuel ((b :: rest).drop c.utf8Size)
    | none => '\uFFFD' :: lossyChars fuel ((b :: rest).drop (invalidLength b rest))

def fromUtf8Lossy (bytes : Bytes) : String := String.ofList (lossyChars bytes.length bytes)

theorem lossyChars_encode (cs : List Char) {fuel : Nat}
    (h : (cs.flatMap String.utf8EncodeChar).length ≤ fuel) :
    lossyChars fuel (cs.flatMap String.utf8EncodeChar) = cs := by
  induction cs generalizing fuel with
  | nil => cases fuel <;> rfl
  | cons c cs ih =>
    have hlen : (String.utf8EncodeChar c).length = c.utf8Size := String.length_utf8EncodeChar c
    have hpos := c.utf8Size_pos
    simp only [List.flatMap_cons, List.length_append] at h
    cases fuel with
    | zero => omega
    | succ fuel =>
      have hdecode : (String.utf8EncodeChar c ++
          cs.flatMap String.utf8EncodeChar).toByteArray.utf8DecodeChar? 0 = some c := by
        simpa only [List.toByteArray_append] using
          ByteArray.utf8DecodeChar?_utf8EncodeChar_append
      have hdrop : (String.utf8EncodeChar c ++ cs.flatMap String.utf8EncodeChar).drop c.utf8Size
          = cs.flatMap String.utf8EncodeChar := by
        have hleft : (String.utf8EncodeChar c ++ cs.flatMap String.utf8EncodeChar).drop
            (String.utf8EncodeChar c).length = _ := List.drop_left
        simpa only [hlen] using hleft
      simp only [List.flatMap_cons]
      cases hbytes : String.utf8EncodeChar c ++ cs.flatMap String.utf8EncodeChar with
      | nil =>
        have := congrArg List.length hbytes
        simp only [List.length_append, List.length_nil] at this
        omega
      | cons b rest =>
        have hrest : lossyChars fuel (cs.flatMap String.utf8EncodeChar) = cs := ih (by omega)
        simp only [hbytes] at hdecode hdrop
        simp only [lossyChars, hdecode, hdrop, hrest]

theorem asBytes_eq_flatMap (s : String) : asBytes s = s.toList.flatMap String.utf8EncodeChar := by
  conv_lhs => rw [← String.ofList_toList (s := s)]
  rw [asBytes, String.toByteArray_ofList, List.utf8Encode, List.toList_data_toByteArray]

theorem eq_asBytes_of_fromUtf8 {bytes : Bytes} {s : String} (h : fromUtf8 bytes = some s) :
    bytes = asBytes s := by
  simp only [fromUtf8, String.fromUTF8?] at h
  split at h
  · rw [← Option.some.inj h]
    exact List.toList_data_toByteArray.symm
  · cases h

theorem fromUtf8_asBytes (s : String) : fromUtf8 (asBytes s) = some s := by
  have hb : (asBytes s).toByteArray = s.toByteArray := by
    apply ByteArray.ext
    apply Array.toList_inj.mp
    exact List.toList_data_toByteArray
  rw [fromUtf8, hb, String.fromUTF8?, dif_pos s.isValidUTF8]
  rfl

/-- On valid UTF-8 the lossy decoding loses nothing. -/
theorem fromUtf8Lossy_eq {bytes : Bytes} {s : String} (h : fromUtf8 bytes = some s) :
    fromUtf8Lossy bytes = s := by
  rw [fromUtf8Lossy, eq_asBytes_of_fromUtf8 h, asBytes_eq_flatMap,
    lossyChars_encode _ (Nat.le_refl _), String.ofList_toList]

end Utf8
