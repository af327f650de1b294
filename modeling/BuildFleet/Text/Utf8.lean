/-!
# Text — UTF-8

Strings as the bytes of their UTF-8 form.

* `decode?_encode`: the bytes of a string decode to that string.
* `encode_of_decode?`: bytes that decode to a string are the bytes of that string.

So decoding is the partial inverse of encoding, and bytes that are no string's form decode to
nothing.
-/

namespace BuildFleet.Text.Utf8

/-- The UTF-8 form of a string. -/
def encode (s : String) : List UInt8 :=
  s.toByteArray.data.toList

/-- The string of which these bytes are the UTF-8 form, if there is one. -/
def decode? (bytes : List UInt8) : Option String :=
  String.fromUTF8? bytes.toByteArray

/-- The number of bytes, from `start` on, up to the first that continues no character. -/
def validFrom (bytes : ByteArray) (start : Nat) : Nat :=
  match _h : bytes.utf8DecodeChar? start with
  | some c => c.utf8Size + validFrom bytes (start + c.utf8Size)
  | none => 0
termination_by bytes.size - start
decreasing_by
  have hlt : start < bytes.size := ByteArray.lt_size_of_isSome_utf8DecodeChar? (by simp [_h])
  have hpos := c.utf8Size_pos
  omega

/-- The length of the longest beginning of the bytes that is the form of a string. -/
def validLength (bytes : List UInt8) : Nat :=
  validFrom bytes.toByteArray 0

theorem toByteArray_encode (s : String) : (encode s).toByteArray = s.toByteArray := by
  apply ByteArray.ext
  simp [encode]

theorem decode?_encode (s : String) : decode? (encode s) = some s := by
  simp [decode?, toByteArray_encode, String.fromUTF8?, String.fromUTF8, s.isValidUTF8]

theorem encode_of_decode? {bytes : List UInt8} {s : String} (h : decode? bytes = some s) :
    encode s = bytes := by
  unfold decode? String.fromUTF8? at h
  split at h
  · obtain rfl := Option.some.inj h
    simp [encode, String.fromUTF8]
  · cases h

theorem decode?_eq_some_iff {bytes : List UInt8} {s : String} :
    decode? bytes = some s ↔ encode s = bytes :=
  ⟨encode_of_decode?, fun h => h ▸ decode?_encode s⟩

end BuildFleet.Text.Utf8
