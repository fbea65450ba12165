/-!
# UTF-8 from the front

Bytes that come from outside need not be sound to their end.  `Utf8.soundPrefix` reads the
characters up to the first byte that belongs to none.
-/

namespace Logbook.Utf8

/-- The characters of the bytes from an index on, up to the first that belongs to no character;
`done` holds those that are read already, last first. -/
def charsFrom (bytes : ByteArray) (start : Nat) (done : List Char) : List Char :=
  if start < bytes.size then
    match bytes.utf8DecodeChar? start with
    | some c => charsFrom bytes (start + c.utf8Size) (c :: done)
    | none => done.reverse
  else
    done.reverse
termination_by bytes.size - start
decreasing_by
  have := c.utf8Size_pos
  omega

/-- The characters of the longest sound beginning of bytes. -/
def soundPrefix (bytes : ByteArray) : List Char := charsFrom bytes 0 []

/-- The characters of sound bytes are all read, whatever stands in front of them. -/
theorem charsFrom_append (cs : List Char) (bytes : ByteArray) (done : List Char) :
    charsFrom (bytes ++ cs.utf8Encode) bytes.size done = done.reverse ++ cs := by
  induction cs generalizing bytes done with
  | nil => rw [charsFrom]; simp
  | cons c cs ih =>
    have hsize : [c].utf8Encode.size = c.utf8Size := by simp [List.utf8Encode_singleton]
    have hpos := c.utf8Size_pos
    have hdecode : (bytes ++ (c :: cs).utf8Encode).utf8DecodeChar? bytes.size = some c := by
      rw [ByteArray.utf8DecodeChar?_eq_utf8DecodeChar?_extract,
        ByteArray.extract_append_eq_right rfl ByteArray.size_append]
      exact List.utf8DecodeChar?_utf8Encode_cons
    have hlt : bytes.size < (bytes ++ (c :: cs).utf8Encode).size := by
      rw [ByteArray.size_append, List.utf8Encode_cons, ByteArray.size_append]
      omega
    rw [charsFrom, if_pos hlt, hdecode]
    simp only
    rw [List.utf8Encode_cons, ← ByteArray.append_assoc, ← hsize, ← ByteArray.size_append, ih,
      List.reverse_cons, List.append_assoc, List.singleton_append]

/-- A text is read back from its bytes. -/
theorem soundPrefix_toUTF8 (text : String) : soundPrefix text.toUTF8 = text.toList := by
  have h := charsFrom_append text.toList .empty []
  rwa [ByteArray.empty_append, String.utf8Encode_toList] at h

end Logbook.Utf8
