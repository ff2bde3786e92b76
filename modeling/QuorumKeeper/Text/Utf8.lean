/-!
# Text as bytes

The UTF-8 form of a text, as a list of bytes, and its reader. The reader refuses bytes that are the
form of no text: cut or overlong sequences, surrogates, and code points beyond the last.
-/

set_option autoImplicit false

namespace QuorumKeeper.Text

/-- The bytes of a text. -/
def utf8 (s : String) : List UInt8 :=
  s.toUTF8.data.toList

/-- The text with the given bytes. -/
def ofUtf8? (bytes : List UInt8) : Option String :=
  String.fromUTF8? ⟨bytes.toArray⟩

theorem ofUtf8?_utf8 (s : String) : ofUtf8? (utf8 s) = some s := by
  have h : (⟨(utf8 s).toArray⟩ : ByteArray) = s.toUTF8 := by
    simp [utf8]
  have hv : s.toUTF8.IsValidUTF8 := s.isValidUTF8
  unfold ofUtf8?
  rw [h, String.fromUTF8?, dif_pos hv]
  rfl

end QuorumKeeper.Text
