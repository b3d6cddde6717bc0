/-!
# Text as bytes

## Main definitions

* `Text.bytes` — the UTF-8 bytes of a text.
* `Text.ofBytes?` — the text of UTF-8 bytes, unless they are ill-formed.

## Main results

* `Text.ofBytes?_bytes` — reading the bytes of a text gives the text.
* `Text.bytes_of_ofBytes?` — only the bytes of a text give it.
-/

set_option autoImplicit false

namespace EditIdioms.Text

/-- The UTF-8 bytes of a text. -/
def bytes (s : String) : List UInt8 := s.toByteArray.data.toList

/-- The text with the given UTF-8 bytes. -/
def ofBytes? (b : List UInt8) : Option String := String.fromUTF8? ⟨b.toArray⟩

theorem ofBytes?_bytes (s : String) : ofBytes? (bytes s) = some s := by
  have h : (⟨(bytes s).toArray⟩ : ByteArray) = s.toByteArray := by simp [bytes]
  simp [ofBytes?, String.fromUTF8?, h, s.isValidUTF8, String.fromUTF8]

theorem bytes_of_ofBytes? {b : List UInt8} {s : String} (h : ofBytes? b = some s) :
    bytes s = b := by
  simp only [ofBytes?, String.fromUTF8?] at h
  split at h
  · simp only [Option.some.injEq] at h
    subst h
    simp [bytes, String.fromUTF8]
  · simp at h

end EditIdioms.Text
