/-!
# Faults of packed streams

## Main definitions

* `StreamFault` — why a stream cannot be unpacked to its end.
* `StreamFault.message` — the wording of a fault.
-/

set_option autoImplicit false

namespace EditIdioms.Packed

/-- Why a stream cannot be unpacked to its end. -/
inductive StreamFault where
  /-- The stream ends inside a frame. -/
  | incomplete
  /-- There is no frame where one must start. -/
  | unknownFrame
  /-- A frame is of a version that is no longer read. -/
  | oldFrame
  /-- The header of a frame has a bit set that has no meaning. -/
  | unknownParameter
  /-- A frame looks back over more bytes than are kept. -/
  | windowTooLarge
  /-- A frame needs a dictionary. -/
  | dictionaryWanted
  /-- The bytes are not those of a frame. -/
  | corrupted
  /-- Literals are spelt in a code that no block has given. -/
  | codeWanted
  /-- The header of literals asks for four streams where there are too few literals. -/
  | literalsHeader
  /-- A part of a block is not as long as it must be. -/
  | wrongSize
  /-- A frame has more content than it may have. -/
  | noRoom
  /-- The content of a frame does not agree with its checksum. -/
  | wrongChecksum
deriving DecidableEq

/-- The wording of a fault. -/
def StreamFault.message : StreamFault → String
  | incomplete => "incomplete frame"
  | unknownFrame => "Unknown frame descriptor"
  | oldFrame => "Version not supported"
  | unknownParameter => "Unsupported frame parameter"
  | windowTooLarge => "Frame requires too much memory for decoding"
  | dictionaryWanted => "Dictionary mismatch"
  | corrupted => "Data corruption detected"
  | codeWanted => "Dictionary is corrupted"
  | literalsHeader => "Header of Literals' block doesn't respect format specification"
  | wrongSize => "Src size is incorrect"
  | noRoom => "Destination buffer is too small"
  | wrongChecksum => "Restored data doesn't match checksum"

end EditIdioms.Packed
