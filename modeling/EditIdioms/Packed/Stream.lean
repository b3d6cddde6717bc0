import EditIdioms.Packed.Checksum
import EditIdioms.Packed.Header

/-!
# Unpacking streams

A stream is a sequence of frames, one at least, and its content is that of all its frames. What is
read from a stream that fails half way depends on how far the content has been handed on by then.
Content is handed on in portions of a fixed size and at the end of a frame or of the stream; what
has been made but not handed on when a frame fails is lost.

A frame that tells the size of its content, when that is no more than a portion, and that is there
to its end is unpacked at once. Any other frame is unpacked block by block into a ring of memory,
where a block has the room up to the end of the ring, and the next one starts over when a block of
the largest size would not fit. Old content can be looked back at until the ring is gone round
again.

## Main definitions

* `Ring` — the memory for the content of a frame.
* `unpackAtOnce`, `unpackBlocks` — a frame as a whole, and block by block.
* `handedOn` — what is handed on of pieces of content before a fault.
* `unpack` — the content of a stream, and why it ends too early if it does.
-/

set_option autoImplicit false

namespace EditIdioms.Packed

/-- How many bytes are handed on at a time. -/
def portion : Nat := 8192

/-- The largest window that is accepted. -/
def windowLimit : Nat := 128 * 1024 * 1024 + 1

/-- The memory for the content of a frame: its size, where the next byte goes, and which bytes of
the content were the first ones of this round and of the round before. -/
structure Ring where
  size : Nat
  position : Nat := 0
  roundStart : Nat := 0
  horizon : Nat := 0

/-- The room in a ring. -/
def Ring.room (r : Ring) : Nat := r.size - r.position

/-- The ring after `count` more bytes, with which there are `total` in all. A ring that holds the
whole content is never left. -/
def Ring.advance (r : Ring) (h : FrameHeader) (count total : Nat) : Ring :=
  let position := r.position + count
  if count = 0 then r
  else if h.contentSize?.all (r.size < ·) && r.size < position + h.blockLimit then
    { r with position := 0, horizon := r.roundStart, roundStart := total }
  else { r with position }

/-- The sizes of the memory that is kept for the frames of a stream. -/
structure Reserve where
  block : Nat := 0
  ring : Nat := 0

/-- Memory of the given sizes at least; it is only replaced when it is too small. -/
def Reserve.fit (r : Reserve) (block ring : Nat) : Reserve :=
  if r.block < block ∨ r.ring < ring then { block, ring } else r

/-- The memory for a frame: a block, and a ring for the window and two more blocks, or for the whole
content if that takes less. -/
def Reserve.fitFrame (r : Reserve) (h : FrameHeader) : Reserve :=
  let ring := max h.window 1024 + 2 * h.blockLimit + 64
  r.fit (max h.blockLimit 4) ((h.contentSize?.map (min · ring)).getD ring)

/-- The memory for bytes to be skipped. -/
def Reserve.fitSkipped (r : Reserve) (size : Nat) : Reserve := r.fit 4 (min size 1088)

/-- The content of a frame so far, and what is known for what comes next. -/
structure Progress where
  content : Array UInt8 := #[]
  memory : Memory := {}
  ring : Ring

/-- The content with that of one more block, `room` being left for it. -/
def addBlock (h : FrameHeader) (room horizon : Nat) (tight : Bool) (m : Memory)
    (content : Array UInt8) (b : Block) : Except StreamFault (Array UInt8 × Memory) :=
  match b.kind with
  | .stored =>
    if room < b.body.length then throw .noRoom else return (b.body.foldl Array.push content, m)
  | .repeated =>
    if room < b.size then throw .noRoom
    else return ((b.body.flatMap (List.replicate b.size)).foldl Array.push content, m)
  | .packed => unpackBlock { blockLimit := h.blockLimit, room } tight horizon m content b.body
  | .reserved => throw .corrupted

/-- Whether `size` bytes are not what the header tells. -/
def FrameHeader.contradicts (h : FrameHeader) (size : Nat) : Bool := h.contentSize?.any (· ≠ size)

/-- Adds a block to the content. Of a stored block the bytes that are there are taken, another one
is taken as a whole or not at all; a block without a body adds nothing and proves nothing. -/
def Progress.add (p : Progress) (h : FrameHeader) (b : Block) : Except StreamFault Progress := do
  if b.kind = .reserved ∨ h.blockLimit < b.bodySize then throw .corrupted
  if b.bodySize = 0 ∨ !b.isWhole ∧ b.kind ≠ .stored then return p
  let before := p.content.size
  let (content, memory) ← addBlock h p.ring.room p.ring.horizon false p.memory p.content b
  let count := content.size - before
  if h.blockLimit < count then throw .corrupted
  if b.isLast ∧ b.isWhole ∧ h.contradicts content.size then throw .corrupted
  let ring := p.ring.advance h count content.size
  return { content, memory, ring }

/-- Unpacks blocks one by one: the pieces of content that they give, and the progress at the end. -/
def unpackBlocks (h : FrameHeader) : Progress → List Block →
    List (List UInt8) × Except StreamFault Progress
  | p, [] => ([], .ok p)
  | p, b :: rest =>
    let before := p.content.size
    match p.add h b with
    | .error fault => ([], .error fault)
    | .ok p =>
      let piece := (p.content.extract before p.content.size).toList
      let (pieces, ending) := unpackBlocks h p rest
      (piece :: pieces, ending)

/-- What is handed on of pieces of content before a fault, when the bytes `held` are waiting: a
piece with which there is more than a portion takes with it what is waiting. -/
def handedOn : (held : List UInt8) → (pieces : List (List UInt8)) → List UInt8
  | _, [] => []
  | held, piece :: rest =>
    if portion < held.length + piece.length then held ++ piece ++ handedOn [] rest
    else handedOn (held ++ piece) rest

/-- What stands behind the checksum of a content, if there is one. -/
def checkContent (h : FrameHeader) (content : List UInt8) (b : List UInt8) :
    Except StreamFault (List UInt8) :=
  if h.hasChecksum then
    if b.length < 4 then throw .incomplete
    else if wordOfBytes (b.take 4) ≠ (checksum content).toNat % 0x100000000 then
      throw .wrongChecksum
    else return b.drop 4
  else return b

/-- Unpacks the blocks of a frame at once, which may give a portion at most. -/
def unpackAtOnce (h : FrameHeader) : Array UInt8 → Memory → List Block →
    Except StreamFault (Array UInt8)
  | content, _, [] => return content
  | content, m, b :: rest => do
    if b.kind = .packed ∧ h.blockLimit < b.size then throw .wrongSize
    let (content, m) ← addBlock h (portion - content.size) 0 true m content b
    unpackAtOnce h content m rest

/-- More content in front. -/
def Unpacked.after (front : List UInt8) (u : Unpacked) : Unpacked :=
  { u with content := front ++ u.content }

/-- The content of one frame, and what stands behind it or why it ends too early. -/
structure UnpackedFrame where
  content : List UInt8
  ending : Except StreamFault (List UInt8)

/-- Whether a frame is unpacked at once, when `rest?` stands behind the last of its blocks. -/
def FrameHeader.isSmall (h : FrameHeader) (rest? : Option (List UInt8)) : Bool :=
  h.contentSize?.any (· ≤ portion) && rest?.any fun rest => !h.hasChecksum || 4 ≤ rest.length

/-- Unpacks a small frame from its blocks. -/
def unpackSmall (h : FrameHeader) (blocks : List Block) (rest : List UInt8) :
    Except StreamFault UnpackedFrame := do
  if h.dictionary ≠ 0 then throw .dictionaryWanted
  let content ← unpackAtOnce h #[] {} blocks
  if h.contradicts content.size then throw .corrupted
  let rest ← checkContent h content.toList rest
  return { content := content.toList, ending := .ok rest }

/-- Unpacks a frame from its blocks, one by one. -/
def unpackLarge (reserve : Reserve) (h : FrameHeader) (blocks : List Block)
    (rest? : Option (List UInt8)) : UnpackedFrame :=
  let (pieces, ending) := unpackBlocks h { ring := { size := reserve.ring } } blocks
  let content := pieces.flatten
  let ending : Except StreamFault (List UInt8) := do
    let _ ← ending
    match rest? with
    | none => throw .incomplete
    | some rest => checkContent h content rest
  match ending with
  | .ok _ | .error .incomplete => { content, ending }
  | .error _ => { content := handedOn [] pieces, ending }

/-- Unpacks a stream with the memory that earlier frames have left. Every frame takes bytes, so
`bound` must be larger than their number. -/
def unpackWithin : (bound : Nat) → Reserve → List UInt8 → Unpacked
  | 0, _, _ => ⟨[], some .incomplete⟩
  | bound + 1, reserve, b =>
    match FrameStart.read b with
    | .error fault => ⟨[], some fault⟩
    | .ok (.skipped size, rest) =>
      if rest.length < size then ⟨[], some .incomplete⟩
      else if rest.length = size then ⟨[], none⟩
      else unpackWithin bound (reserve.fitSkipped size) (rest.drop size)
    | .ok (.content h, rest) =>
      let (blocks, rest?) := splitBlocks rest.length rest
      let goOn (reserve : Reserve) (frame : UnpackedFrame) : Unpacked :=
        match frame.ending with
        | .error fault => ⟨frame.content, some fault⟩
        | .ok rest =>
          if rest.isEmpty then ⟨frame.content, none⟩
          else (unpackWithin bound reserve rest).after frame.content
      if h.isSmall rest? then
        match unpackSmall h blocks (rest?.getD []) with
        | .error fault => ⟨[], some fault⟩
        | .ok frame => goOn reserve frame
      else if h.dictionary ≠ 0 then ⟨[], some .dictionaryWanted⟩
      else if windowLimit < h.window then ⟨[], some .windowTooLarge⟩
      else
        let reserve := reserve.fitFrame h
        goOn reserve (unpackLarge reserve h blocks rest?)

/-- Unpacks a stream. -/
def unpack (stream : List UInt8) : Unpacked := unpackWithin (stream.length + 1) {} stream

end EditIdioms.Packed
