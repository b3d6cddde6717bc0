import EditIdioms.Packed.Frame
import EditIdioms.Packed.Stream
import EditIdioms.Proofs.Numeric.Words

set_option relaxedAutoImplicit false
set_option autoImplicit false

/-!
# Frames with stored blocks

A frame that is written here stores its content in blocks as it is. Unpacking it gives the content
back: the blocks are found one by one, and every one of them has room in the ring of memory, since
the ring starts over as soon as a block of the largest size would not fit.

## Main definitions

* `storedHeaderFields` — what the header of a written frame says.
* `storedBlockList` — the blocks of a written frame.
* `Ring.Fits` — a block of the largest size has room.

## Main results

* `splitBlocks_storedBlocks` — the blocks are found.
* `unpackBlocks_storedBlockList` — the blocks are unpacked.
* `unpack_frame` — unpacking gives the content back.
-/

namespace EditIdioms.Packed

/-- What the header of a frame says that is written here. -/
def storedHeaderFields : FrameHeader where
  window := blockLimit
  contentSize? := none
  dictionary := 0
  hasChecksum := false

/-- The blocks of a frame that is written here. -/
def storedBlockList (content : List UInt8) : List Block :=
  if content.length ≤ blockLimit then
    [{ kind := .stored, isLast := true, size := content.length, body := content }]
  else
    { kind := .stored, isLast := false, size := blockLimit, body := content.take blockLimit } ::
      storedBlockList (content.drop blockLimit)
termination_by content.length
decreasing_by simp [List.length_drop]; unfold blockLimit at *; omega

/-! ## Finding the blocks -/

/-- A block is told by its header and the bytes behind it.

**Proof sketch.** The header is one number: a bit for the last block, two bits for the kind, which
are zero for a stored block, and the size behind them. It fits three bytes, as the size is within
the limit, so it is read back from them, and the three parts are what division by two and by eight
gives. -/
lemma ofHeader_storedHeader (isLast : Bool) {body : List UInt8} (h : body.length ≤ blockLimit)
    (rest : List UInt8) :
    Block.ofHeader (wordOfBytes (storedHeader isLast body.length)) (body ++ rest) =
      { kind := .stored, isLast, size := body.length, body } := by
  have hword : wordOfBytes (storedHeader isLast body.length) =
      (if isLast then 1 else 0) + 8 * body.length := by
    apply wordOfBytes_wordBytes
    unfold blockLimit at h
    change _ < 16777216
    split <;> omega
  rw [hword]
  unfold Block.ofHeader
  cases isLast with
  | true =>
    have hkind : (1 + 8 * body.length) / 2 % 4 = 0 := by omega
    have hlast : (1 + 8 * body.length) % 2 = 1 := by omega
    have hsize : (1 + 8 * body.length) / 8 = body.length := by omega
    simp [hkind, hlast, hsize, Block.bodySize]
  | false =>
    have hkind : 8 * body.length / 2 % 4 = 0 := by omega
    have hlast : 8 * body.length % 2 = 0 := by omega
    have hsize : 8 * body.length / 8 = body.length := by omega
    simp [hkind, hlast, hsize, Block.bodySize]

/-- A stored block in front is found. -/
lemma splitBlocks_stored (bound : ℕ) (isLast : Bool) {body : List UInt8}
    (h : body.length ≤ blockLimit) (rest : List UInt8) :
    splitBlocks (bound + 1) (storedHeader isLast body.length ++ body ++ rest) =
      let block : Block := { kind := .stored, isLast, size := body.length, body }
      if isLast then ([block], some rest)
      else (block :: (splitBlocks bound rest).1, (splitBlocks bound rest).2) := by
  have hblock := ofHeader_storedHeader isLast h rest
  rw [List.append_assoc]
  change (let block := Block.ofHeader (wordOfBytes (storedHeader isLast body.length)) (body ++ rest)
    if block.kind = .reserved ∨ !block.isWhole then ([block], none)
    else
      let rest := (body ++ rest).drop block.bodySize
      if block.isLast then ([block], some rest)
      else (block :: (splitBlocks bound rest).1, (splitBlocks bound rest).2)) = _
  rw [hblock]
  simp [Block.isWhole, Block.bodySize]

/-- **The blocks of a written frame are found**, and nothing is behind them.

**Proof sketch.** Induction on the blocks. Content that fits one block is a last block and nothing
is behind it. Longer content is a full block, which is not the last one, and the blocks of what is
left; there is less of it, so the bound is not reached there either. -/
lemma splitBlocks_storedBlocks (content : List UInt8) {bound : ℕ}
    (h : content.length < bound) :
    splitBlocks bound (storedBlocks content) = (storedBlockList content, some []) := by
  induction content using storedBlocks.induct generalizing bound with
  | case1 content hle =>
    obtain ⟨bound, rfl⟩ := Nat.exists_eq_succ_of_ne_zero (Nat.ne_zero_of_lt h)
    have hfound := splitBlocks_stored bound true hle []
    rw [List.append_nil] at hfound
    rw [storedBlocks, if_pos hle, storedBlockList, if_pos hle, hfound]
    rfl
  | case2 content hle ih =>
    obtain ⟨bound, rfl⟩ := Nat.exists_eq_succ_of_ne_zero (Nat.ne_zero_of_lt h)
    have hlength : (content.take blockLimit).length = blockLimit :=
      List.length_take_of_le (Nat.le_of_not_le hle)
    have hfound := splitBlocks_stored bound false (Nat.le_of_eq hlength)
      (storedBlocks (content.drop blockLimit))
    rw [hlength] at hfound
    have hdrop : (content.drop blockLimit).length < bound := by
      rw [List.length_drop]
      unfold blockLimit at *
      omega
    rw [storedBlocks, if_neg hle, storedBlockList, if_neg hle, hfound, ih hdrop]
    rfl

/-! ## Unpacking the blocks -/

/-- A block of the largest size has room in the ring, also when the ring starts over. -/
structure Ring.Fits (r : Ring) : Prop where
  has_room : r.position + blockLimit ≤ r.size

/-- There is still room after more bytes. -/
lemma Ring.Fits.advance {r : Ring} (h : r.Fits) (count total : ℕ) :
    (r.advance storedHeaderFields count total).Fits := by
  have hsize : blockLimit ≤ r.size := Nat.le_trans (Nat.le_add_left ..) h.has_room
  unfold Ring.advance
  dsimp only
  split
  · exact h
  · split
    · exact ⟨by simpa using hsize⟩
    · rename_i hgo
      exact ⟨by simpa [storedHeaderFields, FrameHeader.blockLimit] using hgo⟩

/-- A stored block is added as it is.

**Proof sketch.** An empty block changes nothing. Otherwise the ring has room for the block, and its
bytes are appended to the content; what has been added is then as long as the block, which is within
the limit, and the header states no size that it could contradict. The ring is advanced by as much
and still fits. -/
lemma add_stored {p : Progress} (h : p.ring.Fits) (isLast : Bool) {body : List UInt8}
    (hbody : body.length ≤ blockLimit) :
    ∃ p', p.add storedHeaderFields { kind := .stored, isLast, size := body.length, body } = .ok p' ∧
      p'.content.toList = p.content.toList ++ body ∧ p'.ring.Fits := by
  by_cases hempty : body = []
  · subst hempty
    exact ⟨p, rfl, by simp, h⟩
  have hroom : ¬ p.ring.room < body.length := by
    have := h.has_room
    unfold Ring.room
    omega
  have hlimit : storedHeaderFields.blockLimit = blockLimit := Nat.min_self _
  have hadded : addBlock storedHeaderFields p.ring.room p.ring.horizon false p.memory p.content
      { kind := .stored, isLast, size := body.length, body } =
        .ok (body.foldl Array.push p.content, p.memory) := by
    unfold addBlock
    dsimp only
    rw [if_neg hroom]
    rfl
  have hcontent : (body.foldl Array.push p.content).toList = p.content.toList ++ body := by
    simp
  have hcount : (body.foldl Array.push p.content).size - p.content.size = body.length := by
    rw [← Array.length_toList, hcontent, List.length_append, Array.length_toList]
    omega
  have hcontradicts (size : ℕ) : storedHeaderFields.contradicts size = false := rfl
  refine ⟨{
    content := body.foldl Array.push p.content
    memory := p.memory
    ring := p.ring.advance storedHeaderFields body.length (body.foldl Array.push p.content).size },
    ?_, hcontent, h.advance _ _⟩
  have hsmall : ¬ blockLimit < body.length := Nat.not_lt.mpr hbody
  unfold Progress.add
  simp only [Block.bodySize, hadded, hlimit, hcontradicts, bind, Except.bind, hcount]
  simp [hsmall, hempty]
  rfl

/-- Unpacking goes on after a block that was added. -/
lemma unpackBlocks_cons {h : FrameHeader} {p p' : Progress} {b : Block} {body : List UInt8}
    (hadd : p.add h b = .ok p') (hcontent : p'.content.toList = p.content.toList ++ body)
    (rest : List Block) :
    unpackBlocks h p (b :: rest) =
      (body :: (unpackBlocks h p' rest).1, (unpackBlocks h p' rest).2) := by
  have hpiece : (p'.content.extract p.content.size p'.content.size).toList = body := by
    rw [Array.toList_extract, List.extract_eq_take_drop, ← Array.length_toList,
      ← Array.length_toList, hcontent, List.drop_left, List.length_append, Nat.add_sub_cancel_left,
      List.take_length]
  rw [unpackBlocks]
  simp only [hadd, hpiece]

/-- **The blocks of a written frame are unpacked** to its content.

**Proof sketch.** Induction on the blocks. Each one is added as it is and leaves a ring that fits
(`add_stored`), so it gives its own bytes, and these are in a row the content that was cut into
blocks. -/
lemma unpackBlocks_storedBlockList (content : List UInt8) {p : Progress} (h : p.ring.Fits) :
    ∃ pieces p', unpackBlocks storedHeaderFields p (storedBlockList content) = (pieces, .ok p') ∧
      pieces.flatten = content := by
  induction content using storedBlockList.induct generalizing p with
  | case1 content hle =>
    obtain ⟨p', hadd, hcontent, -⟩ := add_stored h true hle
    rw [storedBlockList, if_pos hle, unpackBlocks_cons hadd hcontent]
    exact ⟨[content], p', rfl, List.flatten_singleton⟩
  | case2 content hle ih =>
    have hlength : (content.take blockLimit).length = blockLimit :=
      List.length_take_of_le (Nat.le_of_not_le hle)
    obtain ⟨p₁, hadd, hcontent, hfits⟩ := add_stored h false (Nat.le_of_eq hlength)
    rw [hlength] at hadd
    obtain ⟨pieces, p', hunpack, hflatten⟩ := ih hfits
    rw [storedBlockList, if_neg hle, unpackBlocks_cons hadd hcontent, hunpack]
    refine ⟨content.take blockLimit :: pieces, p', rfl, ?_⟩
    rw [List.flatten_cons, hflatten, List.take_append_drop]

/-! ## Unpacking a frame -/

/-- There are more bytes than the content has. -/
lemma length_storedBlocks (content : List UInt8) :
    content.length < (storedBlocks content).length := by
  induction content using storedBlocks.induct with
  | case1 content hle =>
    rw [storedBlocks, if_pos hle]
    simp [storedHeader]
  | case2 content hle ih =>
    rw [storedBlocks, if_neg hle]
    rw [List.length_drop] at ih
    simp only [List.length_append, storedHeader, length_wordBytes, List.length_take]
    omega

/-- The start of a written frame is read.

**Proof sketch.** A frame is the magic number, the two bytes of the header and the blocks. It is
long enough for a magic number to be read, and it starts with the one of a frame. The header has one
byte behind its descriptor, which gives the size of the window. -/
lemma read_frame (content : List UInt8) :
    FrameStart.read (frame content) = .ok (.content storedHeaderFields, storedBlocks content) := by
  have hheader : FrameHeader.read (0x00 :: 0x38 :: storedBlocks content) =
      .ok (storedHeaderFields, storedBlocks content) := by
    have hlong : ¬ (0x38 :: storedBlocks content).length <
        FrameHeader.length (0x00 : UInt8).toNat := by
      have hone : FrameHeader.length (0x00 : UInt8).toNat = 1 := by decide
      rw [hone, List.length_cons]
      omega
    have hbyte : (0x38 :: storedBlocks content).take 1 = [0x38] := rfl
    have hwindow : FrameHeader.windowOfByte (wordOfBytes [0x38]) = .ok blockLimit := rfl
    unfold FrameHeader.read
    dsimp only
    rw [if_neg hlong, hbyte, hwindow]
    rfl
  have hlong : ¬ (frame content).length < 5 := by
    have := length_storedBlocks content
    simp only [frame, List.length_append, magic, List.length_cons, List.length_nil]
    omega
  have hmagic : (frame content).take 4 = magic := rfl
  have hdrop : (frame content).drop 4 = 0x00 :: 0x38 :: storedBlocks content := rfl
  unfold FrameStart.read
  dsimp only
  rw [if_neg hlong, if_pos hmagic, hdrop, hheader]
  rfl

/-- A written frame is unpacked block by block. -/
lemma unpackLarge_stored (content : List UInt8) (reserve : Reserve)
    (hfits : Ring.Fits { size := reserve.ring }) :
    unpackLarge reserve storedHeaderFields (storedBlockList content) (some []) =
      { content, ending := .ok [] } := by
  obtain ⟨pieces, p', hunpack, rfl⟩ :=
    unpackBlocks_storedBlockList content (p := { ring := { size := reserve.ring } }) hfits
  unfold unpackLarge
  rw [hunpack]
  rfl

/-- **Unpacking a written frame** gives its content back.

**Proof sketch.** The start of the frame is read (`read_frame`), its blocks are found
(`splitBlocks_storedBlocks`), and they are unpacked to the content. The window of the frame is
within the limit, and nothing is behind the last block. -/
lemma unpack_frame (content : List UInt8) : unpack (frame content) = ⟨content, none⟩ := by
  have hsplit := splitBlocks_storedBlocks content (length_storedBlocks content)
  have hframe := unpackLarge_stored content (Reserve.fitFrame {} storedHeaderFields) ⟨by decide⟩
  have hwindow : ¬ windowLimit < storedHeaderFields.window := by decide
  unfold unpack unpackWithin
  rw [read_frame]
  dsimp only
  rw [hsplit]
  dsimp only
  rw [hframe, if_neg (by decide), if_neg (by decide), if_neg hwindow]
  rfl

end EditIdioms.Packed
