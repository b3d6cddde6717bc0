import EditIdioms.Proofs.Packed.Stored

set_option relaxedAutoImplicit false
set_option autoImplicit false

/-!
# The laws of a codec

The codec that stores keeps both laws: it unpacks what it has packed, and nothing where no frame
starts. That no frame starts can often be told from the first two bytes.

## Main results

* `not_startsFrame` — bytes with a zero in the second place start no frame.
* `storing_inverts`, `storing_refusesUnframed` — the laws.
-/

namespace EditIdioms.Packed

/-- Where nothing is, or where a zero stands in the second place, no frame starts. -/
lemma not_startsFrame {stream : List UInt8}
    (h : stream = [] ∨ ∃ first rest, stream = first :: 0 :: rest) : ¬ StartsFrame stream := by
  rintro (hmagic | hskip | hold)
  · rcases h with rfl | ⟨first, rest, rfl⟩
    · cases hmagic
    · simp [magic] at hmagic
  · rcases h with rfl | ⟨first, rest, rfl⟩
    · cases hskip
    · simp [isSkipMagic] at hskip
  · rcases h with rfl | ⟨first, rest, rfl⟩
    · cases hold
    · simp [isOldMagic, magic] at hold

/-- What is packed is unpacked: a frame of stored blocks gives its content back. -/
lemma storing_inverts : storing.Inverts := fun _ content => unpack_frame content

/-- Where no frame starts nothing is unpacked, since the first four bytes are looked at first. -/
lemma storing_refusesUnframed : storing.RefusesUnframed := by
  intro stream h
  have hmagic : stream.take 4 ≠ magic := fun hmagic => h (.inl hmagic)
  have hskip : ¬ isSkipMagic (stream.take 4) = true := fun hskip => h (.inr (.inl hskip))
  have hread : ∃ fault, FrameStart.read stream = .error fault := by
    unfold FrameStart.read
    by_cases hshort : stream.length < 5
    · rw [if_pos hshort]
      exact ⟨_, rfl⟩
    · rw [if_neg hshort, if_neg hmagic, if_neg hskip]
      exact ⟨_, rfl⟩
  obtain ⟨fault, hread⟩ := hread
  change ∃ fault, unpack stream = _
  rw [unpack, unpackWithin, hread]
  exact ⟨fault, rfl⟩

end EditIdioms.Packed
