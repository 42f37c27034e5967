import Timelite.Lifting

/-!
The three metadata layouts in both directions: what the writers encode is
accepted and decoded to the same fields, and what the validators accept is the
encoding of its fields.
-/
namespace Timelite.Encodings
open ByteFile Program Codec CodecLaws Backend BackendLaws FrameLaws SegmentLaws SlotLaws Decoding Reader Lifting

section Manifests
variable {slot : Bytes} {size generation dataEnd last time tail : Nat}

/-- The values an install manifest is written with. -/
structure Installable (generation dataEnd last time tail : Nat) : Prop where
  extent : if generation = 0 then dataEnd = 160 ∧ last = 0 else 160 + generation * 116 ≤ dataEnd ∧ generation ≤ last
  capacity : dataEnd ≤ databaseCapacity
  last : last ≤ uint64Max
  time : time ≤ uint64Max
  tail : tail ≤ uint64Max

/-- An install manifest is accepted with its own fields. The first one of a pair has no time and no tail. -/
theorem install_accepted (range : Installable generation dataEnd last time tail) (fits : dataEnd ≤ size)
    (held : Holds slot 0 (encodeManifest generation dataEnd last time tail)) :
    checkManifest slot size = some (generation, dataEnd, last) ∧
      slotManifest (generation % 2) slot size = some ⟨false, generation, dataEnd, last,
        if generation = 0 then 0 else time, if generation = 0 then 0 else tail, decide (generation ≠ 0),
        ⟨generation, 160, 0, false⟩⟩ := by
  obtain ⟨extent, capacity, lasts, times, tails⟩ := range
  by_cases zero : generation = 0
  · subst zero
    rw [if_pos rfl] at extent
    obtain ⟨rfl, rfl⟩ := extent
    have read : slotManifest (0 % 2) slot size = _ := created_slot held fits
    obtain ⟨_, ⟨_, shape⟩ | ⟨g, d, l, checked, shape⟩⟩ := slot_cases read
    · exact absurd (congrArg Manifests.hasTime shape) Bool.false_ne_true
    · simp only [Manifests.mk.injEq] at shape
      obtain ⟨_, rfl, rfl, rfl, _⟩ := shape
      exact ⟨checked, read⟩
  · rw [if_neg zero] at extent
    obtain ⟨magic, generation', dataEnd', last', timed, _, checks⟩ := manifest_fields held
    obtain ⟨time', tail', marker, zeros⟩ := timed zero
    simp only [databaseCapacity, uint64Max] at capacity lasts times tails
    have a := decode64_holds generation' (by omega)
    have b := decode64_holds dataEnd' (by omega)
    have c := decode64_holds last' (by omega)
    have d := decode64_holds time' (by omega)
    have e := decode64_holds tail' (by omega)
    have f := decode32_holds marker (by omega)
    have z : (slot.drop 52).take 8 = List.replicate 8 0 := drop_take_holds zeros rfl
    have m : slot.take 8 = installMagic := take_holds magic rfl
    have checked : checkManifest slot size = some (generation, dataEnd, last) := by
      simp only [checkManifest, a, b, c, f, z, m, checks, dataStart, databaseCapacity, segmentMin]
      rw [if_neg (by simp [zero]), if_neg (by omega), if_neg zero, if_neg (by omega)]
    have parity : decode64 (slot.drop 8) % 2 = generation % 2 := by rw [a]
    have read := slot_check parity checked
    rw [d, e, f] at read
    rw [if_neg zero, if_neg zero]
    simp only [zero, ne_eq, not_false_eq_true, decide_true] at read ⊢
    exact ⟨checked, read⟩

/-- An accepted install manifest is the encoding of its fields, or the older form without time and tail. -/
theorem install_encoded (width : slot.length = 64) (accepted : checkManifest slot size = some (generation, dataEnd, last)) :
    slot = encodeManifest generation dataEnd last (decode64 (slot.drop 32)) (decode64 (slot.drop 40)) ∨
      slot = sealed (installMagic ++ encode64 generation ++ encode64 dataEnd ++ encode64 last ++ List.replicate 28 0) := by
  obtain ⟨rfl, rfl, rfl, _⟩ := check_fields accepted
  have magic := check_magic accepted
  have name : installMagic.length = 8 := rfl
  have front := holds_take 8 (m := slot) (by omega)
  rw [magic] at front
  have sums : checksum (slot.take 60) = decode32 (slot.drop 60) := by
    by_contra bad
    rw [check_unsealed bad] at accepted
    cases accepted
  have plain : (slot.drop 32).take 28 = List.replicate 28 0 → slot =
      sealed (installMagic ++ encode64 (decode64 (slot.drop 8)) ++ encode64 (decode64 (slot.drop 16)) ++
        encode64 (decode64 (slot.drop 24)) ++ List.replicate 28 0) := by
    intro zeros
    refine whole_holds (holds_sealed ?_ ?_ ?_) ?_
    · simp only [holds_append, List.length_append, encode64_length, name, Nat.zero_add]
      refine ⟨⟨⟨⟨front, holds_field64 (by omega) rfl⟩, holds_field64 (by omega) rfl⟩, holds_field64 (by omega) rfl⟩, ?_⟩
      rw [Holds, List.length_replicate]
      exact zeros
    · simp only [List.length_append, encode64_length, name, List.length_replicate, width]
      omega
    · simpa only [List.length_append, encode64_length, name, List.length_replicate] using sums
    · simp only [sealed_length, List.length_append, encode64_length, name, List.length_replicate, width]
  by_cases zeros : (slot.drop 32).take 28 = List.replicate 28 0
  · exact .inr (plain zeros)
  · left
    have passes : decode32 (slot.drop 48) = 7 ∧ (slot.drop 52).take 8 = List.replicate 8 0 ∧ decode64 (slot.drop 8) ≠ 0 := by
      simp only [checkManifest] at accepted
      split at accepted
      · cases accepted
      · rename_i kept
        simp only [not_or, not_and] at kept
        have marker := kept.2.1 zeros
        exact ⟨not_not.mp marker.1, not_not.mp marker.2.1, marker.2.2⟩
    obtain ⟨marker, blank, numbered⟩ := passes
    have whole := @holds_sealed slot (installMagic ++ encode64 (decode64 (slot.drop 8)) ++
      encode64 (decode64 (slot.drop 16)) ++ encode64 (decode64 (slot.drop 24)) ++
      (encode64 (decode64 (slot.drop 32)) ++ encode64 (decode64 (slot.drop 40)) ++ encode32 7 ++ List.replicate 8 0))
    rw [encodeManifest, if_pos numbered]
    refine whole_holds (whole ?_ ?_ ?_) ?_
    · simp only [holds_append, List.length_append, encode64_length, encode32_length, name, Nat.zero_add]
      refine ⟨⟨⟨⟨front, holds_field64 (by omega) rfl⟩, holds_field64 (by omega) rfl⟩, holds_field64 (by omega) rfl⟩,
        ⟨⟨holds_field64 (by omega) rfl, holds_field64 (by omega) rfl⟩, holds_field32 (by omega) marker⟩, ?_⟩
      rw [Holds, List.length_replicate]
      exact blank
    · simp only [List.length_append, encode64_length, encode32_length, name, List.length_replicate, width]
      omega
    · simpa only [List.length_append, encode64_length, encode32_length, name, List.length_replicate] using sums
    · simp only [sealed_length, List.length_append, encode64_length, encode32_length, name, List.length_replicate, width]

/-- An accepted retention manifest is the encoding of its fields. -/
theorem retention_encoded (width : slot.length = 64) (accepted : retentionManifest slot size = true) :
    slot = encodeRetention (decode64 (slot.drop 8)) (decode32 (slot.drop 52)) (decode64 (slot.drop 16))
      (decode64 (slot.drop 24)) (decode64 (slot.drop 32)) (decode32 (slot.drop 40)) (decode32 (slot.drop 44))
      (decode32 (slot.drop 56)) := by
  have name : retainMagic.length = 8 := rfl
  simp only [retentionManifest, decide_eq_true_eq] at accepted
  obtain ⟨magic, sums, version, _⟩ := accepted
  have front := holds_take 8 (m := slot) (by omega)
  rw [magic] at front
  rw [encodeRetention]
  refine whole_holds (holds_sealed ?_ ?_ ?_) ?_
  · simp only [holds_append, List.length_append, encode64_length, encode32_length, name, Nat.zero_add]
    exact ⟨⟨⟨⟨⟨⟨⟨⟨⟨front, holds_field64 (by omega) rfl⟩, holds_field64 (by omega) rfl⟩, holds_field64 (by omega) rfl⟩,
      holds_field64 (by omega) rfl⟩, holds_field32 (by omega) rfl⟩, holds_field32 (by omega) rfl⟩,
      holds_field32 (by omega) version⟩, holds_field32 (by omega) rfl⟩, holds_field32 (by omega) rfl⟩
  · simp only [List.length_append, encode64_length, encode32_length, name, width]
    omega
  · simpa only [List.length_append, encode64_length, encode32_length, name] using sums
  · simp only [sealed_length, List.length_append, encode64_length, encode32_length, name, width]

theorem retention_accepted {revision count root phase : Nat}
    (stored : Storable revision count dataEnd last tail root phase) (small : time ≤ uint64Max) (fits : dataEnd ≤ size)
    (held : Holds slot 0 (encodeRetention revision count dataEnd last time tail root phase)) :
    retentionManifest slot size = true ∧ slotManifest (revision % 2) slot size =
      some ⟨false, count, dataEnd, last, time, tail, true, ⟨revision, root, phase, true⟩⟩ := by
  have read := retention_slot stored small fits held
  refine ⟨?_, read⟩
  obtain ⟨_, ⟨retained, _⟩ | ⟨g, d, l, _, shape⟩⟩ := slot_cases read
  · exact retained
  · exact absurd (congrArg (fun m => m.state.enabled) shape).symm Bool.false_ne_true

-- The two layouts have different magics.
theorem manifests_disjoint {size size' : Nat} {fields : Nat × Nat × Nat} (retained : retentionManifest slot size = true)
    (checked : checkManifest slot size' = some fields) : False := by
  have magic := retention_magic retained
  rw [check_magic checked] at magic
  exact absurd magic (by decide)

end Manifests

section Segments
variable {store : Store} {file : File} {offset limit first last body minimum maximum previous skip : Nat} {ordered : Bool}

/-- The values a segment header is written with at `offset` of an extent that ends at `limit`. -/
structure Segmentable (offset limit first last body minimum maximum previous skip : Nat) : Prop where
  counted : 1 ≤ first
  order : first ≤ last
  top : last ≤ uint64Max
  capacity : body ≤ walCapacity - 32
  fits : offset + 64 + body ≤ limit
  least : (last - first + 1) * 84 ≤ body
  most : body ≤ (last - first + 1) * 1344
  spans : minimum ≤ maximum
  maximum : maximum ≤ uint64Max
  previous : Linked offset previous
  skip : Linked offset skip
  extent : limit ≤ uint64Max

/-- A segment header is accepted with its own fields. -/
theorem segment_accepted (range : Segmentable offset limit first last body minimum maximum previous skip)
    (held : Holds (store.content file) offset (encodeSegment first last body minimum maximum previous skip ordered)) :
    on (readSegment file offset limit) store =
      (.ok ⟨first, last, minimum, maximum, previous, skip, body, 64, ordered⟩, store) := by
  obtain ⟨counted, order, top, capacity, fits, least, most, spans, maximums, back, jump, extent⟩ := range
  generalize shape : encodeSegment first last body minimum maximum previous skip ordered = header at held
  have width : header.length = 64 := by rw [← shape, segment_length]
  have self : Holds header 0 (encodeSegment first last body minimum maximum previous skip ordered) :=
    shape ▸ holds_self _
  obtain ⟨magic, first', last', body', minimum', maximum', previous', skip', checks⟩ := segment_fields self
  have name : header.take 8 = if ordered then spanMagic else unorderedMagic :=
    take_holds magic (by cases ordered <;> rfl)
  have front := on_read_holds (held.take 32) (show _ = 32 by simp [width])
  have rest := on_read_holds (held.drop 32 (by omega)) (show _ = 32 by simp [width])
  have name' : (header.take 32).take 8 = if ordered then spanMagic else unorderedMagic := by
    rw [List.take_take, Nat.min_eq_left (by omega), name]
  have flag : decide ((header.take 32).take 8 = spanMagic) = ordered := by
    rw [name']
    cases ordered <;> decide
  have known : ordered = true ∨ (header.take 32).take 8 = unorderedMagic := by
    rw [name']
    cases ordered <;> simp
  unfold Linked at back jump
  simp only [uint64Max, walCapacity] at top maximums capacity extent
  have least' : last - first + 1 ≤ body / 84 := by omega
  have parsed : parseSegment header 64 ordered offset limit =
      some ⟨first, last, minimum, maximum, previous, skip, body, 64, ordered⟩ := by
    simp only [parseSegment, decode64_holds first' (by omega), decode64_holds last' (by omega),
      decode32_holds body' (by omega), decode64_holds minimum' (by omega), decode64_holds maximum' (by omega),
      decode64_holds previous' (by omega), decode64_holds skip' (by omega), Nat.reduceSub, if_true, walCapacity, batchScratch]
    rw [if_neg (by simpa using checks), if_neg (by omega), if_neg (by omega), if_neg (by omega)]
  rw [readSegment, on_require_bind, if_pos (by omega), on_bind_ok front]
  simp only [flag, known, if_true]
  rw [on_require_bind, if_pos (by omega), on_bind_ok rest, List.take_append_drop, parsed]
  rfl

/-- An accepted header of 64 bytes is the encoding of its fields. -/
theorem segment_encoded {info : SegmentInfo} (ran : (on (readSegment file offset limit) store).1 = .ok info)
    (wide : info.headerSize = 64) : Holds (store.content file) offset (encodeSegment info.first info.last info.body
      info.minimum info.maximum info.previous info.skip info.ordered) := by
  have held := (accepted_header ran).1
  rwa [headerBytes, if_pos wide] at held

end Segments

/-- Encoders and validators agree: each accepts and decodes what the other writes, and only that. -/
theorem metadata_codec :
    (∀ size generation dataEnd last time tail, Installable generation dataEnd last time tail → dataEnd ≤ size →
      checkManifest (encodeManifest generation dataEnd last time tail) size = some (generation, dataEnd, last) ∧
      slotManifest (generation % 2) (encodeManifest generation dataEnd last time tail) size =
        some ⟨false, generation, dataEnd, last, if generation = 0 then 0 else time, if generation = 0 then 0 else tail,
          decide (generation ≠ 0), ⟨generation, 160, 0, false⟩⟩) ∧
    (∀ size revision count dataEnd last time tail root phase, Storable revision count dataEnd last tail root phase →
      time ≤ uint64Max → dataEnd ≤ size →
      retentionManifest (encodeRetention revision count dataEnd last time tail root phase) size = true ∧
      slotManifest (revision % 2) (encodeRetention revision count dataEnd last time tail root phase) size =
        some ⟨false, count, dataEnd, last, time, tail, true, ⟨revision, root, phase, true⟩⟩) ∧
    (∀ (store : Store) (file : File) offset limit first last body minimum maximum previous skip ordered,
      Segmentable offset limit first last body minimum maximum previous skip →
      Holds (store.content file) offset (encodeSegment first last body minimum maximum previous skip ordered) →
      on (readSegment file offset limit) store =
        (.ok ⟨first, last, minimum, maximum, previous, skip, body, 64, ordered⟩, store)) ∧
    (∀ (slot : Bytes) size, slot.length = 64 → retentionManifest slot size = true →
      slot = encodeRetention (decode64 (slot.drop 8)) (decode32 (slot.drop 52)) (decode64 (slot.drop 16))
        (decode64 (slot.drop 24)) (decode64 (slot.drop 32)) (decode32 (slot.drop 40)) (decode32 (slot.drop 44))
        (decode32 (slot.drop 56))) ∧
    (∀ (slot : Bytes) size generation dataEnd last, slot.length = 64 →
      checkManifest slot size = some (generation, dataEnd, last) →
      slot = encodeManifest generation dataEnd last (decode64 (slot.drop 32)) (decode64 (slot.drop 40)) ∨
        slot = sealed (installMagic ++ encode64 generation ++ encode64 dataEnd ++ encode64 last ++ List.replicate 28 0)) ∧
    (∀ (store : Store) (file : File) offset limit info, (on (readSegment file offset limit) store).1 = .ok info →
      info.headerSize = 64 → Holds (store.content file) offset (encodeSegment info.first info.last info.body
        info.minimum info.maximum info.previous info.skip info.ordered)) ∧
    (∀ (slot : Bytes) size size' fields, ¬ (retentionManifest slot size = true ∧ checkManifest slot size' = some fields)) :=
  ⟨fun _ _ _ _ _ _ range fits => install_accepted range fits (holds_self _),
    fun _ _ _ _ _ _ _ _ _ stored small fits => retention_accepted stored small fits (holds_self _),
    fun _ _ _ _ _ _ _ _ _ _ _ _ range held => segment_accepted range held,
    fun _ _ width accepted => retention_encoded width accepted,
    fun _ _ _ _ _ width accepted => install_encoded width accepted,
    fun _ _ _ _ _ ran wide => segment_encoded ran wide,
    fun _ _ _ _ both => manifests_disjoint both.1 both.2⟩

theorem metadata_codec_sole :
    checkManifest (encodeManifest 1 308 1 5 160) 308 = some (1, 308, 1) ∧
    retentionManifest (encodeRetention 2 0 160 1 5 0 160 0) 161 = true ∧
    on (readSegment .database 0 148) (Opaque.image (encodeSegment 1 1 84 5 5 0 0 true)) =
      (.ok ⟨1, 1, 5, 5, 0, 0, 84, 64, true⟩, Opaque.image (encodeSegment 1 1 84 5 5 0 0 true)) ∧
    encodeManifest 1 308 1 5 160 =
      encodeManifest 1 308 1 (decode64 ((encodeManifest 1 308 1 5 160).drop 32)) (decode64 ((encodeManifest 1 308 1 5 160).drop 40)) := by
  obtain ⟨installs, retains, segments, _, encoded, _⟩ := metadata_codec
  have install := installs 308 1 308 1 5 160 ⟨by decide, by decide, by decide, by decide, by decide⟩ (by decide)
  have retain := retains 161 2 0 160 1 5 0 160 0
    ⟨by decide, by decide, by decide, by decide, by decide, by decide, by decide, by decide, by decide, by decide, by decide⟩
    (by decide) (by decide)
  have segment := segments (Opaque.image (encodeSegment 1 1 84 5 5 0 0 true)) .database 0 148 1 1 84 5 5 0 0 true
    ⟨by decide, by decide, by decide, by decide, by decide, by decide, by decide, by decide, by decide, .inl rfl, .inl rfl,
      by decide⟩ (holds_self _)
  refine ⟨install.1, retain.1, segment, ?_⟩
  rcases encoded _ 308 1 308 1 (manifest_length 1 308 1 5 160) install.1 with same | older
  · exact same
  · exact absurd older (by decide)

end Timelite.Encodings
