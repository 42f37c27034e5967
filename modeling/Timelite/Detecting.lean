import Timelite.Bursts
import Timelite.Encodings

/-!
What the checksums detect. A sealed byte string leaves a fixed residue in the
register whatever it says, so that two of them of one length never differ by a
burst of at most 32 bits. A burst that changes the magic of a segment header to
that of the other header size does not exist, and a burst in a frame leaves its
header, its commit or its contents unsealed.
-/
namespace Timelite.Detecting
open ByteFile Bursts Program Codec CodecLaws Backend BackendLaws Layout FrameLaws SlotLaws Decoding Grammar Reader Opaque
  Lifting Encodings

section Bits
variable {p error : Bytes}

/-- Bit `i` of a byte string: bytes in file order, the least significant bit first. -/
def bitAt (p : Bytes) (i : Nat) : Bool := (p.getD (i / 8) 0).toNat.testBit (i % 8)

/-- A nonzero error within 32 consecutive bits. -/
structure ShortBurst (error : Bytes) : Prop where
  some : ∃ i, bitAt error i = true
  inside : ∃ start, ∀ i, bitAt error i = true → start ≤ i ∧ i < start + 32

/-- The bytes with an error added to them. -/
def corrupt (p error : Bytes) : Bytes := List.zipWith (· ^^^ ·) p error

theorem decode_bit (p : Bytes) (i : Nat) : (decodeBytes p).testBit i = bitAt p i := by
  induction p generalizing i with
  | nil => simp [decodeBytes, bitAt]
  | cons byte rest ih =>
      have small : byte.toNat < 2 ^ 8 := byte.toNat_lt
      rw [decodeBytes, Nat.add_comm, show (256 : Nat) = 2 ^ 8 from rfl, Nat.testBit_two_pow_mul_add _ small]
      by_cases first : i < 8
      · rw [if_pos first, bitAt, Nat.div_eq_of_lt first, Nat.mod_eq_of_lt first]
        rfl
      · have shift : i / 8 = (i - 8) / 8 + 1 := by omega
        have low : i % 8 = (i - 8) % 8 := by omega
        rw [if_neg first, ih, bitAt, bitAt, shift, low]
        rfl

theorem ShortBurst.burst (short : ShortBurst error) : Burst 32 (decodeBytes error) := by
  obtain ⟨i, set⟩ := short.some
  obtain ⟨start, inside⟩ := short.inside
  refine ⟨fun zero => ?_, start, fun j set' => inside j ((decode_bit error j).symm.trans set')⟩
  rw [← decode_bit, zero, Nat.zero_testBit] at set
  cases set

theorem decode_corrupt (same : error.length = p.length) :
    decodeBytes (corrupt p error) = decodeBytes p ^^^ decodeBytes error := by
  apply Nat.eq_of_testBit_eq
  intro i
  rw [Nat.testBit_xor, decode_bit, decode_bit, decode_bit]
  simp only [bitAt, corrupt, List.getD_eq_getElem?_getD, List.getElem?_zipWith]
  by_cases inside : i / 8 < p.length
  · rw [List.getElem?_eq_getElem inside, List.getElem?_eq_getElem (by omega)]
    simp [Nat.testBit_xor]
  · rw [List.getElem?_eq_none (by omega), List.getElem?_eq_none (by omega)]
    simp

@[simp] theorem corrupt_length (same : error.length = p.length) : (corrupt p error).length = p.length := by
  rw [corrupt, List.length_zipWith, same, Nat.min_self]

theorem corrupt_take (n : Nat) : (corrupt p error).take n = corrupt (p.take n) (error.take n) := List.take_zipWith

theorem corrupt_drop (n : Nat) : (corrupt p error).drop n = corrupt (p.drop n) (error.drop n) := List.drop_zipWith

theorem decode_inj {a b : Bytes} (same : a.length = b.length) (values : decodeBytes a = decodeBytes b) : a = b := by
  rw [← encode_decode_bytes a, ← encode_decode_bytes b, same, values]

-- An error of zeros changes nothing.
theorem corrupt_zero (same : error.length = p.length) (zero : decodeBytes error = 0) : corrupt p error = p :=
  decode_inj (corrupt_length same) (by rw [decode_corrupt same, zero, Nat.xor_zero])

theorem decode_split (p : Bytes) (n : Nat) :
    decodeBytes (p.take n) = decodeBytes p % 2 ^ (8 * n) ∧ decodeBytes (p.drop n) = decodeBytes p / 2 ^ (8 * n) := by
  induction n generalizing p with
  | zero => simp [decodeBytes, Nat.mod_one]
  | succ n ih =>
      cases p with
      | nil => simp [decodeBytes]
      | cons byte rest =>
          have small := byte.toNat_lt
          have grown : 2 ^ (8 * (n + 1)) = 256 * 2 ^ (8 * n) := by rw [Nat.mul_succ, Nat.pow_add]; ring
          obtain ⟨low, high⟩ := ih rest
          rw [List.take_succ_cons, List.drop_succ_cons, decodeBytes, decodeBytes, low, high, grown, Nat.mod_mul,
            ← Nat.div_div_eq_div_mul]
          have front : (byte.toNat + 256 * decodeBytes rest) % 256 = byte.toNat := by omega
          have back : (byte.toNat + 256 * decodeBytes rest) / 256 = decodeBytes rest := by omega
          rw [front, back]
          exact ⟨rfl, rfl⟩

theorem decode_bound (p : Bytes) : decodeBytes p < 2 ^ (8 * p.length) := by
  have bound := decode_bytes_lt p
  rwa [show (256 : Nat) = 2 ^ 8 from rfl, ← Nat.pow_mul] at bound

end Bits

section Residue
variable {p q error : Bytes}

def crcPoly : Nat := 0xedb88320

theorem crc_full : Full crcPoly 32 := ⟨by decide, by decide⟩

/-- The loop of `checksum` feeds the bytes as one string of bits. -/
theorem fold_feed (p : Bytes) (crc : Nat) :
    p.foldl checksumByte crc = feed crcPoly (8 * p.length) crc (decodeBytes p) := by
  induction p generalizing crc with
  | nil => simp [feed, decodeBytes]
  | cons byte rest ih =>
      have small : byte.toNat < 2 ^ 8 := byte.toNat_lt
      have first : checksumByte crc byte = feed crcPoly 8 crc byte.toNat := rfl
      rw [List.foldl_cons, ih, first, List.length_cons, Nat.mul_succ, Nat.add_comm (8 * rest.length) 8, decodeBytes,
        show (256 : Nat) = 2 ^ 8 from rfl, feed_append small]

/-- Every sealed string leaves the same residue. -/
theorem sealed_residue (body : Bytes) : (sealed body).foldl checksumByte 0xffffffff = (shift crcPoly)^[32] 0xffffffff := by
  have crc : decodeBytes (encode32 (checksum body)) = checksum body := by
    rw [encode32, decode_encode_bytes]
    exact Nat.mod_eq_of_lt (checksum_lt body)
  rw [sealed, List.foldl_append, fold_feed (encode32 (checksum body)), encode32_length, crc, feed, checksum,
    ← Nat.xor_assoc, Nat.xor_self, Nat.zero_xor]

theorem fold_corrupt (burst : Burst 32 (decodeBytes error)) (same : error.length = p.length) (crc : Nat) :
    (corrupt p error).foldl checksumByte crc ≠ p.foldl checksumByte crc := by
  rw [fold_feed, fold_feed, corrupt_length same, decode_corrupt same]
  exact burst_changes crc_full burst (same ▸ decode_bound error) _ _

/-- No burst turns a sealed string into a sealed string. -/
theorem burst_unseals {body body' : Bytes} (burst : Burst 32 (decodeBytes error)) (same : error.length = (sealed body).length) :
    corrupt (sealed body) error ≠ sealed body' := by
  intro again
  refine fold_corrupt burst same 0xffffffff ?_
  rw [again, sealed_residue, sealed_residue]

end Residue

section Validators
variable {file : File} {store store' : Store} {error : Bytes} {offset limit limit' sequence : Nat}

/-- The bytes at `offset` are those of the other store with an error. -/
def Altered (file : File) (offset : Nat) (error : Bytes) (store store' : Store) : Prop :=
  Holds (store'.content file) offset (corrupt (readAt (store.content file) offset error.length) error)

theorem Altered.bytes {bytes bytes' : Bytes} (altered : Altered file offset error store store')
    (size : error.length = bytes.length) (size' : bytes'.length = bytes.length)
    (held : Holds (store.content file) offset bytes) (held' : Holds (store'.content file) offset bytes') :
    corrupt bytes error = bytes' := by
  rw [Altered, size, show readAt (store.content file) offset bytes.length = bytes from held, Holds,
    corrupt_length size, ← size'] at altered
  exact altered.symm.trans held'

theorem unsealed_of_burst {m : Bytes} {width : Nat} (short : ShortBurst error) (size : m.length = width + 4)
    (same : error.length = m.length) (checks : checksum (m.take width) = decode32 (m.drop width)) :
    checksum ((corrupt m error).take width) ≠ decode32 ((corrupt m error).drop width) := by
  intro again
  have whole := sealed_unique size checks
  have whole' := sealed_unique ((corrupt_length same).trans size) again
  rw [whole] at same whole'
  exact burst_unseals short.burst same whole'

theorem pair_detected {magic header : Bytes} (width : magic.length = 8) (short : ShortBurst error)
    (size : error.length = 32) (ran : (on (pairHeader file magic) store).1 = .ok header)
    (altered : Altered file 0 error store store') : ∃ refused, (on (pairHeader file magic) store').1 = .error refused := by
  cases ran' : (on (pairHeader file magic) store').1 with
  | error refused => exact ⟨refused, rfl⟩
  | ok header' =>
      obtain ⟨held, identity⟩ := pair_bytes width ran
      obtain ⟨held', identity'⟩ := pair_bytes width ran'
      have length : error.length = (encodePair magic ((header.drop 12).take 16)).length := by
        rw [pair_length, width, identity, size]
      have length' : (encodePair magic ((header'.drop 12).take 16)).length =
          (encodePair magic ((header.drop 12).take 16)).length := by
        rw [pair_length, pair_length, identity, identity']
      exact absurd (altered.bytes length length' held held') (burst_unseals short.burst length)

theorem slot_detected {slot : Bytes} {size size' : Nat} (short : ShortBurst error) (width : slot.length = 64)
    (same : error.length = 64) (valid : (checkManifest slot size).isSome = true ∨ retentionManifest slot size = true) :
    checkManifest (corrupt slot error) size' = none ∧ retentionManifest (corrupt slot error) size' = false := by
  have checks : checksum (slot.take 60) = decode32 (slot.drop 60) := by
    by_contra bad
    rw [check_unsealed bad, retention_unsealed bad] at valid
    simp at valid
  have bad := unsealed_of_burst short width (same.trans width.symm) checks
  exact ⟨check_unsealed bad, retention_unsealed bad⟩

-- The magic of a header by its size and order.
theorem header_magic (info : SegmentInfo) : (headerBytes info).take 8 =
    if info.headerSize = 64 then (if info.ordered then spanMagic else unorderedMagic) else segmentMagic := by
  unfold headerBytes
  by_cases wide : info.headerSize = 64
  · rw [if_pos wide, if_pos wide, encodeSegment]
    cases info.ordered <;> rfl
  · rw [if_neg wide, if_neg wide]
    rfl

theorem header_sealed (info : SegmentInfo) : ∃ body, headerBytes info = sealed body := by
  unfold headerBytes
  split
  · exact ⟨_, rfl⟩
  · exact ⟨_, rfl⟩

theorem header_length {info : SegmentInfo} (size : info.headerSize = 32 ∨ info.headerSize = 64) :
    (headerBytes info).length = info.headerSize := by
  rcases size with narrow | wide
  · rw [headerBytes, if_neg (by omega), narrow]
    simp [segmentMagic]
  · rw [headerBytes, if_pos wide, segment_length, wide]

/-- The magics of the two header sizes differ in bits that are further apart than a burst. -/
theorem magic_apart {wide : Bytes} (known : wide = spanMagic ∨ wide = unorderedMagic) (short : ShortBurst error)
    (same : decodeBytes (error.take 8) = decodeBytes segmentMagic ^^^ decodeBytes wide) : False := by
  obtain ⟨start, inside⟩ := short.inside
  have bits : ∀ i, (decodeBytes segmentMagic ^^^ decodeBytes wide).testBit i = true → start ≤ i ∧ i < start + 32 := by
    intro i set
    rw [← same, (decode_split error 8).1, Nat.testBit_mod_two_pow, Bool.and_eq_true, decode_bit] at set
    exact inside i set.2
  rcases known with rfl | rfl
  · have low := bits 24 (by decide)
    have high := bits 62 (by decide)
    omega
  · have low := bits 17 (by decide)
    have high := bits 62 (by decide)
    omega

theorem holds_front {m bytes : Bytes} (held : Holds m offset bytes) {n : Nat} (inside : n ≤ bytes.length) :
    bytes.take n = readAt m offset n := by
  have shape : readAt m offset bytes.length = bytes := held
  rw [← shape, readAt, List.take_take, Nat.min_eq_left inside, readAt]

-- The two headers have the same size, and then both are sealed.
theorem segment_detected {info : SegmentInfo} (short : ShortBurst error) (size : error.length = info.headerSize)
    (ran : (on (readSegment .database offset limit) store).1 = .ok info)
    (altered : Altered .database offset error store store') :
    ∃ refused, (on (readSegment .database offset limit') store').1 = .error refused := by
  cases ran' : (on (readSegment .database offset limit') store').1 with
  | error refused => exact ⟨refused, rfl⟩
  | ok info' =>
      have held := (accepted_header ran).1
      have held' := (accepted_header ran').1
      have sizes := (header_of ran).size
      have sizes' := (header_of ran').size
      have length := header_length sizes
      have length' := header_length sizes'
      obtain ⟨body, sealed_⟩ := header_sealed info
      obtain ⟨body', sealed'⟩ := header_sealed info'
      have front : corrupt ((headerBytes info).take 8) (error.take 8) = (headerBytes info').take 8 := by
        rw [Altered, size, ← length, show readAt (store.content .database) offset (headerBytes info).length = _ from held] at altered
        rw [← corrupt_take, holds_front altered (by rw [corrupt_length (by omega)]; omega), holds_front held' (by omega)]
      have wide : ∀ i : SegmentInfo, i.headerSize = 64 → (headerBytes i).take 8 = spanMagic ∨ (headerBytes i).take 8 = unorderedMagic := by
        intro i large
        rw [header_magic, if_pos large]
        cases i.ordered
        · exact .inr rfl
        · exact .inl rfl
      have narrow : ∀ i : SegmentInfo, i.headerSize = 32 → (headerBytes i).take 8 = segmentMagic := by
        intro i small
        rw [header_magic, if_neg (by omega)]
      have values := congrArg decodeBytes front
      rw [decode_corrupt (by simp only [List.length_take]; omega)] at values
      have difference : decodeBytes (error.take 8) =
          decodeBytes ((headerBytes info).take 8) ^^^ decodeBytes ((headerBytes info').take 8) := by
        rw [← values, ← Nat.xor_assoc, Nat.xor_self, Nat.zero_xor]
      by_cases same : info'.headerSize = info.headerSize
      · refine absurd (altered.bytes (size.trans length.symm) (by omega) held held') ?_
        rw [sealed_, sealed']
        exact burst_unseals short.burst (by rw [← sealed_]; omega)
      · rcases sizes with small | large
        · rw [narrow info small] at difference
          exact (magic_apart (wide info' (by omega)) short difference).elim
        · rw [narrow info' (by omega), Nat.xor_comm] at difference
          exact (magic_apart (wide info large) short difference).elim

-- An error in the commit, or in what the commit's checksum covers.
theorem contents_detected {bytes : Bytes} {n : Nat} (short : ShortBurst error) (size : error.length = bytes.length)
    (total : bytes.length = n + 32) (sum : decode32 ((bytes.drop n).drop 24) = checksum (bytes.take n))
    (checks : decode32 ((bytes.drop n).drop 28) = checksum ((bytes.drop n).take 28))
    (sum' : decode32 (((corrupt bytes error).drop n).drop 24) = checksum ((corrupt bytes error).take n))
    (checks' : decode32 (((corrupt bytes error).drop n).drop 28) = checksum (((corrupt bytes error).drop n).take 28)) :
    False := by
  have back : (bytes.drop n).length = 28 + 4 := by
    rw [List.length_drop]
    omega
  have matching : (error.drop n).length = (bytes.drop n).length := by simp only [List.length_drop, size]
  rw [corrupt_drop] at sum' checks'
  have clean : decodeBytes (error.drop n) = 0 := by
    by_contra dirty
    rw [(decode_split error n).2] at dirty
    have burst := short.burst.high (8 * n) dirty
    rw [← (decode_split error n).2] at burst
    have whole := sealed_unique back checks.symm
    have whole' := sealed_unique ((corrupt_length matching).trans back) checks'.symm
    rw [whole] at matching whole'
    exact burst_unseals burst matching whole'
  rw [corrupt_zero matching clean, sum, corrupt_take] at sum'
  have front : decodeBytes (error.take n) = decodeBytes error := by
    have parts := Nat.div_add_mod (decodeBytes error) (2 ^ (8 * n))
    rw [← (decode_split error n).1, ← (decode_split error n).2, clean, Nat.mul_zero, Nat.zero_add] at parts
    exact parts
  have same : (error.take n).length = (bytes.take n).length := by simp only [List.length_take, size]
  refine fold_corrupt (front.symm ▸ short.burst) same 0xffffffff ?_
  have undone := congrArg (· ^^^ 0xffffffff) sum'
  simpa only [checksum, Nat.xor_assoc, Nat.xor_self, Nat.xor_zero] using undone.symm

/-- An error in a frame is found as damage, at the end of a file or not. -/
theorem frame_detected {found : Frame} (short : ShortBurst error) (size : error.length = found.bytes.length)
    (ran : (on (readFrame file offset limit sequence) store).1 = .ok found) (room : offset + found.bytes.length ≤ limit')
    (altered : Altered file offset error store store') :
    (on (readFrame file offset limit' sequence) store').1 = .error .invalidDatabase := by
  obtain ⟨header, rest, held, full, passes, _, whole, _, rfl, _, _, _, _, sum, checks⟩ := read_frame_checks ran
  simp only at size room sum checks
  generalize shape : decode32 (header.drop 20) = n at *
  have total : (header ++ rest).length = n + 32 := by
    rw [List.length_append]
    omega
  have front : (header ++ rest).take 32 = header := by rw [List.take_append_of_le_length (by omega), ← full, List.take_length]
  have sealed_ : checksum (header.take 28) = decode32 (header.drop 28) := by
    simp only [checkFrameHeader, decide_eq_true_eq] at passes
    exact passes.2.2.2.2.2
  rw [Altered, size, show readAt (store.content file) offset (header ++ rest).length = header ++ rest from held] at altered
  -- An accepted header is the one that was written.
  have same : ∀ header' : Bytes, header'.length = 32 → Holds (store'.content file) offset header' →
      checkFrameHeader header' = true → header' = header := by
    intro header' full' held' passes'
    have front' : header' = corrupt header (error.take 32) := by
      have region := holds_front altered (n := 32) (by rw [corrupt_length size]; omega)
      rw [corrupt_take, front] at region
      have region' := holds_front held' (n := 32) (by omega)
      rw [List.take_of_length_le (by omega)] at region'
      exact region'.trans region.symm
    have matching : (error.take 32).length = header.length := by
      rw [List.length_take, size, total, full]
      omega
    rw [front']
    refine corrupt_zero matching ?_
    by_contra dirty
    rw [(decode_split error 32).1] at dirty
    have burst := short.burst.low (8 * 32) dirty
    rw [← (decode_split error 32).1] at burst
    have checks' : checksum (header'.take 28) = decode32 (header'.drop 28) := by
      simp only [checkFrameHeader, decide_eq_true_eq] at passes'
      exact passes'.2.2.2.2.2
    have one : header = sealed (header.take 28) := sealed_unique full sealed_
    have two : header' = sealed (header'.take 28) := sealed_unique full' checks'
    rw [front', one] at two
    rw [one] at matching
    exact burst_unseals burst matching two
  cases ran' : (on (readFrame file offset limit' sequence) store').1 with
  | error refused =>
      rcases read_frame_error ran' with rfl | ⟨_, header', full', held', passes', _, cut⟩
      · rfl
      · rw [same header' full' held' passes', shape] at cut
        omega
  | ok found' =>
      exfalso
      obtain ⟨header', rest', held', full', passes', _, whole', _, _, _, _, _, _, sum', checks'⟩ := read_frame_checks ran'
      rw [holds_append] at held'
      have again := same header' full' held'.1 passes'
      subst again
      rw [shape] at whole' sum' checks'
      rw [← holds_append] at held'
      have bytes : corrupt (header' ++ rest) error = header' ++ rest' := by
        have region : Holds (store'.content file) offset (corrupt (header' ++ rest) error) := altered
        have left := holds_front region (Nat.le_refl _)
        have right := holds_front held' (Nat.le_refl _)
        rw [List.take_length] at left right
        rw [left, right, corrupt_length size, List.length_append, List.length_append, whole, whole']
      rw [← bytes] at sum' checks'
      exact contents_detected short size total sum checks sum' checks'

end Validators

section Detection

/-- No validator accepts what a burst of at most 32 bits makes of an accepted structure,
and a frame with such an error is damage, never an incomplete tail. -/
theorem bursts_detected {error : Bytes} (short : ShortBurst error) :
    (∀ (file : File) (magic header : Bytes) (store store' : Store), magic.length = 8 → error.length = 32 →
        (on (pairHeader file magic) store).1 = .ok header → Altered file 0 error store store' →
        ∃ refused, (on (pairHeader file magic) store').1 = .error refused) ∧
      (∀ (slot : Bytes) (size size' : Nat), slot.length = 64 → error.length = 64 →
        (checkManifest slot size).isSome = true ∨ retentionManifest slot size = true →
        checkManifest (corrupt slot error) size' = none ∧ retentionManifest (corrupt slot error) size' = false) ∧
      (∀ (offset limit limit' : Nat) (info : SegmentInfo) (store store' : Store), error.length = info.headerSize →
        (on (readSegment .database offset limit) store).1 = .ok info → Altered .database offset error store store' →
        ∃ refused, (on (readSegment .database offset limit') store').1 = .error refused) ∧
      (∀ (file : File) (offset limit limit' sequence : Nat) (found : Frame) (store store' : Store),
        error.length = found.bytes.length → (on (readFrame file offset limit sequence) store).1 = .ok found →
        offset + found.bytes.length ≤ limit' → Altered file offset error store store' →
        (on (readFrame file offset limit' sequence) store').1 = .error .invalidDatabase) :=
  ⟨fun _ _ _ _ _ width size ran altered => pair_detected width short size ran altered,
    fun _ _ _ width size valid => slot_detected short width size valid,
    fun _ _ _ _ _ _ size ran altered => segment_detected short size ran altered,
    fun _ _ _ _ _ _ _ _ size ran room altered => frame_detected short size ran room altered⟩

/-- An error of 32 bits over five bytes. -/
def wideBurst (before after : Nat) : Bytes := List.replicate before 0 ++ ([0x80, 0xff, 0xff, 0xff, 0x7f] ++ List.replicate after 0)

theorem wide_burst_bit {before after i : Nat} (set : bitAt (wideBurst before after) i = true) :
    ∃ k, i / 8 = before + k ∧ k < 5 ∧ ([0x80, 0xff, 0xff, 0xff, 0x7f].getD k (0 : UInt8)).toNat.testBit (i % 8) = true := by
  simp only [bitAt, wideBurst, List.getD_eq_getElem?_getD, List.getElem?_append, List.length_replicate,
    List.getElem?_replicate] at set
  by_cases front : i / 8 < before
  · simp [front] at set
  · obtain ⟨k, place⟩ : ∃ k, i / 8 = before + k := ⟨i / 8 - before, by omega⟩
    rw [if_neg front, place, Nat.add_sub_cancel_left] at set
    by_cases inner : k < ([0x80, 0xff, 0xff, 0xff, 0x7f] : Bytes).length
    · rw [if_pos inner] at set
      exact ⟨k, place, inner, by rw [List.getD_eq_getElem?_getD]; exact set⟩
    · rw [if_neg inner] at set
      split at set <;> simp at set

theorem wide_burst_short (before after : Nat) : ShortBurst (wideBurst before after) := by
  refine ⟨⟨8 * before + 7, ?_⟩, 8 * before + 7, fun i set => ?_⟩
  · have place : (8 * before + 7) / 8 = before := by omega
    have last : (8 * before + 7) % 8 = 7 := by omega
    simp [bitAt, wideBurst, place, last]
    decide
  · obtain ⟨k, place, inner, set⟩ := wide_burst_bit set
    have low : i % 8 < 8 := Nat.mod_lt _ (by decide)
    -- The first byte has its last bit only, and the fifth lacks it.
    have edges : (k = 0 → i % 8 = 7) ∧ (k = 4 → i % 8 ≠ 7) := by
      generalize i % 8 = bit at set low
      refine ⟨?_, ?_⟩
      · rintro rfl
        revert set
        decide +revert
      · rintro rfl rfl
        exact absurd set (by decide)
    omega

-- Five bytes are damaged, in a pair header and in the record of a frame.
theorem bursts_detected_wide :
    (∃ refused, (on (pairHeader .database databaseMagic)
      (image (corrupt (encodePair databaseMagic (List.replicate 16 7)) (wideBurst 9 18)))).1 = .error refused) ∧
    (on (readFrame .database 0 84 1) (image (corrupt (frame 1 [⟨7, 5, -1⟩]) (wideBurst 40 39)))).1 = .error .invalidDatabase := by
  constructor
  · have ran : (on (pairHeader .database databaseMagic) (image (encodePair databaseMagic (List.replicate 16 7)))).1 =
        .ok (encodePair databaseMagic (List.replicate 16 7)) := by decide +kernel
    have altered : Altered .database 0 (wideBurst 9 18) (image (encodePair databaseMagic (List.replicate 16 7)))
        (image (corrupt (encodePair databaseMagic (List.replicate 16 7)) (wideBurst 9 18))) := by
      unfold Altered Holds
      decide +kernel
    exact (bursts_detected (wide_burst_short 9 18)).1 _ _ _ _ _ rfl rfl ran altered
  · have ran : (on (readFrame .database 0 84 1) (image (frame 1 [⟨7, 5, -1⟩]))).1 = .ok ⟨frame 1 [⟨7, 5, -1⟩], 1⟩ := by
      decide +kernel
    have altered : Altered .database 0 (wideBurst 40 39) (image (frame 1 [⟨7, 5, -1⟩]))
        (image (corrupt (frame 1 [⟨7, 5, -1⟩]) (wideBurst 40 39))) := by
      unfold Altered Holds
      decide +kernel
    exact (bursts_detected (wide_burst_short 40 39)).2.2.2 _ _ _ _ _ _ _ _ (by decide +kernel) ran (by decide +kernel) altered

end Detection

end Timelite.Detecting
