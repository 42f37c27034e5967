import Timelite.Codec

/-!
Round trips of the byte formats, in both directions, stated for bytes that lie
in a larger string: what a reader decodes from an encoding, and that accepted
bytes are the encoding of what was decoded from them.
-/
namespace Timelite.CodecLaws
open ByteFile Codec

section Integers

@[simp] theorem encode_bytes_length (width value : Nat) :
    (encodeBytes width value).length = width := by
  induction width generalizing value with
  | zero => rfl
  | succ width ih => simp [encodeBytes, ih]

@[simp] theorem encode32_length (value : Nat) : (encode32 value).length = 4 :=
  encode_bytes_length 4 value

@[simp] theorem encode64_length (value : Nat) : (encode64 value).length = 8 :=
  encode_bytes_length 8 value

theorem decode_encode_bytes (width value : Nat) :
    decodeBytes (encodeBytes width value) = value % 256 ^ width := by
  induction width generalizing value with
  | zero => simp [encodeBytes, decodeBytes, Nat.mod_one]
  | succ width ih =>
      simp only [encodeBytes, decodeBytes, ih, UInt8.toNat_ofNat']
      rw [Nat.mod_mod, Nat.pow_succ, Nat.mul_comm (256 ^ width) 256, Nat.mod_mul]

theorem encode_decode_bytes (bytes : Bytes) :
    encodeBytes bytes.length (decodeBytes bytes) = bytes := by
  induction bytes with
  | nil => rfl
  | cons byte rest ih =>
      have small := byte.toNat_lt
      have low : (byte.toNat + 256 * decodeBytes rest) % 256 = byte.toNat := by omega
      have high : (byte.toNat + 256 * decodeBytes rest) / 256 = decodeBytes rest := by omega
      simp only [List.length_cons, encodeBytes, decodeBytes, low, high, ih, UInt8.ofNat_toNat]

theorem decode_bytes_lt (bytes : Bytes) : decodeBytes bytes < 256 ^ bytes.length := by
  induction bytes with
  | nil => simp [decodeBytes]
  | cons byte rest ih =>
      have small := byte.toNat_lt
      simp only [decodeBytes, List.length_cons, Nat.pow_succ]
      omega

theorem decode64_lt (p : Bytes) : decode64 p < 18446744073709551616 := by
  have bound := decode_bytes_lt (p.take 8)
  have short : (p.take 8).length ≤ 8 := by simp
  exact lt_of_lt_of_le bound (Nat.pow_le_pow_right (n := 256) (by omega) short)

theorem decode32_lt (p : Bytes) : decode32 p < 4294967296 := by
  have bound := decode_bytes_lt (p.take 4)
  have short : (p.take 4).length ≤ 4 := by simp
  exact lt_of_lt_of_le bound (Nat.pow_le_pow_right (n := 256) (by omega) short)

theorem drop_take_holds {m : Bytes} {offset : Nat} {bytes : Bytes} (held : Holds m offset bytes)
    {width : Nat} (size : bytes.length = width) : (m.drop offset).take width = bytes := by
  subst size
  exact held

theorem decode64_holds {m : Bytes} {offset value : Nat} (held : Holds m offset (encode64 value))
    (small : value < 18446744073709551616) : decode64 (m.drop offset) = value := by
  rw [decode64, drop_take_holds held (encode64_length value), encode64, decode_encode_bytes]
  exact Nat.mod_eq_of_lt small

theorem decode32_holds {m : Bytes} {offset value : Nat} (held : Holds m offset (encode32 value))
    (small : value < 4294967296) : decode32 (m.drop offset) = value := by
  rw [decode32, drop_take_holds held (encode32_length value), encode32, decode_encode_bytes]
  exact Nat.mod_eq_of_lt small

theorem holds_decode64 {m : Bytes} {offset : Nat} (room : offset + 8 ≤ m.length) :
    Holds m offset (encode64 (decode64 (m.drop offset))) := by
  have size : ((m.drop offset).take 8).length = 8 := by
    simp only [List.length_take, List.length_drop]
    omega
  have same := encode_decode_bytes ((m.drop offset).take 8)
  rw [size] at same
  simp only [Holds, readAt, encode64, decode64, same, size]

theorem holds_decode32 {m : Bytes} {offset : Nat} (room : offset + 4 ≤ m.length) :
    Holds m offset (encode32 (decode32 (m.drop offset))) := by
  have size : ((m.drop offset).take 4).length = 4 := by
    simp only [List.length_take, List.length_drop]
    omega
  have same := encode_decode_bytes ((m.drop offset).take 4)
  rw [size] at same
  simp only [Holds, readAt, encode32, decode32, same, size]

theorem sub64_eq {a b : Nat} (order : b ≤ a) (small : a ≤ uint64Max) : sub64 a b = a - b := by
  simp only [uint64Max] at small
  simp only [sub64]
  omega

theorem signed_unsigned {value : Nat} (small : value < 18446744073709551616) :
    (signed64 value).toUInt64.toNat = value := by
  unfold signed64
  split
  · rw [Int64.toUInt64_ofNat', UInt64.toNat_ofNat']
    exact Nat.mod_eq_of_lt small
  · have top : (-1 : Int64).toUInt64.toNat = 18446744073709551615 := rfl
    rw [Int64.toUInt64_sub, Int64.toUInt64_ofNat', UInt64.toNat_sub, UInt64.toNat_ofNat', top, uint64Max]
    omega

theorem signed_value (value : Int64) : signed64 value.toUInt64.toNat = value := by
  have bits : (signed64 value.toUInt64.toNat).toUInt64 = value.toUInt64 :=
    UInt64.toNat_inj.mp (signed_unsigned value.toUInt64.toNat_lt)
  have signed := congrArg UInt64.toInt64 bits
  simpa using signed

theorem checksum_bit_lt {crc : Nat} (small : crc < 4294967296) : checksumBit crc < 4294967296 := by
  have half : crc >>> 1 < 2 ^ 32 := by
    rw [Nat.shiftRight_eq_div_pow]
    omega
  have poly : (if crc % 2 = 1 then 0xedb88320 else 0) < 2 ^ 32 := by
    split <;> decide
  exact Nat.xor_lt_two_pow half poly

theorem checksum_byte_lt {crc : Nat} (small : crc < 4294967296) (byte : UInt8) :
    checksumByte crc byte < 4294967296 := by
  have mixed : crc ^^^ byte.toNat < 2 ^ 32 :=
    Nat.xor_lt_two_pow small (lt_trans byte.toNat_lt (by decide))
  unfold checksumByte
  iterate 8 apply checksum_bit_lt
  exact mixed

theorem checksum_fold_lt (p : Bytes) {crc : Nat} (small : crc < 4294967296) :
    p.foldl checksumByte crc < 4294967296 := by
  induction p generalizing crc with
  | nil => exact small
  | cons byte rest ih => exact ih (checksum_byte_lt small byte)

theorem checksum_lt (p : Bytes) : checksum p < 4294967296 :=
  Nat.xor_lt_two_pow (n := 32) (checksum_fold_lt p (by decide)) (by decide)

end Integers

section Sealing

@[simp] theorem sealed_length (body : Bytes) : (sealed body).length = body.length + 4 := by
  simp [sealed]

theorem holds_self (bytes : Bytes) : Holds bytes 0 bytes := by
  simp [Holds, readAt]

-- What a reader sees of a sealed body: its checksum test passes.
theorem sealed_checks {m body : Bytes} (held : Holds m 0 (sealed body)) :
    checksum (m.take body.length) = decode32 (m.drop body.length) := by
  rw [sealed, holds_append] at held
  have front : m.take body.length = body := by simpa using drop_take_holds held.1 rfl
  rw [Nat.zero_add] at held
  rw [front, decode32_holds held.2 (checksum_lt body)]

theorem sealed_unique {m : Bytes} {width : Nat} (size : m.length = width + 4)
    (checks : checksum (m.take width) = decode32 (m.drop width)) : m = sealed (m.take width) := by
  have held : Holds m width (encode32 (decode32 (m.drop width))) := holds_decode32 (by omega)
  have back := drop_take_holds held (encode32_length _)
  have whole : (m.drop width).take 4 = m.drop width := by
    apply List.take_of_length_le
    simp only [List.length_drop]
    omega
  rw [sealed, checks, ← back, whole, List.take_append_drop]

end Sealing

section PairHeader

@[simp] theorem pair_length (magic identity : Bytes) :
    (encodePair magic identity).length = magic.length + identity.length + 8 := by
  simp only [encodePair, sealed_length, List.length_append, encode32_length]
  omega

end PairHeader

section Manifests

@[simp] theorem manifest_length (generation dataEnd last time tail : Nat) :
    (encodeManifest generation dataEnd last time tail).length = 64 := by
  unfold encodeManifest
  split <;> simp [installMagic]

@[simp] theorem retention_length (revision count dataEnd last time tail root phase : Nat) :
    (encodeRetention revision count dataEnd last time tail root phase).length = 64 := by
  simp [encodeRetention, retainMagic]

@[simp] theorem segment_length (first last body minimum maximum previous skip : Nat) (ordered : Bool) :
    (encodeSegment first last body minimum maximum previous skip ordered).length = 64 := by
  cases ordered <;> simp [encodeSegment, spanMagic, unorderedMagic]

theorem manifest_fields {m : Bytes} {generation dataEnd last time tail : Nat}
    (held : Holds m 0 (encodeManifest generation dataEnd last time tail)) :
    Holds m 0 installMagic ∧ Holds m 8 (encode64 generation) ∧ Holds m 16 (encode64 dataEnd) ∧
      Holds m 24 (encode64 last) ∧
      (generation ≠ 0 → Holds m 32 (encode64 time) ∧ Holds m 40 (encode64 tail) ∧
        Holds m 48 (encode32 7) ∧ Holds m 52 (List.replicate 8 0)) ∧
      (generation = 0 → Holds m 32 (List.replicate 28 0)) ∧
      checksum (m.take 60) = decode32 (m.drop 60) := by
  have checks := sealed_checks held
  rw [encodeManifest, sealed, holds_append] at held
  have body := held.1
  by_cases zero : generation = 0
  · simp only [zero, ne_eq, not_true_eq_false, if_false, holds_append, List.length_append,
      encode64_length, List.length_replicate, installMagic, List.length_cons, List.length_nil] at body checks
    simp only [zero, ne_eq, not_true_eq_false, false_implies, true_implies, true_and, installMagic]
    exact ⟨body.1.1.1.1, body.1.1.1.2, body.1.1.2, body.1.2, body.2, checks⟩
  · simp only [zero, ne_eq, not_false_eq_true, if_true, holds_append, List.length_append,
      encode64_length, encode32_length, List.length_replicate, installMagic, List.length_cons,
      List.length_nil] at body checks
    simp only [zero, ne_eq, not_false_eq_true, true_implies, false_implies, true_and, installMagic]
    exact ⟨body.1.1.1.1, body.1.1.1.2, body.1.1.2, body.1.2,
      ⟨body.2.1.1.1, body.2.1.1.2, body.2.1.2, body.2.2⟩, checks⟩

theorem retention_fields {m : Bytes} {revision count dataEnd last time tail root phase : Nat}
    (held : Holds m 0 (encodeRetention revision count dataEnd last time tail root phase)) :
    Holds m 0 retainMagic ∧ Holds m 8 (encode64 revision) ∧ Holds m 16 (encode64 dataEnd) ∧
      Holds m 24 (encode64 last) ∧ Holds m 32 (encode64 time) ∧ Holds m 40 (encode32 tail) ∧
      Holds m 44 (encode32 root) ∧ Holds m 48 (encode32 10) ∧ Holds m 52 (encode32 count) ∧
      Holds m 56 (encode32 phase) ∧ checksum (m.take 60) = decode32 (m.drop 60) := by
  have checks := sealed_checks held
  rw [encodeRetention, sealed, holds_append] at held
  have body := held.1
  simp only [holds_append, List.length_append, encode64_length, encode32_length, retainMagic,
    List.length_cons, List.length_nil] at body checks
  simp only [retainMagic]
  obtain ⟨⟨⟨⟨⟨⟨⟨⟨⟨a, b⟩, c⟩, d⟩, e⟩, f⟩, g⟩, h⟩, i⟩, j⟩ := body
  exact ⟨a, b, c, d, e, f, g, h, i, j, checks⟩

theorem segment_fields {m : Bytes} {first last body minimum maximum previous skip : Nat} {ordered : Bool}
    (held : Holds m 0 (encodeSegment first last body minimum maximum previous skip ordered)) :
    Holds m 0 (if ordered then spanMagic else unorderedMagic) ∧ Holds m 8 (encode64 first) ∧
      Holds m 16 (encode64 last) ∧ Holds m 24 (encode32 body) ∧ Holds m 28 (encode64 minimum) ∧
      Holds m 36 (encode64 maximum) ∧ Holds m 44 (encode64 previous) ∧ Holds m 52 (encode64 skip) ∧
      checksum (m.take 60) = decode32 (m.drop 60) := by
  have checks := sealed_checks held
  have magic : (if ordered then spanMagic else unorderedMagic).length = 8 := by cases ordered <;> rfl
  rw [encodeSegment, sealed, holds_append] at held
  have inner := held.1
  simp only [holds_append, List.length_append, encode64_length, encode32_length, magic] at inner checks
  obtain ⟨⟨⟨⟨⟨⟨⟨a, b⟩, c⟩, d⟩, e⟩, f⟩, g⟩, h⟩ := inner
  exact ⟨a, b, c, d, e, f, g, h, checks⟩

end Manifests

end Timelite.CodecLaws
