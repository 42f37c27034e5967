import Timelite.ByteFile

/-!
The byte formats of timelite.c: little-endian integers, CRC-32/ISO-HDLC, pair
headers, install and retention manifests, segment headers and batch frames.
A `uint32_t` or `uint64_t` is a natural number; the encoders keep its low bytes
and the decoders stay below 2^32 and 2^64.
-/
namespace Timelite.Codec
open ByteFile

def dataStart : Nat := 160
def segmentMin : Nat := 116
def maxRecords : Nat := 64
def batchScratch : Nat := 1344
def walCapacity : Nat := 67108864
def databaseCapacity : Nat := 1073741824
def uint64Max : Nat := 18446744073709551615

-- `uint64_t` increment and difference.
def next64 (n : Nat) : Nat := (n + 1) % 18446744073709551616
def sub64 (a b : Nat) : Nat := (a + 18446744073709551616 - b) % 18446744073709551616

section Integers

def encodeBytes : Nat → Nat → Bytes
  | 0, _ => []
  | width + 1, value => UInt8.ofNat (value % 256) :: encodeBytes width (value / 256)

def decodeBytes : Bytes → Nat
  | [] => 0
  | byte :: rest => byte.toNat + 256 * decodeBytes rest

def encode32 (value : Nat) : Bytes := encodeBytes 4 value
def encode64 (value : Nat) : Bytes := encodeBytes 8 value
def decode32 (p : Bytes) : Nat := decodeBytes (p.take 4)
def decode64 (p : Bytes) : Nat := decodeBytes (p.take 8)

def checksumBit (crc : Nat) : Nat := (crc >>> 1) ^^^ (if crc % 2 = 1 then 0xedb88320 else 0)

def checksumByte (crc : Nat) (byte : UInt8) : Nat :=
  checksumBit (checksumBit (checksumBit (checksumBit
    (checksumBit (checksumBit (checksumBit (checksumBit (crc ^^^ byte.toNat))))))))

/-- CRC-32/ISO-HDLC: accidental corruption detection, not authentication. -/
def checksum (p : Bytes) : Nat := p.foldl checksumByte 0xffffffff ^^^ 0xffffffff

-- The check value published for this CRC.
example : checksum [49, 50, 51, 52, 53, 54, 55, 56, 57] = 0xcbf43926 := by decide +kernel

end Integers

-- "TIMELITE", "TIMEWAL!", "TLINSTAL", "TLRETAIN", "TLSEGMNT", "TLSPAN07",
-- "TLUNOR07", "TLBATCH!", "TLCOMMIT".
def databaseMagic : Bytes := [84, 73, 77, 69, 76, 73, 84, 69]
def walMagic : Bytes := [84, 73, 77, 69, 87, 65, 76, 33]
def installMagic : Bytes := [84, 76, 73, 78, 83, 84, 65, 76]
def retainMagic : Bytes := [84, 76, 82, 69, 84, 65, 73, 78]
def segmentMagic : Bytes := [84, 76, 83, 69, 71, 77, 78, 84]
def spanMagic : Bytes := [84, 76, 83, 80, 65, 78, 48, 55]
def unorderedMagic : Bytes := [84, 76, 85, 78, 79, 82, 48, 55]
def batchMagic : Bytes := [84, 76, 66, 65, 84, 67, 72, 33]
def commitMagic : Bytes := [84, 76, 67, 79, 77, 77, 73, 84]

-- Every 32- and 64-byte structure ends in the CRC-32 of the bytes before it.
def sealed (body : Bytes) : Bytes := body ++ encode32 (checksum body)

section Headers

def encodePair (magic identity : Bytes) : Bytes := sealed (magic ++ encode32 2 ++ identity)

/-- Install manifest: generation g lives in slot g mod 2, so the current slot is
never overwritten and a torn write cannot destroy the last good install. -/
def encodeManifest (generation dataEnd last lastTime lastSegment : Nat) : Bytes :=
  sealed (installMagic ++ encode64 generation ++ encode64 dataEnd ++ encode64 last ++
    if generation ≠ 0 then
      encode64 lastTime ++ encode64 lastSegment ++ encode32 7 ++ List.replicate 8 0
    else List.replicate 28 0)

def checkManifest (m : Bytes) (size : Nat) : Option (Nat × Nat × Nat) :=
  let g := decode64 (m.drop 8)
  let d := decode64 (m.drop 16)
  let l := decode64 (m.drop 24)
  if m.take 8 ≠ installMagic ∨
      ((m.drop 32).take 28 ≠ List.replicate 28 0 ∧
        (decode32 (m.drop 48) ≠ 7 ∨ (m.drop 52).take 8 ≠ List.replicate 8 0 ∨ g = 0)) ∨
      checksum (m.take 60) ≠ decode32 (m.drop 60) then none
  else if d < dataStart ∨ d > databaseCapacity ∨ d > size then none
  else if g = 0 then
    if d ≠ dataStart ∨ l ≠ 0 then none else some (g, d, l)
  else if g > (databaseCapacity - dataStart) / segmentMin ∨ l < g ∨ d < dataStart + g * segmentMin then
    none
  else some (g, d, l)

/-- Retention revisions are independent of the surviving segment count.
Phase 1 discards an unfinished tail, 2 copies the tail back, 3 truncates. -/
structure RetentionState where
  revision : Nat
  root : Nat
  phase : Nat
  enabled : Bool
  deriving DecidableEq, Repr

def encodeRetention (revision count dataEnd last time tail root phase : Nat) : Bytes :=
  sealed (retainMagic ++ encode64 revision ++ encode64 dataEnd ++ encode64 last ++ encode64 time ++
    encode32 tail ++ encode32 root ++ encode32 10 ++ encode32 count ++ encode32 phase)

def retentionManifest (m : Bytes) (size : Nat) : Bool :=
  let dataEnd := decode64 (m.drop 16)
  let root := decode32 (m.drop 44)
  let count := decode32 (m.drop 52)
  let tail := decode32 (m.drop 40)
  let phase := decode32 (m.drop 56)
  decide (m.take 8 = retainMagic ∧
    checksum (m.take 60) = decode32 (m.drop 60) ∧ decode32 (m.drop 48) = 10 ∧
    decode64 (m.drop 8) ≠ 0 ∧ phase ≤ 3 ∧ root ≥ 160 ∧
    root ≤ dataEnd ∧ dataEnd ≤ size ∧ dataEnd ≤ databaseCapacity ∧
    count ≤ (dataEnd - root) / segmentMin ∧
    count ≤ decode64 (m.drop 24) ∧
    (if count ≠ 0 then tail ≥ root ∧ tail < dataEnd else tail = 0 ∧ root = dataEnd) ∧
    (if phase = 2 then dataEnd - root ≤ root - 160 else root = 160))

-- The body of a segment is a verbatim copy of validated WAL frames.
structure SegmentInfo where
  first : Nat
  last : Nat
  minimum : Nat
  maximum : Nat
  previous : Nat
  skip : Nat
  body : Nat
  headerSize : Nat
  ordered : Bool
  deriving DecidableEq, Repr

def encodeSegment (first last body minimum maximum previous skip : Nat) (ordered : Bool) : Bytes :=
  sealed ((if ordered then spanMagic else unorderedMagic) ++ encode64 first ++ encode64 last ++
    encode32 body ++ encode64 minimum ++ encode64 maximum ++ encode64 previous ++ encode64 skip)

end Headers

section Frames

structure Record where
  series : UInt32
  timestamp : UInt64
  value : Int64
  deriving DecidableEq, Repr

def encodeRecord (record : Record) : Bytes :=
  encode32 record.series.toNat ++ encode64 record.timestamp.toNat ++
    encode64 record.value.toUInt64.toNat

-- `decode_record` converts without a cast out of range.
def signed64 (value : Nat) : Int64 :=
  if value ≤ 9223372036854775807 then Int64.ofNat value else -1 - Int64.ofNat (uint64Max - value)

def decodeRecord (record : Bytes) : Record where
  series := UInt32.ofNat (decode32 record)
  timestamp := UInt64.ofNat (decode64 (record.drop 4))
  value := signed64 (decode64 (record.drop 12))

def frameHeader (sequence count : Nat) : Bytes :=
  sealed (batchMagic ++ encode64 sequence ++ encode32 count ++ encode32 (32 + count * 20) ++ encode32 0)

def frameBody (sequence : Nat) (records : List Record) : Bytes :=
  frameHeader sequence records.length ++ records.flatMap encodeRecord

def frameCommit (sequence : Nat) (records : List Record) : Bytes :=
  sealed (commitMagic ++ encode64 sequence ++ encode32 records.length ++
    encode32 (32 + records.length * 20) ++ encode32 (checksum (frameBody sequence records)))

def frame (sequence : Nat) (records : List Record) : Bytes :=
  frameBody sequence records ++ frameCommit sequence records

def checkFrameHeader (bytes : Bytes) : Bool :=
  let count := decode32 (bytes.drop 16)
  decide (bytes.take 8 = batchMagic ∧ count ≠ 0 ∧ count ≤ maxRecords ∧
    decode32 (bytes.drop 20) = 32 + count * 20 ∧ decode32 (bytes.drop 24) = 0 ∧
    checksum (bytes.take 28) = decode32 (bytes.drop 28))

-- The time of record `i` of a frame in scratch.
def frameTime (bytes : Bytes) (i : Nat) : Nat := decode64 (bytes.drop (36 + i * 20))

end Frames

end Timelite.Codec
