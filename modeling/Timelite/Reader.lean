import Timelite.Backend

/-!
The parsers of timelite.c: pair headers, segment headers, frames, the choice
between the two manifest slots, the header walk of open and the lookup of an
ordinal through the backward links. They only read.
-/
namespace Timelite.Reader
open ByteFile Program Codec Backend

def pairHeader (file : File) (magic : Bytes) : Io Bytes := do
  let front ← readExact file 0 12
  Io.require (front.take 8 = magic ∧ decode32 (front.drop 8) ≠ 0) .invalidDatabase
  Io.require (decode32 (front.drop 8) = 2) .unsupportedVersion
  let back ← readExact file 12 20
  let header := front ++ back
  Io.require (checksum (header.take 28) = decode32 (header.drop 28)) .invalidDatabase
  pure header

section Segments

/-- The checks of `read_segment` on the bytes it has read. -/
def parseSegment (header : Bytes) (headerSize : Nat) (ordered : Bool) (offset limit : Nat) :
    Option SegmentInfo :=
  let first := decode64 (header.drop 8)
  let last := decode64 (header.drop 16)
  let body := decode32 (header.drop 24)
  let frames := last - first + 1
  let wide := headerSize = 64
  let minimum := if wide then decode64 (header.drop 28) else 0
  let maximum := if wide then decode64 (header.drop 36) else uint64Max
  let previous := if wide then decode64 (header.drop 44) else 0
  let skip := if wide then decode64 (header.drop 52) else 0
  if checksum (header.take (headerSize - 4)) ≠ decode32 (header.drop (headerSize - 4)) then none
  else if first = 0 ∨ last < first ∨ body > walCapacity - 32 ∨ body > limit - offset - headerSize then
    none
  else if frames > body / 84 ∨ body > frames * batchScratch then none
  else if minimum > maximum ∨ (previous ≠ 0 ∧ (previous < 160 ∨ previous ≥ offset)) ∨
      (skip ≠ 0 ∧ (skip < 160 ∨ skip ≥ offset)) then none
  else some ⟨first, last, minimum, maximum, previous, skip, body, headerSize, ordered⟩

def readSegment (file : File) (offset limit : Nat) : Io SegmentInfo := do
  Io.require (offset ≤ limit ∧ 32 ≤ limit - offset) .invalidDatabase
  let front ← readExact file offset 32
  let ordered := decide (front.take 8 = spanMagic)
  if ordered ∨ front.take 8 = unorderedMagic then
    Io.require (64 ≤ limit - offset) .invalidDatabase
    let back ← readExact file (offset + 32) 32
    match parseSegment (front ++ back) 64 ordered offset limit with
    | some segment => pure segment
    | none => Io.fail .invalidDatabase
  else
    Io.require (front.take 8 = segmentMagic) .invalidDatabase
    match parseSegment front 32 false offset limit with
    | some segment => pure segment
    | none => Io.fail .invalidDatabase

-- n & (~n + 1) on 64 bits.
def lowBit (n : Nat) : Nat := n &&& ((18446744073709551616 - n) % 18446744073709551616)

-- The bit whose power of two is `lowBit n`: the empty `for` loops of check_segments and copy_segments.
def linkLevel (n : Nat) : Nat := ((List.range 64).find? fun bit => 1 <<< bit == lowBit n).getD 64

-- offsets[0..bit] = offset.
def markLevels (offsets : List Nat) (bit offset : Nat) : List Nat :=
  List.replicate (bit + 1) offset ++ offsets.drop (bit + 1)

def forwardAt (limit : Nat) : (steps current : Nat) → Io (Nat × SegmentInfo)
  | 0, current => do
      let segment ← readSegment .database current limit
      pure (current, segment)
  | steps + 1, current => do
      let segment ← readSegment .database current limit
      forwardAt limit steps (current + segment.headerSize + segment.body)

-- `n` strictly decreases, so a fuel of the generation never runs out.
def segmentWalk (limit target : Nat) : (fuel n current : Nat) → Io (Nat × SegmentInfo)
  | 0, _, _ => Io.fail .invalidDatabase
  | fuel + 1, n, current =>
      if n = 0 then Io.fail .invalidDatabase
      else do
        let segment ← readSegment .database current limit
        if n = target then pure (current, segment)
        else if segment.headerSize = 32 then forwardAt limit (target - 1) dataStart
        else if n - lowBit n ≥ target then segmentWalk limit target fuel (n - lowBit n) segment.skip
        else segmentWalk limit target fuel (n - 1) segment.previous

/-- Locate an ordinal without allocating an index. Old headers have no links. -/
def segmentAt (limit generation tail target : Nat) : Io (Nat × SegmentInfo) :=
  segmentWalk limit target generation generation tail

end Segments

section Frames

-- What read_frame leaves in scratch, with the record count.
structure Frame where
  bytes : Bytes
  records : Nat
  deriving DecidableEq, Repr

/-- `endOfData` means a validated header establishes an incomplete final frame.
A short header is ambiguous and is deliberately not repaired. -/
def readFrame (file : File) (offset limit sequence : Nat) : Io Frame := do
  Io.require (32 ≤ limit - offset) .invalidDatabase
  let header ← readExact file offset 32
  Io.require (checkFrameHeader header = true ∧ decode64 (header.drop 8) = sequence) .invalidDatabase
  let count := decode32 (header.drop 16)
  let bodyLength := decode32 (header.drop 20)
  Io.require (bodyLength + 32 ≤ limit - offset) .endOfData
  let rest ← readExact file (offset + 32) bodyLength
  let bytes := header ++ rest
  let commit := bytes.drop bodyLength
  Io.require (commit.take 8 = commitMagic ∧ decode64 (commit.drop 8) = sequence ∧
    decode32 (commit.drop 16) = count ∧ decode32 (commit.drop 20) = bodyLength ∧
    decode32 (commit.drop 24) = checksum (bytes.take bodyLength) ∧
    decode32 (commit.drop 28) = checksum (commit.take 28)) .invalidDatabase
  pure ⟨bytes, count⟩

-- A frame that does not fit its bound is damage, never an incomplete tail.
def complete {α : Type} (reading : Io α) : Io α :=
  reading.examine fun
    | .error .endOfData => Io.fail .invalidDatabase
    | result => .done result

end Frames

section Manifests

structure Manifests where
  legacy : Bool
  generation : Nat
  dataEnd : Nat
  last : Nat
  lastTime : Nat
  tail : Nat
  hasTime : Bool
  state : RetentionState
  deriving DecidableEq, Repr

-- What open starts from when no manifest is chosen.
def noManifest (legacy : Bool) : Manifests :=
  ⟨legacy, 0, dataStart, 0, 0, 0, false, ⟨0, 160, 0, false⟩⟩

def slotManifest (index : Nat) (slot : Bytes) (size : Nat) : Option Manifests :=
  let revision := decode64 (slot.drop 8)
  if revision % 2 ≠ index then none
  else if retentionManifest slot size then
    some ⟨false, decode32 (slot.drop 52), decode64 (slot.drop 16), decode64 (slot.drop 24),
      decode64 (slot.drop 32), decode32 (slot.drop 40), true,
      ⟨revision, decode32 (slot.drop 44), decode32 (slot.drop 56), true⟩⟩
  else
    match checkManifest slot size with
    | none => none
    | some (g, d, l) =>
        some ⟨false, g, d, l, decode64 (slot.drop 32), decode64 (slot.drop 40),
          decide (decode32 (slot.drop 48) = 7), ⟨revision, 160, 0, false⟩⟩

-- One iteration of the slot loop: a short read is skipped, a newer slot wins.
def chooseSlot (index : Nat) (slot : Bytes) (size : Nat) (found : Option Manifests) :
    Option Manifests :=
  if slot.length ≠ 64 then found
  else
    match slotManifest index slot size, found with
    | none, found => found
    | some manifest, none => some manifest
    | some manifest, some best =>
        if manifest.state.revision > best.state.revision then some manifest else some best

/-- Choose the newest valid manifest. A 32-byte database is the feature 004
layout with nothing installed. Without any valid manifest, a file of at most
160 bytes is empty (an install always leaves more), anything larger fails. -/
def readManifests (size : Nat) : Io Manifests :=
  if size = 32 then pure (noManifest true)
  else do
    let even ← fileRead .database 32 64
    let odd ← fileRead .database 96 64
    match chooseSlot 1 odd size (chooseSlot 0 even size none) with
    | some manifest => pure manifest
    | none =>
        Io.require (size ≤ dataStart) .invalidDatabase
        pure (noManifest false)

end Manifests

section HeaderWalk

structure Walk where
  offset : Nat
  previous : Nat
  sequence : Nat
  priorMax : Nat
  spanStart : Nat
  live : Nat
  offsets : List Nat
  segment : Option SegmentInfo
  deriving DecidableEq, Repr

def startWalk (root : Nat) : Walk := ⟨root, 0, 0, 0, 1, 0, List.replicate 24 0, none⟩

-- The part of an iteration after the checks have passed.
def Walk.step (walk : Walk) (n : Nat) (segment : SegmentInfo) : Walk where
  offset := walk.offset + segment.headerSize + segment.body
  previous := walk.offset
  sequence := segment.last
  priorMax := if segment.headerSize = 64 then segment.maximum else 0
  spanStart :=
    if segment.headerSize = 64 then
      if !segment.ordered then n + 1
      else if segment.minimum < walk.priorMax then n
      else walk.spanStart
    else n + 1
  live := walk.live + (segment.last - segment.first + 1)
  offsets := markLevels walk.offsets (linkLevel n) walk.offset
  segment := some segment

def walkSegments (dataEnd : Nat) (enabled : Bool) : (remaining n : Nat) → Walk → Io Walk
  | 0, _, walk => pure walk
  | remaining + 1, n, walk => do
      let segment ← readSegment .database walk.offset dataEnd
      Io.require (walk.sequence ≠ uint64Max ∧ walk.sequence < segment.first ∧
        (enabled = true ∨ segment.first = walk.sequence + 1)) .invalidDatabase
      Io.require (segment.headerSize = 64 →
        segment.previous = walk.previous ∧ segment.skip = walk.offsets.getD (linkLevel n) 0)
        .invalidDatabase
      walkSegments dataEnd enabled remaining (n + 1) (walk.step n segment)

-- Only legacy final segments lack a persisted last timestamp.
def lastFrameTime (limit : Nat) : (fuel position sequence time : Nat) → Io Nat
  | 0, _, _, time => pure time
  | fuel + 1, position, sequence, time =>
      if position < limit then do
        let frame ← complete (readFrame .database position limit sequence)
        lastFrameTime limit fuel (position + frame.bytes.length) (next64 sequence)
          (frameTime frame.bytes (frame.records - 1))
      else pure time

structure Checked where
  tail : Nat
  lastTime : Nat
  spanStart : Nat
  live : Nat
  deriving DecidableEq, Repr

/-- Validate links while walking headers. Each table entry holds the last
offset at a multiple of 2^bit; 24 entries cover the 1 GiB capacity. -/
def checkSegments (generation dataEnd last tail lastTime : Nat) (hasTime : Bool)
    (state : RetentionState) : Io Checked := do
  let walk ← walkSegments dataEnd state.enabled generation 1 (startWalk state.root)
  Io.require (walk.offset = dataEnd ∧ walk.sequence ≤ last ∧
    (state.enabled = true ∨ walk.sequence = last) ∧ (hasTime = true → tail = walk.previous))
    .invalidDatabase
  match walk.segment with
  | none => pure ⟨walk.previous, lastTime, walk.spanStart, walk.live⟩
  | some segment =>
      if segment.ordered = true ∧ state.enabled = false then do
        Io.require (hasTime = true → lastTime = segment.maximum) .invalidDatabase
        pure ⟨walk.previous, segment.maximum, walk.spanStart, walk.live⟩
      else if hasTime = false then do
        let position := walk.previous + segment.headerSize
        let time ← lastFrameTime dataEnd (dataEnd - position) position segment.first lastTime
        pure ⟨walk.previous, time, walk.spanStart, walk.live⟩
      else pure ⟨walk.previous, lastTime, walk.spanStart, walk.live⟩

end HeaderWalk

end Timelite.Reader
