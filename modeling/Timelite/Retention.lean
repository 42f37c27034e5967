import Timelite.Reader

/-!
The writers of timelite.c that relocate installed segments: publishing a
retention manifest, copying a chain with its links rebuilt, and the recovery
phases 1 to 3 that a later open finishes.
-/
namespace Timelite.Retention
open ByteFile Program Codec Backend Reader

-- `sequence - 1` on uint64_t.
def prev64 (n : Nat) : Nat := if n = 0 then uint64Max else n - 1

def publishRetention (state : RetentionState) (count dataEnd last time tail root phase : Nat) :
    Io RetentionState :=
  if state.revision = uint64Max then Io.fail (.errno .eoverflow)
  else do
    writeExact .database (32 + 64 * ((state.revision + 1) % 2))
      (encodeRetention (state.revision + 1) count dataEnd last time tail root phase)
    fileSync .database
    pure ⟨state.revision + 1, root, phase, true⟩

section Expiry

def anyFrameAtOrAfter (cutoff : Nat) (frame : Frame) : Bool :=
  (List.range frame.records).any fun i => decide (frameTime frame.bytes i ≥ cutoff)

def expireFrames (limit cutoff : Nat) : (fuel position sequence : Nat) → Bool → Io (Nat × Bool)
  | 0, _, sequence, expires => pure (sequence, expires)
  | fuel + 1, position, sequence, expires =>
      if position < limit then do
        let frame ← complete (readFrame .database position limit sequence)
        expireFrames limit cutoff fuel (position + frame.bytes.length) (next64 sequence)
          (expires && !anyFrameAtOrAfter cutoff frame)
      else pure (sequence, expires)

/-- Legacy spans are unknown; inspect every validated record before deleting. -/
def segmentExpires (offset : Nat) (segment : SegmentInfo) (cutoff : Nat) : Io Bool :=
  if segment.headerSize = 64 ∨ cutoff = 0 then pure (decide (segment.maximum < cutoff))
  else do
    let position := offset + segment.headerSize
    let (sequence, expires) ←
      expireFrames (position + segment.body) cutoff segment.body position segment.first true
    Io.require (prev64 sequence = segment.last) .invalidDatabase
    pure expires

end Expiry

section Copying

structure Copy where
  destination : Nat
  previous : Nat
  count : Nat
  offsets : List Nat
  deriving DecidableEq, Repr

-- The header at its new place: links and checksum rewritten, 32-byte headers verbatim.
def relink (header : Bytes) (headerSize previous skip : Nat) : Bytes :=
  if headerSize = 64 then sealed (header.take 44 ++ encode64 previous ++ encode64 skip) else header

def copyFrames (limit : Nat) : (fuel position destination sequence : Nat) → Io (Nat × Nat)
  | 0, _, destination, sequence => pure (destination, sequence)
  | fuel + 1, position, destination, sequence =>
      if position < limit then do
        let frame ← complete (readFrame .database position limit sequence)
        writeExact .database destination frame.bytes
        copyFrames limit fuel (position + frame.bytes.length)
          (destination + frame.bytes.length) (next64 sequence)
      else pure (destination, sequence)

def copySegment (offset : Nat) (segment : SegmentInfo) (copy : Copy) : Io Copy := do
  let bit := linkLevel (copy.count + 1)
  let header ← readExact .database offset segment.headerSize
  writeExact .database copy.destination
    (relink header segment.headerSize copy.previous (copy.offsets.getD bit 0))
  let position := offset + segment.headerSize
  let (destination, sequence) ← copyFrames (position + segment.body) segment.body position
    (copy.destination + segment.headerSize) segment.first
  Io.require (prev64 sequence = segment.last) .invalidDatabase
  pure ⟨destination, copy.destination, copy.count + 1, markLevels copy.offsets bit copy.destination⟩

def copyExpires (filter : Bool) (offset : Nat) (segment : SegmentInfo) (cutoff : Nat) : Io Bool :=
  if filter then segmentExpires offset segment cutoff else pure false

def copyUnless (expires : Bool) (offset : Nat) (segment : SegmentInfo) (copy : Copy) : Io Copy :=
  if expires then pure copy else copySegment offset segment copy

def copyLoop (limit : Nat) (filter : Bool) (cutoff : Nat) : (fuel offset : Nat) → Copy → Io Copy
  | 0, _, copy => pure copy
  | fuel + 1, offset, copy =>
      if offset < limit then do
        let segment ← readSegment .database offset limit
        let expires ← copyExpires filter offset segment cutoff
        let copy ← copyUnless expires offset segment copy
        copyLoop limit filter cutoff fuel (offset + segment.headerSize + segment.body) copy
      else pure copy

/-- Source and destination extents never overlap. Preserve legacy header sizes
so a retained copy cannot be larger than its original set. Returns the new end
and the new tail. -/
def copySegments (root dataEnd destination : Nat) (filter : Bool) (cutoff : Nat) :
    Io (Nat × Nat) := do
  let copy ← copyLoop dataEnd filter cutoff (dataEnd - root) root
    ⟨destination, 0, 0, List.replicate 24 0⟩
  fileSync .database
  pure (copy.destination, copy.previous)

end Copying

structure Finished where
  dataEnd : Nat
  tail : Nat
  state : RetentionState
  deriving DecidableEq, Repr

def copyBack (state : RetentionState) (count dataEnd last time tail : Nat) : Io Finished :=
  if state.phase = 2 then do
    let (newEnd, newTail) ← copySegments state.root dataEnd 160 false 0
    let state ← publishRetention state count newEnd last time newTail 160 3
    pure ⟨newEnd, newTail, state⟩
  else pure ⟨dataEnd, tail, state⟩

def finishRetention (state : RetentionState) (count dataEnd last time tail : Nat) :
    Io Finished := do
  Io.require (state.revision ≤ uint64Max - 2) (.errno .eoverflow)
  let front ← copyBack state count dataEnd last time tail
  -- Keep an empty retained database distinguishable from legacy empty files.
  fileTruncate .database (if front.dataEnd = 160 then 161 else front.dataEnd)
  fileSync .database
  let state ← publishRetention front.state count front.dataEnd last time front.tail 160 0
  pure ⟨front.dataEnd, front.tail, state⟩

end Timelite.Retention
