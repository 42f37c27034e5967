import Timelite.Grammar

/-!
Installed data whose bodies may hold anything. A reader inside a region sees
that region only, so the parsers are functions of an image; what lies between
two headers is the longest run of frames that read.
-/
namespace Timelite.Opaque
open ByteFile Program Durable Codec CodecLaws Backend BackendLaws Layout FrameLaws HeaderWalk SlotLaws WalLaws
  Images Databases Reader Retention BatchApi Decoding Grammar

section Locality
variable {α β : Type} {file : File} {low high : Nat} {store store' : Store}

/-- Every request reads inside the region. -/
def Within (file : File) (low high : Nat) : Prog Reply α → Prop
  | .done _ => True
  | .ask request next =>
      (∃ offset length, request = .read file offset length ∧ low ≤ offset ∧ offset + length ≤ high) ∧
        ∀ reply, Within file low high (next reply)

theorem within_run {program : Prog Reply α} (within : Within file low high program)
    (same : Agree (store.content file) (store'.content file) low high) :
    (Prog.run device program store).1 = (Prog.run device program store').1 := by
  induction program with
  | done value => rfl
  | ask request next ih =>
      obtain ⟨⟨offset, length, rfl, above, below⟩, rest⟩ := within
      have bytes := same.read offset length above below
      change (Prog.run device (next (.ok (readAt (store.content file) offset length))) store).1 =
        (Prog.run device (next (.ok (readAt (store'.content file) offset length))) store').1
      rw [bytes]
      exact ih _ (rest _)

theorem within_on {program : Io α} (within : Within file low high program)
    (same : Agree (store.content file) (store'.content file) low high) :
    (on program store).1 = (on program store').1 := within_run within same

theorem within_prog {program : Prog Reply α} {next : α → Prog Reply β} (first : Within file low high program)
    (rest : ∀ value, Within file low high (next value)) : Within file low high (program.bind next) := by
  induction program with
  | done value => exact rest value
  | ask request tail ih => exact ⟨first.1, fun reply => ih reply (first.2 reply)⟩

theorem within_bind {first : Io α} {next : α → Io β} (front : Within file low high first)
    (rest : ∀ value, Within file low high (next value)) : Within file low high (first >>= next : Io β) := by
  refine within_prog front fun result => ?_
  cases result with
  | error error => trivial
  | ok value => exact rest value

-- What follows a check may rely on it.
theorem within_require {condition : Prop} [Decidable condition] {error : Error} {next : Unit → Io β}
    (rest : condition → Within file low high (next ())) :
    Within file low high (Io.require condition error >>= next : Io β) := by
  by_cases passes : condition
  · have shape : (Io.require condition error >>= next : Io β) = next () := by
      unfold Io.require
      rw [if_pos passes]
      rfl
    rw [shape]
    exact rest passes
  · have shape : (Io.require condition error >>= next : Io β) = Io.fail error := by
      unfold Io.require
      rw [if_neg passes]
      rfl
    rw [shape]
    trivial

theorem within_read_exact {offset length : Nat} (above : low ≤ offset) (below : offset + length ≤ high) :
    Within file low high (readExact file offset length) := by
  refine within_bind ⟨⟨offset, length, rfl, above, below⟩, fun reply => ?_⟩ fun bytes => ?_
  · cases reply <;> trivial
  · exact within_require fun _ => trivial

end Locality

section Errors
variable {α β : Type} {allowed : Error → Prop}

/-- The errors of an undisturbed run. -/
def Errs (allowed : Error → Prop) (program : Io α) : Prop :=
  ∀ store error, (on program store).1 = .error error → allowed error

theorem errs_pure (value : α) : Errs allowed (pure value : Io α) := fun _ _ failed => by cases failed

theorem errs_fail {error : Error} (known : allowed error) : Errs allowed (Io.fail error : Io α) := by
  intro store error' failed
  cases failed
  exact known

theorem errs_bind {first : Io α} {next : α → Io β} (front : Errs allowed first) (rest : ∀ value, Errs allowed (next value)) :
    Errs allowed (first >>= next) := by
  intro store error failed
  cases ran : on first store with
  | mk result after =>
      cases result with
      | ok value =>
          rw [on_bind_ok ran] at failed
          exact rest value after error failed
      | error error' =>
          rw [on_bind_error ran] at failed
          cases failed
          exact front store error (congrArg Prod.fst ran)

theorem errs_require {condition : Prop} [Decidable condition] {error : Error} (known : allowed error) :
    Errs allowed (Io.require condition error) := by
  unfold Io.require
  split
  · exact errs_pure ()
  · exact errs_fail known

theorem errs_read_exact (file : File) (offset length : Nat) (known : allowed .invalidDatabase) :
    Errs allowed (readExact file offset length) := by
  refine errs_bind (fun store error failed => by cases failed) fun bytes => ?_
  exact errs_bind (errs_require known) fun _ => errs_pure bytes

end Errors

section Parsers
variable {d d' : Bytes} {offset limit sequence : Nat} {store : Store}

/-- A database image on its own. -/
def image (d : Bytes) : Store := ⟨some (settled d), none, []⟩

theorem within_segment (file : File) (offset limit : Nat) : Within file offset limit (readSegment file offset limit) := by
  refine within_require fun room => within_bind (within_read_exact (Nat.le_refl _) (by omega)) fun front => ?_
  by_cases wide : decide (front.take 8 = spanMagic) = true ∨ front.take 8 = unorderedMagic
  · simp only [wide, if_true]
    refine within_require fun large => within_bind (within_read_exact (by omega) (by omega)) fun back => ?_
    cases parseSegment (front ++ back) 64 (decide (front.take 8 = spanMagic)) offset limit <;> trivial
  · simp only [wide, if_false]
    refine within_require fun _ => ?_
    cases parseSegment front 32 false offset limit <;> trivial

theorem within_frame (file : File) (offset limit sequence : Nat) :
    Within file offset limit (readFrame file offset limit sequence) := by
  refine within_require fun room => within_bind (within_read_exact (Nat.le_refl _) (by omega)) fun header =>
    within_require fun _ => within_require fun fits => ?_
  exact within_bind (within_read_exact (by omega) (by omega)) fun rest => within_require fun _ => trivial

/-- The segment header of an image at `offset`. -/
def headerIn (d : Bytes) (offset limit : Nat) : Except Error SegmentInfo :=
  (on (readSegment .database offset limit) (image d)).1

/-- The frame of an image at `offset`. -/
def frameIn (d : Bytes) (offset limit sequence : Nat) : Except Error Frame :=
  (on (readFrame .database offset limit sequence) (image d)).1

theorem read_header (same : Agree (store.content .database) d offset limit) :
    on (readSegment .database offset limit) store = (headerIn d offset limit, store) :=
  ((SegmentLaws.reads_readSegment _ _ _).on_eq store).trans
    (Prod.ext (within_on (within_segment _ _ _) same) rfl)

theorem read_frame_in (same : Agree (store.content .database) d offset limit) :
    on (readFrame .database offset limit sequence) store = (frameIn d offset limit sequence, store) :=
  ((FrameLaws.reads_readFrame _ _ _ _).on_eq store).trans
    (Prod.ext (within_on (within_frame _ _ _ _) same) rfl)

/-- What every accepted segment header says of itself. -/
structure Header (d : Bytes) (offset limit : Nat) (info : SegmentInfo) : Prop where
  size : info.headerSize = 32 ∨ info.headerSize = 64
  inside : offset + info.headerSize ≤ d.length
  fits : offset + info.headerSize + info.body ≤ limit
  counted : 0 < info.first
  order : info.first ≤ info.last
  top : info.last < 18446744073709551616
  body : info.body ≤ walCapacity - 32
  least : (info.last - info.first + 1) * 84 ≤ info.body
  most : info.body ≤ (info.last - info.first + 1) * batchScratch
  span : info.minimum ≤ info.maximum
  maximum : info.maximum < 18446744073709551616
  previous : info.previous = 0 ∨ 160 ≤ info.previous ∧ info.previous < offset
  skip : info.skip = 0 ∨ 160 ≤ info.skip ∧ info.skip < offset

theorem parse_header {header : Bytes} {headerSize : Nat} {ordered : Bool} {info : SegmentInfo}
    (size : headerSize = 32 ∨ headerSize = 64) (inside : offset + headerSize ≤ d.length) (room : offset + headerSize ≤ limit)
    (parsed : parseSegment header headerSize ordered offset limit = some info) :
    Header d offset limit info ∧ info.headerSize = headerSize := by
  have top := decode64_lt (header.drop 16)
  have top' : (if headerSize = 64 then decode64 (header.drop 36) else uint64Max) < 18446744073709551616 := by
    by_cases wide : headerSize = 64
    · rw [if_pos wide]
      exact decode64_lt _
    · rw [if_neg wide]
      decide
  have few := Nat.div_mul_le_self (decode32 (header.drop 24)) 84
  simp only [parseSegment] at parsed
  generalize (if headerSize = 64 then decode64 (header.drop 28) else 0) = minimum at parsed
  generalize (if headerSize = 64 then decode64 (header.drop 36) else uint64Max) = maximum at parsed top'
  generalize (if headerSize = 64 then decode64 (header.drop 44) else 0) = previous at parsed
  generalize (if headerSize = 64 then decode64 (header.drop 52) else 0) = skip at parsed
  generalize decode64 (header.drop 8) = first at parsed
  generalize decode64 (header.drop 16) = last at parsed top
  generalize decode32 (header.drop 24) = body at parsed few
  by_cases unsealed : checksum (header.take (headerSize - 4)) ≠ decode32 (header.drop (headerSize - 4))
  · rw [if_pos unsealed] at parsed
    cases parsed
  rw [if_neg unsealed] at parsed
  by_cases range : first = 0 ∨ last < first ∨ body > walCapacity - 32 ∨ body > limit - offset - headerSize
  · rw [if_pos range] at parsed
    cases parsed
  rw [if_neg range] at parsed
  by_cases count : last - first + 1 > body / 84 ∨ body > (last - first + 1) * batchScratch
  · rw [if_pos count] at parsed
    cases parsed
  rw [if_neg count] at parsed
  by_cases links : minimum > maximum ∨ (previous ≠ 0 ∧ (previous < 160 ∨ previous ≥ offset)) ∨
      (skip ≠ 0 ∧ (skip < 160 ∨ skip ≥ offset))
  · rw [if_pos links] at parsed
    cases parsed
  rw [if_neg links] at parsed
  cases parsed
  exact ⟨⟨size, inside, by simp only; omega, by simp only; omega, by simp only; omega, top, by simp only; omega,
    by simp only; omega, by simp only; omega, by simp only; omega, top', by simp only; omega, by simp only; omega⟩, rfl⟩

theorem header_of {info : SegmentInfo} (ran : (on (readSegment .database offset limit) store).1 = .ok info) :
    Header (store.content .database) offset limit info := by
  rw [readSegment, on_require_bind] at ran
  by_cases room : offset ≤ limit ∧ 32 ≤ limit - offset
  · rw [if_pos room, on_bind, on_read_exact] at ran
    by_cases full : (readAt (store.content .database) offset 32).length = 32
    · rw [if_pos full] at ran
      simp only at ran
      generalize shape : readAt (store.content .database) offset 32 = front at ran
      have inside := full
      simp only [read_length] at inside
      by_cases wide : decide (front.take 8 = spanMagic) = true ∨ front.take 8 = unorderedMagic
      · rw [if_pos wide, on_require_bind] at ran
        by_cases large : 64 ≤ limit - offset
        · rw [if_pos large, on_bind, on_read_exact] at ran
          by_cases full' : (readAt (store.content .database) (offset + 32) 32).length = 32
          · rw [if_pos full'] at ran
            simp only [read_length] at full' ran
            cases parsed : parseSegment (front ++ readAt (store.content .database) (offset + 32) 32) 64
                (decide (front.take 8 = spanMagic)) offset limit with
            | none =>
                rw [parsed] at ran
                cases ran
            | some segment =>
                rw [parsed] at ran
                cases ran
                exact (parse_header (.inr rfl) (by omega) (by omega) parsed).1
          · rw [if_neg full'] at ran
            cases ran
        · rw [if_neg large] at ran
          cases ran
      · rw [if_neg wide, on_require_bind] at ran
        by_cases narrow : front.take 8 = segmentMagic
        · rw [if_pos narrow] at ran
          cases parsed : parseSegment front 32 false offset limit with
          | none =>
              rw [parsed] at ran
              cases ran
          | some segment =>
              rw [parsed] at ran
              cases ran
              exact (parse_header (.inl rfl) (by omega) (by omega) parsed).1
        · rw [if_neg narrow] at ran
          cases ran
    · rw [if_neg full] at ran
      cases ran
  · rw [if_neg room] at ran
    cases ran

theorem header_in {info : SegmentInfo} (found : headerIn d offset limit = .ok info) : Header d offset limit info :=
  header_of found

theorem errs_segment (file : File) (offset limit : Nat) : Errs (fun error => error = .invalidDatabase) (readSegment file offset limit) := by
  refine errs_bind (errs_require rfl) fun _ => errs_bind (errs_read_exact _ _ _ rfl) fun front => ?_
  by_cases wide : decide (front.take 8 = spanMagic) = true ∨ front.take 8 = unorderedMagic
  · simp only [wide, if_true]
    refine errs_bind (errs_require rfl) fun _ => errs_bind (errs_read_exact _ _ _ rfl) fun back => ?_
    cases parseSegment (front ++ back) 64 (decide (front.take 8 = spanMagic)) offset limit with
    | none => exact errs_fail rfl
    | some segment => exact errs_pure segment
  · simp only [wide, if_false]
    refine errs_bind (errs_require rfl) fun _ => ?_
    cases parseSegment front 32 false offset limit with
    | none => exact errs_fail rfl
    | some segment => exact errs_pure segment

theorem header_error {error : Error} (failed : headerIn d offset limit = .error error) : error = .invalidDatabase :=
  errs_segment .database offset limit (image d) error failed

theorem frame_in {frame : Frame} (found : frameIn d offset limit sequence = .ok frame) :
    Holds d offset frame.bytes ∧ 64 < frame.bytes.length ∧ offset + frame.bytes.length ≤ limit := by
  obtain ⟨held, fits, some, few, length, same⟩ := accepted_frame found
  refine ⟨held, ?_, fits⟩
  rw [same, frame_length, length]
  omega

end Parsers

section Bodies
variable {d : Bytes} {limit fuel position sequence : Nat}

/-- The frames from `position` on up to the first that does not read, and the
sequence number after them if all of them do. -/
def frameRun (d : Bytes) (limit : Nat) : (fuel position sequence : Nat) → List Frame × Option Nat
  | 0, _, sequence => ([], some sequence)
  | fuel + 1, position, sequence =>
      if position < limit then
        match frameIn d position limit sequence with
        | .ok frame =>
            let rest := frameRun d limit fuel (position + frame.bytes.length) (next64 sequence)
            (frame :: rest.1, rest.2)
        | .error _ => ([], none)
      else ([], some sequence)

/-- The frames of a body. -/
def bodyRun (d : Bytes) (offset : Nat) (segment : SegmentInfo) : List Frame × Option Nat :=
  frameRun d (offset + segment.headerSize + segment.body) segment.body (offset + segment.headerSize) segment.first

/-- The body is exactly the frames that its header numbers. -/
def Tiled (d : Bytes) (offset : Nat) (segment : SegmentInfo) : Prop :=
  (bodyRun d offset segment).2.map prev64 = some segment.last

instance (d : Bytes) (offset : Nat) (segment : SegmentInfo) : Decidable (Tiled d offset segment) :=
  inferInstanceAs (Decidable (_ = _))

def runBytes (frames : List Frame) : Bytes := frames.flatMap Frame.bytes

theorem frame_run_ok {frame : Frame} (more : position < limit) (found : frameIn d position limit sequence = .ok frame) :
    frameRun d limit (fuel + 1) position sequence =
      (frame :: (frameRun d limit fuel (position + frame.bytes.length) (next64 sequence)).1,
        (frameRun d limit fuel (position + frame.bytes.length) (next64 sequence)).2) := by
  rw [frameRun, if_pos more, found]

theorem frame_run_error {error : Error} (more : position < limit) (found : frameIn d position limit sequence = .error error) :
    frameRun d limit (fuel + 1) position sequence = ([], none) := by
  rw [frameRun, if_pos more, found]

theorem frame_run_end (ends : ¬ position < limit) : frameRun d limit fuel position sequence = ([], some sequence) := by
  cases fuel with
  | zero => rfl
  | succ fuel => rw [frameRun, if_neg ends]

-- The run stays inside its region, and fills it when nothing is damaged.
theorem frame_run_length (inside : position ≤ limit) (enough : limit - position ≤ fuel) :
    (runBytes (frameRun d limit fuel position sequence).1).length ≤ limit - position ∧
      ((frameRun d limit fuel position sequence).2.isSome = true →
        (runBytes (frameRun d limit fuel position sequence).1).length = limit - position) := by
  induction fuel generalizing position sequence with
  | zero => exact ⟨Nat.zero_le _, fun _ => (Nat.le_zero.mp enough).symm⟩
  | succ fuel ih =>
      by_cases more : position < limit
      · cases found : frameIn d position limit sequence with
        | error error =>
            rw [frame_run_error more found]
            exact ⟨Nat.zero_le _, fun some => by cases some⟩
        | ok frame =>
            obtain ⟨_, large, fits⟩ := frame_in found
            obtain ⟨most, whole⟩ := @ih (position + frame.bytes.length) (next64 sequence) (by omega) (by omega)
            rw [frame_run_ok more found]
            simp only [runBytes, List.flatMap_cons, List.length_append] at most whole ⊢
            exact ⟨by omega, fun some => by have := whole some; omega⟩
      · rw [frame_run_end more]
        exact ⟨Nat.zero_le _, fun _ => by simp only [runBytes, List.flatMap_nil, List.length_nil]; omega⟩

end Bodies

section Validation
variable {α β : Type} {store : Store}

theorem chosen_read {m : Manifests}
    (read : on (readManifests (store.content .database).length) store = (.ok m, store)) :
    chosen (store.content .database) = some m := by
  rw [read_manifests] at read
  have read := congrArg Prod.fst read
  simp only at read
  unfold chosen
  by_cases legacy : (store.content .database).length = 32
  · rw [if_pos legacy] at read ⊢
    rw [Except.ok.inj read]
  · rw [if_neg legacy] at read ⊢
    cases found : selected (store.content .database) with
    | some m' =>
        rw [found] at read
        exact congrArg some (Except.ok.inj read)
    | none =>
        rw [found] at read
        simp only at read ⊢
        by_cases small : (store.content .database).length ≤ dataStart
        · rw [if_pos small] at read ⊢
          rw [Except.ok.inj read]
        · rw [if_neg small] at read
          cases read

theorem bind_ok {first : Io α} {next : α → Io β} {result : β} (reads : Reads first)
    (ran : (on (first >>= next) store).1 = .ok result) :
    ∃ value, on first store = (.ok value, store) ∧ (on (next value) store).1 = .ok result := by
  have shape := reads.on_eq store
  cases value : (on first store).1 with
  | error error =>
      rw [value] at shape
      rw [on_bind_error shape] at ran
      cases ran
  | ok value' =>
      rw [value] at shape
      rw [on_bind_ok shape] at ran
      exact ⟨value', shape, ran⟩

theorem require_ok {condition : Prop} [Decidable condition] {error : Error} {next : Unit → Io β} {result : β}
    (ran : (on (Io.require condition error >>= next) store).1 = .ok result) :
    condition ∧ (on (next ()) store).1 = .ok result := by
  rw [on_require_bind] at ran
  by_cases passes : condition
  · rw [if_pos passes] at ran
    exact ⟨passes, ran⟩
  · rw [if_neg passes] at ran
    cases ran

/-- An accepted pair header is the encoding of its identity. -/
theorem pair_bytes {file : File} {magic header : Bytes} (width : magic.length = 8)
    (ran : (on (pairHeader file magic) store).1 = .ok header) :
    Holds (store.content file) 0 (encodePair magic ((header.drop 12).take 16)) ∧ ((header.drop 12).take 16).length = 16 := by
  unfold pairHeader at ran
  obtain ⟨front, read, ran⟩ := bind_ok (reads_read_exact _ _ _) ran
  obtain ⟨begins, ran⟩ := require_ok ran
  obtain ⟨version, ran⟩ := require_ok ran
  obtain ⟨back, again, ran⟩ := bind_ok (reads_read_exact _ _ _) ran
  obtain ⟨checks, ran⟩ := require_ok ran
  cases ran
  rw [on_read_exact] at read again
  have read := congrArg Prod.fst read
  have again := congrArg Prod.fst again
  simp only at read again
  by_cases full : (readAt (store.content file) 0 12).length = 12
  · by_cases full' : (readAt (store.content file) 12 20).length = 20
    · rw [if_pos full] at read
      rw [if_pos full'] at again
      have front' := Except.ok.inj read
      have back' := Except.ok.inj again
      have length : front.length = 12 := by
        rw [← front']
        exact full
      have length' : back.length = 20 := by
        rw [← back']
        exact full'
      have whole : Holds (store.content file) 0 (front ++ back) := by
        rw [holds_append, Nat.zero_add, length]
        exact ⟨by rw [Holds, length]; exact front', by rw [Holds, length']; exact back'⟩
      have size : (front ++ back).length = 32 := by rw [List.length_append, length, length']
      have wide : (((front ++ back).drop 12).take 16).length = 16 := by
        rw [List.length_take, List.length_drop, size]
        rfl
      have first : (front ++ back).take 8 = magic := by
        rw [List.take_append_of_le_length (by omega)]
        exact begins.1
      have number : decode32 ((front ++ back).drop 8) = 2 := by
        rw [← version, List.drop_append_of_le_length (by omega)]
        unfold decode32
        rw [List.take_append_of_le_length (by rw [List.length_drop, length])]
      have inner : Holds (front ++ back) 0 (encodePair magic (((front ++ back).drop 12).take 16)) := by
        refine holds_sealed ?_ ?_ ?_
        · rw [holds_append, holds_append]
          simp only [List.length_append, encode32_length, width, Nat.zero_add]
          refine ⟨⟨?_, holds_field32 (by omega) number⟩, ?_⟩
          · have held := @holds_take (front ++ back) 8 (by omega)
            rwa [first] at held
          · rw [Holds, wide, readAt]
        · simp only [List.length_append, encode32_length, width, wide]
          omega
        · simp only [List.length_append, encode32_length, width, wide]
          exact checks
      refine ⟨?_, wide⟩
      have some_ : encodePair magic (((front ++ back).drop 12).take 16) ≠ [] := by
        intro empty
        have none_ := congrArg List.length empty
        simp only [encodePair, sealed, List.length_append, encode32_length, width, List.length_nil] at none_
        omega
      have held := whole.within inner some_
      rwa [Nat.zero_add] at held
    · rw [if_neg full'] at again
      cases again
  · rw [if_neg full] at read
    cases read

/-- What validation has seen of a pair that it passes. -/
structure Accepted (store : Store) (v : Validated) : Prop where
  pair : ∃ identity : Bytes, identity.length = 16 ∧ Holds (store.content .database) 0 (encodePair databaseMagic identity) ∧
    Holds (store.content .wal) 0 (encodePair walMagic identity)
  found : chosen (store.content .database) = some v.manifests
  checked : on (checkSegments v.manifests.generation v.manifests.dataEnd v.manifests.last v.manifests.tail
    v.manifests.lastTime v.manifests.hasTime v.manifests.state) store = (.ok v.checked, store)
  size : v.walSize = (store.content .wal).length
  least : 32 ≤ v.walSize
  most : v.walSize ≤ walCapacity
  scanned : ∃ stale, on (staleSequence v.manifests.last v.walSize) store = (.ok stale, store) ∧ v.stale = stale.isSome ∧
    on (scanWal v.walSize v.stale v.walSize (startScan (stale.getD v.manifests.last))) store = (.ok v.scan, store)
  ends : v.stale = true → v.scan.sequence = v.manifests.last
  slack : ¬ ((store.content .database).length > v.manifests.dataEnd ∧ v.manifests.state.phase = 0 ∧
    ¬ (v.manifests.state.enabled = true ∧ v.manifests.generation = 0 ∧ (store.content .database).length = 161) ∧
    (v.stale = true ∨ v.scan.sequence = v.manifests.last))

theorem accepted {v : Validated} (ran : (on validatePair store).1 = .ok v) : Accepted store v := by
  unfold validatePair at ran
  obtain ⟨header, first, ran⟩ := bind_ok (reads_pairHeader _ _) ran
  obtain ⟨walHeader, second, ran⟩ := bind_ok (reads_pairHeader _ _) ran
  obtain ⟨match_, ran⟩ := require_ok ran
  have pair := pair_bytes rfl (congrArg Prod.fst first)
  have walPair := pair_bytes rfl (congrArg Prod.fst second)
  rw [← match_] at walPair
  rw [on_bind_ok (on_size _ _)] at ran
  obtain ⟨m, read, ran⟩ := bind_ok (reads_readManifests _) ran
  obtain ⟨checked, walk, ran⟩ := bind_ok (reads_checkSegments _ _ _ _ _ _ _) ran
  rw [on_bind_ok (on_size _ _)] at ran
  obtain ⟨range, ran⟩ := require_ok ran
  obtain ⟨stale, starts, ran⟩ := bind_ok (reads_staleSequence _ _) ran
  obtain ⟨scan, rest, ran⟩ := bind_ok (reads_scanWal _ _ _ _) ran
  obtain ⟨ends, ran⟩ := require_ok ran
  obtain ⟨slack, ran⟩ := require_ok ran
  cases ran
  exact ⟨⟨_, pair.2, pair.1, walPair.1⟩, chosen_read read, walk, rfl, range.1, range.2, ⟨stale, starts, rfl, rest⟩, ends, slack⟩

end Validation

end Timelite.Opaque
