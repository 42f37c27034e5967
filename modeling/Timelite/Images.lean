import Timelite.Contents

/-!
Which pairs of file images hold a content, and what `validatePair` makes of
them. `Installed` is the database side under a manifest, `Logged` the WAL side:
the pending frames with a cut append after them, or the leftover of an install.
-/
namespace Timelite.Images
open ByteFile Program Codec CodecLaws Backend BackendLaws Layout FrameLaws HeaderWalk SlotLaws WalLaws
  Contents Reader BatchApi Spans

section PairHeaders
variable {store : Store} {file : File} {magic identity : Bytes}

theorem reads_pairHeader (file : File) (magic : Bytes) : Reads (pairHeader file magic) :=
  reads_bind (reads_read_exact _ _ _) fun _ => reads_bind (reads_require _ _) fun _ =>
    reads_bind (reads_require _ _) fun _ => reads_bind (reads_read_exact _ _ _) fun _ =>
    reads_bind (reads_require _ _) fun _ => reads_pure _

theorem pair_fields {m : Bytes} (held : Holds m 0 (encodePair magic identity)) (long : magic.length = 8)
    (wide : identity.length = 16) :
    Holds m 0 magic ∧ Holds m 8 (encode32 2) ∧ Holds m 12 identity ∧
      checksum (m.take 28) = decode32 (m.drop 28) := by
  have checks := sealed_checks held
  rw [encodePair, sealed, holds_append] at held
  have body := held.1
  simp only [holds_append, List.length_append, encode32_length, long, wide] at body checks
  exact ⟨body.1.1, body.1.2, body.2, checks⟩

theorem pair_header (held : Holds (store.content file) 0 (encodePair magic identity))
    (long : magic.length = 8) (wide : identity.length = 16) :
    on (pairHeader file magic) store = (.ok (encodePair magic identity), store) := by
  have length : (encodePair magic identity).length = 32 := by simp [long, wide]
  obtain ⟨name, version, _, checks⟩ := pair_fields (holds_self (encodePair magic identity)) long wide
  have front := on_read_holds (held.take 12) (show _ = 12 by simp [long, wide])
  have back := on_read_holds (held.drop 12 (by omega)) (show _ = 20 by simp [long, wide])
  have magic' : ((encodePair magic identity).take 12).take 8 = magic := by
    rw [List.take_take]
    exact take_holds name long
  have deep := (holds_self (encodePair magic identity)).take 12
  have version' : decode32 (((encodePair magic identity).take 12).drop 8) = 2 := by
    apply decode32_holds _ (by omega)
    have part := deep
    rw [holds_iff] at version ⊢
    intro i inside
    rw [encode32_length] at inside
    rw [← version i (by simpa using inside), List.getElem?_take, if_pos (by omega)]
  rw [pairHeader, on_bind_ok front, on_require_bind, if_pos ⟨magic', by rw [version']; decide⟩,
    on_require_bind, if_pos version', on_bind_ok back]
  simp only [List.take_append_drop]
  rw [on_require_bind, if_pos checks]
  rfl

theorem pair_identity (long : magic.length = 8) (wide : identity.length = 16) :
    ((encodePair magic identity).drop 12).take 16 = identity :=
  drop_take_holds (pair_fields (holds_self _) long wide).2.2.1 wide

end PairHeaders

section Database

/-- The manifest open starts from. -/
def chosen (database : Bytes) : Option Manifests :=
  if database.length = 32 then some (noManifest true)
  else match selected database with
    | some m => some m
    | none => if database.length ≤ dataStart then some (noManifest false) else none

theorem read_chosen {store : Store} {m : Manifests} (found : chosen (store.content .database) = some m) :
    on (readManifests (store.content .database).length) store = (.ok m, store) := by
  rw [read_manifests]
  unfold chosen at found
  by_cases legacy : (store.content .database).length = 32
  · rw [if_pos legacy] at found ⊢
    rw [Option.some.inj found]
  · rw [if_neg legacy] at found ⊢
    cases read : selected (store.content .database) with
    | some m' =>
        simp only [read] at found ⊢
        rw [Option.some.inj found]
    | none =>
        simp only [read] at found ⊢
        by_cases small : (store.content .database).length ≤ dataStart
        · rw [if_pos small] at found ⊢
          rw [Option.some.inj found]
        · rw [if_neg small] at found
          cases found

theorem read_unchosen {store : Store} (none : chosen (store.content .database) = none) :
    on (readManifests (store.content .database).length) store = (.error .invalidDatabase, store) := by
  rw [read_manifests]
  unfold chosen at none
  by_cases legacy : (store.content .database).length = 32
  · rw [if_pos legacy] at none
    cases none
  · rw [if_neg legacy] at none ⊢
    cases read : selected (store.content .database) with
    | some m =>
        simp only [read] at none
        cases none
    | none =>
        simp only [read] at none ⊢
        by_cases small : (store.content .database).length ≤ dataStart
        · rw [if_pos small] at none
          cases none
        · rw [if_neg small]

/-- The database stores the installed part of `content` under manifest `m`. -/
structure Installed (database identity : Bytes) (content : Content) (m : Manifests) : Prop where
  pair : Holds database 0 (encodePair databaseMagic identity)
  held : Holds database m.state.root (chain m.state.root [] content.segments)
  above : 160 ≤ m.state.root
  extent : m.dataEnd = m.state.root + extent content.segments
  capacity : m.dataEnd ≤ databaseCapacity
  generation : m.generation = content.segments.length
  last : m.last = content.installed
  tail : m.hasTime = true → m.tail = linkTo m.state.root content.segments content.segments.length
  agrees : TimeAgrees m.hasTime m.state.enabled m.lastTime content.segments
  time : statedTime m.hasTime m.state.enabled m.lastTime content.segments = content.installedTime
  gapless : m.state.enabled = false →
    Gapless 0 content.segments ∧ lastSequence content.segments = content.installed

-- Only the installed part of the content matters.
theorem Installed.same {database identity : Bytes} {content content' : Content} {m : Manifests}
    (installed : Installed database identity content m) (segments : content'.segments = content.segments)
    (last : content'.installed = content.installed)
    (time : content'.installedTime = content.installedTime) :
    Installed database identity content' m where
  pair := installed.pair
  held := by rw [segments]; exact installed.held
  above := installed.above
  extent := by rw [segments]; exact installed.extent
  capacity := installed.capacity
  generation := by rw [segments]; exact installed.generation
  last := by rw [last]; exact installed.last
  tail := by rw [segments]; exact installed.tail
  agrees := by rw [segments]; exact installed.agrees
  time := by rw [segments, time]; exact installed.time
  gapless := by rw [segments, last]; exact installed.gapless

theorem Installed.chained {store : Store} {identity : Bytes} {content : Content} {m : Manifests}
    (installed : Installed (store.content .database) identity content m) :
    SegmentLaws.Chained store m.state.root m.dataEnd content.segments :=
  ⟨installed.held, installed.above, by rw [installed.extent], installed.capacity⟩

/-- What open reads of the segments. -/
def checkedOf (root : Nat) (content : Content) : Checked where
  tail := linkTo root content.segments content.segments.length
  lastTime := content.installedTime
  spanStart := Layout.spanStart content.segments
  live := live content.segments

theorem check_installed {store : Store} {identity : Bytes} {content : Content} {m : Manifests}
    (installed : Installed (store.content .database) identity content m) :
    on (checkSegments m.generation m.dataEnd m.last m.tail m.lastTime m.hasTime m.state) store =
      (.ok (checkedOf m.state.root content), store) := by
  have full : m.state.enabled = true ∨ lastSequence content.segments = m.last := by
    cases shape : m.state.enabled with
    | true => exact .inl rfl
    | false => exact .inr (by rw [(installed.gapless shape).2, installed.last])
  rw [installed.generation, check_segments installed.chained installed.extent
    ⟨content.increasing, fun off => (installed.gapless off).1⟩
    (by rw [installed.last]; exact content.covered) full installed.tail installed.agrees, installed.time]
  rfl

end Database

section Wal

/-- The WAL holds the pending batches after the installed ones. -/
structure Logged (wal identity : Bytes) (content : Content) (tail : Bytes) : Prop where
  bytes : wal = encodePair walMagic identity ++ frames (content.installed + 1) content.pending ++ tail
  torn : Torn (content.high + 1) tail
  more : tail ≠ [] → content.high < uint64Max
  fits : wal.length ≤ walCapacity

/-- The WAL is the leftover of an install: its frames end at the installed
sequence number. -/
structure Leftover (wal identity : Bytes) (content : Content) (first : Nat) (batches : List Batch) : Prop where
  bytes : wal = encodePair walMagic identity ++ frames first batches
  counted : 0 < first
  occupied : batches ≠ []
  ends : first + batches.length = content.installed + 1
  none : content.pending = []
  fits : wal.length ≤ walCapacity

variable {store : Store} {identity tail : Bytes} {content : Content} {first : Nat} {batches : List Batch}

theorem wal_length (wide : identity.length = 16) : (encodePair walMagic identity).length = 32 := by
  simp [walMagic, wide]

theorem Logged.length (logged : Logged (store.content .wal) identity content tail)
    (wide : identity.length = 16) :
    (store.content .wal).length = content.walEnd + tail.length := by
  rw [logged.bytes]
  simp only [List.length_append, wal_length wide, frames_length, Content.walEnd]

theorem Logged.frames_held (logged : Logged (store.content .wal) identity content tail)
    (wide : identity.length = 16) :
    Holds (store.content .wal) 32 (frames (content.installed + 1) content.pending) := by
  have whole := holds_self (store.content .wal)
  nth_rewrite 2 [logged.bytes] at whole
  rw [holds_append, holds_append, wal_length wide] at whole
  exact whole.1.2

theorem Logged.tail_held (logged : Logged (store.content .wal) identity content tail)
    (wide : identity.length = 16) :
    Holds (store.content .wal) content.walEnd tail := by
  have whole := holds_self (store.content .wal)
  nth_rewrite 2 [logged.bytes] at whole
  rw [holds_append, List.length_append, wal_length wide, frames_length] at whole
  simpa [Content.walEnd] using whole.2

theorem Logged.pair_held (logged : Logged (store.content .wal) identity content tail) :
    Holds (store.content .wal) 0 (encodePair walMagic identity) := by
  rw [logged.bytes, List.append_assoc]
  exact holds_prefix _ _ _ rfl

theorem Logged.stale (logged : Logged (store.content .wal) identity content tail)
    (readable : Readable tail) (wide : identity.length = 16) :
    on (staleSequence content.installed (store.content .wal).length) store = (.ok none, store) := by
  have length := logged.length wide
  have numbered := content.numbered
  have held := logged.frames_held wide
  simp only [uint64Max, Content.walEnd] at numbered length
  cases shape : content.pending with
  | cons batch rest =>
      have least := batch.size_ge
      rw [shape, frames_size_cons] at length
      rw [shape, frames_cons, holds_append] at held
      rw [shape, List.length_cons] at numbered
      have front := held.1.within (frame_header (content.installed + 1) batch.records) (header_ne _ _)
      rw [stale_header (by omega) front (by omega), if_neg (by omega)]
  | nil =>
      rw [shape] at length
      simp only [frames_size_nil, Nat.add_zero] at length
      rcases readable with none | header
      · subst none
        exact stale_none (by simp at length; omega)
      · have more := logged.more (by rintro rfl; simp at header)
        have tailed := logged.tail_held wide
        have torn := logged.torn
        cases torn with
        | none => simp at header
        | cut batch count short =>
            simp only [Content.high, Content.walEnd, shape, List.length_nil, Nat.add_zero, frames_size_nil,
              uint64Max] at more tailed
            have counted : 32 ≤ count := le_trans header (by simp)
            have lies := tailed.within (torn_header counted) (header_ne _ _)
            rw [stale_header (by omega) lies (by omega), if_neg (by omega)]

theorem Logged.scan (logged : Logged (store.content .wal) identity content tail)
    (readable : Readable tail) (wide : identity.length = 16) :
    on (scanWal (store.content .wal).length false (store.content .wal).length (startScan content.installed))
        store =
      (.ok (scanned content.installed content.pending), store) := by
  have length := logged.length wide
  have numbered := content.numbered
  have least := frames_size_ge content.pending
  simp only [uint64Max, Content.walEnd] at numbered length
  rw [scan_all (logged.frames_held wide) (by omega) (by omega) (by omega)]
  refine scan_torn logged.torn readable (logged.tail_held wide) (by omega) fun some => ?_
  have := logged.more some
  simp only [uint64Max, Content.high] at this
  omega

theorem Leftover.length (leftover : Leftover (store.content .wal) identity content first batches)
    (wide : identity.length = 16) :
    (store.content .wal).length = 32 + framesSize batches := by
  rw [leftover.bytes]
  simp only [List.length_append, wal_length wide, frames_length]

theorem Leftover.frames_held (leftover : Leftover (store.content .wal) identity content first batches)
    (wide : identity.length = 16) :
    Holds (store.content .wal) 32 (frames first batches) := by
  have whole := holds_self (store.content .wal)
  nth_rewrite 2 [leftover.bytes] at whole
  rw [holds_append, wal_length wide] at whole
  exact whole.2

theorem Leftover.pair_held (leftover : Leftover (store.content .wal) identity content first batches) :
    Holds (store.content .wal) 0 (encodePair walMagic identity) := by
  rw [leftover.bytes]
  exact holds_prefix _ _ _ rfl

theorem Leftover.stale (leftover : Leftover (store.content .wal) identity content first batches)
    (wide : identity.length = 16) :
    on (staleSequence content.installed (store.content .wal).length) store =
      (.ok (some (first - 1)), store) := by
  have length := leftover.length wide
  have held := leftover.frames_held wide
  have numbered := content.numbered
  have counted := leftover.counted
  have ends := leftover.ends
  obtain ⟨batch, rest, shape⟩ := List.exists_cons_of_ne_nil leftover.occupied
  have least := batch.size_ge
  simp only [uint64Max] at numbered
  rw [shape, frames_size_cons] at length
  rw [shape, frames_cons, holds_append] at held
  rw [shape, List.length_cons] at ends
  have front := held.1.within (frame_header first batch.records) (header_ne _ _)
  rw [stale_header (by omega) front (by omega), if_pos (by omega)]

theorem Leftover.scan (leftover : Leftover (store.content .wal) identity content first batches)
    (wide : identity.length = 16) :
    on (scanWal (store.content .wal).length true (store.content .wal).length (startScan (first - 1))) store =
      (.ok (scanned (first - 1) batches), store) := by
  have length := leftover.length wide
  have numbered := content.numbered
  have counted := leftover.counted
  have ends := leftover.ends
  have least := frames_size_ge batches
  have shift : first - 1 + 1 = first := by omega
  simp only [uint64Max] at numbered
  rw [scan_all (by rw [shift]; exact leftover.frames_held wide) (by omega) (by omega) (by omega)]
  exact scan_end length

end Wal

section Validation
variable {store : Store} {identity tail : Bytes} {content : Content} {m : Manifests} {first : Nat}
  {batches : List Batch}

/-- Bytes beyond the end of the data that open tolerates in phase 0: the marker
of an empty retained database, or what an interrupted install of the pending
batches can have left. -/
def Slack (database : Bytes) (content : Content) (m : Manifests) : Prop :=
  m.state.phase = 0 → database.length ≤ m.dataEnd ∨
    (m.state.enabled = true ∧ m.generation = 0 ∧ database.length = 161) ∨
    (content.pending ≠ [] ∧ database.length ≤ m.dataEnd + 64 + framesSize content.pending)

theorem reads_validatePair : Reads validatePair := by
  unfold validatePair
  refine reads_bind (reads_pairHeader _ _) fun header => reads_bind (reads_pairHeader _ _) fun walHeader =>
    reads_bind (reads_require _ _) fun _ => reads_bind (reads_size _) fun databaseSize =>
    reads_bind (reads_readManifests _) fun m => reads_bind (reads_checkSegments _ _ _ _ _ _ _) fun checked =>
    reads_bind (reads_size _) fun size => reads_bind (reads_require _ _) fun _ =>
    reads_bind (reads_staleSequence _ _) fun stale => reads_bind (reads_scanWal _ _ _ _) fun scan =>
    reads_bind (reads_require _ _) fun _ => reads_bind (reads_require _ _) fun _ => reads_pure _

-- The database side and the WAL side are validated one after the other.
theorem validate_pair {stale : Option Nat} {scan : WalScan} (wide : identity.length = 16)
    (installed : Installed (store.content .database) identity content m)
    (found : chosen (store.content .database) = some m)
    (walPair : Holds (store.content .wal) 0 (encodePair walMagic identity))
    (fits : (store.content .wal).length ≤ walCapacity)
    (first : on (staleSequence content.installed (store.content .wal).length) store = (.ok stale, store))
    (rest : on (scanWal (store.content .wal).length stale.isSome (store.content .wal).length
      (startScan (stale.getD content.installed))) store = (.ok scan, store))
    (ends : stale.isSome = true → scan.sequence = content.installed)
    (slack : ¬ ((store.content .database).length > m.dataEnd ∧ m.state.phase = 0 ∧
      ¬ (m.state.enabled = true ∧ m.generation = 0 ∧ (store.content .database).length = 161) ∧
      (stale.isSome = true ∨ scan.sequence = content.installed))) :
    on validatePair store =
      (.ok ⟨m, checkedOf m.state.root content, stale.isSome, scan, (store.content .wal).length⟩, store) := by
  have room := walPair.length_le (by
    intro none
    have := wal_length wide
    rw [none] at this
    simp at this)
  rw [wal_length wide] at room
  unfold validatePair
  rw [on_bind_ok (pair_header installed.pair rfl wide), on_bind_ok (pair_header walPair rfl wide),
    on_require_bind, if_pos (by rw [pair_identity rfl wide, pair_identity rfl wide]),
    on_bind_ok (on_size _ _), on_bind_ok (read_chosen found), on_bind_ok (check_installed installed),
    on_bind_ok (on_size _ _), on_require_bind, if_pos ⟨by omega, fits⟩, installed.last, on_bind_ok first,
    on_bind_ok rest, on_require_bind, if_pos ends, on_require_bind, if_pos slack]
  rfl

theorem validate_logged (wide : identity.length = 16)
    (installed : Installed (store.content .database) identity content m)
    (found : chosen (store.content .database) = some m)
    (logged : Logged (store.content .wal) identity content tail) (readable : Readable tail)
    (slack : Slack (store.content .database) content m) :
    on validatePair store =
      (.ok ⟨m, checkedOf m.state.root content, false, scanned content.installed content.pending,
        (store.content .wal).length⟩, store) := by
  refine validate_pair wide installed found logged.pair_held logged.fits (logged.stale readable wide)
    (logged.scan readable wide) (fun some => by cases some) ?_
  rintro ⟨longer, phase, marker, stale | same⟩
  · cases stale
  · rcases slack phase with short | empty | ⟨some, _⟩
    · omega
    · exact marker empty
    · have := List.length_pos_iff.mpr some
      simp only [scanned] at same
      omega

theorem validate_leftover (wide : identity.length = 16)
    (installed : Installed (store.content .database) identity content m)
    (found : chosen (store.content .database) = some m)
    (leftover : Leftover (store.content .wal) identity content first batches)
    (slack : Slack (store.content .database) content m) :
    on validatePair store =
      (.ok ⟨m, checkedOf m.state.root content, true, scanned (first - 1) batches,
        (store.content .wal).length⟩, store) := by
  have counted := leftover.counted
  have ends := leftover.ends
  refine validate_pair wide installed found leftover.pair_held leftover.fits (leftover.stale wide)
    (leftover.scan wide) (fun _ => by simp only [scanned]; omega) ?_
  rintro ⟨longer, phase, marker, _⟩
  rcases slack phase with short | empty | ⟨some, _⟩
  · omega
  · exact marker empty
  · exact some leftover.none

-- One to 31 bytes after the committed frames cannot be told from damage.
theorem validate_stuck (wide : identity.length = 16)
    (installed : Installed (store.content .database) identity content m)
    (found : chosen (store.content .database) = some m)
    (logged : Logged (store.content .wal) identity content tail) (stuck : ¬ Readable tail) :
    on validatePair store = (.error .invalidDatabase, store) := by
  have length := logged.length wide
  have numbered := content.numbered
  have least := frames_size_ge content.pending
  have held := logged.frames_held wide
  have short : tail ≠ [] ∧ tail.length < 32 := by
    simp only [Readable, not_or, Nat.not_le] at stuck
    exact stuck
  have some := List.length_pos_iff.mpr short.1
  simp only [uint64Max, Content.walEnd] at numbered length
  unfold validatePair
  rw [on_bind_ok (pair_header installed.pair rfl wide), on_bind_ok (pair_header logged.pair_held rfl wide),
    on_require_bind, if_pos (by rw [pair_identity rfl wide, pair_identity rfl wide]),
    on_bind_ok (on_size _ _), on_bind_ok (read_chosen found), on_bind_ok (check_installed installed),
    on_bind_ok (on_size _ _), on_require_bind, if_pos ⟨by omega, logged.fits⟩, installed.last]
  cases shape : content.pending with
  | nil =>
      rw [shape, frames_size_nil] at length
      rw [on_bind_error (stale_short (by omega) (by omega))]
  | cons batch rest =>
      have size := batch.size_ge
      rw [shape, frames_size_cons] at length
      rw [shape, frames_cons, holds_append] at held
      have numbered' := numbered
      rw [shape, List.length_cons] at numbered'
      have front := held.1.within (frame_header (content.installed + 1) batch.records) (header_ne _ _)
      rw [on_bind_ok (stale_header (by omega) front (by omega)), if_neg (by omega)]
      have scan : on (scanWal (store.content .wal).length false (store.content .wal).length
          (startScan content.installed)) store = (.error .invalidDatabase, store) := by
        have sized : framesSize content.pending = batch.size + framesSize rest := by
          rw [shape, frames_size_cons]
        rw [scan_all (logged.frames_held wide) (by omega) (by omega) (by omega)]
        exact scan_stuck (by omega) (by omega) (by omega)
      exact on_bind_error scan

end Validation

end Timelite.Images
