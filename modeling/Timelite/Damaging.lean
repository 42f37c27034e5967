import Timelite.Soundness
import Timelite.Undisturbed
import Timelite.Interrupting

/-!
A damaged manifest slot. The slot that is not in force holds nothing, the manifest
before the last install or a busy phase of the same data: whichever slot is lost,
open fails or finds the same batches.
-/
namespace Timelite.Damaging
open ByteFile Program Durable Codec CodecLaws Backend BackendLaws Layout FrameLaws HeaderWalk SlotLaws WalLaws Contents Images
  Crashes Databases Calls Appending Checkpointing Retaining Expiring Cursor Reader BatchApi Opening Creating Atomicity System
  Refinement Soundness Observing Undisturbed Answering Interrupting

section Twins
variable {d before identity : Bytes} {content : Content} {m other : Manifests} {v : View}

/-- A manifest that open may fall back on: of fewer batches, or busy with the same ones. -/
inductive Former (identity : Bytes) (content : Content) (d : Bytes) (other : Manifests) : Prop where
  | older (less : Content) (installed : Installed d identity less other) (idle : other.state.phase = 0)
      (root : other.state.root = 160) (last : less.installed < content.installed) (dataEnd : less.dataEnd < content.dataEnd) :
      Former identity content d other
  | busy (installed : Installed d identity content other) (busy : other.state.phase ≠ 0) (root : other.state.root = 160)
      (able : other.state.revision + 2 ≤ uint64Max) : Former identity content d other

/-- What the slot beside an idle manifest in force holds. -/
structure Twin (identity : Bytes) (content : Content) (d : Bytes) (m : Manifests) : Prop where
  marked : m.state.enabled = true → 160 < d.length
  former : ∀ size other, SlotHas d ((m.state.revision + 1) % 2) size other → Former identity content d other

def Twinned (identity : Bytes) (content : Content) (d : Bytes) : Prop :=
  ∀ m, selected d = some m → m.state.phase = 0 → Twin identity content d m

theorem data_end_rooted (installed : Installed d identity content m) (root : m.state.root = 160) : m.dataEnd = content.dataEnd := by
  rw [installed.extent, root]
  rfl

theorem idle_rooted (found : selected d = some m) (idle : m.state.phase = 0) : m.state.root = 160 := by
  have place := (selected_bounds found).place
  rwa [if_neg (by omega)] at place

theorem former_kept {content' : Content} (wide : identity.length = 16) (stored : Stored before identity content m)
    (idle : m.state.phase = 0) (unpublished : Unpublished m before d) (segments : content'.segments = content.segments)
    (last : content'.installed = content.installed) (time : content'.installedTime = content.installedTime)
    (former : Former identity content before other) : Former identity content' d other := by
  have root := idle_rooted stored.current idle
  have extent := data_end_rooted stored.installed root
  have dataEnd : content'.dataEnd = content.dataEnd := by rw [Content.dataEnd, segments, Content.dataEnd]
  have body := unpublished.body
  rw [root, extent] at body
  cases former with
  | older less installed still rooted fewer lower =>
      refine .older less (installed_agree installed wide unpublished.front ?_) still rooted (last ▸ fewer) (dataEnd ▸ lower)
      rw [rooted, data_end_rooted installed rooted]
      exact body.mono (Nat.le_refl _) (Nat.le_of_lt lower)
  | busy installed busy rooted able =>
      refine .busy ((installed_agree installed wide unpublished.front ?_).same segments last time) busy rooted able
      rw [rooted, data_end_rooted installed rooted]
      exact body

/-- The manifest of a complete recovery stands beside its last busy phase. -/
theorem finishing_twinned (finishing : Finishing identity content d) : Twinned identity content d := by
  intro m found idle
  cases finishing with
  | busy m' stored busy bound =>
      cases stored.current.symm.trans found
      exact absurd idle busy
  | ended m' stored cut superseded busy root bound =>
      cases stored.current.symm.trans found
      refine ⟨fun _ => ?_, fun size other has => ?_⟩
      · rw [cut, cutLength]
        have least : 160 ≤ content.dataEnd := Nat.le_add_right _ _
        split <;> omega
      · have parity : (m'.state.revision + 1 + 1) % 2 = m'.state.revision % 2 := by omega
        have slot : SlotHas d (m'.state.revision % 2) size other := by
          rw [← parity]
          exact has
        have phase := (slot_bounds slot.2).phase
        obtain rfl := superseded.alone size other slot
        exact .busy superseded.installed busy root (by omega)

/-- Whatever a call leaves on a twinned pair is twinned. -/
theorem came_twinned (wide : identity.length = 16) (stored : Stored before identity v.content v.m) (idle : v.m.state.phase = 0)
    (twinned : Twinned identity v.content before) (held : Held identity content d) (came : Came identity v before content d) :
    Twinned identity content d := by
  cases came with
  | finishing finishing => exact finishing_twinned finishing
  | kept segments last time unpublished =>
      intro m found still
      cases unpublished.current.symm.trans found
      have twin := twinned v.m stored.current idle
      refine ⟨fun on => Nat.lt_of_lt_of_le (twin.marked on) unpublished.grown, fun size other has => ?_⟩
      exact former_kept wide stored idle unpublished segments last time (twin.former size other (unpublished.slot size other has))
  | installed last dataEnd superseded =>
      intro m found still
      obtain ⟨m', stored', _, _⟩ := held
      cases stored'.current.symm.trans found
      have root := idle_rooted found still
      have below := data_end_rooted stored'.installed root
      have fits := stored'.fits
      have least : 160 ≤ v.content.dataEnd := Nat.le_add_right _ _
      refine ⟨fun _ => by omega, fun size other has => ?_⟩
      -- The manifest in force is not the superseded one, so it stands in the other slot.
      have parity : (m.state.revision + 1) % 2 = v.m.state.revision % 2 := by
        by_contra same
        have here : m.state.revision % 2 = v.m.state.revision % 2 := by omega
        have has := (selected_some found).1
        rw [here] at has
        have equal := superseded.alone _ _ has
        have installed := stored'.installed.last
        rw [equal, superseded.installed.last] at installed
        omega
      rw [parity] at has
      obtain rfl := superseded.alone size other has
      exact .older v.content superseded.installed idle (idle_rooted stored.current idle) last dataEnd

theorem created_twinned (wide : identity.length = 16) : Twinned identity .empty (createdDatabase identity) := by
  intro m found _
  cases (created_stored wide).current.symm.trans found
  exact ⟨fun on => (by cases on), fun size other has => absurd has (created_blank wide size other)⟩

end Twins

section Runs
variable {identity : Bytes} {host last : Host} {events : List Event}

/-- Some content is held, and the slot beside its manifest is a former one. -/
def Paired (identity d w : Bytes) : Prop :=
  ∃ content, Honest content ∧ Recovers False identity content d w ∧ Twinned identity content d

def Settles (identity : Bytes) (host : Host) : Prop :=
  ∃ v, Holding host identity v ∧ Twinned identity v.content (host.store.content .database)

theorem paired_opens {store : Store} {db : Batches} {mode : OpenMode} {scratchSize : Nat} (wide : identity.length = 16)
    (safe : Safe (Paired identity) store) (closed : db.database = false ∧ db.wal = false) (large : batchScratch ≤ scratchSize)
    (old : mode ≠ .createNew) :
    ∃ result after, Does device (Safe (Paired identity)) (Refused db) (batchesOpen db mode scratchSize) store result after ∧
      ((∃ error, result = (.error error, db)) ∨ result.1 = .ok () ∧ Settles identity ⟨after, result.2⟩) := by
  obtain ⟨content, honest, ⟨held, replays⟩, twinned⟩ := safe.content
  have twin : ∀ d, d = store.content .database ∨ Finishing identity content d → Twinned identity content d := by
    rintro d (rfl | finishing)
    · exact twinned
    · exact finishing_twinned finishing
  rcases replays_cases replays with clean | ⟨tail, logged, stuck⟩
  · obtain ⟨handle, after, m, triple, live, image, _⟩ := open_recovers safe wide ⟨held, clean⟩
      (fun d w image replays => show Paired identity d w from
        ⟨content, honest, ⟨recovering_held held image, replays.weaken fun impossible => impossible.elim⟩, twin d image⟩)
      closed large old
    exact ⟨_, after, triple, .inr ⟨rfl, ⟨content, m, 1⟩, ⟨live, honest⟩, twin _ image⟩⟩
  · exact ⟨_, store, open_stuck safe wide held logged stuck closed large old, .inl ⟨_, rfl⟩⟩

theorem paired_upholds (wide : identity.length = 16) : Upholds (Paired identity) (Settles identity) fun _ _ => True where
  safe := fun ⟨v, holding, twinned⟩ =>
    safe_synced holding.live.settled.synced ⟨v.content, holding.honest, holding.live.recovers, twinned⟩
  performs := by
    rintro host act ⟨v, holding, twinned⟩ _ other
    have live := holding.live
    obtain ⟨result, v', db', after, performs, answers, live', came⟩ := live_leaves live holding.honest other
    have honest : ∀ content, content = v.content ∨ Effect act v.content content → Honest content := by
      rintro content (rfl | effect)
      · exact holding.honest
      · exact honest_effect holding.honest effect
    refine ⟨result, db', after, performs_mono performs fun d w leaving => ?_, v', ⟨live', honest _ (answers_effect answers)⟩,
      came_twinned wide live.stored live.settled.phase twinned live'.held came⟩
    obtain ⟨content, shape, recovers, came⟩ := leaving
    exact ⟨content, honest content shape, recovers,
      came_twinned wide live.stored live.settled.phase twinned recovers.1 came⟩
  opens := paired_opens wide

/-- Whatever happened since the creation, the other slot is a former one. -/
theorem reachable_settles {start : Host} (created : Created start) (run : Run start events host)
    (ready : batchReady host.db = .ok ()) :
    ∃ identity, Settles identity host := by
  obtain ⟨identity, live, same⟩ := created_bare created
  have wide := live.settled.wide
  have first : Settles identity start :=
    ⟨⟨.empty, createdManifests, 1⟩, ⟨live, honest_empty⟩, by rw [same]; exact created_twinned wide⟩
  exact ⟨_, upheld_ready (upheld_run (paired_upholds wide) (.up first) run) ready⟩

end Runs

section Slots
variable {d slot identity : Bytes} {content : Content} {m : Manifests} {index : Nat}

theorem slot_offset_bit (bit : index < 2) : 32 + 64 * index = slotOffset (index + 1 + 1) := by
  rw [slotOffset]
  omega

theorem damaged_length (bit : index < 2) (size : slot.length = 64) (long : 160 ≤ d.length) :
    (writeAt d (32 + 64 * index) slot).length = d.length := by
  rw [slot_offset_bit bit]
  exact slot_write_length (by omega) long

-- The slot that is lost holds nothing, the other one what it held.
theorem damaged_slots (bit : index < 2) (size : slot.length = 64) (long : 160 ≤ d.length)
    (lost : slotManifest index slot d.length = none) :
    (∀ other, ¬ SlotHas (writeAt d (32 + 64 * index) slot) index d.length other) ∧
      ∀ other, SlotHas (writeAt d (32 + 64 * index) slot) ((index + 1) % 2) d.length other ↔
        SlotHas d ((index + 1) % 2) d.length other := by
  constructor
  · rintro other ⟨_, found⟩
    have same : slotBytes (writeAt d (32 + 64 * index) slot) (32 + 64 * index) = slot := by
      rw [slot_offset_bit bit]
      exact slot_write size
    rw [same, lost] at found
    cases found
  · intro other
    rw [SlotHas, SlotHas, ← slot_offset_eq, slot_offset_bit bit, slot_other (by omega) long]

/-- What open chooses when a slot is lost. -/
theorem damaged_selected (found : selected d = some m) (bit : index < 2) (size : slot.length = 64)
    (lost : slotManifest index slot d.length = none) :
    selected (writeAt d (32 + 64 * index) slot) = some m ∨
      (∃ other, SlotHas d ((m.state.revision + 1) % 2) d.length other ∧
        selected (writeAt d (32 + 64 * index) slot) = some other) ∨
      selected (writeAt d (32 + 64 * index) slot) = none := by
  have long := selected_length found
  have length := damaged_length bit size long
  obtain ⟨gone, kept⟩ := damaged_slots bit size long lost
  have current := (selected_some found).1
  by_cases other : m.state.revision % 2 = (index + 1) % 2
  · have beside : (m.state.revision + 1) % 2 = index := by omega
    refine .inl (selected_of ?_ fun newer has => ?_)
    · rw [length, other, kept, ← other]
      exact current
    · rw [length, beside] at has
      exact absurd has (gone newer)
  · have beside : (m.state.revision + 1) % 2 = (index + 1) % 2 := by omega
    cases chosen : selected (writeAt d (32 + 64 * index) slot) with
    | none => exact .inr (.inr rfl)
    | some found' =>
        have has := (selected_some chosen).1
        rw [length] at has
        have parity : found'.state.revision % 2 = (index + 1) % 2 := by
          by_contra same
          have here : found'.state.revision % 2 = index := by omega
          rw [here] at has
          exact gone found' has
        refine .inr (.inl ⟨found', ?_, rfl⟩)
        rw [beside, ← kept, ← parity]
        exact has

/-- A pair that was never installed into is the same without a manifest. -/
theorem installed_blank (stored : Stored d identity content m) (idle : m.state.phase = 0) (off : m.state.enabled = false)
    (short : d.length ≤ 160) : Installed d identity content (noManifest false) := by
  have installed := stored.installed
  have fits := stored.fits
  have extent_ := data_end_rooted installed (idle_rooted stored.current idle)
  have empty : content.segments = [] := by
    have least := extent_ge content.segments
    rw [extent_, Content.dataEnd] at fits
    exact List.length_eq_zero_iff.mp (by omega)
  have last : content.installed = 0 := by
    have gapless := (installed.gapless off).2
    rw [empty, last_sequence_nil] at gapless
    exact gapless.symm
  have time : content.installedTime = 0 := by
    have stated := installed.time
    have untimed := slot_untimed (selected_some stored.current).1.2 off (by rw [installed.generation, empty]; rfl)
    rw [empty, untimed] at stated
    exact stated.symm
  exact {
    pair := installed.pair
    held := by rw [empty]; exact holds_nil _ _
    above := Nat.le_refl _
    extent := by rw [empty]; rfl
    capacity := by decide
    generation := by rw [empty]; rfl
    last := last.symm
    tail := fun on => by cases on
    agrees := fun _ _ _ _ on => by cases on
    time := by rw [empty, time]; rfl
    gapless := fun _ => by rw [empty, last]; exact ⟨trivial, rfl⟩ }

-- Any segment takes at least 116 bytes.
theorem data_end_least (some : 160 < content.dataEnd) : 276 ≤ content.dataEnd := by
  cases shape : content.segments with
  | nil =>
      rw [Content.dataEnd, shape, extent_nil] at some
      omega
  | cons segment rest =>
      have least := segment.size_ge
      rw [Content.dataEnd, shape, extent_cons]
      omega

end Slots

section Opening
variable {store : Store} {identity : Bytes} {content less : Content} {m other : Manifests}

/-- Under a manifest of fewer batches the rest of the file, or the first frame of the
WAL, gives the loss away. -/
theorem validate_older (wide : identity.length = 16) (installed : Installed (store.content .database) identity less other)
    (found : chosen (store.content .database) = some other) (idle : other.state.phase = 0)
    (logged : Logged (store.content .wal) identity content []) (fewer : less.installed < content.installed)
    (longer : other.dataEnd < (store.content .database).length) (more : 161 < (store.content .database).length) :
    on validatePair store = (.error .invalidDatabase, store) := by
  have length := logged.length wide
  have held := logged.frames_held wide
  have numbered := content.numbered
  have last := installed.last
  simp only [uint64Max, Content.walEnd, List.length_nil] at numbered length
  rw [validate_sides ⟨wide, installed.pair, found, check_installed installed⟩ logged.pair_held logged.fits, readWal]
  cases shape : content.pending with
  | nil =>
      rw [shape, frames_size_nil] at length
      have scan : on (scanWal (store.content .wal).length false (store.content .wal).length (startScan other.last)) store =
          (.ok (scanned other.last []), store) := by
        rw [start_scan]
        exact scan_end length
      rw [on_bind_ok (stale_none (by omega))]
      simp only [Option.getD_none, Option.isSome_none]
      rw [on_bind_ok scan, on_require_bind, if_pos (fun some => by cases some), on_require_bind, if_neg]
      -- The file is longer than the manifest accounts for, and no frame is due.
      rw [not_not]
      exact ⟨longer, idle, fun marker => by omega, .inr rfl⟩
  | cons batch rest =>
      have least := batch.size_ge
      rw [shape, frames_size_cons] at length
      rw [shape, frames_cons, holds_append] at held
      rw [shape, List.length_cons] at numbered
      have front := held.1.within (frame_header (content.installed + 1) batch.records) (header_ne _ _)
      rw [on_bind_ok (stale_header (by omega) front (by omega)), if_neg (by omega)]
      refine on_bind_error (scan_other (by omega) (by omega) front (by omega) ?_)
      rw [Option.getD_none, next64_eq (by omega)]
      omega

variable {mode : OpenMode} {scratchSize : Nat}

/-- Open recovers the content, and every other answer is as before. -/
theorem opens_content (synced : Synced store) (wide : identity.length = 16)
    (installed : Installed (store.content .database) identity content m) (found : chosen (store.content .database) = some m)
    (slack : Slack (store.content .database) content m) (able : m.state.phase ≠ 0 → m.state.revision + 2 ≤ uint64Max)
    (logged : Logged (store.content .wal) identity content []) (honest : Honest content) (old : mode ≠ .createNew)
    (large : batchScratch ≤ scratchSize) :
    ∃ opened m', Host.call ⟨store, batchesInit⟩ (.openPair mode scratchSize) = (.ok .none, opened) ∧
      Steady opened identity ⟨content, m', 1⟩ := by
  have safe : Safe (fun _ _ => True) store := safe_synced synced trivial
  obtain ⟨after, handle, m', runs, settled, delivers, _⟩ := @recover_runs False _ store identity content m safe wide installed
    found slack able (fun _ strict => strict.elim) (fun _ strict => strict.elim) (.logged [] logged fun _ => .inl rfl)
    fun _ _ _ _ => trivial
  have ran := call_open ⟨safe.database, safe.wal⟩ ⟨show batchesInit.database = false from rfl, rfl⟩ large old
  rw [show on recovering store = (.ok handle, after) from runs.on_eq] at ran
  exact ⟨⟨after, handle⟩, m', ran, settled.serving, honest, delivers⟩

theorem open_refused (synced : Synced store) (old : mode ≠ .createNew) (large : batchScratch ≤ scratchSize)
    (refused : on validatePair store = (.error .invalidDatabase, store)) :
    Host.call ⟨store, batchesInit⟩ (.openPair mode scratchSize) = (.error .invalidDatabase, ⟨store, batchesInit⟩) := by
  have safe : Safe (fun _ _ => True) store := safe_synced synced trivial
  have ran := call_open ⟨safe.database, safe.wal⟩ ⟨show batchesInit.database = false from rfl, rfl⟩ large old
  rwa [show on recovering store = (.error .invalidDatabase, store) from on_bind_error refused] at ran

end Opening

section Damage
variable {host start : Host} {events : List Event} {identity slot : Bytes} {index scratchSize : Nat} {mode : OpenMode}
  {v v' : View}

/-- The pair with other bytes in one of its manifest slots. -/
def damaged (host : Host) (index : Nat) (slot : Bytes) : Host :=
  ⟨host.store.put .database (settled (writeAt (host.store.content .database) (32 + 64 * index) slot)), host.db⟩

/-- The same batches, status, last sequence number and time floor. -/
structure Same (host opened : Host) : Prop where
  exposes : ∃ items, Exposes host items ∧ Exposes opened items
  status : (opened.call .getStatus).1 = (host.call .getStatus).1
  sequence : opened.db.sequence = host.db.sequence
  lastTime : opened.db.lastTime = host.db.lastTime

theorem steady_same {opened : Host} (steady : Steady host identity v) (steady' : Steady opened identity v')
    (same : v'.content = v.content) : Same host opened where
  exposes := ⟨listed v.content, steady_exposes steady, by rw [← same]; exact steady_exposes steady'⟩
  status := by rw [steady_status steady, steady_status steady', same]
  sequence := by rw [steady.serving.tracks.sequence, steady'.serving.tracks.sequence, same]
  lastTime := by rw [steady.serving.tracks.lastTime, steady'.serving.tracks.lastTime, same]

/-- Without a slot to choose a longer file is refused. -/
theorem validate_unchosen {store : Store} (wide : identity.length = 16)
    (pair : Holds (store.content .database) 0 (encodePair databaseMagic identity))
    (walPair : Holds (store.content .wal) 0 (encodePair walMagic identity)) (none : chosen (store.content .database) = none) :
    on validatePair store = (.error .invalidDatabase, store) := by
  unfold validatePair
  rw [on_bind_ok (pair_header pair rfl wide), on_bind_ok (pair_header walPair rfl wide), on_require_bind,
    if_pos (by rw [pair_identity rfl wide, pair_identity rfl wide]), on_bind_ok (on_size _ _),
    on_bind_error (read_unchosen none)]

/-- Whichever slot of a quiescent pair is lost, open refuses the pair or finds what was there. -/
theorem settles_damaged {store : Store} (holding : Holding host identity v)
    (twinned : Twinned identity v.content (host.store.content .database)) (bit : index < 2) (size : slot.length = 64)
    (lost : slotManifest index slot (host.store.content .database).length = none) (synced : Synced store)
    (database : store.content .database = writeAt (host.store.content .database) (32 + 64 * index) slot)
    (wal : store.content .wal = host.store.content .wal) (old : mode ≠ .createNew) (large : batchScratch ≤ scratchSize) :
    Host.call ⟨store, batchesInit⟩ (.openPair mode scratchSize) = (.error .invalidDatabase, ⟨store, batchesInit⟩) ∨
      ∃ opened, Host.call ⟨store, batchesInit⟩ (.openPair mode scratchSize) = (.ok .none, opened) ∧ Same host opened := by
  have live := holding.live
  have stored := live.stored
  have wide := live.settled.wide
  have idle := live.settled.phase
  have long := stored.length
  have fits := stored.fits
  have dataEnd := data_end_rooted stored.installed live.settled.root
  have logged : Logged (store.content .wal) identity v.content [] := by
    rw [wal]
    exact live.settled.logged
  have length := damaged_length bit size long
  have choice := damaged_selected stored.current bit size lost
  have written : ∀ {content m}, Installed (host.store.content .database) identity content m →
      m.dataEnd ≤ (host.store.content .database).length → Installed (store.content .database) identity content m := by
    intro content m installed fits
    rw [database, slot_offset_bit bit]
    exact installed_slot_write installed wide long fits (by omega)
  rw [← database] at length choice
  have recovered : ∀ {m}, Installed (store.content .database) identity v.content m →
      chosen (store.content .database) = some m → Slack (store.content .database) v.content m →
      (m.state.phase ≠ 0 → m.state.revision + 2 ≤ uint64Max) →
      ∃ opened, Host.call ⟨store, batchesInit⟩ (.openPair mode scratchSize) = (.ok .none, opened) ∧ Same host opened := by
    intro m installed found slack able
    obtain ⟨opened, m', ran, steady⟩ := opens_content synced wide installed found slack able logged holding.honest old large
    exact ⟨opened, ran, steady_same holding.steady steady rfl⟩
  have twin := twinned v.m stored.current idle
  rcases choice with same | ⟨other, has, found⟩ | gone
  · refine .inr (recovered (written stored.installed fits) (selected_chosen same) ?_ fun busy => absurd idle busy)
    rw [Slack, length]
    exact live.settled.slack
  · have inside := (slot_bounds has.2).size
    cases twin.former _ other has with
    | older less installed still root last dataEnd' =>
        have lower := data_end_rooted installed root
        have low : 160 ≤ less.dataEnd := Nat.le_add_right _ _
        have least := data_end_least (show 160 < v.content.dataEnd by omega)
        exact .inl (open_refused synced old large (validate_older wide (written installed inside) (selected_chosen found) still
          logged last (by omega) (by omega)))
    | busy installed busy root able =>
        exact .inr (recovered (written installed inside) (selected_chosen found) (fun idle => absurd idle busy) fun _ => able)
  · by_cases short : (host.store.content .database).length ≤ 160
    · have off : v.m.state.enabled = false := by
        by_contra on
        have longer := twin.marked (by simpa using on)
        omega
      refine .inr (recovered (written (installed_blank stored idle off short) long) ?_ ?_ fun busy => absurd rfl busy)
      · rw [chosen, if_neg (by omega), gone]
        exact if_pos (length ▸ short)
      · exact fun _ => .inl (length ▸ short)
    · refine .inl (open_refused synced old large (validate_unchosen wide (written stored.installed fits).pair logged.pair_held ?_))
      rw [chosen, if_neg (by omega), gone]
      exact if_neg (length ▸ short)

/-- The loss of a manifest slot never silently rolls the database back. -/
theorem slot_loss {start host : Host} {events : List Event} {index scratchSize : Nat} {slot : Bytes} {mode : OpenMode}
    (created : Created start) (run : Run start events host) (ready : batchReady host.db = .ok ()) (bit : index < 2)
    (size : slot.length = 64) (lost : slotManifest index slot (host.store.content .database).length = none)
    (old : mode ≠ .createNew) (large : batchScratch ≤ scratchSize) :
    ∃ closed, host.call .close = (.ok .none, closed) ∧
      ((damaged closed index slot).call (.openPair mode scratchSize) = (.error .invalidDatabase, damaged closed index slot) ∨
        ∃ opened, (damaged closed index slot).call (.openPair mode scratchSize) = (.ok .none, opened) ∧ Same host opened) := by
  obtain ⟨identity, v, holding, twinned⟩ := reachable_settles created run ready
  have live := holding.live
  refine ⟨⟨host.store, batchesInit⟩, serving_close live.settled.serving, ?_⟩
  exact settles_damaged holding twinned bit size lost ⟨rfl, live.settled.synced.2⟩ rfl rfl old large

/-- The first of two segments was dropped, and the manifest in force is the sixth. -/
def thinned : Host := (layered.call (.expireBefore 100 batchScratch)).2

/-- Without the manifest in force open finishes the retention once more. -/
theorem slot_loss_thinned :
    ((damaged (thinned.call .close).2 0 (List.replicate 64 0)).call (.openPair .openExisting batchScratch)).1 = .ok .none ∧
      ∃ closed, thinned.call .close = (.ok .none, closed) ∧
        ((damaged closed 0 (List.replicate 64 0)).call (.openPair .openExisting batchScratch) =
            (.error .invalidDatabase, damaged closed 0 (List.replicate 64 0)) ∨
          ∃ opened, (damaged closed 0 (List.replicate 64 0)).call (.openPair .openExisting batchScratch) = (.ok .none, opened) ∧
            Same thinned opened) := by
  obtain ⟨start, events, created, run⟩ := layered_reached
  exact ⟨by decide +kernel, slot_loss created (.step run (call_step layered (.expireBefore 100 batchScratch)))
    (by decide +kernel) (by decide) (by decide) (by decide +kernel) (by decide) (Nat.le_refl _)⟩

-- Without the manifest of two segments the frame in the WAL gives the loss away.
example : ((damaged (layered.call .close).2 0 (List.replicate 64 0)).call (.openPair .openExisting batchScratch)).1 =
    .error .invalidDatabase := by decide +kernel

end Damage

end Timelite.Damaging
