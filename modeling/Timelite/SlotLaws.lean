import Timelite.HeaderWalk

/-!
Manifest slots: which encodings a slot accepts, that acceptance depends on the
file length only through the end of the data, that a slot with a wrong checksum
is never accepted, and the choice between the two slots.
-/
namespace Timelite.SlotLaws
open ByteFile Program Codec CodecLaws Backend BackendLaws Layout FrameLaws HeaderWalk Reader

section Acceptance

theorem retention_unsealed {slot : Bytes} {size : Nat}
    (bad : checksum (slot.take 60) ≠ decode32 (slot.drop 60)) : retentionManifest slot size = false := by
  simp [retentionManifest, bad]

theorem check_unsealed {slot : Bytes} {size : Nat}
    (bad : checksum (slot.take 60) ≠ decode32 (slot.drop 60)) : checkManifest slot size = none := by
  simp [checkManifest, bad]

/-- A torn manifest is no manifest. -/
theorem slot_unsealed {slot : Bytes} {index size : Nat}
    (bad : checksum (slot.take 60) ≠ decode32 (slot.drop 60)) : slotManifest index slot size = none := by
  simp [slotManifest, retention_unsealed bad, check_unsealed bad]

theorem retention_magic {slot : Bytes} {size : Nat} (accepted : retentionManifest slot size = true) :
    slot.take 8 = retainMagic := by
  simp only [retentionManifest, decide_eq_true_eq] at accepted
  exact accepted.1

theorem check_magic {slot : Bytes} {size : Nat} {fields : Nat × Nat × Nat}
    (accepted : checkManifest slot size = some fields) : slot.take 8 = installMagic := by
  simp only [checkManifest] at accepted
  split at accepted
  · cases accepted
  · rename_i passes
    by_contra other
    exact passes (.inl other)

theorem check_fields {slot : Bytes} {size g d l : Nat}
    (accepted : checkManifest slot size = some (g, d, l)) :
    g = decode64 (slot.drop 8) ∧ d = decode64 (slot.drop 16) ∧ l = decode64 (slot.drop 24) ∧
      160 ≤ d ∧ d ≤ databaseCapacity ∧ d ≤ size := by
  have start : dataStart = 160 := rfl
  simp only [checkManifest] at accepted
  split at accepted
  · cases accepted
  split at accepted
  · cases accepted
  rename_i range
  split at accepted
  · split at accepted
    · cases accepted
    · cases accepted
      exact ⟨rfl, rfl, rfl, by omega, by omega, by omega⟩
  · split at accepted
    · cases accepted
    · cases accepted
      exact ⟨rfl, rfl, rfl, by omega, by omega, by omega⟩

theorem check_resize {slot : Bytes} {size size' g d l : Nat}
    (accepted : checkManifest slot size = some (g, d, l)) (fits : d ≤ size') :
    checkManifest slot size' = some (g, d, l) := by
  obtain ⟨_, extent, _, low, high, inside⟩ := check_fields accepted
  rw [← accepted]
  have before : (d < dataStart ∨ d > databaseCapacity ∨ d > size') =
      (d < dataStart ∨ d > databaseCapacity ∨ d > size) := by
    apply propext
    omega
  simp only [checkManifest, ← extent, before]

theorem retention_resize {slot : Bytes} {size size' : Nat}
    (accepted : retentionManifest slot size = true) (fits : decode64 (slot.drop 16) ≤ size') :
    retentionManifest slot size' = true := by
  simp only [retentionManifest, decide_eq_true_eq] at accepted ⊢
  exact ⟨accepted.1, accepted.2.1, accepted.2.2.1, accepted.2.2.2.1, accepted.2.2.2.2.1,
    accepted.2.2.2.2.2.1, accepted.2.2.2.2.2.2.1, fits, accepted.2.2.2.2.2.2.2.2⟩

theorem slot_retention {index size : Nat} {slot : Bytes} (parity : decode64 (slot.drop 8) % 2 = index)
    (accepted : retentionManifest slot size = true) :
    slotManifest index slot size =
      some ⟨false, decode32 (slot.drop 52), decode64 (slot.drop 16), decode64 (slot.drop 24),
        decode64 (slot.drop 32), decode32 (slot.drop 40), true,
        ⟨decode64 (slot.drop 8), decode32 (slot.drop 44), decode32 (slot.drop 56), true⟩⟩ := by
  simp [slotManifest, parity, accepted]

theorem slot_check {index size g d l : Nat} {slot : Bytes}
    (parity : decode64 (slot.drop 8) % 2 = index) (accepted : checkManifest slot size = some (g, d, l)) :
    slotManifest index slot size =
      some ⟨false, g, d, l, decode64 (slot.drop 32), decode64 (slot.drop 40),
        decide (decode32 (slot.drop 48) = 7), ⟨g, 160, 0, false⟩⟩ := by
  have other : retentionManifest slot size = false := by
    by_contra both
    have magic := retention_magic (by simpa using both)
    rw [check_magic accepted] at magic
    exact absurd magic (by decide)
  have fields := check_fields accepted
  obtain ⟨rfl, _⟩ := fields
  simp [slotManifest, parity, other, accepted]

-- Either form of an accepted slot.
theorem slot_cases {index size : Nat} {slot : Bytes} {m : Manifests}
    (accepted : slotManifest index slot size = some m) :
    decode64 (slot.drop 8) % 2 = index ∧
      (retentionManifest slot size = true ∧
        m = ⟨false, decode32 (slot.drop 52), decode64 (slot.drop 16), decode64 (slot.drop 24),
          decode64 (slot.drop 32), decode32 (slot.drop 40), true,
          ⟨decode64 (slot.drop 8), decode32 (slot.drop 44), decode32 (slot.drop 56), true⟩⟩ ∨
      ∃ g d l, checkManifest slot size = some (g, d, l) ∧
        m = ⟨false, g, d, l, decode64 (slot.drop 32), decode64 (slot.drop 40),
          decide (decode32 (slot.drop 48) = 7), ⟨g, 160, 0, false⟩⟩) := by
  simp only [slotManifest] at accepted
  split at accepted
  · cases accepted
  rename_i parity
  refine ⟨by simpa using parity, ?_⟩
  split at accepted
  · rename_i retained
    cases accepted
    exact .inl ⟨retained, rfl⟩
  · split at accepted
    · cases accepted
    · rename_i g d l checked
      cases accepted
      have fields := check_fields checked
      exact .inr ⟨g, d, l, checked, by rw [← fields.1]⟩

/-- What holds of every accepted slot. -/
structure Bounded (m : Manifests) (index size : Nat) : Prop where
  modern : m.legacy = false
  parity : m.state.revision % 2 = index
  revision : m.state.revision ≤ uint64Max
  low : 160 ≤ m.state.root
  root : m.state.root ≤ m.dataEnd
  capacity : m.dataEnd ≤ databaseCapacity
  size : m.dataEnd ≤ size
  phase : m.state.phase ≤ 3
  place : if m.state.phase = 2 then m.dataEnd - m.state.root ≤ m.state.root - 160
    else m.state.root = 160
  enabled : m.state.phase ≠ 0 → m.state.enabled = true
  plain : m.state.enabled = false → m.state.revision = m.generation

theorem slot_bounds {index size : Nat} {slot : Bytes} {m : Manifests}
    (accepted : slotManifest index slot size = some m) : Bounded m index size := by
  have small := decode64_lt (slot.drop 8)
  obtain ⟨parity, ⟨retained, rfl⟩ | ⟨g, d, l, checked, rfl⟩⟩ := slot_cases accepted
  · simp only [retentionManifest, decide_eq_true_eq] at retained
    obtain ⟨_, _, _, _, phase, low, root, fits, capacity, _, _, _, place⟩ := retained
    exact ⟨rfl, parity, by simp only [uint64Max]; omega, low, root, capacity, fits, phase, place,
      fun _ => rfl, fun off => by cases off⟩
  · obtain ⟨same, _, _, low, capacity, fits⟩ := check_fields checked
    subst same
    exact ⟨rfl, parity, by simp only [uint64Max]; omega, Nat.le_refl _, low, capacity, fits, by simp,
      by simp, fun on => absurd rfl on, fun _ => rfl⟩

-- Before the first install the manifest says nothing of a time.
theorem slot_untimed {index size : Nat} {slot : Bytes} {m : Manifests} (accepted : slotManifest index slot size = some m)
    (plain : m.state.enabled = false) (none : m.generation = 0) : m.lastTime = 0 := by
  obtain ⟨_, ⟨_, rfl⟩ | ⟨g, d, l, checked, rfl⟩⟩ := slot_cases accepted
  · cases plain
  · have generation := (check_fields checked).1
    simp only at none
    have zeros : (slot.drop 32).take 28 = List.replicate 28 0 := by
      simp only [checkManifest] at checked
      split at checked
      · cases checked
      · rename_i passes
        by_contra some
        exact passes (.inr (.inl ⟨some, .inr (.inr (generation ▸ none))⟩))
    have time : (slot.drop 32).take 8 = List.replicate 8 0 := by
      have part := congrArg (List.take 8) zeros
      rwa [List.take_take, List.take_replicate] at part
    simp only [decode64, time]
    rfl

-- The revision is read off the slot, whatever the length.
theorem slot_revision {index size : Nat} {slot : Bytes} {m : Manifests}
    (accepted : slotManifest index slot size = some m) : m.state.revision = decode64 (slot.drop 8) := by
  obtain ⟨_, ⟨_, rfl⟩ | ⟨g, d, l, checked, rfl⟩⟩ := slot_cases accepted
  · rfl
  · exact (check_fields checked).1

/-- The file length matters only through the end of the data. -/
theorem slot_resize {index size size' : Nat} {slot : Bytes} {m : Manifests}
    (accepted : slotManifest index slot size = some m) (fits : m.dataEnd ≤ size') :
    slotManifest index slot size' = some m := by
  obtain ⟨parity, ⟨retained, rfl⟩ | ⟨g, d, l, checked, rfl⟩⟩ := slot_cases accepted
  · exact slot_retention parity (retention_resize retained fits)
  · exact slot_check parity (check_resize checked fits)

end Acceptance

section Encodings

/-- What `retention_manifest` asks of the values a writer stores. -/
structure Storable (revision count dataEnd last tail root phase : Nat) : Prop where
  counted : revision ≠ 0
  revision : revision ≤ uint64Max
  phases : phase ≤ 3
  low : 160 ≤ root
  inside : root ≤ dataEnd
  capacity : dataEnd ≤ databaseCapacity
  dense : count ≤ (dataEnd - root) / segmentMin
  covered : count ≤ last
  last : last ≤ uint64Max
  tail : if count ≠ 0 then tail ≥ root ∧ tail < dataEnd else tail = 0 ∧ root = dataEnd
  place : if phase = 2 then dataEnd - root ≤ root - 160 else root = 160

theorem retention_slot {revision count dataEnd last time tail root phase size : Nat}
    (stored : Storable revision count dataEnd last tail root phase) (small : time ≤ uint64Max)
    (fits : dataEnd ≤ size) {slot : Bytes}
    (held : Holds slot 0 (encodeRetention revision count dataEnd last time tail root phase)) :
    slotManifest (revision % 2) slot size =
      some ⟨false, count, dataEnd, last, time, tail, true, ⟨revision, root, phase, true⟩⟩ := by
  obtain ⟨magic, revision', dataEnd', last', time', tail', root', marker, count', phase', checks⟩ :=
    retention_fields held
  have bounds := stored
  obtain ⟨counted, revisions, phases, low, inside, capacity, dense, covered, lasts, tails, place⟩ := bounds
  have near : tail < 4294967296 := by
    simp only [databaseCapacity] at capacity
    split at tails <;> omega
  have few : count < 4294967296 := by
    simp only [databaseCapacity, segmentMin] at capacity dense
    omega
  simp only [databaseCapacity, uint64Max] at capacity revisions lasts small
  have a := decode64_holds revision' (by omega)
  have b := decode64_holds dataEnd' (by omega)
  have c := decode64_holds last' (by omega)
  have d := decode64_holds time' (by omega)
  have e := decode32_holds tail' near
  have f := decode32_holds root' (by omega)
  have g := decode32_holds marker (by omega)
  have h := decode32_holds count' few
  have i := decode32_holds phase' (by omega)
  have accepted : retentionManifest slot size = true := by
    simp only [retentionManifest, a, b, c, e, f, g, h, i, decide_eq_true_eq]
    have extents : root ≤ dataEnd ∧ dataEnd ≤ size ∧ dataEnd ≤ databaseCapacity :=
      ⟨inside, fits, stored.capacity⟩
    refine ⟨take_holds magic rfl, checks, trivial, counted, phases, low, extents.1, extents.2.1, extents.2.2, ?_⟩
    exact ⟨dense, covered, tails, place⟩
  have parity : decode64 (slot.drop 8) % 2 = revision % 2 := by rw [a]
  have read := slot_retention parity accepted
  rwa [a, b, c, d, e, f, h, i] at read

theorem install_slot {generation dataEnd last time tail size : Nat} {slot : Bytes}
    (held : Holds slot 0 (encodeManifest generation dataEnd last time tail))
    (numbered : generation ≠ 0) (room : 160 + generation * 116 ≤ dataEnd)
    (capacity : dataEnd ≤ databaseCapacity) (covered : generation ≤ last) (lasts : last ≤ uint64Max)
    (times : time ≤ uint64Max) (tails : tail < dataEnd) (fits : dataEnd ≤ size) :
    slotManifest (generation % 2) slot size =
      some ⟨false, generation, dataEnd, last, time, tail, true, ⟨generation, 160, 0, false⟩⟩ := by
  obtain ⟨magic, generation', dataEnd', last', timed, _, checks⟩ := manifest_fields held
  obtain ⟨time', tail', marker, zeros⟩ := timed numbered
  simp only [databaseCapacity, uint64Max] at capacity lasts times
  have a := decode64_holds generation' (by omega)
  have b := decode64_holds dataEnd' (by omega)
  have c := decode64_holds last' (by omega)
  have d := decode64_holds time' (by omega)
  have e := decode64_holds tail' (by omega)
  have f := decode32_holds marker (by omega)
  have z : (slot.drop 52).take 8 = List.replicate 8 0 := drop_take_holds zeros rfl
  have m : slot.take 8 = installMagic := take_holds magic rfl
  have checked : checkManifest slot size = some (generation, dataEnd, last) := by
    simp only [checkManifest, a, b, c, f, z, m, checks, dataStart, databaseCapacity, segmentMin]
    rw [if_neg (by simp [numbered]), if_neg (by omega), if_neg numbered, if_neg (by omega)]
  have parity : decode64 (slot.drop 8) % 2 = generation % 2 := by rw [a]
  have read := slot_check parity checked
  rw [d, e, f] at read
  exact read

theorem created_slot {slot : Bytes} {size : Nat} (held : Holds slot 0 (encodeManifest 0 160 0 0 0))
    (fits : 160 ≤ size) :
    slotManifest 0 slot size = some ⟨false, 0, 160, 0, 0, 0, false, ⟨0, 160, 0, false⟩⟩ := by
  obtain ⟨magic, generation', dataEnd', last', _, blank, checks⟩ := manifest_fields held
  have zeros := blank rfl
  have a := decode64_holds generation' (by omega)
  have b := decode64_holds dataEnd' (by omega)
  have c := decode64_holds last' (by omega)
  have z : (slot.drop 32).take 28 = List.replicate 28 0 := drop_take_holds zeros rfl
  have m : slot.take 8 = installMagic := take_holds magic rfl
  have split : ∀ offset width, offset + width ≤ 28 →
      (slot.drop (32 + offset)).take width = List.replicate width 0 := by
    intro offset width inside
    have part := zeros.read_part offset width (by simpa using inside)
    rw [readAt, readAt, List.drop_replicate, List.take_replicate,
      Nat.min_eq_left (show width ≤ 28 - offset by omega)] at part
    exact part
  have d : decode64 (slot.drop 32) = 0 := by rw [decode64, split 0 8 (by omega)]; rfl
  have e : decode64 (slot.drop 40) = 0 := by rw [decode64, split 8 8 (by omega)]; rfl
  have f : decode32 (slot.drop 48) = 0 := by rw [decode32, split 16 4 (by omega)]; rfl
  have checked : checkManifest slot size = some (0, 160, 0) := by
    simp only [checkManifest, a, b, c, z, m, checks, dataStart, databaseCapacity]
    rw [if_neg (by simp), if_neg (by omega), if_pos trivial, if_neg (by simp)]
  have parity : decode64 (slot.drop 8) % 2 = 0 := by rw [a]
  have read := slot_check parity checked
  rw [d, e, f] at read
  exact read

theorem blank_slot {slot : Bytes} {index size : Nat} (held : Holds slot 0 (List.replicate 64 0)) :
    slotManifest index slot size = none := by
  have magic : slot.take 8 = List.replicate 8 0 := take_holds (held.take 8) rfl
  by_contra accepted
  obtain ⟨m, found⟩ := Option.ne_none_iff_exists'.mp accepted
  obtain ⟨_, ⟨retained, _⟩ | ⟨g, d, l, checked, _⟩⟩ := slot_cases found
  · rw [retention_magic retained] at magic
    exact absurd magic (by decide)
  · rw [check_magic checked] at magic
    exact absurd magic (by decide)

end Encodings

section Choice

def slotOffset (revision : Nat) : Nat := 32 + 64 * (revision % 2)

/-- The manifest open chooses from the bytes of a database. -/
def selected (database : Bytes) : Option Manifests :=
  chooseSlot 1 (slotBytes database 96) database.length
    (chooseSlot 0 (slotBytes database 32) database.length none)

/-- The slot of revision parity `index` accepts this manifest. -/
def SlotHas (database : Bytes) (index : Nat) (size : Nat) (m : Manifests) : Prop :=
  (slotBytes database (32 + 64 * index)).length = 64 ∧
    slotManifest index (slotBytes database (32 + 64 * index)) size = some m

theorem choose_first (slot : Bytes) (size : Nat) :
    chooseSlot 0 slot size none = if slot.length ≠ 64 then none else slotManifest 0 slot size := by
  unfold chooseSlot
  split
  · rfl
  · cases slotManifest 0 slot size <;> rfl

theorem selected_some {database : Bytes} {m : Manifests} (chosen : selected database = some m) :
    SlotHas database (m.state.revision % 2) database.length m ∧
      ∀ other, SlotHas database ((m.state.revision + 1) % 2) database.length other →
        other.state.revision < m.state.revision := by
  unfold selected at chosen
  rw [choose_first] at chosen
  unfold chooseSlot at chosen
  by_cases short : (slotBytes database 96).length ≠ 64
  · rw [if_pos short] at chosen
    split at chosen
    · cases chosen
    · rename_i full
      have parity := (slot_bounds chosen).parity
      refine ⟨?_, fun other has => ?_⟩
      · rw [parity]
        exact ⟨by simpa using full, chosen⟩
      · have odd : (m.state.revision + 1) % 2 = 1 := by omega
        rw [odd] at has
        exact absurd has.1 short
  · rw [if_neg short] at chosen
    have long : (slotBytes database 96).length = 64 := by simpa using short
    cases upper : slotManifest 1 (slotBytes database 96) database.length with
    | none =>
        rw [upper] at chosen
        simp only at chosen
        split at chosen
        · cases chosen
        · rename_i full
          have parity := (slot_bounds chosen).parity
          refine ⟨?_, fun other has => ?_⟩
          · rw [parity]
            exact ⟨by simpa using full, chosen⟩
          · have odd : (m.state.revision + 1) % 2 = 1 := by omega
            rw [odd] at has
            have found := has.2
            rw [show 32 + 64 * 1 = 96 from rfl, upper] at found
            cases found
    | some first =>
        rw [upper] at chosen
        have odd := (slot_bounds upper).parity
        by_cases cut : (slotBytes database 32).length ≠ 64
        · rw [if_pos cut] at chosen
          simp only [Option.some.injEq] at chosen
          subst chosen
          refine ⟨?_, fun other has => ?_⟩
          · rw [odd]
            exact ⟨long, upper⟩
          · have even : (first.state.revision + 1) % 2 = 0 := by omega
            rw [even] at has
            exact absurd has.1 cut
        · rw [if_neg cut] at chosen
          have full : (slotBytes database 32).length = 64 := by simpa using cut
          cases lower : slotManifest 0 (slotBytes database 32) database.length with
          | none =>
              rw [lower] at chosen
              simp only [Option.some.injEq] at chosen
              subst chosen
              refine ⟨?_, fun other has => ?_⟩
              · rw [odd]
                exact ⟨long, upper⟩
              · have even : (first.state.revision + 1) % 2 = 0 := by omega
                rw [even] at has
                have found := has.2
                rw [show 32 + 64 * 0 = 32 from rfl, lower] at found
                cases found
          | some second =>
              rw [lower] at chosen
              have even := (slot_bounds lower).parity
              simp only at chosen
              split at chosen
              · rename_i newer
                cases chosen
                refine ⟨?_, fun other has => ?_⟩
                · rw [odd]
                  exact ⟨long, upper⟩
                · have zero : (m.state.revision + 1) % 2 = 0 := by omega
                  rw [zero] at has
                  have found := has.2
                  rw [show 32 + 64 * 0 = 32 from rfl, lower] at found
                  cases found
                  exact newer
              · rename_i older
                cases chosen
                refine ⟨?_, fun other has => ?_⟩
                · rw [even]
                  exact ⟨full, lower⟩
                · have one : (m.state.revision + 1) % 2 = 1 := by omega
                  rw [one] at has
                  have found := has.2
                  rw [show 32 + 64 * 1 = 96 from rfl, upper] at found
                  cases found
                  omega

theorem selected_of {database : Bytes} {m : Manifests}
    (current : SlotHas database (m.state.revision % 2) database.length m)
    (quiet : ∀ other, SlotHas database ((m.state.revision + 1) % 2) database.length other →
      other.state.revision < m.state.revision) : selected database = some m := by
  unfold selected
  rw [choose_first]
  unfold chooseSlot
  rcases Nat.mod_two_eq_zero_or_one m.state.revision with even | odd
  · rw [even] at current
    rw [show (m.state.revision + 1) % 2 = 1 by omega] at quiet
    obtain ⟨full, found⟩ := current
    rw [show 32 + 64 * 0 = 32 from rfl] at full found
    rw [if_neg (not_not.mpr full), found]
    by_cases short : (slotBytes database 96).length ≠ 64
    · rw [if_pos short]
    · rw [if_neg short]
      cases upper : slotManifest 1 (slotBytes database 96) database.length with
      | none => rfl
      | some other =>
          have less := quiet other ⟨by simpa using short, upper⟩
          simp only
          rw [if_neg (by omega)]
  · rw [odd] at current
    rw [show (m.state.revision + 1) % 2 = 0 by omega] at quiet
    obtain ⟨full, found⟩ := current
    rw [show 32 + 64 * 1 = 96 from rfl] at full found
    rw [if_neg (not_not.mpr full), found]
    by_cases short : (slotBytes database 32).length ≠ 64
    · rw [if_pos short]
    · rw [if_neg short]
      cases lower : slotManifest 0 (slotBytes database 32) database.length with
      | none => rfl
      | some other =>
          have less := quiet other ⟨by simpa using short, lower⟩
          simp only
          rw [if_pos (by omega)]

theorem reads_readManifests (size : Nat) : Reads (readManifests size) := by
  refine reads_ite (reads_pure _) (reads_bind (reads_read _ _ _) fun even =>
    reads_bind (reads_read _ _ _) fun odd => ?_)
  cases chooseSlot 1 odd size (chooseSlot 0 even size none) with
  | none => exact reads_bind (reads_require _ _) fun _ => reads_pure _
  | some m => exact reads_pure _

theorem read_manifests (store : Store) :
    on (readManifests (store.content .database).length) store =
      (if (store.content .database).length = 32 then .ok (noManifest true)
      else match selected (store.content .database) with
        | some m => .ok m
        | none => if (store.content .database).length ≤ dataStart then .ok (noManifest false)
            else .error .invalidDatabase, store) := by
  unfold readManifests
  by_cases legacy : (store.content .database).length = 32
  · simp [legacy]
  · rw [if_neg legacy, if_neg legacy, on_bind_ok (on_read _ _ _ _), on_bind_ok (on_read _ _ _ _)]
    change on (match selected (store.content .database) with
      | some manifest => pure manifest
      | none => _) store = _
    cases selected (store.content .database) with
    | some m => rfl
    | none =>
        simp only [on_require_bind]
        by_cases small : (store.content .database).length ≤ dataStart
        · rw [if_pos small, if_pos small]
          rfl
        · rw [if_neg small, if_neg small]

end Choice

end Timelite.SlotLaws
