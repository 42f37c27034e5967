import Timelite.Inspector
import Timelite.Admitting

/-!
The inspector against the library, stage by stage: both parse the same headers,
slots, segments and frames, and predict the same first error.
-/
namespace Timelite.Foreseeing
open ByteFile Program Codec CodecLaws Backend BackendLaws FrameLaws SlotLaws Images Reader Retention BatchApi Opaque Walking Inspector

section Bytes
variable {file : Bytes} {offset : Nat}

theorem decode32_take {bytes : Bytes} {start count : Nat} (inside : start + 4 ≤ count) :
    decode32 ((bytes.take count).drop start) = decode32 (bytes.drop start) := by
  rw [decode32, decode32, List.drop_take, List.take_take, Nat.min_eq_left (by omega)]

theorem decode64_take {bytes : Bytes} {start count : Nat} (inside : start + 8 ≤ count) :
    decode64 ((bytes.take count).drop start) = decode64 (bytes.drop start) := by
  rw [decode64, decode64, List.drop_take, List.take_take, Nat.min_eq_left (by omega)]

theorem read_front {part whole : Nat} (less : part ≤ whole) : readAt file offset part = (readAt file offset whole).take part := by
  rw [readAt, readAt, List.take_take, Nat.min_eq_left less]

end Bytes

section Headers

/-- The two readings of a pair header. -/
theorem pair_header_agrees (file : File) (magic : Bytes) (store : Store) :
    on (pairHeader file magic) store = (inspectPairHeader (store.content file) magic, store) := by
  have whole : readAt (store.content file) 0 12 ++ readAt (store.content file) 12 20 = readAt (store.content file) 0 32 :=
    read_append 12 20
  have front : readAt (store.content file) 0 12 = (readAt (store.content file) 0 32).take 12 := read_front (by decide)
  have size := read_length (store.content file) 0 32
  have size' := read_length (store.content file) 0 12
  have size'' := read_length (store.content file) 12 20
  have name : (readAt (store.content file) 0 12).take 8 = (readAt (store.content file) 0 32).take 8 := by
    rw [front, List.take_take]
    rfl
  have version : decode32 ((readAt (store.content file) 0 12).drop 8) = decode32 ((readAt (store.content file) 0 32).drop 8) := by
    rw [front, decode32_take (by decide)]
  rw [pairHeader, on_bind, on_read_exact, inspectPairHeader, inspectRead]
  by_cases short : (readAt (store.content file) 0 32).length < 12
  · rw [if_neg (by omega), if_pos (.inl short)]
  rw [if_pos (by omega)]
  simp only [on_require_bind, name, version]
  by_cases named : (readAt (store.content file) 0 32).take 8 = magic
  · have later : ¬ ((readAt (store.content file) 0 32).length < 12 ∨ (readAt (store.content file) 0 32).take 8 ≠ magic) :=
      fun early => early.elim short fun other => other named
    rw [if_neg later]
    by_cases zero : decode32 ((readAt (store.content file) 0 32).drop 8) = 0
    · rw [if_neg (by simp [zero]), if_pos zero]
    rw [if_pos ⟨named, zero⟩, if_neg zero]
    by_cases two : decode32 ((readAt (store.content file) 0 32).drop 8) = 2
    · rw [if_pos two, if_neg (by simp [two]), on_bind, on_read_exact]
      by_cases cut : (readAt (store.content file) 0 32).length < 32
      · rw [if_neg (by omega), if_pos cut]
      rw [if_pos (by omega), if_neg cut]
      simp only [whole, on_require_bind]
      split <;> simp [*]
    · rw [if_neg two, if_pos two]
  · rw [if_neg (by simp [named]), if_pos (.inr named)]

end Headers

section Slots
variable {m : Bytes} {index size : Nat}

-- The fields common to both kinds of slots.
def slotFields (m : Bytes) : InspectSlot :=
  { blankSlot true with
    revision := decode64 (m.drop 8)
    dataEnd := decode64 (m.drop 16)
    last := decode64 (m.drop 24)
    lastTime := decode64 (m.drop 32) }

theorem retention_slot_valid (magic : m.take 8 = retainMagic) :
    (retentionSlot m size (slotFields m)).valid = retentionManifest m size := by
  have start : dataStart = 160 := rfl
  rw [Bool.eq_iff_iff]
  unfold retentionSlot retentionManifest slotFields
  simp only [magic, true_and, decide_eq_true_eq]
  split_ifs <;> simp only [blankSlot, true_iff, false_iff, Bool.false_eq_true] <;> omega

/-- What open takes from a slot. -/
def manifestsOf (slot : InspectSlot) : Manifests :=
  ⟨false, slot.count, slot.dataEnd, slot.last, slot.lastTime, slot.tail, slot.hasTime,
    ⟨slot.revision, slot.root, if slot.retention then slot.phase else 0, slot.retention⟩⟩

theorem retention_slot_manifests :
    manifestsOf (retentionSlot m size (slotFields m)) =
      ⟨false, decode32 (m.drop 52), decode64 (m.drop 16), decode64 (m.drop 24), decode64 (m.drop 32), decode32 (m.drop 40), true,
        ⟨decode64 (m.drop 8), decode32 (m.drop 44), decode32 (m.drop 56), true⟩⟩ := by
  unfold retentionSlot slotFields manifestsOf
  simp only
  split_ifs <;> simp_all [blankSlot]

theorem install_slot_valid (magic : m.take 8 = installMagic) :
    (installSlot m size (slotFields m)).valid = (checkManifest m size).isSome := by
  rw [Bool.eq_iff_iff]
  unfold installSlot checkManifest slotFields
  simp only [magic]
  split_ifs <;> simp_all [blankSlot]

theorem install_slot_manifests {g d l : Nat} (accepted : checkManifest m size = some (g, d, l)) :
    manifestsOf (installSlot m size (slotFields m)) =
      ⟨false, g, d, l, decode64 (m.drop 32), decode64 (m.drop 40), decide (decode32 (m.drop 48) = 7), ⟨decode64 (m.drop 8), 160, 0, false⟩⟩ := by
  obtain ⟨rfl, rfl, rfl, _⟩ := check_fields accepted
  unfold installSlot slotFields manifestsOf
  simp only
  split_ifs <;> simp_all [blankSlot, dataStart]

/-- The two readings of a manifest slot. -/
theorem slot_agrees :
    slotManifest index m size =
      if (inspectSlotParse m size).valid = true ∧ (inspectSlotParse m size).revision % 2 = index then
        some (manifestsOf (inspectSlotParse m size))
      else none := by
  unfold slotManifest inspectSlotParse
  by_cases retained : m.take 8 = retainMagic
  · have present : m ≠ List.replicate 64 0 := fun zero => absurd (zero ▸ retained) (by decide)
    have other : checkManifest m size = none := by
      cases accepted : checkManifest m size with
      | none => rfl
      | some fields => exact absurd (retained.symm.trans (check_magic accepted)) (by decide)
    have shape : retentionSlot m size (slotFields m) = _ := rfl
    have fields := @retention_slot_manifests m size
    have revision : (retentionSlot m size (slotFields m)).revision = decode64 (m.drop 8) :=
      congrArg (fun m => m.state.revision) fields
    simp only [if_neg present, if_pos retained, other]
    change _ = if (retentionSlot m size (slotFields m)).valid = true ∧ (retentionSlot m size (slotFields m)).revision % 2 = index then
      some (manifestsOf (retentionSlot m size (slotFields m))) else none
    rw [retention_slot_valid retained, revision, fields]
    by_cases parity : decode64 (m.drop 8) % 2 = index <;> simp [parity]
  · have other : retentionManifest m size = false := by
      cases accepted : retentionManifest m size with
      | false => rfl
      | true => exact absurd (retention_magic accepted) retained
    by_cases installed : m.take 8 = installMagic
    · have present : m ≠ List.replicate 64 0 := fun zero => absurd (zero ▸ installed) (by decide)
      simp only [if_neg present, if_neg retained, ne_eq, installed, not_true_eq_false, if_false, other]
      change _ = if (installSlot m size (slotFields m)).valid = true ∧ (installSlot m size (slotFields m)).revision % 2 = index then
        some (manifestsOf (installSlot m size (slotFields m))) else none
      rw [install_slot_valid installed]
      cases accepted : checkManifest m size with
      | none => simp
      | some fields =>
          have stated := install_slot_manifests accepted
          have revision : (installSlot m size (slotFields m)).revision = decode64 (m.drop 8) :=
            congrArg (fun m => m.state.revision) stated
          rw [revision, stated]
          by_cases parity : decode64 (m.drop 8) % 2 = index <;> simp [parity]
    · have none' : checkManifest m size = none := by
        cases accepted : checkManifest m size with
        | none => rfl
        | some fields => exact absurd (check_magic accepted) installed
      have invalid : (if m = List.replicate 64 0 then blankSlot false else slotFields m).valid = false := by
        split <;> rfl
      simp only [other, none', if_neg retained, ne_eq, installed, not_false_eq_true, if_true, if_false, Bool.false_eq_true, ite_self]
      rw [if_neg]
      exact fun both => absurd (invalid.symm.trans both.1) (by decide)

theorem valid_present (valid : (inspectSlotParse m size).valid = true) : (inspectSlotParse m size).present = true := by
  have retained : (retentionSlot m size (slotFields m)).present = true := by
    unfold retentionSlot slotFields
    simp only
    split_ifs <;> rfl
  have installed : (installSlot m size (slotFields m)).present = true := by
    unfold installSlot slotFields
    simp only
    split_ifs <;> rfl
  unfold inspectSlotParse at valid ⊢
  split at valid
  · cases valid
  · rename_i present
    rw [if_neg present]
    split
    · exact retained
    split
    · rfl
    · exact installed

/-- The slot loops choose alike. -/
theorem choice_agrees {d : Bytes} {active : Option (Nat × InspectSlot)} :
    (inspectSlot d index active).map (fun found => manifestsOf found.2) =
      chooseSlot index (readAt d (32 + 64 * index) 64) d.length (active.map fun found => manifestsOf found.2) := by
  have width := read_length d (32 + 64 * index) 64
  unfold inspectSlot chooseSlot inspectRead
  by_cases short : (readAt d (32 + 64 * index) 64).length < 64
  · rw [if_pos (by omega)]
    simp only [if_pos short]
    cases active <;> simp [blankSlot]
  rw [if_neg (by omega)]
  simp only [if_neg short, slot_agrees]
  generalize found : inspectSlotParse (readAt d (32 + 64 * index) 64) d.length = slot
  have present : slot.valid = true → slot.present = true := by
    rw [← found]
    exact valid_present
  by_cases parity : slot.revision % 2 = index
  · cases valid : slot.valid <;> cases active <;> simp [parity, valid, manifestsOf]
    split <;> simp_all
  · cases valid : slot.valid <;> cases active <;> simp [parity, valid, present]

/-- The state of the inspector when the manifests are chosen. -/
def learned (slot : Option Nat) (m : Manifests) : InspectState :=
  { startState with
    activeSlot := slot
    legacy := m.legacy
    generation := m.generation
    dataEnd := m.dataEnd
    installed := m.last
    installedTime := m.lastTime
    hasTime := m.hasTime
    retention := m.state.enabled
    root := m.state.root
    tail := m.tail
    phase := m.state.phase }

/-- The manifest stages agree. -/
theorem manifests_agree (d : Bytes) :
    match chosen d with
    | some m => ∃ slot, inspectManifests d startState = learned slot m
    | none => inspectManifests d startState = { startState with predicted := some (.invalidDatabase, "manifests") } := by
  have choice : (inspectSlot d 1 (inspectSlot d 0 none)).map (fun found => manifestsOf found.2) = selected d := by
    rw [choice_agrees, choice_agrees]
    rfl
  unfold chosen inspectManifests
  by_cases legacy : d.length = 32
  · simp only [legacy, if_true, decide_true]
    exact ⟨none, rfl⟩
  simp only [legacy, if_false, decide_false, Bool.false_eq_true]
  rw [← choice]
  cases inspectSlot d 1 (inspectSlot d 0 none) with
  | some found => exact ⟨some found.1, rfl⟩
  | none =>
      simp only [Option.map_none]
      by_cases short : d.length ≤ dataStart
      · rw [if_pos short, if_neg fun both => absurd both.2 (Nat.not_lt.mpr short)]
        exact ⟨none, rfl⟩
      · rw [if_neg short, if_pos ⟨trivial, Nat.lt_of_not_le short⟩]
        rfl

end Slots

section Parsing
variable {d : Bytes} {offset limit sequence : Nat} {store : Store}

/-- A parser without a reason as a reader. -/
def orInvalid {α : Type} : Option α → Except Error α
  | some value => .ok value
  | none => .error .invalidDatabase

/-- What both parsers do with the bytes of a header. -/
def segmentFields (header : Bytes) (headerSize : Nat) (ordered : Bool) (offset limit : Nat) : Option SegmentInfo :=
  if checksum (header.take (headerSize - 4)) ≠ decode32 (header.drop (headerSize - 4)) then none
  else
    let first := decode64 (header.drop 8)
    let last := decode64 (header.drop 16)
    let body := decode32 (header.drop 24)
    if first = 0 ∨ last < first ∨ body > walCapacity - 32 ∨ body > limit - offset - headerSize then none
    else
      let frames := last - first + 1
      if frames > body / 84 ∨ body > frames * batchScratch then none
      else if headerSize = 64 then
        let minimum := decode64 (header.drop 28)
        let maximum := decode64 (header.drop 36)
        let previous := decode64 (header.drop 44)
        let skip := decode64 (header.drop 52)
        if minimum > maximum ∨ (previous ≠ 0 ∧ (previous < dataStart ∨ previous ≥ offset)) ∨
            (skip ≠ 0 ∧ (skip < dataStart ∨ skip ≥ offset)) then none
        else some ⟨first, last, minimum, maximum, previous, skip, body, headerSize, ordered⟩
      else some ⟨first, last, 0, uint64Max, 0, 0, body, headerSize, ordered⟩

theorem parse_wide (header : Bytes) (ordered : Bool) :
    parseSegment header 64 ordered offset limit = segmentFields header 64 ordered offset limit := by
  unfold parseSegment segmentFields
  simp only [if_true, dataStart]
  rfl

theorem parse_narrow (header : Bytes) :
    parseSegment (header.take 32) 32 false offset limit = segmentFields header 32 false offset limit := by
  have front : (header.take 32).take 28 = header.take 28 := by rw [List.take_take]; rfl
  unfold parseSegment segmentFields
  simp only [front, Nat.reduceSub, decode32_take (show 28 + 4 ≤ 32 by decide), decode32_take (show 24 + 4 ≤ 32 by decide),
    decode64_take (show 8 + 8 ≤ 32 by decide), decode64_take (show 16 + 8 ≤ 32 by decide)]
  simp

theorem on_parsed (parsed : Option SegmentInfo) :
    on (match parsed with | some segment => pure segment | none => Io.fail .invalidDatabase : Io SegmentInfo) store =
      (orInvalid parsed, store) := by
  cases parsed <;> rfl

-- With the fields as `segmentFields` names them.
theorem inspect_segment_shape (d : Bytes) (offset limit : Nat) : inspectSegmentParse d offset limit =
    if offset > limit ∨ limit - offset < 32 then none
    else if (readAt d offset 64).length < 32 then none
    else
      match (if (readAt d offset 64).take 8 = spanMagic then some (true, 64)
        else if (readAt d offset 64).take 8 = unorderedMagic then some (false, 64)
        else if (readAt d offset 64).take 8 = segmentMagic then some (false, 32)
        else none : Option (Bool × Nat)) with
      | none => none
      | some (ordered, headerSize) =>
          if headerSize = 64 ∧ (limit - offset < 64 ∨ (readAt d offset 64).length < 64) then none
          else segmentFields (readAt d offset 64) headerSize ordered offset limit := rfl

theorem segment_back (d : Bytes) (offset limit : Nat) (ordered : Bool) :
    (on (Io.require (64 ≤ limit - offset) .invalidDatabase >>= fun _ => do
        let back ← readExact .database (offset + 32) 32
        match parseSegment (readAt d offset 32 ++ back) 64 ordered offset limit with
        | some segment => pure segment
        | none => Io.fail .invalidDatabase : Io SegmentInfo) (image d)).1 =
      orInvalid (if 64 = 64 ∧ (limit - offset < 64 ∨ (readAt d offset 64).length < 64) then none
        else segmentFields (readAt d offset 64) 64 ordered offset limit) := by
  have content : (image d).content .database = d := rfl
  have whole : readAt d offset 32 ++ readAt d (offset + 32) 32 = readAt d offset 64 := read_append 32 32
  have size := read_length d offset 64
  have size' := read_length d (offset + 32) 32
  rw [on_require_bind]
  by_cases large : 64 ≤ limit - offset
  · rw [if_pos large, on_bind, on_read_exact, content]
    by_cases cut : (readAt d offset 64).length < 64
    · rw [if_neg (by omega), if_pos ⟨rfl, .inr cut⟩]
      rfl
    · rw [if_pos (by omega), if_neg (by omega)]
      simp only [whole, on_parsed, parse_wide]
  · rw [if_neg large, if_pos ⟨rfl, .inl (by omega)⟩]
    rfl

/-- The two readings of a segment header. -/
theorem segment_agrees (d : Bytes) (offset limit : Nat) : headerIn d offset limit = orInvalid (inspectSegmentParse d offset limit) := by
  have content : (image d).content .database = d := rfl
  have front : readAt d offset 32 = (readAt d offset 64).take 32 := read_front (by decide)
  have name : (readAt d offset 32).take 8 = (readAt d offset 64).take 8 := by
    rw [front, List.take_take]
    rfl
  have size := read_length d offset 64
  have size' := read_length d offset 32
  rw [inspect_segment_shape, headerIn, readSegment, on_require_bind]
  by_cases room : offset ≤ limit ∧ 32 ≤ limit - offset
  · rw [if_pos room, if_neg (show ¬ (offset > limit ∨ limit - offset < 32) by omega), on_bind, on_read_exact, content]
    by_cases short : (readAt d offset 64).length < 32
    · rw [if_pos short, if_neg (by omega)]
      rfl
    rw [if_neg short, if_pos (by omega)]
    simp only [name]
    by_cases span : (readAt d offset 64).take 8 = spanMagic
    · simp only [span, decide_true, true_or, if_true]
      exact (segment_back d offset limit true).trans (by simp only [true_and])
    by_cases unordered : (readAt d offset 64).take 8 = unorderedMagic
    · have other : ¬ unorderedMagic = spanMagic := by decide
      simp only [unordered, other, decide_false, or_true, if_true, if_false]
      exact (segment_back d offset limit false).trans (by simp only [true_and])
    simp only [span, unordered, decide_false, Bool.false_eq_true, or_self, if_false]
    rw [on_require_bind]
    by_cases narrow : (readAt d offset 64).take 8 = segmentMagic
    · rw [if_pos narrow, if_pos narrow, front, parse_narrow]
      exact congrArg Prod.fst (on_parsed (segmentFields (readAt d offset 64) 32 false offset limit))
    · rw [if_neg narrow, if_neg narrow]
      rfl
  · rw [if_neg room, if_pos (by omega)]
    rfl

/-- What the inspector keeps of a frame. -/
def inspected (frame : Frame) : InspectFrame :=
  (List.range frame.records).foldl (fun seen i => seen.note (decide (i = 0)) (frameTime frame.bytes i))
    ⟨frame.bytes.length, frame.records, 0, 0, 0, 0, true⟩

-- The checks of a frame header, one by one.
theorem frame_header_checks (header : Bytes) :
    checkFrameHeader header = true ↔ ¬ (header.take 8 ≠ batchMagic ∨ decode32 (header.drop 16) = 0 ∨
      decode32 (header.drop 16) > maxRecords ∨ decode32 (header.drop 20) ≠ 32 + decode32 (header.drop 16) * 20 ∨
      decode32 (header.drop 24) ≠ 0 ∨ checksum (header.take 28) ≠ decode32 (header.drop 28)) := by
  simp only [checkFrameHeader, decide_eq_true_eq, not_or, ne_eq, not_not, not_lt, gt_iff_lt]

/-- The two readings of a frame. -/
theorem frame_agrees (file : File) (offset limit sequence : Nat) (store : Store) :
    inspectFrameParse (store.content file) offset limit sequence =
      (on (readFrame file offset limit sequence) store).1.map inspected := by
  unfold inspectFrameParse inspectRead
  rw [readFrame, on_require_bind]
  by_cases room : 32 ≤ limit - offset
  · rw [if_neg (show ¬ limit - offset < 32 by omega), if_pos room, on_bind, on_read_exact]
    have size := read_length (store.content file) offset 32
    generalize readAt (store.content file) offset 32 = header at size ⊢
    by_cases short : header.length = 32
    · rw [if_pos short]
      simp only [if_neg (show ¬ header.length < 32 by omega), on_require_bind]
      by_cases valid : checkFrameHeader header = true
      · rw [if_neg ((frame_header_checks header).mp valid)]
        by_cases next : decode64 (header.drop 8) = sequence
        · rw [if_neg (show ¬ decode64 (header.drop 8) ≠ sequence from not_not.mpr next),
            if_pos (show checkFrameHeader header = true ∧ decode64 (header.drop 8) = sequence from ⟨valid, next⟩)]
          by_cases fits : decode32 (header.drop 20) + 32 ≤ limit - offset
          · rw [if_neg (show ¬ decode32 (header.drop 20) + 32 > limit - offset by omega), if_pos fits, on_bind, on_read_exact,
              Nat.add_sub_cancel]
            generalize readAt (store.content file) (offset + 32) (decode32 (header.drop 20)) = rest
            by_cases cut : rest.length = decode32 (header.drop 20)
            · rw [if_neg (show ¬ rest.length ≠ decode32 (header.drop 20) from not_not.mpr cut), if_pos cut]
              simp only [on_require_bind]
              have total : (header ++ rest).length = decode32 (header.drop 20) + 32 := by
                rw [List.length_append]
                omega
              by_cases commit : ((header ++ rest).drop (decode32 (header.drop 20))).take 8 = commitMagic ∧
                decode64 (((header ++ rest).drop (decode32 (header.drop 20))).drop 8) = sequence ∧
                decode32 (((header ++ rest).drop (decode32 (header.drop 20))).drop 16) = decode32 (header.drop 16) ∧
                decode32 (((header ++ rest).drop (decode32 (header.drop 20))).drop 20) = decode32 (header.drop 20) ∧
                decode32 (((header ++ rest).drop (decode32 (header.drop 20))).drop 28) =
                  checksum (((header ++ rest).drop (decode32 (header.drop 20))).take 28)
              · obtain ⟨name, same, count, length, sum⟩ := commit
                simp only [name, same, count, length, sum, ne_eq, not_true_eq_false, or_self, if_false, true_and, and_true]
                by_cases body : decode32 (((header ++ rest).drop (decode32 (header.drop 20))).drop 24) =
                    checksum ((header ++ rest).take (decode32 (header.drop 20)))
                · simp only [body, not_true_eq_false, if_false, if_true]
                  simp only [on_pure, Except.map, inspected, total]
                · simp only [body, not_false_eq_true, if_true, if_false]
                  rfl
              · rw [if_pos (show _ ∨ _ by by_contra fine; exact commit (by simpa [not_or] using fine)),
                  if_neg fun all => commit ⟨all.1, all.2.1, all.2.2.1, all.2.2.2.1, all.2.2.2.2.2⟩]
                rfl
            · rw [if_pos (show rest.length ≠ decode32 (header.drop 20) from cut), if_neg cut]
              rfl
          · rw [if_pos (show decode32 (header.drop 20) + 32 > limit - offset by omega), if_neg fits]
            rfl
        · rw [if_pos (show decode64 (header.drop 8) ≠ sequence from next),
            if_neg (show ¬ (checkFrameHeader header = true ∧ decode64 (header.drop 8) = sequence) from fun both => next both.2)]
          rfl
      · rw [if_pos (not_not.mp fun fine => valid ((frame_header_checks header).mpr fine)),
          if_neg (show ¬ (checkFrameHeader header = true ∧ decode64 (header.drop 8) = sequence) from fun both => valid both.1)]
        rfl
    · rw [if_neg short, if_pos (show header.length < 32 by omega)]
      rfl
  · rw [if_pos (show limit - offset < 32 by omega), if_neg room]
    rfl

end Parsing

-- What the library chooses from the slots, whatever the WAL.
theorem chosen_read (store : Store) :
    (on (readManifests (store.content .database).length) store).1 = orInvalid (chosen (store.content .database)) := by
  rw [read_manifests]
  unfold chosen
  by_cases legacy : (store.content .database).length = 32
  · rw [if_pos legacy, if_pos legacy]
    rfl
  rw [if_neg legacy, if_neg legacy]
  cases selected (store.content .database) with
  | some m => rfl
  | none =>
      simp only
      split <;> rfl

/-- The inspector's own parsers and the readers of the library make the same of every image: of the pair
headers, of each manifest slot and of the slots together, of a segment header and of a frame anywhere. -/
theorem parsers_agree (store : Store) :
    (∀ file magic, on (pairHeader file magic) store = (inspectPairHeader (store.content file) magic, store)) ∧
    (∀ index m size, slotManifest index m size =
      if (inspectSlotParse m size).valid = true ∧ (inspectSlotParse m size).revision % 2 = index then
        some (manifestsOf (inspectSlotParse m size))
      else none) ∧
    (match (on (readManifests (store.content .database).length) store).1 with
      | .ok m => ∃ slot, inspectManifests (store.content .database) startState = learned slot m
      | .error error => error = .invalidDatabase ∧ inspectManifests (store.content .database) startState =
          { startState with predicted := some (.invalidDatabase, "manifests") }) ∧
    (∀ offset limit, (on (readSegment .database offset limit) store).1 =
      orInvalid (inspectSegmentParse (store.content .database) offset limit)) ∧
    ∀ file offset limit sequence, inspectFrameParse (store.content file) offset limit sequence =
      (on (readFrame file offset limit sequence) store).1.map inspected := by
  refine ⟨fun file magic => pair_header_agrees file magic store, fun index m size => slot_agrees, ?_, fun offset limit => ?_,
    fun file offset limit sequence => frame_agrees file offset limit sequence store⟩
  · have agree := manifests_agree (store.content .database)
    have chose := chosen_read store
    rw [chose]
    cases found : chosen (store.content .database) with
    | some m =>
        rw [found] at agree
        exact agree
    | none =>
        rw [found] at agree
        exact ⟨rfl, agree⟩
  · rw [← segment_agrees]
    exact within_on (within_segment .database offset limit) fun i _ _ => rfl

end Timelite.Foreseeing
