import Timelite.Crashes

/-!
Database images under one manifest and how they bear writes: bytes outside the
slots and the live chain are free, a manifest written to the other slot replaces
the current one exactly when it is whole.
-/
namespace Timelite.Databases
open ByteFile Program Durable Codec CodecLaws Backend BackendLaws Layout FrameLaws SlotLaws Contents Images Crashes
  Reader

section Slots
variable {d d' : Bytes} {m : Manifests}

/-- The other slot holds nothing that a longer or shorter file could turn into a
newer manifest. -/
def Guarded (d : Bytes) (m : Manifests) : Prop :=
  ∀ size other, SlotHas d ((m.state.revision + 1) % 2) size other → other.state.revision < m.state.revision

theorem slot_agree (same : Agree d d' 0 160) {index : Nat} (bit : index < 2) :
    slotBytes d (32 + 64 * index) = slotBytes d' (32 + 64 * index) :=
  same.read _ _ (Nat.zero_le _) (by omega)

theorem slot_has_agree (same : Agree d d' 0 160) {index size : Nat} (bit : index < 2)
    (has : SlotHas d index size m) : SlotHas d' index size m := by
  rw [SlotHas, slot_agree same bit] at has
  exact has

theorem slot_has_resize {index size size' : Nat} (has : SlotHas d index size m) (fits : m.dataEnd ≤ size') :
    SlotHas d index size' m := ⟨has.1, slot_resize has.2 fits⟩

theorem slot_has_revision {index size size' : Nat} {m' : Manifests} (has : SlotHas d index size m)
    (also_ : SlotHas d index size' m') : m'.state.revision = m.state.revision := by
  rw [slot_revision has.2, slot_revision also_.2]

-- Whatever the length, a slot holds one manifest.
theorem slot_has_unique {index size size' : Nat} {m' : Manifests} (has : SlotHas d index size m)
    (also_ : SlotHas d index size' m') : m' = m := by
  have fits := (slot_bounds has.2).size
  have fits' := (slot_bounds also_.2).size
  have one := slot_resize has.2 (Nat.le_trans fits (Nat.le_max_left size size'))
  have other := slot_resize also_.2 (Nat.le_trans fits' (Nat.le_max_right size size'))
  exact Option.some.inj (other.symm.trans one)

theorem selected_bounds (chosen : selected d = some m) :
    Bounded m (m.state.revision % 2) d.length := slot_bounds (selected_some chosen).1.2

theorem selected_length (chosen : selected d = some m) : 160 ≤ d.length := by
  have bounds := selected_bounds chosen
  have := bounds.size
  have := bounds.root
  have := bounds.low
  omega

theorem selected_chosen (found : selected d = some m) : chosen d = some m := by
  have length := selected_length found
  rw [chosen, if_neg (by omega), found]

-- The three ways open finds a manifest, or does without.
theorem chosen_cases (found : chosen d = some m) :
    selected d = some m ∨ (m = noManifest true ∧ d.length = 32) ∨
      (m = noManifest false ∧ selected d = none ∧ d.length ≤ 160) := by
  unfold chosen at found
  split at found
  · rename_i legacy
    exact .inr (.inl ⟨(Option.some.inj found).symm, legacy⟩)
  · split at found
    · rename_i m' same
      rw [← Option.some.inj found]
      exact .inl same
    · rename_i none
      split at found
      · rename_i small
        exact .inr (.inr ⟨(Option.some.inj found).symm, none, small⟩)
      · cases found

/-- The manifest that a handle stands by: its slot holds it, whatever the other slot
holds, or there is none. -/
def Current (d : Bytes) (m : Manifests) : Prop :=
  SlotHas d (m.state.revision % 2) d.length m ∨ (m = noManifest true ∧ d.length = 32) ∨
    (m = noManifest false ∧ d.length ≤ 160)

theorem chosen_current (found : chosen d = some m) : Current d m := by
  rcases chosen_cases found with current | legacy | ⟨bare, _, short⟩
  · exact .inl (selected_some current).1
  · exact .inr (.inl legacy)
  · exact .inr (.inr ⟨bare, short⟩)

theorem Current.plain (current : Current d m) (off : m.state.enabled = false) : m.state.revision = m.generation := by
  rcases current with has | ⟨rfl, _⟩ | ⟨rfl, _⟩
  · exact (slot_bounds has.2).plain off
  · rfl
  · rfl

theorem Current.revision (current : Current d m) : m.state.revision ≤ uint64Max := by
  rcases current with has | ⟨rfl, _⟩ | ⟨rfl, _⟩
  · exact (slot_bounds has.2).revision
  · exact Nat.zero_le _
  · exact Nat.zero_le _

theorem Current.legacy (current : Current d m) (old : m.legacy = true) : m = noManifest true ∧ d.length = 32 := by
  rcases current with has | legacy | ⟨rfl, _⟩
  · rw [(slot_bounds has.2).modern] at old
    cases old
  · exact legacy
  · cases old

-- Without a manifest there are no segments.
theorem Current.occupied (current : Current d m) (some : m.generation ≠ 0) : SlotHas d (m.state.revision % 2) d.length m := by
  rcases current with has | ⟨rfl, _⟩ | ⟨rfl, _⟩
  · exact has
  · exact absurd rfl some
  · exact absurd rfl some


-- A slot area that is untouched keeps the choice as long as the data still fits.
theorem selected_agree (found : selected d = some m) (guarded : Guarded d m) (same : Agree d d' 0 160)
    (fits : m.dataEnd ≤ d'.length) : selected d' = some m := by
  refine selected_of ?_ fun other has => ?_
  · exact slot_has_agree same (Nat.mod_lt _ (by decide)) (slot_has_resize (selected_some found).1 fits)
  · exact guarded _ other (slot_has_agree same.symm (Nat.mod_lt _ (by decide)) has)

theorem guarded_agree (guarded : Guarded d m) (same : Agree d d' 0 160) : Guarded d' m :=
  fun size other has => guarded size other (slot_has_agree same.symm (Nat.mod_lt _ (by decide)) has)

theorem slot_offset_cases (revision : Nat) : slotOffset revision = 32 ∨ slotOffset revision = 96 := by
  unfold slotOffset
  omega

theorem slot_offset_eq (revision : Nat) : slotOffset revision = 32 + 64 * (revision % 2) := rfl

-- A write into one slot leaves the other slot as it was.
theorem slot_other {revision : Nat} {part : Bytes} (short : part.length ≤ 64) (long : 160 ≤ d.length) :
    slotBytes (writeAt d (slotOffset (revision + 1)) part) (slotOffset revision) =
      slotBytes d (slotOffset revision) := by
  rcases Nat.mod_two_eq_zero_or_one revision with even | odd
  · have here : slotOffset revision = 32 := by simp [slotOffset, even]
    have there : slotOffset (revision + 1) = 96 := by
      have : (revision + 1) % 2 = 1 := by omega
      simp [slotOffset, this]
    rw [here, there]
    exact ((write_agree_below d 96 part 96 (by omega) (Nat.le_refl _)).read 32 64 (by omega) (by omega)).symm
  · have here : slotOffset revision = 96 := by simp [slotOffset, odd]
    have there : slotOffset (revision + 1) = 32 := by
      have : (revision + 1) % 2 = 0 := by omega
      simp [slotOffset, this]
    rw [here, there]
    exact ((write_agree_above d 32 part 96 160 long (by omega)).read 96 64 (by omega) (by omega)).symm

theorem slot_write {revision : Nat} {bytes : Bytes} (size : bytes.length = 64) :
    slotBytes (writeAt d (slotOffset revision) bytes) (slotOffset revision) = bytes := by
  have held := holds_write d (slotOffset revision) bytes
  rwa [Holds, size] at held

theorem slot_write_length {revision : Nat} {part : Bytes} (short : part.length ≤ 64) (long : 160 ≤ d.length) :
    (writeAt d (slotOffset revision) part).length = d.length := by
  have grows := write_grows d (slotOffset revision) part
  have bound := write_bound d (slotOffset revision) part
  rcases slot_offset_cases revision with low | high <;> omega

end Slots

section Regions
variable {d d' identity : Bytes} {content content' : Content} {m m' : Manifests}

theorem installed_agree (installed : Installed d identity content m) (wide : identity.length = 16)
    (front : Agree d d' 0 32) (body : Agree d d' m.state.root m.dataEnd) :
    Installed d' identity content m :=
  { installed with
    pair := installed.pair.agree front (Nat.zero_le _) (by simp [databaseMagic, wide])
    held := installed.held.agree body (Nat.le_refl _) (by rw [chain_length, installed.extent]) }

/-- The database holds the content, and no other file length makes the other
slot newer. -/
structure Stored (d identity : Bytes) (content : Content) (m : Manifests) : Prop where
  current : selected d = some m
  guarded : Guarded d m
  installed : Installed d identity content m

theorem Stored.length (stored : Stored d identity content m) : 160 ≤ d.length :=
  selected_length stored.current

theorem Stored.fits (stored : Stored d identity content m) : m.dataEnd ≤ d.length :=
  (selected_bounds stored.current).size

theorem Stored.agree (stored : Stored d identity content m) (wide : identity.length = 16)
    (front : Agree d d' 0 160) (body : Agree d d' m.state.root m.dataEnd) (fits : m.dataEnd ≤ d'.length) :
    Stored d' identity content m where
  current := selected_agree stored.current stored.guarded front fits
  guarded := guarded_agree stored.guarded front
  installed := installed_agree stored.installed wide (front.mono (Nat.le_refl _) (by omega)) body

/-- Bytes beyond the data, or before the chain of a copy, are free. -/
theorem Stored.write (stored : Stored d identity content m) (wide : identity.length = 16) {offset : Nat}
    {bytes : Bytes} (above : 160 ≤ offset)
    (free : m.dataEnd ≤ offset ∨ offset + bytes.length ≤ m.state.root) :
    Stored (writeAt d offset bytes) identity content m := by
  have fits := stored.fits
  have grows := write_grows d offset bytes
  refine stored.agree wide (write_agree_below d offset bytes 160 stored.length above) ?_ (by omega)
  rcases free with beyond | before
  · exact (write_agree_below d offset bytes m.dataEnd fits beyond).mono (Nat.zero_le _) (Nat.le_refl _)
  · exact write_agree_above d offset bytes _ _ fits before

theorem installed_slot_write (installed : Installed d identity content m) (wide : identity.length = 16)
    (long : 160 ≤ d.length) (fits : m.dataEnd ≤ d.length) {revision : Nat} {part : Bytes}
    (short : part.length ≤ 64) :
    Installed (writeAt d (slotOffset revision) part) identity content m := by
  have above := installed.above
  rcases slot_offset_cases revision with low | high
  · rw [low]
    exact installed_agree installed wide (write_agree_below d 32 part 32 (by omega) (Nat.le_refl _))
      (write_agree_above d 32 part _ _ fits (by omega))
  · rw [high]
    exact installed_agree installed wide (write_agree_below d 96 part 32 (by omega) (by omega))
      (write_agree_above d 96 part _ _ fits (by omega))

/-- A whole manifest of the next revision becomes the current one, provided the
slot it leaves alone is older. -/
theorem publish_whole {bytes : Bytes} {revision : Nat} (fresh : Installed d identity content' m')
    (wide : identity.length = 16) (long : 160 ≤ d.length) (size : bytes.length = 64)
    (accepted : slotManifest ((revision + 1) % 2) bytes d.length = some m')
    (next : m'.state.revision = revision + 1)
    (older : ∀ size other, SlotHas d (revision % 2) size other → other.state.revision ≤ revision) :
    Stored (writeAt d (slotOffset (revision + 1)) bytes) identity content' m' := by
  have length : (writeAt d (slotOffset (revision + 1)) bytes).length = d.length :=
    slot_write_length (by omega) long
  have fits := (slot_bounds accepted).size
  have written : SlotHas (writeAt d (slotOffset (revision + 1)) bytes) (m'.state.revision % 2)
      (writeAt d (slotOffset (revision + 1)) bytes).length m' := by
    rw [SlotHas, next, ← slot_offset_eq, slot_write size, length]
    exact ⟨size, accepted⟩
  have guarded : Guarded (writeAt d (slotOffset (revision + 1)) bytes) m' := by
    intro size' other has
    have parity : (m'.state.revision + 1) % 2 = revision % 2 := by omega
    rw [SlotHas, parity, ← slot_offset_eq, slot_other (by omega) long] at has
    have old := older size' other has
    omega
  exact ⟨selected_of written fun other has => guarded _ other has, guarded,
    installed_slot_write fresh wide long fits (by omega)⟩

theorem selected_older (found : selected d = some m) :
    ∀ size other, SlotHas d (m.state.revision % 2) size other → other.state.revision ≤ m.state.revision :=
  fun _ _ has => le_of_eq (slot_has_revision (selected_some found).1 has)

/-- The data under the manifest in force are as they were, and the other slot holds
nothing that it did not hold before. -/
structure Unpublished (m : Manifests) (before d : Bytes) : Prop where
  current : selected d = some m
  front : Agree before d 0 32
  body : Agree before d m.state.root m.dataEnd
  grown : before.length ≤ d.length
  slot : ∀ size other, SlotHas d ((m.state.revision + 1) % 2) size other →
    SlotHas before ((m.state.revision + 1) % 2) size other

theorem unpublished_refl (current : selected d = some m) : Unpublished m d d :=
  ⟨current, agree_refl _ _ _, agree_refl _ _ _, Nat.le_refl _, fun _ _ has => has⟩

theorem Unpublished.trans {before middle : Bytes} (first : Unpublished m before middle) (second : Unpublished m middle d) :
    Unpublished m before d where
  current := second.current
  front := first.front.trans second.front
  body := first.body.trans second.body
  grown := Nat.le_trans first.grown second.grown
  slot := fun size other has => first.slot size other (second.slot size other has)

theorem Unpublished.write {before : Bytes} (unpublished : Unpublished m before d) (stored : Stored d identity content m)
    (wide : identity.length = 16) {offset : Nat} {bytes : Bytes} (above : 160 ≤ offset) (free : m.dataEnd ≤ offset) :
    Unpublished m before (writeAt d offset bytes) where
  current := (stored.write wide above (.inl free)).current
  front := unpublished.front.trans
    (write_agree_below d offset bytes 32 (Nat.le_trans (by decide) stored.length) (by omega))
  body := unpublished.body.trans
    ((write_agree_below d offset bytes m.dataEnd stored.fits free).mono (Nat.zero_le _) (Nat.le_refl _))
  grown := Nat.le_trans unpublished.grown (write_grows d offset bytes)
  slot := fun size other has => unpublished.slot size other
    (slot_has_agree (write_agree_below d offset bytes 160 stored.length above).symm (Nat.mod_lt _ (by decide)) has)

/-- The manifest that was in force before is alone in its slot, over its data. -/
structure Superseded (identity : Bytes) (content : Content) (m : Manifests) (d : Bytes) : Prop where
  installed : Installed d identity content m
  alone : ∀ size other, SlotHas d (m.state.revision % 2) size other → other = m

/-- A write into the other slot leaves the manifest that was in force. -/
theorem superseded_write (stored : Stored d identity content m) (wide : identity.length = 16) {part : Bytes}
    (short : part.length ≤ 64) : Superseded identity content m (writeAt d (slotOffset (m.state.revision + 1)) part) where
  installed := installed_slot_write stored.installed wide stored.length stored.fits short
  alone := fun size other has => by
    rw [SlotHas, ← slot_offset_eq, slot_other short stored.length, slot_offset_eq] at has
    exact slot_has_unique (selected_some stored.current).1 has

/-- However the write of a manifest is cut, either the old or the new one is current. -/
theorem publish_torn {bytes : Bytes} {count : Nat} (stored : Stored d identity content m)
    (fresh : Installed d identity content' m') (wide : identity.length = 16) (size : bytes.length = 64)
    (accepted : slotManifest ((m.state.revision + 1) % 2) bytes d.length = some m')
    (next : m'.state.revision = m.state.revision + 1)
    (cut : slotTear d (slotOffset (m.state.revision + 1)) bytes count) :
    Stored (writeAt d (slotOffset (m.state.revision + 1)) (bytes.take count)) identity content m ∧
        Unpublished m d (writeAt d (slotOffset (m.state.revision + 1)) (bytes.take count)) ∨
      Stored (writeAt d (slotOffset (m.state.revision + 1)) (bytes.take count)) identity content' m' ∧
        Superseded identity content m (writeAt d (slotOffset (m.state.revision + 1)) (bytes.take count)) := by
  have short : (bytes.take count).length ≤ 64 := by
    rw [List.length_take]
    omega
  have long := stored.length
  have above := stored.installed.above
  have length : (writeAt d (slotOffset (m.state.revision + 1)) (bytes.take count)).length = d.length :=
    slot_write_length short long
  have fits := (slot_bounds accepted).size
  have superseded := superseded_write stored wide short
  have current : SlotHas (writeAt d (slotOffset (m.state.revision + 1)) (bytes.take count))
      (m.state.revision % 2)
      (writeAt d (slotOffset (m.state.revision + 1)) (bytes.take count)).length m := by
    have has := (selected_some stored.current).1
    rw [SlotHas, ← slot_offset_eq] at has ⊢
    rw [slot_other short long, length]
    exact has
  have after : Installed (writeAt d (slotOffset (m.state.revision + 1)) (bytes.take count)) identity
      content' m' := installed_slot_write fresh wide long fits short
  -- The old manifest stays current when the other slot is not newer.
  have stays : (∀ size other, SlotHas (writeAt d (slotOffset (m.state.revision + 1)) (bytes.take count))
        ((m.state.revision + 1) % 2) size other → SlotHas d ((m.state.revision + 1) % 2) size other) →
      Stored (writeAt d (slotOffset (m.state.revision + 1)) (bytes.take count)) identity content m ∧
        Unpublished m d (writeAt d (slotOffset (m.state.revision + 1)) (bytes.take count)) := by
    intro same
    have guarded : Guarded (writeAt d (slotOffset (m.state.revision + 1)) (bytes.take count)) m :=
      fun size other has => stored.guarded size other (same size other has)
    have low : 32 ≤ slotOffset (m.state.revision + 1) := Nat.le_add_right _ _
    have chosen := selected_of current fun other has => guarded _ other has
    refine ⟨⟨chosen, guarded, superseded.installed⟩, chosen,
      write_agree_below d _ _ 32 (by omega) low, ?_, Nat.le_of_eq length.symm, same⟩
    exact write_agree_above d _ _ _ _ stored.fits (by rcases slot_offset_cases (m.state.revision + 1) with at_ | at_ <;> omega)
  rcases cut (slot_offset_cases _) with old | whole | bad
  · left
    refine stays fun size' other has => ?_
    rw [SlotHas, ← slot_offset_eq, old, slot_offset_eq] at has
    exact has
  · right
    refine ⟨?_, superseded⟩
    rw [slot_write size] at whole
    have written : SlotHas (writeAt d (slotOffset (m.state.revision + 1)) (bytes.take count))
        (m'.state.revision % 2)
        (writeAt d (slotOffset (m.state.revision + 1)) (bytes.take count)).length m' := by
      rw [SlotHas, next, ← slot_offset_eq, whole, length]
      exact ⟨size, accepted⟩
    have guarded : Guarded (writeAt d (slotOffset (m.state.revision + 1)) (bytes.take count)) m' := by
      intro size' other has
      have parity : (m'.state.revision + 1) % 2 = m.state.revision % 2 := by omega
      rw [parity] at has
      have same := slot_has_revision current has
      omega
    exact ⟨selected_of written fun other has => guarded _ other has, guarded, after⟩
  · left
    refine stays fun size' other has => ?_
    rw [SlotHas, ← slot_offset_eq] at has
    rw [slot_unsealed bad] at has
    cases has.2

end Regions

end Timelite.Databases
