import Timelite.Reaching
import Timelite.Observing

/-!
Close and open again. Where no slot lies dormant, the manifest in force is the one
that open chooses, and the handle is rebuilt from the same content.
-/
namespace Timelite.Reopening
open ByteFile Program Durable Codec CodecLaws Backend BackendLaws Layout HeaderWalk SlotLaws WalLaws Contents Images Crashes
  Databases Calls Checkpointing Retaining Cursor Reader Retention BatchApi Opening System Refinement Undisturbed Answering
  Observing Reaching

/-- A short database without a manifest has none in its first slot either that a
longer file would make valid. Its second slot is the next one to be written. -/
def Quiet (d : Bytes) : Prop :=
  chosen d = some (noManifest false) → ∀ size m, SlotHas (resize d 160) 0 size m → m.state.revision = 0

/-- A steady handle whose manifest is the one that the next open chooses. -/
structure Lasting (host : Host) (identity : Bytes) (v : View) : Prop where
  steady : Steady host identity v
  found : chosen (host.store.content .database) = some v.m
  quiet : Quiet (host.store.content .database)

section Manifests
variable {d identity : Bytes} {content : Content} {m : Manifests}

theorem upgrade_holds (d : Bytes) (short : d.length = 32) (some : content.pending ≠ [])
    (start : content.dataEnd = 160) :
    Holds (withSegment content (noManifest true) d some) 32 (encodeManifest 0 dataStart 0 0 0) := by
  have whole := holds_write d 32 upgradeBytes
  rw [upgradeBytes, holds_append] at whole
  have shape : withSegment content (noManifest true) d some = writeAt (writeAt d 32 upgradeBytes) 160
      (installImage content some) := by
    rw [withSegment, start]
    rfl
  rw [shape]
  exact whole.1.write _ _ (.inl (by decide))

/-- The slot of the manifest in force holds no later one. -/
theorem older_segment (installed : Installed d identity content m) (root : m.state.root = 160) (found : chosen d = some m)
    (quiet : Quiet d) (some : content.pending ≠ []) (size : Nat) (other : Manifests)
    (has : SlotHas (withSegment content m d some) (m.state.revision % 2) size other) :
    other.state.revision ≤ m.state.revision := by
  have ends := installed.extent
  have image := install_image_length some
  have filled : installImage content some ≠ [] := by
    intro none
    rw [none, List.length_nil] at image
    omega
  rcases chosen_cases found with current | ⟨rfl, short⟩ | ⟨rfl, _, short⟩
  · have bounds := selected_bounds current
    have long := selected_length current
    have same : Agree d (withSegment content m d some) 0 160 := by
      rw [withSegment, upgraded, bounds.modern]
      exact write_agree_below _ _ _ _ long (Nat.le_add_right _ _)
    have here := slot_has_agree same.symm (Nat.mod_lt _ (by decide)) has
    exact Nat.le_of_eq (slot_has_revision (selected_some current).1 here)
  · have none : extent content.segments = 0 := by
      rw [root] at ends
      exact Nat.add_left_cancel ends.symm
    have start : content.dataEnd = 160 := by rw [Content.dataEnd, none]
    have slot : slotBytes (withSegment content (noManifest true) d some) 32 = encodeManifest 0 dataStart 0 0 0 :=
      upgrade_holds d short some start
    have revision := slot_revision has.2
    rw [show 32 + 64 * ((noManifest true).state.revision % 2) = 32 from rfl, slot] at revision
    rw [revision]
    decide
  · have none : extent content.segments = 0 := by
      rw [root] at ends
      exact Nat.add_left_cancel ends.symm
    have start : content.dataEnd = 160 := by rw [Content.dataEnd, none]
    have shape : withSegment content (noManifest false) d some = writeAt (resize d 160) 160 (installImage content some) := by
      rw [write_resize d 160 160 _ filled short (Nat.le_refl _), withSegment, start]
      rfl
    have same : Agree (resize d 160) (withSegment content (noManifest false) d some) 0 160 := by
      rw [shape]
      exact write_agree_below _ _ _ _ (by rw [resize_length]) (Nat.le_refl _)
    have here := slot_has_agree same.symm (by decide) has
    exact Nat.le_of_eq (quiet found size other here)

theorem quiet_revision (found : chosen d = some m) (some : m.state.revision ≠ 0) : Quiet d := by
  intro bare
  cases bare.symm.trans found
  exact absurd rfl some

end Manifests

section Lasting
variable {store : Store} {db : Batches} {host last opened : Host} {identity : Bytes} {v v' : View} {act : Act}
  {mode : OpenMode} {scratchSize : Nat} {result : Except Error Answer}

theorem lasting_changed (lasting : Lasting host identity v) (steady : Steady last identity v')
    (changed : Changed identity host.store last.store v v') : Lasting last identity v' := by
  have serving := lasting.steady.serving
  cases changed with
  | same database manifests =>
      refine ⟨steady, ?_, ?_⟩
      · rw [database, manifests]
        exact lasting.found
      · rw [database]
        exact lasting.quiet
  | installed some space more database content manifests =>
      have stored := checkpoint_stored serving some space more
        (older_segment serving.installed serving.root lasting.found lasting.quiet some)
      rw [← database, ← manifests] at stored
      have found := selected_chosen stored.current
      exact ⟨steady, found, quiet_revision found (by rw [manifests]; exact Nat.succ_ne_zero _)⟩
  | moved stored slack later =>
      have found := selected_chosen stored.current
      exact ⟨steady, found, quiet_revision found (by omega)⟩

-- Open reads back the content that a handle served.
theorem accepted_read {v' : Validated} (lasting : Lasting host identity v) (accepted : Opaque.Accepted host.store v') :
    v'.manifests = v.m ∧ Read v.content v.m (host.store.content .wal).length v' := by
  have serving := lasting.steady.serving
  have logged := serving.logged
  have same : v'.manifests = v.m := Option.some.inj (accepted.found.symm.trans lasting.found)
  have checked := accepted.checked
  rw [same, check_installed serving.installed] at checked
  have checked' : checkedOf v.m.state.root v.content = v'.checked := Except.ok.inj (congrArg Prod.fst checked)
  obtain ⟨stale, first, fresh, scanned'⟩ := accepted.scanned
  rw [same, serving.installed.last, accepted.size, logged.stale (.inl rfl) serving.wide] at first
  have none : Option.none = stale := Except.ok.inj (congrArg Prod.fst first)
  subst none
  rw [fresh, same, serving.installed.last, accepted.size] at scanned'
  have scan := (logged.scan (.inl rfl) serving.wide).symm.trans scanned'
  have scan' : scanned v.content.installed v.content.pending = v'.scan := Except.ok.inj (congrArg Prod.fst scan)
  refine ⟨same, ?_⟩
  have shape : v' = ⟨v.m, checkedOf v.m.state.root v.content, false,
      scanned v.content.installed v.content.pending, (host.store.content .wal).length⟩ := by
    rw [checked', scan', ← same, ← accepted.size]
    exact congrArg (fun stale => (⟨v'.manifests, v'.checked, stale, v'.scan, v'.walSize⟩ : Validated)) fresh
  rw [shape]
  exact .logged

/-- What a reopened handle has in common with the one that was closed. -/
theorem reopen_lasting (lasting : Lasting host identity v)
    (ran : Host.call ⟨host.store, batchesInit⟩ (.openPair mode scratchSize) = (.ok .none, opened)) :
    Lasting opened identity ⟨v.content, v.m, 1⟩ ∧ ∀ file, opened.store.content file = host.store.content file := by
  have serving := lasting.steady.serving
  have present : Present host.store := by
    rw [Present, serving.synced.1, serving.synced.2]
    exact ⟨rfl, rfl⟩
  obtain ⟨closed, large, old⟩ := Establishing.opens_only present ran
  rw [call_open present closed large old] at ran
  have whole := reads_validatePair.on_eq host.store
  cases read : (on validatePair host.store).1 with
  | error error =>
      rw [read] at whole
      have failed : on recovering host.store = (.error error, host.store) := on_bind_error whole
      rw [failed] at ran
      cases ran
  | ok v' =>
      rw [read] at whole
      have front : on recovering host.store = on (recoverPair v') host.store := on_bind_ok whole
      rw [front] at ran
      obtain ⟨same, reading⟩ := accepted_read lasting (Opaque.accepted read)
      have idle := serving.phase
      have long : v.content.walEnd = (host.store.content .wal).length := serving.wal_length.symm
      have cut : Logged (resize (host.store.content .wal) v.content.walEnd) identity v.content [] := by
        rw [long, resize_self]
        exact serving.logged
      obtain ⟨after, handle, m', runs, serving', current, _, delivers, wal, change⟩ :=
        @recover_read False (fun _ _ => True) host.store identity v.content v.m v' (present_safe present) serving.wide
          serving.installed lasting.found (fun busy => absurd idle busy) (fun busy => absurd idle busy)
          (fun busy => absurd idle busy) reading (Nat.le_of_eq long) cut fun _ _ _ _ => trivial
      rw [runs.on_eq] at ran
      cases ran
      rcases change with ⟨_, rfl, database⟩ | ⟨busy, _⟩
      · rw [long, resize_self] at wal
        refine ⟨⟨⟨serving', lasting.steady.honest, delivers⟩, current, ?_⟩, fun file => ?_⟩
        · change Quiet (after.content .database)
          rw [database]
          exact lasting.quiet
        · cases file with
          | database => exact database
          | wal => exact wal
      · exact absurd idle busy

end Lasting

end Timelite.Reopening
