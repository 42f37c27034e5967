import Timelite.Admitting
import Timelite.Locating

/-!
What open makes of an accepted pair, whatever is dormant in the other slot or
behind the data, and the states of the handle that the calls lead to.
-/
namespace Timelite.Reaching
open ByteFile Program Durable Codec CodecLaws Backend BackendLaws Layout WalLaws Contents Images Crashes Databases Calls
  Appending Checkpointing Retaining Cursor Expiring Reader Retention BatchApi Opening Atomicity System Refinement Undisturbed
  Soundness Refusing Admitting Answering

/-- The pair that open finds states the truth about its records. -/
structure IntactPair (store : Store) : Prop where
  present : Present store
  intact : ∀ m, chosen (store.content .database) = some m → Intact (store.content .database) m

section Opened
variable {store : Store} {v : Validated} {db : Batches} {mode : OpenMode} {scratchSize : Nat} {opened : Host}

-- An unfinished retention is refused when its last revisions are missing.
theorem recovered_room {handle : Batches} {after : Store} (ran : on (recoverPair v) store = (.ok handle, after))
    (busy : v.manifests.state.phase ≠ 0) : v.manifests.state.revision + 2 ≤ uint64Max := by
  by_contra beyond
  have full : ¬ v.manifests.state.revision ≤ uint64Max - 2 := by
    simp only [uint64Max] at beyond ⊢
    omega
  have refused : on (recoverPair v) store = (.error (.errno .eoverflow), (store.sync .database).sync .wal) := by
    refine recover_error ?_
    unfold finishPair
    rw [if_pos busy]
    unfold finishRetention
    rw [on_require_bind, if_neg full]
  rw [refused] at ran
  cases ran

/-- What open makes of an intact pair. -/
structure Admitted (store : Store) (opened : Host) (identity : Bytes) (content : Content) (before after : Manifests) :
    Prop where
  installed : Installed (store.content .database) identity content before
  found : chosen (store.content .database) = some before
  read : ∃ v, Opaque.Accepted store v ∧ Read content before (store.content .wal).length v
  steady : Steady opened identity ⟨content, after, 1⟩
  current : chosen (opened.store.content .database) = some after
  slack : (before.state.phase = 0 → Slack (store.content .database) content before) →
    Slack (opened.store.content .database) content after
  wal : opened.store.content .wal = resize (store.content .wal) content.walEnd
  change : before.state.phase = 0 ∧ after = before ∧ opened.store.content .database = store.content .database ∨
    before.state.phase ≠ 0 ∧ Stored (opened.store.content .database) identity content after ∧
      before.state.revision < after.state.revision ∧ after.state.revision ≤ before.state.revision + 2

/-- Open of a pair whose headers state the truth, whatever its numbers, unless they wrap. -/
theorem open_reads (present : Present store)
    (stated : ∀ m, chosen (store.content .database) = some m → AllStated (store.content .database) m)
    (unwrapped : ∀ v, Opaque.Accepted store v → Unwrapped (store.content .wal) v.manifests.last)
    (ran : Host.call ⟨store, db⟩ (.openPair mode scratchSize) = (.ok .none, opened)) :
    ∃ identity content before after, Admitted store opened identity content before after := by
  obtain ⟨closed, large, old⟩ := Establishing.opens_only present ran
  rw [call_open present closed large old] at ran
  have whole := reads_validatePair.on_eq store
  cases read : (on validatePair store).1 with
  | error error =>
      rw [read] at whole
      have failed : on recovering store = (.error error, store) := on_bind_error whole
      rw [failed] at ran
      cases ran
  | ok v =>
      rw [read] at whole
      have front : on recovering store = on (recoverPair v) store := on_bind_ok whole
      rw [front] at ran
      cases recovered : on (recoverPair v) store with
      | mk result last =>
          rw [recovered] at ran
          cases result with
          | error error => cases ran
          | ok handle =>
              cases ran
              have accepted := Opaque.accepted read
              obtain ⟨identity, content, wide, installed, honest, reading, long, cut⟩ :=
                accepted_content accepted (stated _ accepted.found) (unwrapped v accepted)
              obtain ⟨after, handle', m', runs, serving, current, slack, delivers, wal, change⟩ :=
                @recover_read False (fun _ _ => True) store identity content v.manifests v (present_safe present) wide
                  installed accepted.found (fun busy => recovered_room recovered busy) (fun _ never => never.elim)
                  (fun _ never => never.elim) reading long cut fun _ _ _ _ => trivial
              have same := runs.on_eq
              rw [recovered] at same
              cases same
              exact ⟨identity, content, v.manifests, m', installed, accepted.found, ⟨v, accepted, reading⟩, ⟨serving, honest, delivers⟩, current,
                slack, wal, change.imp_right fun busy => ⟨busy.1, busy.2.1, busy.2.2.1, busy.2.2.2.1⟩⟩

theorem open_admits (intact : IntactPair store)
    (ran : Host.call ⟨store, db⟩ (.openPair mode scratchSize) = (.ok .none, opened)) :
    ∃ identity content before after, Admitted store opened identity content before after :=
  open_reads intact.present (fun m found => (intact.intact m found).stated)
    (fun _ accepted => unwrapped_small (intact.intact _ accepted.found).small (accepted.size ▸ accepted.most)) ran

end Opened

section Attaining
variable {host last : Host} {act : Act} {result : Except Error Answer}

theorem close_unready (step : Step host (.returned .close result) last) : Unready last.db := by
  cases step with
  | @returned _ _ db store execution =>
      obtain ⟨inner, inside, shape⟩ := exec_answering execution
      cases inner with
      | none => cases shape
      | some value =>
          have handle : db = value.2 := congrArg (fun outcome => (outcome.map Prod.snd).getD db) shape
          rcases (quits_close host.db host.store _ _ inside).2 value rfl with fresh | ⟨kept, bare⟩
          · exact .inl (by rw [handle, fresh]; rfl)
          · exact .inl (by rw [handle, kept]; exact bare)

end Attaining

section Mixed

/-- A narrow segment, a wide one, and a frame in the WAL. -/
def mixedStore : Store where
  database := some (settled (encodePair databaseMagic (List.replicate 16 7) ++
    encodeManifest 2 424 2 5 276 ++ List.replicate 64 0 ++ chain 160 [] Locating.mixedChain))
  wal := some (settled (encodePair walMagic (List.replicate 16 7) ++ frames 3 [Locating.oneBatch]))
  entropy := []

theorem mixed_chosen :
    chosen (mixedStore.content .database) = some ⟨false, 2, 424, 2, 5, 276, true, ⟨2, 160, 0, false⟩⟩ := by
  decide +kernel

theorem mixed_intact : IntactPair mixedStore where
  present := ⟨rfl, rfl⟩
  intact := fun m found => by
    cases mixed_chosen.symm.trans found
    exact ⟨by decide, by decide +kernel⟩

def mixedHost : Host := (Host.call ⟨mixedStore, batchesInit⟩ (.openPair .openExisting batchScratch)).2

theorem mixed_opens : Host.call ⟨mixedStore, batchesInit⟩ (.openPair .openExisting batchScratch) = (.ok .none, mixedHost) := by
  have ran : (Host.call ⟨mixedStore, batchesInit⟩ (.openPair .openExisting batchScratch)).1 = .ok .none := by
    decide +kernel
  rw [mixedHost, ← ran]

end Mixed

end Timelite.Reaching
