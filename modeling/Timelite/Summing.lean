import Timelite.Querying
import Timelite.Reopening

/-!
Aggregation as a fold over all batches, before and after a checkpoint and a
reopening. A manifest that lies dormant in a slot of a short database can come
into force with the first checkpoint and take the data away from the next open.
-/
namespace Timelite.Summing
open ByteFile Program Durable Codec CodecLaws Backend BackendLaws Layout HeaderWalk Contents Images Crashes Databases Calls
  Checkpointing Cursor Reader BatchApi Ranging Aggregating System Refinement Answering Observing Soundness Reaching Querying
  Reopening

section Values

/-- The values of the matching records. -/
def matching (range : Range) (items : List Item) : List Int64 :=
  items.flatMap fun item => (item.2.filter (inRange range)).map (·.value)

end Values

section Aggregates
variable {host last : Host} {identity : Bytes} {v : View} {range : Range} {scratchSize : Nat}

/-- A database that was cut to 160 bytes: its first slot waits for 308 of them. -/
def dormantStore : Store where
  database := some (settled (encodePair databaseMagic (List.replicate 16 7) ++ encodeRetention 2 0 308 0 0 0 308 2 ++
    List.replicate 64 0))
  wal := some (settled (encodePair walMagic (List.replicate 16 7)))
  entropy := []

theorem dormant_chosen : chosen (dormantStore.content .database) = some (noManifest false) := by decide +kernel

theorem dormant_intact : IntactPair dormantStore where
  present := ⟨rfl, rfl⟩
  intact := fun m found => by
    cases dormant_chosen.symm.trans found
    exact ⟨by decide, fun place member => absurd member List.not_mem_nil⟩

def dormantHost : Host := (Host.call ⟨dormantStore, batchesInit⟩ (.openPair .openExisting batchScratch)).2

def filledHost : Host :=
  ((dormantHost.call (.append [⟨7, 5, -1⟩] batchScratch)).2.call (.checkpoint batchScratch)).2

end Aggregates

end Timelite.Summing
