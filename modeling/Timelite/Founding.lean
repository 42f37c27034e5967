import Timelite.Reopening

/-!
A pair whose creation was cut short: its files hold first parts of their headers. Open
refuses it, or finds an empty pair in it.
-/
namespace Timelite.Founding
open ByteFile Program Durable Codec CodecLaws Backend BackendLaws Layout HeaderWalk SlotLaws Contents Images Crashes Databases
  Calls Cursor Reader BatchApi Opening Creating Atomicity System Refinement Soundness Undisturbed Answering Observing Reaching Reopening

section Headers
variable {d identity : Bytes} {m : Manifests}

end Headers

section Opening
variable {P : Bytes → Bytes → Prop} {store last : Store} {db handle : Batches} {identity : Bytes} {mode : OpenMode} {scratchSize : Nat}

end Opening

end Timelite.Founding
