import Timelite.Reaching
import Timelite.Observing

/-!
Queries of a handle that serves a content, against what a reader returns there:
seek is a linear search, a range read to END is a filter.
-/
namespace Timelite.Querying
open ByteFile Program Durable Codec CodecLaws Backend BackendLaws Layout HeaderWalk Contents Crashes Calls Cursor Reader BatchApi
  Seeking Ranging Aggregating System Refinement Answering Observing Reaching

section Searching
variable {store : Store} {db db' : Batches} {host : Host} {identity : Bytes} {v : View} {from_us scratchSize : Nat}

end Searching

section Filtering
variable {host : Host} {identity : Bytes} {v : View} {range : Range}

end Filtering

end Timelite.Querying
