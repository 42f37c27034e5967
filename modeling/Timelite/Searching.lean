import Timelite.Summing

/-!
Seek and range reads in every run on intact pairs without a dormant slot. A
dormant manifest that comes into force with a checkpoint can make an installed
batch's own bytes the database, with headers that nobody checked.
-/
namespace Timelite.Searching
open ByteFile Program Durable Codec Backend Contents Images Databases Calls Cursor Reader BatchApi Aggregating System Refinement Answering
  Observing Soundness Reaching Querying Reopening Summing

section Queries
variable {host : Host} {range : Range}

end Queries

section Forged

end Forged

end Timelite.Searching
