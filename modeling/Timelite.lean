import Timelite.ByteFile
import Timelite.Program
import Timelite.Durable
import Timelite.Codec
import Timelite.CodecLaws
import Timelite.Backend
import Timelite.BackendLaws
import Timelite.Layout
import Timelite.FrameLaws
import Timelite.Links
import Timelite.SegmentLaws
import Timelite.HeaderWalk
import Timelite.SlotLaws
import Timelite.Spans
import Timelite.WalLaws
import Timelite.Contents
import Timelite.Images
import Timelite.Crashes
import Timelite.Databases
import Timelite.Calls
import Timelite.Appending
import Timelite.Checkpointing
import Timelite.Relocation
import Timelite.Retaining
import Timelite.Cursor
import Timelite.Expiring
import Timelite.Opening
import Timelite.Creating
import Timelite.Atomicity
import Timelite.Seeking
import Timelite.Ranging
import Timelite.Aggregating
import Timelite.System
import Timelite.Refinement
import Timelite.Answering
import Timelite.Soundness
import Timelite.Observing
import Timelite.Interrupting
import Timelite.Visibility
import Timelite.Delivering
import Timelite.Abstract
import Timelite.Decoding
import Timelite.Undisturbed
import Timelite.Grammar
import Timelite.Poisoning
import Timelite.Opaque
import Timelite.Refusing
import Timelite.Walking
import Timelite.Asserting
import Timelite.Establishing
import Timelite.Discipline
import Timelite.Requesting
import Timelite.Owning
import Timelite.Settling
import Timelite.Transfers
import Timelite.Inspector
import Timelite.Foreseeing
import Timelite.Predicting
import Timelite.Judging
import Timelite.Forecasting
import Timelite.Trials
import Timelite.Certifying
import Timelite.Attesting
import Timelite.Simulation
import Timelite.Refining
import Timelite.Lowering
import Timelite.Policies
import Timelite.Syscalls
import Timelite.Native
import Timelite.Grounding
import Timelite.Hosting
import Timelite.Sharing
import Timelite.Lifecycle
import Timelite.Coexisting
import Timelite.Lifting
import Timelite.Touring
import Timelite.Admitting
import Timelite.Reaching
import Timelite.Querying
import Timelite.Reopening
import Timelite.Summing
import Timelite.Searching
import Timelite.Coherence
import Timelite.Locating
import Timelite.Enumerating
import Timelite.Encodings
import Timelite.Bursts
import Timelite.Detecting
import Timelite.Reader
import Timelite.Retention
import Timelite.BatchApi
import Timelite.Dumping
import Timelite.Moving
import Timelite.Win32
import Timelite.Objects
import Timelite.Porting
import Timelite.Declining
import Timelite.Salvaging
import Timelite.Damaging
import Timelite.Fitting
