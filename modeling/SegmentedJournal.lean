import SegmentedJournal.Bytes
import SegmentedJournal.Checksum
import SegmentedJournal.Hex
import SegmentedJournal.Path
import SegmentedJournal.Entry
import SegmentedJournal.Entry.Frame
import SegmentedJournal.Entry.Document
import SegmentedJournal.Segment
import SegmentedJournal.Segment.Name
import SegmentedJournal.Segment.Reader
import SegmentedJournal.Json.Reader
import SegmentedJournal.Json.Text
import SegmentedJournal.Json.Number
import SegmentedJournal.Json.Value
import SegmentedJournal.Json.Ignored
import SegmentedJournal.Json.Record
import SegmentedJournal.Text.Printable
import SegmentedJournal.Text.Quoted
import SegmentedJournal.Error
import SegmentedJournal.Config
import SegmentedJournal.Config.Document
import SegmentedJournal.Action
import SegmentedJournal.Medium.Error
import SegmentedJournal.Medium.PathMap
import SegmentedJournal.Medium.Storage
import SegmentedJournal.Medium.Memory
import SegmentedJournal.Medium.Directory.Error
import SegmentedJournal.Medium.Directory.Pathname
import SegmentedJournal.Medium.Directory.Tree
import SegmentedJournal.Medium.Directory.Stream
import SegmentedJournal.Medium.Directory
import SegmentedJournal.Medium.Instrumented
import SegmentedJournal.Journal
import SegmentedJournal.Journal.Snapshot
import SegmentedJournal.Journal.Format
import SegmentedJournal.Journal.Frontier
import SegmentedJournal.Journal.Collection
import SegmentedJournal.Journal.Replay
import SegmentedJournal.OpenLog
import SegmentedJournal.Writer
import SegmentedJournal.Proofs.Outcome
import SegmentedJournal.Proofs.Names
import SegmentedJournal.Proofs.Frames
import SegmentedJournal.Proofs.Codec
import SegmentedJournal.Proofs.Bursts
import SegmentedJournal.Proofs.Ledger
import SegmentedJournal.Proofs.Listing
import SegmentedJournal.Proofs.Chain
import SegmentedJournal.Proofs.Archive
import SegmentedJournal.Proofs.Calls
import SegmentedJournal.Proofs.Observing
import SegmentedJournal.Proofs.Streams
import SegmentedJournal.Proofs.Recovery
import SegmentedJournal.Proofs.Logs
import SegmentedJournal.Proofs.Phases
import SegmentedJournal.Proofs.Reset
import SegmentedJournal.Proofs.Operations
import SegmentedJournal.Proofs.Storages
import SegmentedJournal.Proofs.Rebuilding
import SegmentedJournal.Proofs.Reached
import SegmentedJournal.Proofs.Gaps
import SegmentedJournal.Proofs.Refusal
import SegmentedJournal.Proofs.Standing
import SegmentedJournal.Proofs.Courses
import SegmentedJournal.Proofs.Reading
import SegmentedJournal.Proofs.Covering
import SegmentedJournal.Proofs.Intact
import SegmentedJournal.Proofs.Survival
import SegmentedJournal.Proofs.Reconciliation
import SegmentedJournal.Proofs.Collecting
import SegmentedJournal.Proofs.Scenes
import SegmentedJournal.Proofs.Loss
import SegmentedJournal.Proofs.Session
import SegmentedJournal.Proofs.Exhaustion
import SegmentedJournal.Proofs.Moving
import SegmentedJournal.Proofs.Retrying
import SegmentedJournal.Proofs.Handing
import SegmentedJournal.Proofs.Growing
import SegmentedJournal.Proofs.Adopting
import SegmentedJournal.Proofs.Storing
import SegmentedJournal.Proofs.Unhindered
import SegmentedJournal.Proofs.Segmentation
import SegmentedJournal.Proofs.Boundary
import SegmentedJournal.Proofs.Oversize
import SegmentedJournal.Proofs.Straddling
import SegmentedJournal.Proofs.Provenance
import SegmentedJournal.Proofs.Sealing
import SegmentedJournal.Proofs.Resuming
import SegmentedJournal.Proofs.Spelling
import SegmentedJournal.Proofs.Calm
import SegmentedJournal.Proofs.Surveys
import SegmentedJournal.Proofs.Striking
import SegmentedJournal.Proofs.Sweeping
import SegmentedJournal.Proofs.Agreeing
import SegmentedJournal.Proofs.Sparing
import SegmentedJournal.Proofs.Parsing
import SegmentedJournal.Proofs.Wrapping
import SegmentedJournal.Proofs.Closing
import SegmentedJournal.Proofs.Publication
import SegmentedJournal.Proofs.Replacing
