import SchedulerPolicy.Main
import SchedulerPolicy.Proofs.Merge.AppendNew
import SchedulerPolicy.Proofs.Merge.Onto
import SchedulerPolicy.Proofs.Merge.Pool
import SchedulerPolicy.Proofs.Merge.Laws
import SchedulerPolicy.Proofs.Merge.Chain
import SchedulerPolicy.Proofs.Merge.Meaning
import SchedulerPolicy.Proofs.Merge.Recurrence
import SchedulerPolicy.Proofs.Merge.Ambiguity
import SchedulerPolicy.Proofs.Agreement
import SchedulerPolicy.Proofs.Resolution.Peers
import SchedulerPolicy.Proofs.Resolution.PeerOrder
import SchedulerPolicy.Proofs.Resolution.Chain
import SchedulerPolicy.Proofs.Resolution.Generate
import SchedulerPolicy.Proofs.Resolution.Injection
import SchedulerPolicy.Proofs.Resolution.InjectedLeaf
import SchedulerPolicy.Proofs.Text.Trimming
import SchedulerPolicy.Proofs.Resolution.Readings
import SchedulerPolicy.Proofs.Resolution.Spellings
import SchedulerPolicy.Proofs.Documents.Grouping
import SchedulerPolicy.Proofs.Documents.Sections
import SchedulerPolicy.Proofs.Documents.Apart
import SchedulerPolicy.Proofs.Documents.Names
import SchedulerPolicy.Proofs.Documents.Recovery
import SchedulerPolicy.Proofs.Documents.Mentions
import SchedulerPolicy.Proofs.Documents.Enumerated
import SchedulerPolicy.Proofs.Documents.Accepted
import SchedulerPolicy.Proofs.Documents.Validity
import SchedulerPolicy.Proofs.Documents.Allocation
import SchedulerPolicy.Proofs.Documents.Neighbours
import SchedulerPolicy.Proofs.Documents.Returned
import SchedulerPolicy.Proofs.Documents.MergeQueue
import SchedulerPolicy.Proofs.Documents.Protection
import SchedulerPolicy.Proofs.Documents.Shared
import SchedulerPolicy.Proofs.Documents.Mirrored
import SchedulerPolicy.Proofs.Documents.RoundTrip
import SchedulerPolicy.Proofs.Documents.Regenerated
import SchedulerPolicy.Proofs.Documents.SharedEntries
import SchedulerPolicy.Proofs.Documents.Additive
import SchedulerPolicy.Proofs.Resolution.Order
import SchedulerPolicy.Proofs.Resolution.Announcements
import SchedulerPolicy.Proofs.Documents.Influence
import SchedulerPolicy.Proofs.Schema.Slots
import SchedulerPolicy.Proofs.Schema.Shape
import SchedulerPolicy.Proofs.Schema.Resources
import SchedulerPolicy.Proofs.Schema.Protection
import SchedulerPolicy.Proofs.Schema.Documents
import SchedulerPolicy.Proofs.Schema.Recovered
import SchedulerPolicy.Proofs.Schema.Nodes
import SchedulerPolicy.Proofs.Schema.Environments
import SchedulerPolicy.Proofs.Files.Paths
import SchedulerPolicy.Proofs.Files.Writes
import SchedulerPolicy.Proofs.Files.Runs
import SchedulerPolicy.Proofs.Files.Folders
import SchedulerPolicy.Proofs.Files.Loading
import SchedulerPolicy.Proofs.Files.Failures
import SchedulerPolicy.Proofs.Yaml.Words
import SchedulerPolicy.Proofs.Files.Annotated
import SchedulerPolicy.Proofs.Documents.Imported
import SchedulerPolicy.Proofs.Documents.Refused
import SchedulerPolicy.Proofs.Documents.WireForm
import SchedulerPolicy.Proofs.Files.Accounted
import SchedulerPolicy.Proofs.Files.Layout
import SchedulerPolicy.Proofs.Settings.Layers
import SchedulerPolicy.Proofs.Resolution.Calls
import SchedulerPolicy.Proofs.Files.Explained
