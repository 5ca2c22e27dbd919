import HeapWatch.Arena
import HeapWatch.Main
import HeapWatch.Specimen
import HeapWatch.Proofs.Recorded
import HeapWatch.Proofs.Canonical
import HeapWatch.Proofs.Alarms
import HeapWatch.Proofs.Commits
import HeapWatch.Proofs.Campaigns
import HeapWatch.Proofs.Json.Accepts
import HeapWatch.Proofs.Codecs
import HeapWatch.Proofs.Files
import HeapWatch.Proofs.SavedProfiles
import HeapWatch.Proofs.Json.Torn
import HeapWatch.Proofs.TornProfiles
import HeapWatch.Proofs.Histories
import HeapWatch.Proofs.MadeProfiles
import HeapWatch.Proofs.SplitRuns
import HeapWatch.Proofs.Judges
import HeapWatch.Proofs.Verdicts
import HeapWatch.Proofs.Counts
import HeapWatch.Proofs.Comparisons
import HeapWatch.Proofs.ZeroedBlocks
import HeapWatch.Proofs.RecordForms
import HeapWatch.Proofs.Json.Gaps
import HeapWatch.Proofs.Collisions
import HeapWatch.Proofs.Largest
import HeapWatch.Proofs.Verbosities
import HeapWatch.Proofs.ExactSizes
import HeapWatch.Proofs.Reports
import HeapWatch.Proofs.Heaps
import HeapWatch.Proofs.Reentry
