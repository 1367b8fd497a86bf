import BatchRun.Json.Reader
import BatchRun.Json.Writer
import BatchRun.Rehearsal.Bench
import BatchRun.Rehearsal.Report
import BatchRun.Rehearsal.Script
import BatchRun.Settings.Load
import BatchRun.Proofs.Calculation.CleanUp
import BatchRun.Proofs.Monitor.Families
import BatchRun.Proofs.Partition.BlockCount
import BatchRun.Proofs.Partition.LookAhead
import BatchRun.Proofs.Partition.Optimal
import BatchRun.Proofs.Progress
import BatchRun.Proofs.Run.Aftermath
import BatchRun.Proofs.Run.Ceiling
import BatchRun.Proofs.Run.Delivery
import BatchRun.Proofs.Run.Refinement
import BatchRun.Proofs.Run.Rounds
import BatchRun.Proofs.Run.Agreement
import BatchRun.Proofs.Run.Counting
import BatchRun.Proofs.Settings.Codec
import BatchRun.Proofs.Settings.Wording
import BatchRun.Proofs.Signal.Codec
import BatchRun.Proofs.Signal.Deduplication
import BatchRun.Proofs.Signal.History
import BatchRun.Proofs.Signal.Isolation
import BatchRun.Proofs.Tally.AnyOrder
import BatchRun.Proofs.Tally.ByKey
