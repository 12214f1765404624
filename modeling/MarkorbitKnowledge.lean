import MarkorbitKnowledge.Adk.JobRuns
import MarkorbitKnowledge.Cadence.Damping
import MarkorbitKnowledge.Campaign.Tolerance
import MarkorbitKnowledge.ChangeFeed.Recording
import MarkorbitKnowledge.Conversion.Claimable
import MarkorbitKnowledge.Conversion.Fencing
import MarkorbitKnowledge.Conversion.Reconciliation
import MarkorbitKnowledge.Conversion.RequestDigest
import MarkorbitKnowledge.Delivery.Finality
import MarkorbitKnowledge.Dispatch.Replay
import MarkorbitKnowledge.Enrichment.LaneGovernance
import MarkorbitKnowledge.Enrichment.QueueRefinement
import MarkorbitKnowledge.Execution.Cancellation
import MarkorbitKnowledge.Execution.Governance
import MarkorbitKnowledge.Execution.LeaseLimits
import MarkorbitKnowledge.Execution.Machine
import MarkorbitKnowledge.Execution.Replay
import MarkorbitKnowledge.Execution.RetryDelay
import MarkorbitKnowledge.Execution.WorkConservation
import MarkorbitKnowledge.Gazette.Lossless
import MarkorbitKnowledge.Handoff.CoreIntake
import MarkorbitKnowledge.Ingestion.Content
import MarkorbitKnowledge.Ingestion.Versions
import MarkorbitKnowledge.Lib.Fallible
import MarkorbitKnowledge.Lib.Interleaving
import MarkorbitKnowledge.Lib.Placeholders
import MarkorbitKnowledge.Lib.Tables
import MarkorbitKnowledge.Normalization.PdfExtraction
import MarkorbitKnowledge.Orchestration.Batches
import MarkorbitKnowledge.Recovery.Safety
import MarkorbitKnowledge.Retention.Progress
import MarkorbitKnowledge.Retrieval.Body
import MarkorbitKnowledge.Scheduler.CronSyntax
import MarkorbitKnowledge.Scheduler.Fairness
import MarkorbitKnowledge.Scheduler.Slots
import MarkorbitKnowledge.Staging.Converter
import MarkorbitKnowledge.Strategy.Accumulation
