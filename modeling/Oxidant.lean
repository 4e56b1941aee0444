import Oxidant.AutoCdc.Microbatches
import Oxidant.Cdc.Frames
import Oxidant.Cdc.MovedKeys
import Oxidant.Cdc.Sequence
import Oxidant.Cdc.SnapshotPasses
import Oxidant.DedupKeys
import Oxidant.Delta.CheckpointRead
import Oxidant.Delta.Idempotence
import Oxidant.Delta.PartitionKeys
import Oxidant.ExactlyOnce
import Oxidant.History.LockExclusion
import Oxidant.History.ResultBytes
import Oxidant.History.Survival
import Oxidant.Kafka.Contiguity
import Oxidant.Kafka.Fetching
import Oxidant.Kafka.Progress
import Oxidant.LakeFormation.Revocation
import Oxidant.LakeFormation.HiddenData
import Oxidant.OperatorResume
import Oxidant.Planner.Aggregations
import Oxidant.Planner.Recombination
import Oxidant.Reconcile
import Oxidant.ResumeRecord
import Oxidant.RetriedBatch
import Oxidant.Shuffle.CoalescedReads
import Oxidant.Shuffle.Coalescing
import Oxidant.Shuffle.FailedSpill
import Oxidant.Shuffle.Recompute
import Oxidant.Shuffle.SilentLoss
import Oxidant.Shuffle.Transparency
import Oxidant.SqlGraph
import Oxidant.Streaming.Drain
import Oxidant.Streaming.FileSink
