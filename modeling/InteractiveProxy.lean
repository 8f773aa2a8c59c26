import InteractiveProxy.AllocationLineage
import InteractiveProxy.CallIdentity
import InteractiveProxy.ContainmentCharges
import InteractiveProxy.GenerationPins
import InteractiveProxy.IngressQuarantine
import InteractiveProxy.JsonScannerLanguage
import InteractiveProxy.LeaseDurableStore
import InteractiveProxy.LeaseMemoryCapacity
import InteractiveProxy.LegCancellation
import InteractiveProxy.MaxActiveLimiter
import InteractiveProxy.PartitionBilling
import InteractiveProxy.QuantitySweepBound
import InteractiveProxy.RetailSelection
import InteractiveProxy.RouteCandidates
import InteractiveProxy.SnapshotPublisher
import InteractiveProxy.SpliceReader
import InteractiveProxy.StageAdmission
import InteractiveProxy.ToolCallRepair
import InteractiveProxy.UsageAuthorityQuota
import InteractiveProxy.WorkStoreIntegrity
import InteractiveProxy.WorkspaceTags
