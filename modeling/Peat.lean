import Peat.Lib.Run
import Peat.Lib.JoinOn
import Peat.Lib.Newest
import Peat.Lib.UnionBy
import Peat.Lib.HashMap
import Peat.Lib.Replicas
import Peat.Hierarchy.RoutingTable
import Peat.Hierarchy.RoutingTableMerge
import Peat.Hierarchy.RoutingTableRemoval
import Peat.Schema
import Peat.Models.Cell
import Peat.Models.CellMerge
import Peat.Models.CellRuns
import Peat.Models.Zone
import Peat.Models.Capacity
import Peat.Models.ZoneCoordinator
import Peat.Models.ZoneMerge
import Peat.Lib.Saturating
import Peat.Models.Node
import Peat.Cell.Messaging
import Peat.Cell.MessagingSender
import Peat.Cell.MessagingReceiver
import Peat.Cell.LeaderElection
import Peat.Cell.ElectionCluster
import Peat.Hierarchy.RoutingTableCells
import Peat.Hierarchy.Maintenance
import Peat.Hierarchy.Rebalancing
import Peat.Hierarchy.RebalancingPass
import Peat.Lib.MapTotal
import Peat.Hierarchy.FlowControl
import Peat.Hierarchy.FlowConservation
import Peat.Lib.LastWriter
import Peat.Hierarchy.Summary
import Peat.Hierarchy.Deltas
import Peat.Storage.SummaryStorage
import Peat.Lib.Grouping
import Peat.Models.Operator
import Peat.Cell.CapabilityAggregation
import Peat.Hierarchy.StateAggregation
import Peat.Hierarchy.AggregationTiers
import Peat.Lib.Lanes
import Peat.Qos.Classification
import Peat.Qos.SyncQueue
import Peat.Qos.Recovery
import Peat.Event.Event
import Peat.Event.Transmitter
import Peat.Event.TransmitterLedger
import Peat.Event.PriorityQueue
import Peat.Event.Aggregator
import Peat.Event.AggregatorLedger
import Peat.Lib.TopK
import Peat.Event.Query
import Peat.Command.Command
import Peat.Command.Routing
import Peat.Command.ConflictResolver
import Peat.Command.TimeoutManager
import Peat.Command.Coordinator
import Peat.Command.Interleaving
import Peat.Command.Acknowledgments
import Peat.Security.Common
import Peat.Security.Membership
import Peat.Security.Authenticator
import Peat.Security.UserAuth
import Peat.Security.Lockout
import Peat.Security.UserAuthInterleaving
import Peat.Lib.Separated
import Peat.Sync.Document
import Peat.Sync.AutomergeBackend
import Peat.Sync.DocumentLaw
import Peat.Sync.Deletion
import Peat.Sync.PendingOrigins
import Peat.Sync.IrohDocumentStore
import Peat.Sync.IrohDeletion
import Peat.Lib.Leading
import Peat.Sync.Tombstones
import Peat.Sync.Observers
import Peat.Sync.Origins
import Peat.Discovery.Coordinator
import Peat.Storage.ThrottledNodeStore
import Peat.Storage.CommandStorage
import Peat.Cell.Coordinator
import Peat.Sync.OriginPairing
import Peat.Discovery.Geographic
import Peat.Discovery.Geohash
import Peat.Discovery.GeographicCounts
import Peat.Discovery.GeographicAgreement
import Peat.Storage.CellStore
import Peat.Storage.CellStoreInterleaving
import Peat.Discovery.Directed
import Peat.Lib.SortedMap
import Peat.Storage.AutomergeConversion
import Peat.Storage.AutomergeUpsert
import Peat.Hierarchy.RoutingTableMoves
import Peat.Ffi.Reconnect
import Peat.Ffi.Relay
import Peat.Ffi.Roster
import Peat.Hierarchy.ZoneFormation
import Peat.Qos.ContextManager
import Peat.Ffi.CrdtKv
import Peat.Hierarchy.MergeCandidates
import Peat.Hierarchy.AverageFuel
import Peat.Qos.SyncQueueAging
import Peat.Qos.SyncQueueBatches
import Peat.Qos.SyncQueueAges
import Peat.Event.Bandwidth
import Peat.Event.Transmission
import Peat.Hierarchy.Router
import Peat.Lib.KeyedFold
import Peat.Event.Summary
import Peat.Event.Ttl
import Peat.Security.AuthState
import Peat.Lib.Decoder
import Peat.Security.CertificateFormat
import Peat.Command.Expiration
import Peat.Command.PolicyImpl
import Peat.Policy.Resolver
import Peat.Ffi.ApplicationDocuments
import Peat.Ffi.Backoff
import Peat.Schema.Ontology
import Peat.Schema.TypeRegistry
import Peat.Security.VersionBinding
import Peat.Sync.DocumentFields
import Peat.Sync.QueryAgreement
import Peat.Lib.Digits
import Peat.Security.Base32
