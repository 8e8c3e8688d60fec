import DsaBroker.ScanMap
import DsaBroker.Runs
import DsaBroker.Grouping
import DsaBroker.Histories
import DsaBroker.DSAValue
import DsaBroker.Messages
import DsaBroker.Paths
import DsaBroker.Registries
import DsaBroker.TargetIds
import DsaBroker.DSLinkStateSnapshotter
import DsaBroker.InMemoryDSANode
import DsaBroker.NodeIsolation
import DsaBroker.GroupCallRegistry
import DsaBroker.ResponderBehavior
import DsaBroker.DeferredEffects
import DsaBroker.ResponderActions
import DsaBroker.BatchDelivery
import DsaBroker.ResponderResponses
import DsaBroker.LinkRouting
import DsaBroker.ResponderRuns
import DsaBroker.RequesterBehavior
import DsaBroker.SubscriptionFanOut
import DsaBroker.ResponseDelivery
import DsaBroker.SidJournal
import DsaBroker.CallRecords
import DsaBroker.CrossRegistry
import DsaBroker.ForwardedCalls
import DsaBroker.Answerability
import DsaBroker.Relays
import DsaBroker.Misdelivery
import DsaBroker.RidIndexes
import DsaBroker.EventStore
import DsaBroker.ResponderRecovery
import DsaBroker.ResponderWorkers
import DsaBroker.ResponderEngines
import DsaBroker.RequesterBatches
import DsaBroker.RequesterLink
import DsaBroker.RequesterDelivery
import DsaBroker.HashTable
import DsaBroker.SubscriptionChannel
import DsaBroker.AbstractDSLinkActor
import DsaBroker.LocalDSLinkFolderActor
import DsaBroker.DsaToAkkaCoder
import DsaBroker.ActorSelection
import DsaBroker.DSLinkManager
import DsaBroker.SegmentRouting
import DsaBroker.SelectionSafety
import DsaBroker.OriginUpdater
import DsaBroker.Base64
import DsaBroker.JsonFormats
import DsaBroker.JsonReads
import DsaBroker.WireFormat
import DsaBroker.WireRoundTrip
import DsaBroker.RemoteKeys
import DsaBroker.Handshake
import DsaBroker.DSLinkFolderActor
import DsaBroker.FolderListing
import DsaBroker.SnapshotFeed
import DsaBroker.FolderView
import DsaBroker.Patches
import DsaBroker.DistributedDSANode
import DsaBroker.ReplicaView
import DsaBroker.TreeIndex
import DsaBroker.DistributedNodesRegistry
import DsaBroker.NodeTree
import DsaBroker.NodeCreation
import DsaBroker.TreeAgreement
import DsaBroker.ReplicaOverlay
import DsaBroker.UpdatesReport
import DsaBroker.NodeRemoval
import DsaBroker.QueueBound
import DsaBroker.TokenNodes
import DsaBroker.TokenChecks
import DsaBroker.LinkChildren
import DsaBroker.MalformedResponses
import DsaBroker.DecodingTotality
import DsaBroker.CounterBatches
import DsaBroker.SharedSecrets
import DsaBroker.KeyFiles
import DsaBroker.PathSplitting
import DsaBroker.FailingRequests
import DsaBroker.UrlDecoding
import DsaBroker.SnapshotIntervals
import DsaBroker.ListedAttributes
import DsaBroker.StreamReaders
import DsaBroker.MsgpackFormat
import DsaBroker.MsgpackFraming
import DsaBroker.MsgpackForms
import DsaBroker.MsgpackRoundTrip
import DsaBroker.MsgpackLanguage
import DsaBroker.SourceQueue
import DsaBroker.Callbacks
import DsaBroker.WebSocketActor
import DsaBroker.SocketStream
import DsaBroker.PeerChannels
import DsaBroker.ClusteredDSLinkFolderActor
import DsaBroker.ClusterAgreement
import DsaBroker.RejectionSampling
import DsaBroker.Tokens
import DsaBroker.WebSocketController
import DsaBroker.LinkSessions
import DsaBroker.MsgpackMessages
import DsaBroker.NodeViews
