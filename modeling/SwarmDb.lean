import SwarmDb.Lib.Program
import SwarmDb.Lib.Bytes
import SwarmDb.Lib.Format
import SwarmDb.Lib.Map
import SwarmDb.Lib.Quorum
import SwarmDb.Lib.Words
import SwarmDb.Lib.History
import SwarmDb.Proto.Messages
import SwarmDb.Proto.Plain
import SwarmDb.Pbft.Process
import SwarmDb.Pbft.Crypto
import SwarmDb.Pbft.Quorum
import SwarmDb.Pbft.Node
import SwarmDb.Pbft.Operation
import SwarmDb.Pbft.PersistentText
import SwarmDb.Pbft.Persistent
import SwarmDb.Pbft.CheckpointManager
import SwarmDb.Pbft.Sample
import SwarmDb.Pbft.CheckpointStorage
import SwarmDb.Pbft.CheckpointEvidence
import SwarmDb.Pbft.CheckpointMonotone
import SwarmDb.Pbft.CheckpointRestart
import SwarmDb.Storage.MemStorage
import SwarmDb.Pbft.Replica
import SwarmDb.Pbft.Viewchange
import SwarmDb.Pbft.Handlers
import SwarmDb.Pbft.Events
import SwarmDb.Pbft.Steps
import SwarmDb.Pbft.ReplicaStorage
import SwarmDb.Pbft.Actions
import SwarmDb.Pbft.Validity
import SwarmDb.Pbft.NewviewContent
import SwarmDb.Pbft.Handling
import SwarmDb.Pbft.EventSteps
import SwarmDb.Pbft.ReplicaRuns
import SwarmDb.Pbft.SentMessages
import SwarmDb.Pbft.PrimaryOrders
import SwarmDb.Pbft.RequestBinding
import SwarmDb.Service.DatabaseService
import SwarmDb.Service.ServiceSteps
import SwarmDb.Service.ServiceRuns
import SwarmDb.Service.InOrder
import SwarmDb.Service.Snapshots
import SwarmDb.Service.StateTransfer
import SwarmDb.Lib.Json
import SwarmDb.Crud.Messages
import SwarmDb.Crud.Subscriptions
import SwarmDb.Crud.Policy
import SwarmDb.Crud.Crud
import SwarmDb.Crud.Changes
import SwarmDb.Crud.FailedRequests
import SwarmDb.Crud.Isolation
import SwarmDb.Pbft.Construction
import SwarmDb.Service.FailedAdoption
import SwarmDb.Crud.Overwrites
import SwarmDb.Crud.Outcomes
import SwarmDb.Crud.TtlTable
import SwarmDb.Lib.Scan
import SwarmDb.Storage.RocksdbStorage
import SwarmDb.Storage.Namespaces
import SwarmDb.Storage.Backends
import SwarmDb.Crud.Delivery
import SwarmDb.Pbft.PeersBeacon
import SwarmDb.Pbft.Certificates
import SwarmDb.Pbft.NewviewSelection
import SwarmDb.Crud.SwarmStorage
import SwarmDb.Lib.TwoRuns
import SwarmDb.Crud.Replicas
import SwarmDb.Pbft.Numbers
import SwarmDb.Pbft.Assignment
import SwarmDb.Pbft.Requests
import SwarmDb.Pbft.Admission
import SwarmDb.Pbft.NewviewRange
import SwarmDb.Crud.Expiry
import SwarmDb.Crud.Quota
import SwarmDb.Crud.DeleteDb
import SwarmDb.Crud.Writers
import SwarmDb.Pbft.OperationRefinement
import SwarmDb.Pbft.DeletedOperations
import SwarmDb.Pbft.PreparedOperations
import SwarmDb.Pbft.Deliveries
import SwarmDb.Pbft.CheckpointRequests
import SwarmDb.Esr.EsrResults
import SwarmDb.Esr.EsrRequests
import SwarmDb.Storage.SizeRuns
import SwarmDb.Audit.Audit
import SwarmDb.Crud.EvictionNeeds
import SwarmDb.Pbft.PersistentRuns
import SwarmDb.Service.NextSequence
import SwarmDb.Pbft.Views
import SwarmDb.Pbft.VotePromise
import SwarmDb.Lib.Base64
import SwarmDb.Utils.Crypto
import SwarmDb.Monitor.Monitor
import SwarmDb.Pbft.HoleFilling
import SwarmDb.Node.Session
import SwarmDb.Node.Connections
import SwarmDb.Pbft.Restart
import SwarmDb.Pbft.CheckpointAuthenticity
import SwarmDb.Pbft.NewviewAcceptance
import SwarmDb.Lib.Components
import SwarmDb.Pbft.Swarm
