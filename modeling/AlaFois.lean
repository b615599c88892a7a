import AlaFois.Lib.JsMap
import AlaFois.Lib.Stepper
import AlaFois.Lib.DeltaSync
import AlaFois.Lib.Async
import AlaFois.Lib.Requests
import AlaFois.Lib.Reactive
import AlaFois.Lib.TypedArray
import AlaFois.Model.Types
import AlaFois.Model.DocService
import AlaFois.Model.Proxy
import AlaFois.Model.Node
import AlaFois.Model.Api
import AlaFois.Model.Cluster
import AlaFois.Model.DocHandler
import AlaFois.Model.DocContainer
import AlaFois.Model.Network
import AlaFois.Model.Gateway
import AlaFois.Model.ActorCalls
import AlaFois.Model.TokenSwitch
import AlaFois.Model.Fabric
import AlaFois.Model.Platform
import AlaFois.Model.Exchange
import AlaFois.Model.DocClient
import AlaFois.Model.WsConnection
import AlaFois.Model.Session
import AlaFois.Model.Handshake
import AlaFois.Model.History
import AlaFois.Model.ClientLife
import AlaFois.Model.UpdateToken
import AlaFois.Model.Listeners
import AlaFois.Model.ClientDocs
import AlaFois.Model.Throttle
import AlaFois.Model.SyncRounds
import AlaFois.Model.PingLoop
import AlaFois.Model.ConnectionEvents
import AlaFois.Model.CleanPackage
import AlaFois.Model.StorageMemoize
import AlaFois.Model.BinaryFraming
import AlaFois.Model.DocRegistry
import AlaFois.Model.TokenLists
import AlaFois.Model.ApiServer
import AlaFois.Model.Deployment
import AlaFois.Proofs.DocServiceSpec
import AlaFois.Proofs.Membership
import AlaFois.Proofs.ProxySpec
import AlaFois.Proofs.ProxyInvariants
import AlaFois.Proofs.ReadAccess
import AlaFois.Proofs.Expiration
import AlaFois.Proofs.TokenIndex
import AlaFois.Proofs.Disconnection
import AlaFois.Proofs.Revocation
import AlaFois.Proofs.ApiSpec
import AlaFois.Proofs.Permanence
import AlaFois.Proofs.TokenRecords
import AlaFois.Proofs.Tenancy
import AlaFois.Proofs.Durability
import AlaFois.Proofs.Attendance
import AlaFois.Proofs.SyncSpec
import AlaFois.Proofs.NetworkWiring
import AlaFois.Proofs.NetworkDocuments
import AlaFois.Proofs.Convergence
import AlaFois.Proofs.AccessControl
import AlaFois.Proofs.Verdicts
import AlaFois.Proofs.Echo
import AlaFois.Proofs.SingleWriter
import AlaFois.Proofs.SyncRound
import AlaFois.Proofs.GetDoc
import AlaFois.Proofs.Reconnection
import AlaFois.Proofs.Agreement
import AlaFois.Proofs.Handshake
import AlaFois.Proofs.ConnectLoop
import AlaFois.Proofs.HistoryAccess
import AlaFois.Proofs.SoundConnection
import AlaFois.Proofs.ClientLifeSpec
import AlaFois.Proofs.Disposal
import AlaFois.Proofs.DisposalExact
import AlaFois.Proofs.AllOrNothing
import AlaFois.Proofs.RightsDiff
import AlaFois.Proofs.UpdateHistory
import AlaFois.Proofs.Opening
import AlaFois.Proofs.Silence
import AlaFois.Proofs.OneContainer
import AlaFois.Proofs.Ownership
import AlaFois.Proofs.RepeatedJoin
import AlaFois.Proofs.OneSocket
import AlaFois.Proofs.Throttle
import AlaFois.Proofs.SyncFlight
import AlaFois.Proofs.SharedRounds
import AlaFois.Proofs.Resync
import AlaFois.Proofs.ActorFailures
import AlaFois.Proofs.TokenOrder
import AlaFois.Proofs.PingLoop
import AlaFois.Proofs.ConnectionEvents
import AlaFois.Proofs.CleanPackage
import AlaFois.Proofs.StorageMemoize
import AlaFois.Proofs.RequestIsolation
import AlaFois.Proofs.BinaryFraming
import AlaFois.Proofs.DocRegistry
import AlaFois.Proofs.TokenLists
import AlaFois.Proofs.TokenListValues
import AlaFois.Proofs.ApiAuthority
import AlaFois.Proofs.ApiRuns
import AlaFois.Proofs.ApiTenants
import AlaFois.Proofs.ApiHistory
import AlaFois.Proofs.Deployment
import AlaFois.Lib.Bus
import AlaFois.Model.Pubsub
import AlaFois.Proofs.Pubsub
import AlaFois.Lib.Base64
import AlaFois.Proofs.Jwt
