import GlobalMailSystem.AdminClaims
import GlobalMailSystem.AdminServer
import GlobalMailSystem.ClaimedDelivered
import GlobalMailSystem.ClaimsCommute
import GlobalMailSystem.CommandMessages
import GlobalMailSystem.CommutingFold
import GlobalMailSystem.ConditionMeaning
import GlobalMailSystem.Conditions
import GlobalMailSystem.ConnectionMachine
import GlobalMailSystem.ConnectionManager
import GlobalMailSystem.ConnectionPool
import GlobalMailSystem.ConsistentHashRouter
import GlobalMailSystem.Creations
import GlobalMailSystem.DeadServer
import GlobalMailSystem.DecimalKey
import GlobalMailSystem.DeletedFinal
import GlobalMailSystem.DeliveredOnce
import GlobalMailSystem.DueServed
import GlobalMailSystem.ExecutedOnce
import GlobalMailSystem.FrozenSnapshot
import GlobalMailSystem.GateConnOwner
import GlobalMailSystem.GatewayDiscovery
import GlobalMailSystem.HashRing
import GlobalMailSystem.HeartbeatPutBack
import GlobalMailSystem.IdempotentDispatch
import GlobalMailSystem.InvalidClaim
import GlobalMailSystem.LeaseExclusive
import GlobalMailSystem.LedgerAgreement
import GlobalMailSystem.ListAvailability
import GlobalMailSystem.LiveDetails
import GlobalMailSystem.LocalCache
import GlobalMailSystem.LoginTokens
import GlobalMailSystem.LootIndexSets
import GlobalMailSystem.MailCommands
import GlobalMailSystem.MailListOrder
import GlobalMailSystem.MemoryTransparency
import GlobalMailSystem.NeverStranded
import GlobalMailSystem.Outbox
import GlobalMailSystem.PlayerMachine
import GlobalMailSystem.PlayerService
import GlobalMailSystem.PlayerSteps
import GlobalMailSystem.PoolFrame
import GlobalMailSystem.PoolInvariant
import GlobalMailSystem.ProfileInfluence
import GlobalMailSystem.ProjectionOrder
import GlobalMailSystem.PublishOnce
import GlobalMailSystem.PublishedAbsorbing
import GlobalMailSystem.PublishedDelivered
import GlobalMailSystem.Publisher
import GlobalMailSystem.PublisherSteps
import GlobalMailSystem.QueueAnswers
import GlobalMailSystem.QueueCalls
import GlobalMailSystem.QueueClose
import GlobalMailSystem.QueueDrain
import GlobalMailSystem.QueueInvariants
import GlobalMailSystem.QueueOrder
import GlobalMailSystem.QueueResources
import GlobalMailSystem.QueueSerial
import GlobalMailSystem.QueueSteps
import GlobalMailSystem.RebuildLockSafe
import GlobalMailSystem.RedisKeys
import GlobalMailSystem.RefreshCalls
import GlobalMailSystem.RefreshMachine
import GlobalMailSystem.RefreshSteps
import GlobalMailSystem.RefreshedSnapshot
import GlobalMailSystem.RegistryLeases
import GlobalMailSystem.RelayInvariants
import GlobalMailSystem.RelayMachine
import GlobalMailSystem.RelaySteps
import GlobalMailSystem.RelayedVisible
import GlobalMailSystem.ReplayIdentity
import GlobalMailSystem.RequestQueue
import GlobalMailSystem.RestartedServer
import GlobalMailSystem.Rewards
import GlobalMailSystem.RoleIsolation
import GlobalMailSystem.RouteService
import GlobalMailSystem.RoutingStore
import GlobalMailSystem.SavedState
import GlobalMailSystem.SequentialDispatch
import GlobalMailSystem.ServerIndex
import GlobalMailSystem.ServiceRegistry
import GlobalMailSystem.SessionFindable
import GlobalMailSystem.SharedCache
import GlobalMailSystem.SharedHit
import GlobalMailSystem.SharedPathRefines
import GlobalMailSystem.Singleflight
import GlobalMailSystem.SlashPath
import GlobalMailSystem.Snapshot
import GlobalMailSystem.SnapshotLifetime
import GlobalMailSystem.SnapshotSound
import GlobalMailSystem.SnapshotVersion
import GlobalMailSystem.SourcedRefresh
import GlobalMailSystem.StateReadBack
import GlobalMailSystem.StateRegression
import GlobalMailSystem.Table
import GlobalMailSystem.TargetingClosed
import GlobalMailSystem.Transition
import GlobalMailSystem.UserState
import GlobalMailSystem.VisibilityMachine
