import A2A.Foundation.Machine
import A2A.Foundation.EventLog
import A2A.Foundation.OrderedSet
import A2A.Foundation.VersionedMap
import A2A.Foundation.Bytes
import A2A.Foundation.Ownership
import A2A.Foundation.Fairness
import A2A.Core.Error
import A2A.Core.Messages
import A2A.Server.Tasks.TaskHistory
import A2A.Server.Tasks.ListTasks
import A2A.Server.Tasks.InMemoryTaskStore
import A2A.Server.Tasks.StoreConsistency
import A2A.Server.Tasks.StoreOperations
import A2A.Server.Tasks.Pagination
import A2A.Server.Tasks.OptimisticClients
import A2A.Server.Tasks.TaskLifecycleService
import A2A.Server.TaskSubscriptionService
import A2A.Server.SubscriptionInvariant
import A2A.Server.SubscriptionThreads
import A2A.Server.SubscriptionDelivery
import A2A.Server.SubscriptionProgress
import A2A.Server.SubscriptionGuarantees
import A2A.Server.SubscriptionPublisher
import A2A.Server.Tasks.TaskAuthorizationService
import A2A.Server.Tasks.AuthorizationSteps
import A2A.Server.Tasks.AuthorizationGate
import A2A.Server.Tasks.AuthorizationPublication
import A2A.Server.Tasks.AuthorizationSubscriptions
import A2A.Foundation.Traced
import A2A.Server.DispatchTypes
import A2A.Server.SecurityPolicy
import A2A.Server.Dispatcher
import A2A.Server.SecurityEvents
import A2A.Server.AuthorizedStreams
import A2A.Server.DispatchGuarantees
import A2A.Server.SecuredListing
import A2A.Server.SecuredPages
import A2A.Server.Noninterference
import A2A.Foundation.Json
import A2A.Core.AgentCard.JsonNumber
import A2A.Core.AgentCard.SigningJson
import A2A.Core.ProtoJson
import A2A.Core.ProtoJsonOrder
import A2A.Client.Discovery
import A2A.Foundation.Table
import A2A.Server.Stores.PostgresTaskStore
import A2A.Server.Stores.PostgresStoreEffects
import A2A.Server.Stores.PostgresTaskIdentity
import A2A.Server.Stores.PostgresListing
import A2A.Server.Stores.StoreEquivalence
import A2A.Server.Stores.PostgresClients
import A2A.Server.Stores.PostgresClientGuarantees
import A2A.Server.Stores.PushConfigCleanup
import A2A.Core.StringUtils
import A2A.Foundation.Search
import A2A.Server.Transport.HttpAdapter
import A2A.Server.Transport.HttpRequestReader
import A2A.Server.Transport.HttpPipelining
import A2A.Foundation.Hexadecimal
import A2A.Foundation.WriteProgram
import A2A.Server.Transport.HttpResponseWriter
import A2A.Server.Transport.HttpResponseDecoder
import A2A.Server.Transport.HttpResponseFraming
import A2A.Server.Transport.HttpResponseRoundTrip
import A2A.Client.SseParser
import A2A.Server.Transport.ServerSentEvents
import A2A.Client.SseFrames
import A2A.Server.Transport.SseRoundTrip
import A2A.Server.Transport.SseStreamFailure
import A2A.Foundation.FormUrlEncoded
import A2A.Server.Transport.RequestHeaders
import A2A.Server.Transport.RestServerTransport
import A2A.Server.Transport.ListTasksRequests
import A2A.Server.Transport.RestQueries
import A2A.Server.Transport.RestBasePath
import A2A.Server.Transport.ListTasksBindings
import A2A.Core.PushConfigJson
import A2A.Client.HttpJsonTransport
import A2A.Server.Transport.RestResources
import A2A.Client.HttpJsonRouting
import A2A.Server.Stores.PushNotificationStores
import A2A.Http.CurlStreamReactor
import A2A.Client.DiscoveryClient
import A2A.Client.SseSession
import A2A.Client.StreamHandle
import A2A.Client.CredentialHeaders
import A2A.Server.InterceptorRegistration
import A2A.Server.TaskIdGenerator
import A2A.Server.Transport.AuthMetadata
import A2A.Server.PushNotificationDelivery
import A2A.Server.Stores.TaskAwarePushStore
import A2A.Server.Stores.PushConfigLists
import A2A.Server.Transport.FormQueries
import A2A.Server.Transport.RestErrors
import A2A.Http.CurlMulti
import A2A.Foundation.Tally
import A2A.Http.SerialStreamDispatch
import A2A.Server.Stores.PostgresConnectionPool
import A2A.Server.Transport.SseDelivery
import A2A.Server.Stores.PostgresPagination
