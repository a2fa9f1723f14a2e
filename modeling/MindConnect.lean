import MindConnect.Lib.CursorList
import MindConnect.Lib.Bytes
import MindConnect.Lib.Json
import MindConnect.Core.Common
import MindConnect.Core.JsonUtil
import MindConnect.Connectivity.Item
import MindConnect.Connectivity.Multipart
import MindConnect.Connectivity.JsonSize
import MindConnect.Connectivity.Store
import MindConnect.Connectivity.Exchange
import MindConnect.Connectivity.StoreRun
import MindConnect.Connectivity.SizeLimit
import MindConnect.Connectivity.JsonEncode
import MindConnect.Connectivity.BodySize
import MindConnect.Connectivity.PrepareBody
import MindConnect.Connectivity.JsonParse
import MindConnect.Core.CoreProcessor
import MindConnect.Core.Registration
import MindConnect.Core.StoredCredentials
import MindConnect.Lib.CriticalSection
import MindConnect.Core.Core
import MindConnect.Core.Threads
import MindConnect.Core.List
import MindConnect.Core.ListRun
import MindConnect.DataLake.DataLakeJson
import MindConnect.DataLake.SignedUrls
import MindConnect.DataLake.DataLakeProcessor
import MindConnect.DataLake.UploadUrls
import MindConnect.Core.HttpResponse
import MindConnect.Core.ChunkedBody
import MindConnect.Core.CompleteResponse
import MindConnect.Core.HttpSend
import MindConnect.Lib.Http1
import MindConnect.Core.ChunkedRoundTrip
import MindConnect.Core.RequestRoundTrip
import MindConnect.Core.ResponseFraming
import MindConnect.Core.Base64
import MindConnect.Core.Hmac
import MindConnect.Lib.JsonRead
import MindConnect.Core.JsonNumber
import MindConnect.Core.Jwt
import MindConnect.Core.HandlerObjects
import MindConnect.Agent.ClientReference
import MindConnect.Connectivity.MultipartRoundTrip
import MindConnect.Connectivity.EventSteps
import MindConnect.Connectivity.MultipartSpace
import MindConnect.Core.RotationPayload
import MindConnect.DataLake.RequestBody
import MindConnect.Agent.AccessToken
import MindConnect.Core.ChunkedBounds
import MindConnect.DataLake.Upload
import MindConnect.Connectivity.PredictedSize
import MindConnect.Lib.OnePass
import MindConnect.Core.HeaderLookup
import MindConnect.Core.Base64Grammar
import MindConnect.Core.TimeUtil
import MindConnect.Lib.Calendar
import MindConnect.Connectivity.Timestamps
import MindConnect.Lib.Lifetime
import MindConnect.Core.SocketLifecycle
import MindConnect.Lib.FieldChain
import MindConnect.Deployment.DeploymentJson
import MindConnect.Deployment.WorkflowMembers
import MindConnect.Lib.Holding
import MindConnect.Core.HttpClientObjects
import MindConnect.Core.CoreInitialization
import MindConnect.Core.FailedInitialization
import MindConnect.DataLake.ModuleInitialization
import MindConnect.Core.LineReading
import MindConnect.DataLake.AzureDetection
import MindConnect.Deployment.WorkflowHistory
import MindConnect.Deployment.WorkflowUrl
import MindConnect.DataLake.RequestSize
import MindConnect.Core.LibcurlCallbacks
import MindConnect.Core.LibcurlSend
import MindConnect.Connectivity.FileItem
import MindConnect.Connectivity.ItemText
import MindConnect.Deployment.WorkflowValues
import MindConnect.Connectivity.PayloadCallbacks
import MindConnect.Core.Random
import MindConnect.Connectivity.CorrelationId
import MindConnect.Lib.Fallible
import MindConnect.Lib.JsonReader
import MindConnect.Core.CjsonPrint
import MindConnect.Core.PrintedText
import MindConnect.Core.CjsonParse
import MindConnect.Core.StringPasses
import MindConnect.Core.ParserSafety
import MindConnect.Core.StringReading
import MindConnect.Core.CjsonReading
import MindConnect.Core.RequestOnWire
import MindConnect.Connectivity.ExchangeRequest
import MindConnect.Connectivity.ServerReading
import MindConnect.Connectivity.ExchangeOnWire
import MindConnect.Agent.AuthorizedExchange
