import NotifyAgent.Lib.Machine
import NotifyAgent.Lib.Ledger
import NotifyAgent.Lib.Replacement
import NotifyAgent.Lib.Loop
import NotifyAgent.Core.Text
import NotifyAgent.Core.Notification
import NotifyAgent.Core.Aggregator
import NotifyAgent.Scenarios.ArrivalOrder
import NotifyAgent.Core.ActionUrl
import NotifyAgent.Core.Parser
import NotifyAgent.Core.Dedup
import NotifyAgent.Scenarios.DedupWindow
import NotifyAgent.Lib.Utf16
import NotifyAgent.Core.HeadIdentity
import NotifyAgent.Scenarios.HeadAgreement
import NotifyAgent.Lib.Replace
import NotifyAgent.Lib.Subject
import NotifyAgent.Core.Host
import NotifyAgent.Scenarios.SubjectIsolation
import NotifyAgent.Lib.Xml
import NotifyAgent.Core.ToastXml
import NotifyAgent.Scenarios.ToastTree
import NotifyAgent.Scenarios.LoadableToast
import NotifyAgent.Core.Pipeline
import NotifyAgent.Core.Accounting
import NotifyAgent.Core.RenderTasks
import NotifyAgent.Scenarios.Conservation
import NotifyAgent.Scenarios.StaleProgress
import NotifyAgent.Core.AckingSink
import NotifyAgent.Scenarios.Acks
import NotifyAgent.Core.Drain
import NotifyAgent.Scenarios.ShutdownDrain
import NotifyAgent.Lib.Json
import NotifyAgent.Core.HttpsUrl
import NotifyAgent.Scenarios.UrlPolicy
import NotifyAgent.Core.HeadNotifications
import NotifyAgent.Core.HeadParsers
import NotifyAgent.Scenarios.HeadParsing
import NotifyAgent.Scenarios.DepthGate
import NotifyAgent.Core.HeadAggregators
import NotifyAgent.Lib.FiniteMap
import NotifyAgent.Scenarios.HeadAggregation
import NotifyAgent.Core.GoTimers
import NotifyAgent.Core.RefreshToken
import NotifyAgent.Scenarios.TimerOwnership
import NotifyAgent.Scenarios.DedupConcurrent
import NotifyAgent.Scenarios.TokenRotation
import NotifyAgent.Lib.Directory
import NotifyAgent.Lib.Bytes
import NotifyAgent.Lib.Sprintf
import NotifyAgent.Lib.SprintfText
import NotifyAgent.Core.ImageCache
import NotifyAgent.Scenarios.FailedFetch
import NotifyAgent.Lib.NetUrl
import NotifyAgent.Core.GoHost
import NotifyAgent.Core.GoImageCache
import NotifyAgent.Scenarios.SubjectTemplate
import NotifyAgent.Scenarios.UrlRedaction
import NotifyAgent.Lib.Percent
import NotifyAgent.Scenarios.ImagePath
import NotifyAgent.Core.GraphemeText
import NotifyAgent.Scenarios.Truncation
import NotifyAgent.Scenarios.WindowsIdentity
import NotifyAgent.Lib.Retention
import NotifyAgent.Scenarios.CacheEviction
import NotifyAgent.Scenarios.BucketInvariant
import NotifyAgent.Core.DeviceCode
import NotifyAgent.Scenarios.SignInPacing
import NotifyAgent.Lib.WorkerPool
import NotifyAgent.Lib.SharedLog
import NotifyAgent.Lib.SingleFlight
import NotifyAgent.Lib.Base64
import NotifyAgent.Core.ToastScript
import NotifyAgent.Scenarios.ToastTransport
import NotifyAgent.Core.GoAgent
import NotifyAgent.Scenarios.GoAccounts
import NotifyAgent.Scenarios.GoAcks
import NotifyAgent.Scenarios.GoShutdown
import NotifyAgent.Core.CSharpAgent
import NotifyAgent.Scenarios.CSharpAccounts
import NotifyAgent.Scenarios.CSharpAcks
import NotifyAgent.Scenarios.CSharpDisposal
import NotifyAgent.Lib.Publishing
import NotifyAgent.Core.CacheTasks
import NotifyAgent.Scenarios.CacheRaces
import NotifyAgent.Scenarios.SharedFetches
import NotifyAgent.Core.Startup
import NotifyAgent.Scenarios.StartupAgreement
import NotifyAgent.Core.DeviceId
import NotifyAgent.Scenarios.DeviceIds
import NotifyAgent.Core.Tray
import NotifyAgent.Scenarios.TrayClose
