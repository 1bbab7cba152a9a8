import DeviceClient.Lib.Run
import DeviceClient.Lib.Sessions
import DeviceClient.Lib.Oldest
import DeviceClient.Lib.Loop
import DeviceClient.Lib.Trace
import DeviceClient.Lib.SortedSet
import DeviceClient.Lib.Table
import DeviceClient.Lib.Paging
import DeviceClient.Util.ConcurrentQueue
import DeviceClient.Util.LockedQueue
import DeviceClient.Config.UploadMode
import DeviceClient.Db.EventStore
import DeviceClient.Db.InvalidTimestampEventStore
import DeviceClient.Db.GranularityReduction
import DeviceClient.Db.TriggerGrouping
import DeviceClient.Db.GranularityExemption
import DeviceClient.Dam.InsertEvent
import DeviceClient.Dam.TimestampValidation
import DeviceClient.Dam.DBTransport
import DeviceClient.Dam.OverflowAccounting
import DeviceClient.Dam.QueueBound
import DeviceClient.Upload.MidHandler
import DeviceClient.Upload.MidRendezvous
import DeviceClient.Upload.MidRows
import DeviceClient.Upload.MidProtocol
import DeviceClient.Upload.CorruptedEvents
import DeviceClient.Upload.StreamSelection
import DeviceClient.Upload.TopicedSelection
import DeviceClient.Upload.TopicedRuns
import DeviceClient.Dam.InitialEvents
import DeviceClient.Dam.HandOver
import DeviceClient.Dam.CacheTransport
import DeviceClient.Dam.SessionStatus
import DeviceClient.Core.ClientOnOff
import DeviceClient.Core.Shutdown
import DeviceClient.Core.Registration
import DeviceClient.Util.JsonPath
import DeviceClient.Config.ConfigPath
import DeviceClient.Config.IgniteConfig
import DeviceClient.Util.JsonWriter
import DeviceClient.Util.JsonReader
import DeviceClient.Util.JsonRoundTrip
import DeviceClient.Db.ServiceSettingsStore
import DeviceClient.Config.ConfigUpdate
import DeviceClient.Config.ConfigRoundTrip
import DeviceClient.Db.SettingsCalls
import DeviceClient.Db.SettingsIsolation
import DeviceClient.Event.IgniteMessage
import DeviceClient.Core.MessageQueue
import DeviceClient.Core.MalformedFrames
import DeviceClient.Event.IgniteEvent
import DeviceClient.Event.EventRoundTrip
import DeviceClient.Analytics.DomainMapUpdates
import DeviceClient.Db.ModeUpgrade
import DeviceClient.Lib.Base64
import DeviceClient.Lib.Calendar
import DeviceClient.Util.Base64Decode
import DeviceClient.Util.DateTime
import DeviceClient.Net.AuthTokenAPI
import DeviceClient.Auth.TokenManager
import DeviceClient.Auth.TokenContract
import DeviceClient.Auth.TokenLifetime
import DeviceClient.Net.CurlHttpSession
import DeviceClient.Net.SessionReuse
import DeviceClient.Net.HttpSessionManager
import DeviceClient.Auth.Credentials
import DeviceClient.Auth.ActivationBackoff
import DeviceClient.Auth.NetworkErrors
import DeviceClient.Auth.BackoffTransitions
import DeviceClient.Auth.RetrySlots
import DeviceClient.Net.IgniteMQTTClient
import DeviceClient.Crypto.DataSecurity
import DeviceClient.Lib.WakeUp
import DeviceClient.Upload.MidWorker
import DeviceClient.Dam.CacheWorker
import DeviceClient.Dam.MessageWorker
import DeviceClient.Upload.AlertWorker
import DeviceClient.Core.WorkerWakeUps
import DeviceClient.Dam.OrderlyShutdown
import DeviceClient.Db.EncryptionSeed
import DeviceClient.Upload.UploadSuspension
import DeviceClient.Db.LocalConfig
import DeviceClient.Db.ConfigUpgrade
import DeviceClient.Db.DatabaseUpgrade
import DeviceClient.Db.UpgradeOutcome
import DeviceClient.Db.SchemaCompleteness
import DeviceClient.Db.DatabaseRecovery
import DeviceClient.Db.Transactions
import DeviceClient.Auth.ActivationNotification
import DeviceClient.Core.DisassociationWipe
import DeviceClient.Notif.MQTTNotificationHandler
import DeviceClient.Upload.UploadDeletion
import DeviceClient.Lib.NestedLoop
import DeviceClient.Upload.UploadLoop
import DeviceClient.Db.AlternateEvents
import DeviceClient.Db.DefaultPolicy
import DeviceClient.Db.ReductionRun
import DeviceClient.Dam.EventRouting
import DeviceClient.Dam.QueueDrain
import DeviceClient.Dam.TimestampCorrection
import DeviceClient.Db.ReductionFiles
import DeviceClient.Db.LeaveFirstAndLast
import DeviceClient.Db.TriggerSuffixes
import DeviceClient.Db.TriggerMatching
import DeviceClient.Db.AlternatePass
import DeviceClient.Db.ResumePoint
import DeviceClient.Db.ResumeRuns
import DeviceClient.Auth.ActivationResult
import DeviceClient.Auth.ActivationTime
import DeviceClient.Config.ConfigReads
import DeviceClient.Dam.CriticalLogging
import DeviceClient.Dam.EngineSpeed
import DeviceClient.Db.SplicedValues
import DeviceClient.Db.ValuesRoundTrip
import DeviceClient.Event.AcceptAttach
import DeviceClient.Event.ParsedEvent
import DeviceClient.Net.ExponentialBackoff
import DeviceClient.Analytics.VinHandler
import DeviceClient.Config.ModeClassification
import DeviceClient.Core.EventIntervalValidator
import DeviceClient.Core.KeyGenerator
import DeviceClient.Dam.ActivityDelay
import DeviceClient.Upload.TopicRewrite
import DeviceClient.Upload.UploadLogging
import DeviceClient.Util.Base64Encode
import DeviceClient.Util.IgniteLog
import DeviceClient.Auth.ServerResponses
import DeviceClient.Util.FileSplit
import DeviceClient.Util.DiagHeader
import DeviceClient.App.CommandLine
import DeviceClient.Crypto.RNG
import DeviceClient.Mqtt.Messages
import DeviceClient.Mqtt.PacketWrite
import DeviceClient.Mqtt.Utf8
import DeviceClient.Mqtt.Receive
import DeviceClient.Upload.MidDelivery
import DeviceClient.Mqtt.Keepalive
import DeviceClient.Event.EventSender
import DeviceClient.Notif.NotificationListener
import DeviceClient.Notif.MessageDelivery
import DeviceClient.Upload.AlertUpload
import DeviceClient.Analytics.EventUpdates
