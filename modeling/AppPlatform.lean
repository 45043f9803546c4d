import AppPlatform.Http.ClaimLifetime
import AppPlatform.Mail.AtMostOnce
import AppPlatform.Jobs.RedriveConservation
import AppPlatform.Identity.SessionPurge
import AppPlatform.Identity.AuthCommit
import AppPlatform.Identity.EpochRevocation
import AppPlatform.Identity.SignOutOthers
import AppPlatform.Identity.OrganizationCreate
import AppPlatform.Identity.OrganizationSteps
import AppPlatform.Identity.AuthTransaction
import AppPlatform.Identity.BanEffect
import AppPlatform.Identity.ApprovedContexts
import AppPlatform.Identity.ContextSwitch
import AppPlatform.Identity.ContextClear
import AppPlatform.Cache.SlidingWindow
import AppPlatform.Cache.LockOwnership
import AppPlatform.Cache.NamedLockSafety
import AppPlatform.Identity.LockoutClear
import AppPlatform.Identity.LockoutStrangers
import AppPlatform.Identity.LockoutBudget
import AppPlatform.Http.EdgeForward
import AppPlatform.Http.ClientIp
import AppPlatform.Http.RateLimitGuard
import AppPlatform.Http.ReplayStability
import AppPlatform.Mail.ClaimRenewal
import AppPlatform.Mail.MemoryRefinement
import AppPlatform.Jobs.OnceAtomic
import AppPlatform.Jobs.QueueConfig
import AppPlatform.Jobs.RetryWindow
import AppPlatform.Jobs.Registration
import AppPlatform.Lib.Interleave
import AppPlatform.Lib.StringNumber
import AppPlatform.Jobs.StopBudget
import AppPlatform.Jobs.EnsureQueues
import AppPlatform.Identity.StaffDomains
import AppPlatform.Identity.StaffSessionCap
import AppPlatform.Identity.PurgeProgress
import AppPlatform.Identity.AccountRace
import AppPlatform.Identity.SsoTransparency
import AppPlatform.Mail.Message
import AppPlatform.Mail.InvalidPayload
import AppPlatform.Jobs.Batch
import AppPlatform.Lib.JsonOrder
import AppPlatform.Lib.JsonUtf8
import AppPlatform.Http.Fingerprint
import AppPlatform.Http.StoredReplay
import AppPlatform.Jobs.RedriveExact
import AppPlatform.Identity.KeyringRotation
import AppPlatform.Cache.ResetAt
import AppPlatform.Http.RecordKey
import AppPlatform.Lib.Regex
import AppPlatform.Http.SanitizeString
import AppPlatform.Jobs.RedriveLoop
import AppPlatform.Http.SanitizeObject
import AppPlatform.Http.Cursor
import AppPlatform.Http.AccessLog
import AppPlatform.Identity.MicrosoftProvider
import AppPlatform.Identity.DeviceCookie
import AppPlatform.Lib.FirstSeen
import AppPlatform.Observability.ErrorLog
import AppPlatform.Observability.LabelGuard
import AppPlatform.Runtime.Readiness
import AppPlatform.Runtime.GracefulShutdown
import AppPlatform.Runtime.ExclusiveJob
import AppPlatform.Runtime.ExclusiveLock
import AppPlatform.Db.AdvisoryLock
import AppPlatform.Db.PoolGuard
import AppPlatform.Lib.NumberProduct
import AppPlatform.Lib.AbortSignal
import AppPlatform.Mail.SlotWait
import AppPlatform.Mail.GraphSend
import AppPlatform.Identity.OrganizationAtomic
import AppPlatform.Lib.PercentEncoding
import AppPlatform.Lib.Urlencoded
import AppPlatform.Lib.Url
import AppPlatform.Lib.UrlValid
import AppPlatform.Lib.UrlRoundTrip
import AppPlatform.Lib.UrlReference
import AppPlatform.Identity.CallbackErrors
import AppPlatform.Identity.ErrorEnvelope
import AppPlatform.Jobs.PendingSweep
import AppPlatform.Observability.TraceContext
import AppPlatform.Observability.RequestContext
import AppPlatform.Identity.SessionGuard
import AppPlatform.Lib.Calls
