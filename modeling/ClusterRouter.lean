import ClusterRouter.Channel.AESKey
import ClusterRouter.Channel.Admission
import ClusterRouter.Channel.AdmissionLimited
import ClusterRouter.Channel.CheckKeys
import ClusterRouter.Channel.DeadlineTightening
import ClusterRouter.Channel.GatewayBudget
import ClusterRouter.Channel.KeyPools
import ClusterRouter.Channel.LeastUsed
import ClusterRouter.Channel.Observation
import ClusterRouter.Channel.Reclaimed
import ClusterRouter.Channel.RequestTarget
import ClusterRouter.Channel.RetryAfter
import ClusterRouter.Channel.Revalidation
import ClusterRouter.Channel.SecretResolver
import ClusterRouter.Channel.TunnelIdle
import ClusterRouter.Channel.TunnelLinger
import ClusterRouter.Channel.TunnelTraffic
import ClusterRouter.Channel.TunnelTransparency
import ClusterRouter.Channel.VendorSignal
import ClusterRouter.Channel.WindowAccounts
import ClusterRouter.Crypto.RecordIntegrity
import ClusterRouter.Crypto.Truncation
import ClusterRouter.FairShare.RateBound
import ClusterRouter.Health.ProbeLimiter
import ClusterRouter.Observability.Redaction
import ClusterRouter.PiiRoute.CardNumbers
import ClusterRouter.PiiRoute.StringValues
import ClusterRouter.Router.Attempts
import ClusterRouter.Router.BodyRewrite
import ClusterRouter.Router.BreakerCooldown
import ClusterRouter.Router.BufferedBodies
import ClusterRouter.Router.ClientGone
import ClusterRouter.Router.CredentialReferences
import ClusterRouter.Router.ForbiddenHosts
import ClusterRouter.Router.KeyRotation
import ClusterRouter.Router.PersonalData
import ClusterRouter.Router.QuotaIsolation
import ClusterRouter.Router.Readmission
import ClusterRouter.Router.Reload
import ClusterRouter.Router.SelectionSoundness
import ClusterRouter.Router.WeightedRotation
import ClusterRouter.SmartRoute.SwitchedOff
import ClusterRouter.Socks5.Client
