import Spoo.Proofs.AccountErasure
import Spoo.Proofs.AdmissionBudget
import Spoo.Proofs.AppTokens
import Spoo.Proofs.BulkMoves
import Spoo.Proofs.BulkReports
import Spoo.Proofs.BulkTags
import Spoo.Proofs.CacheCoherence
import Spoo.Proofs.ClaimRaces
import Spoo.Proofs.ClickCodec
import Spoo.Proofs.ClickWindows
import Spoo.Proofs.DeliveredRows
import Spoo.Proofs.DiscordBodies
import Spoo.Proofs.DomainErasure
import Spoo.Proofs.DrillDown
import Spoo.Proofs.DropReports
import Spoo.Proofs.DualAnswers
import Spoo.Proofs.EdgeAgreement
import Spoo.Proofs.EdgeRemoval
import Spoo.Proofs.EmojiCodes
import Spoo.Proofs.EventAttempts
import Spoo.Proofs.FeedSwaps
import Spoo.Proofs.FlagAnswers
import Spoo.Proofs.FrozenBodies
import Spoo.Proofs.HumanVerdicts
import Spoo.Proofs.ImageSizes
import Spoo.Proofs.ImageValidation
import Spoo.Proofs.KeyAuthority
import Spoo.Proofs.KvReports
import Spoo.Proofs.LegacyCounts
import Spoo.Proofs.LinkListing
import Spoo.Proofs.MetaTags
import Spoo.Proofs.OauthSignIn
import Spoo.Proofs.OtpGuesses
import Spoo.Proofs.PasswordForm
import Spoo.Proofs.PatternWindows
import Spoo.Proofs.Quotas
import Spoo.Proofs.Registration
import Spoo.Proofs.ReportBlocks
import Spoo.Proofs.ReportTriage
import Spoo.Proofs.RestoreTokens
import Spoo.Proofs.RetryLadder
import Spoo.Proofs.SafeFetch
import Spoo.Proofs.SafeRedirect
import Spoo.Proofs.Schedules
import Spoo.Proofs.ScrubbedLinks
import Spoo.Proofs.SignInMethods
import Spoo.Proofs.SubscriptionCache
import Spoo.Proofs.TagNames
import Spoo.Proofs.TaskClaims
import Spoo.Proofs.TenantPaths
import Spoo.Proofs.TenantTombstones
import Spoo.Proofs.TimeSeries
import Spoo.Proofs.ToxicEvidence
import Spoo.Proofs.VariantBands
