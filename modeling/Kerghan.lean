import Kerghan.Async.Run
import Kerghan.Store.Statement
import Kerghan.Store.Paging
import Kerghan.Auth.DeviceFlow.Status
import Kerghan.Auth.DeviceFlow.Authenticity
import Kerghan.Auth.PasswordReset.SingleUse
import Kerghan.Auth.DeviceFlow.Limits
import Kerghan.Auth.Sessions.Password
import Kerghan.Auth.Sessions.Replay
import Kerghan.Auth.Sessions.Revocation
import Kerghan.Auth.Sessions.Others
import Kerghan.Auth.Sessions.Gate
import Kerghan.Auth.Sessions.Admission
import Kerghan.Auth.Sessions.Agreement
import Kerghan.Auth.Sessions.OwnSession
import Kerghan.Auth.Sessions.Atomic
import Kerghan.Auth.Account.FailureCount
import Kerghan.Auth.Account.Availability
import Kerghan.Auth.Account.Conflicts
import Kerghan.Auth.CoolOff.Law
import Kerghan.Auth.DefaultUser.Managed
import Kerghan.Auth.DefaultUser.Allowlist
import Kerghan.Auth.Sample
import Kerghan.Integrations.CoolOff.Attempts
import Kerghan.Integrations.FlowStates.SingleUse
import Kerghan.Integrations.GithubApp.Selection
import Kerghan.Integrations.GithubApp.Ownership
import Kerghan.Integrations.OauthApp.Disposed
import Kerghan.Integrations.Secrets.Keys
import Kerghan.Integrations.Secrets.Latest
import Kerghan.Integrations.Lemmas.Redirects
import Kerghan.Integrations.Rows.Cap
import Kerghan.Integrations.Secrets.Rotation
import Kerghan.Integrations.Secrets.Kept
import Kerghan.Integrations.Rows.Cooldown
import Kerghan.Integrations.Rows.Written
import Kerghan.Integrations.Rows.Status
import Kerghan.Integrations.Rows.Attested
import Kerghan.Integrations.Rows.Label
import Kerghan.Integrations.Metadata.Described
import Kerghan.Shell.Draft
import Kerghan.Standalone.Impl.Settings
import Kerghan.Standalone.Configure.Interrupted
import Kerghan.Standalone.Config.Parsers
import Kerghan.Standalone.Env.Update
import Kerghan.Standalone.Up.Shown
import Kerghan.Standalone.Update.Releases
import Kerghan.Core.ClientIp
import Kerghan.Core.CrossSite
import Kerghan.Frontend.Poller.Lifecycle
import Kerghan.Mail.Rendering
