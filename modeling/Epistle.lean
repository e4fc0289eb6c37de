import Epistle.Imap.IndexFresh
import Epistle.Imap.UidUnique
import Epistle.Imap.MailboxTriples
import Epistle.Imap.Arrivals
import Epistle.Smtp.Smuggling
import Epistle.Queue.Duplicates
import Epistle.Queue.Reports
import Epistle.Queue.Accounting
import Epistle.Queue.RequireTls
import Epistle.Storage.SpoolFiles
import Epistle.DirectoryStore.Ownership
import Epistle.Storage.TrustChain
import Epistle.Pop3.Framing
import Epistle.Imap.Expunging
import Epistle.Imap.Sizes
import Epistle.Pop3.Inbox
import Epistle.Auth.Totp
import Epistle.Auth.Base32
import Epistle.Auth.Probing
import Epistle.Oauth.Grants
import Epistle.Queue.Downgrade
import Epistle.Storage.Notices
import Epistle.Storage.ReturnPath
import Epistle.Smtp.Chunking
import Epistle.Imap.Retention
import Epistle.Imap.ErrorStreak
import Epistle.ManageSieve.Store
import Epistle.Smtp.DomainLimits
import Epistle.Api.Scim
import Epistle.Api.TenantRate
import Epistle.Sieve.Matches
