import SharamLedger.Lib.Prog
import SharamLedger.Lib.Table
import SharamLedger.Lib.Trace
import SharamLedger.Lib.Snapshot
import SharamLedger.Lib.I64
import SharamLedger.Domain
import SharamLedger.Platform
import SharamLedger.Schema.Control
import SharamLedger.Schema.Contribution
import SharamLedger.System
import SharamLedger.Ledger.Error
import SharamLedger.Ledger.Query
import SharamLedger.Ledger.Control
import SharamLedger.Ledger.Tenant
import SharamLedger.Gateway.Auth
import SharamLedger.Ledger.Accounts
import SharamLedger.Gateway.SignIn
import SharamLedger.Gateway.Settings
import SharamLedger.Gateway.Contributions
import SharamLedger.Gateway.Routes
import SharamLedger.Gateway.Gates
import SharamLedger.Gateway.Reads
import SharamLedger.CurrentPeriod
import SharamLedger.Venture
import SharamLedger.Roster
import SharamLedger.Sample
import SharamLedger.PeriodLock
import SharamLedger.DuesCap
import SharamLedger.CapRace
import SharamLedger.PeriodSkew
import SharamLedger.ClosedPeriods
import SharamLedger.History
import SharamLedger.Takeover
import SharamLedger.OwnerKept
import SharamLedger.Isolation
import SharamLedger.InviteStatus
import SharamLedger.Lib.Pool
import SharamLedger.Ledger.Calls
import SharamLedger.AcceptedMembers
import SharamLedger.LateMembership
import SharamLedger.FirstPassword
import SharamLedger.AdditiveSignIn
import SharamLedger.Ledger.Founding
import SharamLedger.Ledger.Connections
import SharamLedger.OneFounder
import SharamLedger.HalfFounded
import SharamLedger.Spelling
import SharamLedger.Lib.Grouping
import SharamLedger.Gateway.Rollups
import SharamLedger.Lifetime
import SharamLedger.Deployment
import SharamLedger.PoolAgreement
import SharamLedger.Gateway.Checked
import SharamLedger.Overflow
import SharamLedger.Gateway.Tenants
import SharamLedger.StoredSettings
import SharamLedger.Registry
import SharamLedger.Ledger.Thrown
import SharamLedger.ZoneNames
import SharamLedger.DisplayNames
import SharamLedger.ProofOwners
import SharamLedger.SeedOnce
import SharamLedger.SettledMembers
import SharamLedger.AddContribution
import SharamLedger.AcceptAlone
import SharamLedger.OnceAccepted
import SharamLedger.TwoViews
import SharamLedger.ManagePage
import SharamLedger.Lib.Patch
import SharamLedger.Lib.Numeral
import SharamLedger.Lib.Utf8
import SharamLedger.Schema.Patterns
import SharamLedger.PeriodText
import SharamLedger.CreatePage
import SharamLedger.SeedDates
import SharamLedger.DuesForms
import SharamLedger.Buckets
import SharamLedger.SettingsPatch
import SharamLedger.EventMessages
import SharamLedger.Reinvite
import SharamLedger.Lib.Ascii
import SharamLedger.Lib.Percent
import SharamLedger.Lib.Words
import SharamLedger.Lib.Thousands
import SharamLedger.Lib.Escape
import SharamLedger.Slugs
import SharamLedger.UrlEncode
import SharamLedger.ProofKeys
import SharamLedger.Money
import SharamLedger.Mailer
import SharamLedger.GoogleKeys
import SharamLedger.ActivePeriods
import SharamLedger.Lib.Machine
import SharamLedger.Books
import SharamLedger.Effects
import SharamLedger.Bookkeeping
import SharamLedger.Acknowledged
import SharamLedger.Sessions
import SharamLedger.Uploads
import SharamLedger.Overlap
import SharamLedger.Startup
import SharamLedger.Pages
import SharamLedger.InvitesPage
import SharamLedger.VenturePages
import SharamLedger.Lib.Once
import SharamLedger.Attribution
import SharamLedger.ContributePage
import SharamLedger.FoundingPage
