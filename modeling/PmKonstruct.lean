import PmKonstruct.Email.Redaction
import PmKonstruct.Identity.SingleUse
import PmKonstruct.Identity.Revocation
import PmKonstruct.Identity.LoginSession
import PmKonstruct.Jobs.RowIsolation
import PmKonstruct.Jobs.JobService
import PmKonstruct.Scheduler.SchedulerService
import PmKonstruct.Tenancy.References
import PmKonstruct.Media.Upload
import PmKonstruct.Media.MediaService
import PmKonstruct.Forms.InspectionService
import PmKonstruct.Media.Ownership
import PmKonstruct.CallForward.Delay
import PmKonstruct.CallForward.Item
import PmKonstruct.Library.ParentForest
import PmKonstruct.CallForward.Templates
import PmKonstruct.CallForward.CallForwardService
import PmKonstruct.CallForward.Hierarchy
import PmKonstruct.CallForward.Reordering
import PmKonstruct.Dashboard.Severity
import PmKonstruct.Dashboard.DashboardService
import PmKonstruct.Reports.ReportsService
import PmKonstruct.Library.RowOrder
import PmKonstruct.Users.UserStore
import PmKonstruct.Users.UsersService
import PmKonstruct.Jobs.SupervisorMirror
import PmKonstruct.Forms.EtoAttribution
import PmKonstruct.Forms.InspectionNote
import PmKonstruct.Forms.DraftTables
import PmKonstruct.Forms.InspectionRendering
import PmKonstruct.Media.LiveKeys
import PmKonstruct.Settings.BrandingStore
import PmKonstruct.Media.UploadPrograms
import PmKonstruct.Media.UploadCleanUp
import PmKonstruct.Library.ReadCommitted
import PmKonstruct.Users.Permissions
import PmKonstruct.Users.PermissionReplacement
import PmKonstruct.Forms.DraftPrograms
import PmKonstruct.Forms.DraftRevisions
import PmKonstruct.Media.DeletionPrograms
import PmKonstruct.Media.OrphanedObjects
import PmKonstruct.Jobs.AssignmentPrograms
import PmKonstruct.Jobs.Visibility
import PmKonstruct.Jobs.MirrorCommits
import PmKonstruct.Events.EventStream
import PmKonstruct.CallForward.TreeOrder
import PmKonstruct.CallForward.TemplateRoundTrip
import PmKonstruct.Users.AccountPrograms
import PmKonstruct.Users.AccountTraces
import PmKonstruct.Users.LastManager
import PmKonstruct.Users.SeatLimit
import PmKonstruct.Library.ReadMergeWrite
import PmKonstruct.Jobs.JobPatch
import PmKonstruct.Jobs.UpdatePrograms
import PmKonstruct.Jobs.LostUpdates
import PmKonstruct.Users.SessionPrograms
import PmKonstruct.Users.SessionEndings
import PmKonstruct.Users.PasswordChanges
import PmKonstruct.Identity.RecoveryCodes
import PmKonstruct.Users.RecoveryPrograms
import PmKonstruct.Users.RecoverySecrets
import PmKonstruct.Billing.Plans
import PmKonstruct.Billing.StripeAccount
import PmKonstruct.Billing.BillingPrograms
import PmKonstruct.Billing.SecondCheckout
import PmKonstruct.Billing.FreeTrials
import PmKonstruct.Billing.SoleCustomer
import PmKonstruct.Billing.ConfirmationReplays
import PmKonstruct.Identity.RefreshFamilies
import PmKonstruct.Users.FamilyRuns
import PmKonstruct.Forms.EtoPrograms
import PmKonstruct.Forms.EtoNumbering
import PmKonstruct.Media.SelectionPrograms
import PmKonstruct.Media.MediaTakings
import PmKonstruct.Media.WholeSelections
import PmKonstruct.Media.Sweeper
import PmKonstruct.Media.SweptKeys
import PmKonstruct.Email.Colleagues
import PmKonstruct.Scheduler.AbsencePrograms
import PmKonstruct.Scheduler.AbsencePeriods
import PmKonstruct.Scheduler.AllocationPrograms
import PmKonstruct.Scheduler.WorkerAvailability
import PmKonstruct.Dashboard.Calendar
import PmKonstruct.Dashboard.CalendarService
import PmKonstruct.Dashboard.MonthEvents
import PmKonstruct.Settings.BrandingPrograms
import PmKonstruct.Settings.DisplacedImages
import PmKonstruct.CallForward.LosslessCapture
import PmKonstruct.CallForward.BulkTree
import PmKonstruct.CallForward.TemplateReplacement
import PmKonstruct.Library.IpAddress
import PmKonstruct.Email.RelayHosts
import PmKonstruct.Email.PublicRelays
import PmKonstruct.Email.HostSpellings
import PmKonstruct.Library.WebAddress
import PmKonstruct.Notifications.PushEndpoints
import PmKonstruct.Notifications.PushTargets
import PmKonstruct.Forms.EtoReading
import PmKonstruct.Identity.TypedCodes
import PmKonstruct.Email.RepeatedHeadings
import PmKonstruct.Forms.InspectionCounts
import PmKonstruct.Users.ManagedPermissions
import PmKonstruct.Users.PasswordBounds
import PmKonstruct.Library.PatchBody
import PmKonstruct.Jobs.PartialUpdates
import PmKonstruct.Diary.NotePatches
import PmKonstruct.CallForward.DelayOverTime
import PmKonstruct.Dashboard.DelayBuckets
import PmKonstruct.Reports.WorkingDays
import PmKonstruct.Dashboard.MonthTiling
import PmKonstruct.Media.ObjectKeys
import PmKonstruct.Media.QueueDrain
import PmKonstruct.Forms.PoNumbers
import PmKonstruct.Diary.ClockTimes
import PmKonstruct.Reports.CompletionPct
import PmKonstruct.Library.Binary64
import PmKonstruct.Reports.Performance
import PmKonstruct.Reports.SupervisorPerformance
import PmKonstruct.Reports.OpenTasks
import PmKonstruct.Library.ExpiringMap
import PmKonstruct.Weather.RateLimit
import PmKonstruct.Weather.WeatherCalls
import PmKonstruct.Notifications.Inbox
import PmKonstruct.Users.Founding
import PmKonstruct.Email.RelaySettings
import PmKonstruct.Library.CookieStore
import PmKonstruct.Identity.SessionCookies
import PmKonstruct.Library.Selections
import PmKonstruct.Tenancy.VisibleRows
import PmKonstruct.Tenancy.Neighbours
import PmKonstruct.Tenancy.Isolation
