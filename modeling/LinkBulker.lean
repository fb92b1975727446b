import LinkBulker.Foundations.Run
import LinkBulker.Foundations.Table
import LinkBulker.Foundations.Pool
import LinkBulker.Foundations.Expiring
import LinkBulker.Foundations.Given
import LinkBulker.WorkerCore.SemaphoreLaws
import LinkBulker.WorkerCore.LockManagerLaws
import LinkBulker.Shared.Url
import LinkBulker.Db.Schema
import LinkBulker.Worker.Crawler
import LinkBulker.Shared.Jobs
import LinkBulker.Worker.LinkRepository
import LinkBulker.Worker.SingleLink
import LinkBulker.Worker.SingleLinkLaws
import LinkBulker.Worker.CheckHistory
import LinkBulker.Web.Status
import LinkBulker.Web.ProjectStream
import LinkBulker.Web.ProjectStreamLaws
import LinkBulker.Api.LinksService
import LinkBulker.Worker.Batch
import LinkBulker.Worker.ManualCheck
import LinkBulker.Worker.BatchLaws
import LinkBulker.Worker.ManualCheckLaws
import LinkBulker.Worker.BulkCheck
import LinkBulker.Foundations.Mirror
import LinkBulker.Foundations.TokenBucket
import LinkBulker.WorkerCore.DomainRateLimiter
import LinkBulker.Worker.CrawlPool
import LinkBulker.Worker.CrawlPoolLaws
import LinkBulker.Worker.CrawlCap
import LinkBulker.Worker.CrawlRate
import LinkBulker.Shared.Columns
import LinkBulker.Worker.SheetsClient
import LinkBulker.Worker.SheetsRows
import LinkBulker.Worker.SheetsTask
import LinkBulker.Worker.SheetsTaskLaws
import LinkBulker.Worker.SheetsPairing
import LinkBulker.Worker.SheetsRun
import LinkBulker.Worker.ProjectLock
import LinkBulker.Worker.ProjectLockLaws
import LinkBulker.Worker.ProjectLockEffect
import LinkBulker.Worker.ProjectMirror
import LinkBulker.WorkerCore.CircuitBreaker
import LinkBulker.WorkerCore.CircuitBreakerLaws
import LinkBulker.WorkerCore.DomainRateLimiterLaws
import LinkBulker.Api.ManualLinks
import LinkBulker.Foundations.Paging
import LinkBulker.Api.LinksList
import LinkBulker.Web.LinksPage
import LinkBulker.Web.LinksPageLaws
import LinkBulker.Api.SheetsTasksService
import LinkBulker.Worker.SheetsFootprint
import LinkBulker.Worker.SheetsGrid
import LinkBulker.Api.RecheckOne
import LinkBulker.Worker.BulkQueue
import LinkBulker.Worker.BulkQueueRun
import LinkBulker.Worker.BulkQueueLaws
import LinkBulker.Foundations.Exclusion
import LinkBulker.Worker.LockExclusion
import LinkBulker.Worker.SheetsSequence
import LinkBulker.Api.ProjectsService
import LinkBulker.Api.SheetsSchedules
import LinkBulker.Api.SheetsSchedulesLaws
import LinkBulker.Api.StatsService
import LinkBulker.Web.Classifiers
import LinkBulker.Web.FollowClassifiers
import LinkBulker.Web.ParseCsv
import LinkBulker.Shared.SheetsUrl
import LinkBulker.Web.SheetsTaskDialog
import LinkBulker.Worker.Dispatch
import LinkBulker.Worker.LinkRows
import LinkBulker.Worker.ProgressNumbers
import LinkBulker.Worker.LinkOwners
import LinkBulker.Worker.LinkExclusion
import LinkBulker.Foundations.TwoRuns
import LinkBulker.Db.Ownership
import LinkBulker.Api.Services
import LinkBulker.Api.TenantIsolation
import LinkBulker.CrawlerCore.Firecrawl
import LinkBulker.Worker.CrawlErrors
import LinkBulker.Foundations.Related
import LinkBulker.Worker.Alike
import LinkBulker.Worker.AlikeSteps
import LinkBulker.Worker.SheetsAlike
import LinkBulker.Worker.ProjectChannel
import LinkBulker.WorkerCore.Polling
import LinkBulker.Api.RetryAfter
import LinkBulker.Api.SheetsEdits
import LinkBulker.Foundations.Traced
import LinkBulker.Worker.CrawlExits
import LinkBulker.Worker.SingleLinkDeletes
import LinkBulker.Worker.LockCleanup
import LinkBulker.Worker.SheetsRejects
import LinkBulker.Shared.Acceptor
import LinkBulker.CrawlerCore.Matching
import LinkBulker.Foundations.Quoting
import LinkBulker.Foundations.Csv
import LinkBulker.Web.CsvExport
import LinkBulker.Foundations.Bijective
import LinkBulker.Shared.ColumnLetters
import LinkBulker.Foundations.Munch
import LinkBulker.Shared.A1Range
import LinkBulker.Web.DialogSheetUrl
import LinkBulker.Foundations.Ranking
import LinkBulker.Api.ProblemDonors
import LinkBulker.Api.StatsTiming
import LinkBulker.Api.StatsOrder
import LinkBulker.Db.History
import LinkBulker.Api.RowRequests
import LinkBulker.Backend.Statements
import LinkBulker.Backend.System
import LinkBulker.Backend.Parties
import LinkBulker.Backend.Guarded
import LinkBulker.Backend.Tenants
import LinkBulker.Backend.Rewrites
import LinkBulker.Backend.Results
import LinkBulker.Api.Auth
import LinkBulker.Backend.Site
import LinkBulker.Worker.Sweeps
import LinkBulker.Backend.Jobs
import LinkBulker.Foundations.Throttle
import LinkBulker.Foundations.Thinned
import LinkBulker.Worker.Telling
import LinkBulker.Backend.Losses
import LinkBulker.Worker.ProgressPublisher
import LinkBulker.Backend.Throttled
import LinkBulker.Foundations.PubSub
import LinkBulker.Backend.Streams
import LinkBulker.Worker.Ranks
import LinkBulker.Worker.Ready
import LinkBulker.Backend.Endings
import LinkBulker.Worker.Freshness
import LinkBulker.Backend.Freshness
import LinkBulker.Worker.LockDeadlines
import LinkBulker.Backend.Locks
import LinkBulker.Foundations.Rest
import LinkBulker.Backend.Answers
import LinkBulker.Backend.Rest
import LinkBulker.CrawlerCore.Verdict
