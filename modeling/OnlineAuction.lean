import OnlineAuction.Library.Runs
import OnlineAuction.Library.RowLocks
import OnlineAuction.Library.Contracts
import OnlineAuction.Library.Extension
import OnlineAuction.Library.Failures
import OnlineAuction.Library.Arrangements
import OnlineAuction.Library.Paging
import OnlineAuction.Library.Attempts
import OnlineAuction.Library.Typestate
import OnlineAuction.Library.OptimisticCommits
import OnlineAuction.Library.Outlines
import OnlineAuction.Library.Journals
import OnlineAuction.Library.LockOrder
import OnlineAuction.Library.Table
import OnlineAuction.Library.Latest
import OnlineAuction.Library.RunningBalance
import OnlineAuction.Library.Counters
import OnlineAuction.Library.InTurn
import OnlineAuction.Library.Lockouts
import OnlineAuction.Library.RollingWindows
import OnlineAuction.Library.DecimalRounding
import OnlineAuction.Market.Money
import OnlineAuction.Market.Records
import OnlineAuction.Market.Database
import OnlineAuction.Market.Handlers
import OnlineAuction.Market.Postings
import OnlineAuction.Market.Commits
import OnlineAuction.Market.WellFormed
import OnlineAuction.Market.Reserved
import OnlineAuction.Market.Interference
import OnlineAuction.Market.Sessions
import OnlineAuction.Market.HandlerContracts
import OnlineAuction.Market.LotHistory
import OnlineAuction.Market.Served
import OnlineAuction.Market.FrozenLots
import OnlineAuction.Market.LockedCopies
import OnlineAuction.Market.AntiSniping
import OnlineAuction.Market.Validation
import OnlineAuction.Market.ListingWrites
import OnlineAuction.Market.Reviews
import OnlineAuction.Market.ReviewFreeze
import OnlineAuction.Market.Participation
import OnlineAuction.Market.Winning
import OnlineAuction.Market.WonLots
import OnlineAuction.Market.Pages
import OnlineAuction.Notifications.Records
import OnlineAuction.Market.Commission
import OnlineAuction.Market.BalanceCeiling
import OnlineAuction.Market.FixedPrices
import OnlineAuction.Market.Ledger
import OnlineAuction.Market.SettlesOnce
import OnlineAuction.Market.Deadlines
import OnlineAuction.Market.BidHistory
import OnlineAuction.Market.Solvency
import OnlineAuction.Library.Escrow
import OnlineAuction.Market.Books
import OnlineAuction.Market.EscrowHouse
import OnlineAuction.Accounts.Security
import OnlineAuction.Accounts.TokenPurposes
import OnlineAuction.Accounts.Backend
import OnlineAuction.Accounts.Handlers
import OnlineAuction.Accounts.Commits
import OnlineAuction.Accounts.Contracts
import OnlineAuction.Accounts.Logins
import OnlineAuction.Accounts.Sockets
import OnlineAuction.Accounts.Passwords
import OnlineAuction.Accounts.Rotations
import OnlineAuction.Accounts.LoginStages
import OnlineAuction.Accounts.LoginGuesses
import OnlineAuction.Accounts.ResetRequests
import OnlineAuction.Accounts.ResetThrottle
import OnlineAuction.Transactions.UploadQuota
import OnlineAuction.Transactions.LockOrder
import OnlineAuction.Transactions.Deadlocks
import OnlineAuction.Outbox.Worker
import OnlineAuction.Outbox.Commits
import OnlineAuction.Outbox.Backoff
import OnlineAuction.Outbox.Mail
import OnlineAuction.Outbox.Deliveries
import OnlineAuction.Notifications.Dispatch
import OnlineAuction.Scheduler.Registry
import OnlineAuction.Scheduler.EventLoop
import OnlineAuction.Scheduler.Process
import OnlineAuction.Scheduler.Invariant
import OnlineAuction.Scheduler.Steps
import OnlineAuction.Scheduler.Requests
import OnlineAuction.Scheduler.Completion
import OnlineAuction.Realtime.ConnectionManager
import OnlineAuction.Realtime.LiveSockets
import OnlineAuction.Notifications.Batches
import OnlineAuction.Realtime.Endpoints
import OnlineAuction.Realtime.IpSlots
import OnlineAuction.Realtime.Departures
import OnlineAuction.Realtime.Announcing
import OnlineAuction.Realtime.Quotes
import OnlineAuction.Realtime.Broadcasts
import OnlineAuction.Realtime.PriceFrames
import OnlineAuction.Realtime.MessageLimit
import OnlineAuction.Scheduler.Commits
import OnlineAuction.Scheduler.NoStranding
import OnlineAuction.Scheduler.Election
import OnlineAuction.Scheduler.Leadership
import OnlineAuction.Scheduler.Coverage
import OnlineAuction.Scheduler.Creation
import OnlineAuction.Scheduler.Warnings
import OnlineAuction.Scheduler.WarnedOnce
import OnlineAuction.Scheduler.WarningTimes
import OnlineAuction.Scheduler.WarningDeadlines
import OnlineAuction.Uploads.Avatars
import OnlineAuction.Uploads.RollingQuota
import OnlineAuction.Accounts.Registration
import OnlineAuction.Accounts.Reachability
import OnlineAuction.Categories.Seeding
import OnlineAuction.Categories.Startup
import OnlineAuction.Accounts.Onboarding
import OnlineAuction.Accounts.Verification
import OnlineAuction.Library.ChangeLogs
import OnlineAuction.Subscriptions.Handlers
import OnlineAuction.Subscriptions.Linearization
import OnlineAuction.Library.Alone
import OnlineAuction.Outbox.Draining
import OnlineAuction.Library.Markup
import OnlineAuction.Notifications.MailHtml
import OnlineAuction.Library.Noninterference
import OnlineAuction.Notifications.Feed
import OnlineAuction.Notifications.Privacy
import OnlineAuction.Categories.Tree
import OnlineAuction.Outbox.Recovery
