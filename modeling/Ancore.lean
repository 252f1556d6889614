import Ancore.Library.Csv
import Ancore.Library.Agenda
import Ancore.Library.Attempt
import Ancore.Library.Calendar
import Ancore.Library.Cursor
import Ancore.Library.FixedWidth
import Ancore.Library.Interleaving
import Ancore.Library.KeyedLog
import Ancore.Library.KeyedTable
import Ancore.Library.Quorum
import Ancore.Library.Runs
import Ancore.Library.SelfDelimiting
import Ancore.Library.WindowBudget
import Ancore.Soroban.Value
import Ancore.Soroban.StrKey
import Ancore.Soroban.Host
import Ancore.Account.Types
import Ancore.Account.Validation
import Ancore.Account.Contract
import Ancore.Account.Steps
import Ancore.Account.Change
import Ancore.Account.Nonce
import Ancore.Account.Owners
import Ancore.Account.SessionKeys
import Ancore.Account.SpendWindow
import Ancore.Account.Replay
import Ancore.Upgrade.Contract
import Ancore.Upgrade.Change
import Ancore.Upgrade.Proposals
import Ancore.Upgrade.Multisig
import Ancore.Upgrade.Reentrancy
import Ancore.Invoices.Contract
import Ancore.Invoices.Change
import Ancore.Invoices.Records
import Ancore.Invoices.Payments
import Ancore.Invoices.Lifecycle
import Ancore.Invoices.Indexes
import Ancore.Indexer.Events
import Ancore.Indexer.Tables
import Ancore.Indexer.Worker
import Ancore.Indexer.Delivery
import Ancore.Indexer.Postgres
import Ancore.Indexer.Persistence
import Ancore.Indexer.Recovery
import Ancore.Indexer.DeadLetters
import Ancore.Indexer.Activity
import Ancore.Indexer.Paging
import Ancore.Indexer.ResponseCache
import Ancore.Library.Keyset
import Ancore.Indexer.ContractEvents
import Ancore.Indexer.BackwardPaging
import Ancore.Relayer.Schedule
import Ancore.Relayer.TransferStores
import Ancore.Relayer.Scheduler
import Ancore.Relayer.Occurrences
import Ancore.Relayer.PaidOnce
import Ancore.Library.Outline
import Ancore.Relayer.Stages
import Ancore.Relayer.Records
import Ancore.Relayer.ScheduledNonces
import Ancore.Relayer.FailingTransfers
import Ancore.Relayer.StoreFailures
import Ancore.Relayer.UserRequests
import Ancore.Relayer.Cancellation
import Ancore.Library.EcmaScript
import Ancore.Relay.Requests
import Ancore.Relay.NonceStores
import Ancore.Relay.Payload
import Ancore.Relay.Service
import Ancore.Relay.Stages
import Ancore.Relay.NonceReuse
import Ancore.Relay.Substitution
import Ancore.Dashboard.Statements
import Ancore.Dashboard.SplitBill
import Ancore.Idempotency.Middleware
import Ancore.Idempotency.Stages
import Ancore.Idempotency.ExecutesOnce
import Ancore.Idempotency.Callers
import Ancore.Library.RecordTable
import Ancore.Queue.Jobs
import Ancore.Queue.QueueWorker
import Ancore.Queue.JobQueue
import Ancore.Queue.PgJobQueue
import Ancore.Queue.Terminal
import Ancore.Queue.Stages
import Ancore.Queue.Accounts
import Ancore.Queue.Dispatches
import Ancore.Queue.Crashes
import Ancore.Library.Sealing
import Ancore.Library.Solo
import Ancore.Vault.Manager
import Ancore.Vault.Methods
import Ancore.Vault.PasswordChange
import Ancore.Vault.Accounts
import Ancore.Vault.CalmRuns
import Ancore.Vault.Retention
import Ancore.Wallet.Polling
import Ancore.Library.Numbers
import Ancore.Library.NumberTexts
import Ancore.Wallet.Reviews
import Ancore.Wallet.Background
import Ancore.Wallet.Authentication
import Ancore.Wallet.Sessions
import Ancore.Wallet.Stages
import Ancore.Wallet.LockFinality
import Ancore.Wallet.Backoff
import Ancore.Library.StableSort
import Ancore.Mobile.BiometricLockout
import Ancore.Mobile.History
import Ancore.Mobile.CompleteHistory
import Ancore.Library.Records
import Ancore.Library.WorkerPool
import Ancore.Library.Doubles
import Ancore.Library.Decimals
import Ancore.Library.Json
import Ancore.Library.Numerals
import Ancore.Approvals.AllowlistStore
import Ancore.Approvals.ResponseQueue
import Ancore.Approvals.Handlers
import Ancore.Approvals.Changes
import Ancore.Approvals.Endings
import Ancore.Approvals.LiveGrants
import Ancore.Approvals.Decisions
import Ancore.Approvals.Grants
import Ancore.Relay.SignedMessages
import Ancore.Soroban.Conventions
import Ancore.Account.Abi
import Ancore.Account.Builders
import Ancore.Account.BuilderAbi
import Ancore.Account.TransactionFees
import Ancore.Account.Sequences
import Ancore.Account.Codecs
import Ancore.Account.Policies
import Ancore.Payouts.Batches
import Ancore.Payouts.Workers
import Ancore.Payouts.Checkpoints
import Ancore.Payouts.Csv
import Ancore.Library.FixedPoint
import Ancore.Payouts.PublicKeys
import Ancore.Payouts.Parsing
import Ancore.Payouts.Executions
import Ancore.Vault.MobileVault
import Ancore.Vault.SavedAccounts
import Ancore.Vault.Migration
import Ancore.Vault.Onboarding
import Ancore.Vault.Backups
import Ancore.Indexer.Backfill
import Ancore.Wallet.Amounts
import Ancore.Wallet.Sends
import Ancore.Mobile.Keychain
import Ancore.Library.Positional
import Ancore.Crypto.Bip32
import Ancore.Crypto.Encoding
import Ancore.Library.Retries
import Ancore.Stellar.Client
import Ancore.Account.Passkeys
import Ancore.Relay.ClientNonces
import Ancore.Library.Binary64
import Ancore.Library.JsonNumbers
import Ancore.Library.CodeUnits
import Ancore.Library.JsonText
import Ancore.Vault.StorageBridge
import Ancore.Library.Merging
import Ancore.Contacts.Store
import Ancore.Contacts.Backup
import Ancore.Contacts.RoundTrip
import Ancore.Contacts.Merge
import Ancore.Library.Base64
import Ancore.Crypto.SignatureFormat
import Ancore.Stellar.HorizonUrl
import Ancore.Wallet.Settings
import Ancore.Library.Words
import Ancore.Wallet.Submission
import Ancore.Idempotency.Payments
import Ancore.Library.RegExp
import Ancore.Library.Replacing
import Ancore.Library.UnitClasses
import Ancore.Agent.Drafts
import Ancore.Agent.Redaction
import Ancore.Library.Deletions
import Ancore.Wallet.Sanitization
import Ancore.Bridge.Answers
import Ancore.Indexer.AccountFeed
import Ancore.Invoices.EventDecoder
import Ancore.Invoices.EventLog
import Ancore.Modules.History
import Ancore.Modules.Registered
import Ancore.Relayer.Shutdown
import Ancore.Upgrade.Governed
import Ancore.Wallet.LockManager
import Ancore.Wallet.PaymentRequests
import Ancore.Modules.TargetAllowlist
import Ancore.Bridge.ContentScript
