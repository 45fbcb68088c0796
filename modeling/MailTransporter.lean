import MailTransporter.Effect.Program
import MailTransporter.Effect.Routine
import MailTransporter.Effect.Discipline
import MailTransporter.Client
import MailTransporter.Effect.System
import MailTransporter.ImapClient
import MailTransporter.Cli
import MailTransporter.Forwarder
import MailTransporter.Phases
import MailTransporter.MailboxRules
import MailTransporter.Server
import MailTransporter.ForwarderRules
import MailTransporter.CliRules
import MailTransporter.NoLoss
import MailTransporter.Replies
import MailTransporter.Provider
import MailTransporter.Diary
import MailTransporter.NoResend
import MailTransporter.Watcher
import MailTransporter.WatchLoop
import MailTransporter.Backoff
import MailTransporter.Breaker
import MailTransporter.Exceptions
import MailTransporter.Accounting
import MailTransporter.Inbox
import MailTransporter.GoodPath
import MailTransporter.Confirmation
import MailTransporter.Moves
import MailTransporter.Fallback
import MailTransporter.Settlement
import MailTransporter.Vanishing
import MailTransporter.Progress
import MailTransporter.Outcomes
import MailTransporter.Effect.Meter
import MailTransporter.Heartbeat
import MailTransporter.Parking
import MailTransporter.Text.Replace
import MailTransporter.Secrets
import MailTransporter.Environ
import MailTransporter.Settings
import MailTransporter.Atoms
import MailTransporter.Credentials
import MailTransporter.Notifier
import MailTransporter.Text.Words
import MailTransporter.Text.Flags
import MailTransporter.Wrapper
import MailTransporter.WrapperRules
import MailTransporter.Posting
import MailTransporter.Allowlist
import MailTransporter.Folders
import MailTransporter.Effect.Lockstep
import MailTransporter.LetterCase
import MailTransporter.Requeue
import MailTransporter.InGmail
import MailTransporter.Answers
import MailTransporter.Connection
import MailTransporter.Daemon
import MailTransporter.Pipeline
import MailTransporter.GmailClient
import MailTransporter.Verdicts
import MailTransporter.Labels
import MailTransporter.Budget
import MailTransporter.Board
import MailTransporter.Steering
import MailTransporter.Duplicates
