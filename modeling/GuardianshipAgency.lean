import GuardianshipAgency.Async.Lemmas.Exec
import GuardianshipAgency.Sequence.Consecutive
import GuardianshipAgency.Transactions.Theorems
import GuardianshipAgency.Transactions.Lemmas.Orders
import GuardianshipAgency.Transactions.Lemmas.Reports
import GuardianshipAgency.Transactions.Lemmas.Recorded
import GuardianshipAgency.Agency.Config
import GuardianshipAgency.Store.Expiring
import GuardianshipAgency.Agency.Services
import GuardianshipAgency.Agency.World
import GuardianshipAgency.Agency.Lemmas.Calls
import GuardianshipAgency.Agency.Lemmas.Steps
import GuardianshipAgency.Agency.Lemmas.Wallets
import GuardianshipAgency.Agency.Theorems
import GuardianshipAgency.Agency.Lemmas.Webhooks
import GuardianshipAgency.Agency.Lemmas.SpinUp
import GuardianshipAgency.Async.Lemmas.Serial
import GuardianshipAgency.Lifecycle.Lemmas.Turns
import GuardianshipAgency.Lifecycle.Lemmas.Credentials
import GuardianshipAgency.Lifecycle.Lemmas.Timers
import GuardianshipAgency.Lifecycle.Lemmas.Failures
import GuardianshipAgency.Lifecycle.Theorems
import GuardianshipAgency.Sequence.Gapless
import GuardianshipAgency.Transactions.Lemmas.Gaps
import GuardianshipAgency.Async.Budget
import GuardianshipAgency.Transactions.Network
import GuardianshipAgency.Sequence.Rank
import GuardianshipAgency.Transactions.Lemmas.Isolation
import GuardianshipAgency.Routing.Services
import GuardianshipAgency.Routing.Lemmas.Rewriting
import GuardianshipAgency.Routing.Theorems
import GuardianshipAgency.Routing.Lemmas.Names
import GuardianshipAgency.Lifecycle.Lemmas.Cleanup
import GuardianshipAgency.Lifecycle.Lemmas.Removals
import GuardianshipAgency.Async.Lemmas.Projection
import GuardianshipAgency.Sharing.Lemmas.Cuts
import GuardianshipAgency.Sharing.Theorems
import GuardianshipAgency.Async.Lemmas.Perform
import GuardianshipAgency.Async.Related
import GuardianshipAgency.Caching.Stores
import GuardianshipAgency.Caching.Lemmas.Content
import GuardianshipAgency.Caching.Lemmas.Programs
import GuardianshipAgency.Caching.Lemmas.Runs
import GuardianshipAgency.Caching.Theorems
import GuardianshipAgency.Async.Path
import GuardianshipAgency.Pods.Readiness
import GuardianshipAgency.Startup.Lemmas.Pings
import GuardianshipAgency.Startup.Lemmas.Invitations
import GuardianshipAgency.Startup.Theorems
import GuardianshipAgency.Js.Double
import GuardianshipAgency.Lifetimes.Lemmas.Jobs
import GuardianshipAgency.Lifetimes.Theorems
import GuardianshipAgency.Recovery.Lemmas.Halves
import GuardianshipAgency.Recovery.Theorems
import GuardianshipAgency.Async.Settles
import GuardianshipAgency.Recovery.Lemmas.Retries
import GuardianshipAgency.Recovery.Lemmas.Calm
import GuardianshipAgency.Js.Lemmas.Numbers
import GuardianshipAgency.Js.Lemmas.Stringify
import GuardianshipAgency.Async.Lease
import GuardianshipAgency.Ledger.Model
import GuardianshipAgency.Ledger.Theorems
import GuardianshipAgency.Ownership.Leases
import GuardianshipAgency.Ownership.Lemmas.Halves
import GuardianshipAgency.Ownership.Theorems
import GuardianshipAgency.Provenance.Lemmas.Origins
import GuardianshipAgency.Provenance.Lemmas.Requests
import GuardianshipAgency.Provenance.Theorems
import GuardianshipAgency.Wire.Lemmas.Answers
import GuardianshipAgency.Wire.Theorems
import GuardianshipAgency.Cli.Options
import GuardianshipAgency.Deployment.Lemmas.CommandLine
import GuardianshipAgency.Deployment.Lemmas.Endpoints
import GuardianshipAgency.Deployment.Theorems
import GuardianshipAgency.Neighbours.Lemmas.Alike
import GuardianshipAgency.Neighbours.Theorems
import GuardianshipAgency.Async.Meter
import GuardianshipAgency.Metering.Timers
import GuardianshipAgency.Metering.Rows
import GuardianshipAgency.Metering.Replies
