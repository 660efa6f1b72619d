import TokenLedger.Apply
import TokenLedger.Json.Canonical
import TokenLedger.Json.Settings
import TokenLedger.Proofs.Commit
import TokenLedger.Proofs.Resolution
import TokenLedger.Proofs.Plans
import TokenLedger.Proofs.Application
import TokenLedger.Proofs.Atomicity
import TokenLedger.Proofs.Footprint
import TokenLedger.Proofs.Authority
import TokenLedger.Proofs.History
import TokenLedger.Proofs.Supply
import TokenLedger.Proofs.PermissionTree
import TokenLedger.Proofs.DryRun
import TokenLedger.Proofs.Interruption
import TokenLedger.Proofs.Holdings
import TokenLedger.Proofs.Denial
import TokenLedger.Proofs.Permanence
import TokenLedger.Proofs.Independence
import TokenLedger.Proofs.Ownership
import TokenLedger.Proofs.Freezing
import TokenLedger.Proofs.Journal
import TokenLedger.Proofs.RoundTrip
import TokenLedger.Proofs.Rejections
import TokenLedger.Proofs.Trace
import TokenLedger.Proofs.Timelessness
import TokenLedger.Proofs.Repetition
import TokenLedger.Proofs.Collisions
import TokenLedger.Proofs.Creation
import TokenLedger.Proofs.Amendment
import TokenLedger.Proofs.Partwise
import TokenLedger.Proofs.Transfers
import TokenLedger.Proofs.Rebalancing
import TokenLedger.Proofs.Totals
import TokenLedger.Proofs.Listings
import TokenLedger.Proofs.Batches
import TokenLedger.Proofs.Issuance
import TokenLedger.Proofs.Enquiries
import TokenLedger.Proofs.Inventory
import TokenLedger.Proofs.Environment
import TokenLedger.Proofs.EventLog
import TokenLedger.Proofs.GroupNumbers
