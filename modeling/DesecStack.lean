import DesecStack.Library.SetOrder
import DesecStack.Library.Journal
import DesecStack.Library.Runs
import DesecStack.Library.PyText
import DesecStack.Library.Window
import DesecStack.Library.Slices
import DesecStack.Library.Decimal
import DesecStack.Names.Validators
import DesecStack.Names.Qnames
import DesecStack.Names.Grammar
import DesecStack.Dns.LongQuotedTXT
import DesecStack.Changes.Models
import DesecStack.Changes.History
import DesecStack.Changes.Tracker
import DesecStack.Changes.Pdns
import DesecStack.Changes.Compute
import DesecStack.Changes.Execution
import DesecStack.Changes.Mirror
import DesecStack.Changes.Catalog
import DesecStack.Changes.Sync
import DesecStack.Changes.Bookkeeping
import DesecStack.Changes.Disjointness
import DesecStack.Records.Fields
import DesecStack.Records.Serializer
import DesecStack.Records.Save
import DesecStack.Records.ListSerializer
import DesecStack.Records.Rows
import DesecStack.Records.Validated
import DesecStack.Records.Child
import DesecStack.Records.Writes
import DesecStack.Records.Accepted
import DesecStack.Records.BulkExact
import DesecStack.Records.Frames
import DesecStack.Records.Values
import DesecStack.Records.Canonical
import DesecStack.Records.Faults
import DesecStack.Records.Traces
import DesecStack.Records.Applied
import DesecStack.Records.Replacement
import DesecStack.Records.BulkTable
import DesecStack.Records.Crashes
import DesecStack.Records.Sizes
import DesecStack.Records.TextRows
import DesecStack.Tokens.Policies
import DesecStack.Tokens.Store
import DesecStack.Tokens.Primacy
import DesecStack.Tokens.Overlap
import DesecStack.Tokens.Priorities
import DesecStack.Tokens.Binding
import DesecStack.Views.Writes
import DesecStack.Views.Enforced
import DesecStack.Views.Locked
import DesecStack.Views.Stored
import DesecStack.Views.Bulk
import DesecStack.Views.Atomic
import DesecStack.Views.Reads
import DesecStack.Views.Serials
import DesecStack.Views.Restricted
import DesecStack.Views.Imported
import DesecStack.Views.Repeated
import DesecStack.Views.WrittenBack
import DesecStack.Domains.Registrable
import DesecStack.Domains.Resolution
import DesecStack.Domains.Scavenge
import DesecStack.Domains.Renewal
import DesecStack.Domains.Delegation
import DesecStack.DynDns.Ipaddress
import DesecStack.DynDns.Subnet
import DesecStack.DynDns.Channels
import DesecStack.DynDns.Actions
import DesecStack.DynDns.Interpretation
import DesecStack.DynDns.Families
import DesecStack.DynDns.Saved
import DesecStack.DynDns.Update
import DesecStack.DynDns.Apart
import DesecStack.Tenants.Requests
import DesecStack.Tenants.Effects
import DesecStack.Tenants.Isolation
import DesecStack.Tenants.Grants
import DesecStack.Tenants.AutoPolicy
import DesecStack.Tenants.Privileges
import DesecStack.Tenants.Quota
import DesecStack.Tenants.Published
import DesecStack.Tenants.Mirrored
import DesecStack.Tenants.Secondaries
import DesecStack.Accounts.Totp
import DesecStack.Accounts.Race
import DesecStack.Accounts.Actions
import DesecStack.Accounts.Operations
import DesecStack.Accounts.Codes
import DesecStack.Accounts.Preserved
import DesecStack.Accounts.Activation
import DesecStack.Accounts.Signed
import DesecStack.Accounts.Steps
import DesecStack.Accounts.SingleUse
import DesecStack.Accounts.Lifecycle
import DesecStack.Accounts.Addresses
import DesecStack.Accounts.TokenRows
import DesecStack.Accounts.StepUp
import DesecStack.Accounts.Sessions
import DesecStack.Throttling.Scoped
import DesecStack.Webapp.IpAddressValidators
