import Tenancy.Audit
import Tenancy.Context
import Tenancy.Context.Flow
import Tenancy.Context.Script
import Tenancy.Directory
import Tenancy.Error
import Tenancy.Invitation
import Tenancy.Json.Answers
import Tenancy.Json.Basic
import Tenancy.Json.Reader
import Tenancy.Json.Records
import Tenancy.Json.Shape
import Tenancy.Json.Writer
import Tenancy.Membership
import Tenancy.Metadata
import Tenancy.Operation
import Tenancy.Organization
import Tenancy.Permission
import Tenancy.Program
import Tenancy.Role
import Tenancy.Service.Action
import Tenancy.Service.Invitations
import Tenancy.Service.Members
import Tenancy.Service.Organizations
import Tenancy.Service.Resolution
import Tenancy.Service.Roles
import Tenancy.Service.Validation
import Tenancy.Settings
import Tenancy.Settings.Environment
import Tenancy.Sql.Connection
import Tenancy.Sql.Rows
import Tenancy.Sql.Statement
import Tenancy.Sql.Store
import Tenancy.Store.Call
import Tenancy.Store.Tables
import Tenancy.Store.World
import Tenancy.Text.Base64Url
import Tenancy.Text.Basic
import Tenancy.Text.CaseMap
import Tenancy.Text.CharClass
import Tenancy.Text.Email
import Tenancy.Text.Integer
import Tenancy.Text.SearchPattern
import Tenancy.Text.Slug
import Tenancy.Token
import Tenancy.Proofs.Footprint
import Tenancy.Proofs.KeyedRecords
import Tenancy.Proofs.PrimaryMembership
import Tenancy.Proofs.Ledger
import Tenancy.Proofs.LedgerWrites
import Tenancy.Proofs.LedgerOperations
import Tenancy.Proofs.PermissionViews
import Tenancy.Proofs.OrderlyRuns
import Tenancy.Proofs.SparingWrites
import Tenancy.Proofs.Isolation
import Tenancy.Proofs.InvitationCodes
import Tenancy.Proofs.InvitationEnds
import Tenancy.Proofs.LexicalScopes
import Tenancy.Proofs.GuardDiscipline
import Tenancy.Proofs.MembershipIntegrity
import Tenancy.Proofs.LowercaseBlanks
import Tenancy.Proofs.RunWrites
import Tenancy.Proofs.PermissionNames
import Tenancy.Proofs.GrantScopes
import Tenancy.Proofs.PermissionRoundTrip
import Tenancy.Proofs.InvitationRecords
import Tenancy.Proofs.RoleOwners
import Tenancy.Proofs.AssignableRoles
import Tenancy.Proofs.InvitationAcceptance
import Tenancy.Proofs.Assignability
import Tenancy.Proofs.SerialRuns
import Tenancy.Proofs.GrantIntegrity
import Tenancy.Proofs.FaultyRuns
import Tenancy.Proofs.FailedOperations
import Tenancy.Proofs.StoppedRuns
import Tenancy.Proofs.AcceptanceRetries
import Tenancy.Proofs.CheckedValues
import Tenancy.Proofs.NormalForms
import Tenancy.Proofs.StoredRecords
import Tenancy.Proofs.OrganizationEdits
import Tenancy.Proofs.Registers
import Tenancy.Proofs.DistinctTitles
import Tenancy.Proofs.OrganizationDirectory
import Tenancy.Proofs.RoleBook
import Tenancy.Proofs.RoleCatalog
import Tenancy.Proofs.InvitationIntegrity
import Tenancy.Proofs.OrganizationAccesses
import Tenancy.Proofs.OverlappingUpdates
import Tenancy.Proofs.FaultyReads
import Tenancy.Proofs.FailClosedResolution
import Tenancy.Proofs.ResolvedGrants
import Tenancy.Proofs.SpentInvitations
import Tenancy.Proofs.UnnoticedPurges
import Tenancy.Proofs.MembershipTurns
import Tenancy.Proofs.AuditedMemberships
import Tenancy.Proofs.NotesLast
import Tenancy.Proofs.UnnoticedAudits
import Tenancy.Proofs.TokenHooks
import Tenancy.Proofs.DecodableClaims
import Tenancy.Proofs.JsonTexts
import Tenancy.Proofs.StoredRows
import Tenancy.Proofs.StaleGuards
import Tenancy.Proofs.RoleLists
import Tenancy.Proofs.MembershipWrites
import Tenancy.Proofs.AcceptanceOutcomes
import Tenancy.Proofs.MembershipUpdates
import Tenancy.Proofs.Conversations
import Tenancy.Proofs.Transactions
import Tenancy.Proofs.SurfacedFailures
import Tenancy.Proofs.SearchPatterns
import Tenancy.Proofs.MemberSearch
import Tenancy.Proofs.MemberPages
import Tenancy.Proofs.InvitationOrigins
import Tenancy.Proofs.ExpiryBoundary
import Tenancy.Proofs.CommutingDeltas
import Tenancy.Proofs.RacingDeltas
import Tenancy.Proofs.SlugSpellings
import Tenancy.Proofs.OrganizationUpdates
import Tenancy.Proofs.NormalNames
import Tenancy.Proofs.DeletedRoles
import Tenancy.Proofs.WorldKinds
import Tenancy.Proofs.MemberFoundations
import Tenancy.Proofs.RevokedAccess
import Tenancy.Proofs.RevokedRoles
import Tenancy.Proofs.AddressForms
import Tenancy.Proofs.AssembledMemberships
