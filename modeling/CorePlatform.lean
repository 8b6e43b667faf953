import CorePlatform.Auth.Logout
import CorePlatform.Auth.PasswordReset
import CorePlatform.Auth.Revocation
import CorePlatform.Roles.Rules
import CorePlatform.Roles.Coherence
import CorePlatform.Roles.Unassign
import CorePlatform.Roles.Guards
import CorePlatform.Roles.Authorization
import CorePlatform.Gateway.Store
import CorePlatform.Gateway.Service
import CorePlatform.Async.Holding
import CorePlatform.Gateway.System
import CorePlatform.Gateway.Exclusion
import CorePlatform.Gateway.Permanence
import CorePlatform.Gateway.Accelerator
import CorePlatform.Gateway.Expiry
import CorePlatform.Async.Counting
import CorePlatform.Roles.Versions
import CorePlatform.Auth.Credentials
import CorePlatform.Limiting.FixedWindow
import CorePlatform.RateLimiter.Service
import CorePlatform.RateLimiter.Safety
import CorePlatform.RateLimiter.Guard
import CorePlatform.RateLimiter.Redundancy
import CorePlatform.Nats.Consumer
import CorePlatform.Notification.Registered
import CorePlatform.Notification.VerificationMail
import CorePlatform.Auth.ResetOnce
import CorePlatform.Auth.ResetRevokes
import CorePlatform.Auth.ResetCodes
import CorePlatform.Auth.ResetExpiry
import CorePlatform.Gateway.Clients
import CorePlatform.Gateway.Upstream
import CorePlatform.Async.Journal
import CorePlatform.Bell.Store
import CorePlatform.Bell.Service
import CorePlatform.Bell.Sockets
import CorePlatform.Bell.Points
import CorePlatform.Bell.System
import CorePlatform.Bell.Truthful
import CorePlatform.Bell.Converges
import CorePlatform.WebSocket.Gateway
import CorePlatform.WebSocket.Exactness
import CorePlatform.WebSocket.MessageRate
import CorePlatform.Permission.Store
import CorePlatform.Permission.Service
import CorePlatform.Permission.FailsClosed
import CorePlatform.Tokens.Strategy
import CorePlatform.Tokens.Agreement
import CorePlatform.Async.TwoRun
import CorePlatform.Bell.Inbox
import CorePlatform.Bell.Isolation
import CorePlatform.Bell.Tenants
import CorePlatform.Auth.Verified
import CorePlatform.Auth.OneSession
import CorePlatform.Auth.Issuing
import CorePlatform.Common.Decryption
import CorePlatform.Notification.CurrentCode
import CorePlatform.Errors.Filter
import CorePlatform.Errors.Relay
import CorePlatform.Async.Alike
import CorePlatform.Errors.Disclosure
import CorePlatform.Async.Record
import CorePlatform.Roles.Record
import CorePlatform.Roles.Creation
import CorePlatform.Roles.Assignment
import CorePlatform.Roles.Replacement
import CorePlatform.Auth.Registration
import CorePlatform.Auth.Enumeration
import CorePlatform.Auth.RefreshTokens
import CorePlatform.Propagation.System
import CorePlatform.Propagation.Refresh
import CorePlatform.Roles.Classification
import CorePlatform.Auth.AllOrNothing
import CorePlatform.Auth.EmailIdentity
import CorePlatform.Gateway.Failures
import CorePlatform.Bell.Announced
import CorePlatform.Bell.WriteOnce
import CorePlatform.Common.Number
import CorePlatform.Bell.Paging
import CorePlatform.Bell.Pages
import CorePlatform.Nats.Settlement
import CorePlatform.Notification.DeadLetters
import CorePlatform.Common.Envelope
import CorePlatform.Common.Pagination
import CorePlatform.Common.Html
import CorePlatform.Auth.ConfirmPage
import CorePlatform.Common.Messages
import CorePlatform.Async.Accretion
import CorePlatform.Nats.Provisioning
import CorePlatform.Relational.Upsert
import CorePlatform.Seed.Convergence
import CorePlatform.Async.Attribution
import CorePlatform.Auth.Custody
import CorePlatform.Auth.PasswordChanges
import CorePlatform.Roles.Access
import CorePlatform.Auth.Authentication
import CorePlatform.Gateway.Provenance
import CorePlatform.Async.Refinement
import CorePlatform.Bell.Content
import CorePlatform.WebSocket.Deployment
import CorePlatform.WebSocket.Recipients
import CorePlatform.Auth.Mailing
import CorePlatform.Auth.Activation
import CorePlatform.Notification.Mailboxes
