import Tim.Lib.Prog
import Tim.Lib.Pool
import Tim.Lib.Parent
import Tim.Lib.Object
import Tim.Lib.Ledger
import Tim.Lib.Progress
import Tim.Lib.Twin
import Tim.Lib.Reader
import Tim.Lib.Solo
import Tim.Lib.Pages
import Tim.Lib.Intake
import Tim.Lib.Strip
import Tim.Lib.Base64
import Tim.Lib.Fails
import Tim.Lib.Document
import Tim.Model.Base
import Tim.Model.Json
import Tim.Model.Crates
import Tim.Model.Signer
import Tim.Model.Session
import Tim.Model.Text
import Tim.Model.Net
import Tim.Model.Provider
import Tim.Model.OAuth
import Tim.Model.Retry
import Tim.Model.Symbolic
import Tim.Model.Api
import Tim.Model.Store
import Tim.Model.Service
import Tim.Model.Http
import Tim.Model.AccessLog
import Tim.Model.Router
import Tim.Model.Config
import Tim.Model.Document
import Tim.Model.Boot
import Tim.Model.Doctor
import Tim.Proofs.Text
import Tim.Proofs.Net
import Tim.Proofs.Claims
import Tim.Proofs.Signer
import Tim.Proofs.Store
import Tim.Proofs.Trace
import Tim.Proofs.Runs
import Tim.Proofs.Revocation
import Tim.Proofs.Atomic
import Tim.Proofs.Ledger
import Tim.Proofs.Settled
import Tim.Proofs.Progress
import Tim.Proofs.Revive
import Tim.Proofs.Lifetime
import Tim.Proofs.Bulk
import Tim.Proofs.Issued
import Tim.Proofs.Listing
import Tim.Proofs.Status
import Tim.Proofs.Paging
import Tim.Proofs.Chain
import Tim.Proofs.Lineage
import Tim.Proofs.Verdict
import Tim.Proofs.Session
import Tim.Proofs.Seal
import Tim.Proofs.Presence
import Tim.Proofs.Flow
import Tim.Proofs.Retry
import Tim.Proofs.FlowRuns
import Tim.Proofs.Discovery
import Tim.Proofs.Login
import Tim.Proofs.Casts
import Tim.Proofs.IdToken
import Tim.Proofs.Callback
import Tim.Proofs.Keys
import Tim.Proofs.Profile
import Tim.Proofs.ClaimPath
import Tim.Proofs.Gates
import Tim.Proofs.Modest
import Tim.Proofs.Replies
import Tim.Proofs.TooLarge
import Tim.Proofs.Cookie
import Tim.Proofs.InternalErrors
import Tim.Proofs.Expired
import Tim.Proofs.Identity
import Tim.Proofs.Doctor
import Tim.Proofs.Rotation
import Tim.Proofs.Sections
import Tim.Proofs.AccessLog
import Tim.Proofs.Hex
import Tim.Proofs.Hops
import Tim.Proofs.ClientGate
import Tim.Proofs.AdminGate
import Tim.Proofs.ErrorBody
import Tim.Proofs.Terse
import Tim.Proofs.Pieces
import Tim.Proofs.Echoes
import Tim.Lib.Later
import Tim.Proofs.Finality
import Tim.Lib.Shadow
import Tim.Model.Sweeper
import Tim.Proofs.Outbound
import Tim.Proofs.Retention
import Tim.Proofs.Sweep
import Tim.Model.Diagnose
import Tim.Proofs.Diagnose
import Tim.Proofs.Honest
import Tim.Proofs.Posture
import Tim.Proofs.Restarts
