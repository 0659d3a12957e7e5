import SovereignVault.ChangePassphrase
import SovereignVault.RotationFaults
import SovereignVault.MaterialUse
import SovereignVault.MoveToKeychain
import SovereignVault.AgentRevocation
import SovereignVault.Presence.Prompts
import SovereignVault.Audit.Tamper
import SovereignVault.Audit.Rotation
import SovereignVault.Desktop.Isolation
import SovereignVault.Desktop.Release
import SovereignVault.Desktop.Lockout
import SovereignVault.Desktop.Passes
import SovereignVault.Desktop.Plans
import SovereignVault.Privacy.Redact
import SovereignVault.Remediate.Reports
import SovereignVault.Remediate.Ingest
import SovereignVault.Remediate.Journal
import SovereignVault.Remediate.Preview
import SovereignVault.Runtime.Selectors
import SovereignVault.Runtime.Diff
import SovereignVault.Journals
import SovereignVault.Broker
import SovereignVault.Mcp.RateLimiter
import SovereignVault.Mcp.Scopes
import SovereignVault.Privacy.Validators
import SovereignVault.Desktop.LockRecords
import SovereignVault.Scan.Walk
import SovereignVault.FileStore
import SovereignVault.Runtime.Locator
import SovereignVault.Desktop.Imports
