import ProximityCert.Bytes
import ProximityCert.Certificate.Decrypted
import ProximityCert.Certificate.Material
import ProximityCert.Certificate.Private
import ProximityCert.Certificate.Record
import ProximityCert.Cipher.Aes256
import ProximityCert.Cipher.Counter
import ProximityCert.Clock.Instant
import ProximityCert.Clock.Validity
import ProximityCert.Config
import ProximityCert.Curve.Ecdsa
import ProximityCert.Curve.P256
import ProximityCert.Der
import ProximityCert.Entropy
import ProximityCert.Failure
import ProximityCert.Hash.Hmac
import ProximityCert.Hash.Sha256
import ProximityCert.Inspect.Certificate
import ProximityCert.Inspect.Journal
import ProximityCert.Inspect.Manager
import ProximityCert.Inspect.Message
import ProximityCert.Inspect.Reading
import ProximityCert.Inspect.Session
import ProximityCert.Inspect.Storage
import ProximityCert.Json.Number
import ProximityCert.Json.Parser
import ProximityCert.Json.Printer
import ProximityCert.Json.Value
import ProximityCert.Log
import ProximityCert.Manager.Basic
import ProximityCert.Manager.Command
import ProximityCert.Manager.Contacts
import ProximityCert.Manager.Device
import ProximityCert.Manager.Fixed
import ProximityCert.Manager.Identity
import ProximityCert.Manager.Loop
import ProximityCert.Manager.Observers
import ProximityCert.Manager.Refresh
import ProximityCert.Manager.Service
import ProximityCert.Manager.Tasks
import ProximityCert.Proofs.Wire.Fields
import ProximityCert.Proofs.Wire.Messages
import ProximityCert.Proofs.Outcomes
import ProximityCert.Proofs.Lookups
import ProximityCert.Proofs.Wire.Sizes
import ProximityCert.Proofs.Wire.Certificates
import ProximityCert.Rounding
import ProximityCert.Schedule.Recorded
import ProximityCert.Schedule.Scheduler
import ProximityCert.Schedule.State
import ProximityCert.Schedule.Timeline
import ProximityCert.SigningKey
import ProximityCert.SortedMap
import ProximityCert.Storage.Database
import ProximityCert.Storage.Expirations
import ProximityCert.Storage.FileSlot
import ProximityCert.Storage.Preferences
import ProximityCert.Storage.Store
import ProximityCert.Text.Base64Url
import ProximityCert.Text.Hex
import ProximityCert.Verification.Exchange
import ProximityCert.Verification.FrameReader
import ProximityCert.Verification.Run
import ProximityCert.Verification.Session
import ProximityCert.Verification.Verdict
import ProximityCert.Visibility
import ProximityCert.Wire.Field
import ProximityCert.Wire.Frame
import ProximityCert.Wire.Message
import ProximityCert.Wire.Metadata
import ProximityCert.Wire.PublicCertificate
import ProximityCert.Wire.Service
import ProximityCert.Wire.Timestamp
import ProximityCert.Wire.Varint
import ProximityCert.Proofs.Verification.Progress
import ProximityCert.Proofs.Verification.Reading
import ProximityCert.Proofs.Verification.Soundness
import ProximityCert.Proofs.Verification.Influence
import ProximityCert.Proofs.Verification.Ledger
import ProximityCert.Proofs.Verification.Agreement
import ProximityCert.Proofs.Verification.Termination
import ProximityCert.Proofs.Verification.Completeness
import ProximityCert.Proofs.Certificate.Records
import ProximityCert.Proofs.Cipher.Sealing
import ProximityCert.Proofs.Certificate.Privates
import ProximityCert.Proofs.Certificate.Opening
import ProximityCert.Proofs.Storage.Names
import ProximityCert.Proofs.Manager.Windows
import ProximityCert.Proofs.Storage.Privates
import ProximityCert.Proofs.Storage.Expirations
import ProximityCert.Proofs.Storage.Mirror
import ProximityCert.Proofs.Manager.Frames
import ProximityCert.Proofs.Manager.Work
import ProximityCert.Proofs.Manager.Commands
import ProximityCert.Proofs.Manager.Renewal
import ProximityCert.Proofs.Manager.Runs
import ProximityCert.Proofs.Manager.Loops
import ProximityCert.Proofs.Manager.Salts
import ProximityCert.Proofs.Schedule.Progress
import ProximityCert.Proofs.Schedule.Requests
import ProximityCert.Proofs.Manager.Attendance
import ProximityCert.Proofs.Manager.Errands
import ProximityCert.Proofs.Manager.Setbacks
import ProximityCert.Proofs.Storage.Faults
import ProximityCert.Proofs.Manager.Deliveries
import ProximityCert.Proofs.Storage.Retention
import ProximityCert.Proofs.Manager.Deadlines
import ProximityCert.Proofs.Wire.Services
import ProximityCert.Proofs.Storage.Recovery
import ProximityCert.Proofs.Storage.Refusals
import ProximityCert.Proofs.Manager.Publishing
import ProximityCert.Proofs.Manager.Retirement
import ProximityCert.Proofs.Storage.Batches
import ProximityCert.Proofs.Storage.Cleanup
import ProximityCert.Proofs.Storage.Expiry
import ProximityCert.Proofs.Manager.Downloads
import ProximityCert.Proofs.Storage.Attempts
import ProximityCert.Proofs.Storage.Published
import ProximityCert.Proofs.Verification.Histories
import ProximityCert.Proofs.Schedule.Backoff
import ProximityCert.Proofs.Certificate.Loading
import ProximityCert.Proofs.Manager.Refilling
import ProximityCert.Proofs.Schedule.DueTimes
