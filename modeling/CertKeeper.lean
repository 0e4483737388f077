import CertKeeper.Authority.Basic
import CertKeeper.Authority.Resolution
import CertKeeper.Authority.SelfSigned
import CertKeeper.Bytes
import CertKeeper.CommandLine.Call
import CertKeeper.CommandLine.Command
import CertKeeper.CommandLine.Perform
import CertKeeper.CommandLine.Shell
import CertKeeper.CommandLine.Words
import CertKeeper.Console.Emoji
import CertKeeper.Console.Flow
import CertKeeper.Console.Markup
import CertKeeper.Console.Style
import CertKeeper.Console.Table
import CertKeeper.Crypto.Digest
import CertKeeper.Crypto.Edwards
import CertKeeper.Crypto.Modular
import CertKeeper.Crypto.Rsa
import CertKeeper.Crypto.Sha1
import CertKeeper.Crypto.Sha2
import CertKeeper.Crypto.Weierstrass
import CertKeeper.Decision
import CertKeeper.Disk.Basic
import CertKeeper.Disk.Error
import CertKeeper.Disk.Path
import CertKeeper.Encoding.Base64
import CertKeeper.Encoding.Der
import CertKeeper.Encoding.Oid
import CertKeeper.Encoding.Pem
import CertKeeper.Entries
import CertKeeper.Evaluation
import CertKeeper.Failure
import CertKeeper.Identity
import CertKeeper.Instance
import CertKeeper.Json.Basic
import CertKeeper.Json.Decimal
import CertKeeper.Json.Number
import CertKeeper.Json.Reader
import CertKeeper.Json.Shown
import CertKeeper.Json.Writer
import CertKeeper.Pass
import CertKeeper.Program
import CertKeeper.Proofs.Appraisal
import CertKeeper.Proofs.AsciiText
import CertKeeper.Proofs.AtomicPublication
import CertKeeper.Proofs.AuthorityFields
import CertKeeper.Proofs.BaseDirectory
import CertKeeper.Proofs.BlockText
import CertKeeper.Proofs.CalendarDays
import CertKeeper.Proofs.CanonicalElements
import CertKeeper.Proofs.CertificateText
import CertKeeper.Proofs.CharacterOctets
import CertKeeper.Proofs.CollaboratorFailures
import CertKeeper.Proofs.CommandRuns
import CertKeeper.Proofs.DirectoryTrees
import CertKeeper.Proofs.DiskPlaces
import CertKeeper.Proofs.DocumentText
import CertKeeper.Proofs.ElementForms
import CertKeeper.Proofs.ElementOctets
import CertKeeper.Proofs.EscapedText
import CertKeeper.Proofs.Escapes
import CertKeeper.Proofs.EvaluationFailures
import CertKeeper.Proofs.FollowedPaths
import CertKeeper.Proofs.FromSettings
import CertKeeper.Proofs.HeldInstances
import CertKeeper.Proofs.HeldRecords
import CertKeeper.Proofs.Inspection
import CertKeeper.Proofs.InstanceFiles
import CertKeeper.Proofs.InterleavedPasses
import CertKeeper.Proofs.InterleavedRuns
import CertKeeper.Proofs.InterruptedRuns
import CertKeeper.Proofs.IssuedPair
import CertKeeper.Proofs.KeptPairs
import CertKeeper.Proofs.KeyText
import CertKeeper.Proofs.LoadedAuthority
import CertKeeper.Proofs.MemoryUpsert
import CertKeeper.Proofs.ModularPower
import CertKeeper.Proofs.NewPlaces
import CertKeeper.Proofs.NumberOctets
import CertKeeper.Proofs.OtherClients
import CertKeeper.Proofs.PassFrame
import CertKeeper.Proofs.PassPair
import CertKeeper.Proofs.PassSteps
import CertKeeper.Proofs.PrimeTest
import CertKeeper.Proofs.PrintedRows
import CertKeeper.Proofs.Propagation
import CertKeeper.Proofs.RecordFiles
import CertKeeper.Proofs.RecordUpserts
import CertKeeper.Proofs.RecordWrites
import CertKeeper.Proofs.RequeueHint
import CertKeeper.Proofs.RestartFrame
import CertKeeper.Proofs.RestartRun
import CertKeeper.Proofs.RsaKeys
import CertKeeper.Proofs.Running
import CertKeeper.Proofs.SeparateRecords
import CertKeeper.Proofs.SettledPass
import CertKeeper.Proofs.SharedStore
import CertKeeper.Proofs.SignedCertificate
import CertKeeper.Proofs.StampText
import CertKeeper.Proofs.StoreArea
import CertKeeper.Proofs.StoreContents
import CertKeeper.Proofs.StoreLooks
import CertKeeper.Proofs.StoreOnDisk
import CertKeeper.Proofs.StoreRefinement
import CertKeeper.Proofs.StoreSessions
import CertKeeper.Proofs.StoredAuthority
import CertKeeper.Proofs.StoredDocuments
import CertKeeper.Proofs.StoredIdentities
import CertKeeper.Proofs.UnmanagedFields
import CertKeeper.Proofs.ValidityWindow
import CertKeeper.Proofs.VersionFiles
import CertKeeper.Proofs.WatchedDisk
import CertKeeper.Record
import CertKeeper.Restart
import CertKeeper.Settings.Basic
import CertKeeper.Settings.Dotenv
import CertKeeper.Store
import CertKeeper.Store.Directory
import CertKeeper.Store.Index
import CertKeeper.Store.Manifest
import CertKeeper.Store.Memory
import CertKeeper.Text.Blank
import CertKeeper.Text.Number
import CertKeeper.Text.Printable
import CertKeeper.Text.Quoted
import CertKeeper.Text.Similar
import CertKeeper.Text.Utf8
import CertKeeper.Text.Width
import CertKeeper.Time.Calendar
import CertKeeper.Time.Error
import CertKeeper.Time.Iso
import CertKeeper.Time.Moment
import CertKeeper.Time.Span
import CertKeeper.Validation
import CertKeeper.Writer
import CertKeeper.X509.Algorithm
import CertKeeper.X509.Certificate
import CertKeeper.X509.Extension
import CertKeeper.X509.Issue
import CertKeeper.X509.Name
import CertKeeper.X509.PrivateKey
import CertKeeper.X509.PublicKey
import CertKeeper.X509.Validity
import CertKeeper.Main
import CertKeeper.Proofs.RestartGroup
import CertKeeper.Proofs.IssuedCertificate
import CertKeeper.Proofs.CertificateLength
import CertKeeper.Proofs.ReadySettings
import CertKeeper.Proofs.ReportedOutcome
import CertKeeper.Proofs.ListingOrder
import CertKeeper.Proofs.RestartOrder
import CertKeeper.Proofs.AuthorityFailures
import CertKeeper.Proofs.CanonicalKeys
import CertKeeper.Proofs.ReloadedAuthority
import CertKeeper.Proofs.ShownText
import CertKeeper.Proofs.ExitStatus
import CertKeeper.Proofs.NewAuthority
import CertKeeper.Proofs.ReplacedAuthority
import CertKeeper.Proofs.SettingSources
