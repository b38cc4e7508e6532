import Kasli.Text.Bytes
import Kasli.Text.Utf8
import Kasli.Text.Readings
import Kasli.Text.Numerals
import Kasli.Regex.Tails
import Kasli.Regex.Spans
import Kasli.Core.RedactSecrets
import Kasli.Core.RedactEdge
import Kasli.Core.RedactTwice
import Kasli.Core.RedactFirst
import Kasli.Core.RedactJson
import Kasli.Data.OrderedMap
import Kasli.Json.Access
import Kasli.Json.Text
import Kasli.Json.Parse
import Kasli.Json.Size
import Kasli.Json.Skeleton
import Kasli.Json.StringText
import Kasli.Effect.Run
import Kasli.Effect.Steady
import Kasli.Core.Types
import Kasli.Core.RoundTrip
import Kasli.Session.SessionService
import Kasli.Kaslid.Disclosure
import Kasli.Kaslid.Answered
import Kasli.Kaslid.Agreement
import Kasli.Session.Fields
import Kasli.Session.Integrity
import Kasli.Session.Mediation
import Kasli.Session.Secrets
import Kasli.Session.Independence
import Kasli.Audit.LogFile
import Kasli.Kaslid.Accounting
import Kasli.Ipc.Framing
import Kasli.Ipc.Server
import Kasli.Kaslid.Delivery
import Kasli.Kaslid.ReplyBounds
import Kasli.Kaslid.EvidenceReply
import Kasli.Model.Prompt
import Kasli.Tools.Body
import Kasli.Tools.Systemd
import Kasli.Tools.Disk
import Kasli.Tools.MountInfo
import Kasli.Tools.MountLines
import Kasli.Tools.MountRows
import Kasli.Tools.Network
import Kasli.Tools.NetworkAddresses
import Kasli.Tools.Power
import Kasli.Tools.Hardware
import Kasli.Tools.CpuInfo
import Kasli.Tools.CpuCounts
import Kasli.Tools.HardwareProvider
import Kasli.Tools.CpuCut
import Kasli.Tools.Package
import Kasli.Tools.Journal
import Kasli.Tools.Bodies
import Kasli.Tools.CountedRows
import Kasli.Tools.RecentChanges
import Kasli.Tools.PackageOrder
import Kasli.Tools.PackageLog
import Kasli.Tools.EvidenceLines
import Kasli.Tools.JournalPresence
import Kasli.Tools.StatusReading
import Kasli.Tools.StatusRoundTrip
import Kasli.Session.Diagnosis
import Kasli.Kaslid.Readings
import Kasli.Data.Machine
import Kasli.Tools.FixedCommand
import Kasli.App.DaemonAutostart
import Kasli.Kaslid.AuditBounds
import Kasli.Kaslid.Serve
import Kasli.Kaslid.Connection
import Kasli.Cli.Main
import Kasli.Kaslid.Options
import Kasli.Model.Config
import Kasli.Model.Providers
import Kasli.Kaslid.ModelAnswer
import Kasli.Kaslid.AuditTrail
import Kasli.Kaslid.AuditGrammar
import Kasli.Tools.Directories
import Kasli.Tools.NetworkState
import Kasli.Tools.Inventory
import Kasli.Kaslid.Main
import Kasli.App.Attempts
import Kasli.Cli.Callers
