import EraOne.DocsMerge
import EraOne.DocsIdentity
import EraOne.DocsEngine
import EraOne.DocsSingleWriter
import EraOne.DocsReload
import EraOne.TablesSync
import EraOne.TablesRecalc
import EraOne.TablesMirror
import EraOne.TablesProtect
import EraOne.TablesStructure
import EraOne.TablesXml
import EraOne.TablesRoundTrip
import EraOne.DriveModel
import EraOne.DriveCalls
import EraOne.DriveNames
import EraOne.DriveForest
import EraOne.DriveLock
import EraOne.DriveVersions
import EraOne.DriveTenants
import EraOne.PresFrames
import EraOne.TablesFlush
import EraOne.PresDeck
import EraOne.DrivePg
import EraOne.DriveRaces
import EraOne.DriveAgree
import EraOne.TablesOds
import EraOne.TablesOdsRead
import EraOne.SecretSharing
import EraOne.Shamir
import EraOne.ShamirSharing
import EraOne.PamVault
import EraOne.ShamirSecrecy
import EraOne.PamKeys
import EraOne.PamServer
import EraOne.PamHistory
import EraOne.PamRelease
import EraOne.MailPolicy
import EraOne.PamRotation
import EraOne.StableSort
import EraOne.MailRules
import EraOne.MailHold
import EraOne.MailHistory
import EraOne.MailPg
import EraOne.MailRelease
import EraOne.MailAction
import EraOne.MailEscalation
import EraOne.GoTime
import EraOne.License
import EraOne.LicenseClock
import EraOne.LicenseLease
import EraOne.Visits
import EraOne.KeyedTable
import EraOne.CtlModel
import EraOne.CtlMerge
import EraOne.CtlInventory
import EraOne.CtlNetwork
import EraOne.MigrationJobs
import EraOne.MigrationWorker
import EraOne.Calendar
import EraOne.CalendarText
import EraOne.CalendarReply
import EraOne.ChatStore
import EraOne.MailDelivery
import EraOne.PlatformOidc
import EraOne.Processes
import EraOne.IngestAck
import EraOne.EventWriter
import EraOne.IngestModel
import EraOne.HybridRelay
import EraOne.RecordUpdates
import EraOne.MailSmtp
import EraOne.MailImap
import EraOne.HybridSync
import EraOne.MailParity
import EraOne.LeasePolicy
import EraOne.CustodyChain
import EraOne.Fingerprint
import EraOne.ModerationProxy
import EraOne.DocsSplitMerge
import EraOne.DocsMarks
import EraOne.TablesShift
import EraOne.TablesOdsTotal
import EraOne.NetflowV5
import EraOne.Mbox
import EraOne.ImapQuote
import EraOne.ImapReceived
import EraOne.StixFeed
import EraOne.SigmaRule
import EraOne.AppControl
import EraOne.Sanitize
import EraOne.IcalSerialize
import EraOne.IcalPartstat
import EraOne.DocxRoundTrip
import EraOne.ScanSchedule
import EraOne.ContentPath
import EraOne.CefLine
import EraOne.OidcRedirects
import EraOne.DiscoverySweep
import EraOne.TablesSort
import EraOne.RtfExport
import EraOne.ImapSets
import EraOne.PptxRoundTrip
import EraOne.TablesOverflow
import EraOne.CveFeed
import EraOne.HostThrottle
import EraOne.MailBase64
import EraOne.AgentBuffer
import EraOne.AgentDelivery
import EraOne.Correlation
import EraOne.AlertDedup
import EraOne.DomainName
import EraOne.Dns
import EraOne.DnsGuard
import EraOne.KeyedList
import EraOne.Waf
import EraOne.ProjectBoard
import EraOne.Enforcement
import EraOne.TenantViews
import EraOne.PamSessions
