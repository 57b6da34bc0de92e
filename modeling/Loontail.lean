import Loontail.Concurrency.Protocol
import Loontail.Concurrency.Trace
import Loontail.Guarantees.SingleUseTicket
import Loontail.Guarantees.PlayerAccounting
import Loontail.Guarantees.RequestLifecycle
import Loontail.Guarantees.HostApproval
import Loontail.Guarantees.ClosedWorlds
import Loontail.Guarantees.LostUpdate
import Loontail.Guarantees.Rendezvous
import Loontail.Guarantees.SignalingPresence
import Loontail.Guarantees.HubDelivery
import Loontail.Guarantees.FriendRequests
import Loontail.Guarantees.PresencePointer
import Loontail.Guarantees.SingleSuccessor
import Loontail.Guarantees.BlockedAccounts
import Loontail.Guarantees.LastAdmin
import Loontail.Guarantees.LockOut
import Loontail.Guarantees.SlidingLog
import Loontail.Guarantees.LimiterBounds
import Loontail.Guarantees.ClientIndependence
import Loontail.Guarantees.TextureUrls
import Loontail.Guarantees.TokenCap
import Loontail.Guarantees.Reconciliation
import Loontail.Guarantees.OneAccountEach
import Loontail.Guarantees.LoginIdentifiers
import Loontail.Guarantees.CorrectLogins
import Loontail.Guarantees.JoinHandshake
import Loontail.Guarantees.CsrfCover
import Loontail.Guarantees.RevocationComplete
import Loontail.Guarantees.ManifestLinks
import Loontail.Guarantees.ManifestReads
import Loontail.Guarantees.RecordedHashes
import Loontail.Guarantees.ManifestContents
import Loontail.Guarantees.ManifestConvergence
import Loontail.Guarantees.BatchMoves
import Loontail.Guarantees.RejectedArchives
import Loontail.Guarantees.FailOpen
import Loontail.Guarantees.ForwardedHops
import Loontail.Guarantees.RefreshAtomic
import Loontail.Bundles.Rewrites
import Loontail.Bundles.Tidiness
import Loontail.Bundles.TidyOperations
import Loontail.Guarantees.AcceptAtomic
import Loontail.Network.Scripted
import Loontail.Guarantees.ScopedClosing
import Loontail.Network.Friends
import Loontail.Guarantees.JoinAffordance
import Loontail.Relational.Evolution
import Loontail.Guarantees.SlotReclaim
import Loontail.Guarantees.OwnCleanup
import Loontail.Guarantees.StableIdentity
import Loontail.Guarantees.PrefixMoves
import Loontail.Concurrency.Transaction
import Loontail.Catalog.Schema
import Loontail.Catalog.Service
import Loontail.Catalog.Admin
import Loontail.Catalog.Evolution
import Loontail.Catalog.Upserts
import Loontail.Catalog.Outcomes
import Loontail.Guarantees.SharedBundles
import Loontail.Relational.Grouping
import Loontail.Catalog.Selections
import Loontail.Catalog.Dto
import Loontail.Catalog.Repo
import Loontail.Guarantees.BatchLoading
import Loontail.Guarantees.ScanReconciliation
import Loontail.Guarantees.BulkDeletion
import Loontail.Guarantees.SafePaths
import Loontail.Concurrency.Evaluate
import Loontail.Guarantees.ExtractionCap
import Loontail.Bundles.Rules
import Loontail.Guarantees.StagedUploads
import Loontail.Bundles.Moves
import Loontail.Guarantees.MovedBytes
import Loontail.Relational.ReadCommitted
import Loontail.Catalog.Media
import Loontail.Catalog.MediaProtocol
import Loontail.Guarantees.FailedUploads
import Loontail.Encoding.Base64
import Loontail.Encoding.Utf8
import Loontail.Yggdrasil.Payload
import Loontail.Guarantees.Spellings
import Loontail.Yggdrasil.Uuid
import Loontail.Relational.Paging
import Loontail.Core.Paging
import Loontail.Textures.Schema
import Loontail.Observability.RequestLog
import Loontail.Guarantees.Pages
import Loontail.Guarantees.PublishedArchives
import Loontail.Guarantees.CatalogEdits
import Loontail.Guarantees.LiteralFilters
import Loontail.Guarantees.RequestRecords
import Loontail.Guarantees.SingularRoles
import Loontail.Core.OrderedMap
import Loontail.AdminUi.FileTree
import Loontail.AdminUi.Paths
import Loontail.AdminUi.Listing
import Loontail.AdminUi.Linking
import Loontail.AdminUi.Rows
import Loontail.AdminUi.Assembly
import Loontail.Guarantees.FileTreeAgreement
import Loontail.Concurrency.Custody
import Loontail.Relational.Table
import Loontail.Textures.Service
import Loontail.Textures.Protocol
import Loontail.Textures.Ledger
import Loontail.Guarantees.TextureFiles
import Loontail.Guarantees.TexturePurge
import Loontail.Relational.Discards
import Loontail.Network.Retention
import Loontail.Guarantees.ChunkedRetention
import Loontail.Guarantees.ArtifactTree
import Loontail.Concurrency.Publication
import Loontail.Guarantees.ServedTextures
import Loontail.Encoding.Json
import Loontail.Yggdrasil.Profile
import Loontail.Network.Pipe
import Loontail.Encoding.BigEndian
