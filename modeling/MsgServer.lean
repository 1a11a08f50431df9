import MsgServer.Library.Program
import MsgServer.Library.Table
import MsgServer.Library.Run
import MsgServer.Library.Bookkeeping
import MsgServer.Core.Models
import MsgServer.Market.Ledger
import MsgServer.Market.Conservation
import MsgServer.Plugins.Conversations
import MsgServer.Market.Holding
import MsgServer.Market.Outcomes
import MsgServer.Market.BountySolvency
import MsgServer.Market.Verdicts
import MsgServer.Market.VerdictWindow
import MsgServer.Market.Inventory
import MsgServer.Security.Chains
import MsgServer.Security.Ceilings
import MsgServer.Plugins.Governance
import MsgServer.Plugins.ShareChains
import MsgServer.Plugins.ConsentRuns
import MsgServer.Workers.Fencing
import MsgServer.Security.ApiKeys
import MsgServer.Security.Revocation
import MsgServer.Security.PrimaryKeys
import MsgServer.Admin.Preparation
import MsgServer.Admin.RecoveryReplay
import MsgServer.Plugins.Checkpoints
import MsgServer.Plugins.CeremonyRuns
import MsgServer.Transports.FlightRuns
import MsgServer.Plugins.TopicRuns
import MsgServer.Plugins.WatchDelivery
import MsgServer.Extensions.GitEndings
import MsgServer.Storage.CompensationRuns
import MsgServer.Core.TransferSeal
import MsgServer.Core.MissingRanges
import MsgServer.Core.PatchLaw
import MsgServer.Core.MarkdownLaw
import MsgServer.Library.Forest
import MsgServer.Storage.Links
import MsgServer.Storage.LinkRuns
import MsgServer.Library.EditDistance
import MsgServer.Core.Spelling
import MsgServer.Library.Greedy
import MsgServer.Algorithm.Ranker
import MsgServer.Library.RangeUnion
import MsgServer.Plugins.ReadingProofs
import MsgServer.Plugins.ReadingCoverage
import MsgServer.Library.Borders
import MsgServer.Core.Anchors
import MsgServer.Core.ExactPatch
import MsgServer.Library.Quoting
import MsgServer.Storage.SqlText
import MsgServer.Storage.SqlPlaceholders
import MsgServer.Library.RoundRobin
import MsgServer.Workers.Todos
import MsgServer.Workers.TodoRuns
import MsgServer.Transports.FlightInput
import MsgServer.Transports.FlightInputRuns
import MsgServer.Core.CanonicalJson
import MsgServer.Core.OperationRequest
import MsgServer.Plugins.PartBudget
import MsgServer.Library.Grid
import MsgServer.Transports.Collectibles
import MsgServer.Transports.GravityWells
import MsgServer.Transports.CollectibleRuns
import MsgServer.Library.Layers
import MsgServer.Transports.UrlSafety
import MsgServer.Library.Register
import MsgServer.Security.AgeKeys
import MsgServer.Library.Radix
import MsgServer.Security.AgeKeyLaw
import MsgServer.Security.Network
import MsgServer.Security.NetworkMeet
import MsgServer.Core.InternetAddress
import MsgServer.Plugins.InternetMail
import MsgServer.Library.Fence
import MsgServer.Plugins.InternetRuns
import MsgServer.Library.SelfDelimiting
import MsgServer.Core.JsonText
import MsgServer.Transports.Dictionary
import MsgServer.Transports.DictionaryRows
import MsgServer.Transports.DictionaryRuns
import MsgServer.Library.Expansion
import MsgServer.Plugins.SearchSnippets
import MsgServer.Core.TextWindow
import MsgServer.Storage.Pins
import MsgServer.Storage.PinRuns
import MsgServer.Plugins.Segments
import MsgServer.Plugins.SegmentScanner
import MsgServer.Plugins.SegmentReading
