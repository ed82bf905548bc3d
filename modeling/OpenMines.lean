import OpenMines.Lib.LittleEndian
import OpenMines.Lib.FileImage
import OpenMines.Lib.FixedWidth
import OpenMines.Lib.RedoLog
import OpenMines.Lib.Run
import OpenMines.MapFormat
import OpenMines.MapInvariant
import OpenMines.MapCells
import OpenMines.MapFile
import OpenMines.MapRoundTrip
import OpenMines.MapFlush
import OpenMines.MapFlushRun
import OpenMines.MapReachable
import OpenMines.MapAccepted
import OpenMines.DurabilityCrash
import OpenMines.Journal
import OpenMines.MapCrash
import OpenMines.World
import OpenMines.WorldCrash
import OpenMines.Connection
import OpenMines.ConnectionSteps
import OpenMines.PlayerOwnership
import OpenMines.SessionInvariant
import OpenMines.SessionTeardown
import OpenMines.SingleSession
import OpenMines.WorldGrid
import OpenMines.GranularFrontier
import OpenMines.GranularSettling
import OpenMines.Simulation
import OpenMines.AuctionMoney
import OpenMines.AuctionSettle
import OpenMines.Withdrawal
import OpenMines.BuildingPlacements
import OpenMines.BuildingDeletion
import OpenMines.ProgrammatorPanics
import OpenMines.MarketTrades
import OpenMines.PresenceChunks
import OpenMines.BoxAgreement
import OpenMines.ClanAuthority
import OpenMines.ClanMembership
import OpenMines.ReservedGoods
import OpenMines.PersistenceOnce
import OpenMines.Packet
import OpenMines.HubBundle
import OpenMines.CommandPhase
import OpenMines.BrokenBuilding
import OpenMines.Alive
import OpenMines.ProgrammatorControlRun
import OpenMines.ProgrammatorSchedule
import OpenMines.DeathWarrant
import OpenMines.MoneyAllOnce
import OpenMines.ProgrammatorFreshStart
import OpenMines.ProgrammatorFallThrough
import OpenMines.ProgrammatorGrammar
import OpenMines.ClientPackets
import OpenMines.PresentationStreams
import OpenMines.StorageConservation
import OpenMines.CraftingConservation
import OpenMines.DeathAtomicity
import OpenMines.TeleportMenu
import OpenMines.PackSync
import OpenMines.DueSchedules
import OpenMines.ScheduleClock
import OpenMines.BotsRenderRun
import OpenMines.PlayerInit
import OpenMines.Botspots
import OpenMines.SpatialLookup
import OpenMines.AliveBlue
import OpenMines.SkillMigration
import OpenMines.ConsumableBlasts
import OpenMines.ActiveFrontier
import OpenMines.GranularBatches
import OpenMines.BoxSearch
import OpenMines.ChargeFill
import OpenMines.DurabilityRanges
import OpenMines.WorldReadersRun
import OpenMines.HazardWatch
import OpenMines.RelogConsistency
import OpenMines.CommandContract
import OpenMines.DirtyMarksKept
import OpenMines.SectorPartition
import OpenMines.GuiWindow
import OpenMines.ChatPackets
import OpenMines.GunCandidates
import OpenMines.SessionStream
import OpenMines.AccountLogins
import OpenMines.ProgramCustody
import OpenMines.ChatConfinement
import OpenMines.ChatFanout
import OpenMines.ChatHistory
