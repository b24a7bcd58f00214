import Ritex.Interaction
import Ritex.Words
import Ritex.Crc16
import Ritex.Protocol
import Ritex.Port
import Ritex.ReadPacket
import Ritex.LineBytes
import Ritex.QuietLine
import Ritex.EchoTransparency
import Ritex.Requests
import Ritex.FrameRoundTrip
import Ritex.Payload
import Ritex.Topology
import Ritex.Reports
import Ritex.Settings
import Ritex.Replies
import Ritex.PayloadBounds
import Ritex.IStream
import Ritex.GatewayData
import Ritex.GatewayPacket
import Ritex.PacketRoundTrip
import Ritex.GatewayCommand
import Ritex.StreamPrefix
import Ritex.GatewayTruncation
import Ritex.NullSafety
import Ritex.Transition
import Ritex.RequestLoop
import Ritex.RequestStages
import Ritex.RequestPairing
import Ritex.ProcessCommand
import Ritex.ProcessorOps
import Ritex.ProcessorRun
import Ritex.History
import Ritex.ProcessorEffects
import Ritex.BusDiscipline
import Ritex.DisciplinedRun
import Ritex.LoopRounds
import Ritex.ProcessorMembers
import Ritex.ModeTracking
import Ritex.WriteModeRestored
import Ritex.CommandReplies
import Ritex.CommandQueue
import Ritex.CommandRun
import Ritex.ServerAnswers
import Ritex.Shutdown
import Ritex.ChangeLog
import Ritex.SettingsHistory
import Ritex.SettingsRestart
import Ritex.CommandLineJoin
import Ritex.ThreadPool
import Ritex.NewestPerKey
import Ritex.DateOrder
import Ritex.CachedQueue
import Ritex.CachedQueueHistory
import Ritex.LoggerThread
import Ritex.LoggerContract
import Ritex.LoggerOperations
import Ritex.LoggerHandoff
import Ritex.LoggerDelivery
import Ritex.StartHandshake
import Ritex.StationTraffic
import Ritex.StationCommands
import Ritex.DecimalText
import Ritex.Rendezvous
import Ritex.SettingRequest
import Ritex.EchoLedger
import Ritex.CaptureWindow
import Ritex.TableAnswers
import Ritex.StreamSocket
import Ritex.SocketFraming
import Ritex.BinaryPolynomial
import Ritex.ShiftRegister
import Ritex.Crc16Division
import Ritex.CorruptedFrames
import Ritex.Monitor
import Ritex.FaultHistory
import Ritex.SyncTime
import Ritex.MatchedReplies
import Ritex.OperatorMode
import Ritex.ChannelRecords
import Ritex.Expansion
import Ritex.ModeLabels
import Ritex.OffsetTable
import Ritex.ExternalCommandSafety
import Ritex.CommandLineGrammar
import Ritex.DeclaredTables
import Ritex.CompileValidation
import Ritex.EchoAlignment
import Ritex.LineTranscript
import Ritex.HalfDuplex
import Ritex.CycleSpacing
import Ritex.Sampling
import Ritex.GatewaySession
import Ritex.RegisterDates
import Ritex.DaemonLock
import Ritex.CommandListing
import Ritex.Database
import Ritex.DaemonReadiness
import Ritex.TruthfulAnswers
