import PiHub.Transition
import PiHub.Fifo
import PiHub.Fallible
import PiHub.HostFrames
import PiHub.CommandReader
import PiHub.CommandRecovery
import PiHub.CommandWait
import PiHub.LineOutput
import PiHub.DongleLink
import PiHub.FreshLink
import PiHub.Advertising
import PiHub.Text
import PiHub.DongleHost
import PiHub.LinkView
import PiHub.FlowSteps
import PiHub.PyStr
import PiHub.SingleFlight
import PiHub.Keymap
import PiHub.BleFrames
import PiHub.Macros
import PiHub.LiveTable
import PiHub.Dispatcher
import PiHub.HeldKeys
import PiHub.TaskTables
import PiHub.EdgeTables
import PiHub.ReceiverLoss
import PiHub.HoldFlows
import PiHub.EdgeQueue
import PiHub.LastFlow
import PiHub.StartupMode
import PiHub.Restart
import PiHub.ModeWriter
import PiHub.HistoryWriter
import PiHub.Reads
import PiHub.Records
import PiHub.HistoryRecords
import PiHub.HistoryFile
import PiHub.HistoryRestart
import PiHub.AirPlayWatch
import PiHub.SoundbarListen
import PiHub.CastLink
import PiHub.FrameTv
import PiHub.TvPresence
import PiHub.TvReconcile
import PiHub.PowerOn
import PiHub.PacketStream
import PiHub.StatusRequests
import PiHub.Slots
import PiHub.Settings
import PiHub.SettingsFields
import PiHub.SettingsFile
import PiHub.SoftMute
import PiHub.VolumeKeys
import PiHub.SpeakerLink
import PiHub.SpeakerListen
import PiHub.Multiroom
import PiHub.Watchdog
import PiHub.TxQueue
import PiHub.RxLines
import PiHub.SerialLink
import PiHub.BondClear
import PiHub.Coroutines
import PiHub.FrameCommands
import PiHub.FramePower
import PiHub.FrameInput
import PiHub.TvSocket
import PiHub.WorkItems
import PiHub.LinkUpkeep
import PiHub.DongleWatchdog
import PiHub.KeyPath
import PiHub.JobQueue
import PiHub.SpeakerKeys
import PiHub.Interleaving
import PiHub.FlowGoals
import PiHub.LineDrain
import PiHub.NewsPath
import PiHub.ReaderSessions
import PiHub.Indicators
import PiHub.HeldRepeats
import PiHub.SettingsRestart
