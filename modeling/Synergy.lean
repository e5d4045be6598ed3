import Synergy.App.ComputerName
import Synergy.App.DaemonSettings
import Synergy.App.FailOver
import Synergy.App.KeptQuits
import Synergy.App.OneWayForward
import Synergy.App.SoundServerApp
import Synergy.Base.Format
import Synergy.Base.FormatSubstitution
import Synergy.Base.LineEndings
import Synergy.Client.BlockedKeys
import Synergy.Client.ClientOptions
import Synergy.Client.FreshPositions
import Synergy.Client.HeldMotion
import Synergy.Client.KeyDelivery
import Synergy.Client.MessageLoop
import Synergy.Client.OneAttempt
import Synergy.Clipboard.AssembledClipboards
import Synergy.Clipboard.ClipboardTransfer
import Synergy.Clipboard.HtmlFragments
import Synergy.Clipboard.MultipleAnswers
import Synergy.Clipboard.PropertyTransfer
import Synergy.Clipboard.ReplyStore
import Synergy.Clipboard.UnmarshallBounds
import Synergy.Events.EventIds
import Synergy.Events.TimerRuns
import Synergy.FileTransfer.AssembledFiles
import Synergy.FileTransfer.ChangingFiles
import Synergy.FileTransfer.ReadableTransfer
import Synergy.Gui.PlacedClients
import Synergy.Input.AtomicMapping
import Synergy.Input.GroupIndices
import Synergy.Input.InputValidator
import Synergy.Input.KeptModifiers
import Synergy.Input.KeyState
import Synergy.Input.KeystrokeText
import Synergy.Input.RepeatedKeys
import Synergy.Io.StreamBuffer
import Synergy.Ipc.OneConversation
import Synergy.Ipc.ServedPeers
import Synergy.Net.AddedJobs
import Synergy.Net.AddressGrammar
import Synergy.Net.AuthenticatedBytes
import Synergy.Net.ConnectionAttempts
import Synergy.Net.RealClose
import Synergy.Net.ReceivedData
import Synergy.Net.SecureOutput
import Synergy.Net.TrustedLines
import Synergy.Net.WriteQueue
import Synergy.Platform.EiScreenShape
import Synergy.Platform.IndependentHotKeys
import Synergy.Platform.MSWindowsProcess
import Synergy.Platform.SoundKeyItems
import Synergy.Platform.Win32DropData
import Synergy.Protocol.PacketDelivery
import Synergy.Protocol.ProtocolRoundTrip
import Synergy.Server.AimedSwitch
import Synergy.Server.ClientGeometry
import Synergy.Server.ClientProxyMessages
import Synergy.Server.ClientTable
import Synergy.Server.ClipboardFreshness
import Synergy.Server.ClipboardSecrecy
import Synergy.Server.ClosedProxies
import Synergy.Server.ConfigNames
import Synergy.Server.ConfigSections
import Synergy.Server.ConnectionSlots
import Synergy.Server.FocusSafety
import Synergy.Server.HeartbeatAccounts
import Synergy.Server.HotkeyRegistrations
import Synergy.Server.LayoutEdits
import Synergy.Server.LineSyntax
import Synergy.Server.MirroredEdges
import Synergy.Server.OneScreenEntered
import Synergy.Server.OptionStores
import Synergy.Server.RefusedSwitch
import Synergy.Server.ReloadedOptions
import Synergy.Server.SeparateLinks
import Synergy.Server.Step
import Synergy.Text.SwallowedText
import Synergy.Platform.PortalPositions
import Synergy.Gui.InterruptedMigration
import Synergy.Platform.Watchdog
