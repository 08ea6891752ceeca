import CwKeyer.Projection
import CwKeyer.Brackets
import CwKeyer.Remote.Client
import CwKeyer.Remote.Steps
import CwKeyer.Remote.Bracketing
import CwKeyer.Remote.Release
import CwKeyer.Remote.Stop
import CwKeyer.Remote.KeyDown
import CwKeyer.Remote.Lifecycle
import CwKeyer.Remote.Commands
import CwKeyer.Waiting
import CwKeyer.Remote.Wakeups
import CwKeyer.Keyer.Basic
import CwKeyer.Keyer.Steady
import CwKeyer.Keyer.Iambic
import CwKeyer.Keyer.Memory
import CwKeyer.Keyer.Threads
import CwKeyer.Keyer.Retire
import CwKeyer.Keyer.Wakeup
import CwKeyer.Paddle.Events
import CwKeyer.Paddle.UsbDevice
import CwKeyer.Paddle.KeyboardListener
import CwKeyer.Paddle.EitherKey
import CwKeyer.Paddle.Detection
import CwKeyer.RbTree
import CwKeyer.Paddle.DeviceSet
import CwKeyer.Paddle.Loss
import CwKeyer.Paddle.Reports
import CwKeyer.Paddle.Transfers
import CwKeyer.Paddle.Reader
import CwKeyer.Segments
import CwKeyer.Decoder.CwDecoder
import CwKeyer.Decoder.Conservation
import CwKeyer.Decoder.Spaces
import CwKeyer.Decoder.Segmentation
import CwKeyer.Decoder.StandardText
import CwKeyer.Decoder.LetterSpace
import CwKeyer.Platform
import CwKeyer.WebSocket
import CwKeyer.Remote.Frame
import CwKeyer.Remote.Stream
import CwKeyer.Find
import CwKeyer.Remote.Handshake
import CwKeyer.Remote.Upgrade
import CwKeyer.Base64
import CwKeyer.Remote.Base64
import CwKeyer.Serial.Lines
import CwKeyer.Serial.SerialComm
import CwKeyer.Serial.Barrier
import CwKeyer.Serial.DtrLine
import CwKeyer.Serial.N1MMProxy
import CwKeyer.Serial.Undo
import CwKeyer.Serial.StraightKey
import CwKeyer.Serial.Requests
import CwKeyer.Serial.AtRest
import CwKeyer.Serial.Wakeups
import CwKeyer.Ranks
import CwKeyer.Serial.SerialPorts
import CwKeyer.Meets
import CwKeyer.Gui.Configuration
import CwKeyer.Gui.Updates
import CwKeyer.Gui.GuiConnector
import CwKeyer.Gui.Steps
import CwKeyer.Gui.Setters
import CwKeyer.Gui.Boot
import CwKeyer.Gui.CurrentSettings
import CwKeyer.Persisted
import CwKeyer.Gui.Book
import CwKeyer.Gui.Loading
import CwKeyer.Gui.Simulation
import CwKeyer.Gui.CommPorts
import CwKeyer.Gui.Speeds
import CwKeyer.Gui.Kept
import CwKeyer.Gui.Sessions
import CwKeyer.Gui.SavedPort
import CwKeyer.Gui.PaddleInput
import CwKeyer.Gui.Adapter
import CwKeyer.Gui.KeyboardOutput
import CwKeyer.Station.Station
import CwKeyer.Station.Outputs
import CwKeyer.Station.Keyed
import CwKeyer.Station.Marks
import CwKeyer.Station.Letters
import CwKeyer.Ramps
import CwKeyer.Sound.CwGenerator
import CwKeyer.Sound.Tone
import CwKeyer.Sound.Clicks
import CwKeyer.Sound.Sound
import CwKeyer.Sound.Buffer
import CwKeyer.Sound.Silence
import CwKeyer.Sound.Written
import CwKeyer.Sound.Player
import CwKeyer.Sound.Sidetone
import CwKeyer.Sound.OneVoice
import CwKeyer.Sound.KeyUp
