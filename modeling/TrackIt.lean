import TrackIt.Lib.Search
import TrackIt.Lib.Run
import TrackIt.Lib.Loop
import TrackIt.Lib.Layout
import TrackIt.Lib.LittleEndian
import TrackIt.Lib.Digits
import TrackIt.Lib.Reader
import TrackIt.Lib.Overwrite
import TrackIt.Lib.Packer
import TrackIt.Lib.Double
import TrackIt.Lib.Decimal
import TrackIt.Lib.Mailbox
import TrackIt.Lib.Subscriber
import TrackIt.Lib.Encoder
import TrackIt.Framer.Buffer
import TrackIt.Framer.Parser
import TrackIt.Framer.Tokenizer
import TrackIt.Framer.Events
import TrackIt.Framer.Messages
import TrackIt.Framer.Chunking
import TrackIt.Framer.Task
import TrackIt.Framer.Resync
import TrackIt.Framer.Passes
import TrackIt.Framer.Machine
import TrackIt.Framer.Stale
import TrackIt.Framer.Drain
import TrackIt.Telemetry.Parser
import TrackIt.Telemetry.Pipeline
import TrackIt.Telemetry.Latest
import TrackIt.Telemetry.Dop
import TrackIt.Persist.Save
import TrackIt.Persist.Restore
import TrackIt.Persist.NavData
import TrackIt.Persist.LastPos
import TrackIt.Persist.RoundTrip
import TrackIt.Persist.Export
import TrackIt.Persist.Engine
import TrackIt.Startup.Order
import TrackIt.Gatt.AccessCb
import TrackIt.Gatt.Link
import TrackIt.Gatt.Client
import TrackIt.Gatt.DateTime
import TrackIt.Gatt.TimeHint
import TrackIt.Gatt.HumanText
import TrackIt.Led.Strip
import TrackIt.Led.Wire
import TrackIt.Led.StatusLed
import TrackIt.System.UbxQueue
import TrackIt.System.Pipeline
import TrackIt.System.Clients
import TrackIt.System.Settling
import TrackIt.System.Reboot
