import Ffado.Lib.ChunkedTransfer
import Ffado.Lib.Decoding
import Ffado.Lib.CircularMemory
import Ffado.Lib.Crc
import Ffado.Lib.LabelledRun
import Ffado.Lib.Ledger
import Ffado.Lib.Lockstep
import Ffado.Lib.MachineInt
import Ffado.Lib.Postcondition
import Ffado.Lib.SharedProgram
import Ffado.Lib.Stores
import Ffado.Lib.TransferPlan
import Ffado.Lib.WrappedTime
import Ffado.Lib.WrappingLoop
import Ffado.Ieee1394.CycleTimer
import Ffado.Ieee1394.IsoHandler
import Ffado.Ieee1394.IsoResources
import Ffado.Ieee1394.IsoHandlerStart
import Ffado.Ieee1394.FcpTransaction
import Ffado.Ieee1394.PacketTime
import Ffado.Util.ByteSwap
import Ffado.Util.CmdSerialize
import Ffado.Util.CommandCodec
import Ffado.Util.ResponseReads
import Ffado.Util.Ringbuffer
import Ffado.Util.RingbufferThreads
import Ffado.Util.TimestampedBuffer
import Ffado.Util.TimestampRing
import Ffado.Util.BlockTransfer
import Ffado.Util.BlockRefinement
import Ffado.Util.FrameAccounting
import Ffado.Util.IpcRingBuffer
import Ffado.Streaming.StreamProcessor
import Ffado.Streaming.BufferMode
import Ffado.Streaming.StateChange
import Ffado.Streaming.SharedProcessor
import Ffado.Streaming.CallbackInvariant
import Ffado.Streaming.ManagerSession
import Ffado.Streaming.Readiness
import Ffado.Streaming.TransferFailure
import Ffado.Streaming.PeriodTransfer
import Ffado.Streaming.AmdtpTransmit
import Ffado.Streaming.BlockCounter
import Ffado.Streaming.ReceivePackets
import Ffado.Streaming.OxfordReceive
import Ffado.Streaming.AmdtpPorts
import Ffado.Streaming.Alignment
import Ffado.Streaming.AudioEvents
import Ffado.Streaming.VectorEncode
import Ffado.Streaming.EventSlots
import Ffado.Streaming.AmdtpMidiReceive
import Ffado.Streaming.MidiSession
import Ffado.Avc.InfoBlock
import Ffado.Avc.TrailingBlocks
import Ffado.Avc.MusicDescriptor
import Ffado.Avc.MusicWire
import Ffado.Avc.MusicFraming
import Ffado.Avc.MusicRoundTrip
import Ffado.Dice.Registers
import Ffado.Dice.Eap
import Ffado.Dice.StreamControl
import Ffado.Fireworks.Flash
import Ffado.Fireworks.FlashWrite
import Ffado.Fireworks.FlashRead
import Ffado.Fireworks.FlashErase
import Ffado.Bebob.Bcd
import Ffado.Rme.Fireface
import Ffado.Rme.SettingsRoundTrip
import Ffado.Rme.Mixer
import Ffado.Lib.CallLog
import Ffado.Devices.StartStreaming
import Ffado.Devices.Locking
import Ffado.Motu.Sph
import Ffado.Lib.PathStore
import Ffado.Avc.PlugCache
import Ffado.Avc.PlugCacheRoundTrip
import Ffado.Avc.DescriptorLoad
import Ffado.Avc.RepeatedParse
import Ffado.Avc.AudioDescriptor
import Ffado.Avc.DescriptorReload
import Ffado.Avc.PlugAddress
import Ffado.Avc.StreamFormat
import Ffado.Avc.StreamFormatRoundTrip
import Ffado.Avc.PlugInfo
import Ffado.Avc.PlugInfoRoundTrip
import Ffado.Avc.FrameReads
import Ffado.Avc.TruncatedResponses
import Ffado.Avc.FunctionBlock
import Ffado.Avc.FunctionBlockAnswers
import Ffado.Lib.XmlEvents
import Ffado.Util.XmlCache
import Ffado.Util.XmlTree
import Ffado.Util.XmlPaths
import Ffado.Util.CacheStrings
import Ffado.Util.CacheIntegers
import Ffado.Lib.ObjectHeap
import Ffado.Avc.Clone
import Ffado.Avc.CloneFaithful
import Ffado.Ieee1394.ShadowMap
import Ffado.Ieee1394.StreamRegistry
import Ffado.Dice.Windows
import Ffado.Dice.Ownership
import Ffado.Dice.RoutingByName
import Ffado.Fireworks.SessionSave
import Ffado.Rme.FlashTransfers
import Ffado.Util.DeviceSettings
import Ffado.Fireworks.PolledValues
import Ffado.Dice.RouterQueries
import Ffado.Fireworks.SessionCrc
import Ffado.Fireworks.FirmwareImage
import Ffado.Devices.DeviceStringParser
import Ffado.Avc.PlugConnections
import Ffado.Streaming.StateWaits
import Ffado.Streaming.PortManager
