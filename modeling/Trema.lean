import Trema.Library.Chain
import Trema.Library.Fuel
import Trema.Library.Walk
import Trema.Library.Bytes
import Trema.Library.Layout
import Trema.Library.Region
import Trema.OpenFlow.Protocol
import Trema.OpenFlow.ByteOrder
import Trema.OpenFlow.Blocks
import Trema.OpenFlow.Validate
import Trema.OpenFlow.Checks
import Trema.OpenFlow.Termination
import Trema.OpenFlow.ReadBounds
import Trema.OpenFlow.SwitchInterface
import Trema.OpenFlow.ApplicationInterface
import Trema.OpenFlow.Decode
import Trema.OpenFlow.Tiling
import Trema.OpenFlow.DecodeSafety
import Trema.OpenFlow.Create
import Trema.OpenFlow.Encode
import Trema.OpenFlow.Construction
import Trema.OpenFlow.Creation
import Trema.OpenFlow.Accept
import Trema.OpenFlow.Conformance
import Trema.OpenFlow.Delivery
import Trema.OpenFlow.StatsDelivery
import Trema.OpenFlow.ReplyDelivery
import Trema.Library.Keyed
import Trema.Library.Ranked
import Trema.Table.HashTable
import Trema.Table.Match
import Trema.Table.MatchTable
import Trema.Table.Refinement
import Trema.Table.Runs
import Trema.Table.LinkedHash
import Trema.Table.KeyMap
import Trema.Table.HashWalk
import Trema.Table.Presenting
import Trema.Table.Inclusion
import Trema.Table.LinkedMatch
import Trema.Table.LinkedUpdate
import Trema.PacketinFilter.Filter
import Trema.PacketinFilter.LooseDeletion
import Trema.PacketinFilter.PacketInDelivery
import Trema.SecureChannel.Appending
import Trema.EventForward.ServiceList
import Trema.EventForward.Encoding
import Trema.EventForward.Manipulation
import Trema.EventForward.Entries
import Trema.EventForward.Runs
import Trema.EventForward.Bodies
import Trema.EventForward.RoundTrip
import Trema.EventForward.AllSwitches
import Trema.EventForward.Outcomes
import Trema.EventForward.AtMostOnce
import Trema.EventForward.Successes
import Trema.EventForward.Reports
import Trema.Packet.PacketParser
import Trema.Packet.Ethernet
import Trema.Packet.Layers
import Trema.Packet.Parsing
import Trema.Packet.MatchFromPacket
import Trema.Packet.Normalize
import Trema.Packet.NormalForm
import Trema.Packet.Covering
import Trema.PacketinFilter.Deletion
import Trema.PacketinFilter.Dump
import Trema.PacketinFilter.Reply
import Trema.PacketinFilter.Report
import Trema.Messenger.MessageBuffer
import Trema.Messenger.SendQueue
import Trema.Messenger.Packets
import Trema.Messenger.Delivery
import Trema.Messenger.QueueRun
import Trema.Messenger.Context
import Trema.Messenger.Ledger
import Trema.Messenger.ReceiveQueue
import Trema.Messenger.Renaming
import Trema.Messenger.Receiving
import Trema.Messenger.Service
import Trema.Messenger.EndToEnd
import Trema.Messenger.Timers
import Trema.Messenger.System
import Trema.Messenger.Progress
import Trema.Library.Probe
import Trema.SwitchManager.ListSwitches
import Trema.SwitchManager.XidTable
import Trema.SwitchManager.XidRuns
import Trema.SwitchManager.XidGenerator
import Trema.SwitchManager.CookieTable
import Trema.SwitchManager.CookieSteps
import Trema.SwitchManager.CookieRuns
import Trema.Library.Framing
import Trema.SecureChannel.MessageQueue
import Trema.SecureChannel.Buffer
import Trema.SecureChannel.Receiver
import Trema.SecureChannel.Framing
import Trema.SecureChannel.Sessions
import Trema.SecureChannel.Sender
import Trema.SecureChannel.Connection
import Trema.SecureChannel.Reconnection
import Trema.OpenFlow.Lengths
import Trema.OpenFlow.ErrorMaps
import Trema.OpenFlow.Verdict
import Trema.OpenFlow.Faults
import Trema.OpenFlow.FaultNames
import Trema.OpenFlow.Handling
import Trema.OpenFlow.Contexts
import Trema.OpenFlow.ContextRuns
import Trema.SecureChannel.Incoming
import Trema.SwitchManager.SwitchInfo
import Trema.SwitchManager.OfpmsgRecv
import Trema.SwitchManager.Handlers
import Trema.SwitchManager.Dispatch
import Trema.SwitchManager.CookieEffects
import Trema.SwitchManager.FlowModFailure
import Trema.SwitchManager.Switch
import Trema.SwitchManager.ChannelReads
import Trema.SwitchManager.LateReplies
import Trema.SwitchManager.Frames
import Trema.SwitchManager.Expectations
import Trema.SwitchManager.Shutdown
import Trema.SwitchManager.PeerStreams
import Trema.SwitchManager.Envelopes
import Trema.SwitchManager.FlowTraffic
import Trema.SwitchManager.LiveFlows
import Trema.SwitchManager.Transactions
import Trema.SwitchManager.ReplyEffects
import Trema.SwitchManager.RequestEffects
import Trema.SwitchManager.TransactionRuns
import Trema.SwitchManager.TransactionReplies
import Trema.SwitchManager.TransactionAttribution
import Trema.EventHandler.Registration
import Trema.EventHandler.Dispatch
import Trema.Library.OnesComplement
import Trema.Utility.Checksum
import Trema.Utility.Wrapper
import Trema.Messenger.ByteFifo
import Trema.Library.Heap
import Trema.Buffer.PrivateBuffer
import Trema.Buffer.Ownership
import Trema.Buffer.Sequences
import Trema.Buffer.Histories
import Trema.Library.StableSort
import Trema.Library.Slots
import Trema.Library.LinkedCells
import Trema.Tremashark.Queue
import Trema.Tremashark.QueueShape
import Trema.Tremashark.QueueSort
import Trema.Tremashark.QueueHistories
import Trema.Tremashark.PcapQueue
import Trema.Tremashark.RecordRuns
import Trema.Library.Segments
import Trema.Tremashark.StdinRelay
import Trema.Tremashark.StdinLines
import Trema.OpenFlow.Converters
import Trema.OpenFlow.ConversionPairs
import Trema.OpenFlow.QueueConversions
import Trema.Library.Getopt
import Trema.Library.GetoptRuns
import Trema.Startup.ParseArgv
import Trema.Startup.Remainder
import Trema.Startup.StandardOptions
import Trema.Library.Numeral
import Trema.Startup.CommandLine
import Trema.Startup.TremaName
import Trema.Library.Schedule
import Trema.Timer.Order
import Trema.Timer.Passes
import Trema.Timer.Runs
import Trema.Library.DoublyLinked
import Trema.Utility.DoublyLinkedList
import Trema.Controllers.Forwarding
import Trema.Controllers.LearningSwitch
import Trema.Controllers.MultiLearningSwitch
import Trema.Management.Interface
import Trema.Management.Requests
import Trema.Management.ShowStats
import Trema.Timer.LinkedRefinement
import Trema.Utility.DlistRuns
