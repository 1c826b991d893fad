import L2Switch.Histories
import L2Switch.RwLocks
import L2Switch.TwoWayTables
import L2Switch.WrappingMachine
import L2Switch.ByteMemory
import L2Switch.RequestReply
import L2Switch.NumberText
import L2Switch.RadixText
import L2Switch.CStrings
import L2Switch.Sieves
import L2Switch.CharPatterns
import L2Switch.BitRuns
import L2Switch.Json
import L2Switch.Addresses
import L2Switch.MacText
import L2Switch.RoutingTable
import L2Switch.RoutingHistory
import L2Switch.RoutingLocks
import L2Switch.MbufData
import L2Switch.MbufRuns
import L2Switch.MbufRefinement
import L2Switch.MbufSafety
import L2Switch.FromBytes
import L2Switch.PacketHeaders
import L2Switch.ProcessPackets
import L2Switch.WireFormat
import L2Switch.PortTransmit
import L2Switch.MempoolReturns
import L2Switch.DpdkRings
import L2Switch.RingChannel
import L2Switch.RingExchange
import L2Switch.SendAccount
import L2Switch.EngineRegistry
import L2Switch.RegistryHistory
import L2Switch.RingNames
import L2Switch.ClientIds
import L2Switch.DataPlane
import L2Switch.RingOwnership
import L2Switch.EngineMessages
import L2Switch.MessageJournal
import L2Switch.ContainerMessages
import L2Switch.MessageIntake
import L2Switch.ClientSends
import L2Switch.ReceiveLoop
import L2Switch.ReceiveRuns
import L2Switch.WorkHorse
import L2Switch.EalArguments
import L2Switch.CoreList
import L2Switch.PortDevices
import L2Switch.PortBuilding
import L2Switch.PortQueues
import L2Switch.QueueCapacities
import L2Switch.CidrRanges
import L2Switch.CidrPrefixes
import L2Switch.CidrIteration
import L2Switch.CidrText
import L2Switch.LastRequest
import L2Switch.RegistrationProtocol
import L2Switch.StrandedPackets
import L2Switch.MbufPools
import L2Switch.ReceiveTurns
import L2Switch.RoutingStall
import L2Switch.WorkHorses
import L2Switch.CidrNesting
import L2Switch.MbufLayers
import L2Switch.EalCommandLine
import L2Switch.PortPools
import L2Switch.Learning
import L2Switch.MeetingPoints
import L2Switch.Rendezvous
import L2Switch.CidrHalves
import L2Switch.PacketViews
import L2Switch.ClientIsolation
import L2Switch.LearntTables
