import SfDaqBuffer.Assembler.Intersection
import SfDaqBuffer.Recv.Published
import SfDaqBuffer.SfWriter.SlotProtocol
import SfDaqBuffer.CoreBuffer.RamBuffer
import SfDaqBuffer.CoreBuffer.RamStore
import SfDaqBuffer.UdpRecv.Header
import SfDaqBuffer.CoreBuffer.Assemble
import SfDaqBuffer.LivePath.AnnounceAfterWrite
import SfDaqBuffer.Lib.Multiples
import SfDaqBuffer.SfWriter.Hdf5
import SfDaqBuffer.SfWriter.JFH5Writer
import SfDaqBuffer.SfWriter.Alignment
import SfDaqBuffer.SfWriter.Progress
import SfDaqBuffer.BufferWriter.Reports
import SfDaqBuffer.DiskBuffer.RoundTrip
import SfDaqBuffer.BufferWriter.Integrity
import SfDaqBuffer.BufferWriter.BufferBinaryWriter
import SfDaqBuffer.DiskBuffer.Contents
import SfDaqBuffer.BufferWriter.Main
import SfDaqBuffer.Lib.Agreement
import SfDaqBuffer.SfUtils.BinaryBufferReader
import SfDaqBuffer.SfUtils.GoodImage
import SfDaqBuffer.LiveWriter.Messages
import SfDaqBuffer.SfStream.Pairing
import SfDaqBuffer.JfjRecv.RamImage
import SfDaqBuffer.Lib.Actions
import SfDaqBuffer.LiveWriter.JFH5Writer
import SfDaqBuffer.SfStream.Main
import SfDaqBuffer.UdpRecv.LossyStream
import SfDaqBuffer.LiveWriter.Statistics
import SfDaqBuffer.UdpRecv.FullCount
import SfDaqBuffer.Recv.CopyBounds
import SfDaqBuffer.UdpRecv.Overwritten
import SfDaqBuffer.SfWriter.BlockReads
import SfDaqBuffer.SfWriter.Main
import SfDaqBuffer.SfWriter.WriteChecks
import SfDaqBuffer.SfWriter.BlockHistory
import SfDaqBuffer.UdpRecv.FrameGroups
import SfDaqBuffer.UdpRecv.GroupCalls
import SfDaqBuffer.UdpRecv.Datagrams
import SfDaqBuffer.JfjRecv.Queue
import SfDaqBuffer.SfUtils.Addressing
import SfDaqBuffer.SfWriter.Layout
import SfDaqBuffer.SfWriter.Reservation
import SfDaqBuffer.SfWriter.RangeCheck
import SfDaqBuffer.Assembler.LostCount
import SfDaqBuffer.BufferWriter.FileState
import SfDaqBuffer.LiveWriter.RunIsolation
import SfDaqBuffer.DiskBuffer.Clients
import SfDaqBuffer.SfWriter.Program
import SfDaqBuffer.SfWriter.Export
import SfDaqBuffer.SfWriter.Sequential
import SfDaqBuffer.Lib.Fairness
import SfDaqBuffer.SfWriter.Termination
import SfDaqBuffer.SfWriter.ExportedFile
import SfDaqBuffer.SfUtils.VerifyH5DataConsistency
import SfDaqBuffer.Lib.Traces
import SfDaqBuffer.LivePath.Senders
import SfDaqBuffer.LivePath.Announcements
import SfDaqBuffer.LivePath.Images
import SfDaqBuffer.Detector.System
import SfDaqBuffer.Detector.Persisted
import SfDaqBuffer.Detector.Exported
import SfDaqBuffer.Assembler.Waiting
import SfDaqBuffer.Assembler.Recovery
import SfDaqBuffer.LivePath.Liveness
import SfDaqBuffer.SfStream.Delivered
