import FileTransfer.Lib.Transition
import FileTransfer.Lib.Cyclic
import FileTransfer.Lib.Fairness
import FileTransfer.Lib.Linearization
import FileTransfer.Lib.LittleEndian
import FileTransfer.Lib.StreamCipher
import FileTransfer.Lib.Posix
import FileTransfer.Lib.Noninterference
import FileTransfer.Lib.Inbox
import FileTransfer.Lib.PrefixCode
import FileTransfer.Lib.NamedObjects
import FileTransfer.Lib.DataRefinement
import FileTransfer.Common.Encryption
import FileTransfer.Common.Serializer
import FileTransfer.Common.FrameCodec
import FileTransfer.Common.TaskRun
import FileTransfer.Common.FileDataTransferTask
import FileTransfer.Common.BufferTransferTask
import FileTransfer.FileStream.FileDataReader
import FileTransfer.FileStream.FileDataWriter
import FileTransfer.FileStream.Folders
import FileTransfer.FileStream.SegmentReaders
import FileTransfer.Threads.CircularBuffer
import FileTransfer.Threads.RingInvariant
import FileTransfer.Threads.RingLinearization
import FileTransfer.Threads.RingFidelity
import FileTransfer.Threads.BoundedBuffer
import FileTransfer.Threads.MultiThread
import FileTransfer.Threads.MultiThreadInvariant
import FileTransfer.Threads.BackPressure
import FileTransfer.Threads.Drain
import FileTransfer.Threads.Stall
import FileTransfer.Threads.ConsumerFailure
import FileTransfer.Threads.Termination
import FileTransfer.Threads.Subsequence
import FileTransfer.Threads.SmoothRun
import FileTransfer.MultiProcess.Protocol
import FileTransfer.MultiProcess.Tokens
import FileTransfer.MultiProcess.Access
import FileTransfer.MultiProcess.Shutdown
import FileTransfer.MultiProcess.ReceiverFailure
import FileTransfer.MultiProcess.Delivery
import FileTransfer.MultiProcess.MemoryFailure
import FileTransfer.MultiProcess.Termination
import FileTransfer.MultiProcess.MultiProcessTask
import FileTransfer.MultiProcess.Create
import FileTransfer.MultiProcess.Roles
import FileTransfer.MultiProcess.FreshStart
import FileTransfer.MultiProcess.RefusedStart
import FileTransfer.MultiProcess.RoleTasks
import FileTransfer.MultiProcess.Objects
import FileTransfer.MultiProcess.Preparation
import FileTransfer.MultiProcess.PairCopy
import FileTransfer.MultiProcess.PairDelivery
import FileTransfer.MultiProcess.PairLiveness
import FileTransfer.Network.DataHandler
import FileTransfer.Network.Framing
import FileTransfer.Network.WireFormat
import FileTransfer.Network.Messages
import FileTransfer.Network.Isolation
import FileTransfer.Network.Sessions
import FileTransfer.Network.Transfer
import FileTransfer.Network.TCPClient
import FileTransfer.Network.ClientCalls
import FileTransfer.Network.PromptSends
import FileTransfer.Network.TCPServer
import FileTransfer.Network.ClientFiles
import FileTransfer.Network.Inboxes
import FileTransfer.Network.Uploads
import FileTransfer.Command.ProgramOptions
import FileTransfer.Factory.TaskFactory
import FileTransfer.Network.NetworkTask
import FileTransfer.Network.NetworkCopy
import FileTransfer.Network.NetworkSuccess
import FileTransfer.Factory.Copy
import FileTransfer.Factory.SourceKept
import FileTransfer.Factory.ThreadedCopy
import FileTransfer.Factory.CompletedCopy
import FileTransfer.Factory.FairCopy
