import CmyMessage.Broadcast.Acceptance
import CmyMessage.Broadcast.Agreement
import CmyMessage.Broadcast.Capacity
import CmyMessage.Broadcast.Departed
import CmyMessage.Broadcast.Initialization
import CmyMessage.Broadcast.Isolation
import CmyMessage.Broadcast.Locks
import CmyMessage.Broadcast.Role
import CmyMessage.Broadcast.Round
import CmyMessage.Broadcast.RoundTrip
import CmyMessage.Broadcast.Scan
import CmyMessage.Broadcast.Succession
import CmyMessage.Broadcast.TotalOrder
import CmyMessage.Broadcast.Transcript
import CmyMessage.ClientMemories
import CmyMessage.Descriptors
import CmyMessage.FileTransfer.Addresses
import CmyMessage.FileTransfer.Buffers
import CmyMessage.FileTransfer.Client
import CmyMessage.FileTransfer.Completion
import CmyMessage.FileTransfer.Confinement
import CmyMessage.FileTransfer.Conversation
import CmyMessage.FileTransfer.Download
import CmyMessage.FileTransfer.InPhase
import CmyMessage.FileTransfer.LineByLine
import CmyMessage.FileTransfer.Names
import CmyMessage.FileTransfer.Process
import CmyMessage.FileTransfer.Receiving
import CmyMessage.FileTransfer.Segmentation
import CmyMessage.FileTransfer.Sending
import CmyMessage.FileTransfer.SessionEnd
import CmyMessage.FileTransfer.Sizes
import CmyMessage.Foundation.AscendingScan
import CmyMessage.Foundation.Block
import CmyMessage.Foundation.BoundedFifo
import CmyMessage.Foundation.CString
import CmyMessage.Foundation.CellChain
import CmyMessage.Foundation.Census
import CmyMessage.Foundation.LabelledSystem
import CmyMessage.Foundation.LockOrder
import CmyMessage.Foundation.Progress
import CmyMessage.Foundation.ReceiveLoop
import CmyMessage.Foundation.Schedule
import CmyMessage.Foundation.SendLoop
import CmyMessage.Foundation.WordMixing
import CmyMessage.HashTable.Buckets
import CmyMessage.HashTable.Cleanup
import CmyMessage.HashTable.Leaks
import CmyMessage.HashTable.Separation
import CmyMessage.Isolation
import CmyMessage.Lifetime
import CmyMessage.Participants
import CmyMessage.ThreadPool.AcceptLoop
import CmyMessage.ThreadPool.Assignment
import CmyMessage.ThreadPool.ClientMemory
import CmyMessage.ThreadPool.Drain
import CmyMessage.ThreadPool.Hosting
import CmyMessage.ThreadPool.MainThread
import CmyMessage.ThreadPool.Shutdown
import CmyMessage.ThreadPool.Stages
import CmyMessage.ThreadPool.Tending
