import RtpSender.Foundation.Emitter
import RtpSender.Foundation.RecordStream
import RtpSender.Foundation.RecordReader
import RtpSender.Foundation.Chunks
import RtpSender.Foundation.Delimiter
import RtpSender.Foundation.Split
import RtpSender.Foundation.FixedPoint
import RtpSender.Foundation.History
import RtpSender.Foundation.Conservation
import RtpSender.Foundation.Checked
import RtpSender.Foundation.Throwing
import RtpSender.Foundation.Threads
import RtpSender.Foundation.Binary64
import RtpSender.Session.Wire
import RtpSender.Session.RtpSendingSession
import RtpSender.Session.Fragmentation
import RtpSender.Session.Segmentation
import RtpSender.Session.Bounds
import RtpSender.Session.AccessUnit
import RtpSender.Session.AnnexB
import RtpSender.Session.Splitting
import RtpSender.Session.Emission
import RtpSender.Session.Lifecycle
import RtpSender.Session.Sockets
import RtpSender.Session.Endpoint
import RtpSender.Session.Accounting
import RtpSender.Session.OutOfMemory
import RtpSender.Session.TimeBase
import RtpSender.Session.Conversion
import RtpSender.Session.DoubleArithmetic
import RtpSender.Session.Pacing
import RtpSender.Session.Bandwidth
import RtpSender.Session.Restart
import RtpSender.Session.NtpTime
import RtpSender.Session.Transport
import RtpSender.Session.Reports
import RtpSender.Receiver.Depacketizer
import RtpSender.Receiver.Lossless
import RtpSender.Receiver.OutOfMemory
import RtpSender.Receiver.Fragments
import RtpSender.Receiver.Marker
import RtpSender.Receiver.Timestamps
import RtpSender.Receiver.DoubleTimestamps
import RtpSender.Receiver.WallClock
import RtpSender.Receiver.Gaps
import RtpSender.Receiver.Loss
import RtpSender.Receiver.Connections
import RtpSender.Source.CustomFramedSource
import RtpSender.Source.Exceptions
import RtpSender.Main.Dispatch
import RtpSender.Main.Locking
import RtpSender.Main.Concurrency
import RtpSender.Main.Submissions
import RtpSender.Main.Process
import RtpSender.Main.Resources
import RtpSender.Main.EndToEnd
import RtpSender.Main.Retries
