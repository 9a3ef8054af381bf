import MtpXdp.Common.BufferConservation
import MtpXdp.Common.LrpcFifo
import MtpXdp.Control.AppIsolation
import MtpXdp.Control.AppResources
import MtpXdp.Control.Backlog
import MtpXdp.Control.CcReuse
import MtpXdp.Control.Checksums
import MtpXdp.Control.Dctcp
import MtpXdp.Control.HandshakeAgreement
import MtpXdp.Control.Identity
import MtpXdp.Control.LossIntervals
import MtpXdp.Control.References
import MtpXdp.Control.SlowPath
import MtpXdp.Control.Steering
import MtpXdp.Control.SynackRecovery
import MtpXdp.Control.TcpOptions
import MtpXdp.Control.Teardown
import MtpXdp.Ebpf.AckQueue
import MtpXdp.Ebpf.Acknowledgements
import MtpXdp.Ebpf.DuplicateAcks
import MtpXdp.Ebpf.IpChecksum
import MtpXdp.Ebpf.Pacing
import MtpXdp.Ebpf.PendingFlag
import MtpXdp.Ebpf.RttSampling
import MtpXdp.Ebpf.TimeoutGoBack
import MtpXdp.Ebpf.WheelOccupancy
import MtpXdp.Ebpf.WheelOrder
import MtpXdp.Homa.Completion
import MtpXdp.Homa.DeadAcks
import MtpXdp.Homa.GrantOffsets
import MtpXdp.Homa.IncomingBytes
import MtpXdp.Homa.NicQueue
import MtpXdp.Homa.PacerWakeup
import MtpXdp.Homa.Priorities
import MtpXdp.Homa.QueueIds
import MtpXdp.Homa.Timer
import MtpXdp.Lib.BufferOwnership
import MtpXdp.Lib.Delivery
import MtpXdp.Lib.EpollRuns
import MtpXdp.Lib.GoBack
import MtpXdp.Lib.PollEvents
import MtpXdp.Lib.ReadExact
import MtpXdp.Lib.TrimAgreement
import MtpXdp.Lib.TxAccounting
import MtpXdp.Lib.WindowConservation
import MtpXdp.Rpc.FillRing
import MtpXdp.Rpc.HandledOnce
import MtpXdp.Rpc.ReapOnce
import MtpXdp.Rpc.Segmentation
