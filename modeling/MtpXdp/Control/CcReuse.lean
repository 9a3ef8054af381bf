import MtpXdp.Ebpf.Flow
import MtpXdp.Control.Kernel

/-!
# Reuse of a Congestion-Control Index

`unreg_tcp_conn_ebpf` leaves the `bpf_cc` entry of a connection as it is, and `reg_tcp_conn_ebpf`
sets all of it but `txp` and the stored timer event, which the next owner inherits.
-/

namespace MtpXdp.Control

open MtpXdp.Core Ebpf Kernel

structure CcOwner where
  flow : Flow
  conn : TcpConnection
  polled : List (Option Polled)

inductive CcEvent where
  | register (c : TcpConnection) (listen : Bool)
  | flow (e : FlowEvent)
  | poll (currTsc : U64)

def initCc (entry : BpfCc) : BpfCc :=
  { entry with
    prevDesiredTxTs := 0#64
    rate := 500000#32
    cntTxDrops := 0#16
    cntRxAcks := 0#16
    cntRxAckBytes := 0#32
    cntRxEcnBytes := 0#32
    rttEst := 0#32 }

def ccOwnerStep (cfg : Config) (toUs : U64 → U32) (idx : U32) (s : CcOwner) : CcEvent → CcOwner
  | .register c listen =>
    { flow := { c := (ebpfConn cfg c listen idx).conn, cc := initCc s.flow.cc }
      conn := withCc idx c
      polled := [] }
  | .flow e => { s with flow := flowStep s.flow e }
  | .poll currTsc =>
    let r := pollMtp toUs s.conn ⟨currTsc, s.flow.cc, true⟩
    { flow := { s.flow with
        cc := { s.flow.cc with rate := (r.map Polled.rate).getD s.flow.cc.rate } }
      conn := (r.map Polled.conn).getD s.conn
      polled := s.polled ++ [r] }

theorem initCc_eq_iff {entry entry' : BpfCc} : initCc entry = initCc entry' ↔
    entry.txp = entry'.txp ∧ entry.currTsc = entry'.currTsc := by
  simp [initCc]

section

variable (cfg : Config) (toUs : U64 → U32) (idx : U32)

theorem reused_index_iff (s s' : CcOwner) (hist hist' : List CcEvent) (c : TcpConnection)
    (listen : Bool) :
    (∀ es, run (ccOwnerStep cfg toUs idx) s (hist ++ .register c listen :: es) =
        run (ccOwnerStep cfg toUs idx) s' (hist' ++ .register c listen :: es)) ↔
      (run (ccOwnerStep cfg toUs idx) s hist).flow.cc.txp =
          (run (ccOwnerStep cfg toUs idx) s' hist').flow.cc.txp ∧
        (run (ccOwnerStep cfg toUs idx) s hist).flow.cc.currTsc =
          (run (ccOwnerStep cfg toUs idx) s' hist').flow.cc.currTsc := by
  simp only [run_append, run_cons]
  generalize run (ccOwnerStep cfg toUs idx) s hist = s
  generalize run (ccOwnerStep cfg toUs idx) s' hist' = s'
  rw [← initCc_eq_iff]
  constructor
  · intro h
    exact congrArg (fun s => s.flow.cc) (h [])
  · intro h es
    rw [ccOwnerStep, ccOwnerStep, h]

end

def unackedSegment : List CcEvent := [.register default false, .flow (.send 100#32 default)]

theorem reused_index_leaks :
    let after (hist : List CcEvent) : CcOwner :=
      run (ccOwnerStep Site.nic.cfg Site.nic.toUs 0#32) ⟨default, default, []⟩
        (hist ++ [.register freshConn false, .poll 2000000#64])
    (after unackedSegment).flow.cc.txp ≠ (after []).flow.cc.txp ∧
      (after unackedSegment).conn.cntTxPending ≠ (after []).conn.cntTxPending := by
  decide +kernel

end MtpXdp.Control
