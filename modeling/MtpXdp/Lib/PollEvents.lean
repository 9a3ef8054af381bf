import MtpXdp.Core.Run
import MtpXdp.Lib.Receive

/-!
# The Event Array of a Poll

`eTran_tcp_poll_events` stores the events of received packets and of messages from the kernel into
the caller's array. Its size is the budget of packets, but packets of one connection may bring two
events, and the bound of `process_tcp_kernel_events` only ends a call: without a timeout the loop
around it goes on until the channel is empty.
-/

namespace MtpXdp.Lib

open MtpXdp.Core Ebpf List

/-! ## Messages from the kernel -/

inductive KernelMsg where
  | newconn
  | accept (status : U32)
  | open (status : U32)
  | statusListen
  | statusBind
  | statusClose
  | unknown

inductive EventType where
  | recved
  | sendbuf
  | listenNewconn
  | listenAccept
  | connOpen
  | listenOpen
  | connBind
  | connClose
deriving DecidableEq

def KernelMsg.events : KernelMsg → List EventType
  | .newconn => [.listenNewconn]
  | .accept _ => [.listenAccept]
  | .open status => if status = 1#32 then [.connOpen, .sendbuf] else [.connOpen]
  | .statusListen => [.listenOpen]
  | .statusBind => [.connBind]
  | .statusClose => [.connClose]
  | .unknown => []

/-- The loop of `process_tcp_kernel_events`: what is stored, and the messages left in the
    channel. -/
def kernelLoop (maxEvents : Int) : List KernelMsg → List EventType → List EventType × List KernelMsg
  | [], evs => (evs, [])
  | m :: ms, evs =>
    if maxEvents ≤ (evs ++ m.events).length then (evs ++ m.events, ms)
    else kernelLoop maxEvents ms (evs ++ m.events)

def drain (maxEvents : Int) : Nat → List KernelMsg → List EventType → Option (List EventType)
  | _, [], evs => some evs
  | 0, _ :: _, _ => none
  | fuel + 1, m :: ms, evs =>
    let r := kernelLoop (maxEvents - evs.length) (m :: ms) []
    drain maxEvents fuel r.2 (evs ++ r.1)

def EtranEvent.type : EtranEvent → EventType
  | .connRecved _ => .recved
  | .connSendbuf _ => .sendbuf

/-! ## Packets -/

def rxBatchSize : Nat := 32

/-- The calls of `handle_rx` for a batch; the events are those of the batch only. -/
def nicBatch (s : Thread) (pkts : List (U64 × RxPkt)) : Thread :=
  run rxStep { s with locals := default, retEvents := [] } (pollSteps pkts)

/-- A descriptor from `libc_epoll_wait`: that of the channel, with the messages that came since the
    last look, or that of a queue with the packets in its ring. -/
inductive Ready where
  | evfd (arrived : List KernelMsg)
  | queue (qidx : Nat) (ring : List (U64 × RxPkt))

structure EpollPoll where
  thread : Thread
  deficit : Nat → Nat
  channel : List KernelMsg
  events : List EventType
  quantum : Nat

def EpollPoll.handle (budget nfds : Nat) (st : EpollPoll) : Ready → EpollPoll
  | .evfd arrived =>
    let r := kernelLoop (budget - st.events.length) (st.channel ++ arrived) []
    { st with
      channel := r.2
      events := st.events ++ r.1
      quantum := if 1 < nfds then budget / (nfds - 1) else st.quantum }
  | .queue qidx ring =>
    let deficit := st.deficit qidx + st.quantum
    let pkts := ring.take (min deficit rxBatchSize)
    let t := nicBatch st.thread pkts
    { st with
      thread := t
      events := st.events ++ t.retEvents.map EtranEvent.type
      deficit := Function.update st.deficit qidx
        (if pkts ≠ [] ∧ pkts.length = ring.length then 0 else deficit - pkts.length) }

/-- What a call finds, without a timeout and with one. -/
inductive Poll where
  | busy (rings : List (List (U64 × RxPkt))) (msgs : List KernelMsg)
  | epoll (deficit : Nat → Nat) (msgs : List KernelMsg) (ready : Option (List Ready))

section

variable {s : Thread} {addr : U64} {p : RxPkt}

end

section

variable (maxEvents : Int) (ms : List KernelMsg) (evs : List EventType)

end

end MtpXdp.Lib
