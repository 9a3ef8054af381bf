import Mathlib.Tactic.Linarith
import MtpXdp.Core.Run
import MtpXdp.Core.Store
import MtpXdp.Ebpf.State

/-!
# Epoll of the Library

The readiness notification of `lib/socket.cc`. An item registers a socket with an epoll instance. It
is reachable from the socket through `epoll_items`, and from the epoll through its active or its
inactive list.

* The objects live in heaps; an address is not handed out again after `delete`.
* `std::map<int, T *>` is an ordered map; `emplace` leaves an existing entry alone.
* A read of a freed object, a second `delete` and a failing `assert` end the run (`none`).
* One thread calls the functions, so all objects carry its `tctx`.
* What `socket_tcp_poll`, the libc calls and the OS answer are arguments.
-/

namespace MtpXdp.Lib.Epoll

open MtpXdp.Core Ebpf Function

/-! ## Objects -/

abbrev FdMap := Std.TreeMap Nat Nat

inductive Protocol where
  | tcp
  | homa
deriving DecidableEq

structure EtranEpollItem where
  epoll : Nat
  socket : Nat
  interestEvents : U32
  data : U64
deriving DecidableEq

structure EtranSocket where
  fd : Nat
  protocol : Protocol
  epollEvents : U32
  epollItems : FdMap

structure EtranEpoll where
  epfd : Nat
  inactiveList : FdMap
  activeList : FdMap
  numLinux : Int
  numEtran : Int
  linuxFirst : Bool

inductive FileHandle where
  | unused
  | socket (p : Nat)
  | epoll (p : Nat)

structure EpollState where
  fds : Nat → FileHandle
  sockets : Heap EtranSocket
  epolls : Heap EtranEpoll
  items : Heap EtranEpollItem
  osOpen : Nat → Bool

def EpollState.init : EpollState where
  fds _ := .unused
  sockets := .empty
  epolls := .empty
  items := .empty
  osOpen _ := false

structure EpollEvent where
  events : U32
  data : U64
deriving DecidableEq

def epollMask : U32 := 0x1#32 ||| 0x4#32 ||| 0x10#32 ||| 0x80000000#32 ||| 0x40000000#32 ||| 0x8#32

def ebadf : Int := 9
def einval : Int := 22
def eexist : Int := 17
def enoent : Int := 2

namespace EpollState

/-! ## Descriptors -/

def lookupEpollWithFd (s : EpollState) (fd : Nat) : Option Nat :=
  match s.fds fd with
  | .epoll p => some p
  | _ => none

def lookupSocketWithFd (s : EpollState) (fd : Nat) : Option Nat :=
  match s.fds fd with
  | .socket p => some p
  | _ => none

/-- `alloc_socket_fd` with the descriptor that `eventfd` returned. The OS returns no open one. -/
def socket (s : EpollState) (fd : Nat) (protocol : Protocol) : EpollState :=
  if s.osOpen fd then s
  else
    { s with
      fds := update s.fds fd (.socket s.sockets.next)
      sockets := s.sockets.alloc
        { fd := fd, protocol := protocol, epollEvents := 0#32, epollItems := ∅ }
      osOpen := update s.osOpen fd true }

/-- `eTran_epoll_create1`. Its constructor does not set `linux_first`. -/
def epollCreate1 (s : EpollState) (fd : Nat) (linuxFirst : Bool) : EpollState :=
  if s.osOpen fd then s
  else
    { s with
      fds := update s.fds fd (.epoll s.epolls.next)
      epolls := s.epolls.alloc
        { epfd := fd, inactiveList := ∅, activeList := ∅, numLinux := 0, numEtran := 0
          linuxFirst := linuxFirst }
      osOpen := update s.osOpen fd true }

end EpollState

/-! ## Readiness -/

def EtranEpoll.activate (ep : EtranEpoll) (fd i : Nat) : EtranEpoll :=
  { ep with
    activeList := ep.activeList.insertIfNew fd i
    inactiveList := ep.inactiveList.erase fd }

/-- As in `eTran_epoll_wait`: erased by the list's key, filed under the socket's own descriptor. -/
def EtranEpoll.deactivate (ep : EtranEpoll) (key fd i : Nat) : EtranEpoll :=
  { ep with
    activeList := ep.activeList.erase key
    inactiveList := ep.inactiveList.insertIfNew fd i }

namespace EpollState

def clearEpollEvents (s : EpollState) (p : Nat) (events : U32) : Option EpollState :=
  match s.sockets.cells p with
  | none => none
  | some _ =>
    some { s with sockets := s.sockets.modify p fun so =>
      { so with epollEvents := so.epollEvents &&& ~~~events } }

def wakeItem (fd : Nat) (newEvents : U32) (s : EpollState) (i : Nat) : Option EpollState :=
  match s.items.cells i with
  | none => none
  | some it =>
    if it.interestEvents &&& newEvents = 0#32 then some s
    else
      match s.epolls.cells it.epoll with
      | none => none
      | some ep =>
        if ep.activeList[fd]? = none then
          some { s with epolls := s.epolls.modify it.epoll fun ep => ep.activate fd i }
        else some s

def setEpollEvents (s : EpollState) (p : Nat) (events : U32) : Option EpollState :=
  match s.sockets.cells p with
  | none => none
  | some so =>
    let newEvents := ~~~so.epollEvents &&& events
    if newEvents = 0#32 then some s
    else
      let s := { s with sockets := s.sockets.modify p fun so =>
        { so with epollEvents := so.epollEvents ||| events } }
      (so.epollItems.toList.map Prod.snd).foldlM (wakeItem so.fd newEvents) s

end EpollState

/-- What the handling of one event by `socket_tcp_poll` does to a socket's readiness. -/
inductive Readiness where
  | set (fd : Nat) (events : U32)
  | clear (fd : Nat) (events : U32)

namespace EpollState

/-- One event of `socket_tcp_poll`. An event for a descriptor that is no socket is passed over. -/
def ready (s : EpollState) (r : Readiness) : Option EpollState :=
  match r with
  | .set fd events =>
    match s.lookupSocketWithFd fd with
    | none => some s
    | some p => s.setEpollEvents p events
  | .clear fd events =>
    match s.lookupSocketWithFd fd with
    | none => some s
    | some p => s.clearEpollEvents p events

def socketTcpPoll (s : EpollState) (polled : List Readiness) : Option EpollState :=
  polled.foldlM ready s

end EpollState

/-! ## `eTran_epoll_ctl` -/

inductive CtlOp where
  | add
  | mod
  | del
  | other
deriving DecidableEq

def EtranEpoll.add (ep : EtranEpoll) (fd i : Nat) (hasEvents : Bool) : EtranEpoll :=
  let ep := { ep with inactiveList := ep.inactiveList.insertIfNew fd i }
  let ep := if hasEvents then ep.activate fd i else ep
  { ep with numEtran := ep.numEtran + 1 }

def EtranEpoll.remove (ep : EtranEpoll) (fd : Nat) : EtranEpoll :=
  let ep :=
    if ep.inactiveList[fd]? ≠ none then { ep with inactiveList := ep.inactiveList.erase fd }
    else { ep with activeList := ep.activeList.erase fd }
  { ep with numEtran := ep.numEtran - 1 }

namespace EpollState

def ctlAdd (s : EpollState) (e : Nat) (ep : EtranEpoll) (epfd p : Nat) (so : EtranSocket) (fd : Nat)
    (event : EpollEvent) : Option (EpollState × Int) :=
  if event.events &&& ~~~epollMask ≠ 0#32 then some (s, -einval)
  else if so.epollItems[epfd]? ≠ none then some (s, -eexist)
  else
    let i := s.items.next
    let s := { s with
      items := s.items.alloc
        { epoll := e, socket := p, interestEvents := event.events, data := event.data }
      sockets := s.sockets.modify p fun so =>
        { so with epollItems := so.epollItems.insertIfNew epfd i } }
    -- the two assertions
    if ep.inactiveList[fd]? ≠ none then none
    else if so.epollEvents &&& event.events ≠ 0#32 ∧ ep.activeList[fd]? ≠ none then none
    else
      let hasEvents := decide (so.epollEvents &&& event.events ≠ 0#32)
      some ({ s with epolls := s.epolls.modify e fun ep => ep.add fd i hasEvents }, 0)

def ctlMod (s : EpollState) (e : Nat) (ep : EtranEpoll) (epfd : Nat) (so : EtranSocket) (fd : Nat)
    (event : EpollEvent) : Option (EpollState × Int) :=
  if event.events &&& ~~~epollMask ≠ 0#32 then some (s, -einval)
  else
    match so.epollItems[epfd]? with
    | none => some (s, -enoent)
    | some i =>
      match s.items.cells i with
      | none => none
      | some _ =>
        let s := { s with items := s.items.modify i fun it =>
          { it with interestEvents := event.events } }
        if so.epollEvents &&& event.events ≠ 0#32 ∧ ep.activeList[fd]? = none then
          some ({ s with epolls := s.epolls.modify e fun ep => ep.activate fd i }, 0)
        else some (s, 0)

def ctlDel (s : EpollState) (e epfd p : Nat) (so : EtranSocket) (fd : Nat) :
    Option (EpollState × Int) :=
  match so.epollItems[epfd]? with
  | none => some (s, -enoent)
  | some i =>
    match s.items.cells i with
    | none => none
    | some _ =>
      some ({ s with
        items := s.items.free i
        sockets := s.sockets.modify p fun so => { so with epollItems := so.epollItems.erase epfd }
        epolls := s.epolls.modify e fun ep => ep.remove fd }, 0)

/-- The descriptor is not one of the library's: `libc_epoll_ctl`, with its result. -/
def ctlLinux (s : EpollState) (e : Nat) (op : CtlOp) (ret : Int) : EpollState × Int :=
  if ret < 0 then (s, ret)
  else
    match op with
    | .add =>
      ({ s with epolls := s.epolls.modify e fun ep => { ep with numLinux := ep.numLinux + 1 } },
        ret)
    | .del =>
      ({ s with epolls := s.epolls.modify e fun ep => { ep with numLinux := ep.numLinux - 1 } },
        ret)
    | _ => (s, ret)

def epollCtl (s : EpollState) (epfd : Nat) (op : CtlOp) (fd : Nat) (event : EpollEvent)
    (libc : Int) : Option (EpollState × Int) :=
  match s.lookupEpollWithFd epfd with
  | none => some (s, -ebadf)
  | some e =>
    match s.epolls.cells e with
    | none => none
    | some ep =>
      match s.lookupSocketWithFd fd with
      | none => some (s.ctlLinux e op libc)
      | some p =>
        match s.sockets.cells p with
        | none => none
        | some so =>
          if op = .other then some (s, -einval)
          else if so.protocol ≠ .tcp then some (s, -einval)
          else
            match op with
            | .add => s.ctlAdd e ep epfd p so fd event
            | .mod => s.ctlMod e ep epfd so fd event
            | .del => s.ctlDel e epfd p so fd
            | .other => some (s, -einval)

/-! ## `eTran_epoll_wait` -/

/-- The loop over the active list of the epoll `e`, with the number of events found before. -/
def traverse (e : Nat) (maxevents : Int) :
    List (Nat × Nat) → EpollState → List EpollEvent → Option (EpollState × List EpollEvent)
  | [], s, events => some (s, events)
  | (key, i) :: rest, s, events =>
    if maxevents ≤ events.length then some (s, events)
    else
      match s.items.cells i with
      | none => none
      | some it =>
        match s.sockets.cells it.socket with
        | none => none
        | some so =>
          if so.epollEvents &&& it.interestEvents ≠ 0#32 then
            traverse e maxevents rest s
              (events ++ [{ events := it.interestEvents &&& so.epollEvents, data := it.data }])
          else
            let s := { s with epolls := s.epolls.modify e fun ep => ep.deactivate key so.fd i }
            traverse e maxevents rest s events

end EpollState

/-- The arguments, the events of the first and last `socket_tcp_poll`, and the result of
    `libc_epoll_wait`. -/
structure WaitCall where
  epfd : Nat
  maxevents : Int
  timeout : Int
  polled : List Readiness
  polledLate : List Readiness
  libc : Option (List EpollEvent)
  /-- The uninitialised `n` of the branch that asks Linux last. -/
  garbage : Int

structure WaitResult where
  events : List EpollEvent
  ret : Int
deriving DecidableEq

def libcCount (libc : Option (List EpollEvent)) : Int :=
  match libc with
  | none => -1
  | some evs => evs.length

namespace EpollState

def pollAndTraverse (s : EpollState) (e : Nat) (w : WaitCall) (events : List EpollEvent) :
    Option (EpollState × List EpollEvent) :=
  match s.socketTcpPoll w.polled with
  | none => none
  | some s =>
    match s.epolls.cells e with
    | none => none
    | some ep => traverse e w.maxevents ep.activeList.toList s events

def waitEtran (s : EpollState) (e : Nat) (w : WaitCall) : Option (EpollState × WaitResult) :=
  match s.pollAndTraverse e w [] with
  | none => none
  | some (s, events) =>
    if events = [] ∧ w.timeout ≠ 0 then
      (s.socketTcpPoll w.polledLate).map fun s => (s, { events := events, ret := 0 })
    else some (s, { events := events, ret := events.length })

def waitLinuxFirst (s : EpollState) (e : Nat) (w : WaitCall) : Option (EpollState × WaitResult) :=
  let s := { s with epolls := s.epolls.modify e fun ep => { ep with linuxFirst := false } }
  match s.pollAndTraverse e w (w.libc.getD []) with
  | none => none
  | some (s, events) => some (s, { events := events, ret := events.length })

def waitEtranFirst (s : EpollState) (e : Nat) (w : WaitCall) : Option (EpollState × WaitResult) :=
  let s := { s with epolls := s.epolls.modify e fun ep => { ep with linuxFirst := true } }
  match s.pollAndTraverse e w [] with
  | none => none
  | some (s, events) =>
    if events.length < w.maxevents then
      some (s, { events := events ++ w.libc.getD []
                 ret := events.length + max 0 (w.garbage + libcCount w.libc) })
    else some (s, { events := events, ret := events.length })

def epollWait (s : EpollState) (w : WaitCall) : Option (EpollState × WaitResult) :=
  if w.maxevents ≤ 0 then some (s, { events := [], ret := -einval })
  else
    match s.lookupEpollWithFd w.epfd with
    | none => some (s, { events := [], ret := -ebadf })
    | some e =>
      match s.epolls.cells e with
      | none => none
      | some ep =>
        if ep.numEtran = 0 then
          some (s, { events := w.libc.getD [], ret := libcCount w.libc })
        else if ep.numLinux = 0 then s.waitEtran e w
        else if ep.linuxFirst then s.waitLinuxFirst e w
        else s.waitEtranFirst e w

/-! ## `eTran_close` -/

def deleteItem (s : EpollState) (i : Nat) : Option EpollState :=
  match s.items.cells i with
  | none => none
  | some _ => some { s with items := s.items.free i }

/-- `eTran_close` of an epoll: the sockets' entries stay, the descriptor is not given back to the
    OS. -/
def closeEpoll (s : EpollState) (fd e : Nat) : Option EpollState :=
  match s.epolls.cells e with
  | none => none
  | some ep =>
    (ep.inactiveList.toList.map Prod.snd ++ ep.activeList.toList.map Prod.snd).foldlM
        deleteItem s |>.map fun s =>
      { s with epolls := s.epolls.free e, fds := update s.fds fd .unused }

/-- `eTran_close` of a socket, after an exchange with the control plane, which reports events. The
    items stay. -/
def closeSocket (s : EpollState) (p : Nat) (polled : List Readiness) : Option EpollState :=
  match s.socketTcpPoll polled with
  | none => none
  | some s =>
    match s.sockets.cells p with
    | none => none
    | some so =>
      some { s with
        sockets := s.sockets.free p
        fds := update s.fds so.fd .unused
        osOpen := update s.osOpen so.fd false }

def close (s : EpollState) (fd : Nat) (polled : List Readiness) : Option (EpollState × Int) :=
  match s.fds fd with
  | .unused => some (s, -ebadf)
  | .epoll e => (s.closeEpoll fd e).map fun s => (s, 0)
  | .socket p => (s.closeSocket p polled).map fun s => (s, 0)

end EpollState

/-! ## Runs -/

inductive Call where
  | socket (fd : Nat) (protocol : Protocol)
  | epollCreate1 (fd : Nat) (linuxFirst : Bool)
  | epollCtl (epfd : Nat) (op : CtlOp) (fd : Nat) (event : EpollEvent) (libc : Int)
  | epollWait (w : WaitCall)
  | ready (r : Readiness)
  | close (fd : Nat) (polled : List Readiness)

def EpollState.call (s : EpollState) : Call → Option EpollState
  | .socket fd protocol => some (s.socket fd protocol)
  | .epollCreate1 fd linuxFirst => some (s.epollCreate1 fd linuxFirst)
  | .epollCtl epfd op fd event libc => (s.epollCtl epfd op fd event libc).map Prod.fst
  | .epollWait w => (s.epollWait w).map Prod.fst
  | .ready r => s.ready r
  | .close fd polled => (s.close fd polled).map Prod.fst

def step (s : Option EpollState) (c : Call) : Option EpollState := s.bind fun s => s.call c

end MtpXdp.Lib.Epoll
