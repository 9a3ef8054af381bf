import MtpXdp.Core.Run
import MtpXdp.Lib.ConnView

/-!
# Connections that Share a Thread

`mtp_add_data_seg_wrapper` keeps its reassembly state in the thread context, so a payload of one
connection moves the state by which the payloads of the thread's other connections are judged.
-/

namespace MtpXdp.Lib

open MtpXdp.Core Ebpf Option

/-! ## What belongs to a connection -/

inductive ConnStep where
  | packet (p : RxPkt)
  | recv (count : Nat)
deriving DecidableEq

inductive ConnObs where
  | packet (rxPos credit : U32)
  | recv (bytes : List U8)
deriving DecidableEq

def ownStep (a : U64) : RxStep → Option ConnStep
  | .packet _ p _ => if p.md.conn = a then some (.packet p) else none
  | .recv conn count => if conn = a then some (.recv count) else none

def rxOutput (a : U64) (s : Thread) : RxStep → Option ConnObs
  | .packet addr p last =>
    let (s', p') := handleRx s addr p last
    if p.md.conn = a then some (.packet p'.md.rxPos (credit s' a)) else none
  | .recv conn count => if conn = a then some (.recv (connRecv s conn count).2) else none

def ownSteps (a : U64) (calls : List AppCall) : List ConnStep :=
  (calls.flatMap AppCall.steps).filterMap (ownStep a)

def observed (a : U64) (s : Thread) (calls : List AppCall) : List ConnObs :=
  trace rxStep (rxOutput a) s (calls.flatMap AppCall.steps)

def OthersInert (a : U64) (s : Thread) : RxStep → Prop
  | .packet _ p _ => p.md.conn ≠ a → Inert s.tctx.mtp p
  | .recv _ _ => True

instance (a : U64) (s : Thread) (e : RxStep) : Decidable (OthersInert a s e) := by
  unfold OthersInert
  split <;> infer_instance

/-! ## `conn_recv` runs between polls -/

def BetweenPolls (s : Thread) : RxStep → Prop
  | .packet _ _ _ => True
  | .recv _ _ => s.locals = default

theorem handleRx_last_locals (s : Thread) (addr : U64) (p : RxPkt) :
    (handleRx s addr p true).1.locals = default := rfl

theorem connRecv_locals (s : Thread) (conn : U64) (count : Nat) :
    (connRecv s conn count).1.locals = s.locals := by
  obtain ⟨t, c, heq, -⟩ := connRecv_eq s conn count
  rfl

theorem pollSteps_betweenPolls (pkts : List (U64 × RxPkt)) (s : Thread) (hs : s.locals = default) :
    Meets rxStep BetweenPolls s (pollSteps pkts) ∧
      (run rxStep s (pollSteps pkts)).locals = default := by
  -- Only the state before the first packet is known to be idle, so the induction is on the rest.
  have hrest : ∀ (x : U64 × RxPkt) (xs : List (U64 × RxPkt)) (s : Thread),
      Meets rxStep BetweenPolls s (pollSteps (x :: xs)) ∧
        (run rxStep s (pollSteps (x :: xs))).locals = default := by
    intro x xs
    induction xs generalizing x with
    | nil => exact fun s => ⟨⟨trivial, trivial⟩, handleRx_last_locals s x.1 x.2⟩
    | cons y ys ih =>
      intro s
      obtain ⟨hmeets, hlocals⟩ := ih y (rxStep s (.packet x.1 x.2 false))
      exact ⟨⟨trivial, hmeets⟩, hlocals⟩
  cases pkts with
  | nil => exact ⟨trivial, hs⟩
  | cons x xs => exact hrest x xs s

theorem calls_betweenPolls (calls : List AppCall) {s : Thread} (hs : s.locals = default) :
    Meets rxStep BetweenPolls s (calls.flatMap AppCall.steps) := by
  induction calls generalizing s with
  | nil => trivial
  | cons call calls ih =>
    rw [List.flatMap_cons, meets_append]
    cases call with
    | poll pkts =>
      obtain ⟨hmeets, hlocals⟩ := pollSteps_betweenPolls pkts s hs
      exact ⟨hmeets, ih hlocals⟩
    | recv conn count => exact ⟨⟨hs, trivial⟩, ih ((connRecv_locals s conn count).trans hs)⟩

/-! ## Noninterference -/

section

variable {a : U64} {s : Thread} {e : RxStep}

theorem connView_rxStep_of_other (hnull : a ≠ 0#64) (he : ownStep a e = none)
    (hinert : OthersInert a s e) :
    connView a (rxStep s e) = connView a s ∧ rxOutput a s e = none := by
  cases e with
  | packet addr p last =>
    have hne : p.md.conn ≠ a := by
      intro h
      simp [ownStep, h] at he
    exact ⟨connView_handleRx_of_inert addr last hnull hne (hinert hne), by simp [rxOutput, hne]⟩
  | recv conn count =>
    have hne : conn ≠ a := by
      intro h
      simp [ownStep, h] at he
    exact ⟨connView_connRecv_of_ne s count hne, by simp [rxOutput, hne]⟩

def ConnStep.act (v : ConnView) : ConnStep → ConnView × ConnObs
  | .packet p => ((v.packet p).1, .packet (v.packet p).2.md.rxPos (v.packet p).1.credit)
  | .recv count => ((v.recv count).1, .recv (v.recv count).2)

theorem connView_rxStep_of_own (hnull : a ≠ 0#64) (hpoison : a ≠ poison64) {x : ConnStep}
    (he : ownStep a e = some x) (hidle : BetweenPolls s e) :
    connView a (rxStep s e) = (x.act (connView a s)).1 ∧
      rxOutput a s e = some (x.act (connView a s)).2 := by
  cases e with
  | packet addr p last =>
    simp only [ownStep, ite_none_right_eq_some, some.injEq] at he
    obtain ⟨rfl, rfl⟩ := he
    obtain ⟨hview, hpkt⟩ := connView_handleRx_self s addr p last hnull hpoison
    refine ⟨hview, ?_⟩
    have hcredit := congrArg ConnView.credit hview
    simp only [rxOutput, if_true, ConnStep.act, hpkt]
    rw [← hcredit]
    rfl
  | recv conn count =>
    simp only [ownStep, ite_none_right_eq_some, some.injEq] at he
    obtain ⟨rfl, rfl⟩ := he
    have hbump : s.locals.cachedRxBump = 0#64 := congrArg PollLocals.cachedRxBump hidle
    obtain ⟨hview, hbytes⟩ := connView_connRecv_self s conn count hbump
    exact ⟨hview, by simp [rxOutput, ConnStep.act, hbytes]⟩

end

/-- **Noninterference between connections of a thread**, if no packet of another connection writes
    the reassembly state: `a` observes the same positions, credit and bytes. -/
theorem observed_eq_of_othersInert {a : U64} (hnull : a ≠ 0#64) (hpoison : a ≠ poison64)
    {s : Thread} (hidle : s.locals = default) {calls calls' : List AppCall}
    (hown : ownSteps a calls = ownSteps a calls')
    (hinert : Meets rxStep (OthersInert a) s (calls.flatMap AppCall.steps))
    (hinert' : Meets rxStep (OthersInert a) s (calls'.flatMap AppCall.steps)) :
    observed a s calls = observed a s calls' := by
  refine trace_eq_of_unwinding (connView a) (ownStep a) ?hidden ?own rfl hown
    (hinert.and (calls_betweenPolls calls hidle)) (hinert'.and (calls_betweenPolls calls' hidle))
  case hidden =>
    intro s e he hok
    exact connView_rxStep_of_other hnull he hok.1
  case own =>
    intro s s' e e' x he he' hok hok' hview
    obtain ⟨hv, ho⟩ := connView_rxStep_of_own hnull hpoison he hok.2
    obtain ⟨hv', ho'⟩ := connView_rxStep_of_own hnull hpoison he' hok'.2
    rw [hv, hv', ho, ho', hview]
    exact ⟨rfl, rfl⟩

/-! ### A payload of another connection -/

def idleThread : Thread :=
  { (default : Thread) with
    conns := fun _ => { (default : EtranConn) with rxBufSize := mtpRxBufSize } }

def fourBytes (conn : U64) (seq : U32) (byte : U8) : RxPkt where
  md := { (default : RxMeta) with
          conn := conn, poff := 66#16, plen := 4#16, xskBudgetAvail := poison32,
          ackBytes := poison32, oooBump := poison32 }
  tcpSeq := bpfNtohl seq
  frame := List.replicate 66 0#8 ++ List.replicate 4 byte

def pureAck (conn : U64) (bytes : U32) : RxPkt where
  md := { (default : RxMeta) with
          conn := conn, poff := poison16, plen := poison16, xskBudgetAvail := poison32,
          ackBytes := bytes, oooBump := poison32 }
  tcpSeq := 0#32
  frame := []

theorem observed_eq_with_acks :
    observed 0x1000#64 idleThread
        [.poll [(0x40#64, pureAck 0x2000#64 7#32), (0x80#64, fourBytes 0x1000#64 1000#32 7#8)],
          .recv 0x1000#64 4] =
      observed 0x1000#64 idleThread
        [.poll [(0xC0#64, fourBytes 0x1000#64 1000#32 7#8)], .recv 0x1000#64 4] :=
  observed_eq_of_othersInert (by decide) (by decide) rfl (by decide) (by decide) (by decide)

/-- A segment of another connection makes this one's out of order: `conn_recv` returns nothing. -/
theorem observed_depends_on_others :
    ownSteps 0x1000#64 [.poll [(0x80#64, fourBytes 0x1000#64 1000#32 7#8)], .recv 0x1000#64 4] =
      ownSteps 0x1000#64
        [.poll [(0x40#64, fourBytes 0x2000#64 5000#32 9#8),
          (0x80#64, fourBytes 0x1000#64 1000#32 7#8)], .recv 0x1000#64 4] ∧
    observed 0x1000#64 idleThread
        [.poll [(0x80#64, fourBytes 0x1000#64 1000#32 7#8)], .recv 0x1000#64 4] =
      [.packet 0#32 4#32, .recv (List.replicate 4 7#8)] ∧
    observed 0x1000#64 idleThread
        [.poll [(0x40#64, fourBytes 0x2000#64 5000#32 9#8),
          (0x80#64, fourBytes 0x1000#64 1000#32 7#8)], .recv 0x1000#64 4] =
      [.packet 0#32 0#32, .recv []] := by
  decide

end MtpXdp.Lib
