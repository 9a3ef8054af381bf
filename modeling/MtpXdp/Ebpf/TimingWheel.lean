import MtpXdp.Core.Run
import MtpXdp.Core.Wheel
import MtpXdp.Ebpf.EventProcessors

/-!
# The Timing Wheel

Paced packets wait in the per-CPU timing wheel of `pacing.h`. `tw_insert` chooses the bucket of the
slot in which a packet is due, `tw_cb` sends what `tw_extract` finds in the slots up to the current
one. The front only moves while a callback runs. After a pause a packet may be out of reach: it is
put into the last bucket in reach, whose slot passed long ago, and leaves too early. The slot and
the times of a packet are kept with the frame.
-/

namespace MtpXdp.Ebpf

open MtpXdp.Core List Function Nat

/-! ## The wheel of a CPU -/

def slotWidthNs : Nat := 500
def maxBuckets : Nat := 50000
def nrSlotPerBkt : Nat := 1024
def twBatchSize : Nat := 32

def twExtractSlots : Nat := 16

def slotOf (ts : U64) : Nat := ts.toNat / slotWidthNs

structure TwFrame where
  pkt : Pkt
  insertedAt : U64
  desired : U64
  slot : Nat
deriving DecidableEq

structure TwRelease where
  frame : TwFrame
  sent : Pkt
  sentAt : U64

/-- `front_timestamp`, the buckets and `nr_pkts_in_tw` of a CPU, and what it has sent. -/
structure TwCpu where
  wheel : Wheel TwFrame
  nrPktsInTw : U32
  released : List TwRelease

def TwCpu.boot : TwCpu where
  wheel := { front := 0, bucket := fun _ => [] }
  nrPktsInTw := 0#32
  released := []

def TwCpu.frontAt (s : TwCpu) (now : U64) : Nat :=
  if s.wheel.front = 0 then slotOf now else s.wheel.front

def TwCpu.started (s : TwCpu) (now : U64) : Wheel TwFrame := { s.wheel with front := s.frontAt now }

/-- The slot that `tw_insert` settles for: that of `ts`, moved into the reach of the front. -/
def TwCpu.slotFor (s : TwCpu) (now ts : U64) : Nat := (s.started now).nearest maxBuckets (slotOf ts)

def twInsert (s : TwCpu) (now ts : U64) : TwCpu × Nat :=
  ({ s with wheel := s.started now, nrPktsInTw := s.nrPktsInTw + 1#32 },
    s.slotFor now ts % maxBuckets)

/-- `bpf_redirect_map` into a bucket of `cap` slots; a full bucket drops the packet. -/
def twRedirect (cap : Nat) (s : TwCpu) (idx : Nat) (f : TwFrame) : TwCpu :=
  if (s.wheel.bucket idx).length < cap then { s with wheel := s.wheel.push idx f } else s

def TwCpu.frameFor (s : TwCpu) (now ts : U64) (pkt : Pkt) : TwFrame where
  pkt := pkt
  insertedAt := now
  desired := ts
  slot := s.slotFor now ts

def twEnqueue (cap : Nat) (s : TwCpu) (now ts : U64) (pkt : Pkt) : TwCpu :=
  let f := s.frameFor now ts pkt
  let (s, idx) := twInsert s now ts
  twRedirect cap s idx f

def twExtract (s : TwCpu) (now : U64) : Option TwFrame × TwCpu × Bool :=
  let (f, w) := s.wheel.advance maxBuckets (slotOf now) twExtractSlots
  (f, { s with wheel := w }, w.front ≤ slotOf now)

def stampTs (p : Pkt) (now : U64) : Pkt :=
  { p with ts := p.ts.map fun t => { t with tsVal := bpfHtonl (now.setWidth 32) } }

def TwCpu.release (s : TwCpu) (f : TwFrame) (now : U64) : TwCpu :=
  { s with
    nrPktsInTw := s.nrPktsInTw - 1#32
    released := s.released ++ [{ frame := f, sent := stampTs f.pkt now, sentAt := now }] }

/-- The loop of `tw_cb`. When the `j`th frame cannot be sent (`ok j`), it is out of the wheel and
    still counted. -/
def twLoop (now : U64) (ok : Nat → Bool) : Nat → Nat → TwCpu → TwCpu
  | 0, _, s => s
  | rounds + 1, j, s =>
    match twExtract s now with
    | (none, s, cont) => if cont then twLoop now ok rounds j s else s
    | (some f, s, _) => if ok j then twLoop now ok rounds (j + 1) (s.release f now) else s

def twCb (s : TwCpu) (now : U64) (ok : Nat → Bool) : TwCpu := twLoop now ok twBatchSize 0 s

/-! ## Runs -/

inductive TwEvent where
  | insert (now ts : U64) (pkt : Pkt)
  | callback (now : U64) (ok : Nat → Bool)

def TwEvent.now : TwEvent → U64
  | .insert now _ _ => now
  | .callback now _ => now

def twStep (cap : Nat) (s : TwCpu) : TwEvent → TwCpu
  | .insert now ts pkt => twEnqueue cap s now ts pkt
  | .callback now ok => twCb s now ok

def InHorizon (now ts : U64) : Prop := ts.toNat ≤ now.toNat + (maxBuckets - 1) * slotWidthNs
deriving Decidable

/-- **No packet leaves early**: those that were due within the horizon left in their slot or
    later. -/
def NotEarly (s : TwCpu) : Prop :=
  ∀ r ∈ s.released, InHorizon r.frame.insertedAt r.frame.desired →
    slotOf r.frame.desired * slotWidthNs ≤ r.sentAt.toNat

/-- A packet that is due within the horizon is due within the reach of the front. -/
def InReach (s : TwCpu) : TwEvent → Prop
  | .insert now ts _ => InHorizon now ts → slotOf ts ≤ s.frontAt now + maxBuckets - 1
  | .callback _ _ => True

instance (s : TwCpu) (e : TwEvent) : Decidable (InReach s e) := by
  unfold InReach
  split <;> infer_instance

/-! ## The invariant -/

def TwFrame.Timely (f : TwFrame) : Prop :=
  InHorizon f.insertedAt f.desired → slotOf f.desired ≤ f.slot

/-- The frames are in the buckets of their slots, which are late enough, also for the frames sent.
    -/
structure WheelInv (s : TwCpu) : Prop where
  placed : s.wheel.Placed maxBuckets TwFrame.slot
  timely : s.wheel.All TwFrame.Timely
  notEarly : NotEarly s

section

variable {s : TwCpu} {now ts : U64} {pkt : Pkt}

theorem front_le_frontAt (s : TwCpu) (now : U64) : s.wheel.front ≤ s.frontAt now := by
  unfold TwCpu.frontAt
  split_ifs with h
  · rw [h]
    exact zero_le _
  · exact le_refl _

theorem twEnqueue_wheel (cap : Nat) (s : TwCpu) (now ts : U64) (pkt : Pkt)
    (hroom : (s.wheel.bucket (s.slotFor now ts % maxBuckets)).length < cap) :
    (twEnqueue cap s now ts pkt).wheel =
      (s.started now).push (s.slotFor now ts % maxBuckets) (s.frameFor now ts pkt) := by
  unfold twEnqueue twInsert twRedirect
  dsimp only
  rw [if_pos (show ((s.started now).bucket _).length < cap from hroom)]

theorem wheelInv_enqueue (cap : Nat) (h : WheelInv s) (hreach : InReach s (.insert now ts pkt)) :
    WheelInv (twEnqueue cap s now ts pkt) := by
  have hplaced : (s.started now).Placed maxBuckets TwFrame.slot :=
    h.placed.setFront (front_le_frontAt s now)
  have htimely : (s.frameFor now ts pkt).Timely := by
    intro hhorizon
    exact Wheel.le_nearest (hreach hhorizon)
  have hslot : (s.frameFor now ts pkt).slot < (s.started now).front + maxBuckets :=
    Wheel.nearest_lt (by decide) _ _
  unfold twEnqueue twInsert twRedirect
  dsimp only
  by_cases hroom : ((s.started now).bucket (s.slotFor now ts % maxBuckets)).length < cap
  · rw [if_pos hroom]
    exact ⟨hplaced.push hslot, Wheel.All.push (w := s.started now) h.timely htimely _, h.notEarly⟩
  · rw [if_neg hroom]
    exact ⟨hplaced, h.timely, h.notEarly⟩

@[simp] theorem twExtract_frame (s : TwCpu) (now : U64) :
    (twExtract s now).1 = (s.wheel.advance maxBuckets (slotOf now) twExtractSlots).1 := rfl

@[simp] theorem twExtract_cpu (s : TwCpu) (now : U64) : (twExtract s now).2.1 =
      { s with wheel := (s.wheel.advance maxBuckets (slotOf now) twExtractSlots).2 } := rfl

theorem twLoop_of_inv (P : TwCpu → Prop) (bound : Nat) {ok : Nat → Bool}
    (hskip : ∀ s, P s → (twExtract s now).1 = none → P (twExtract s now).2.1)
    (hlost : ∀ s f k, P s → (twExtract s now).1 = some f → k < bound → ok k = false →
      P (twExtract s now).2.1)
    (hsent : ∀ s f, P s → (twExtract s now).1 = some f → P ((twExtract s now).2.1.release f now))
    (rounds j : Nat) (hbound : j + rounds ≤ bound) (h : P s) : P (twLoop now ok rounds j s) := by
  induction rounds generalizing j s with
  | zero => exact h
  | succ rounds ih =>
    have hskip := hskip s h
    have hlost := fun f => hlost s f j h
    have hsent := fun f => hsent s f h
    unfold twLoop
    match he : twExtract s now with
    | (none, s', cont) =>
      rw [he] at hskip
      dsimp only
      split_ifs
      · exact ih j (by omega) (hskip rfl)
      · exact hskip rfl
    | (some f, s', cont) =>
      rw [he] at hlost hsent
      split_ifs with hok
      · exact ih (j + 1) (by omega) (hsent f rfl)
      · exact hlost f rfl (by omega) (Bool.eq_false_of_not_eq_true hok)

theorem wheelInv_extract (now : U64) (h : WheelInv s) : WheelInv (twExtract s now).2.1 ∧
      ∀ f ∈ (twExtract s now).1, f.Timely ∧ f.slot ≤ slotOf now := by
  have hall := h.timely.advance maxBuckets (slotOf now) twExtractSlots
  rw [twExtract_cpu, twExtract_frame]
  refine ⟨⟨h.placed.advance, hall.1, h.notEarly⟩, ?_⟩
  intro f hf
  have hfound : s.wheel.advance maxBuckets (slotOf now) twExtractSlots = (some f, _) :=
    Prod.ext (Option.mem_def.mp hf) rfl
  exact ⟨hall.2 f hf, Wheel.slot_le_of_advance h.placed hfound⟩

theorem wheelInv_release {f : TwFrame} (h : WheelInv s) (htimely : f.Timely)
    (hdue : f.slot ≤ slotOf now) : WheelInv (s.release f now) := by
  refine ⟨h.placed, h.timely, ?_⟩
  intro r hr hhorizon
  rcases mem_append.mp hr with hold | hnew
  · exact h.notEarly r hold hhorizon
  · obtain rfl := mem_singleton.mp hnew
    have hslot := htimely hhorizon
    calc slotOf f.desired * slotWidthNs ≤ slotOf now * slotWidthNs :=
          mul_le_mul_right _ (hslot.trans hdue)
      _ ≤ now.toNat := div_mul_le_self _ _

theorem wheelInv_loop (ok : Nat → Bool) (rounds j : Nat) (h : WheelInv s) :
    WheelInv (twLoop now ok rounds j s) := by
  apply twLoop_of_inv WheelInv (j + rounds) _ _ _ rounds j (le_refl _) h
  · exact fun s h _ => (wheelInv_extract now h).1
  · exact fun s _ _ h _ _ _ => (wheelInv_extract now h).1
  · intro s f h hf
    obtain ⟨hrest, hfound⟩ := wheelInv_extract now h
    obtain ⟨htimely, hdue⟩ := hfound f hf
    exact wheelInv_release hrest htimely hdue

theorem wheelInv_step (cap : Nat) {e : TwEvent} (h : WheelInv s) (hreach : InReach s e) :
    WheelInv (twStep cap s e) := by
  cases e with
  | insert now ts pkt => exact wheelInv_enqueue cap h hreach
  | callback now ok => exact wheelInv_loop ok twBatchSize 0 h

theorem wheelInv_boot : WheelInv TwCpu.boot where
  placed := ⟨fun _ _ hx => absurd hx not_mem_nil, fun _ _ hx => absurd hx not_mem_nil⟩
  timely := fun _ _ hx => absurd hx not_mem_nil
  notEarly := fun _ hr => absurd hr not_mem_nil

end

/-! ## Runs -/

/-- **No packet leaves early** in a run whose packets are in reach: for every clock, capacity and
    failure. -/
theorem notEarly_always (cap : Nat) {es : List TwEvent}
    (h : Meets (twStep cap) InReach TwCpu.boot es) :
    Always (twStep cap) NotEarly TwCpu.boot es := by
  have halways := always_of_meets (fun _ _ hinv hreach => wheelInv_step cap hinv hreach)
    wheelInv_boot h
  exact halways.mono (fun _ hinv => hinv.notEarly)

theorem notEarly_always_at :
    Always (twStep nrSlotPerBkt) NotEarly TwCpu.boot
      [.insert 500000#64 1500000#64 default, .callback 500000#64 (fun _ => true),
        .callback 1500000#64 (fun _ => true)] :=
  notEarly_always nrSlotPerBkt (by decide)

/-! ## The front after a pause -/

section

variable {s : TwCpu} {now : U64} {ok : Nat → Bool} {j : Nat}

def TwCpu.skip (s : TwCpu) (d : Nat) : TwCpu :=
  { s with wheel := { s.wheel with front := s.wheel.front + d } }

def TwCpu.Idle (s : TwCpu) (d : Nat) : Prop :=
  ∀ k < d, s.wheel.bucket ((s.wheel.front + k) % maxBuckets) = []

theorem TwCpu.Idle.skip {a b : Nat} (h : s.Idle (a + b)) : (s.skip a).Idle b := by
  intro k hk
  have hempty := h (a + k) (by omega)
  rw [← add_assoc] at hempty
  exact hempty

theorem twLoop_of_idle (now : U64) (ok : Nat → Bool) (rounds extra : Nat)
    (hidle : s.Idle (twExtractSlots * rounds))
    (hnow : s.wheel.front + twExtractSlots * rounds ≤ slotOf now) :
    twLoop now ok (rounds + extra) j s =
      twLoop now ok extra j (s.skip (twExtractSlots * rounds)) := by
  induction rounds generalizing s with
  | zero => rw [zero_add]; rfl
  | succ rounds ih =>
    rw [mul_succ, add_comm (twExtractSlots * rounds)] at hidle hnow
    have hfirst : s.wheel.advance maxBuckets (slotOf now) (twExtractSlots + 0) = _ :=
      Wheel.advance_of_empty 0 s.wheel (fun k hk => hidle k (by omega)) (by omega)
    rw [add_zero] at hfirst
    have hextract : twExtract s now = (none, s.skip twExtractSlots, true) := by
      unfold twExtract
      rw [hfirst]
      have hcont : s.wheel.front + twExtractSlots ≤ slotOf now := by omega
      simp only [Wheel.advance, TwCpu.skip, hcont, decide_true]
    rw [show rounds + 1 + extra = rounds + extra + 1 by omega, twLoop, hextract]
    dsimp only
    rw [if_pos rfl, ih hidle.skip (by simp only [TwCpu.skip]; omega)]
    simp only [TwCpu.skip, mul_succ]
    rw [add_assoc, add_comm twExtractSlots]

theorem mem_released_loop {r : TwRelease} (rounds : Nat) (hr : r ∈ s.released) :
    r ∈ (twLoop now ok rounds j s).released :=
  -- only `release` touches the list, and it appends
  twLoop_of_inv (fun s => r ∈ s.released) (j + rounds) (fun _ h _ => h) (fun _ _ _ h _ _ _ => h)
    (fun _ _ h _ => mem_append_left _ h) rounds j (le_refl _) hr

theorem exists_release_of_round {d rounds : Nat} {f : TwFrame} {fs : List TwFrame}
    (hidle : s.Idle d) (hfound : s.wheel.bucket ((s.wheel.front + d) % maxBuckets) = f :: fs)
    (hd : d < twExtractSlots) (hnow : s.wheel.front + d ≤ slotOf now) (hok : ok j = true) :
    ∃ r ∈ (twLoop now ok (rounds + 1) j s).released, r.frame = f ∧ r.sentAt = now := by
  obtain ⟨fuel, hfuel⟩ := Nat.exists_eq_add_of_lt hd
  have hway : s.wheel.advance maxBuckets (slotOf now) (d + (fuel + 1)) = _ :=
    Wheel.advance_of_empty (fuel + 1) s.wheel hidle (by omega)
  rw [Wheel.advance_of_found (w := { s.wheel with front := s.wheel.front + d }) hnow hfound] at hway
  have hextract : (twExtract s now).1 = some f := by
    rw [twExtract_frame, hfuel, add_assoc, hway]
  unfold twLoop
  match he : twExtract s now with
  | (none, s', cont) =>
    rw [he] at hextract
    cases hextract
  | (some g, s', cont) =>
    rw [he] at hextract
    obtain rfl : g = f := by simpa using hextract
    dsimp only
    rw [if_pos hok]
    exact ⟨_, mem_released_loop rounds (mem_append_right _ (mem_singleton.mpr rfl)),
      rfl, rfl⟩

def twReach : Nat := twExtractSlots * twBatchSize

theorem exists_release_of_callbacks (cap m : Nat) (now : U64) {d : Nat} {f : TwFrame}
    {fs : List TwFrame}
    (hidle : s.Idle d) (hfound : s.wheel.bucket ((s.wheel.front + d) % maxBuckets) = f :: fs)
    (hm : d / twReach = m) (hnow : s.wheel.front + d ≤ slotOf now) :
    ∃ r ∈ (run (twStep cap) s (List.replicate (m + 1) (.callback now (fun _ => true)))).released,
      r.frame = f ∧ r.sentAt = now := by
  have hreach : twReach = 512 := rfl
  have hmul : twExtractSlots * twBatchSize = 512 := rfl
  rw [hreach] at hm
  induction m generalizing s d with
  | zero =>
    -- the last callback: whole rounds over empty buckets, then the round that finds the frame
    have hrounds : d / twExtractSlots < twBatchSize := Nat.div_lt_of_lt_mul (by omega)
    obtain ⟨extra, hextra⟩ : ∃ extra, twBatchSize = d / twExtractSlots + (extra + 1) :=
      ⟨twBatchSize - d / twExtractSlots - 1, by omega⟩
    have hsplit : d = twExtractSlots * (d / twExtractSlots) + d % twExtractSlots :=
      (div_add_mod d twExtractSlots).symm
    have hidle' := hidle
    rw [hsplit] at hidle' hfound
    have hwhole := twLoop_of_idle (s := s) (j := 0) now (fun _ => true)
      (d / twExtractSlots) (extra + 1) (fun k hk => hidle k (by omega)) (by omega)
    change ∃ r ∈ (twLoop now (fun _ => true) twBatchSize 0 s).released, _
    rw [hextra, hwhole]
    rw [← add_assoc] at hfound
    refine exists_release_of_round hidle'.skip hfound (mod_lt _ (by decide)) ?_ rfl
    simp only [TwCpu.skip]
    omega
  | succ m ih =>
    have hcallback : twStep cap s (.callback now (fun _ => true)) = s.skip twReach := by
      have hwhole := twLoop_of_idle (s := s) (j := 0) now (fun _ => true)
        twBatchSize 0 (fun k hk => hidle k (by omega)) (by omega)
      exact hwhole
    have hsplit : d = twReach + (d - twReach) := by omega
    rw [hsplit] at hidle hfound
    rw [replicate_succ, run_cons, hcallback]
    refine ih hidle.skip ?_ (by omega) (by simp only [TwCpu.skip]; omega)
    rw [← add_assoc] at hfound
    exact hfound

end

/-! ## A pause of ten seconds -/

def firstEvents : List TwEvent :=
  [.insert 500000#64 500000#64 default, .callback 500000#64 (fun _ => true)]

def lateInsert : TwEvent := .insert 10000000000#64 10001000000#64 default

def kickEvents : List TwEvent := List.replicate 98 (.callback 10000000000#64 (fun _ => true))

def pausedCpu : TwCpu := run (twStep nrSlotPerBkt) TwCpu.boot firstEvents
def resumedCpu : TwCpu := twStep nrSlotPerBkt pausedCpu lateInsert

def lateFrame : TwFrame where
  pkt := default
  insertedAt := 10000000000#64
  desired := 10001000000#64
  slot := 51000

theorem pausedCpu_bucket (i : Nat) : pausedCpu.wheel.bucket i = [] := by
  let first : TwFrame :=
    { pkt := default, insertedAt := 500000#64, desired := 500000#64, slot := 1000 }
  change update (update (fun _ => []) 1000 [first]) 1000 [] i = []
  by_cases hi : i = 1000
  · rw [hi, update_self]
  · rw [update_of_ne hi, update_of_ne hi]

theorem resumedCpu_wheel :
    resumedCpu.wheel = ({ pausedCpu.wheel with front := 1001 } : Wheel TwFrame).push 1000
      lateFrame := by
  have hslot : pausedCpu.slotFor 10000000000#64 10001000000#64 = 51000 := by decide +kernel
  have hfront : pausedCpu.frontAt 10000000000#64 = 1001 := by decide +kernel
  have hwheel := twEnqueue_wheel nrSlotPerBkt pausedCpu 10000000000#64 10001000000#64 default
    (by rw [pausedCpu_bucket]; decide)
  rw [TwCpu.started, TwCpu.frameFor, hslot, hfront] at hwheel
  exact hwheel

theorem resumedCpu_bucket (i : Nat) :
    resumedCpu.wheel.bucket i = if i = 1000 then [lateFrame] else [] := by
  rw [resumedCpu_wheel, Wheel.push]
  by_cases hi : i = 1000
  · rw [hi, Wheel.setBucket_bucket_self, pausedCpu_bucket, if_pos rfl]
    rfl
  · rw [Wheel.setBucket_bucket_of_ne _ _ hi, pausedCpu_bucket, if_neg hi]

/-- The packet that is due in a millisecond leaves at once. -/
theorem early_after_pause :
    (firstEvents ++ lateInsert :: kickEvents).IsChain (fun e e' => e.now ≤ e'.now) ∧
      InHorizon 10000000000#64 10001000000#64 ∧
      ¬ Always (twStep nrSlotPerBkt) NotEarly TwCpu.boot
        (firstEvents ++ lateInsert :: kickEvents) := by
  refine ⟨by decide +kernel, by decide, ?_⟩
  intro halways
  have hfront : resumedCpu.wheel.front = 1001 := by
    rw [resumedCpu_wheel]
    rfl
  have hmax : maxBuckets = 50000 := rfl
  have hidle : resumedCpu.Idle 49999 := by
    intro k hk
    rw [hfront, resumedCpu_bucket, hmax, if_neg (by omega)]
  have hfound : resumedCpu.wheel.bucket ((resumedCpu.wheel.front + 49999) % maxBuckets) =
      [lateFrame] := by
    rw [hfront, resumedCpu_bucket, hmax, if_pos rfl]
  obtain ⟨r, hr, hframe, hat⟩ := exists_release_of_callbacks nrSlotPerBkt 97 10000000000#64 hidle
    hfound rfl (by rw [hfront]; decide)
  have hlast := halways.last
  rw [run_append, run_cons] at hlast
  have hearly := hlast r hr
  rw [hframe, hat] at hearly
  exact absurd (hearly (by decide)) (by decide)

end MtpXdp.Ebpf
