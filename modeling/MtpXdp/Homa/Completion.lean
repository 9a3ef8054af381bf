import MtpXdp.Core.Run
import MtpXdp.Homa.Message

/-!
# Every Message Completes Once

The segments of one message arrive in any order and number. Each distinct one reaches user space
once, `bytes_remaining` follows those that have arrived, and `set_bitmap` reports completion with
the last one that was missing.
-/

namespace MtpXdp.Homa

open Ebpf (U32 U64)
open MtpXdp.Core Finset

variable {r : RpcState} {m : Message} {k : RpcKey}

/-! ## One arrival -/

/-- The RPC waits for a first segment: a request creates it, a response finds it transmitting. -/
def Awaiting (s : HomaState) (k : RpcKey) : Prop :=
  if rpcIsClient k.rpcid then ∃ r, s.rpcTbl k = some r ∧ r.state = .outgoing
  else s.rpcTbl k = none

def Finished (m : Message) (s : HomaState) (k : RpcKey) : Prop :=
  if rpcIsClient k.rpcid then s.rpcTbl k = none
  else ∃ r, s.rpcTbl k = some r ∧ r.state = .inService ∧ Holds m (range m.n) r

def Receiving (m : Message) (S : Finset Nat) (s : HomaState) (k : RpcKey) : Prop :=
  ∃ r, s.rpcTbl k = some r ∧ r.state = .incoming ∧ Holds m S r

section

variable {S : Finset Nat} {i : Nat} {d : DataHeader} {ip : U32} {env : Env} {s s' : HomaState}

theorem rpcid_hkey (d : DataHeader) (ip : U32) : (d.hkey ip).rpcid = localId d.senderId := rfl

theorem GrantListOnly.receiving (h : GrantListOnly s s') (hs : Receiving m S s k) :
    Receiving m S s' k := by
  obtain ⟨r, hr, hstate, hholds⟩ := hs
  obtain ⟨r', hr', hcore⟩ := h.exists_rpc hr
  exact ⟨r', hr', (congrArg RpcState.state hcore).trans hstate, hholds.of_core hcore⟩

theorem receiving_schedule {b : Bool} (x : U64) (hstate : r.state = .incoming) (hr : Holds m S r) :
    Receiving m S (schedule { s.setRpc k r with totalIncoming := x } k r d b env).1 k :=
  (grantListOnly_schedule ..).receiving ⟨r, rpcTbl_setRpc s k r, hstate, hr⟩

theorem receiveData_first (hd : IsSegment m i d) (hs : Awaiting s (d.hkey ip))
    (hre : d.retransmit = false) (hmap : env.mapOk = true) (hobj : env.objOk = true) :
    (receiveData s d ip env).2.verdict = .redirect ∧
      Receiving m {i} (receiveData s d ip env).1 (d.hkey ip) := by
  have hsp := hd.not_singlePacket
  unfold receiveData
  unfold Awaiting at hs
  rw [rpcid_hkey] at hs
  cases hcl : rpcIsClient (localId d.senderId) with
  | true =>
    simp only [hcl, if_true] at hs ⊢
    obtain ⟨r, hr, hout⟩ := hs
    have hstart := holds_startMessage hd { r with state := .incoming }
    simp only [clientResponse, hr, hout, hsp, Bool.false_eq_true, if_false]
    exact ⟨congrArg RxResult.verdict (schedule_verdict _ _ _ _ _ hobj),
      receiving_schedule _ hstart.2.1 hstart.1⟩
  | false =>
    simp only [hcl, Bool.false_eq_true, if_false] at hs ⊢
    have hstart := holds_startMessage hd
      { RpcState.zero with
        remoteIp := (d.hkey ip).remoteIp, remotePort := (d.hkey ip).remotePort,
        localPort := (d.hkey ip).localPort, id := (d.hkey ip).rpcid,
        state := if d.singlePacket then .inService else .incoming, bufferHead := poison64 }
    have hstate : (newServerRpc (d.hkey ip) d).state = .incoming := by
      refine hstart.2.1.trans ?_
      simp [hsp]
    simp only [serverRequest, hs, hre, hmap, hsp, Bool.false_eq_true, if_false, if_true]
    exact ⟨congrArg RxResult.verdict (schedule_verdict _ _ _ _ _ hobj),
      receiving_schedule _ hstate hstart.1⟩

theorem receiveData_dup (hd : IsSegment m i d) (hr : s.rpcTbl (d.hkey ip) = some r)
    (hholds : Holds m S r) (hstate : r.state = .incoming ∨ r.state = .inService) (hi : i ∈ S) :
    receiveData s d ip env = (s, .of .drop) := by
  have hrec := recordSegment_of_mem hholds hd hi
  unfold receiveData
  rcases hstate with hstate | hstate <;>
    simp [clientResponse, serverRequest, hr, hstate, hrec]

theorem receiveData_new (hd : IsSegment m i d) (hs : Receiving m S s (d.hkey ip)) (hi : i ∉ S)
    (hobj : env.objOk = true) : (receiveData s d ip env).2.verdict = .redirect ∧
      if insert i S = range m.n then Finished m (receiveData s d ip env).1 (d.hkey ip)
      else Receiving m (insert i S) (receiveData s d ip env).1 (d.hkey ip) := by
  obtain ⟨r, hr, hstate, hholds⟩ := hs
  obtain ⟨r', hrec, hholds', hstate'⟩ := recordSegment_of_not_mem hholds hd hi
  have hsp := hd.not_singlePacket
  rw [hstate] at hstate'
  unfold receiveData Finished
  rw [rpcid_hkey]
  cases hcl : rpcIsClient (localId d.senderId) with
  | true =>
    simp only [if_true, clientResponse, hr, hstate, hrec]
    split_ifs with hfull
    · -- the slot is deleted
      refine ⟨rfl, ?_⟩
      exact Function.update_self ..
    · exact ⟨congrArg RxResult.verdict (schedule_verdict _ _ _ _ _ hobj),
        receiving_schedule _ hstate' hholds'⟩
  | false =>
    simp only [Bool.false_eq_true, if_false, serverRequest, hr, hstate, hrec, hsp, reduceCtorEq]
    split_ifs with hfull
    · rw [hfull] at hholds'
      exact ⟨rfl, _, rpcTbl_setRpc s _ _, rfl, hholds'.setState _⟩
    · exact ⟨congrArg RxResult.verdict (schedule_verdict _ _ _ _ _ hobj),
        receiving_schedule _ hstate' hholds'⟩

end

/-! ## Runs -/

structure Arrival where
  hdr : DataHeader
  ip : U32
  env : Env

def Arrival.seq (a : Arrival) : Nat := a.hdr.seq.toNat

structure MsgRun where
  st : HomaState
  seen : Finset Nat
  delivered : List Nat

def arrive (s : MsgRun) (a : Arrival) : MsgRun :=
  let out := receiveData s.st a.hdr a.ip a.env
  { st := out.1
    seen := insert a.seq s.seen
    delivered := if out.2.verdict = .redirect then s.delivered ++ [a.seq] else s.delivered }

/-- Segments in any order and number, the first one not a retransmission, and no failing allocation.
    -/
structure ArrivalDom (m : Message) (k : RpcKey) (s : MsgRun) (a : Arrival) : Prop where
  segment : IsSegment m a.seq a.hdr
  rpc : a.hdr.hkey a.ip = k
  first : s.seen = ∅ → a.hdr.retransmit = false
  map : a.env.mapOk = true
  obj : a.env.objOk = true

def firstAnswer (r : RpcState) (d : DataHeader) : BitmapResult :=
  (setBitmap (clearAllBitmaps { r with bitWidth := segmentCount d.messageLength }) d.seq).2

def bitmapAnswer (s : HomaState) (d : DataHeader) (k : RpcKey) : Option BitmapResult :=
  match s.rpcTbl k with
  | none =>
    if rpcIsClient k.rpcid || d.retransmit then none else some (firstAnswer .zero d)
  | some r =>
    if r.state = .dead then none
    else if rpcIsClient k.rpcid && decide (r.state = .outgoing) then some (firstAnswer r d)
    else some (setBitmap r d.seq).2

/-- `bytes_remaining` once the segment is accounted for; a completed response is deleted right
    after that. -/
def remainingAfter (s : HomaState) (d : DataHeader) (k : RpcKey) : U64 :=
  match s.rpcTbl k with
  | none => (newServerRpc k d).cc.bytesRemaining
  | some r =>
    if rpcIsClient k.rpcid && decide (r.state = .outgoing) then
      (startMessage r d).cc.bytesRemaining
    else (recordSegment r d).1.cc.bytesRemaining

structure ArrivalOk (m : Message) (k : RpcKey) (s : MsgRun) (a : Arrival) : Prop where
  passed : a.seq ∉ s.seen → (receiveData s.st a.hdr a.ip a.env).2.verdict = .redirect
  dropped : a.seq ∈ s.seen → (receiveData s.st a.hdr a.ip a.env).2.verdict = .drop
  remaining : s.seen ≠ range m.n →
    (remainingAfter s.st a.hdr k).toNat = m.length - ∑ i ∈ insert a.seq s.seen, m.segLen i
  stored : ∀ r, (receiveData s.st a.hdr a.ip a.env).1.rpcTbl k = some r →
    r.cc.bytesRemaining = remainingAfter s.st a.hdr k
  completes : bitmapAnswer s.st a.hdr k = some .complete ↔
    a.seq ∉ s.seen ∧ insert a.seq s.seen = range m.n
  zero : bitmapAnswer s.st a.hdr k = some .complete → remainingAfter s.st a.hdr k = 0#64

structure MsgInv (m : Message) (k : RpcKey) (s : MsgRun) : Prop where
  awaiting : s.seen = ∅ → Awaiting s.st k
  receiving : s.seen ≠ ∅ → s.seen ≠ range m.n → Receiving m s.seen s.st k
  finished : s.seen = range m.n → Finished m s.st k
  below : ∀ i ∈ s.seen, i < m.n
  nodup : s.delivered.Nodup
  mem_delivered : ∀ i, i ∈ s.delivered ↔ i ∈ s.seen

section

variable {s : MsgRun} {a : Arrival}

theorem Holds.toNat_remaining {S : Finset Nat} (h : Holds m S r) :
    r.cc.bytesRemaining.toNat = m.length - ∑ i ∈ S, m.segLen i := by
  have := h.remaining
  omega

theorem Holds.remaining_eq {S : Finset Nat} {r r' : RpcState} (h : Holds m S r)
    (h' : Holds m S r') : r.cc.bytesRemaining = r'.cc.bytesRemaining := by
  rw [← BitVec.toNat_inj, h.toNat_remaining, h'.toNat_remaining]

theorem empty_ne_range (m : Message) : (∅ : Finset Nat) ≠ range m.n := by
  intro h
  have := congrArg card h
  rw [card_range, card_empty] at this
  have := m.two_le
  omega

theorem singleton_ne_range (m : Message) (i : Nat) : ({i} : Finset Nat) ≠ range m.n := by
  intro h
  have := congrArg card h
  rw [card_range, card_singleton] at this
  have := m.two_le
  omega

theorem arrivalOk_first (h : MsgInv m k s) (hd : ArrivalDom m k s a) (hs : s.seen = ∅) :
    ArrivalOk m k s a ∧ Receiving m (insert a.seq s.seen) (arrive s a).st k := by
  obtain rfl := hd.rpc
  have haw := h.awaiting hs
  have hfirst := receiveData_first hd.segment haw (hd.first hs) hd.map hd.obj
  -- the answer and the bytes that remain, in both kinds of message
  have hobs : bitmapAnswer s.st a.hdr (a.hdr.hkey a.ip) = some .more ∧
      ∃ r, Holds m {a.seq} r ∧
        remainingAfter s.st a.hdr (a.hdr.hkey a.ip) = r.cc.bytesRemaining := by
    unfold Awaiting at haw
    unfold bitmapAnswer remainingAfter
    cases hcl : rpcIsClient (a.hdr.hkey a.ip).rpcid with
    | true =>
      simp only [hcl, if_true] at haw
      obtain ⟨r, hr, hout⟩ := haw
      have hstart := holds_startMessage hd.segment r
      simp only [hr, hout, reduceCtorEq, if_false, decide_true, Bool.and_self, if_true]
      exact ⟨congrArg some hstart.2.2, _, hstart.1, rfl⟩
    | false =>
      simp only [hcl, Bool.false_eq_true, if_false] at haw
      simp only [haw, hd.first hs, Bool.or_self, Bool.false_eq_true, if_false]
      exact ⟨congrArg some (holds_startMessage hd.segment _).2.2, _,
        (holds_startMessage hd.segment _).1, rfl⟩
  obtain ⟨hans, r, hr, hrem⟩ := hobs
  have hseen : insert a.seq s.seen = {a.seq} := by rw [hs, LawfulSingleton.insert_empty_eq]
  refine ⟨⟨fun _ => hfirst.1, fun hmem => ?_, fun _ => ?_, fun r' hr' => ?_, ?_, ?_⟩, ?_⟩
  · rw [hs] at hmem
    exact absurd hmem (notMem_empty _)
  · rw [hrem, hr.toNat_remaining, hseen]
  · obtain ⟨r'', hr'', -, hholds⟩ := hfirst.2
    rw [hr'', Option.some_inj] at hr'
    rw [← hr', hrem, hholds.remaining_eq hr]
  · rw [hans, hseen]
    exact ⟨nofun, fun h => absurd h.2 (singleton_ne_range m _)⟩
  · rw [hans]
    intro h
    cases h
  · rw [hseen]
    exact hfirst.2

theorem observed_of_started {st : HomaState} {d : DataHeader}
    (hr : st.rpcTbl k = some r) (hstate : r.state = .incoming ∨ r.state = .inService) :
    bitmapAnswer st d k = some (setBitmap r d.seq).2 ∧
      remainingAfter st d k = (recordSegment r d).1.cc.bytesRemaining := by
  unfold bitmapAnswer remainingAfter
  rcases hstate with hstate | hstate <;> simp [hr, hstate]

theorem recordSegment_snd (r : RpcState) (d : DataHeader) :
    (recordSegment r d).2 = (setBitmap r d.seq).2 := by
  unfold recordSegment
  split <;> simp_all

theorem arrivalOk_dup (hd : ArrivalDom m k s a) (hr : s.st.rpcTbl k = some r)
    (hholds : Holds m s.seen r) (hstate : r.state = .incoming ∨ r.state = .inService)
    (hmem : a.seq ∈ s.seen) : ArrivalOk m k s a ∧ (arrive s a).st = s.st := by
  obtain rfl := hd.rpc
  have hdrop : receiveData s.st a.hdr a.ip a.env = (s.st, .of .drop) :=
    receiveData_dup hd.segment hr hholds hstate hmem
  have hobs := observed_of_started (d := a.hdr) hr hstate
  rw [← recordSegment_snd, recordSegment_of_mem hholds hd.segment hmem] at hobs
  have hseen : insert a.seq s.seen = s.seen := insert_eq_of_mem hmem
  refine ⟨⟨fun h => absurd hmem h, fun _ => ?_, fun _ => ?_, fun r' hr' => ?_, ?_, ?_⟩, ?_⟩
  · rw [hdrop]
    rfl
  · rw [hobs.2, hseen, hholds.toNat_remaining]
  · rw [hdrop, hr, Option.some_inj] at hr'
    rw [hobs.2, ← hr']
  · rw [hobs.1]
    exact ⟨nofun, fun h => absurd hmem h.1⟩
  · rw [hobs.1]
    nofun
  · exact congrArg Prod.fst hdrop

theorem arrivalOk_new (hd : ArrivalDom m k s a) (hs : Receiving m s.seen s.st k)
    (hmem : a.seq ∉ s.seen) : ArrivalOk m k s a ∧
      if insert a.seq s.seen = range m.n then Finished m (arrive s a).st k
      else Receiving m (insert a.seq s.seen) (arrive s a).st k := by
  obtain rfl := hd.rpc
  have hnew := receiveData_new hd.segment hs hmem hd.obj
  obtain ⟨r, hr, hstate, hholds⟩ := hs
  have hobs := observed_of_started (d := a.hdr) hr (.inl hstate)
  obtain ⟨r', hrec, hholds', -⟩ := recordSegment_of_not_mem hholds hd.segment hmem
  rw [← recordSegment_snd, hrec] at hobs
  refine ⟨⟨fun _ => hnew.1, fun h => absurd h hmem, fun _ => ?_, fun r'' hr'' =>
    ?_, ?_, ?_⟩, hnew.2⟩
  · rw [hobs.2, hholds'.toNat_remaining]
  · -- whatever is in the table afterwards holds the same segments
    rw [hobs.2]
    have hfinal := hnew.2
    split_ifs at hfinal with hfull
    · unfold Finished at hfinal
      split_ifs at hfinal
      · rw [hfinal] at hr''
        cases hr''
      · obtain ⟨q, hq, -, hqh⟩ := hfinal
        rw [hq, Option.some_inj] at hr''
        rw [← hr'']
        exact hqh.remaining_eq (hfull ▸ hholds')
    · obtain ⟨q, hq, -, hqh⟩ := hfinal
      rw [hq, Option.some_inj] at hr''
      rw [← hr'']
      exact hqh.remaining_eq hholds'
  · rw [hobs.1]
    split_ifs with hfull <;> simp [hmem, hfull]
  · rw [hobs.1, hobs.2]
    split_ifs with hfull
    · exact fun _ => hholds'.remaining_eq_zero_iff.mpr hfull
    · nofun

theorem arrivalOk_gone (hd : ArrivalDom m k s a) (hcl : rpcIsClient k.rpcid = true)
    (hr : s.st.rpcTbl k = none) (hmem : a.seq ∈ s.seen) (hfull : s.seen = range m.n) :
    ArrivalOk m k s a ∧ (arrive s a).st = s.st := by
  obtain rfl := hd.rpc
  have hdrop : receiveData s.st a.hdr a.ip a.env = (s.st, .of .drop) := by
    rw [rpcid_hkey] at hcl
    simp [receiveData, clientResponse, hcl, hr]
  have hans : bitmapAnswer s.st a.hdr (a.hdr.hkey a.ip) = none := by
    simp [bitmapAnswer, hr, hcl]
  refine ⟨⟨fun h => absurd hmem h, fun _ => ?_, fun h => absurd hfull h, fun r hr' => ?_, ?_, ?_⟩,
    congrArg Prod.fst hdrop⟩
  · rw [hdrop]
    rfl
  · rw [hdrop, hr] at hr'
    cases hr'
  · rw [hans]
    exact ⟨by simp, fun h => absurd hmem h.1⟩
  · simp [hans]

theorem arrive_spec (h : MsgInv m k s) (hd : ArrivalDom m k s a) :
    ArrivalOk m k s a ∧ MsgInv m k (arrive s a) := by
  have hlt : a.seq < m.n := hd.segment.lt
  have hbelow : ∀ i ∈ insert a.seq s.seen, i < m.n := by
    intro i hi
    rcases mem_insert.mp hi with rfl | hi
    · exact hlt
    · exact h.below i hi
  have hne : insert a.seq s.seen ≠ ∅ := insert_ne_empty _ _
  by_cases hmem : a.seq ∈ s.seen
  · -- a duplicate leaves everything as it is
    have hdup : ArrivalOk m k s a ∧ (arrive s a).st = s.st := by
      by_cases hfull : s.seen = range m.n
      · have hfin := h.finished hfull
        unfold Finished at hfin
        split_ifs at hfin with hcl
        · exact arrivalOk_gone hd hcl hfin hmem hfull
        · obtain ⟨r, hr, hstate, hholds⟩ := hfin
          exact arrivalOk_dup hd hr (hfull ▸ hholds) (.inr hstate) hmem
      · obtain ⟨r, hr, hstate, hholds⟩ := h.receiving (ne_empty_of_mem hmem) hfull
        exact arrivalOk_dup hd hr hholds (.inl hstate) hmem
    obtain ⟨hok, hst⟩ := hdup
    have hseen : (arrive s a).seen = s.seen := insert_eq_of_mem hmem
    have hdel : (arrive s a).delivered = s.delivered := by
      simp [arrive, hok.dropped hmem]
    refine ⟨hok, ⟨?_, ?_, ?_, ?_, ?_, ?_⟩⟩
    · rw [hseen, hst]; exact h.awaiting
    · rw [hseen, hst]; exact h.receiving
    · rw [hseen, hst]; exact h.finished
    · rw [hseen]; exact h.below
    · rw [hdel]; exact h.nodup
    · rw [hdel, hseen]; exact h.mem_delivered
  · have hnew : ArrivalOk m k s a ∧
        if insert a.seq s.seen = range m.n then Finished m (arrive s a).st k
        else Receiving m (insert a.seq s.seen) (arrive s a).st k := by
      by_cases hempty : s.seen = ∅
      · obtain ⟨hok, hrec⟩ := arrivalOk_first h hd hempty
        refine ⟨hok, ?_⟩
        rw [if_neg (by rw [hempty]; exact singleton_ne_range m _)]
        exact hrec
      · have hfull : s.seen ≠ range m.n := fun he =>
          hmem (he ▸ mem_range.mpr hlt)
        exact arrivalOk_new hd (h.receiving hempty hfull) hmem
    obtain ⟨hok, hst⟩ := hnew
    have hdel : (arrive s a).delivered = s.delivered ++ [a.seq] := by
      simp [arrive, hok.passed hmem]
    refine ⟨hok, ⟨fun he => absurd he hne, fun _ hf => ?_, fun hf => ?_, hbelow, ?_, fun i => ?_⟩⟩
    · rwa [if_neg (show insert a.seq s.seen ≠ _ from hf)] at hst
    · rwa [if_pos (show insert a.seq s.seen = _ from hf)] at hst
    · rw [hdel]
      refine h.nodup.append (List.nodup_singleton _) (List.disjoint_singleton.mpr fun hi => ?_)
      exact hmem ((h.mem_delivered _).mp hi)
    · rw [hdel, List.mem_append, List.mem_singleton, h.mem_delivered]
      exact (mem_insert.trans or_comm).symm

theorem seen_run (s : MsgRun) (as : List Arrival) :
    ∀ i, i ∈ (run arrive s as).seen ↔ i ∈ s.seen ∨ i ∈ as.map Arrival.seq := by
  induction as generalizing s with
  | nil => simp
  | cons a as ih =>
    intro i
    rw [run_cons, ih]
    simp [arrive, or_assoc, or_left_comm]

end

/-- **Completion exactly once**, and each distinct segment goes to user space once, in whatever
    order they arrive. -/
theorem message_completes_once (m : Message) (k : RpcKey) (st : HomaState) (h0 : Awaiting st k)
    (as : List Arrival) (hdom : Meets arrive (ArrivalDom m k) ⟨st, ∅, []⟩ as) :
    Meets arrive (ArrivalOk m k) ⟨st, ∅, []⟩ as ∧
      (run arrive ⟨st, ∅, []⟩ as).delivered.Nodup ∧
      ∀ i, i ∈ (run arrive ⟨st, ∅, []⟩ as).delivered ↔ i ∈ as.map Arrival.seq := by
  have hinit : MsgInv m k ⟨st, ∅, []⟩ :=
    ⟨fun _ => h0, fun h => absurd rfl h, fun h => absurd h (empty_ne_range m), nofun,
      List.nodup_nil, fun i => by simp⟩
  have hstep : ∀ s a, MsgInv m k s → ArrivalDom m k s a → MsgInv m k (arrive s a) :=
    fun s a hs ha => (arrive_spec hs ha).2
  have hend := run_of_meets hstep hinit hdom
  refine ⟨meets_of_inv hstep (fun s a hs ha => (arrive_spec hs ha).1) hinit hdom, hend.nodup, ?_⟩
  intro i
  rw [hend.mem_delivered, seen_run]
  simp

def requestSegment (i : Nat) (again : Bool) : Arrival where
  hdr :=
    { sport := 7, dport := 9, seq := BitVec.ofNat 16 i, senderId := 4, messageLength := 2000
      incoming := 2000, retransmit := again, segOffset := BitVec.ofNat 32 (i * homaMss)
      segmentLength := BitVec.ofNat 32 (twoPackets.segLen i) }
  ip := 0x0a000001
  env := ⟨0, 1000, true, true, true⟩

theorem message_completes_once_at :
    Meets arrive (ArrivalOk twoPackets ⟨5, 9, 7, 0x0a000001⟩) ⟨HomaState.initial, ∅, []⟩
        [requestSegment 1 false, requestSegment 0 false, requestSegment 1 true] ∧
      (run arrive ⟨HomaState.initial, ∅, []⟩
        [requestSegment 1 false, requestSegment 0 false, requestSegment 1 true]).delivered.Nodup ∧
      ∀ i, i ∈ (run arrive ⟨HomaState.initial, ∅, []⟩
          [requestSegment 1 false, requestSegment 0 false, requestSegment 1 true]).delivered ↔
        i ∈ [requestSegment 1 false, requestSegment 0 false, requestSegment 1 true].map
          Arrival.seq := by
  refine message_completes_once twoPackets ⟨5, 9, 7, 0x0a000001⟩ HomaState.initial rfl _ ?_
  have hseg : ∀ i again, i < 2 → IsSegment twoPackets i (requestSegment i again).hdr := by
    intro i again hi
    have : i = 0 ∨ i = 1 := by omega
    rcases this with rfl | rfl <;> cases again <;>
      exact ⟨by decide, by decide, by decide, by decide, by decide⟩
  refine ⟨⟨hseg 1 false (by decide), rfl, fun _ => rfl, rfl, rfl⟩,
    ⟨hseg 0 false (by decide), rfl, fun _ => rfl, rfl, rfl⟩,
    ⟨hseg 1 true (by decide), rfl, fun h => ?_, rfl, rfl⟩, trivial⟩
  -- by then two segments have arrived
  exact absurd h (insert_ne_empty _ _)

end MtpXdp.Homa
