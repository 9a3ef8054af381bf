import MtpXdp.Core.Parted
import MtpXdp.Lib.CreditAgreement

/-!
# Who Owns a Received Frame

Until a received frame goes back to a fill ring it should be in one place: the buffer cache of the
thread, or one of the two lists of a connection. `handle_rx` loses frames in two ways: a segment
that fits no tracked interval is put nowhere, and a packet without payload may clear the
out-of-order list without returning what is in it.
-/

namespace MtpXdp.Lib

open MtpXdp.Core Ebpf List

/-! ## Places -/

inductive Place where
  | cache
  | rx (conn : U64)
  | ooo (conn : U64)
deriving DecidableEq

def Thread.held (s : Thread) : Place → List U64
  | .cache => s.tctx.iobuffer
  | .rx conn => (s.conns conn).rxAddrs.map Prod.fst
  | .ooo conn => (s.conns conn).oooRxAddrs.map Prod.fst

structure Hands where
  thread : Thread
  inHand : List U64

inductive BufEvent where
  | packet (addr : U64) (p : RxPkt) (last : Bool)
  | recv (conn : U64) (count : Nat)
  | refill (n : Nat)

def Thread.takeCache (s : Thread) (n : Nat) : Thread :=
  { s with tctx := { s.tctx with iobuffer := s.tctx.iobuffer.drop n } }

def bufStep (s : Hands) : BufEvent → Hands
  | .packet addr p last => ⟨(handleRx s.thread addr p last).1, s.inHand ++ [addr]⟩
  | .recv conn count => ⟨(connRecv s.thread conn count).1, s.inHand⟩
  | .refill n =>
    ⟨s.thread.takeCache n, s.inHand.filter fun a => a ∉ s.thread.tctx.iobuffer.take n⟩

def FromNic (s : Hands) : BufEvent → Prop
  | .packet addr _ _ => addr ∉ s.inHand
  | _ => True

instance (s : Hands) (e : BufEvent) : Decidable (FromNic s e) := by
  unfold FromNic
  split <;> infer_instance

def OneOwner (s : Hands) : Prop := Parted s.inHand s.thread.held

def RxPkt.ForConn (p : RxPkt) : Prop :=
  ¬ (p.md.conn = poison64 ∨ p.md.conn = 0#64) ∧ p.md.qid ≠ poison32
deriving Decidable

/-- A payload is filed, and a packet without one finds the out-of-order list empty when it clears
    it. -/
def PacketKept (s : Thread) (p : RxPkt) : Prop :=
  p.ForConn →
    (p.md.plen ≠ poison16 → Accepted s.tctx.mtp p) ∧
    (p.md.plen = poison16 → p.md.oooBump &&& oooClearMask ≠ 0#32 →
      (s.conns p.md.conn).oooRxAddrs = [])
deriving Decidable

/-- The packet is not dropped, and makes the library drop no frame that was out of order. -/
def NothingLost (s : Hands) : BufEvent → Prop
  | .packet _ p _ => PacketKept s.thread p
  | _ => True

instance (s : Hands) (e : BufEvent) : Decidable (NothingLost s e) := by
  unfold NothingLost
  split <;> infer_instance

/-! ## What leaves the places alone -/

section

variable {s s' : Thread} {conn : U64} {c : EtranConn}

theorem held_congr (hcache : s'.tctx.iobuffer = s.tctx.iobuffer)
    (hrx : ∀ a, (s'.conns a).rxAddrs = (s.conns a).rxAddrs)
    (hooo : ∀ a, (s'.conns a).oooRxAddrs = (s.conns a).oooRxAddrs) : s'.held = s.held := by
  funext p
  cases p with
  | cache => exact hcache
  | rx a => exact congrArg (map Prod.fst) (hrx a)
  | ooo a => exact congrArg (map Prod.fst) (hooo a)

theorem held_setConn (s : Thread) (conn : U64) (c : EtranConn) (p : Place) :
    (s.setConn conn c).held p = if p = .rx conn then c.rxAddrs.map Prod.fst
      else if p = .ooo conn then c.oooRxAddrs.map Prod.fst else s.held p := by
  cases p with
  | cache => rfl
  | rx a =>
    by_cases ha : a = conn
    · subst ha
      rw [if_pos rfl, Thread.held, setConn_conns_self]
    · rw [if_neg (fun h => ha (Place.rx.inj h)), if_neg Place.noConfusion, Thread.held,
        setConn_conns_of_ne (Ne.symm ha)]
      rfl
  | ooo a =>
    by_cases ha : a = conn
    · subst ha
      rw [if_neg Place.noConfusion, if_pos rfl, Thread.held, setConn_conns_self]
    · rw [if_neg Place.noConfusion, if_neg (fun h => ha (Place.ooo.inj h)), Thread.held,
        setConn_conns_of_ne (Ne.symm ha)]
      rfl

theorem held_setConn_of_same (hrx : c.rxAddrs = (s.conns conn).rxAddrs)
    (hooo : c.oooRxAddrs = (s.conns conn).oooRxAddrs) : (s.setConn conn c).held = s.held := by
  funext p
  rw [held_setConn]
  split_ifs with hr ho
  · rw [hr, hrx]
    rfl
  · rw [ho, hooo]
    rfl
  · rfl

theorem held_settle (s : Thread) :
    (lazyUpdatePrevConnTxev (lazyUpdatePrevConnRxev s)).held = s.held := by
  obtain ⟨events, htx⟩ := lazyUpdatePrevConnTxev_eq (lazyUpdatePrevConnRxev s)
  rw [htx]
  refine held_congr ?_ ?_ ?_
  · change (lazyUpdatePrevConnRxev s).tctx.iobuffer = _
    rw [lazyUpdatePrevConnRxev_tctx]
  · intro a
    rw [lazyUpdatePrevConnRxev_conns]
  · intro a
    rw [lazyUpdatePrevConnRxev_conns]

theorem held_cacheConn (s : Thread) (conn : U64) : (cacheConn s conn).held = s.held := by
  unfold cacheConn
  split_ifs
  · exact held_settle s
  · rfl
  · rfl

theorem held_endPoll (s : Thread) : (endPoll s).held = s.held := by
  unfold endPoll
  dsimp only
  split_ifs
  · exact held_settle s
  · obtain ⟨events, htx⟩ := lazyUpdatePrevConnTxev_eq s
    rw [htx]
    rfl

theorem syncState_lists (t : ThreadCtx) (conn : U64) (c : EtranConn) (p : RxPkt) :
    (syncState t conn c p).1.iobuffer = t.iobuffer ∧ (syncState t conn c p).1.mtp = t.mtp ∧
      (syncState t conn c p).2.1.rxAddrs = c.rxAddrs ∧
      (syncState t conn c p).2.1.oooRxAddrs = c.oooRxAddrs := by
  have hback : (syncGoBack c p.md.ackBytes).1.rxAddrs = c.rxAddrs ∧
      (syncGoBack c p.md.ackBytes).1.oooRxAddrs = c.oooRxAddrs := by
    unfold syncGoBack
    dsimp only
    split_ifs <;> exact ⟨rfl, rfl⟩
  unfold syncState
  generalize syncGoBack c p.md.ackBytes = r at hback
  obtain ⟨c', goBack⟩ := r
  cases goBack <;> dsimp only at hback ⊢ <;> split_ifs <;> exact ⟨rfl, rfl, hback⟩

theorem held_syncConn (s : Thread) (p : RxPkt) :
    (syncConn s p).held = s.held ∧ (syncConn s p).tctx.mtp = s.tctx.mtp := by
  obtain ⟨hcache, hmtp, hrx, hooo⟩ := syncState_lists s.tctx p.md.conn (s.conns p.md.conn) p
  unfold syncConn
  dsimp only
  generalize syncState s.tctx p.md.conn (s.conns p.md.conn) p = r at hcache hmtp hrx hooo
  obtain ⟨t, c, sendEvent⟩ := r
  have hset : ({ s with tctx := t }.setConn p.md.conn c).held = s.held :=
    (held_setConn_of_same (s := { s with tctx := t }) hrx hooo).trans
      (held_congr hcache (fun _ => rfl) (fun _ => rfl))
  cases sendEvent <;> exact ⟨hset, hmtp⟩

theorem held_noteQueue (s : Thread) (p : RxPkt) :
    (noteQueue s p).held = s.held ∧ (noteQueue s p).tctx.mtp = s.tctx.mtp := by
  unfold noteQueue
  split_ifs
  · exact ⟨(held_congr rfl (fun _ => rfl) (fun _ => rfl)).trans
      (held_setConn_of_same (s := s) rfl rfl), rfl⟩
  · exact ⟨rfl, rfl⟩

theorem mtp_cacheConn (s : Thread) (conn : U64) : (cacheConn s conn).tctx.mtp = s.tctx.mtp := by
  unfold cacheConn
  split_ifs
  · obtain ⟨events, htx⟩ := lazyUpdatePrevConnTxev_eq (lazyUpdatePrevConnRxev s)
    rw [htx]
    rw [lazyUpdatePrevConnRxev_tctx]
  · rfl
  · rfl

end

/-! ## Where a frame goes -/

structure PutAt (p : Place) (addr : U64) (held held' : Place → List U64) : Prop where
  place : held' p = held p ++ [addr]
  others : ∀ q, q ≠ p → held' q = held q

inductive Handled (s : Thread) (addr : U64) (p : RxPkt) (held' : Place → List U64) : Prop where
  | returned (hkept : PacketKept s p) (h : PutAt .cache addr s.held held')
  | cleared (hfor : p.ForConn) (hplen : p.md.plen = poison16)
      (hclear : p.md.oooBump &&& oooClearMask ≠ 0#32)
      (hcache : held' .cache = s.held .cache ++ [addr]) (hooo : held' (.ooo p.md.conn) = [])
      (hothers : ∀ q, q ≠ .cache → q ≠ .ooo p.md.conn → held' q = s.held q)
  | filed (hkept : PacketKept s p) (place : Place) (h : PutAt place addr s.held held')
  | closing (hkept : PacketKept s p)
      (hrx : held' (.rx p.md.conn) = s.held (.rx p.md.conn) ++ s.held (.ooo p.md.conn) ++ [addr])
      (hooo : held' (.ooo p.md.conn) = [])
      (hothers : ∀ q, q ≠ .rx p.md.conn → q ≠ .ooo p.md.conn → held' q = s.held q)
  | dropped (hfor : p.ForConn) (hplen : p.md.plen ≠ poison16)
      (hnot : ¬ Accepted s.tctx.mtp p) (h : held' = s.held)

section

variable {s s' : Thread} {addr : U64} {p : RxPkt}

theorem Handled.congr {held' : Place → List U64} (h : Handled s' addr p held')
    (hheld : s'.held = s.held) (hmtp : s'.tctx.mtp = s.tctx.mtp) : Handled s addr p held' := by
  have hkeep : PacketKept s' p → PacketKept s p := by
    intro h hfor
    refine ⟨fun hplen => hmtp ▸ (h hfor).1 hplen, fun hplen hclear => ?_⟩
    have hempty := congrFun hheld (.ooo p.md.conn)
    simp only [Thread.held, (h hfor).2 hplen hclear, map_nil] at hempty
    exact map_eq_nil_iff.mp hempty.symm
  cases h with
  | returned hkept h => exact .returned (hkeep hkept) (hheld ▸ h)
  | cleared hfor hplen hclear hcache hooo hothers =>
    exact .cleared hfor hplen hclear (hheld ▸ hcache) hooo (hheld ▸ hothers)
  | filed hkept place h => exact .filed (hkeep hkept) place (hheld ▸ h)
  | closing hkept hrx hooo hothers =>
    exact .closing (hkeep hkept) (hheld ▸ hrx) hooo (hheld ▸ hothers)
  | dropped hfor hplen hnot h => exact .dropped hfor hplen (hmtp ▸ hnot) (h.trans hheld)

section

variable (s : Thread)

theorem putAt_bcacheProd (addr : U64) :
    PutAt .cache addr s.held ({ s with tctx := s.tctx.bcacheProd addr } : Thread).held where
  place := rfl
  others q hq := by
    cases q with
    | cache => exact absurd rfl hq
    | rx a => rfl
    | ooo a => rfl

theorem putAt_setConn_rx (conn addr : U64) (p : RxPkt) :
    PutAt (.rx conn) addr s.held (s.setConn conn (inOrderReceive (s.conns conn) addr p)).held where
  place := by
    rw [held_setConn, if_pos rfl]
    exact map_append
  others q hq := by
    rw [held_setConn, if_neg hq]
    split_ifs with ho
    · rw [ho]
      rfl
    · rfl

theorem putAt_setConn_ooo (conn addr : U64) (p : RxPkt) : PutAt (.ooo conn) addr s.held
      (s.setConn conn (outOfOrderReceive (s.conns conn) addr p)).held where
  place := by
    rw [held_setConn, if_neg Place.noConfusion, if_pos rfl]
    exact map_append
  others q hq := by
    rw [held_setConn]
    split_ifs with hr
    · rw [hr]
      rfl
    · rfl

theorem handled_noPayload (addr : U64) (hfor : p.ForConn)
    (hplen : p.md.plen = poison16) : Handled s addr p (noPayload s addr p).held := by
  unfold noPayload
  dsimp only
  by_cases hclear : p.md.oooBump &&& oooClearMask ≠ 0#32
  · rw [if_pos hclear]
    have hput := putAt_bcacheProd
      (s.setConn p.md.conn { s.conns p.md.conn with oooRxAddrs := [] }) addr
    refine .cleared hfor hplen hclear hput.place ?_ ?_
    · rw [hput.others _ Place.noConfusion, held_setConn, if_neg Place.noConfusion, if_pos rfl]
      rfl
    · intro q hcache hooo
      rw [hput.others q hcache, held_setConn, if_neg hooo]
      split_ifs with hr
      · rw [hr]
        rfl
      · rfl
  · rw [if_neg hclear]
    exact .returned (fun _ => ⟨fun h => absurd hplen h, fun _ h => absurd h hclear⟩)
      (putAt_bcacheProd s addr)

theorem handled_filePayload (addr : U64) (hfor : p.ForConn)
    (hplen : p.md.plen ≠ poison16) : Handled s addr p (filePayload s addr p).1.held := by
  let call : FileCall :=
    { conn := s.conns p.md.conn, addr := addr, bump := s.locals.cachedRxBump, pkt := p }
  have hheld : (filePayload s addr p).1.held =
      (s.setConn p.md.conn (fileCall s.tctx.mtp call).conn).held :=
    held_congr rfl (fun _ => rfl) (fun _ => rfl)
  rw [hheld]
  have hkept (hacc : Accepted s.tctx.mtp p) : PacketKept s p := fun _ =>
    ⟨fun _ => hacc, fun h => absurd h hplen⟩
  cases hfollow : s.tctx.mtp.followingPackets with
  | false =>
    rw [fileCall_of_first (e := call) hfollow]
    exact .filed (hkept (Or.inl hfollow)) (.rx p.md.conn) (putAt_setConn_rx s p.md.conn addr _)
  | true =>
    by_cases hseq : s.tctx.mtp.expectedSeq = p.startSeq
    · have hacc : Accepted s.tctx.mtp p := Or.inr (Or.inl hseq)
      rw [fileCall_of_inOrder (e := call) hfollow hseq]
      by_cases hhole : FillsHole s.tctx.mtp call.pkt
      · -- the held frames come in front of this one
        rw [if_pos hhole]
        refine .closing (hkept hacc) ?_ ?_ ?_
        · rw [held_setConn, if_pos rfl]
          exact map_append.trans (congrArg (· ++ [addr]) map_append)
        · rw [held_setConn, if_neg Place.noConfusion, if_pos rfl]
          rfl
        · intro q hr ho
          rw [held_setConn, if_neg hr, if_neg ho]
      · rw [if_neg hhole]
        exact .filed (hkept hacc) (.rx p.md.conn) (putAt_setConn_rx s p.md.conn addr _)
    · rw [fileCall_of_outOfOrder (e := call) hfollow hseq]
      have hooo := putAt_setConn_ooo s p.md.conn addr
        (p.setPos (rxPosOf s.tctx.mtp p.md.rxPos))
      unfold fileOutOfOrder
      split_ifs with hempty hend hstart
      · exact .filed (hkept (Or.inr (Or.inr (Or.inl hempty)))) (.ooo p.md.conn) hooo
      · exact .filed (hkept (Or.inr (Or.inr (Or.inr (Or.inl hend))))) (.ooo p.md.conn) hooo
      · exact .filed (hkept (Or.inr (Or.inr (Or.inr (Or.inr hstart))))) (.ooo p.md.conn) hooo
      · -- the segment fits no interval
        refine .dropped hfor hplen ?_ (held_setConn_of_same rfl rfl)
        rintro (h | h | h | h | h)
        · exact absurd (hfollow.symm.trans h) Bool.noConfusion
        · exact hseq h
        · exact hempty h
        · exact hend h
        · exact hstart h

theorem handleRx_cases (addr : U64) (p : RxPkt) (last : Bool) :
    Handled s addr p (handleRx s addr p last).1.held := by
  have hend : ∀ s' : Thread, Handled s addr p s'.held →
      Handled s addr p (if last then endPoll s' else s').held := by
    intro s' h
    split_ifs
    · rwa [held_endPoll]
    · exact h
  unfold handleRx
  by_cases hnobody : p.md.conn = poison64 ∨ p.md.conn = 0#64
  · rw [if_pos hnobody]
    exact hend _ (.returned (fun hfor => absurd hnobody hfor.1) (putAt_bcacheProd s addr))
  · rw [if_neg hnobody]
    refine hend _ ?_
    unfold handleConnRx
    by_cases hqid : p.md.qid = poison32
    · rw [if_pos hqid]
      have hsync := held_syncConn (cacheConn s p.md.conn) p
      refine .returned (fun hfor => absurd hqid hfor.2) ?_
      rw [← held_cacheConn s p.md.conn, ← hsync.1]
      exact putAt_bcacheProd _ addr
    · rw [if_neg hqid]
      have hfor : p.ForConn := ⟨hnobody, hqid⟩
      obtain ⟨hheld, hmtp⟩ := held_syncConn (noteQueue (cacheConn s p.md.conn) p) p
      obtain ⟨hheld', hmtp'⟩ := held_noteQueue (cacheConn s p.md.conn) p
      have hsame := hheld.trans (hheld'.trans (held_cacheConn s p.md.conn))
      have hmtpSame := hmtp.trans (hmtp'.trans (mtp_cacheConn s p.md.conn))
      by_cases hplen : p.md.plen = poison16
      · rw [if_pos hplen]
        exact (handled_noPayload _ addr hfor hplen).congr hsame hmtpSame
      · rw [if_neg hplen]
        exact (handled_filePayload _ addr hfor hplen).congr hsame hmtpSame

end

end

/-! ## Steps -/

section

variable {s : Hands} {all : List U64}

theorem peekLoop_perm (hit : U32 → Bool) (size : U32) (count copied : Nat)
    (l : List (U64 × RxPkt)) : (l.map Prod.fst).Perm ((peekLoop hit size count copied l).freed ++
      (peekLoop hit size count copied l).left.map Prod.fst) := by
  induction l generalizing copied with
  | nil => exact List.Perm.refl _
  | cons x l ih =>
    obtain ⟨addr, p⟩ := x
    unfold peekLoop
    dsimp only
    split_ifs
    · exact List.Perm.refl _
    · exact (ih _).cons addr
    · exact List.Perm.refl _
    · exact List.Perm.refl _
    · exact ((ih _).cons addr).trans perm_middle.symm

theorem rxPeekCountZc_perm (c : EtranConn) (count : Nat) :
    (c.rxAddrs.map Prod.fst).Perm ((rxPeekCountZc c count).freed ++
      (rxPeekCountZc c count).left.map Prod.fst) := by
  unfold rxPeekCountZc
  split_ifs
  · exact List.Perm.refl _
  · exact peekLoop_perm _ _ _ _ _

theorem rxRelease_lists (t : ThreadCtx) (conn : U64) (c : EtranConn) (len : Nat) :
    (rxRelease t conn c len).1.iobuffer = t.iobuffer ∧
      (rxRelease t conn c len).2.rxAddrs = c.rxAddrs ∧
      (rxRelease t conn c len).2.oooRxAddrs = c.oooRxAddrs := by
  unfold rxRelease
  dsimp only
  split_ifs <;> exact ⟨rfl, rfl, rfl⟩

theorem connRecv_held (s : Thread) (conn : U64) (count : Nat) (p : Place) :
    (connRecv s conn count).1.held p =
      if p = .cache then s.tctx.iobuffer ++ (rxPeekCountZc (s.conns conn) count).freed
      else if p = .rx conn then (rxPeekCountZc (s.conns conn) count).left.map Prod.fst
      else s.held p := by
  unfold connRecv
  generalize rxPeekCountZc (s.conns conn) count = r
  dsimp only
  obtain ⟨hcache, hrx, hooo⟩ :=
    rxRelease_lists { s.tctx with iobuffer := s.tctx.iobuffer ++ r.freed }
    conn { s.conns conn with rxAddrs := r.left } r.copied
  -- both branches leave the lists as they are
  generalize hrel : (if r.copied = 0 then
      (({ s.tctx with iobuffer := s.tctx.iobuffer ++ r.freed } : ThreadCtx),
        ({ s.conns conn with rxAddrs := r.left } : EtranConn))
    else rxRelease { s.tctx with iobuffer := s.tctx.iobuffer ++ r.freed } conn
      { s.conns conn with rxAddrs := r.left } r.copied) = tc
  have hlists : tc.1.iobuffer = s.tctx.iobuffer ++ r.freed ∧ tc.2.rxAddrs = r.left ∧
      tc.2.oooRxAddrs = (s.conns conn).oooRxAddrs := by
    rw [← hrel]
    split_ifs
    · exact ⟨rfl, rfl, rfl⟩
    · exact ⟨hcache, hrx, hooo⟩
  rw [held_setConn]
  cases p with
  | cache => exact hlists.1
  | rx a =>
    by_cases ha : a = conn
    · rw [if_pos (congrArg Place.rx ha), if_neg Place.noConfusion, if_pos (congrArg Place.rx ha),
        hlists.2.1]
    · have hne : Place.rx a ≠ Place.rx conn := fun h => ha (Place.rx.inj h)
      rw [if_neg hne, if_neg Place.noConfusion, if_neg Place.noConfusion, if_neg hne]
      rfl
  | ooo a =>
    by_cases ha : a = conn
    · rw [if_pos (congrArg Place.ooo ha), if_neg Place.noConfusion, if_neg Place.noConfusion,
        hlists.2.2, ha]
      rfl
    · rw [if_neg (fun h => ha (Place.ooo.inj h)), if_neg Place.noConfusion,
        if_neg Place.noConfusion]
      rfl

theorem oneOwner_recv (h : OneOwner s) (conn : U64) (count : Nat) :
    OneOwner (bufStep s (.recv conn count)) := by
  have hperm := rxPeekCountZc_perm (s.thread.conns conn) count
  have hheld := connRecv_held s.thread conn count
  refine Parted.move (p := .rx conn) (q := .cache) h Place.noConfusion
    (rxPeekCountZc (s.thread.conns conn) count).freed ?_ ?_ ?_
  · change ((s.thread.conns conn).rxAddrs.map Prod.fst).Perm (_ ++ (connRecv _ _ _).1.held _)
    rw [hheld, if_neg Place.noConfusion, if_pos rfl]
    exact hperm
  · change ((connRecv _ _ _).1.held _).Perm _
    rw [hheld, if_pos rfl]
    exact List.Perm.refl _
  · intro r hrx hcache
    change (connRecv _ _ _).1.held r = _
    rw [hheld, if_neg hcache, if_neg hrx]

theorem oneOwner_refill (h : OneOwner s) (n : Nat) : OneOwner (bufStep s (.refill n)) := by
  refine Parted.takeOut (p := .cache) h (s.thread.tctx.iobuffer.take n) ?_ ?_ ?_
  · change (s.thread.tctx.iobuffer).Perm (_ ++ s.thread.tctx.iobuffer.drop n)
    rw [take_append_drop]
  · intro q hq
    cases q with
    | cache => exact absurd rfl hq
    | rx a => rfl
    | ooo a => rfl
  · intro a
    change a ∈ s.inHand.filter _ ↔ _
    rw [mem_filter, decide_eq_true_eq]

theorem oneOwner_putAt {held held' : Place → List U64} (place : Place) {addr : U64}
    (h : Parted all held) (hnew : addr ∉ all) (hput : PutAt place addr held held') :
    Parted (all ++ [addr]) held' := by
  refine h.insert hnew (p := place) ?_ hput.others
  rw [hput.place]
  exact perm_append_singleton addr _

theorem oneOwner_packet_iff (h : OneOwner s) {addr : U64} (hnew : addr ∉ s.inHand) (p : RxPkt)
    (last : Bool) : OneOwner (bufStep s (.packet addr p last)) ↔ PacketKept s.thread p := by
  change Parted (s.inHand ++ [addr]) (handleRx s.thread addr p last).1.held ↔ _
  have hnowhere : ∀ q, addr ∉ s.thread.held q := fun q hq => hnew ((h.mem_iff addr).mpr ⟨q, hq⟩)
  have hcases := handleRx_cases s.thread addr p last
  generalize (handleRx s.thread addr p last).1.held = held' at hcases
  cases hcases with
  | returned hkept hput => exact iff_of_true (oneOwner_putAt _ h hnew hput) hkept
  | filed hkept place hput => exact iff_of_true (oneOwner_putAt _ h hnew hput) hkept
  | closing hkept hrx hooo hothers =>
    refine iff_of_true ?_ hkept
    -- first the held frames move to the other list, then the new one is added
    let mid : Place → List U64 := fun q =>
      if q = .rx p.md.conn then s.thread.held (.rx p.md.conn) ++ s.thread.held (.ooo p.md.conn)
      else held' q
    have hmid : Parted s.inHand mid := by
      refine Parted.move (p := .ooo p.md.conn) (q := .rx p.md.conn) h Place.noConfusion
        (s.thread.held (.ooo p.md.conn)) ?_ ?_ ?_
      · rw [show mid (.ooo p.md.conn) = [] from hooo, append_nil]
      · exact List.Perm.of_eq (if_pos rfl)
      · intro r hro hrr
        exact (if_neg hrr).trans (hothers r hrr hro)
    refine oneOwner_putAt (.rx p.md.conn) hmid hnew ⟨?_, ?_⟩
    · rw [hrx, show mid (.rx p.md.conn) = _ from if_pos rfl]
    · exact fun q hq => (if_neg hq).symm
  | cleared hfor hplen hclear hcache hooo hothers =>
    constructor
    · intro hpart _
      refine ⟨fun hne => absurd hplen hne, fun _ _ => ?_⟩
      -- a frame in the list that is cleared is nowhere afterwards
      by_contra hne
      obtain ⟨x, hx⟩ := exists_mem_of_ne_nil _ hne
      have hmem : x.1 ∈ s.thread.held (.ooo p.md.conn) := mem_map_of_mem hx
      have hin : x.1 ∈ s.inHand := (h.mem_iff _).mpr ⟨_, hmem⟩
      obtain ⟨q, hq⟩ := hpart.exists_place (mem_append_left _ hin)
      by_cases hqo : q = .ooo p.md.conn
      · rw [hqo, hooo] at hq
        exact not_mem_nil hq
      · have hold : x.1 ∈ s.thread.held q := by
          by_cases hqc : q = .cache
          · rw [hqc, hcache, mem_append, mem_singleton] at hq
            rw [hqc]
            refine hq.resolve_right fun heq => ?_
            exact hnew (heq ▸ hin)
          · rwa [hothers q hqc hqo] at hq
        exact hqo (h.unique _ _ _ hold hmem)
    · intro hkept
      have hempty := (hkept hfor).2 hplen hclear
      refine oneOwner_putAt .cache h hnew ⟨hcache, fun q hq => ?_⟩
      by_cases hqo : q = .ooo p.md.conn
      · rw [hqo, hooo, Thread.held, hempty]
        rfl
      · exact hothers q hq hqo
  | dropped hfor hplen hnot hsame =>
    refine iff_of_false (fun hpart => ?_) fun hkept => hnot ((hkept hfor).1 hplen)
    obtain ⟨q, hq⟩ := hpart.exists_place (mem_append_right _ (mem_singleton_self addr))
    rw [hsame] at hq
    exact hnowhere q hq

end

/-! ## Runs -/

/-- **Every frame has one owner** throughout a run exactly when no step of the run loses one. -/
theorem oneOwner_always_iff {s : Hands} (h : OneOwner s) {es : List BufEvent}
    (hnic : Meets bufStep FromNic s es) :
    Always bufStep OneOwner s es ↔ Meets bufStep NothingLost s es := by
  refine always_iff_meets ?_ ?_ (fun _ h => h) h hnic
  · intro s e h hnew hlost
    cases e with
    | packet addr p last => exact (oneOwner_packet_iff h hnew p last).mpr hlost
    | recv conn count => exact oneOwner_recv h conn count
    | refill n => exact oneOwner_refill h n
  · intro s e h hnew hnext
    cases e with
    | packet addr p last => exact (oneOwner_packet_iff h hnew p last).mp hnext
    | recv conn count => trivial
    | refill n => trivial

/-! ### Three segments with holes -/

def emptyHands : Hands := ⟨default, []⟩

theorem emptyHands_oneOwner : OneOwner emptyHands := by
  refine Parted.single (p := .cache) List.nodup_nil rfl fun q _ => ?_
  cases q <;> rfl

/-- The state of the chain after the first `n` segments of 100 bytes at 1000, 1200 and 1400. -/
def chainAfter (n : Nat) : BpfTcpConn :=
  (run pathStep freshPath (([1000#32, 1200#32, 1400#32].take n).map hundredAt)).c

def holeFrames : List BufEvent :=
  [.packet 0x1000#64 ((hundredAt 1000#32).frameOf (chainAfter 0)) true,
    .packet 0x2000#64 ((hundredAt 1200#32).frameOf (chainAfter 1)) true,
    .packet 0x3000#64 ((hundredAt 1400#32).frameOf (chainAfter 2)) true]

theorem oneOwner_always_two :
    Always bufStep OneOwner emptyHands
      (holeFrames.take 2 ++ [.recv 1#64 60, .recv 1#64 100, .refill 1]) :=
  (oneOwner_always_iff emptyHands_oneOwner (by decide +kernel)).mpr (by decide +kernel)

/-- The third segment leaves a second hole: its frame is in no list and not in the cache. -/
theorem oneOwner_lost_frame :
    OneOwner emptyHands ∧ Meets bufStep FromNic emptyHands holeFrames ∧
      (dataChain ((hundredAt 1400#32).ctx (chainAfter 2))).io.drop = false ∧
      0x3000#64 ∈ (run bufStep emptyHands holeFrames).inHand ∧
      ¬ OneOwner (run bufStep emptyHands holeFrames) := by
  refine ⟨emptyHands_oneOwner, by decide +kernel, by decide +kernel, by decide +kernel, ?_⟩
  have h1 : OneOwner (run bufStep emptyHands (holeFrames.take 1)) :=
    (oneOwner_packet_iff emptyHands_oneOwner (by decide +kernel) _ _).mpr (by decide +kernel)
  have h2 : OneOwner (run bufStep emptyHands (holeFrames.take 2)) :=
    (oneOwner_packet_iff h1 (by decide +kernel) _ _).mpr (by decide +kernel)
  exact fun h3 => absurd ((oneOwner_packet_iff h2 (by decide +kernel) _ _).mp h3)
    (by decide +kernel)

end MtpXdp.Lib
