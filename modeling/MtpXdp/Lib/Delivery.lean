import MtpXdp.Lib.Peek
import MtpXdp.Lib.ThreadSharing

/-!
# In-Order Delivery

One connection receives the segments of a byte stream, and the application reads with `conn_recv`.
What it has read should be a prefix of the stream. Three things in `mtp_add_data_seg_wrapper` stand
against that: the first packet is taken to be in order wherever it starts; the packet that closes
the gap is put behind the packets of the interval, and moves `rx_next_pos` by the wrong amount; and
positions are computed for a buffer of 524288 bytes.
-/

namespace MtpXdp.Lib

open MtpXdp.Core Ebpf List BitVec ConnView

variable {v : ConnView} {out : List U8} {size : Nat}

/-! ## A stream and its segments -/

structure Stream where
  conn : U64
  initSeq : U32
  data : List U8

/-- `len` bytes of the stream from offset `off` on, with the rest of the metadata and the headers.
    -/
structure Segment where
  off : Nat
  len : Nat
  addr : U64
  qid : U32
  xskBudgetAvail : U32
  ackBytes : U32
  oooBump : U32
  header : List U8

/-- `rx_pos` is the offset in the stream, and the payload is behind the headers. -/
def Segment.pkt (st : Stream) (x : Segment) : RxPkt where
  md :=
    { qid := x.qid
      conn := st.conn
      rxPos := BitVec.ofNat 32 x.off
      poff := BitVec.ofNat 16 headersLen
      plen := BitVec.ofNat 16 x.len
      xskBudgetAvail := x.xskBudgetAvail
      ackBytes := x.ackBytes
      oooBump := x.oooBump }
  tcpSeq := bpfHtonl (st.initSeq + BitVec.ofNat 32 x.off)
  frame := x.header ++ (st.data.drop x.off).take x.len

structure Segment.WellFormed (st : Stream) (x : Segment) : Prop where
  nonempty : 0 < x.len
  fits : headersLen + x.len ≤ 65535
  within : x.off + x.len ≤ st.data.length
  header : x.header.length = headersLen
  qid : x.qid ≠ poison32

instance (st : Stream) (x : Segment) : Decidable (x.WellFormed st) :=
  decidable_of_iff (0 < x.len ∧ headersLen + x.len ≤ 65535 ∧ x.off + x.len ≤ st.data.length ∧
      x.header.length = headersLen ∧ x.qid ≠ poison32)
    ⟨fun h => ⟨h.1, h.2.1, h.2.2.1, h.2.2.2.1, h.2.2.2.2⟩,
      fun h => ⟨h.nonempty, h.fits, h.within, h.header, h.qid⟩⟩

/-! ## Ideal reassembly -/

/-- In-order data up to `next`, and the out-of-order interval from `lo` to `hi`. -/
structure Ideal where
  next : Nat
  lo : Nat
  hi : Nat
deriving Inhabited

def Ideal.arrive (g : Ideal) (x : Segment) : Ideal :=
  if x.off = g.next then
    -- a segment that ends where the interval starts releases it
    if g.lo < g.hi ∧ x.off + x.len = g.lo then { next := g.hi, lo := 0, hi := 0 }
    else { g with next := x.off + x.len }
  else if g.lo = g.hi then { g with lo := x.off, hi := x.off + x.len }
  else if x.off + x.len = g.lo then { g with lo := x.off }
  else if x.off = g.hi then { g with hi := x.off + x.len }
  else g

def Ideal.Admits (g : Ideal) (x : Segment) : Prop :=
  (x.off = g.next ∧ (g.lo < g.hi → x.off + x.len ≤ g.lo)) ∨
    (g.next < x.off ∧ (g.lo = g.hi ∨ x.off + x.len = g.lo ∨ x.off = g.hi))
deriving Decidable

/-! ## Runs of the receiver -/

structure Receiver where
  thread : Thread
  ideal : Ideal
  out : List U8

inductive StreamStep where
  | segment (x : Segment) (last : Bool)
  | recv (count : Nat)

inductive StreamCall where
  | poll (segs : List Segment)
  | recv (count : Nat)

def StreamStep.toRx (st : Stream) : StreamStep → RxStep
  | .segment x last => .packet x.addr (x.pkt st) last
  | .recv count => .recv st.conn count

def StreamCall.steps : StreamCall → List StreamStep
  | .poll segs => (withLast segs).map fun x => .segment x.1 x.2
  | .recv count => [.recv count]

def receiverStep (st : Stream) (s : Receiver) (e : StreamStep) : Receiver where
  thread := rxStep s.thread (e.toRx st)
  ideal :=
    match e with
    | .segment x _ => s.ideal.arrive x
    | .recv _ => s.ideal
  out :=
    match e with
    | .segment _ _ => s.out
    | .recv count => s.out ++ (connRecv s.thread st.conn count).2

/-- The segment is of the stream, in an order the library supports, and the outstanding data fits.
    -/
def Arrives (st : Stream) (s : Receiver) : StreamStep → Prop
  | .segment x _ =>
    x.WellFormed st ∧ s.ideal.Admits x ∧
      x.off + x.len ≤ s.out.length + (s.thread.conns st.conn).rxBufSize.toNat
  | .recv _ => True

/-- It runs into none of the defects: a first packet is the beginning of the stream, the gap is not
    closed, and in a buffer of another size than positions assume, it lies in the first round. -/
def FiledInOrder (st : Stream) (s : Receiver) : StreamStep → Prop
  | .segment x _ =>
    (s.thread.tctx.mtp.followingPackets = false → x.off = 0) ∧
    ¬ (x.off = s.ideal.next ∧ s.ideal.lo < s.ideal.hi ∧ x.off + x.len = s.ideal.lo) ∧
    ((s.thread.conns st.conn).rxBufSize = mtpRxBufSize ∨ x.off < posModulus)
  | .recv _ => True

instance (st : Stream) (s : Receiver) (e : StreamStep) : Decidable (Arrives st s e) := by
  unfold Arrives
  split <;> infer_instance

instance (st : Stream) (s : Receiver) (e : StreamStep) : Decidable (FiledInOrder st s e) := by
  unfold FiledInOrder
  split <;> infer_instance

/-! ## The packets of a stream -/

section

variable {st : Stream} {x : Segment}

theorem Segment.plen_toNat (h : x.WellFormed st) : (x.pkt st).md.plen.toNat = x.len := by
  have hfits := h.fits
  simp only [Segment.pkt, toNat_ofNat]
  omega

theorem Segment.plen_eq (h : x.WellFormed st) :
    (x.pkt st).md.plen.setWidth 32 = BitVec.ofNat 32 x.len := by
  apply eq_of_toNat_eq
  have hplen := Segment.plen_toNat h
  rw [toNat_setWidth, hplen, toNat_ofNat]

theorem Segment.parse (st : Stream) (x : Segment) : parsePacket (x.pkt st) (BitVec.ofNat 32 x.len) =
      (st.initSeq + BitVec.ofNat 32 x.off,
        st.initSeq + BitVec.ofNat 32 x.off + BitVec.ofNat 32 x.len) := by
  simp [parsePacket, Segment.pkt, bpfNtohl, bpfHtonl, headersLen, tsOptSize]

theorem Segment.holds (h : x.WellFormed st) (pos : U32) :
    Holds st.data x.off ((x.pkt st).setPos pos) := by
  have hplen : ((x.pkt st).setPos pos).md.plen.toNat = x.len := Segment.plen_toNat h
  have hpoff : ((x.pkt st).setPos pos).md.poff.toNat = headersLen := rfl
  have hframe : ((x.pkt st).setPos pos).frame.drop headersLen = (st.data.drop x.off).take x.len :=
    drop_left' h.header
  have hpos := h.nonempty
  have hfits := h.fits
  have hwithin := h.within
  refine ⟨by omega, ?_, by omega, by omega⟩
  rw [hplen, hpoff, hframe, take_take, Nat.min_self]

/-! ### Filing in the view -/

theorem ConnView.packet_segment (h : x.WellFormed st) :
    v.packet (x.pkt st) = v.file (x.pkt st) := by
  have hplen : (x.pkt st).md.plen ≠ poison16 := by
    intro heq
    have hlen : poison16.toNat = x.len := heq ▸ Segment.plen_toNat h
    have hpoison : poison16.toNat = 65535 := rfl
    have hfits := h.fits
    unfold headersLen tsOptSize at hfits
    omega
  have hqid : (x.pkt st).md.qid ≠ poison32 := h.qid
  unfold packet
  rw [if_neg hqid, if_neg hplen]

theorem ConnView.file_first (h : x.WellFormed st) (hfirst : v.mtp.followingPackets = false) :
    (v.file (x.pkt st)).1 =
      { v with
        mtp := { v.mtp with
          expectedSeq := st.initSeq + BitVec.ofNat 32 x.off + BitVec.ofNat 32 x.len
          followingPackets := true
          rxBufSize := mtpRxBufSize
          lastOffset := BitVec.ofNat 32 x.off }
        credit := v.credit + BitVec.ofNat 32 x.len
        rxPkts := v.rxPkts ++ [(x.pkt st).setPos (wrapPos mtpRxBufSize v.mtp.rxNextPos)] } := by
  have hoff : (x.pkt st).md.rxPos = BitVec.ofNat 32 x.off := rfl
  unfold file filePkt
  simp [Segment.plen_eq h, Segment.parse, mtpAddDataSegWrapper, hfirst, fileFirst,
    inOrderReceive, toConn, Function.comp_def, rxPosOf, hoff]

theorem ConnView.file_inOrder (h : x.WellFormed st) (hfollow : v.mtp.followingPackets = true)
    (hexp : v.mtp.expectedSeq = st.initSeq + BitVec.ofNat 32 x.off)
    (hclose : ¬ (v.mtp.oooLen > 0#32 ∧
      st.initSeq + BitVec.ofNat 32 x.off + BitVec.ofNat 32 x.len = v.mtp.oooStart)) :
    (v.file (x.pkt st)).1 =
      { v with
        mtp := { v.mtp with
          expectedSeq := v.mtp.expectedSeq + BitVec.ofNat 32 x.len
          rxNextPos := rxPosOf v.mtp (BitVec.ofNat 32 x.off)
          lastOffset := BitVec.ofNat 32 x.off }
        credit := v.credit + BitVec.ofNat 32 x.len
        rxPkts := v.rxPkts ++
          [(x.pkt st).setPos (rxPosOf v.mtp (BitVec.ofNat 32 x.off))] } := by
  have hoff : (x.pkt st).md.rxPos = BitVec.ofNat 32 x.off := rfl
  unfold file filePkt mtpAddDataSegWrapper
  simp only [Segment.plen_eq h, Segment.parse, hfollow, hexp]
  rw [if_neg (by simp), if_pos trivial, if_neg hclose]
  simp [fileInOrder, inOrderReceive, toConn, Function.comp_def, rxPosOf, hoff, hfollow,
    hexp]

theorem ConnView.file_outOfOrder (h : x.WellFormed st) (hfollow : v.mtp.followingPackets = true)
    (hexp : v.mtp.expectedSeq ≠ st.initSeq + BitVec.ofNat 32 x.off) :
    ∃ oooPkts,
      (v.file (x.pkt st)).1 =
        { v with
          mtp :=
            if v.mtp.oooLen = 0#32 then
              { v.mtp with oooStart := st.initSeq + BitVec.ofNat 32 x.off
                           oooLen := BitVec.ofNat 32 x.len }
            else if st.initSeq + BitVec.ofNat 32 x.off + BitVec.ofNat 32 x.len =
                v.mtp.oooStart then
              { v.mtp with oooStart := st.initSeq + BitVec.ofNat 32 x.off
                           oooLen := v.mtp.oooLen + BitVec.ofNat 32 x.len }
            else if v.mtp.oooStart + v.mtp.oooLen = st.initSeq + BitVec.ofNat 32 x.off then
              { v.mtp with oooLen := v.mtp.oooLen + BitVec.ofNat 32 x.len }
            else v.mtp
          oooPkts := oooPkts } := by
  refine ⟨(v.file (x.pkt st)).1.oooPkts, ?_⟩
  unfold file filePkt mtpAddDataSegWrapper
  simp only [Segment.plen_eq h, Segment.parse, hfollow]
  rw [if_neg (by simp), if_neg hexp]
  unfold fileOutOfOrder
  split_ifs <;> simp [outOfOrderReceive, toConn, Function.comp_def, hfollow]

end

/-! ## The invariant -/

structure Unstarted (m : MtpThread) (g : Ideal) : Prop where
  following : m.followingPackets = false
  rxNextPos : m.rxNextPos = 0#32
  oooLen : m.oooLen = 0#32
  ideal : g = default

/-- As in the ideal; `last` is the offset of the last packet in order, and nothing is held beyond
    `limit`. -/
structure Started (st : Stream) (m : MtpThread) (g : Ideal) (limit : Nat) : Prop where
  following : m.followingPackets = true
  expectedSeq : m.expectedSeq = st.initSeq + BitVec.ofNat 32 g.next
  rxBufSize : m.rxBufSize = mtpRxBufSize
  last : ∃ last, m.lastOffset = BitVec.ofNat 32 last ∧ last ≤ g.next ∧ g.next ≤ last + 65535 ∧
    m.rxNextPos.toNat = last % posModulus
  oooLen : m.oooLen.toNat = g.hi - g.lo
  order : g.lo ≤ g.hi
  ooo : g.lo < g.hi →
    m.oooStart = st.initSeq + BitVec.ofNat 32 g.lo ∧ g.next < g.lo ∧ g.hi ≤ limit

/-- The frames in order hold the stream from the read head on, and the credit counts them. -/
structure Delivering (st : Stream) (size : Nat) (v : ConnView) (g : Ideal) (out : List U8) :
    Prop where
  out_eq : out = st.data.take out.length
  tiles : Tiles st.data size out.length v.rxPkts g.next
  head : ReadHead size out.length v.rxbHead.toNat
  credit : out.length + v.credit.toNat = g.next
  rxBufSize : v.rxBufSize.toNat = size
  window : g.next ≤ out.length + size
  within : g.next ≤ st.data.length
  mtp : Unstarted v.mtp g ∨ Started st v.mtp g (out.length + size)

/-! ### Sequence numbers and positions -/

theorem seq_inj {initSeq : U32} {m n : Nat} (hle : m ≤ n) (hlt : n < m + 2 ^ 32)
    (h : initSeq + BitVec.ofNat 32 m = initSeq + BitVec.ofNat 32 n) : m = n := by
  have hof : BitVec.ofNat 32 m = BitVec.ofNat 32 n := by bv_omega
  have := congrArg BitVec.toNat hof
  simp only [toNat_ofNat] at this
  omega

theorem ofNat_add_ofNat (initSeq : U32) (m n : Nat) :
    initSeq + BitVec.ofNat 32 m + BitVec.ofNat 32 n = initSeq + BitVec.ofNat 32 (m + n) := by
  rw [BitVec.add_assoc, ofNat_add]

theorem rxPosOf_toNat {m : MtpThread} {last off : Nat} (hsize : m.rxBufSize = mtpRxBufSize)
    (hlast : m.lastOffset = BitVec.ofNat 32 last) (hpos : m.rxNextPos.toNat = last % posModulus)
    (hle : last ≤ off) (hoff : off ≤ last + 65535) :
    (rxPosOf m (BitVec.ofNat 32 off)).toNat = off % posModulus := by
  have hdiff : (BitVec.ofNat 32 off - BitVec.ofNat 32 last : U32).toNat = off - last := by
    rw [toNat_sub, toNat_ofNat, toNat_ofNat]
    omega
  have hsum : (m.rxNextPos + (BitVec.ofNat 32 off - BitVec.ofNat 32 last)).toNat =
      last % posModulus + (off - last) := by
    rw [toNat_add, hdiff, hpos]
    unfold posModulus
    omega
  unfold rxPosOf wrapPos
  rw [hsize, hlast]
  have hM : mtpRxBufSize.toNat = 524288 := rfl
  unfold posModulus at *
  split_ifs with hwrap
  · rw [ge_iff_le, le_def] at hwrap
    rw [toNat_sub]
    omega
  · rw [ge_iff_le, le_def] at hwrap
    omega

/-! ### A segment arrives -/

section

variable {st : Stream} {g g' : Ideal} {x : Segment} {m : MtpThread}

theorem Delivering.extend (h : Delivering st size v g out) (hx : x.WellFormed st)
    (hoff : x.off = g.next) (hfit : x.off + x.len ≤ out.length + size)
    (hsize : size ≤ posModulus) {pos : U32} (hpos : pos.toNat = x.off % posModulus)
    (hround : size = posModulus ∨ x.off < posModulus) (hnext : g'.next = x.off + x.len)
    (hm : Started st m g' (out.length + size)) :
    Delivering st size
      { v with mtp := m
               credit := v.credit + BitVec.ofNat 32 x.len
               rxPkts := v.rxPkts ++ [(x.pkt st).setPos pos] } g' out := by
  have hcredit := h.credit
  have hplen : ((x.pkt st).setPos pos).md.plen.toNat = x.len := Segment.plen_toNat hx
  have hholds := Segment.holds hx pos
  have htiles := h.tiles.append (hoff ▸ hholds) (show FreshPos size g.next _ from
    ⟨hoff ▸ hpos, hoff ▸ hround⟩)
  refine ⟨h.out_eq, ?_, h.head, ?_, h.rxBufSize, by omega, ?_, .inr hm⟩
  · rw [hnext, hoff, ← hplen]
    exact htiles
  · show out.length + (v.credit + BitVec.ofNat 32 x.len).toNat = g'.next
    rw [toNat_add, toNat_ofNat]
    unfold posModulus at hsize
    omega
  · rw [hnext]
    exact hx.within

theorem Delivering.first (h : Delivering st size v g out) (hstart : Unstarted v.mtp g)
    (hx : x.WellFormed st) (hzero : x.off = 0) (hfit : x.off + x.len ≤ out.length + size)
    (hsize : size ≤ posModulus) (hround : size = posModulus ∨ x.off < posModulus) :
    Delivering st size (v.file (x.pkt st)).1 (g.arrive x) out := by
  obtain ⟨hfollow, hnextPos, hooo, rfl⟩ := hstart
  have hlen := hx.fits
  rw [file_first hx hfollow]
  have harrive : (default : Ideal).arrive x = { next := x.off + x.len, lo := 0, hi := 0 } := by
    unfold Ideal.arrive
    rw [if_pos (show x.off = (default : Ideal).next from hzero),
      if_neg fun h => Nat.lt_irrefl _ h.1]
    rfl
  rw [harrive]
  refine h.extend hx hzero hfit hsize ?_ hround rfl ?_
  · rw [hnextPos, hzero]
    rfl
  · refine ⟨rfl, ofNat_add_ofNat _ _ _, rfl, ⟨x.off, rfl, ?_, ?_, ?_⟩, ?_, ?_, ?_⟩
    · exact Nat.le_add_right _ _
    · show x.off + x.len ≤ x.off + 65535
      omega
    · rw [hnextPos, hzero]
      rfl
    · rw [hooo]
      rfl
    · exact Nat.le_refl _
    · intro h0
      exact absurd h0 (Nat.lt_irrefl _)

theorem Delivering.inOrder (h : Delivering st size v g out)
    (hstart : Started st v.mtp g (out.length + size)) (hx : x.WellFormed st)
    (hoff : x.off = g.next) (hgap : g.lo < g.hi → x.off + x.len < g.lo)
    (hfit : x.off + x.len ≤ out.length + size) (hsize : size ≤ posModulus)
    (hround : size = posModulus ∨ x.off < posModulus) :
    Delivering st size (v.file (x.pkt st)).1 (g.arrive x) out := by
  obtain ⟨last, hlast, hle, hnear, hpos⟩ := hstart.last
  have hlen := hx.fits
  have hout := h.credit
  have hclose : ¬ (v.mtp.oooLen > 0#32 ∧
      st.initSeq + BitVec.ofNat 32 x.off + BitVec.ofNat 32 x.len = v.mtp.oooStart) := by
    -- equal sequence numbers would be equal offsets, within the buffer
    rintro ⟨hooo, hend⟩
    have hheld : g.lo < g.hi := by
      have := hstart.oooLen
      bv_omega
    obtain ⟨hstartSeq, -, hlimit⟩ := hstart.ooo hheld
    rw [hstartSeq, ofNat_add_ofNat] at hend
    have heq := seq_inj (by omega) (by unfold posModulus at hsize; omega) hend
    omega
  have hexp : v.mtp.expectedSeq = st.initSeq + BitVec.ofNat 32 x.off := by
    rw [hstart.expectedSeq, hoff]
  have hrx : (rxPosOf v.mtp (BitVec.ofNat 32 x.off)).toNat = x.off % posModulus :=
    rxPosOf_toNat hstart.rxBufSize hlast hpos (by omega) (by omega)
  have harrive : g.arrive x = { g with next := x.off + x.len } := by
    unfold Ideal.arrive
    rw [if_pos hoff, if_neg]
    rintro ⟨hheld, hend⟩
    omega
  rw [file_inOrder hx hstart.following hexp hclose, harrive]
  refine h.extend hx hoff hfit hsize hrx hround rfl ?_
  refine { hstart with expectedSeq := ?_, last := ⟨x.off, rfl, ?_, ?_, hrx⟩, ooo := ?_ }
  · rw [hexp]
    exact ofNat_add_ofNat _ _ _
  · exact Nat.le_add_right _ _
  · show x.off + x.len ≤ x.off + 65535
    omega
  · intro hheld
    obtain ⟨h1, -, h3⟩ := hstart.ooo hheld
    exact ⟨h1, hgap hheld, h3⟩

theorem Started.outOfOrder {limit : Nat} (hstart : Started st m g limit) (hoff : g.next < x.off)
    (hadm : g.lo = g.hi ∨ x.off + x.len = g.lo ∨ x.off = g.hi) (hfit : x.off + x.len ≤ limit)
    (hlimit : limit < g.next + 2 ^ 32) :
    Started st
      (if m.oooLen = 0#32 then
        { m with oooStart := st.initSeq + BitVec.ofNat 32 x.off, oooLen := BitVec.ofNat 32 x.len }
      else if st.initSeq + BitVec.ofNat 32 x.off + BitVec.ofNat 32 x.len = m.oooStart then
        { m with oooStart := st.initSeq + BitVec.ofNat 32 x.off
                 oooLen := m.oooLen + BitVec.ofNat 32 x.len }
      else if m.oooStart + m.oooLen = st.initSeq + BitVec.ofNat 32 x.off then
        { m with oooLen := m.oooLen + BitVec.ofNat 32 x.len }
      else m) (g.arrive x) limit := by
  obtain ⟨hfollow, hexp, hbuf, hlast, hlen, horder, hooo⟩ := hstart
  have hne : ¬ x.off = g.next := by omega
  unfold Ideal.arrive
  rw [if_neg hne]
  by_cases hempty : g.lo = g.hi
  · -- the interval starts here
    have h0 : m.oooLen = 0#32 := by
      apply eq_of_toNat_eq
      rw [hlen, hempty, Nat.sub_self]
      rfl
    rw [if_pos hempty, if_pos h0]
    refine ⟨hfollow, hexp, hbuf, hlast, ?_, Nat.le_add_right _ _, fun _ => ⟨rfl, hoff, hfit⟩⟩
    show (BitVec.ofNat 32 x.len).toNat = x.off + x.len - x.off
    rw [toNat_ofNat]
    omega
  · have hheld : g.lo < g.hi := by omega
    have h0 : ¬ m.oooLen = 0#32 := by
      intro h0
      rw [h0] at hlen
      simp only [toNat_ofNat] at hlen
      omega
    obtain ⟨hseq, hlo, hhi⟩ := hooo hheld
    rw [if_neg hempty, if_neg h0, ofNat_add_ofNat]
    rcases hadm.resolve_left hempty with hend | hbegin
    · -- in front of the interval
      rw [if_pos hend, if_pos (by rw [hend, hseq])]
      refine ⟨hfollow, hexp, hbuf, hlast, ?_, ?_, fun _ => ⟨rfl, hoff, hhi⟩⟩
      · show (m.oooLen + BitVec.ofNat 32 x.len).toNat = g.hi - x.off
        rw [toNat_add, toNat_ofNat]
        omega
      · show x.off ≤ g.hi
        omega
    · -- behind it
      have hsum : m.oooStart + m.oooLen = st.initSeq + BitVec.ofNat 32 x.off := by
        have hof : m.oooLen = BitVec.ofNat 32 (g.hi - g.lo) := by
          rw [← hlen, BitVec.ofNat_toNat, setWidth_eq]
        rw [hof, hseq, ofNat_add_ofNat, hbegin, Nat.add_sub_cancel' horder]
      have hfront : ¬ x.off + x.len = g.lo := by omega
      have hfront' : ¬ st.initSeq + BitVec.ofNat 32 (x.off + x.len) = m.oooStart := by
        intro heq
        rw [hseq] at heq
        have := seq_inj (by omega) (by omega) heq.symm
        omega
      rw [if_neg hfront, if_pos hbegin, if_neg hfront', if_pos hsum]
      refine ⟨hfollow, hexp, hbuf, hlast, ?_, ?_, fun _ => ⟨hseq, hlo, hfit⟩⟩
      · show (m.oooLen + BitVec.ofNat 32 x.len).toNat = x.off + x.len - g.lo
        rw [toNat_add, toNat_ofNat]
        omega
      · show g.lo ≤ x.off + x.len
        omega

theorem Delivering.segment (h : Delivering st size v g out) (hx : x.WellFormed st)
    (hadm : g.Admits x) (hfit : x.off + x.len ≤ out.length + size) (hsize : size ≤ posModulus)
    (hfirst : v.mtp.followingPackets = false → x.off = 0)
    (hgap : ¬ (x.off = g.next ∧ g.lo < g.hi ∧ x.off + x.len = g.lo))
    (hround : size = posModulus ∨ x.off < posModulus) :
    Delivering st size (v.file (x.pkt st)).1 (g.arrive x) out := by
  -- the reassembly state is the thread's, so the first packet is a case of its own
  rcases h.mtp with hstart | hstart
  · exact h.first hstart hx (hfirst hstart.following) hfit hsize hround
  · rcases hadm with ⟨hoff, hlo⟩ | ⟨hoff, hooo⟩
    · refine h.inOrder hstart hx hoff (fun hheld => ?_) hfit hsize hround
      omega
    · -- held back: nothing that can be read changes
      have hcredit := h.credit
      have hfar : out.length + size < g.next + 2 ^ 32 := by
        unfold posModulus at hsize
        omega
      have hexp : v.mtp.expectedSeq ≠ st.initSeq + BitVec.ofNat 32 x.off := by
        rw [hstart.expectedSeq]
        intro heq
        have := seq_inj (Nat.le_of_lt hoff) (by omega) heq
        omega
      obtain ⟨oooPkts, hfile⟩ := file_outOfOrder hx hstart.following hexp
      have hm := hstart.outOfOrder hoff hooo hfit hfar
      have hnext : (g.arrive x).next = g.next := by
        unfold Ideal.arrive
        rw [if_neg (by omega)]
        split_ifs <;> rfl
      rw [hfile]
      refine ⟨h.out_eq, ?_, h.head, ?_, h.rxBufSize, ?_, ?_, .inr hm⟩ <;> rw [hnext]
      · exact h.tiles
      · exact h.credit
      · exact h.window
      · exact h.within

end

/-! ### The application reads -/

section

variable {st : Stream} {g : Ideal}

theorem ReadHead.advance {rxBufSize head : U32} {lo n : Nat} (h : ReadHead size lo head.toNat)
    (hbuf : rxBufSize.toNat = size) (hsize : size ≤ posModulus) (hn : n ≤ size) (hpos : n ≠ 0) :
    ReadHead size (lo + n) (advanceHead rxBufSize head n).toNat := by
  obtain ⟨hle, ⟨q, hq⟩, -⟩ := h
  unfold posModulus at hsize
  have hvalue : (advanceHead rxBufSize head n).toNat = _ :=
    toNat_advanceHead (by omega) (by omega) (by omega)
  rw [hvalue, hbuf]
  split_ifs with hwrap
  · -- the head starts another round of the buffer
    refine ⟨by omega, ⟨q + 1, ?_⟩, by omega⟩
    rw [Nat.add_mul]
    omega
  · exact ⟨by omega, ⟨q, by omega⟩, by omega⟩

theorem Started.mono {m : MtpThread} {limit limit' : Nat} (h : Started st m g limit)
    (hle : limit ≤ limit') : Started st m g limit' := by
  obtain ⟨h1, h2, h3, h4, h5, h6, h7⟩ := h
  refine ⟨h1, h2, h3, h4, h5, h6, fun hheld => ?_⟩
  obtain ⟨hseq, hlo, hhi⟩ := h7 hheld
  exact ⟨hseq, hlo, Nat.le_trans hhi hle⟩

theorem Delivering.recv (h : Delivering st size v g out) (hpos : 0 < size)
    (hsize : size ≤ posModulus) (count : Nat) :
    Delivering st size (v.recv count).1 g (out ++ (v.recv count).2) := by
  have hcredit := h.credit
  have hwindow := h.window
  have hwithin := h.within
  -- the copying loop takes the first `n` of the bytes in order
  obtain ⟨n, hn, hcopied, hbytes, hleft⟩ := rxPeekCountZc_ok count
    (show v.toConn.rxBufSize.toNat = size from h.rxBufSize) hpos
    (show Tiles st.data size out.length (v.toConn.rxAddrs.map Prod.snd) g.next by
      rw [toConn_rxPkts]; exact h.tiles)
    (show ReadHead size out.length v.toConn.rxbHead.toNat from h.head) hcredit hwindow
  have hn' : n ≤ v.credit.toNat := hn
  have hout : (v.recv count).2 = (st.data.drop out.length).take n := hbytes
  have hlen : (out ++ (v.recv count).2).length = out.length + n := by
    rw [hout, length_append, length_take, length_drop]
    omega
  refine ⟨?_, ?_, ?_, ?_, h.rxBufSize, ?_, hwithin, ?_⟩
  · rw [hlen, hout, take_add, ← h.out_eq]
  · rw [hlen]
    exact hleft
  · rw [hlen]
    show ReadHead size _ (if (rxPeekCountZc v.toConn count).copied = 0 then v.rxbHead
      else advanceHead v.rxBufSize v.rxbHead (rxPeekCountZc v.toConn count).copied).toNat
    rw [hcopied]
    split_ifs with h0
    · rw [h0]
      exact h.head
    · exact h.head.advance h.rxBufSize hsize (by omega) h0
  · rw [hlen]
    show out.length + n + (v.credit - BitVec.ofNat 32 (rxPeekCountZc v.toConn count).copied).toNat
      = g.next
    rw [hcopied, toNat_sub, toNat_ofNat]
    omega
  · omega
  · -- what was read makes room
    refine h.mtp.imp id fun hm => hm.mono ?_
    omega

end

/-! ## Whole runs -/

/-- The thread has received nothing yet, and the connection's buffer has a size that
    `parse_mc_args` accepts. -/
structure FreshReceiver (st : Stream) (s : Receiver) : Prop where
  locals : s.thread.locals = default
  mtp : s.thread.tctx.mtp = default
  rxbHead : (s.thread.conns st.conn).rxbHead = 0#32
  rxbUsed : (s.thread.conns st.conn).rxbUsed = 0#32
  rxAddrs : (s.thread.conns st.conn).rxAddrs = []
  ideal : s.ideal = default
  out : s.out = []
  configured : 2048 ≤ (s.thread.conns st.conn).rxBufSize.toNat ∧
    (s.thread.conns st.conn).rxBufSize.toNat ≤ 524288

section

variable {st : Stream} {s : Receiver}

theorem FreshReceiver.delivering (h : FreshReceiver st s) :
    Delivering st (s.thread.conns st.conn).rxBufSize.toNat (connView st.conn s.thread) s.ideal
      s.out := by
  have hcredit : credit s.thread st.conn = 0#32 := by
    simp [credit, h.rxbUsed, h.locals, show (default : PollLocals).cachedRxBump = 0#64 from rfl]
  have hideal := h.ideal
  have hout := h.out
  refine ⟨by simp [hout], ?_, ?_, ?_, rfl, ?_, ?_, .inl ⟨?_, ?_, ?_, hideal⟩⟩
  · simp only [connView, h.rxAddrs, hideal, hout]
    rfl
  · simp only [connView, h.rxbHead, hout]
    exact ⟨Nat.zero_le _, ⟨0, by simp⟩, fun h0 => absurd h0 (Nat.lt_irrefl _)⟩
  · simp only [connView, hcredit, hideal, hout]
    rfl
  · simp only [hideal, hout]
    exact Nat.zero_le _
  · simp only [hideal]
    exact Nat.zero_le _
  all_goals
    simp only [connView, h.mtp]
    rfl

theorem withLast_map {α β : Type} (f : α → β) (l : List α) :
    withLast (l.map f) = (withLast l).map fun x => (f x.1, x.2) := by
  induction l with
  | nil => rfl
  | cons x l ih =>
    cases l with
    | nil => rfl
    | cons y l =>
      simp only [map_cons, withLast] at ih ⊢
      rw [ih]

def StreamCall.toApp (st : Stream) : StreamCall → AppCall
  | .poll segs => .poll (segs.map fun x => (x.addr, x.pkt st))
  | .recv count => .recv st.conn count

theorem steps_toRx (st : Stream) (calls : List StreamCall) :
    (calls.flatMap StreamCall.steps).map (StreamStep.toRx st) =
      (calls.map (StreamCall.toApp st)).flatMap AppCall.steps := by
  induction calls with
  | nil => rfl
  | cons call calls ih =>
    rw [flatMap_cons, map_append, ih, map_cons, flatMap_cons]
    cases call with
    | poll segs =>
      simp only [StreamCall.steps, StreamCall.toApp, AppCall.steps, pollSteps, withLast_map,
        map_map]
      rfl
    | recv count => rfl

theorem streamCalls_betweenPolls (calls : List StreamCall) (hs : s.thread.locals = default) :
    Meets (receiverStep st) (fun s e => BetweenPolls s.thread (e.toRx st)) s
      (calls.flatMap StreamCall.steps) := by
  have hcalls := calls_betweenPolls (calls.map (StreamCall.toApp st)) hs
  rw [← steps_toRx] at hcalls
  exact (meets_map_iff fun _ _ => rfl).mp hcalls

theorem delivering_receiverStep {size : Nat} (hnull : st.conn ≠ 0#64) (hpoison : st.conn ≠ poison64)
    (hpos : 0 < size) (hmax : size ≤ posModulus) (s : Receiver) (e : StreamStep)
    (hs : Delivering st size (connView st.conn s.thread) s.ideal s.out)
    (hok : (Arrives st s e ∧ FiledInOrder st s e) ∧ BetweenPolls s.thread (e.toRx st)) :
    Delivering st size (connView st.conn (receiverStep st s e).thread) (receiverStep st s e).ideal
      (receiverStep st s e).out := by
  obtain ⟨⟨harr, hfiled⟩, hidle⟩ := hok
  cases e with
  | segment x last =>
    obtain ⟨hx, hadm, hfit⟩ := harr
    obtain ⟨hfirst, hgap, hround⟩ := hfiled
    have hbuf : (s.thread.conns st.conn).rxBufSize.toNat = size := hs.rxBufSize
    have hview := (connView_handleRx_self s.thread x.addr (x.pkt st) last hnull hpoison).1
    have hround' : size = posModulus ∨ x.off < posModulus := by
      refine hround.imp (fun h => ?_) id
      rw [← hbuf, h]
      rfl
    have hseg := hs.segment hx hadm (hbuf ▸ hfit) hmax hfirst hgap hround'
    rw [← packet_segment hx] at hseg
    exact hview ▸ hseg
  | recv count =>
    -- between polls the credit is all in `rxb_used`, which is what `conn_recv` reads
    have hbump : s.thread.locals.cachedRxBump = 0#64 := congrArg PollLocals.cachedRxBump hidle
    obtain ⟨hview, hbytes⟩ := connView_connRecv_self s.thread st.conn count hbump
    have hread := hs.recv hpos hmax count
    show Delivering st size (connView st.conn (connRecv s.thread st.conn count).1) s.ideal
      (s.out ++ (connRecv s.thread st.conn count).2)
    rw [hview, hbytes]
    exact hread

end

/-- **Delivery is in order where none of the defects comes into play**: the bytes read are a prefix
    of the stream. -/
theorem out_prefix_of_filedInOrder {st : Stream} (hnull : st.conn ≠ 0#64)
    (hpoison : st.conn ≠ poison64) {s : Receiver} (hfresh : FreshReceiver st s)
    (calls : List StreamCall)
    (harrives : Meets (receiverStep st) (Arrives st) s (calls.flatMap StreamCall.steps))
    (hfiled : Meets (receiverStep st) (FiledInOrder st) s (calls.flatMap StreamCall.steps)) :
    Always (receiverStep st) (fun s => s.out <+: st.data) s
      (calls.flatMap StreamCall.steps) := by
  obtain ⟨hmin, hmax⟩ := hfresh.configured
  generalize hsz : (s.thread.conns st.conn).rxBufSize.toNat = size at hmin hmax
  have hinv : Delivering st size (connView st.conn s.thread) s.ideal s.out :=
    hsz ▸ hfresh.delivering
  have hrun := always_of_meets (delivering_receiverStep hnull hpoison (by omega) hmax) hinv
    ((harrives.and hfiled).and (streamCalls_betweenPolls calls hfresh.locals))
  refine hrun.mono fun s h => ?_
  rw [h.out_eq]
  exact take_prefix _ _

/-! ### A stream of twelve bytes -/

def twelveBytes : Stream where
  conn := 0x1000#64
  initSeq := 1000#32
  data := [0#8, 1#8, 2#8, 3#8, 4#8, 5#8, 6#8, 7#8, 8#8, 9#8, 10#8, 11#8]

def plainSegment (off len : Nat) : Segment where
  off := off
  len := len
  addr := 0x40#64
  qid := 0#32
  xskBudgetAvail := poison32
  ackBytes := poison32
  oooBump := poison32
  header := List.replicate headersLen 0#8

def freshReceiver : Receiver where
  thread := idleThread
  ideal := default
  out := []

theorem freshReceiver_fresh : FreshReceiver twelveBytes freshReceiver :=
  ⟨rfl, rfl, rfl, rfl, rfl, rfl, rfl, by decide⟩

theorem out_prefix_at :
    Always (receiverStep twelveBytes) (fun s => s.out <+: twelveBytes.data) freshReceiver
      ([StreamCall.poll [plainSegment 0 4, plainSegment 8 4], .recv 3, .poll [plainSegment 4 3],
        .recv 100].flatMap StreamCall.steps) :=
  out_prefix_of_filedInOrder (by decide) (by decide) freshReceiver_fresh
    [.poll [plainSegment 0 4, plainSegment 8 4], .recv 3, .poll [plainSegment 4 3], .recv 100]
    (by decide) (by decide)

/-- Three segments, the one in the middle last: it is read after the one that follows it. -/
theorem delivery_out_of_order :
    Meets (receiverStep twelveBytes) (Arrives twelveBytes) freshReceiver
      ([StreamCall.poll [plainSegment 0 4, plainSegment 8 4, plainSegment 4 4],
        .recv 12].flatMap StreamCall.steps) ∧
    (run (receiverStep twelveBytes) freshReceiver
      ([StreamCall.poll [plainSegment 0 4, plainSegment 8 4, plainSegment 4 4],
        .recv 12].flatMap StreamCall.steps)).out =
      [0#8, 1#8, 2#8, 3#8, 8#8, 9#8, 10#8, 11#8, 4#8, 5#8, 6#8, 7#8] ∧
    ¬ (run (receiverStep twelveBytes) freshReceiver
      ([StreamCall.poll [plainSegment 0 4, plainSegment 8 4, plainSegment 4 4],
        .recv 12].flatMap StreamCall.steps)).out <+: twelveBytes.data := by
  decide

end MtpXdp.Lib
