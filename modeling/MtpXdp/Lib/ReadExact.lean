import MtpXdp.Core.Pieces
import MtpXdp.Core.Run
import MtpXdp.Lib.ConnView
import MtpXdp.Lib.Peek

/-!
# A Read Returns Exactly the Next Bytes

The frames of a connection lie one behind the other on a circle of `rx_buf_size` positions, from
`rxb_head` on. Its beginning has two names: a filed frame has position `0`, a cut frame and
`rxb_head` after a read have `rx_buf_size`. `eTran_tcp_rx_peek_count_zc` understands both, except at
a head of `0`.
-/

namespace MtpXdp.Lib

open MtpXdp.Core Ebpf List BitVec Nat

variable {p : RxPkt} {l : List (U64 × RxPkt)} {c : EtranConn} {count : Nat}

/-! ## Frames on a circle -/

def RxPkt.payload (p : RxPkt) : List U8 := (p.frame.drop p.md.poff.toNat).take p.md.plen.toNat

def plenOf (x : U64 × RxPkt) : Nat := x.2.md.plen.toNat

structure RxPkt.Carries (p : RxPkt) : Prop where
  nonempty : 0 < p.md.plen.toNat
  inside : p.md.poff.toNat + p.md.plen.toNat ≤ p.frame.length
  buffer : p.frame.length ≤ 65535

instance (p : RxPkt) : Decidable p.Carries :=
  decidable_of_iff (0 < p.md.plen.toNat ∧ p.md.poff.toNat + p.md.plen.toNat ≤ p.frame.length ∧
      p.frame.length ≤ 65535)
    ⟨fun h => ⟨h.1, h.2.1, h.2.2⟩, fun h => ⟨h.nonempty, h.inside, h.buffer⟩⟩

/-- On a circle of `size` positions the frame is at `o`; `0` and `size` are one position. -/
def RxPkt.LiesAt (size o : Nat) (p : RxPkt) : Prop :=
  p.md.rxPos.toNat ≤ size ∧ p.md.rxPos.toNat ≡ o [MOD size]
deriving Decidable

def TilesFrom (size : Nat) : Nat → List (U64 × RxPkt) → Prop
  | _, [] => True
  | o, x :: l => x.2.Carries ∧ x.2.LiesAt size o ∧ TilesFrom size (o + plenOf x) l

instance decidableTilesFrom (size : Nat) :
    (o : Nat) → (l : List (U64 × RxPkt)) → Decidable (TilesFrom size o l)
  | _, [] => inferInstanceAs (Decidable True)
  | o, x :: l =>
    have := decidableTilesFrom size (o + plenOf x) l
    inferInstanceAs (Decidable (_ ∧ _ ∧ _))

/-- The frames of the connection tile the `rxb_used` positions from `rxb_head` on. -/
structure Tiled (c : EtranConn) : Prop where
  head : c.rxbHead.toNat ≤ c.rxBufSize.toNat
  used : c.rxbUsed.toNat ≤ c.rxBufSize.toNat
  total : total plenOf c.rxAddrs = c.rxbUsed.toNat
  tiles : TilesFrom c.rxBufSize.toNat c.rxbHead.toNat c.rxAddrs

instance (c : EtranConn) : Decidable (Tiled c) :=
  decidable_of_iff (c.rxbHead.toNat ≤ c.rxBufSize.toNat ∧ c.rxbUsed.toNat ≤ c.rxBufSize.toNat ∧
      Core.total plenOf c.rxAddrs = c.rxbUsed.toNat ∧
      TilesFrom c.rxBufSize.toNat c.rxbHead.toNat c.rxAddrs)
    ⟨fun h => ⟨h.1, h.2.1, h.2.2.1, h.2.2.2⟩, fun h => ⟨h.head, h.used, h.total, h.tiles⟩⟩

def EtranConn.waiting (c : EtranConn) : List U8 := c.rxAddrs.flatMap (fun x => x.2.payload)

/-- With the head at `0` the first frame has that name of the position, too. -/
def NamesAgree (c : EtranConn) : Prop :=
  c.rxbHead = 0#32 → ∀ x ∈ c.rxAddrs.head?, x.2.md.rxPos ≠ c.rxBufSize
deriving Decidable

/-! ## The purpose of a read -/

def EtranConn.readable (c : EtranConn) (count : Nat) : Nat := min count c.rxbUsed.toNat

def connRecvRet (s : Thread) (conn : U64) (count : Nat) : Nat :=
  (rxPeekCountZc (s.conns conn) count).copied

/-- **A read returns exactly the next bytes** there are; used frames go back to the pool, the others
    tile the rest. -/
structure ReadsExactly (conn : U64) (s : Thread) (count : Nat) : Prop where
  returned : connRecvRet s conn count = (s.conns conn).readable count
  bytes : (connRecv s conn count).2 =
    (s.conns conn).waiting.take ((s.conns conn).readable count)
  freed : (connRecv s conn count).1.tctx.iobuffer = s.tctx.iobuffer ++
    (covered plenOf (s.conns conn).rxAddrs ((s.conns conn).readable count)).map Prod.fst
  kept : (covered plenOf (s.conns conn).rxAddrs ((s.conns conn).readable count)).map Prod.fst ++
    ((connRecv s conn count).1.conns conn).rxAddrs.map Prod.fst =
      (s.conns conn).rxAddrs.map Prod.fst
  rest : ((connRecv s conn count).1.conns conn).waiting =
    (s.conns conn).waiting.drop ((s.conns conn).readable count)
  tiled : Tiled ((connRecv s conn count).1.conns conn)
  names : NamesAgree ((connRecv s conn count).1.conns conn)
  size : ((connRecv s conn count).1.conns conn).rxBufSize = (s.conns conn).rxBufSize

/-! ## Behind the first bytes -/

def beyond (rxBufSize : U32) : Nat → List (U64 × RxPkt) → List (U64 × RxPkt)
  | _, [] => []
  | n, x :: l =>
    if n = 0 then x :: l
    else if plenOf x ≤ n then beyond rxBufSize (n - plenOf x) l
    else (x.1, x.2.truncate rxBufSize n) :: l

section

variable {rxBufSize : U32} {n o : Nat} {x : U64 × RxPkt}

@[simp] theorem beyond_zero (rxBufSize : U32) (l : List (U64 × RxPkt)) :
    beyond rxBufSize 0 l = l := by
  cases l <;> rfl

theorem beyond_of_le (hx : 0 < plenOf x) (hle : plenOf x ≤ n) :
    beyond rxBufSize n (x :: l) = beyond rxBufSize (n - plenOf x) l := by
  rw [beyond, if_neg (ne_of_gt (lt_of_lt_of_le hx hle)), if_pos hle]

theorem beyond_of_lt (hn : 0 < n) (hlt : n < plenOf x) :
    beyond rxBufSize n (x :: l) = (x.1, x.2.truncate rxBufSize n) :: l := by
  rw [beyond, if_neg (ne_of_gt hn), if_neg (not_le.mpr hlt)]

theorem RxPkt.Carries.payload_length (h : p.Carries) : p.payload.length = p.md.plen.toNat := by
  have hinside := h.inside
  unfold RxPkt.payload
  rw [length_take, length_drop]
  omega

section

variable (h : p.Carries) (hn : n < p.md.plen.toNat)
include h hn

theorem RxPkt.Carries.truncate_poff :
    (p.truncate rxBufSize n).md.poff.toNat = p.md.poff.toNat + n := by
  have hinside := h.inside
  have hbuffer := h.buffer
  simp only [RxPkt.truncate, toNat_add, toNat_ofNat]
  omega

theorem RxPkt.Carries.truncate : (p.truncate rxBufSize n).Carries := by
  have hinside := h.inside
  have hpoff : (p.truncate rxBufSize n).md.poff.toNat = _ := h.truncate_poff hn
  have hplen := truncate_plen rxBufSize hn
  exact ⟨by omega, by rw [hpoff, hplen]; change _ ≤ p.frame.length; omega, h.buffer⟩

theorem RxPkt.Carries.payload_truncate : (p.truncate rxBufSize n).payload = p.payload.drop n := by
  unfold RxPkt.payload
  rw [h.truncate_poff hn, truncate_plen rxBufSize hn, drop_take, drop_drop]
  rfl

end

theorem RxPkt.LiesAt.truncate (h : p.LiesAt rxBufSize.toNat o) (hn : n < p.md.plen.toNat)
    (hsize : n ≤ rxBufSize.toNat) : (p.truncate rxBufSize n).LiesAt rxBufSize.toNat (o + n) := by
  obtain ⟨hle, hmod⟩ := h
  have hmod' := hmod.add_right n
  have hpos : (p.truncate rxBufSize n).md.rxPos.toNat =
      if p.md.rxPos.toNat + n > rxBufSize.toNat then p.md.rxPos.toNat + n - rxBufSize.toNat
      else p.md.rxPos.toNat + n := by
    simp only [RxPkt.truncate, toNat_ofNat]
    split_ifs <;> omega
  unfold RxPkt.LiesAt
  rw [hpos]
  split_ifs with hwrap
  · refine ⟨by omega, ?_⟩
    exact (Nat.ModEq.trans (mod_eq_sub_mod (le_of_lt hwrap)).symm hmod')
  · exact ⟨not_lt.mp hwrap, hmod'⟩

/-! ### What a tiling says about all of its frames -/

theorem TilesFrom.carries {size : Nat} (h : TilesFrom size o l) : ∀ x ∈ l, x.2.Carries := by
  induction l generalizing o with
  | nil => exact fun x hx => absurd hx not_mem_nil
  | cons y l ih => exact forall_mem_cons.mpr ⟨h.1, ih h.2.2⟩

theorem plenOf_pos (h : ∀ x ∈ l, x.2.Carries) : ∀ x ∈ l, 0 < plenOf x :=
  fun x hx => (h x hx).nonempty

theorem TilesFrom.congr {size o' : Nat} (h : TilesFrom size o l) (ho : o ≡ o' [MOD size]) :
    TilesFrom size o' l := by
  induction l generalizing o o' with
  | nil => trivial
  | cons x l ih =>
    obtain ⟨hcarries, hlies, hrest⟩ := h
    exact ⟨hcarries, ⟨hlies.1, hlies.2.trans ho⟩, ih hrest (ho.add_right _)⟩

theorem TilesFrom.beyond (h : TilesFrom rxBufSize.toNat o l) (hn : n ≤ rxBufSize.toNat)
    (htotal : n ≤ total plenOf l) : TilesFrom rxBufSize.toNat (o + n) (beyond rxBufSize n l) := by
  induction l generalizing o n with
  | nil => trivial
  | cons x l ih =>
    obtain ⟨hcarries, hlies, hrest⟩ := h
    rw [total_cons] at htotal
    rcases Nat.eq_zero_or_pos n with rfl | hpos
    · rw [beyond_zero]
      exact ⟨hcarries, hlies, hrest⟩
    · by_cases hle : plenOf x ≤ n
      · rw [beyond_of_le hcarries.nonempty hle]
        have hnext := ih hrest (n := n - plenOf x) (by omega) (by omega)
        rwa [Nat.add_assoc, Nat.add_sub_cancel' hle] at hnext
      · have hlt : n < plenOf x := Nat.not_le.mp hle
        rw [beyond_of_lt hpos hlt]
        refine ⟨hcarries.truncate hlt, hlies.truncate hlt hn, ?_⟩
        have hplen : plenOf (x.1, x.2.truncate rxBufSize n) = plenOf x - n :=
          truncate_plen rxBufSize hlt
        rw [hplen, Nat.add_assoc, Nat.add_sub_cancel' (Nat.le_of_lt hlt)]
        exact hrest

theorem beyond_spec (rxBufSize : U32) (n : Nat) (h : ∀ x ∈ l, x.2.Carries) :
    (beyond rxBufSize n l).flatMap (fun x => x.2.payload) =
        (l.flatMap (fun x => x.2.payload)).drop n ∧
      total plenOf (beyond rxBufSize n l) = total plenOf l - n ∧
      (covered plenOf l n).map Prod.fst ++ (beyond rxBufSize n l).map Prod.fst =
        l.map Prod.fst := by
  induction l generalizing n with
  | nil => simp [beyond]
  | cons x l ih =>
    obtain ⟨hx, hl⟩ := forall_mem_cons.mp h
    have hlen : x.2.payload.length = plenOf x := hx.payload_length
    have hone : 0 < plenOf x := hx.nonempty
    rcases Nat.eq_zero_or_pos n with rfl | hpos
    · rw [beyond_zero, covered_of_lt hone]
      simp
    · by_cases hle : plenOf x ≤ n
      · obtain ⟨hbytes, htotal, haddrs⟩ := ih (n - plenOf x) hl
        rw [beyond_of_le hone hle, covered_of_le hle, hbytes, htotal, flatMap_cons,
          drop_append, hlen, drop_eq_nil_of_le (hlen.trans_le hle), total_cons]
        refine ⟨rfl, by omega, ?_⟩
        rw [List.map_cons, List.map_cons, List.cons_append, haddrs]
      · have hlt : n < plenOf x := not_le.mp hle
        have hplen : plenOf (x.1, x.2.truncate rxBufSize n) = plenOf x - n :=
          truncate_plen rxBufSize hlt
        rw [beyond_of_lt hpos hlt, covered_of_lt hlt, flatMap_cons, flatMap_cons,
          drop_append_of_le_length (hlen.symm ▸ le_of_lt hlt),
          hx.payload_truncate hlt, total_cons, total_cons, hplen]
        exact ⟨rfl, by omega, rfl⟩

end

/-! ## A pass that finds all it needs -/

def Hits (hit : U32 → Bool) : Nat → List (U64 × RxPkt) → Prop
  | _, [] => True
  | n, x :: l => (0 < n → hit x.2.md.rxPos = true) ∧ Hits hit (n - plenOf x) l

theorem peekLoop_exact {hit : U32 → Bool} {rxBufSize : U32} {count copied : Nat}
    {l : List (U64 × RxPkt)} (hcarries : ∀ x ∈ l, x.2.Carries) (hcopied : copied < count)
    (htotal : count - copied ≤ total plenOf l) (hhits : Hits hit (count - copied) l) :
    peekLoop hit rxBufSize count copied l =
      { copied := count
        bytes := (l.flatMap (fun x => x.2.payload)).take (count - copied)
        freed := (covered plenOf l (count - copied)).map Prod.fst
        left := beyond rxBufSize (count - copied) l } := by
  induction l generalizing copied with
  | nil =>
    rw [total_nil] at htotal
    omega
  | cons x l ih =>
    obtain ⟨addr, p⟩ := x
    obtain ⟨hx, hl⟩ := forall_mem_cons.mp hcarries
    have hhit : hit p.md.rxPos = true := hhits.1 (by omega)
    have hlen : p.payload.length = p.md.plen.toNat := hx.payload_length
    have hpos : 0 < p.md.plen.toNat := hx.nonempty
    have htotal : count - copied ≤ p.md.plen.toNat + total plenOf l := htotal
    simp only [peekLoop, hhit, if_true]
    rcases Nat.lt_trichotomy p.md.plen.toNat (count - copied) with hlt | heq | hgt
    · -- the frame is used up and the pass goes on
      have hmore : ¬ copied + p.md.plen.toNat = count := by omega
      have hleft : count - (copied + p.md.plen.toNat) = count - copied - p.md.plen.toNat := by omega
      have hnext : copied + p.md.plen.toNat < count := by omega
      have hrest := ih hl hnext (by omega) (by rw [hleft]; exact hhits.2)
      have hbytes : (((addr, p) :: l).flatMap (fun x => x.2.payload)).take (count - copied) =
          p.payload ++ (l.flatMap (fun x => x.2.payload)).take
            (count - copied - p.md.plen.toNat) := by
        rw [flatMap_cons, take_append, take_of_length_le (hlen.trans_le hlt.le), hlen]
      rw [hbytes, beyond_of_le (x := (addr, p)) hpos hlt.le, covered_of_le (x := (addr, p)) hlt.le]
      simp only [min_eq_left hlt.le, if_true, hmore, if_false, hrest, hleft]
      rfl
    · -- the frame ends with the range
      have hdone : copied + p.md.plen.toNat = count := by omega
      have hbytes : (((addr, p) :: l).flatMap (fun x => x.2.payload)).take p.md.plen.toNat =
          p.payload := by
        rw [flatMap_cons, take_append_of_le_length hlen.ge, take_of_length_le hlen.le]
      have hall : plenOf (addr, p) ≤ p.md.plen.toNat := Nat.le_refl _
      rw [← heq, hbytes, beyond_of_le (x := (addr, p)) hpos hall, covered_of_le hall,
        show p.md.plen.toNat - plenOf (addr, p) = 0 from Nat.sub_self _, beyond_zero,
        covered_zero (plenOf_pos hl)]
      simp only [Nat.min_self, if_true, hdone]
      rfl
    · -- the frame is cut
      have hcut : ¬ count - copied = p.md.plen.toNat := Nat.ne_of_lt hgt
      have hdone : copied + (count - copied) = count := by omega
      have hbytes : (((addr, p) :: l).flatMap (fun x => x.2.payload)).take (count - copied) =
          (p.frame.drop p.md.poff.toNat).take (count - copied) := by
        rw [flatMap_cons, take_append_of_le_length (hgt.le.trans hlen.ge), RxPkt.payload,
          take_take, min_eq_left hgt.le]
      rw [hbytes, beyond_of_lt (x := (addr, p)) (by omega) hgt, covered_of_lt (x := (addr, p)) hgt]
      simp only [min_eq_right hgt.le, hcut, if_false, hdone]
      rfl

/-! ## Positions in range -/

theorem circle_cases {size pos o : Nat} (hpos : pos ≤ size) (ho : o < 2 * size)
    (h : pos ≡ o [MOD size]) : pos = o ∨ pos + size = o ∨ pos = o + size := by
  rcases Nat.le_total pos o with hle | hle
  · obtain ⟨k, hk⟩ := (modEq_iff_dvd' hle).mp h
    rcases Nat.lt_trichotomy k 1 with h0 | rfl | h2
    · rw [Nat.lt_one_iff.mp h0] at hk
      omega
    · omega
    · have := Nat.mul_le_mul_left size h2
      omega
  · obtain ⟨k, hk⟩ := (modEq_iff_dvd' hle).mp h.symm
    rcases Nat.lt_trichotomy k 1 with h0 | rfl | h2
    · rw [Nat.lt_one_iff.mp h0] at hk
      omega
    · omega
    · have := mul_le_mul_left size h2
      omega

section

variable {d : Nat}

section

variable (hhead : c.rxbHead.toNat ≤ c.rxBufSize.toNat) (hcount : count ≤ c.rxBufSize.toNat)
include hhead hcount

theorem inRange_of_liesAt (hd : d < count) (hp : p.LiesAt c.rxBufSize.toNat (c.rxbHead.toNat + d))
    (hname : c.rxbHead.toNat + d ≠ 0 ∨ p.md.rxPos ≠ c.rxBufSize) :
    inRange c count p.md.rxPos = true := by
  obtain ⟨hle, hmod⟩ := hp
  have hname : c.rxbHead.toNat + d ≠ 0 ∨ p.md.rxPos.toNat ≠ c.rxBufSize.toNat :=
    hname.imp_right (fun h heq => h (eq_of_toNat_eq heq))
  have hcases := circle_cases hle (by omega) hmod
  rw [inRange_iff]
  split_ifs <;> omega

theorem TilesFrom.hits (h : TilesFrom c.rxBufSize.toNat (c.rxbHead.toNat + d) l)
    (hname : c.rxbHead.toNat + d ≠ 0 ∨ ∀ x ∈ l.head?, x.2.md.rxPos ≠ c.rxBufSize) :
    Hits (inRange c count) (count - d) l := by
  induction l generalizing d with
  | nil => trivial
  | cons x l ih =>
    obtain ⟨hcarries, hlies, hrest⟩ := h
    have hone : 0 < plenOf x := hcarries.nonempty
    constructor
    · intro hd
      exact inRange_of_liesAt hhead hcount (by omega) hlies (hname.imp_right fun h => h x rfl)
    · -- past the first frame the offset is not `0`
      rw [Nat.add_assoc] at hrest
      rw [Nat.sub_sub]
      exact ih hrest (.inl (by omega))

end

end

/-! ## One call -/

theorem rxPeekCountZc_exact (h : Tiled c) (hname : NamesAgree c) (hcount : 0 < count) :
    rxPeekCountZc c count =
      { copied := c.readable count
        bytes := c.waiting.take (c.readable count)
        freed := (covered plenOf c.rxAddrs (c.readable count)).map Prod.fst
        left := beyond c.rxBufSize (c.readable count) c.rxAddrs } := by
  unfold rxPeekCountZc EtranConn.readable
  have hused := h.used
  have htotal := h.total
  by_cases h0 : c.rxbUsed = 0#32
  · -- nothing waits
    have hzero : c.rxbUsed.toNat = 0 := by rw [h0]; rfl
    rw [if_pos h0, hzero, min_zero, beyond_zero, take_zero,
      covered_zero (plenOf_pos h.tiles.carries)]
    rfl
  · have hpos : 0 < c.rxbUsed.toNat :=
      pos_of_ne_zero (fun hzero => h0 (eq_of_toNat_eq hzero))
    rw [if_neg h0]
    have hhits : Hits (inRange c (min count c.rxbUsed.toNat)) (min count c.rxbUsed.toNat - 0)
        c.rxAddrs := by
      apply TilesFrom.hits h.head (by omega) h.tiles
      by_cases hhead : c.rxbHead = 0#32
      · exact .inr (hname hhead)
      · exact .inl (fun hzero => hhead (eq_of_toNat_eq hzero))
    exact peekLoop_exact h.tiles.carries (by omega) (by omega) hhits

theorem advanceHead_spec {rxBufSize head : U32} {n : Nat} (hsize : rxBufSize.toNat < 2 ^ 31)
    (hhead : head.toNat ≤ rxBufSize.toNat) (hn : n ≤ rxBufSize.toNat) (hpos : 0 < n) :
    (advanceHead rxBufSize head n).toNat ≤ rxBufSize.toNat ∧
      head.toNat + n ≡ (advanceHead rxBufSize head n).toNat [MOD rxBufSize.toNat] ∧
      advanceHead rxBufSize head n ≠ 0#32 := by
  have hvalue := toNat_advanceHead hsize hhead hn
  have hne : (advanceHead rxBufSize head n).toNat ≠ 0 → advanceHead rxBufSize head n ≠ 0#32 := by
    intro h heq
    rw [heq] at h
    exact h rfl
  split_ifs at hvalue with hwrap
  · refine ⟨by omega, ?_, hne (by omega)⟩
    rw [hvalue]
    exact mod_eq_sub_mod (le_of_lt hwrap)
  · refine ⟨by omega, ?_, hne (by omega)⟩
    rw [hvalue]

theorem connRecv_iobuffer (s : Thread) (conn : U64) (count : Nat) :
    (connRecv s conn count).1.tctx.iobuffer =
      s.tctx.iobuffer ++ (rxPeekCountZc (s.conns conn) count).freed := by
  unfold connRecv rxRelease
  dsimp only
  split_ifs <;> rfl

theorem head_after_recv {c' : EtranConn} {n : Nat} (h : Tiled c) (hname : NamesAgree c)
    (hsize : c.rxBufSize.toNat < 2 ^ 31) (hn : n ≤ c.rxBufSize.toNat)
    (hrx : c'.SameRx
      { c with
        rxAddrs := beyond c.rxBufSize n c.rxAddrs
        rxbUsed := c.rxbUsed - BitVec.ofNat 32 n
        rxbHead := if n = 0 then c.rxbHead else advanceHead c.rxBufSize c.rxbHead n }) :
    c'.rxbHead.toNat ≤ c.rxBufSize.toNat ∧
      c.rxbHead.toNat + n ≡ c'.rxbHead.toNat [MOD c.rxBufSize.toNat] ∧ NamesAgree c' := by
  have hhead := hrx.rxbHead
  rcases Nat.eq_zero_or_pos n with rfl | hpos
  · have haddrs := hrx.rxAddrs
    rw [beyond_zero] at haddrs
    refine ⟨by rw [hhead]; exact h.head, by rw [hhead]; rfl, ?_⟩
    unfold NamesAgree
    rw [hhead, haddrs, hrx.rxBufSize]
    exact hname
  · obtain ⟨hle, hmod, hne⟩ := advanceHead_spec hsize h.head hn hpos
    rw [if_neg (ne_of_gt hpos)] at hhead
    rw [NamesAgree, hhead]
    exact ⟨hle, hmod, fun h0 => absurd h0 hne⟩

theorem readsExactly_of_tiled {s : Thread} {conn : U64} (h : Tiled (s.conns conn))
    (hname : NamesAgree (s.conns conn)) (hsize : (s.conns conn).rxBufSize.toNat < 2 ^ 31)
    (hcount : 0 < count) : ReadsExactly conn s count := by
  have hpeek := rxPeekCountZc_exact h hname hcount
  have hused := h.used
  have htotal := h.total
  have hn : (s.conns conn).readable count ≤ (s.conns conn).rxbUsed.toNat := min_le_right _ _
  obtain ⟨hbytes, hleft, haddrs⟩ := beyond_spec (s.conns conn).rxBufSize
    ((s.conns conn).readable count) h.tiles.carries
  have htiles := h.tiles.beyond (hn.trans hused) (hn.trans_eq htotal.symm)
  -- the connection afterwards
  obtain ⟨t, c, heq, -, hrx⟩ := connRecv_eq s conn count
  have hc : (connRecv s conn count).1.conns conn = c := by rw [heq, setConn_conns_self]
  rw [hpeek] at hrx
  obtain ⟨hhead, hmod, hagree⟩ := head_after_recv h hname hsize (hn.trans hused) hrx
  have hrest : c.rxbUsed.toNat =
      (s.conns conn).rxbUsed.toNat - (s.conns conn).readable count := by
    rw [hrx.rxbUsed, toNat_sub, toNat_ofNat]
    dsimp only
    omega
  refine ⟨?_, ?_, ?_, ?_, ?_, ?_, hc ▸ hagree, hc ▸ hrx.rxBufSize⟩
  · rw [connRecvRet, hpeek]
  · exact congrArg Peeked.bytes hpeek
  · rw [connRecv_iobuffer, hpeek]
  · rw [hc, hrx.rxAddrs]
    exact haddrs
  · rw [hc, EtranConn.waiting, hrx.rxAddrs]
    exact hbytes
  · rw [hc]
    refine ⟨?_, ?_, ?_, ?_⟩
    · rw [hrx.rxBufSize]
      exact hhead
    · rw [hrx.rxBufSize, hrest]
      exact (sub_le _ _).trans hused
    · rw [hrx.rxAddrs, hrest, hleft, htotal]
    · rw [hrx.rxAddrs, hrx.rxBufSize]
      exact htiles.congr hmod

/-! ## Sequences of calls -/

def recvStep (conn : U64) (s : Thread) (count : Nat) : Thread := (connRecv s conn count).1

/-- **Every call of a sequence returns exactly the next bytes.** -/
theorem readsExactly_run {s : Thread} {conn : U64} {counts : List Nat} (h : Tiled (s.conns conn))
    (hname : NamesAgree (s.conns conn)) (hsize : (s.conns conn).rxBufSize.toNat < 2 ^ 31)
    (hcounts : ∀ count ∈ counts, 0 < count) :
    Meets (recvStep conn) (ReadsExactly conn) s counts := by
  induction counts generalizing s with
  | nil => trivial
  | cons count counts ih =>
    obtain ⟨hcount, hcounts⟩ := forall_mem_cons.mp hcounts
    have hread := readsExactly_of_tiled h hname hsize hcount
    exact ⟨hread, ih hread.tiled hread.names (by rw [recvStep, hread.size]; exact hsize) hcounts⟩

def threadHolding (rxBufSize rxbHead : U32) (frames : List (U32 × U16)) : Thread :=
  { (default : Thread) with
    conns := fun _ =>
      { (default : EtranConn) with
        rxBufSize := rxBufSize
        rxbHead := rxbHead
        rxbUsed := BitVec.ofNat 32 (total (fun f => f.2.toNat) frames)
        rxAddrs := frames.map fun f =>
          (0#64, { md := { (default : RxMeta) with rxPos := f.1, poff := 66#16, plen := f.2 }
                   tcpSeq := 0#32
                   frame := List.replicate (66 + f.2.toNat) 0#8 }) } }

theorem readsExactly_run_wrap :
    Meets (recvStep 1#64) (ReadsExactly 1#64)
      (threadHolding 2048#32 2038#32 [(2038#32, 6#16), (2044#32, 8#16), (4#32, 3#16)])
      [5, 5, 20] :=
  readsExactly_run (by decide) (by decide) (by decide) (by decide)

/-! ## Outside of what the connection ever is -/

/-- A frame whose position is called `rx_buf_size` is missed at head `0`; in a buffer of `2 ^ 32 -
    1` bytes the sum for the head wraps around. -/
theorem missed_at_zero_head :
    Tiled ((threadHolding 2048#32 0#32 [(2048#32, 4#16)]).conns 1#64) ∧
      connRecvRet (threadHolding 2048#32 0#32 [(2048#32, 4#16)]) 1#64 1 = 0 ∧
      ¬ ReadsExactly 1#64 (threadHolding 2048#32 0#32 [(2048#32, 4#16)]) 1 ∧
      Tiled ((threadHolding 4294967295#32 4294967295#32 [(0#32, 4#16)]).conns 1#64) ∧
      ¬ ReadsExactly 1#64 (threadHolding 4294967295#32 4294967295#32 [(0#32, 4#16)]) 1 := by
  refine ⟨by decide, by decide, ?_, by decide, ?_⟩
  · intro h
    exact absurd h.returned (by decide)
  · intro h
    exact absurd h.tiled (by decide)

end MtpXdp.Lib
