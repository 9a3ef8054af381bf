import MtpXdp.Core.OnesComplement
import MtpXdp.Ebpf.Headers

/-!
# The IPv4 Header Checksum

`fill_ip_hdr` writes the fields of the header and then sums up its ten words, the check field as it
was before included. So the checksum is that of a header with an extra word, and valid exactly when
that word is one of the two zeros of one's-complement arithmetic.
-/

namespace MtpXdp.Homa

open Ebpf

/-- `fill_ip_hdr` of the Homa program: the type of service and the protocol stay as they are. -/
def fillIpHdr (h : IpHdr) (len : U32) : IpHdr :=
  let h := { h with
    ihl := 5
    version := 4
    totLen := bpfHtons (len - 14#32)
    id := bpfHtons 0#32
    fragOff := 0
    ttl := 0xff }
  { h with check := ipv4CsumInline h }

end MtpXdp.Homa

namespace MtpXdp.Ebpf

open MtpXdp.Core

def ChecksumValid (h : IpHdr) : Prop := onesSum h.words = 0xFFFF#16
deriving Decidable

/-! ## The accumulator -/

theorem toNat_foldl_words (ws : List U16) (a : U64)
    (h : a.toNat + (ws.map BitVec.toNat).sum < 2 ^ 64) :
    (ws.foldl (fun s w => s + w.setWidth 64) a).toNat = a.toNat + (ws.map BitVec.toNat).sum := by
  induction ws generalizing a with
  | nil => rfl
  | cons b ws ih =>
    rw [List.map_cons, List.sum_cons] at h ⊢
    have hwide : (b.setWidth 64 : U64).toNat = b.toNat := by
      rw [BitVec.toNat_setWidth, Nat.mod_eq_of_lt (by omega)]
    have hstep : (a + b.setWidth 64).toNat = a.toNat + b.toNat := by
      rw [BitVec.toNat_add, hwide, Nat.mod_eq_of_lt (by omega)]
    rw [List.foldl_cons, ih _ (by omega), hstep]
    omega

theorem toNat_csumFoldRound (s : U64) : (csumFoldRound s).toNat = foldOnce 16 s.toNat := by
  have hshift : (s >>> 16).toNat = s.toNat / 2 ^ 16 := by
    rw [BitVec.toNat_ushiftRight, Nat.shiftRight_eq_div_pow]
  have hmask : (s &&& 0xFFFF#64).toNat = s.toNat % 2 ^ 16 := by
    exact Nat.and_two_pow_sub_one_eq_mod s.toNat 16
  unfold csumFoldRound foldOnce
  by_cases hhigh : s >>> 16 = 0#64
  · -- nothing above the low word
    have hzero : s.toNat / 2 ^ 16 = 0 := by
      rw [← hshift, hhigh]
      rfl
    rw [if_neg (by simp [hhigh])]
    omega
  · rw [if_pos (by simpa using hhigh), BitVec.toNat_add, hmask, hshift, Nat.mod_eq_of_lt (by omega)]

theorem csumFoldHelper_spec (s : U64) (h : s.toNat < 2 ^ 32) :
    ∃ f, f ≡ s.toNat [MOD 65535] ∧ f ≤ 65535 ∧ (0 < s.toNat → 0 < f) ∧
      (csumFoldHelper s).toNat = 65535 - f := by
  let round : Nat → Nat := foldOnce 16
  have hmod (n : Nat) : round n ≡ n [MOD 65535] := foldOnce_modEq 16 n
  have hpos {n : Nat} (hn : 0 < n) : 0 < round n := foldOnce_pos 16 hn
  have hfold (n : Nat) : round n = n % 65536 + n / 65536 := rfl
  have hle : round (round (round (round s.toNat))) ≤ 65535 := by
    have h1 := hfold s.toNat
    have h2 := hfold (round s.toNat)
    have h3 := hfold (round (round s.toNat))
    have h4 := hfold (round (round (round s.toNat)))
    omega
  refine ⟨round (round (round (round s.toNat))), ?_, hle, ?_, ?_⟩
  · exact (((hmod _).trans (hmod _)).trans (hmod _)).trans (hmod _)
  · intro hs
    exact hpos (hpos (hpos (hpos hs)))
  · rw [csumFoldHelper, BitVec.toNat_setWidth, BitVec.toNat_not]
    simp only [toNat_csumFoldRound]
    change (2 ^ 64 - 1 - round (round (round (round s.toNat)))) % 2 ^ 16 = _
    omega

/-! ## The header -/

section

variable (h : IpHdr)

def IpHdr.otherWords : Nat :=
  (h.tos ++ (h.version <<< 4 ||| h.ihl)).toNat + h.totLen.toNat + h.id.toNat + h.fragOff.toNat +
    (h.protocol ++ h.ttl).toNat + (h.saddr.setWidth 16 : U16).toNat +
    ((h.saddr >>> 16).setWidth 16 : U16).toNat + (h.daddr.setWidth 16 : U16).toNat +
    ((h.daddr >>> 16).setWidth 16 : U16).toNat

theorem sum_words : (h.words.map BitVec.toNat).sum = h.otherWords + h.check.toNat := by
  simp only [IpHdr.words, IpHdr.otherWords, List.map_cons, List.map_nil, List.sum_cons,
    List.sum_nil]
  omega

theorem otherWords_lt : h.otherWords < 2 ^ 20 := by
  have h2 := h.totLen.isLt
  have h3 := h.id.isLt
  have h4 := h.fragOff.isLt
  unfold IpHdr.otherWords
  omega

theorem checksumValid_iff (hpos : 0 < h.otherWords) :
    ChecksumValid h ↔ 65535 ∣ h.otherWords + h.check.toNat := by
  have hvalid := onesSum_eq_allOnes_iff (show 0 < 16 by decide) h.words
  rw [ChecksumValid, show (0xFFFF#16 : U16) = BitVec.allOnes 16 from rfl, hvalid, sum_words]
  exact and_iff_left (by omega)

theorem ipv4CsumInline_spec : ∃ f, f ≡ h.otherWords + h.check.toNat [MOD 65535] ∧ f ≤ 65535 ∧
      (0 < h.otherWords + h.check.toNat → 0 < f) ∧ (ipv4CsumInline h).toNat = 65535 - f := by
  have hlt := otherWords_lt h
  have hacc : (h.words.foldl (fun s w => s + w.setWidth 64) 0#64 : U64).toNat =
      h.otherWords + h.check.toNat := by
    rw [toNat_foldl_words, sum_words]
    · simp
    · rw [sum_words]
      simp
      omega
  have hspec := csumFoldHelper_spec (h.words.foldl (fun s w => s + w.setWidth 64) 0#64)
    (by rw [hacc]; omega)
  rwa [hacc] at hspec

theorem checksumValid_setCheck_iff (hpos : 0 < h.otherWords) :
    ChecksumValid { h with check := ipv4CsumInline h } ↔ h.check = 0#16 ∨ h.check = 0xFFFF#16 := by
  obtain ⟨f, hmod, hle, -, heq⟩ := ipv4CsumInline_spec h
  have hiff := checksumValid_iff { h with check := ipv4CsumInline h } hpos
  change _ ↔ 65535 ∣ h.otherWords + (ipv4CsumInline h).toNat at hiff
  rw [hiff]
  rw [heq, ← BitVec.toNat_inj, ← BitVec.toNat_inj]
  change _ ↔ h.check.toNat = 0 ∨ h.check.toNat = 65535
  unfold Nat.ModEq at hmod
  omega

end

theorem otherWords_pos {h : IpHdr} (hversion : h.version = 4) (hihl : h.ihl = 5) :
    0 < h.otherWords := by
  have hfirst : 0 < (h.tos ++ (h.version <<< 4 ||| h.ihl)).toNat := by
    rw [hversion, hihl, BitVec.toNat_append]
    exact Nat.lt_of_lt_of_le (by decide) Nat.right_le_or
  unfold IpHdr.otherWords
  omega

/-- **When the checksum of an emitted packet is valid**: iff the check field held `0` or `0xFFFF`
    before. -/
theorem fillIpHdr_checksumValid_iff (h : IpHdr) (len : U32) (ece : Bool) :
    (ChecksumValid (fillIpHdr h len ece) ↔ h.check = 0#16 ∨ h.check = 0xFFFF#16) ∧
    (ChecksumValid (Homa.fillIpHdr h len) ↔ h.check = 0#16 ∨ h.check = 0xFFFF#16) := by
  constructor
  · exact checksumValid_setCheck_iff _ (otherWords_pos rfl rfl)
  · exact checksumValid_setCheck_iff _ (otherWords_pos rfl rfl)

def addressedHdr : IpHdr :=
  { (default : IpHdr) with saddr := 0x0100000a#32, daddr := 0x0200000a#32 }

/-- The header that the first call left, with its valid checksum, gets an invalid one from the
    second. -/
theorem resent_checksum_invalid :
    ChecksumValid (fillIpHdr addressedHdr 1448#32 false) ∧
      ¬ ChecksumValid (fillIpHdr (fillIpHdr addressedHdr 1448#32 false) 1448#32 false) ∧
      ¬ ChecksumValid (Homa.fillIpHdr (Homa.fillIpHdr addressedHdr 1500#32) 1500#32) := by
  decide +kernel

end MtpXdp.Ebpf
