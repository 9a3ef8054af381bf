import Mathlib.Logic.Relation
import MtpXdp.Ebpf.State

/-!
# The Options of a TCP Header

`parse_tcp_opts` of `micro_kernel/tcp.cc` compares the offset of an option with the length of the
area, but neither the offset of the length byte nor the end of the option. The walk records the
offsets it reads.
-/

namespace MtpXdp.Control

open Ebpf Relation

structure OptScan where
  reads : List Nat := []
  mss : Option Nat := none
  ts : Option Nat := none
  ok : Bool := true

/-- The loop of `parse_tcp_opts` over the bytes `opt` after the fixed header, `none` without
    fuel. -/
def optLoop (opt : Nat → U8) (optsLen : Nat) : Nat → Nat → OptScan → Option OptScan
  | 0, _, _ => none
  | fuel + 1, off, s =>
    if optsLen ≤ off then some s
    else
      let s := { s with reads := s.reads ++ [off] }
      if opt off = 0#8 then some s
      else if opt off = 1#8 then optLoop opt optsLen fuel (off + 1) s
      else
        let s := { s with reads := s.reads ++ [off + 1] }
        if opt off = 2#8 then
          if opt (off + 1) ≠ 4#8 then some { s with ok := false }
          else optLoop opt optsLen fuel (off + 4) { s with mss := some off }
        else if opt off = 8#8 then
          if opt (off + 1) ≠ 10#8 then some { s with ok := false }
          else optLoop opt optsLen fuel (off + 10) { s with ts := some off }
        else some { s with ok := false }

def optsLen (doff : BitVec 4) : Nat := (doff.setWidth 16 * 4#16 - 20#16).toNat

theorem optsLen_eq {doff : BitVec 4} (h : 5 ≤ doff.toNat) : optsLen doff = 4 * doff.toNat - 20 := by
  revert doff
  decide

def parseTcpOpts (opt : Nat → U8) (doff : BitVec 4) : Option OptScan :=
  optLoop opt (optsLen doff) (optsLen doff + 1) 0 {}

structure OptScan.Inside (s : OptScan) (len : Nat) : Prop where
  reads : ∀ off ∈ s.reads, off < len
  mss : ∀ off ∈ s.mss, off + 4 ≤ len
  ts : ∀ off ∈ s.ts, off + 10 ≤ len

def optSize (opt : Nat → U8) (off : Nat) : Option Nat :=
  if opt off = 1#8 then some 1
  else if opt off = 2#8 ∧ opt (off + 1) = 4#8 then some 4
  else if opt off = 8#8 ∧ opt (off + 1) = 10#8 then some 10
  else none

def NextOpt (opt : Nat → U8) (len off off' : Nat) : Prop :=
  off < len ∧ ∃ n ∈ optSize opt off, off' = off + n

/-- The option at `off` is not cut off: its length byte is there, and the rest if it is accepted. -/
def OptFits (opt : Nat → U8) (len off : Nat) : Prop :=
  off < len → opt off ≠ 0#8 → (opt off ≠ 1#8 → off + 1 < len) ∧ ∀ n ∈ optSize opt off, off + n ≤ len

section

variable {opt : Nat → U8} {len off fuel : Nat} {s : OptScan}

theorem reached_iff {P : Nat → Prop} {n : Nat} (hlt : off < len) (hn : optSize opt off = some n) :
    (∀ o, ReflTransGen (NextOpt opt len) off o → P o) ↔
      P off ∧ ∀ o, ReflTransGen (NextOpt opt len) (off + n) o → P o := by
  constructor
  · exact fun h => ⟨h off .refl, fun o ho => h o (.head ⟨hlt, n, hn, rfl⟩ ho)⟩
  · rintro ⟨hoff, h⟩ o ho
    rcases ReflTransGen.cases_head ho with rfl | ⟨off', ⟨-, m, hm, rfl⟩, ho⟩
    · exact hoff
    · exact h o (Option.some.inj (hn.symm.trans hm) ▸ ho)

theorem reached_iff_of_last {P : Nat → Prop} (h : len ≤ off ∨ optSize opt off = none) :
    (∀ o, ReflTransGen (NextOpt opt len) off o → P o) ↔ P off := by
  constructor
  · exact fun h => h off .refl
  · intro hoff o ho
    rcases ReflTransGen.cases_head ho with rfl | ⟨off', ⟨hlt, m, hm, -⟩, -⟩
    · exact hoff
    · rcases h with hle | hnone
      · omega
      · cases hnone.symm.trans hm

theorem optLoop_spec (hfuel : len - off < fuel) (hs : s.Inside len) :
    ∃ r, optLoop opt len fuel off s = some r ∧
      (r.Inside len ↔ ∀ o, ReflTransGen (NextOpt opt len) off o → OptFits opt len o) := by
  induction fuel generalizing off s with
  | zero => omega
  | succ fuel ih =>
    by_cases hle : len ≤ off
    · refine ⟨s, if_pos hle, ?_⟩
      rw [reached_iff_of_last (.inl hle)]
      exact iff_of_true hs fun hlt => absurd hlt (Nat.not_lt.mpr hle)
    have hlt : off < len := Nat.lt_of_not_le hle
    have hread : ∀ o ∈ s.reads ++ [off], o < len := by
      simpa [or_imp, forall_and] using ⟨hs.reads, hlt⟩
    -- after an option of size `n` the walk goes on, or it ends because the option was cut off
    have hnext {n : Nat} {s' : OptScan} (hn : optSize opt off = some n) (hpos : 0 < n)
        (hin : s'.Inside len ↔ OptFits opt len off) :
        ∃ r, optLoop opt len fuel (off + n) s' = some r ∧
          (r.Inside len ↔ ∀ o, ReflTransGen (NextOpt opt len) off o → OptFits opt len o) := by
      simp only [reached_iff hlt hn]
      by_cases hfits : OptFits opt len off
      · simpa [hfits] using ih (by omega) (hin.mpr hfits)
      · obtain ⟨f, rfl⟩ : ∃ f, fuel = f + 1 := ⟨fuel - 1, by omega⟩
        have hend : len ≤ off + n := by
          by_contra hlt'
          refine hfits fun _ _ => ⟨fun _ => ?_, fun m hm => ?_⟩
          · omega
          · cases hn.symm.trans hm; omega
        exact ⟨s', if_pos hend, by simp [hin, hfits]⟩
    rw [optLoop, if_neg hle]
    by_cases h0 : opt off = 0#8
    · refine ⟨_, if_pos h0, ?_⟩
      rw [reached_iff_of_last (.inr (by simp [optSize, h0]))]
      exact iff_of_true ⟨hread, hs.mss, hs.ts⟩ fun _ hne => absurd h0 hne
    rw [if_neg h0]
    by_cases h1 : opt off = 1#8
    · rw [if_pos h1]
      refine hnext (by simp [optSize, h1]) (by omega) (iff_of_true ⟨hread, hs.mss, hs.ts⟩ ?_)
      exact fun _ _ => ⟨absurd h1, fun n hn => by cases (by simpa [optSize, h1] using hn); omega⟩
    rw [if_neg h1]
    -- what is left reads the length byte, and is refused or accepted with it
    have hlen : (∀ o ∈ s.reads ++ [off] ++ [off + 1], o < len) ↔ off + 1 < len := by
      simp only [List.mem_append, List.mem_singleton, or_imp, forall_and, forall_eq]
      exact ⟨fun h => h.2, fun h => ⟨⟨hs.reads, hlt⟩, h⟩⟩
    have hrefused (hn : optSize opt off = none) :
        OptScan.Inside { s with reads := s.reads ++ [off] ++ [off + 1], ok := false } len ↔
          ∀ o, ReflTransGen (NextOpt opt len) off o → OptFits opt len o := by
      have hfits : OptFits opt len off ↔ off + 1 < len := by simp [OptFits, hlt, h0, h1, hn]
      rw [reached_iff_of_last (.inr hn), hfits, ← hlen]
      exact ⟨fun h => h.reads, fun h => ⟨h, hs.mss, hs.ts⟩⟩
    have hfits {n : Nat} (hn : optSize opt off = some n) :
        OptFits opt len off ↔ off + 1 < len ∧ off + n ≤ len := by
      simp [OptFits, hlt, h0, h1, hn]
    by_cases h2 : opt off = 2#8
    · rw [if_pos h2]
      by_cases h4 : opt (off + 1) = 4#8
      · have hn : optSize opt off = some 4 := by simp [optSize, h2, h4]
        rw [if_neg (not_not.mpr h4)]
        refine hnext hn (by omega) ?_
        rw [hfits hn, ← hlen]
        exact ⟨fun h => ⟨h.reads, h.mss off rfl⟩, fun h => ⟨h.1, by simpa using h.2, hs.ts⟩⟩
      · exact ⟨_, if_pos h4, hrefused (by simp [optSize, h2, h4])⟩
    rw [if_neg h2]
    by_cases h8 : opt off = 8#8
    · rw [if_pos h8]
      by_cases h10 : opt (off + 1) = 10#8
      · have hn : optSize opt off = some 10 := by simp [optSize, h8, h10]
        rw [if_neg (not_not.mpr h10)]
        refine hnext hn (by omega) ?_
        rw [hfits hn, ← hlen]
        exact ⟨fun h => ⟨h.reads, h.ts off rfl⟩, fun h => ⟨h.1, hs.mss, by simpa using h.2⟩⟩
      · exact ⟨_, if_pos h10, hrefused (by simp [optSize, h8, h10])⟩
    exact ⟨_, if_neg h8, hrefused (by simp [optSize, h1, h2, h8])⟩

end

/-- **`parse_tcp_opts` ends, and stays inside the option area iff no option that it comes to is cut
    off by the end.** -/
theorem parse_tcp_opts_inside_iff (opt : Nat → U8) (doff : BitVec 4) (h : 5 ≤ doff.toNat) :
    ∃ r, parseTcpOpts opt doff = some r ∧ (r.Inside (4 * doff.toNat - 20) ↔
      ∀ off, ReflTransGen (NextOpt opt (optsLen doff)) 0 off → OptFits opt (optsLen doff) off) := by
  rw [← optsLen_eq h]
  exact optLoop_spec (by omega) ⟨by simp, by simp, by simp⟩

/-- An MSS option, two no-ops and a timestamp option. -/
def mssAndTs : Nat → U8
  | 0 => 2#8
  | 1 => 4#8
  | 6 => 8#8
  | 7 => 10#8
  | _ => 1#8

theorem parse_tcp_opts_inside_mssAndTs : 5 ≤ (9#4).toNat ∧ ∃ r, parseTcpOpts mssAndTs 9#4 = some r ∧
    r.mss = some 0 ∧ r.ts = some 6 ∧ r.Inside (4 * (9#4).toNat - 20) := by
  obtain ⟨r, hr, hiff⟩ := parse_tcp_opts_inside_iff mssAndTs 9#4 (by decide)
  have hmss : r.mss = some 0 ∧ r.ts = some 6 := by
    rw [show r = _ from Option.some.inj hr.symm]
    decide
  refine ⟨by decide, r, hr, hmss.1, hmss.2, hiff.mpr ?_⟩
  rw [reached_iff (by decide) rfl, reached_iff (by decide) rfl, reached_iff (by decide) rfl,
    reached_iff (by decide) rfl, reached_iff_of_last (by decide)]
  simp [OptFits, optSize, mssAndTs, optsLen]

def cutMss : Nat → U8
  | 3 => 2#8
  | 4 => 4#8
  | _ => 1#8

/-- The length byte is read after the header, and the option that is returned ends after it. -/
theorem parse_tcp_opts_outside : 5 ≤ (6#4).toNat ∧ ∃ r, parseTcpOpts cutMss 6#4 = some r ∧
    r.ok = true ∧ 4 ∈ r.reads ∧ r.mss = some 3 ∧ ¬ r.Inside (4 * (6#4).toNat - 20) := by
  refine ⟨by decide, _, rfl, rfl, by decide, rfl, fun h => ?_⟩
  exact absurd (h.mss 3 rfl) (by decide)

end MtpXdp.Control
