import Mathlib.Data.Finset.Basic
import MtpXdp.Core.Run
import MtpXdp.Ebpf.State

/-!
# Flow-Steering Rules

`record_port` installs a rule that steers a port to the application's queues; ports with a rule are
remembered for all applications together. `unrecord_port` deletes every rule of the application,
whatever the port. `ethtool` succeeds.
-/

namespace MtpXdp.Control

open MtpXdp.Core Ebpf Function

structure PortMatch where
  source : Bool
  port : U16
deriving DecidableEq

structure FlowRule where
  port : U16
  source : Bool
  matched : PortMatch

abbrev PortPair := U16 × U16

/-- `rule_dst_ports` and `rule_src_ports` of the applications, and the pairs that are recorded. -/
structure Steering where
  rules : Nat → List FlowRule := fun _ => []
  dstPorts : Finset U16 := ∅
  srcPorts : Finset U16 := ∅
  recorded : Nat → List PortPair := fun _ => []

inductive PortCall where
  | record (actx : Nat) (localPort remotePort : U16)
  | unrecord (actx : Nat) (port : U16)

namespace Steering

variable (tcp : Nat → Bool)

def recordPort (s : Steering) (actx : Nat) (localPort remotePort : U16) : Steering :=
  let s := { s with
    recorded := update s.recorded actx ((localPort, remotePort) :: s.recorded actx) }
  if ¬ tcp actx then s
  else if remotePort = 0#16 ∧ localPort ∉ s.dstPorts then
    { s with
      dstPorts := insert localPort s.dstPorts
      rules := update s.rules actx (s.rules actx ++ [⟨localPort, false, false, localPort⟩]) }
  -- also reached with the remote port 0, when the local port has a rule
  else if remotePort ∉ s.srcPorts then
    { s with
      srcPorts := insert remotePort s.srcPorts
      rules := update s.rules actx (s.rules actx ++
        [⟨if remotePort ≠ 0#16 then remotePort else localPort, remotePort ≠ 0#16, true,
          remotePort⟩]) }
  else s

def unrecordPort (s : Steering) (actx : Nat) (port : U16) : Steering :=
  let s := { s with recorded := update s.recorded actx ((s.recorded actx).filter (·.1 ≠ port)) }
  if ¬ tcp actx then s
  else
    let erase (source : Bool) (ports : Finset U16) : Finset U16 :=
      (s.rules actx).foldl (fun ps r => if r.source = source then ps.erase r.port else ps) ports
    { s with
      srcPorts := erase true s.srcPorts
      dstPorts := erase false s.dstPorts
      rules := update s.rules actx [] }

def step (s : Steering) : PortCall → Steering
  | .record actx localPort remotePort => s.recordPort tcp actx localPort remotePort
  | .unrecord actx port => s.unrecordPort tcp actx port

def Installed (s : Steering) (actx : Nat) (m : PortMatch) : Prop :=
  ∃ r ∈ s.rules actx, r.matched = m
deriving Decidable

def ruleOf (p : PortPair) : PortMatch := if p.2 = 0#16 then ⟨false, p.1⟩ else ⟨true, p.2⟩

/-- **The property** of a call: recorded pairs have their rules, a removal takes rules of its port
    and application only, and source rules are for remote ports. -/
structure Tracks (s : Steering) (e : PortCall) : Prop where
  covered : ∀ actx, tcp actx → ∀ p ∈ (s.step tcp e).recorded actx,
    (s.step tcp e).Installed actx (ruleOf p)
  removed : ∀ actx port, e = .unrecord actx port → ∀ a m, s.Installed a m →
    ¬ (s.step tcp e).Installed a m → a = actx ∧ ∃ p ∈ s.recorded actx, p.1 = port ∧ m = ruleOf p
  added : ∀ actx localPort, e = .record actx localPort 0#16 → ∀ a m, ¬ s.Installed a m →
    (s.step tcp e).Installed a m → m.source = false

/-- No other rule stands in the way of the one needed, and a removal is of the application's only
    port. -/
def Alone (s : Steering) : PortCall → Prop
  | .record actx localPort remotePort => tcp actx →
      s.Installed actx (ruleOf (localPort, remotePort)) ∧ remotePort ∈ s.srcPorts ∨
        if remotePort = 0#16 then localPort ∉ s.dstPorts else remotePort ∉ s.srcPorts
  | .unrecord actx port => tcp actx → ∀ p ∈ s.recorded actx, p.1 = port

structure Exact (s : Steering) : Prop where
  covered : ∀ actx, tcp actx → ∀ p ∈ s.recorded actx, s.Installed actx (ruleOf p)
  needed : ∀ actx m, s.Installed actx m → tcp actx ∧ ∃ p ∈ s.recorded actx, m = ruleOf p

variable {tcp} {s : Steering} {actx a : Nat} {lp rp port : U16} {m : PortMatch} {p : PortPair}

theorem ruleOf_source_zero (p : PortPair) : ruleOf p ≠ ⟨true, 0#16⟩ := by
  unfold ruleOf
  split_ifs with h
  · simp
  · simpa using h

/-- **What a recording installs**: nothing, the rule of its pair, or one on the source port 0. -/
theorem installed_recordPort : (s.recordPort tcp actx lp rp).Installed a m ↔
      s.Installed a m ∨ tcp actx ∧ a = actx ∧ if rp = 0#16 ∧ lp ∉ s.dstPorts then m = ⟨false, lp⟩
        else rp ∉ s.srcPorts ∧ m = ⟨true, rp⟩ := by
  have happend (r : FlowRule) : (∃ r' ∈ update s.rules actx (s.rules actx ++ [r]) a,
    r'.matched = m) ↔
      s.Installed a m ∨ a = actx ∧ m = r.matched := by
    by_cases ha : a = actx
    · subst ha
      simp [Installed, or_and_right, exists_or, eq_comm]
    · simp [Installed, ha]
  by_cases ht : tcp actx = true
  swap
  · rw [recordPort, if_pos ht]
    exact (or_iff_left fun h => ht h.1).symm
  rw [recordPort, if_neg (not_not.mpr ht), and_iff_right ht]
  by_cases hdst : rp = 0#16 ∧ lp ∉ s.dstPorts
  · rw [if_pos hdst, if_pos hdst]
    exact happend _
  rw [if_neg hdst, if_neg hdst]
  by_cases hsrc : rp ∉ s.srcPorts
  · rw [if_pos hsrc, and_iff_right hsrc]
    exact happend _
  · rw [if_neg hsrc]
    exact (or_iff_left fun h => hsrc h.2.1).symm

theorem mem_recorded_recordPort : p ∈ (s.recordPort tcp actx lp rp).recorded a ↔
    p ∈ s.recorded a ∨ a = actx ∧ p = (lp, rp) := by
  have heq : (s.recordPort tcp actx lp rp).recorded =
      update s.recorded actx ((lp, rp) :: s.recorded actx) := by
    unfold recordPort
    dsimp only
    split_ifs <;> rfl
  rw [heq]
  by_cases ha : a = actx
  · subst ha
    simp [or_comm]
  · simp [ha]

theorem installed_unrecordPort : (s.unrecordPort tcp actx port).Installed a m ↔
    s.Installed a m ∧ ¬ (tcp actx ∧ a = actx) := by
  unfold unrecordPort
  by_cases ht : tcp actx = true
  · by_cases ha : a = actx
    · subst ha
      simp [Installed, ht]
    · simp [Installed, ht, ha]
  · simp [Installed, ht]

theorem mem_recorded_unrecordPort : p ∈ (s.unrecordPort tcp actx port).recorded a ↔
    p ∈ s.recorded a ∧ (a = actx → p.1 ≠ port) := by
  have heq : (s.unrecordPort tcp actx port).recorded =
      update s.recorded actx ((s.recorded actx).filter (·.1 ≠ port)) := by
    unfold unrecordPort
    split_ifs <;> rfl
  rw [heq]
  by_cases ha : a = actx
  · subst ha
    simp
  · simp [ha]

/-- It leaves the rule of its pair and does not fall through to a rule on the source port 0. -/
theorem alone_record_iff (ht : tcp actx = true) : Alone tcp s (.record actx lp rp) ↔
    (s.recordPort tcp actx lp rp).Installed actx (ruleOf (lp, rp)) ∧
      ¬ (rp = 0#16 ∧ lp ∈ s.dstPorts ∧ rp ∉ s.srcPorts) := by
  rw [installed_recordPort]
  by_cases hrp : rp = 0#16
  · by_cases hdst : lp ∈ s.dstPorts <;> simp [Alone, ruleOf, ht, hrp, hdst]
  · by_cases hsrc : rp ∈ s.srcPorts <;> simp [Alone, ruleOf, ht, hrp, hsrc]

theorem exact_recordPort (hs : Exact tcp s) (he : Alone tcp s (.record actx lp rp)) :
    Exact tcp (s.recordPort tcp actx lp rp) := by
  constructor
  · intro a ha p hp
    rcases mem_recorded_recordPort.mp hp with hp | ⟨rfl, rfl⟩
    · exact installed_recordPort.mpr (.inl (hs.covered a ha p hp))
    · exact ((alone_record_iff ha).mp he).1
  · intro a m hm
    rcases installed_recordPort.mp hm with hold | ⟨ht, rfl, hnew⟩
    · obtain ⟨ha, p, hp, hm⟩ := hs.needed a m hold
      exact ⟨ha, p, mem_recorded_recordPort.mpr (.inl hp), hm⟩
    · refine ⟨ht, (lp, rp), mem_recorded_recordPort.mpr (.inr ⟨rfl, rfl⟩), ?_⟩
      split_ifs at hnew with hdst
      · rw [hnew, ruleOf, if_pos hdst.1]
      · have hrp : rp ≠ 0#16 := fun h => ((alone_record_iff ht).mp he).2
          ⟨h, not_not.mp fun hl => hdst ⟨h, hl⟩, hnew.1⟩
        rw [hnew.2, ruleOf, if_neg hrp]

theorem exact_unrecordPort (hs : Exact tcp s) (he : Alone tcp s (.unrecord actx port)) :
    Exact tcp (s.unrecordPort tcp actx port) := by
  constructor
  · intro a ha p hp
    obtain ⟨hmem, hport⟩ := mem_recorded_unrecordPort.mp hp
    refine installed_unrecordPort.mpr ⟨hs.covered a ha p hmem, ?_⟩
    rintro ⟨ht, rfl⟩
    exact hport rfl (he ht p hmem)
  · intro a m hm
    obtain ⟨hm, hne⟩ := installed_unrecordPort.mp hm
    obtain ⟨ha, p, hp, hm⟩ := hs.needed a m hm
    refine ⟨ha, p, mem_recorded_unrecordPort.mpr ⟨hp, ?_⟩, hm⟩
    rintro rfl
    exact absurd ⟨ha, rfl⟩ hne

theorem exact_step (hs : Exact tcp s) (e : PortCall) (he : Alone tcp s e) :
    Exact tcp (s.step tcp e) := by
  cases e with
  | record => exact exact_recordPort hs he
  | unrecord => exact exact_unrecordPort hs he

theorem tracks_iff (hs : Exact tcp s) (e : PortCall) : Tracks tcp s e ↔ Alone tcp s e := by
  cases e with
  | record actx lp rp =>
    constructor
    · intro h ht
      refine (alone_record_iff ht).mpr ⟨?_, ?_⟩ ht
      · exact h.covered actx ht _ (mem_recorded_recordPort.mpr (.inr ⟨rfl, rfl⟩))
      · rintro ⟨rfl, hdst, hsrc⟩
        have hnot : ¬ s.Installed actx ⟨true, 0#16⟩ := fun hm => by
          obtain ⟨-, p, -, hp⟩ := hs.needed actx _ hm
          exact ruleOf_source_zero p hp.symm
        have hnew : (s.recordPort tcp actx lp 0#16).Installed actx ⟨true, 0#16⟩ :=
          installed_recordPort.mpr (.inr ⟨ht, rfl, by simp [hdst, hsrc]⟩)
        exact Bool.noConfusion (h.added actx lp rfl actx _ hnot hnew)
    · intro h
      refine ⟨(exact_recordPort hs h).covered, fun _ _ heq => PortCall.noConfusion heq, ?_⟩
      intro a' lp' heq a m hnot hm
      cases heq
      obtain ⟨ha, p, hp, rfl⟩ := (exact_recordPort hs h).needed a m hm
      rcases mem_recorded_recordPort.mp hp with hp | ⟨rfl, rfl⟩
      · exact absurd (hs.covered a ha p hp) hnot
      · rfl
  | unrecord actx port =>
    constructor
    · intro h ht p hp
      by_contra hport
      have hp' : p ∈ (s.unrecordPort tcp actx port).recorded actx :=
        mem_recorded_unrecordPort.mpr ⟨hp, fun _ => hport⟩
      exact (installed_unrecordPort.mp (h.covered actx ht p hp')).2 ⟨ht, rfl⟩
    · intro h
      refine ⟨(exact_unrecordPort hs h).covered, ?_, fun _ _ heq => PortCall.noConfusion heq⟩
      intro a' port' heq a m hm hgone
      cases heq
      obtain ⟨ha, p, hp, rfl⟩ := hs.needed a m hm
      have hactx : a = actx := by
        by_contra hne
        exact hgone (installed_unrecordPort.mpr ⟨hm, fun h => hne h.2⟩)
      subst hactx
      exact ⟨rfl, p, hp, h ha p hp, rfl⟩

end Steering

open Steering

/-- **The rules track the recorded ports iff no call meets a rule of another application or of
    another port of its own.** -/
theorem steering_tracks_iff (tcp : Nat → Bool) (es : List PortCall) :
    Meets (step tcp) (Tracks tcp) {} es ↔ Meets (step tcp) (Alone tcp) {} es := by
  have h0 : Exact tcp {} := ⟨by simp, by simp [Installed]⟩
  exact meets_iff_of_inv (fun _ e hs he => exact_step hs e he) (fun _ e hs => tracks_iff hs e) h0

/-- A second recording of a server's port installs a rule on the source port 0. -/
theorem record_twice_source_rule :
    ¬ Meets (step fun _ => true) (Tracks fun _ => true) {}
      [.record 0 80#16 0#16, .record 0 80#16 0#16] := by
  rintro ⟨-, h, -⟩
  exact absurd (h.added 0 80#16 rfl 0 ⟨true, 0#16⟩) (by decide +kernel)

end MtpXdp.Control
