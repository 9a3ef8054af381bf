import Mathlib.Data.List.ProdSigma
import MtpXdp.Core.Parted
import MtpXdp.Core.Run

/-!
# Resources of Applications

`alloc_app_resources` takes NIC queue ids and keys of the XSK map off their free lists, and
`free_app_resources` gives them back. When a step of the registration fails, the error path gives
back the queue ids, but not the keys taken so far; and it reads `qids` before it is filled.
-/

namespace MtpXdp.Control

open MtpXdp.Core List Function

/-! ## The NIC and its applications -/

def maxAppThreads : Nat := 20
def maxXskFd : Nat := 1024

/-- What has an XSK map key: a NIC queue, or a queue of a thread of the application at `fd`. -/
inductive KeyHolder where
  | slow (qid : Nat)
  | app (fd i j : Nat)
deriving DecidableEq

structure AppCtx where
  done : Bool
  nrNicQueues : Nat
  nrAppThreads : Nat

/-- The free lists; `xsk_info` of the queues, `xsk_map_key` of queues and threads, and `nic_qid` of
    the applications, which are given by their descriptors. -/
structure Nic where
  availableQids : List Nat
  availableXskKeys : List Nat
  xskInfo : Nat → Bool
  keyOf : KeyHolder → Nat
  nicQid : Nat → Nat → Nat
  apps : Nat → Option AppCtx

def Nic.boot (numQueues : Nat) : Nic where
  availableQids := range numQueues
  availableXskKeys := range maxXskFd
  xskInfo _ := false
  keyOf _ := 0
  nicQid _ _ := 0
  apps _ := none

/-- The steps of a registration that can fail; `slowKey` is for both maps of a queue. -/
inductive AllocStep where
  | lrpcChannels
  | bpInit
  | xskSocket (i : Nat)
  | umemId (i : Nat)
  | txrxSocket (i j : Nat)
  | umemTran
  | slowKey (i : Nat)
  | appKey (i j : Nat)
  | rssContext
  | bcacheCreate
deriving DecidableEq

structure RegisterRequest where
  supported : Bool
  nrNicQueues : Nat
  nrAppThreads : Nat

namespace Nic

/-- The loop over the queues of an application. -/
def openQueues (fails : AllocStep → Bool) (fd : Nat) : Nat → List Nat → Nic → Bool × Nic
  | _, [], s => (true, s)
  | i, qid :: qids, s =>
    if fails (.xskSocket i) then (false, { s with xskInfo := update s.xskInfo qid false })
    else
      let s := { s with
        xskInfo := update s.xskInfo qid true
        nicQid := update s.nicQid fd (update (s.nicQid fd) i qid) }
      if fails (.umemId i) then (false, s) else openQueues fails fd (i + 1) qids s

/-- The loops over those that get a key: each gets the front one. -/
def giveKeys (fails : AllocStep → Bool) : List (AllocStep × KeyHolder) → Nic → Bool × Nic
  | [], s => (true, s)
  | (step, h) :: rest, s =>
    let s := { s with keyOf := update s.keyOf h s.availableXskKeys.head! }
    if fails step then (false, s)
    else giveKeys fails rest { s with availableXskKeys := s.availableXskKeys.tail }

def threadQueues (nt nq : Nat) : List (Nat × Nat) := range nt ×ˢ range nq

def holders (fd nt : Nat) (qids : List Nat) : List KeyHolder :=
  qids.map .slow ++ (threadQueues nt qids.length).map fun t => .app fd t.1 t.2

def keySteps (nt nq : Nat) : List AllocStep :=
  (range nq).map .slowKey ++ (threadQueues nt nq).map fun t => .appKey t.1 t.2

/-- The error path: `none` if it reads past the end of `qids`. -/
def allocFailed (s : Nic) (nq : Nat) (qids : List Nat) : Option Nic :=
  if qids.length < nq then none
  else some { s with
    xskInfo := fun q => if q ∈ qids then false else s.xskInfo q
    keyOf := fun h => if h ∈ qids.map KeyHolder.slow then 0 else s.keyOf h
    availableQids := s.availableQids ++ qids }

def allocAppResources (s : Nic) (fd : Nat) (req : RegisterRequest) (fails : AllocStep → Bool) :
    Option Nic :=
  let nq := req.nrNicQueues
  let nt := req.nrAppThreads
  if s.availableQids.length < nq ∨ maxAppThreads < nt then some s
  else if s.availableXskKeys.length < nq * nt + nq then some s
  else if !req.supported then some s
  else match s.apps fd with
    | none => some s
    | some app =>
      let s := { s with apps := update s.apps fd (some ⟨app.done, nq, nt⟩) }
      if fails .lrpcChannels || fails .bpInit then s.allocFailed nq []
      else
        let qids := s.availableQids.take nq
        let (ok, s) := openQueues fails fd 0 qids
          { s with availableQids := s.availableQids.drop nq }
        if !ok || (threadQueues nt nq).any (fun t => fails (.txrxSocket t.1 t.2)) || fails
          .umemTran then
          s.allocFailed nq qids
        else
          let (ok, s) := giveKeys fails ((keySteps nt nq).zip (holders fd nt qids)) s
          if !ok || fails .rssContext || fails .bcacheCreate then s.allocFailed nq qids
          else some { s with apps := update s.apps fd (some ⟨true, nq, nt⟩) }

/-- `unregister_xsk_map`: a key that cannot be deleted from the map is not given back. -/
def unregisterXskMap (s : Nic) (deletes : Nat → Bool) (key : Nat) : Nic :=
  if deletes key then { s with availableXskKeys := s.availableXskKeys ++ [key] } else s

def closeQueues (deletes : Nat → Bool) : List Nat → Nic → Bool × Nic
  | [], s => (true, s)
  | qid :: qids, s =>
    if !s.xskInfo qid then (false, s)
    else
      let s := s.unregisterXskMap deletes (s.keyOf (.slow qid))
      closeQueues deletes qids { s with
        xskInfo := update s.xskInfo qid false
        keyOf := update s.keyOf (.slow qid) 0
        availableQids := s.availableQids ++ [qid] }

def freeAppResources (s : Nic) (deletes : Nat → Bool) (fd : Nat) (app : AppCtx) : Nic :=
  let (ok, s) := closeQueues deletes ((range app.nrNicQueues).map (s.nicQid fd)) s
  if !ok then s
  else (threadQueues app.nrAppThreads app.nrNicQueues).foldl
    (fun s t => s.unregisterXskMap deletes (s.keyOf (.app fd t.1 t.2))) s

def destroyApp (s : Nic) (deletes : Nat → Bool) (fd : Nat) : Nic :=
  match s.apps fd with
  | none => s
  | some app =>
    let s := if app.done then s.freeAppResources deletes fd app else s
    { s with apps := update s.apps fd none }

end Nic

/-! ## Runs -/

inductive NicEvent where
  | accept (fd : Nat)
  | register (fd : Nat) (req : RegisterRequest) (fails : AllocStep → Bool)
  | exit (fd : Nat) (deletes : Nat → Bool)

/-- `none` after a read past the end of a vector. -/
def nicStep : Option Nic → NicEvent → Option Nic
  | none, _ => none
  | some s, .accept fd => some { s with apps := update s.apps fd (some ⟨false, 0, 0⟩) }
  | some s, .register fd req fails => s.allocAppResources fd req fails
  | some s, .exit fd deletes => some (s.destroyApp deletes fd)

namespace Nic

def ownedQids (s : Nic) (fd : Nat) : List Nat :=
  match s.apps fd with
  | some ⟨true, nq, _⟩ => (range nq).map (s.nicQid fd)
  | _ => []

def ownedKeys (s : Nic) (fd : Nat) : List Nat :=
  match s.apps fd with
  | some ⟨true, _, nt⟩ => (holders fd nt (s.ownedQids fd)).map s.keyOf
  | _ => []

/-- The places of the ids: the free list, and the registered applications. -/
def qidsAt (s : Nic) : Option Nat → List Nat
  | none => s.availableQids
  | some fd => s.ownedQids fd

def keysAt (s : Nic) : Option Nat → List Nat
  | none => s.availableXskKeys
  | some fd => s.ownedKeys fd

end Nic

/-- Each NIC queue id and each XSK map key is in one place. -/
def ResourcesConserved (numQueues : Nat) (s : Option Nic) : Prop :=
  ∃ nic ∈ s, Parted (range numQueues) nic.qidsAt ∧ Parted (range maxXskFd) nic.keysAt

/-- The steps after which nothing is lost: `qids` is filled, and no key has been taken. -/
def AllocStep.Harmless : AllocStep → Prop
  | .lrpcChannels | .bpInit | .appKey _ _ | .rssContext | .bcacheCreate => False
  | .slowKey i => i = 0
  | _ => True

/-- The condition on an event, for a new descriptor in `accept`: an application registers once, only
    harmless steps fail, and keys can be deleted. -/
def NicEvent.Harmless (s : Option Nic) : NicEvent → Prop
  | .accept fd => ∀ nic ∈ s, nic.apps fd = none
  | .register fd _ fails => (∀ nic ∈ s, ∀ app ∈ nic.apps fd, app.done = false) ∧
      ∀ step, fails step = true → step.Harmless
  | .exit _ deletes => ∀ key, deletes key = true

/-! ## What the loops change -/

namespace Nic

variable {s s' s'' : Nic} {fd fd' : Nat} {qids : List Nat} {fails : AllocStep → Bool}

/-- Only the application at `fd` and the queues `qids` have changed. -/
structure Elsewhere (fd : Nat) (qids : List Nat) (s s' : Nic) : Prop where
  apps : ∀ fd', fd' ≠ fd → s'.apps fd' = s.apps fd'
  nicQid : ∀ fd', fd' ≠ fd → s'.nicQid fd' = s.nicQid fd'
  xskInfo : ∀ q ∉ qids, s'.xskInfo q = s.xskInfo q
  slow : ∀ q ∉ qids, s'.keyOf (.slow q) = s.keyOf (.slow q)
  app : ∀ fd', fd' ≠ fd → ∀ i j, s'.keyOf (.app fd' i j) = s.keyOf (.app fd' i j)

theorem Elsewhere.refl (fd : Nat) (qids : List Nat) (s : Nic) : Elsewhere fd qids s s where
  apps _ _ := rfl
  nicQid _ _ := rfl
  xskInfo _ _ := rfl
  slow _ _ := rfl
  app _ _ _ _ := rfl

theorem Elsewhere.trans (h : Elsewhere fd qids s s') (h' : Elsewhere fd qids s' s'') :
    Elsewhere fd qids s s'' where
  apps f hf := (h'.apps f hf).trans (h.apps f hf)
  nicQid f hf := (h'.nicQid f hf).trans (h.nicQid f hf)
  xskInfo q hq := (h'.xskInfo q hq).trans (h.xskInfo q hq)
  slow q hq := (h'.slow q hq).trans (h.slow q hq)
  app f hf i j := (h'.app f hf i j).trans (h.app f hf i j)

theorem Elsewhere.setApp (fd : Nat) (qids : List Nat) (s : Nic) (app : Option AppCtx)
    (free keys : List Nat) : Elsewhere fd qids s { s with
      apps := update s.apps fd app, availableQids := free, availableXskKeys := keys } :=
  { Elsewhere.refl fd qids s with apps := fun _ hf => update_of_ne hf .. }

variable (fd fails) in
theorem openQueues_spec (all : List Nat) (i : Nat) (hsub : ∀ q ∈ qids, q ∈ all) (s : Nic) :
    Elsewhere fd all s (openQueues fails fd i qids s).2 ∧
      (∃ info nicQid, (openQueues fails fd i qids s).2 =
        { s with xskInfo := info, nicQid := nicQid }) ∧
      ((openQueues fails fd i qids s).1 = true →
        (range' i qids.length).map ((openQueues fails fd i qids s).2.nicQid fd) = qids ∧
        (∀ k < i, (openQueues fails fd i qids s).2.nicQid fd k = s.nicQid fd k) ∧
        ∀ q, (q ∈ qids ∨ s.xskInfo q = true) → (openQueues fails fd i qids s).2.xskInfo q =
          true) := by
  induction qids generalizing i s with
  | nil => exact ⟨.refl .., ⟨_, _, rfl⟩, fun _ => ⟨rfl, fun _ _ => rfl, by simp [openQueues]⟩⟩
  | cons qid qids ih =>
    have hne {q : Nat} (hq : q ∉ all) : q ≠ qid := fun h => hq (h ▸ hsub qid mem_cons_self)
    have hset (b : Bool) (f : Nat → Nat) : Elsewhere fd all s
        { s with xskInfo := update s.xskInfo qid b, nicQid := update s.nicQid fd f } :=
      ⟨fun _ _ => rfl, fun f' hf => update_of_ne hf .., fun q hq =>
        update_of_ne (hne hq) .., fun _ _ => rfl,
        fun _ _ _ _ => rfl⟩
    unfold openQueues
    split_ifs with hsock humem
    · refine ⟨?_, ⟨_, _, rfl⟩, fun h => absurd h (by simp)⟩
      have hkeep := hset false (s.nicQid fd)
      rwa [update_eq_self] at hkeep
    · exact ⟨hset .., ⟨_, _, rfl⟩, fun h => absurd h (by simp)⟩
    · obtain ⟨helse, ⟨info, nicQid, hrest⟩, hok⟩ :=
        ih (i + 1) (fun q hq => hsub q (mem_cons_of_mem _ hq))
        { s with
          xskInfo := update s.xskInfo qid true
          nicQid := update s.nicQid fd (update (s.nicQid fd) i qid) }
      refine ⟨(hset ..).trans helse, ⟨info, nicQid, hrest⟩, fun h => ?_⟩
      obtain ⟨hmap, hlt, hinfo⟩ := hok h
      refine ⟨?_, fun k hk => ?_, fun q hq => hinfo q ?_⟩
      · rw [length_cons, range'_succ, map_cons, hmap, hlt i (Nat.lt_succ_self i)]
        simp
      · rw [hlt k (by omega)]
        simp [update_of_ne (show k ≠ i by omega)]
      · rw [mem_cons] at hq
        by_cases hqq : q = qid
        · subst hqq
          exact .inr (update_self ..)
        · exact (hq.imp_left fun hq => hq.resolve_left hqq).imp_right (update_of_ne hqq _ _).trans

theorem giveKeys_ok (slots : List (AllocStep × KeyHolder)) (s : Nic)
    (h : ∀ slot ∈ slots, fails slot.1 = false) : (giveKeys fails slots s).1 = true := by
  induction slots generalizing s with
  | nil => rfl
  | cons slot slots ih =>
    rw [giveKeys, h slot mem_cons_self]
    exact ih _ fun slot' h' => h slot' (mem_cons_of_mem _ h')

variable (fails) in
theorem giveKeys_spec (slots : List (AllocStep × KeyHolder)) (s : Nic)
    (hlen : slots.length ≤ s.availableXskKeys.length) (hnodup : (slots.map Prod.snd).Nodup) :
    ∃ keys keyOf, (giveKeys fails slots s).2 = { s with availableXskKeys := keys, keyOf := keyOf } ∧
      (∀ h ∉ slots.map Prod.snd, keyOf h = s.keyOf h) ∧
      ((giveKeys fails slots s).1 = true →
        s.availableXskKeys = (slots.map Prod.snd).map keyOf ++ keys) ∧
      ((giveKeys fails slots s).1 = false → (∀ slot ∈ slots.tail, fails slot.1 = false) →
        keys = s.availableXskKeys) := by
  induction slots generalizing s with
  | nil => exact ⟨_, _, rfl, fun _ _ => rfl, fun _ => rfl, fun _ _ => rfl⟩
  | cons slot slots ih =>
    obtain ⟨step, h⟩ := slot
    obtain ⟨key, keys, hkeys⟩ :=
      exists_cons_of_length_pos (Nat.lt_of_lt_of_le (Nat.succ_pos _) hlen)
    rw [map_cons, nodup_cons] at hnodup
    rw [hkeys, length_cons, length_cons, Nat.add_le_add_iff_right] at hlen
    rw [giveKeys, hkeys]
    split_ifs with hfail
    · refine ⟨_, _, rfl, fun h' hh' => update_of_ne ?_ .., by simp, fun _ _ => rfl⟩
      exact fun heq => hh' (heq ▸ mem_cons_self)
    · obtain ⟨keys', keyOf, hr, hothers, hok, -⟩ := ih
        { s with keyOf := update s.keyOf h key, availableXskKeys := keys } hlen hnodup.2
      refine ⟨keys', keyOf, hr, fun h' hh' => ?_, fun h' => ?_, fun h' hrest => ?_⟩
      · rw [map_cons, mem_cons, not_or] at hh'
        exact (hothers h' hh'.2).trans (update_of_ne hh'.1 ..)
      · rw [map_cons, map_cons, cons_append, ← hok h', hothers h hnodup.1]
        simp
      · exact absurd (giveKeys_ok slots _ hrest) (by rw [h']; decide)

theorem nodup_holders (fd nt : Nat) (h : qids.Nodup) : (holders fd nt qids).Nodup := by
  refine Nodup.append (h.map fun _ _ => KeyHolder.slow.inj) ?_ ?_
  · refine (Nodup.product nodup_range nodup_range).map fun a b hab => ?_
    injection hab with _ h₁ h₂
    exact Prod.ext h₁ h₂
  · intro h hslow happ
    obtain ⟨q, -, rfl⟩ := mem_map.mp hslow
    obtain ⟨t, -, ht⟩ := mem_map.mp happ
    cases ht

/-! ## Registrations -/

/-- Everything is in one place, and the queues of an application have their sockets. -/
structure Settled (n : Nat) (s : Nic) : Prop where
  qids : Parted (range n) s.qidsAt
  keys : Parted (range maxXskFd) s.keysAt
  sockets : ∀ fd, ∀ q ∈ s.ownedQids fd, s.xskInfo q = true

/-- Nothing has changed for the other applications, if `qids` was not theirs. -/
theorem Elsewhere.others {n : Nat} {p : Option Nat} (h : Elsewhere fd qids s s') (hs : Settled n s)
    (hsub : ∀ q ∈ qids, q ∈ s.qidsAt p) (hfd : fd' ≠ fd) (hp : p ≠ some fd') :
    s'.ownedQids fd' = s.ownedQids fd' ∧ s'.ownedKeys fd' = s.ownedKeys fd' ∧
      ∀ q ∈ s.ownedQids fd', s'.xskInfo q = true := by
  have hdisj : ∀ q ∈ s.ownedQids fd', q ∉ qids := fun q hq hq' =>
    hp (hs.qids.unique p (some fd') q (hsub q hq') hq)
  have howned : s'.ownedQids fd' = s.ownedQids fd' := by
    simp only [ownedQids, h.apps fd' hfd, h.nicQid fd' hfd]
  refine ⟨howned, ?_, fun q hq => (h.xskInfo q (hdisj q hq)).trans (hs.sockets fd' q hq)⟩
  simp only [ownedKeys, h.apps fd' hfd, howned]
  split
  · refine map_congr_left fun k hk => ?_
    rcases mem_append.mp hk with hk | hk
    · obtain ⟨q, hq, rfl⟩ := mem_map.mp hk
      exact h.slow q (hdisj q hq)
    · obtain ⟨t, -, rfl⟩ := mem_map.mp hk
      exact h.app fd' hfd ..
  · rfl

/-- An application that has not registered owns nothing. -/
def Unregistered (s : Nic) (fd : Nat) : Prop := ∀ app ∈ s.apps fd, app.done = false

theorem Unregistered.owned (h : s.Unregistered fd) : s.ownedQids fd = [] ∧ s.ownedKeys fd = [] := by
  unfold ownedQids ownedKeys
  rcases happ : s.apps fd with _ | ⟨done, nq, nt⟩
  · exact ⟨rfl, rfl⟩
  · obtain rfl : done = false := h _ happ
    exact ⟨rfl, rfl⟩

/-- Queue ids and keys go from the free lists to the application at `fd`, or back. -/
theorem Settled.move {n : Nat} {p q : Option Nat} (hs : Settled n s) (h : Elsewhere fd qids s s')
    (hsub : ∀ q ∈ qids, q ∈ s.qidsAt p) (hpq : p = none ∧ q = some fd ∨ p = some fd ∧ q = none)
    (movedQids movedKeys : List Nat)
    (hqp : (s.qidsAt p).Perm (movedQids ++ s'.qidsAt p))
    (hqq : (s'.qidsAt q).Perm (s.qidsAt q ++ movedQids))
    (hkp : (s.keysAt p).Perm (movedKeys ++ s'.keysAt p))
    (hkq : (s'.keysAt q).Perm (s.keysAt q ++ movedKeys))
    (hsock : ∀ q ∈ s'.ownedQids fd, s'.xskInfo q = true) : Settled n s' := by
  have hne : p ≠ q := by rcases hpq with ⟨rfl, rfl⟩ | ⟨rfl, rfl⟩ <;> simp
  have hothers {fd' : Nat} (hfd : fd' ≠ fd) := h.others hs hsub hfd
    (by rcases hpq with ⟨rfl, rfl⟩ | ⟨rfl, rfl⟩ <;> simp [hfd.symm])
  have hrest (r : Option Nat) (hp : r ≠ p) (hq : r ≠ q) : ∃ fd', r = some fd' ∧ fd' ≠ fd := by
    cases r with
    | none => rcases hpq with ⟨rfl, rfl⟩ | ⟨rfl, rfl⟩ <;> simp at hp hq
    | some fd' =>
      refine ⟨fd', rfl, ?_⟩
      rintro rfl
      rcases hpq with ⟨rfl, rfl⟩ | ⟨rfl, rfl⟩ <;> simp at hp hq
  constructor
  · refine hs.qids.move hne movedQids hqp hqq fun r hp hq => ?_
    obtain ⟨fd', rfl, hfd⟩ := hrest r hp hq
    exact (hothers hfd).1
  · refine hs.keys.move hne movedKeys hkp hkq fun r hp hq => ?_
    obtain ⟨fd', rfl, hfd⟩ := hrest r hp hq
    exact (hothers hfd).2.1
  · intro fd' q hq
    by_cases hfd : fd' = fd
    · subst hfd
      exact hsock q hq
    · rw [(hothers hfd).1] at hq
      exact (hothers hfd).2.2 q hq

theorem owned_of_done {nq nt : Nat} (h : s.apps fd = some ⟨true, nq, nt⟩) :
    s.ownedQids fd = (range nq).map (s.nicQid fd) ∧
      s.ownedKeys fd = (holders fd nt (s.ownedQids fd)).map s.keyOf := by
  simp only [ownedKeys, ownedQids, h, true_and]

theorem Settled.keep {n : Nat} (hs : Settled n s) (h : Elsewhere fd qids s s')
    (hsub : ∀ q ∈ qids, q ∈ s.availableQids) (hun : s.Unregistered fd) (hun' : s'.Unregistered fd)
    (hqids : s'.availableQids.Perm s.availableQids)
    (hkeys : s'.availableXskKeys = s.availableXskKeys) : Settled n s' := by
  obtain ⟨howned, hownedK⟩ := hun.owned
  obtain ⟨howned', hownedK'⟩ := hun'.owned
  refine hs.move (p := none) h hsub (.inl ⟨rfl, rfl⟩) [] [] hqids.symm ?_ (.of_eq hkeys.symm) ?_ ?_
  · rw [qidsAt, qidsAt, howned, howned', append_nil]
  · rw [keysAt, keysAt, hownedK, hownedK', append_nil]
  · rw [howned']
    exact fun q hq => absurd hq not_mem_nil

theorem Settled.allocFailed {n nq : Nat} (hs : Settled n s) (hun : s.Unregistered fd)
    (hnq : nq ≤ s.availableQids.length) (h : Elsewhere fd (s.availableQids.take nq) s s')
    (hun' : s'.Unregistered fd) (hqids : s'.availableQids = s.availableQids.drop nq)
    (hkeys : s'.availableXskKeys = s.availableXskKeys) :
    ∃ s'' ∈ s'.allocFailed nq (s.availableQids.take nq), Settled n s'' := by
  have hfailed : Elsewhere fd (s.availableQids.take nq) s' { s' with
      xskInfo := fun q => if q ∈ s.availableQids.take nq then false else s'.xskInfo q
      keyOf := fun h => if h ∈ (s.availableQids.take nq).map KeyHolder.slow then 0 else s'.keyOf h
      availableQids := s'.availableQids ++ s.availableQids.take nq } :=
    ⟨fun _ _ => rfl, fun _ _ => rfl, fun q hq => if_neg hq,
      fun q hq => if_neg (by simpa [-map_take] using hq), fun _ _ _ _ =>
        if_neg (by simp [-map_take])⟩
  refine ⟨_, if_neg ?_, hs.keep (h.trans hfailed) (fun q => mem_of_mem_take) hun hun' ?_ hkeys⟩
  · rw [length_take]
    omega
  · dsimp only
    rw [hqids]
    exact perm_append_comm.trans (.of_eq (take_append_drop ..))

theorem map_snd_slots (fd nt : Nat) (qids : List Nat) :
    ((keySteps nt qids.length).zip (holders fd nt qids)).map Prod.snd = holders fd nt qids :=
  map_snd_zip (by simp [keySteps, holders, threadQueues])

/-- The first key is given before any other has been taken. -/
theorem fails_slots_tail (hfails : ∀ step, fails step = true → step.Harmless) (nt nq : Nat)
    (hs : List KeyHolder) : ∀ slot ∈ ((keySteps nt nq).zip hs).tail, fails slot.1 = false := by
  intro slot hslot
  rw [tail_zip] at hslot
  have hstep : slot.1 ∈ (keySteps nt nq).tail := (of_mem_zip hslot).1
  by_contra hfail
  have hharm := hfails slot.1 (by simpa using hfail)
  cases nq with
  | zero => simp [keySteps, threadQueues] at hstep
  | succ nq =>
    rw [keySteps, range_succ_eq_map, map_cons, cons_append, tail_cons, map_map, mem_append] at hstep
    rcases hstep with h | h
    · obtain ⟨i, -, hi⟩ := mem_map.mp h
      rw [← hi] at hharm
      exact Nat.succ_ne_zero i hharm
    · obtain ⟨t, -, ht⟩ := mem_map.mp h
      rw [← ht] at hharm
      exact hharm

/-- All get their keys, or, if only harmless steps fail, no key has been taken. -/
theorem giveKeys_holders (hfails : ∀ step, fails step = true → step.Harmless) (fd nt nq : Nat)
    (hnodup : qids.Nodup) (hlen : qids.length = nq) (s : Nic)
    (hroom : nq * nt + nq ≤ s.availableXskKeys.length) :
    let r := giveKeys fails ((keySteps nt nq).zip (holders fd nt qids)) s
    ∃ keys keyOf, r.2 = { s with availableXskKeys := keys, keyOf := keyOf } ∧
      Elsewhere fd qids s r.2 ∧
      (r.1 = true → s.availableXskKeys = (holders fd nt qids).map keyOf ++ keys) ∧
      (r.1 = false → keys = s.availableXskKeys) := by
  subst hlen
  have hslots := map_snd_slots fd nt qids
  obtain ⟨keys, keyOf, hr, hothers, hok, hfail⟩ := giveKeys_spec fails
    ((keySteps nt qids.length).zip (holders fd nt qids)) s
    (by simp only [keySteps, holders, threadQueues, length_zip, length_append, length_map,
      length_product,
          length_range, Nat.min_self, Nat.mul_comm nt]
        omega)
    (by rw [hslots]; exact nodup_holders fd nt hnodup)
  rw [hslots] at hothers hok
  refine ⟨keys, keyOf, hr, ?_, hok, fun h => hfail h (fails_slots_tail hfails nt _ _)⟩
  rw [hr]
  refine { Elsewhere.refl fd qids s with
    slow := fun q hq => hothers _ ?_, app := fun f hf i j => hothers _ ?_ }
  · simpa [holders] using hq
  · simp [holders, hf.symm]

theorem Settled.register {n : Nat} (hs : Settled n s) (hun : s.Unregistered fd)
    (hfails : ∀ step, fails step = true → step.Harmless) (req : RegisterRequest) :
    ∃ s' ∈ s.allocAppResources fd req fails, Settled n s' := by
  obtain ⟨supported, nq, nt⟩ := req
  unfold allocAppResources
  dsimp only
  split
  · exact ⟨s, rfl, hs⟩
  split
  · exact ⟨s, rfl, hs⟩
  split
  · exact ⟨s, rfl, hs⟩
  rename_i hroom hkeyRoom _
  rcases happ : s.apps fd with _ | app
  · exact ⟨s, rfl, hs⟩
  have hharmless (step : AllocStep) (h : ¬ step.Harmless) : fails step = false :=
    eq_false_of_ne_true (mt (hfails step) h)
  have hdone : app.done = false := hun app happ
  have hnq : nq ≤ s.availableQids.length := by omega
  have hlen : (s.availableQids.take nq).length = nq := by rw [length_take, Nat.min_eq_left hnq]
  dsimp only
  rw [hharmless .lrpcChannels id, hharmless .bpInit id, hdone]
  simp only [Bool.or_self, Bool.false_eq_true, if_false]
  set s₁ : Nic := { s with
    apps := update s.apps fd (some ⟨false, nq, nt⟩), availableQids :=
      s.availableQids.drop nq } with hs₁
  have helse₁ : Elsewhere fd (s.availableQids.take nq) s s₁ := .setApp ..
  obtain ⟨helse₂, ⟨info, nicQid, hs₂⟩, hopen⟩ := openQueues_spec fd fails
    (s.availableQids.take nq) 0 (fun _ => id) s₁
  rcases hr : openQueues fails fd 0 (s.availableQids.take nq) s₁ with ⟨ok, s₂⟩
  rw [hr] at helse₂ hs₂ hopen
  dsimp only at helse₂ hs₂ hopen ⊢
  replace helse₂ := helse₁.trans helse₂
  have happ₂ : s₂.apps fd = some ⟨false, nq, nt⟩ := by simp [hs₂, hs₁]
  have hun₂ : s₂.Unregistered fd := by
    intro app' happ'
    rw [happ₂] at happ'
    cases happ'
    rfl
  split
  · exact hs.allocFailed hun hnq helse₂ hun₂ (by rw [hs₂]) (by rw [hs₂])
  rename_i hfail₁
  have hok : ok = true := by
    cases ok
    · simp at hfail₁
    · rfl
  obtain ⟨hmap, -, hinfo⟩ := hopen hok
  obtain ⟨keys, keyOf, hs₃, helse₃, hok₃, hfail₃⟩ := giveKeys_holders hfails fd nt nq
    ((hs.qids.nodup none).sublist (take_sublist nq _)) hlen s₂
      (by rw [hs₂]; exact Nat.le_of_not_lt hkeyRoom)
  rcases hr₃ : giveKeys fails ((keySteps nt nq).zip (holders fd nt (s.availableQids.take nq))) s₂
    with ⟨ok₃, s₃⟩
  rw [qidsAt, hr₃] at hs₃ hok₃ hfail₃ helse₃
  dsimp only at hs₃ hok₃ hfail₃ helse₃ ⊢
  replace helse₃ := helse₂.trans helse₃
  rw [hharmless .rssContext id, hharmless .bcacheCreate id, Bool.or_false, Bool.or_false]
  cases ok₃ with
  | false =>
    refine hs.allocFailed hun hnq helse₃ ?_ (by rw [hs₃, hs₂]) (by rw [hs₃, hfail₃ rfl, hs₂])
    rwa [hs₃]
  | true =>
    obtain ⟨hown, hownK⟩ := hun.owned
    set s₄ : Nic := { s₃ with apps := update s₃.apps fd (some ⟨true, nq, nt⟩) } with hs₄
    obtain ⟨hqids₄, hkeys₄⟩ :=
      owned_of_done (s := s₄) (update_self fd (some ⟨true, nq, nt⟩) s₃.apps)
    replace hqids₄ : s₄.ownedQids fd = s.availableQids.take nq := by
      rw [hqids₄, hs₄, hs₃, range_eq_range']
      rwa [hlen] at hmap
    refine ⟨s₄, rfl, hs.move (p := none) (helse₃.trans (.setApp ..)) (fun _ => mem_of_mem_take)
      (.inl ⟨rfl, rfl⟩) (s.availableQids.take nq)
        ((holders fd nt (s.availableQids.take nq)).map keyOf) ?_ ?_ ?_ ?_ ?_⟩
    · rw [qidsAt, qidsAt, hs₄, hs₃, hs₂, take_append_drop]
    · rw [qidsAt, qidsAt, hown, hqids₄, nil_append]
    · rw [keysAt, keysAt, hs₄, hs₃]
      exact .of_eq (hs₂ ▸ hok₃ rfl)
    · rw [keysAt, keysAt, hownK, hkeys₄, hqids₄, hs₄, hs₃, nil_append]
    · rw [hqids₄, hs₄, hs₃]
      exact fun q hq => hinfo q (.inl hq)

/-! ## Exits -/

variable {deletes : Nat → Bool}

theorem closeQueues_spec (hdel : ∀ key, deletes key = true) (fd : Nat) (all : List Nat)
    (hsub : ∀ q ∈ qids, q ∈ all) (hnodup : qids.Nodup) (s : Nic)
    (hinfo : ∀ q ∈ qids, s.xskInfo q = true) :
    ∃ s', closeQueues deletes qids s = (true, s') ∧ Elsewhere fd all s s' ∧
      (∀ f i j, s'.keyOf (.app f i j) = s.keyOf (.app f i j)) ∧
      s'.availableQids = s.availableQids ++ qids ∧
      s'.availableXskKeys = s.availableXskKeys ++ qids.map fun q => s.keyOf (.slow q) := by
  induction qids generalizing s with
  | nil => exact ⟨s, rfl, .refl .., fun _ _ _ => rfl, by simp, by simp⟩
  | cons qid qids ih =>
    obtain ⟨hnot, hnodup⟩ := nodup_cons.mp hnodup
    have hne {q : Nat} (hq : q ∈ qids) : q ≠ qid := fun h => hnot (h ▸ hq)
    have hout {q : Nat} (hq : q ∉ all) : q ≠ qid := fun h => hq (h ▸ hsub qid mem_cons_self)
    rw [closeQueues, hinfo qid mem_cons_self]
    simp only [Bool.not_true, Bool.false_eq_true, if_false, unregisterXskMap, hdel, if_true]
    obtain ⟨s', hs', helse, happ, hqids, hkeys⟩ :=
      ih (fun q hq => hsub q (mem_cons_of_mem _ hq)) hnodup
      { s with
        availableXskKeys := s.availableXskKeys ++ [s.keyOf (.slow qid)]
        xskInfo := update s.xskInfo qid false
        keyOf := update s.keyOf (.slow qid) 0
        availableQids := s.availableQids ++ [qid] }
      fun q hq => (update_of_ne (hne hq) ..).trans (hinfo q (mem_cons_of_mem _ hq))
    refine ⟨s', hs', .trans ?_ helse, fun f i j => (happ f i j).trans (by simp), ?_, ?_⟩
    · exact ⟨fun _ _ => rfl, fun _ _ => rfl, fun q hq => update_of_ne (hout hq) ..,
        fun q hq => update_of_ne (by simpa using hout hq) .., fun _ _ _ _ => by simp⟩
    · rw [hqids, append_assoc, singleton_append]
    · rw [hkeys, append_assoc, singleton_append, map_cons]
      congr 2
      exact map_congr_left fun q hq => update_of_ne (by simpa using hne hq) ..

theorem foldl_unregisterXskMap (hdel : ∀ key, deletes key = true) (fd : Nat) (ts : List (Nat × Nat))
    (s : Nic) :
    ts.foldl (fun s t => s.unregisterXskMap deletes (s.keyOf (.app fd t.1 t.2))) s =
      { s with availableXskKeys :=
        s.availableXskKeys ++ ts.map fun t => s.keyOf (.app fd t.1 t.2) } := by
  induction ts generalizing s with
  | nil => simp
  | cons t ts ih =>
    rw [foldl_cons, ih]
    simp [unregisterXskMap, hdel]

theorem Settled.exit {n : Nat} (hs : Settled n s) (hdel : ∀ key, deletes key = true) (fd : Nat) :
    Settled n (s.destroyApp deletes fd) := by
  have hgone (s₁ : Nic) : Unregistered { s₁ with apps := update s₁.apps fd none } fd := by
    intro app happ
    simp at happ
  unfold destroyApp
  rcases happ : s.apps fd with _ | ⟨done, nq, nt⟩
  · exact hs
  cases done with
  | false =>
    refine hs.keep (.setApp fd [] s ..) (by simp) ?_ (hgone s) (.refl _) rfl
    intro app happ'
    rw [happ] at happ'
    cases happ'
    rfl
  | true =>
    obtain ⟨howned, hownedK⟩ := owned_of_done happ
    have hlen : (s.ownedQids fd).length = nq := by rw [howned, length_map, length_range]
    obtain ⟨s₁, hs₁, helse, happKeys, hqids, hkeys⟩ := closeQueues_spec hdel fd (s.ownedQids fd)
      (fun _ => id) (hs.qids.nodup (some fd)) s (hs.sockets fd)
    rw [howned] at hs₁
    simp only [freeAppResources, hs₁, Bool.not_true, Bool.false_eq_true, if_true, if_false,
      foldl_unregisterXskMap hdel]
    set keys := s₁.availableXskKeys ++
      (threadQueues nt nq).map fun t => s₁.keyOf (.app fd t.1 t.2) with hkeys₁
    obtain ⟨hfree, hfreeK⟩ := (hgone { s₁ with availableXskKeys := keys }).owned
    refine hs.move (p := some fd) (helse.trans (.setApp ..))
      (fun _ => id) (.inr ⟨rfl, rfl⟩) (s.ownedQids fd) (s.ownedKeys fd) ?_ ?_ ?_ ?_ ?_
    · rw [qidsAt, qidsAt, hfree, append_nil]
    · exact .of_eq hqids
    · rw [keysAt, keysAt, hfreeK, append_nil]
    · simp only [keysAt, hownedK, holders, hkeys₁, hkeys, hlen, happKeys, map_append, map_map,
        append_assoc]
      rfl
    · rw [hfree]
      exact fun q hq => absurd hq not_mem_nil

theorem settled_boot (n : Nat) : Settled n (boot n) where
  qids := .single (p := none) nodup_range rfl fun q hq => by cases q; exacts [absurd rfl hq, rfl]
  keys := .single (p := none) nodup_range (by rw [keysAt, boot]) fun q hq => by
    cases q; exacts [absurd rfl hq, rfl]
  sockets fd q hq := absurd hq not_mem_nil

theorem Settled.step {n : Nat} (hs : Settled n s) {e : NicEvent} (he : e.Harmless (some s)) :
    ∃ s' ∈ nicStep (some s) e, Settled n s' := by
  cases e with
  | accept fd =>
    have hun : s.Unregistered fd := by
      intro app happ
      rw [he s rfl] at happ
      cases happ
    refine ⟨_, rfl, hs.keep (.setApp fd [] s ..) (by simp) hun ?_ (.refl _) rfl⟩
    intro app happ
    simp only [update_self] at happ
    cases happ
    rfl
  | register fd req fails => exact hs.register (he.1 s rfl) he.2 req
  | exit fd deletes => exact ⟨_, rfl, hs.exit he fd⟩

end Nic

/-- **Resources are conserved**: over every run in which registrations fail only at harmless
    steps. -/
theorem resourcesConserved_always (n : Nat) {es : List NicEvent}
    (h : Meets nicStep NicEvent.Harmless (some (.boot n)) es) :
    Always nicStep (ResourcesConserved n) (some (.boot n)) es := by
  have hstep (s : Option Nic) (e : NicEvent) (hs : ∃ nic ∈ s, nic.Settled n) (he : e.Harmless s) :
      ∃ nic ∈ nicStep s e, nic.Settled n := by
    obtain ⟨nic, rfl, hs⟩ := hs
    exact hs.step he
  exact (always_of_meets hstep ⟨_, rfl, Nic.settled_boot n⟩ h).mono
    fun s ⟨nic, hnic, hs⟩ => ⟨nic, hnic, hs.qids, hs.keys⟩

/-- A registration that fails when it opens the socket of its second queue, a second one that
    succeeds, and an exit. -/
theorem resourcesConserved_retry : Always nicStep (ResourcesConserved 2) (some (.boot 2))
    [.accept 3, .register 3 ⟨true, 2, 1⟩ (· = .xskSocket 1),
      .register 3 ⟨true, 2, 1⟩ fun _ => false,
      .exit 3 fun _ => true] := by
  refine resourcesConserved_always 2 ⟨by rintro _ ⟨⟩; rfl, ⟨?_, ?_⟩, ⟨?_, by simp⟩,
    fun _ => rfl, trivial⟩
  · decide +kernel
  · intro step hstep
    rw [of_decide_eq_true hstep]
    trivial
  · decide +kernel

def secondKeyFails : List NicEvent := [.accept 3, .register 3 ⟨true, 2, 1⟩ (· = .slowKey 1)]

/-- The second key of a registration cannot be put into the map: the first key is nowhere. -/
theorem resources_lost_slowKey :
    ¬ ResourcesConserved 2 (run nicStep (some (.boot 2)) secondKeyFails) := by
  rintro ⟨nic, hnic, -, hkeys⟩
  have happs : (run nicStep (some (.boot 2)) secondKeyFails).map Nic.apps =
      some (update (update (fun _ => none) 3 (some ⟨false, 0, 0⟩)) 3 (some ⟨false, 2, 1⟩)) := by
    simp [secondKeyFails, run, nicStep, Nic.allocAppResources, Nic.boot, maxXskFd, maxAppThreads,
      Nic.allocFailed, Nic.openQueues, Nic.giveKeys, Nic.keySteps, Nic.holders, Nic.threadQueues,
      show range 2 = [0, 1] from rfl]
  have hfree : ∀ nic ∈ run nicStep (some (.boot 2)) secondKeyFails, 0 ∉ nic.availableXskKeys := by
    decide +kernel
  rw [hnic] at happs
  obtain ⟨_ | fd, hp⟩ := hkeys.exists_place (show 0 ∈ range maxXskFd by simp [maxXskFd])
  · exact hfree nic hnic hp
  · have hun : nic.Unregistered fd := by
      intro app happ
      rw [Option.some.inj happs] at happ
      by_cases hfd : fd = 3 <;> simp [hfd] at happ
      rw [← happ]
    rw [Nic.keysAt, hun.owned.2] at hp
    cases hp

end MtpXdp.Control
