import MtpXdp.Lib.Epoll

/-!
# Registrations

An item ties a socket to an epoll instance from both sides. `Linked` says that the two sides agree,
and that none of the objects on the way has been freed. `Idle` adds that a socket on an inactive
list has none of the events its item asks for.
-/

namespace MtpXdp.Lib.Epoll

open MtpXdp.Core Ebpf List BitVec Option EpollState EtranEpoll

variable {ep : EtranEpoll} {fd i p : Nat} {s s' s'' : EpollState} {so : EtranSocket}

/-! ## Lists of an epoll -/

section

variable (m : FdMap) (k j v : Nat)

theorem getElem?_emplace :
    (m.insertIfNew k v)[j]? = if k = j ∧ m[k]? = none then some v else m[j]? := by
  rw [Std.TreeMap.getElem?_insertIfNew]
  simp

variable {m k j v} in
theorem getElem?_eraseFd : (m.erase k)[j]? = if k = j then none else m[j]? := by
  rw [Std.TreeMap.getElem?_erase]
  simp

end

namespace EtranEpoll

def Lists (ep : EtranEpoll) (fd i : Nat) : Prop :=
  ep.activeList[fd]? = some i ∨ ep.inactiveList[fd]? = some i

def Filed (ep : EtranEpoll) (fd i : Nat) : Prop :=
  (ep.activeList[fd]? = some i ∧ ep.inactiveList[fd]? = none) ∨
    (ep.activeList[fd]? = none ∧ ep.inactiveList[fd]? = some i)

variable {fd' i' : Nat}

theorem Filed.lists (h : ep.Filed fd i) : ep.Lists fd i := by
  rcases h with ⟨h, -⟩ | ⟨-, h⟩
  · exact Or.inl h
  · exact Or.inr h

theorem Filed.activate (h : ep.Filed fd i) (hnot : ep.activeList[fd]? = none)
    (h' : ep.Filed fd' i') : (ep.activate fd i).Filed fd' i' := by
  unfold Filed EtranEpoll.activate at *
  grind

theorem lists_of_activate (h : ep.Filed fd i) (hnot : ep.activeList[fd]? = none)
    (h' : (ep.activate fd i).Lists fd' i') : ep.Lists fd' i' := by
  unfold Filed Lists activate at *
  grind

theorem Filed.deactivate (h' : ep.Filed fd' i') (hact : ep.activeList[fd]? = some i) :
    (ep.deactivate fd fd i).Filed fd' i' := by
  unfold Filed EtranEpoll.deactivate at *
  grind

theorem lists_of_deactivate (hact : ep.activeList[fd]? = some i)
    (h' : (ep.deactivate fd fd i).Lists fd' i') : ep.Lists fd' i' := by
  unfold Lists deactivate at *
  grind

end EtranEpoll

/-! ## The invariants -/

structure Named (s : EpollState) : Prop where
  sockFd : ∀ {p so}, s.sockets.cells p = some so → s.fds so.fd = .socket p
  epollFd : ∀ {e ep}, s.epolls.cells e = some ep → s.fds ep.epfd = .epoll e
  fdSock : ∀ {fd p}, s.fds fd = .socket p → ∃ so, s.sockets.cells p = some so ∧ so.fd = fd
  fdEpoll : ∀ {fd e}, s.fds fd = .epoll e → ∃ ep, s.epolls.cells e = some ep ∧ ep.epfd = fd
  fdOpen : ∀ {fd}, s.fds fd ≠ .unused → s.osOpen fd = true

structure Linked (s : EpollState) : Prop extends Named s where
  registered : ∀ {p so} {epfd i : Nat}, s.sockets.cells p = some so →
    so.epollItems[epfd]? = some i →
    ∃ it ep, s.items.cells i = some it ∧ it.socket = p ∧ s.epolls.cells it.epoll = some ep ∧
      ep.epfd = epfd ∧ ep.Filed so.fd i
  listed : ∀ {e ep} {fd i : Nat}, s.epolls.cells e = some ep → ep.Lists fd i →
    ∃ it so, s.items.cells i = some it ∧ it.epoll = e ∧ s.sockets.cells it.socket = some so ∧
      so.fd = fd ∧ so.epollItems[ep.epfd]? = some i

/-- **No readiness is lost**: the socket of an inactive item has none of the events it asks for. -/
def Idle (s : EpollState) : Prop :=
  ∀ {e ep it so} {fd i : Nat}, s.epolls.cells e = some ep → ep.inactiveList[fd]? = some i →
    s.items.cells i = some it → s.sockets.cells it.socket = some so →
    so.epollEvents &&& it.interestEvents = 0#32

theorem Named.of_same {s s' : EpollState} (h : Named s) (hfds : s'.fds = s.fds)
    (hopen : s'.osOpen = s.osOpen)
    (hsock : ∀ p, (s'.sockets.cells p).map EtranSocket.fd = (s.sockets.cells p).map EtranSocket.fd)
    (hepoll : ∀ e, (s'.epolls.cells e).map epfd = (s.epolls.cells e).map epfd) : Named s' := by
  have hsockFd := @h.sockFd
  have hepollFd := @h.epollFd
  refine ⟨?_, ?_, fun {fd p} hfd => ?_, fun {fd e} hfd => ?_, fun hne => ?_⟩
  · grind [map_eq_some_iff]
  · grind [map_eq_some_iff]
  · obtain ⟨so, hso, rfl⟩ := h.fdSock (hfds ▸ hfd)
    exact map_eq_some_iff.mp ((hsock p).trans (by rw [hso]; rfl))
  · obtain ⟨ep, hep, rfl⟩ := h.fdEpoll (hfds ▸ hfd)
    exact map_eq_some_iff.mp ((hepoll e).trans (by rw [hep]; rfl))
  · exact (congrFun hopen _).trans (h.fdOpen (hfds ▸ hne))

namespace Linked

variable {e : Nat}

theorem filed (h : Linked s) (he : s.epolls.cells e = some ep) (hl : ep.Lists fd i) :
    ep.Filed fd i := by
  obtain ⟨it, so, hit, hepoll, hso, hfd, hreg⟩ := h.listed he hl
  obtain ⟨it', ep', hit', -, hep', -, hfiled⟩ := h.registered hso hreg
  rw [hit, some.injEq] at hit'
  subst hit'
  rw [hepoll, he, some.injEq] at hep'
  subst hep'
  rwa [hfd] at hfiled

theorem modifyEpoll (h : Linked s) (g : EtranEpoll → EtranEpoll)
    (hepfd : ∀ ep, s.epolls.cells e = some ep → (g ep).epfd = ep.epfd)
    (hfiled : ∀ ep fd i, s.epolls.cells e = some ep → ep.Filed fd i → (g ep).Filed fd i)
    (hlists : ∀ ep fd i, s.epolls.cells e = some ep → (g ep).Lists fd i → ep.Lists fd i) :
    Linked { s with epolls := s.epolls.modify e g } := by
  refine ⟨h.toNamed.of_same rfl rfl (fun _ => rfl) (fun _ => Heap.map_cells_modify hepfd), ?_, ?_⟩
  · intro p so epfd i hso hreg
    obtain ⟨it, ep, hit, hsock, hep, hfd, hf⟩ := h.registered hso hreg
    grind
  · intro e' ep' fd i he' hl
    obtain ⟨ep, hep, rfl⟩ := Heap.cells_modify_eq_some.mp he'
    have hold := @h.listed e' ep fd i hep
    grind

theorem modifySocket (h : Linked s) (g : EtranSocket → EtranSocket) (hfd : ∀ so, (g so).fd = so.fd)
    (hreg : ∀ so, (g so).epollItems = so.epollItems) :
    Linked { s with sockets := s.sockets.modify p g } := by
  refine ⟨h.toNamed.of_same rfl rfl (fun _ => Heap.map_cells_modify fun so _ => hfd so)
    (fun _ => rfl), ?_, ?_⟩
  · intro p' so' epfd i hp' hreg'
    obtain ⟨so, hso, rfl⟩ := Heap.cells_modify_eq_some.mp hp'
    have hold := @h.registered p' so epfd i hso
    grind
  · intro e ep fd i he hl
    obtain ⟨it, so, hit, hepoll, hso, hfd', hreg'⟩ := h.listed he hl
    grind

theorem modifyItem (h : Linked s) (g : EtranEpollItem → EtranEpollItem)
    (hsock : ∀ it, (g it).socket = it.socket) (hepoll : ∀ it, (g it).epoll = it.epoll) :
    Linked { s with items := s.items.modify i g } := by
  refine { h with registered := ?_, listed := ?_ }
  · intro p so epfd j hso hreg
    obtain ⟨it, ep, hit, hs, hep, hepfd, hf⟩ := h.registered hso hreg
    grind
  · intro e ep fd j he hl
    obtain ⟨it, so, hit, hep, hso, hfd, hreg⟩ := h.listed he hl
    grind

end Linked

/-! ## Readiness -/

section

variable {old events interest : U32}

theorem clear_and_eq_zero (h : old &&& interest = 0#32) :
    old &&& ~~~events &&& interest = 0#32 := by
  rw [BitVec.and_assoc, BitVec.and_comm (~~~events), ← BitVec.and_assoc, h, BitVec.zero_and]

theorem set_and_eq_zero (hold : old &&& interest = 0#32)
    (hnew : interest &&& (~~~old &&& events) = 0#32) : (old ||| events) &&& interest = 0#32 := by
  apply eq_of_getLsbD_eq
  intro n hn
  have hold' := congrArg (getLsbD · n) hold
  have hnew' := congrArg (getLsbD · n) hnew
  simp only [getLsbD_and, getLsbD_or, getLsbD_not, getLsbD_zero, hn,
    decide_true, Bool.true_and] at hold' hnew' ⊢
  cases h1 : old.getLsbD n <;> cases h2 : events.getLsbD n <;> cases h3 : interest.getLsbD n <;>
    simp_all

end

/-- Only epolls are written, both sides still agree, and an inactive list loses entries at most. -/
structure Wakes (s s' : EpollState) : Prop where
  linked : Linked s'
  fds : s'.fds = s.fds
  sockets : s'.sockets = s.sockets
  items : s'.items = s.items
  inactive : ∀ {e ep'} {fd i : Nat}, s'.epolls.cells e = some ep' →
    ep'.inactiveList[fd]? = some i →
    ∃ ep, s.epolls.cells e = some ep ∧ ep.inactiveList[fd]? = some i

def Awake (s : EpollState) (i : Nat) : Prop :=
  ∀ {e ep} {fd : Nat}, s.epolls.cells e = some ep → ep.inactiveList[fd]? ≠ some i

namespace Wakes

theorem refl (h : Linked s) : Wakes s s :=
  ⟨h, rfl, rfl, rfl, fun he hin => ⟨_, he, hin⟩⟩

theorem trans (h : Wakes s s') (h' : Wakes s' s'') : Wakes s s'' := by
  refine ⟨h'.linked, h'.fds.trans h.fds, h'.sockets.trans h.sockets, h'.items.trans h.items, ?_⟩
  intro e ep'' fd i he hin
  obtain ⟨ep', he', hin'⟩ := h'.inactive he hin
  exact h.inactive he' hin'

theorem awake (h : Wakes s s') {i : Nat} (hi : Awake s i) : Awake s' i := by
  intro e ep' fd he hin
  obtain ⟨ep, hep, hin'⟩ := h.inactive he hin
  exact hi hep hin'

end Wakes

section

variable (newEvents : U32)

theorem Linked.eq_of_lists (h : Linked s) (hp : s.sockets.cells p = some so) {epfd i e fd : Nat}
    {ep : EtranEpoll} {it : EtranEpollItem} (hreg : so.epollItems[epfd]? = some i)
    (hit : s.items.cells i = some it) (he : s.epolls.cells e = some ep) (hl : ep.Lists fd i) :
    e = it.epoll ∧ fd = so.fd := by
  obtain ⟨it', ep', hit', hsock, -, -, -⟩ := h.registered hp hreg
  obtain ⟨it'', so'', hit'', hepoll, hso'', hfd, -⟩ := h.listed he hl
  rw [hit, some.injEq] at hit' hit''
  subst hit' hit''
  rw [hsock, hp, some.injEq] at hso''
  subst hso''
  exact ⟨hepoll.symm, hfd.symm⟩

theorem wakes_wakeItem (h : Linked s) (hp : s.sockets.cells p = some so) {epfd i : Nat}
    {it : EtranEpollItem} (hreg : so.epollItems[epfd]? = some i) (hit : s.items.cells i = some it) :
    ∃ s', wakeItem so.fd newEvents s i = some s' ∧ Wakes s s' ∧
      (it.interestEvents &&& newEvents ≠ 0#32 → Awake s' i) := by
  obtain ⟨it', ep, hit', -, hep, -, hfiled⟩ := h.registered hp hreg
  rw [hit, some.injEq] at hit'
  subst hit'
  by_cases hint : it.interestEvents &&& newEvents = 0#32
  · refine ⟨s, by simp [wakeItem, hit, hint], .refl h, fun hne => absurd hint hne⟩
  · by_cases hact : ep.activeList[so.fd]? = none
    · refine ⟨{ s with epolls := s.epolls.modify it.epoll fun ep => ep.activate so.fd i },
        by simp [wakeItem, hit, hint, hep, hact], ⟨?_, rfl, rfl, rfl, ?_⟩, ?_⟩
      · -- the socket moves from one list to the other
        apply h.modifyEpoll
        · intro ep' _
          rfl
        · intro ep' fd j hep' hf
          rw [hep, some.injEq] at hep'
          subst hep'
          exact hfiled.activate hact hf
        · intro ep' fd j hep' hl
          rw [hep, some.injEq] at hep'
          subst hep'
          exact lists_of_activate hfiled hact hl
      · intro e ep' fd j he hin
        obtain ⟨ep₀, hep₀, rfl⟩ := Heap.cells_modify_eq_some.mp he
        refine ⟨ep₀, hep₀, ?_⟩
        split_ifs at hin
        · simp only [activate, getElem?_eraseFd] at hin
          split_ifs at hin
          exact hin
        · exact hin
      · intro _ e ep' fd he hin
        obtain ⟨ep₀, hep₀, rfl⟩ := Heap.cells_modify_eq_some.mp he
        by_cases heq : e = it.epoll
        · rw [if_pos heq] at hin
          simp only [activate, getElem?_eraseFd] at hin
          split_ifs at hin with hfd
          exact hfd (h.eq_of_lists hp hreg hit hep₀ (Or.inr hin)).2.symm
        · rw [if_neg heq] at hin
          exact heq (h.eq_of_lists hp hreg hit hep₀ (Or.inr hin)).1
    · refine ⟨s, by simp [wakeItem, hit, hint, hep, hact], .refl h, fun _ => ?_⟩
      intro e ep' fd he hin
      obtain ⟨rfl, rfl⟩ := h.eq_of_lists hp hreg hit he (Or.inr hin)
      rw [hep, some.injEq] at he
      subst he
      rcases hfiled with ⟨-, hnone⟩ | ⟨hnone, -⟩
      · rw [hnone] at hin
        cases hin
      · exact hact hnone

theorem wakes_foldlM (hp : s.sockets.cells p = some so) (is : List Nat) (h : Linked s)
    (his : ∀ i ∈ is, ∃ epfd : Nat, so.epollItems[epfd]? = some i) :
    ∃ s', is.foldlM (wakeItem so.fd newEvents) s = some s' ∧ Wakes s s' ∧
      ∀ i ∈ is, ∀ it, s.items.cells i = some it →
        it.interestEvents &&& newEvents ≠ 0#32 → Awake s' i := by
  induction is generalizing s with
  | nil => exact ⟨s, rfl, .refl h, fun i hi => absurd hi not_mem_nil⟩
  | cons i is ih =>
    obtain ⟨epfd, hreg⟩ := his i mem_cons_self
    obtain ⟨it, -, hit, -⟩ := h.registered hp hreg
    obtain ⟨s₁, hs₁, hw₁, hawake⟩ := wakes_wakeItem newEvents h hp hreg hit
    obtain ⟨s', hs', hw', hrest⟩ := ih (by rw [hw₁.sockets]; exact hp) hw₁.linked
      fun j hj => his j (mem_cons_of_mem i hj)
    refine ⟨s', by simp [hs₁, hs'], hw₁.trans hw', ?_⟩
    intro j hj itj hitj hint
    rcases mem_cons.mp hj with rfl | hj
    · rw [hit, some.injEq] at hitj
      subst hitj
      exact hw'.awake (hawake hint)
    · exact hrest j hj itj (by rw [hw₁.items]; exact hitj) hint

end

/-- The invariants hold again, and neither descriptors nor registrations have changed. -/
structure Readies (s s' : EpollState) : Prop where
  linked : Linked s'
  idle : Idle s'
  fds : s'.fds = s.fds
  regs : ∀ {p so'}, s'.sockets.cells p = some so' →
    ∃ so, s.sockets.cells p = some so ∧ so'.epollItems = so.epollItems

namespace Readies

theorem refl (h : Linked s) (hidle : Idle s) : Readies s s :=
  ⟨h, hidle, rfl, fun hp => ⟨_, hp, rfl⟩⟩

theorem trans (h : Readies s s') (h' : Readies s' s'') : Readies s s'' := by
  refine ⟨h'.linked, h'.idle, h'.fds.trans h.fds, ?_⟩
  intro p so'' hp
  obtain ⟨so', hp', heq'⟩ := h'.regs hp
  obtain ⟨so, hp, heq⟩ := h.regs hp'
  exact ⟨so, hp, heq'.trans heq⟩

end Readies

theorem regs_modify {p q : Nat} {g : EtranSocket → EtranSocket} {so' : EtranSocket}
    (h : (s.sockets.modify p g).cells q = some so')
    (hreg : ∀ so, (g so).epollItems = so.epollItems) :
    ∃ so, s.sockets.cells q = some so ∧ so'.epollItems = so.epollItems := by
  obtain ⟨so, hso, rfl⟩ := Heap.cells_modify_eq_some.mp h
  refine ⟨so, hso, ?_⟩
  split_ifs
  · exact hreg so
  · rfl

theorem readies_clearEpollEvents (h : Linked s) (hidle : Idle s) {p : Nat} {so : EtranSocket}
    (hp : s.sockets.cells p = some so) (events : U32) :
    ∃ s', s.clearEpollEvents p events = some s' ∧ Readies s s' := by
  unfold clearEpollEvents
  rw [hp]
  refine ⟨_, rfl, h.modifySocket _ (fun _ => rfl) (fun _ => rfl), ?_, rfl,
    fun hq => regs_modify hq (fun _ => rfl)⟩
  intro e ep it so' fd i he hin hit hso
  obtain ⟨so₀, hso₀, rfl⟩ := Heap.cells_modify_eq_some.mp hso
  have hold := hidle he hin hit hso₀
  split_ifs
  · exact clear_and_eq_zero hold
  · exact hold

theorem readies_setEpollEvents (h : Linked s) (hidle : Idle s) {p : Nat} {so : EtranSocket}
    (hp : s.sockets.cells p = some so) (events : U32) :
    ∃ s', s.setEpollEvents p events = some s' ∧ Readies s s' := by
  unfold setEpollEvents
  simp only [hp]
  split_ifs with hnone
  · exact ⟨s, rfl, .refl h hidle⟩
  · let g : EtranSocket → EtranSocket := fun so =>
      { so with epollEvents := so.epollEvents ||| events }
    let s₁ : EpollState := { s with sockets := s.sockets.modify p g }
    have hlinked : Linked s₁ := h.modifySocket g (fun _ => rfl) (fun _ => rfl)
    have hp₁ : s₁.sockets.cells p = some (g so) := by
      rw [Heap.cells_modify_self, hp, map_some]
    have hall : ∀ i ∈ so.epollItems.toList.map Prod.snd,
        ∃ epfd : Nat, (g so).epollItems[epfd]? = some i := by
      intro i hi
      obtain ⟨⟨epfd, i⟩, hmem, rfl⟩ := mem_map.mp hi
      exact ⟨epfd, Std.TreeMap.mem_toList_iff_getElem?_eq_some.mp hmem⟩
    obtain ⟨s', hs', hw, hawake⟩ := wakes_foldlM (~~~so.epollEvents &&& events) hp₁ _
      hlinked hall
    refine ⟨s', hs', hw.linked, ?_, hw.fds, ?_⟩
    · intro e ep' it so' fd i he hin hit hso
      obtain ⟨ep, hep, hin₀⟩ := hw.inactive he hin
      rw [hw.items] at hit
      rw [hw.sockets] at hso
      obtain ⟨so₀, hso₀, rfl⟩ := Heap.cells_modify_eq_some.mp hso
      have hold := hidle hep hin₀ hit hso₀
      split_ifs with hsame
      · -- an item of this socket: had it asked for a new event, it would be awake
        rw [hsame, hp, some.injEq] at hso₀
        subst hso₀
        apply set_and_eq_zero hold
        by_contra hint
        obtain ⟨it', so', hit', -, hso', -, hreg⟩ := h.listed hep (Or.inr hin₀)
        rw [show s.items.cells i = some it from hit, some.injEq] at hit'
        subst hit'
        rw [hsame, hp, some.injEq] at hso'
        subst hso'
        have hmem : i ∈ so.epollItems.toList.map Prod.snd :=
          mem_map.mpr ⟨(ep.epfd, i), Std.TreeMap.mem_toList_iff_getElem?_eq_some.mpr hreg, rfl⟩
        exact hawake i hmem it hit hint he hin
      · exact hold
    · intro q so' hq
      rw [hw.sockets] at hq
      exact regs_modify hq (fun _ => rfl)

theorem Linked.of_lookupSocket {fd p : Nat} (h : Linked s) (hp : s.lookupSocketWithFd fd = some p) :
    ∃ so, s.sockets.cells p = some so ∧ so.fd = fd := by
  unfold lookupSocketWithFd at hp
  split at hp
  · next q hq =>
    rw [some.injEq] at hp
    exact h.fdSock (hp ▸ hq)
  · cases hp

theorem readies_ready (h : Linked s) (hidle : Idle s) (r : Readiness) :
    ∃ s', s.ready r = some s' ∧ Readies s s' := by
  cases r with
  | set fd events =>
    unfold ready
    dsimp only
    split
    · exact ⟨s, rfl, .refl h hidle⟩
    · next p hp =>
      obtain ⟨so, hso, -⟩ := h.of_lookupSocket hp
      exact readies_setEpollEvents h hidle hso events
  | clear fd events =>
    unfold ready
    dsimp only
    split
    · exact ⟨s, rfl, .refl h hidle⟩
    · next p hp =>
      obtain ⟨so, hso, -⟩ := h.of_lookupSocket hp
      exact readies_clearEpollEvents h hidle hso events

theorem readies_socketTcpPoll (polled : List Readiness) (h : Linked s) (hidle : Idle s) :
    ∃ s', s.socketTcpPoll polled = some s' ∧ Readies s s' := by
  unfold socketTcpPoll
  induction polled generalizing s with
  | nil => exact ⟨s, rfl, .refl h hidle⟩
  | cons r polled ih =>
    obtain ⟨s₁, hs₁, hr₁⟩ := readies_ready h hidle r
    obtain ⟨s', hs', hr'⟩ := ih hr₁.linked hr₁.idle
    exact ⟨s', by simp [hs₁, hs'], hr₁.trans hr'⟩

end MtpXdp.Lib.Epoll
