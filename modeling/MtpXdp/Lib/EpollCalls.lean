import MtpXdp.Lib.Registration

/-!
# The Epoll Calls Keep Registrations

One theorem for each call of the library: it returns, and `Linked` and `Idle`
hold again. `eTran_close` is the exception, so its theorem has a condition: what
is closed must not be registered.
-/

namespace MtpXdp.Lib.Epoll

open MtpXdp.Core Ebpf Function Option EpollState Heap EtranEpoll

variable {so : EtranSocket} {fd fd' i p e : Nat} {it : EtranEpollItem} {s : EpollState}
  {ep : EtranEpoll}

structure Sound (s : EpollState) : Prop where
  linked : Linked s
  idle : Idle s

theorem Readies.sound {s s' : EpollState} (h : Readies s s') : Sound s' := ⟨h.linked, h.idle⟩

theorem sound_init : Sound .init := by
  refine ⟨⟨⟨?_, ?_, ?_, ?_, ?_⟩, ?_, ?_⟩, ?_⟩
  · intro p so h
    cases h
  · intro e ep h
    cases h
  · intro fd p h
    cases h
  · intro fd e h
    cases h
  · intro fd h
    exact absurd rfl h
  · intro p so epfd i h
    cases h
  · intro e ep fd i h
    cases h
  · intro e ep it so fd i h
    cases h

/-! ## Descriptors -/

theorem Linked.of_lookupEpoll (h : Linked s) (he : s.lookupEpollWithFd fd = some e) :
    ∃ ep, s.epolls.cells e = some ep ∧ ep.epfd = fd := by
  unfold lookupEpollWithFd at he
  split at he
  · next q hq =>
    rw [some.injEq] at he
    exact h.fdEpoll (he ▸ hq)
  · cases he

theorem Linked.socket_unique (h : Linked s) {q : Nat} {so' : EtranSocket}
    (hp : s.sockets.cells p = some so) (hq : s.sockets.cells q = some so') (hfd : so.fd = so'.fd) :
    p = q := by
  have h1 := h.sockFd hp
  have h2 := h.sockFd hq
  rw [hfd, h2] at h1
  injection h1 with h1
  exact h1.symm

theorem Linked.epoll_unique (h : Linked s) {e' : Nat} {ep ep' : EtranEpoll}
    (he : s.epolls.cells e = some ep) (he' : s.epolls.cells e' = some ep')
    (hfd : ep.epfd = ep'.epfd) : e = e' := by
  have h1 := h.epollFd he
  have h2 := h.epollFd he'
  rw [hfd, h2] at h1
  injection h1 with h1
  exact h1.symm

/-! ## New objects -/

theorem sound_socket (h : Sound s) (fd : Nat) (protocol : Protocol) :
    Sound (s.socket fd protocol) := by
  unfold socket
  by_cases hopen : s.osOpen fd = true
  · rwa [if_pos hopen]
  · rw [if_neg hopen]
    obtain ⟨⟨⟨hsock, hepoll, hfdSock, hfdEpoll, hfdOpen⟩, hreg, hlist⟩, hidle⟩ := h
    have hnew := cells_alloc_next s.sockets ⟨fd, protocol, 0#32, {}⟩
    refine ⟨⟨⟨?_, ?_, ?_, ?_, ?_⟩, ?_, ?_⟩, ?_⟩ <;> intros <;>
      grind [update_apply, ne_next_of_some, Idle, EtranEpoll.Lists]

theorem sound_epollCreate1 (h : Sound s) (fd : Nat) (linuxFirst : Bool) :
    Sound (s.epollCreate1 fd linuxFirst) := by
  unfold epollCreate1
  by_cases hopen : s.osOpen fd = true
  · rwa [if_pos hopen]
  · rw [if_neg hopen]
    obtain ⟨⟨⟨hsock, hepoll, hfdSock, hfdEpoll, hfdOpen⟩, hreg, hlist⟩, hidle⟩ := h
    have hnew := cells_alloc_next s.epolls ⟨fd, {}, {}, 0, 0, linuxFirst⟩
    refine ⟨⟨⟨?_, ?_, ?_, ?_, ?_⟩, ?_, ?_⟩, ?_⟩ <;> intros <;>
      grind [update_apply, ne_next_of_some, Idle, EtranEpoll.Lists]

/-! ## `eTran_epoll_wait` -/

theorem sound_modifyEpoll (h : Sound s) (g : EtranEpoll → EtranEpoll)
    (hg : ∀ ep, (g ep).epfd = ep.epfd ∧ (g ep).activeList = ep.activeList ∧
      (g ep).inactiveList = ep.inactiveList) : Sound { s with epolls := s.epolls.modify e g } := by
  constructor
  · apply h.linked.modifyEpoll
    · intro ep _
      exact (hg ep).1
    · intro ep fd i _ hf
      unfold EtranEpoll.Filed
      rwa [(hg ep).2.1, (hg ep).2.2]
    · intro ep fd i _ hl
      unfold EtranEpoll.Lists at hl
      rwa [(hg ep).2.1, (hg ep).2.2] at hl
  · intro e' ep' it so fd i he hin hit hso
    obtain ⟨ep, hep, rfl⟩ := cells_modify_eq_some.mp he
    split_ifs at hin
    · rw [(hg ep).2.2] at hin
      exact h.idle hep hin hit hso
    · exact h.idle hep hin hit hso

theorem sound_deactivate (h : Sound s) (he : s.epolls.cells e = some ep) {key : Nat}
    (hact : ep.activeList[key]? = some i)
    (hit : s.items.cells i = some it) (hso : s.sockets.cells it.socket = some so)
    (hnone : so.epollEvents &&& it.interestEvents = 0#32) :
    Sound { s with epolls := s.epolls.modify e fun ep => ep.deactivate key key i } := by
  constructor
  · apply h.linked.modifyEpoll
    · intro ep' _
      rfl
    · intro ep' fd j he' hf
      rw [he, some.injEq] at he'
      subst he'
      exact hf.deactivate hact
    · intro ep' fd j he' hl
      rw [he, some.injEq] at he'
      subst he'
      exact lists_of_deactivate hact hl
  grind [update_apply, cases Linked, cases Named, cases Sound, Idle, EtranEpoll.Lists,
    EtranEpoll.Filed, deactivate, some.injEq]

/-- The event `ev` is pending for an item that is registered with `epfd`. -/
def Pending (s : EpollState) (epfd : Nat) (ev : EpollEvent) : Prop :=
  ∃ p so it, ∃ i : Nat, s.sockets.cells p = some so ∧ so.epollItems[epfd]? = some i ∧
    s.items.cells i = some it ∧ so.epollEvents &&& it.interestEvents ≠ 0#32 ∧
    ev = ⟨it.interestEvents &&& so.epollEvents, it.data⟩

theorem sound_traverse (maxevents : Int) (entries : List (Nat × Nat)) (h : Sound s)
    (he : s.epolls.cells e = some ep) (hact : ∀ en ∈ entries, ep.activeList[en.1]? = some en.2)
    (hkeys : entries.Pairwise fun a b => a.1 ≠ b.1) (events : List EpollEvent) :
    ∃ s' events', EpollState.traverse e maxevents entries s events = some (s', events') ∧ Sound s' ∧
      events ⊆ events' ∧ (events'.length < maxevents → ∀ en ∈ entries, ∀ it so,
        s.items.cells en.2 = some it → s.sockets.cells it.socket = some so →
        so.epollEvents &&& it.interestEvents ≠ 0#32 →
        ⟨it.interestEvents &&& so.epollEvents, it.data⟩ ∈ events') := by
  induction entries generalizing s ep events with
  | nil => exact ⟨s, events, rfl, h, List.Subset.refl _, by simp⟩
  | cons en rest ih =>
    obtain ⟨key, i⟩ := en
    obtain ⟨hdiff, hkeys⟩ := List.pairwise_cons.mp hkeys
    have hhead : ep.activeList[key]? = some i := hact (key, i) List.mem_cons_self
    have hrest : ∀ en ∈ rest, ep.activeList[en.1]? = some en.2 :=
      fun en hen => hact en (List.mem_cons_of_mem _ hen)
    obtain ⟨it, so, hit, -, hso, hfd, -⟩ := h.linked.listed he (Or.inl hhead)
    simp only [EpollState.traverse, hit, hso, List.forall_mem_cons]
    split_ifs with hmax hev
    · exact ⟨s, events, rfl, h, List.Subset.refl _, fun hlt => by omega⟩
    · obtain ⟨s', events', hs', hsound, hsub, hfound⟩ := ih h he hrest hkeys
        (events ++ [⟨it.interestEvents &&& so.epollEvents, it.data⟩])
      rw [List.append_subset] at hsub
      exact ⟨s', events', hs', hsound, hsub.1, fun hlt => ⟨by grind, hfound hlt⟩⟩
    · -- the entry moves; the others keep their places
      rw [hfd]
      obtain ⟨s', events', hs', hsound, hsub, hfound⟩ := ih
        (sound_deactivate h he hhead hit hso (by simpa using hev))
        (by rw [cells_modify_self, he, map_some])
        (fun en hen => by simp [deactivate, getElem?_eraseFd, hdiff en hen, hrest en hen])
          hkeys events
      exact ⟨s', events', hs', hsound, hsub, fun hlt => ⟨by grind, hfound hlt⟩⟩

/-- What is pending after the poll is among the events, if there are fewer than `maxevents`. -/
theorem sound_pollAndTraverse (h : Sound s) (he : s.epolls.cells e = some ep) (w : WaitCall)
    (events : List EpollEvent) : ∃ t r, s.socketTcpPoll w.polled = some t ∧
      s.pollAndTraverse e w events = some r ∧ Sound r.1 ∧
      (r.2.length < w.maxevents → ∀ ev, Pending t ep.epfd ev → ev ∈ r.2) := by
  obtain ⟨s₁, hs₁, hr⟩ := readies_socketTcpPoll w.polled h.linked h.idle
  -- polling closes nothing
  have hfd := hr.fds ▸ h.linked.epollFd he
  obtain ⟨ep₁, hep₁, -⟩ := hr.linked.fdEpoll hfd
  have hkeys : ep₁.activeList.toList.Pairwise fun a b => a.1 ≠ b.1 := by
    apply Std.TreeMap.distinct_keys_toList.imp
    intro a b hne heq
    exact hne (compare_eq_iff_eq.mpr heq)
  obtain ⟨s', events', hs', hsound, -, hfound⟩ := sound_traverse w.maxevents ep₁.activeList.toList
    hr.sound hep₁ (fun en hen => Std.TreeMap.mem_toList_iff_getElem?_eq_some.mp hen) hkeys events
  refine ⟨s₁, (s', events'), hs₁, by simp only [pollAndTraverse, hs₁, hep₁, hs'], hsound, ?_⟩
  rintro hlt ev ⟨p, so, it, i, hp, hreg, hi, hev, rfl⟩
  obtain ⟨it', ep₂, hit, rfl, hep₂, hepfd, hf⟩ := hr.linked.registered hp hreg
  obtain rfl : it' = it := some.inj (hit.symm.trans hi)
  -- the item's epoll is the one that waits, as they have the same descriptor
  have hsame := hr.linked.epollFd hep₂
  rw [hepfd, hfd, FileHandle.epoll.injEq] at hsame
  obtain rfl : ep₁ = ep₂ := some.inj (hep₁.symm.trans (hsame ▸ hep₂))
  rcases hf with ⟨hact, -⟩ | ⟨-, hin⟩
  · exact hfound hlt (so.fd, i) (Std.TreeMap.mem_toList_iff_getElem?_eq_some.mpr hact) it' so
      hit hp hev
  · exact absurd (hr.idle hep₂ hin hit hp) hev

/-- Where a wait polls: with descriptors of both kinds `linux_first` has been changed. -/
def EpollState.turned (s : EpollState) (e : Nat) (ep : EtranEpoll) : EpollState :=
  if ep.numLinux = 0 then s
  else { s with epolls := s.epolls.modify e fun x => { x with linuxFirst := !ep.linuxFirst } }

/-- A wait on `e` reports all that is pending after its poll, if it reports fewer than `maxevents`
    events. -/
def Reports (s : EpollState) (e : Nat) (ep : EtranEpoll) (w : WaitCall) (r : WaitResult) : Prop :=
  ∃ t, (s.turned e ep).socketTcpPoll w.polled = some t ∧
    (r.events.length < w.maxevents → ∀ ev, Pending t ep.epfd ev → ev ∈ r.events)

theorem reports_epollWait (h : Sound s) {w : WaitCall} (hmax : 0 < w.maxevents)
    (he : s.lookupEpollWithFd w.epfd = some e) (hep : s.epolls.cells e = some ep)
    (hetran : ep.numEtran ≠ 0) :
    ∃ r, s.epollWait w = some r ∧ Sound r.1 ∧ Reports s e ep w r.2 := by
  have hflag (first : Bool) := sound_modifyEpoll (e := e) h
    (fun ep => { ep with linuxFirst := first }) fun _ => ⟨rfl, rfl, rfl⟩
  have hcell (first : Bool) :
    (s.epolls.modify e fun ep => { ep with linuxFirst := first }).cells e =
      some { ep with linuxFirst := first } := by
    rw [cells_modify_self, hep, map_some]
  simp only [epollWait, if_neg (not_le.mpr hmax), he, hep, if_neg hetran]
  split_ifs with hlinux hfirst
  · obtain ⟨t, ⟨s', events⟩, ht, hs', hsound, hfound⟩ := sound_pollAndTraverse h hep w []
    simp only [waitEtran, hs', Reports, EpollState.turned, if_pos hlinux]
    split_ifs
    · obtain ⟨s'', hs'', hr⟩ := readies_socketTcpPoll w.polledLate hsound.linked hsound.idle
      exact ⟨_, by rw [hs'', map_some], hr.sound, t, ht, hfound⟩
    · exact ⟨_, rfl, hsound, t, ht, hfound⟩
  · obtain ⟨t, ⟨s', events⟩, ht, hs', hsound, hfound⟩ :=
      sound_pollAndTraverse (hflag false) (hcell false) w (w.libc.getD [])
    simp only [waitLinuxFirst, hs', Reports, EpollState.turned, if_neg hlinux, hfirst,
      Bool.not_true]
    exact ⟨_, rfl, hsound, t, ht, hfound⟩
  · obtain ⟨t, ⟨s', events⟩, ht, hs', hsound, hfound⟩ :=
      sound_pollAndTraverse (hflag true) (hcell true) w []
    simp only [waitEtranFirst, hs', Reports, EpollState.turned, if_neg hlinux, hfirst,
      Bool.not_false]
    split_ifs with hroom
    · refine ⟨_, rfl, hsound, t, ht, fun _ ev hev => ?_⟩
      exact List.mem_append_left _ (hfound hroom ev hev)
    · exact ⟨_, rfl, hsound, t, ht, hfound⟩

theorem sound_epollWait (h : Sound s) (w : WaitCall) : ∃ r, s.epollWait w = some r ∧ Sound r.1 := by
  by_cases hmax : w.maxevents ≤ 0
  · exact ⟨_, by rw [epollWait, if_pos hmax], h⟩
  cases he : s.lookupEpollWithFd w.epfd with
  | none => exact ⟨_, by rw [epollWait, if_neg hmax, he], h⟩
  | some e =>
    obtain ⟨ep, hep, -⟩ := h.linked.of_lookupEpoll he
    by_cases hetran : ep.numEtran = 0
    · exact ⟨(s, ⟨w.libc.getD [], libcCount w.libc⟩), by
        simp only [epollWait, if_neg hmax, he, hep, if_pos hetran], h⟩
    · obtain ⟨r, hr, hsound, -⟩ := reports_epollWait h (not_le.mp hmax) he hep hetran
      exact ⟨r, hr, hsound⟩

/-! ## `eTran_epoll_ctl` -/

namespace EtranEpoll

variable {i' : Nat} {hasEvents : Bool}

theorem add_epfd : (ep.add fd i hasEvents).epfd = ep.epfd := by
  cases hasEvents <;> rfl

theorem remove_epfd : (ep.remove fd).epfd = ep.epfd := by
  unfold remove
  split_ifs <;> rfl

theorem add_filed (hact : ep.activeList[fd]? = none) (hin : ep.inactiveList[fd]? = none) :
    (ep.add fd i hasEvents).Filed fd i := by
  unfold Filed add activate
  cases hasEvents
  · right
    simp only [Bool.false_eq_true, if_false, getElem?_emplace, hact, hin, and_self, if_true]
  · left
    simp only [if_true, getElem?_emplace, getElem?_eraseFd, hact, and_self]

theorem add_filed_of_ne (hne : fd' ≠ fd) (h : ep.Filed fd' i') :
    (ep.add fd i hasEvents).Filed fd' i' := by
  unfold Filed add activate at *
  cases hasEvents <;> simpa [getElem?_emplace, getElem?_eraseFd, hne.symm] using h

theorem inactive_of_add (h : (ep.add fd i hasEvents).inactiveList[fd']? = some i') :
    (fd' = fd ∧ i' = i ∧ hasEvents = false) ∨ ep.inactiveList[fd']? = some i' := by
  unfold add activate at h
  grind

theorem lists_of_add (h : (ep.add fd i hasEvents).Lists fd' i') :
    (fd' = fd ∧ i' = i) ∨ ep.Lists fd' i' := by
  rcases h with h | h
  · unfold add activate at h
    cases hasEvents
    · exact Or.inr (Or.inl h)
    · simp only [if_true, getElem?_emplace] at h
      split_ifs at h with hnew
      · injection h with h
        exact Or.inl ⟨hnew.1.symm, h.symm⟩
      · exact Or.inr (Or.inl h)
  · rcases inactive_of_add h with ⟨hfd, hi, -⟩ | h
    · exact Or.inl ⟨hfd, hi⟩
    · exact Or.inr (Or.inr h)

theorem remove_filed_of_ne (hne : fd' ≠ fd) (h : ep.Filed fd' i') :
    (ep.remove fd).Filed fd' i' := by
  unfold Filed remove at *
  split_ifs <;> simpa [getElem?_eraseFd, hne.symm] using h

theorem lists_of_remove (hfiled : ep.Filed fd i) (h : (ep.remove fd).Lists fd' i') :
    fd' ≠ fd ∧ ep.Lists fd' i' := by
  unfold Filed Lists remove at *
  split_ifs at h with hin <;> simp only [getElem?_eraseFd] at h <;> grind

theorem inactive_of_remove (h : (ep.remove fd).inactiveList[fd']? = some i') :
    ep.inactiveList[fd']? = some i' := by
  unfold remove at h
  split_ifs at h
  · simp only [getElem?_eraseFd] at h
    split_ifs at h
    exact h
  · exact h

end EtranEpoll

theorem Linked.not_lists (h : Linked s) (he : s.epolls.cells e = some ep)
    (hp : s.sockets.cells p = some so) (hreg : so.epollItems[ep.epfd]? = none) (i : Nat) :
    ¬ ep.Lists so.fd i := by
  intro hl
  obtain ⟨it, so', -, -, hso', hfd, hreg'⟩ := h.listed he hl
  have hsame := h.socket_unique hso' hp hfd
  rw [hsame, hp, some.injEq] at hso'
  subst hso'
  rw [hreg] at hreg'
  cases hreg'

def EpollState.withItem (s : EpollState) (e p : Nat) (epfd fd : Nat) (it : EtranEpollItem)
    (hasEvents : Bool) : EpollState :=
  { s with
    items := s.items.alloc it
    sockets := s.sockets.modify p fun so =>
      { so with epollItems := so.epollItems.insertIfNew epfd s.items.next }
    epolls := s.epolls.modify e fun ep => ep.add fd s.items.next hasEvents }

theorem linked_withItem (h : Linked s) (he : s.epolls.cells e = some ep)
    (hp : s.sockets.cells p = some so) (hreg : so.epollItems[ep.epfd]? = none)
    (hact : ep.activeList[so.fd]? = none) (hin : ep.inactiveList[so.fd]? = none)
    (hepoll : it.epoll = e) (hsock : it.socket = p) (hasEvents : Bool) :
    Linked (s.withItem e p ep.epfd so.fd it hasEvents) := by
  refine ⟨h.toNamed.of_same rfl rfl (fun _ => map_cells_modify fun _ _ => rfl)
    (fun _ => map_cells_modify fun _ _ => add_epfd), ?_, ?_⟩
  · have hnew := cells_alloc_next s.items it
    have hfiled : (ep.add so.fd s.items.next hasEvents).Filed so.fd s.items.next :=
      add_filed hact hin
    intro p' so' epfd i hp' hreg'
    simp only [withItem] at hp' hreg' ⊢
    grind [getElem?_emplace, add_filed_of_ne, add_epfd, Linked.socket_unique,
      h.registered, ne_next_of_some]
  · intro e' ep' fd i he' hl
    obtain ⟨ep₀, hep₀, rfl⟩ := cells_modify_eq_some.mp he'
    have hold := @h.listed e' ep₀ fd i hep₀
    have hcase : ep₀.Lists fd i ∨ e' = e ∧ fd = so.fd ∧ i = s.items.next := by
      split_ifs at hl with heq
      · grind [lists_of_add]
      · exact .inl hl
    simp only [withItem]
    grind [getElem?_emplace, add_epfd, ne_next_of_some]

theorem idle_withItem (h : Sound s) (hp : s.sockets.cells p = some so)
    (hsock : it.socket = p) (epfd fd : Nat) {hasEvents : Bool}
    (hevents : hasEvents = false → so.epollEvents &&& it.interestEvents = 0#32) :
    Idle (s.withItem e p epfd fd it hasEvents) := by
  have hold : ∀ {e' ep' it' so'} {fd' i : Nat}, s.epolls.cells e' = some ep' →
      ep'.inactiveList[fd']? = some i → (s.items.alloc it).cells i = some it' →
      s.sockets.cells it'.socket = some so' → so'.epollEvents &&& it'.interestEvents = 0#32 := by
    intro e' ep' it' so' fd' i he' hin hit' hso'
    obtain ⟨it₀, -, hit₀, -⟩ := h.linked.listed he' (Or.inr hin)
    rcases cells_alloc_eq_some.mp hit' with ⟨heq, -⟩ | hit'
    · exact absurd heq (ne_next_of_some hit₀)
    · exact h.idle he' hin hit' hso'
  intro e' ep' it' so' fd' i he' hin hit' hso'
  obtain ⟨ep₀, hep₀, rfl⟩ := cells_modify_eq_some.mp he'
  obtain ⟨so₀, hso₀, rfl⟩ := cells_modify_eq_some.mp hso'
  have hev : (if it'.socket = p then
      { so₀ with epollItems := so₀.epollItems.insertIfNew epfd s.items.next } else
        so₀).epollEvents =
        so₀.epollEvents := by
    split_ifs <;> rfl
  rw [hev]
  split_ifs at hin
  · rcases inactive_of_add hin with ⟨-, rfl, hnone⟩ | hin
    · rw [show (s.withItem e p epfd fd it hasEvents).items = s.items.alloc it from rfl,
        cells_alloc_next, some.injEq] at hit'
      subst hit'
      rw [hsock, hp, some.injEq] at hso₀
      subst hso₀
      exact hevents hnone
    · exact hold hep₀ hin hit' hso₀
  · exact hold hep₀ hin hit' hso₀

theorem sound_ctlAdd (h : Sound s) (he : s.epolls.cells e = some ep)
    (hp : s.sockets.cells p = some so) (event : EpollEvent) :
    ∃ r, s.ctlAdd e ep ep.epfd p so so.fd event = some r ∧ Sound r.1 := by
  unfold ctlAdd
  by_cases hmask : event.events &&& ~~~epollMask ≠ 0#32
  · rw [if_pos hmask]
    exact ⟨_, rfl, h⟩
  rw [if_neg hmask]
  by_cases hreg : so.epollItems[ep.epfd]? = none
  · have hnot := h.linked.not_lists he hp hreg
    have hact : ep.activeList[so.fd]? = none :=
      eq_none_iff_forall_ne_some.mpr fun i hi => hnot i (Or.inl hi)
    have hin : ep.inactiveList[so.fd]? = none :=
      eq_none_iff_forall_ne_some.mpr fun i hi => hnot i (Or.inr hi)
    simp only [hreg, hact, hin, ne_eq, not_true, and_false, if_false]
    refine ⟨_, rfl, ?_, ?_⟩
    · exact linked_withItem h.linked he hp hreg hact hin rfl rfl _
    · apply idle_withItem h hp rfl
      simp
  · rw [if_pos hreg]
    exact ⟨_, rfl, h⟩

theorem ctlMod_eq_wakeItem (hi : s.items.cells i = some it)
    (hepoll : it.epoll = e) (he : s.epolls.cells e = some ep) {event : EpollEvent}
    (hmask : event.events &&& ~~~epollMask = 0#32) (hreg : so.epollItems[ep.epfd]? = some i) :
    s.ctlMod e ep ep.epfd so so.fd event = (wakeItem so.fd so.epollEvents
        { s with items := s.items.modify i fun it => { it with interestEvents := event.events } }
        i).map fun s => (s, 0) := by
  unfold ctlMod wakeItem
  grind

theorem sound_ctlMod (h : Sound s) (he : s.epolls.cells e = some ep)
    (hp : s.sockets.cells p = some so) (event : EpollEvent) :
    ∃ r, s.ctlMod e ep ep.epfd so so.fd event = some r ∧ Sound r.1 := by
  by_cases hmask : event.events &&& ~~~epollMask ≠ 0#32
  · exact ⟨(s, -einval), by rw [ctlMod, if_pos hmask], h⟩
  cases hreg : so.epollItems[ep.epfd]? with
  | none => exact ⟨(s, -enoent), by rw [ctlMod, if_neg hmask, hreg], h⟩
  | some i =>
    obtain ⟨it, ep', hit, hsock, hep', hepfd, -⟩ := h.linked.registered hp hreg
    have hepoll : it.epoll = e := h.linked.epoll_unique hep' he hepfd
    let g : EtranEpollItem → EtranEpollItem := fun it => { it with interestEvents := event.events }
    let s₁ : EpollState := { s with items := s.items.modify i g }
    have hlinked : Linked s₁ := h.linked.modifyItem g (fun _ => rfl) (fun _ => rfl)
    have hit₁ : s₁.items.cells i = some (g it) := by
      rw [cells_modify_self, hit, map_some]
    obtain ⟨s', hs', hw, hawake⟩ := wakes_wakeItem so.epollEvents hlinked hp hreg hit₁
    refine ⟨(s', 0), ?_, hw.linked, ?_⟩
    · rw [ctlMod_eq_wakeItem hit hepoll he (not_not.mp hmask) hreg, hs', map_some]
    · intro e' ep'' it' so' fd j he' hin hit' hso'
      obtain ⟨ep₀, hep₀, hin₀⟩ := hw.inactive he' hin
      rw [hw.items] at hit'
      rw [hw.sockets] at hso'
      obtain ⟨it₀, hit₀, rfl⟩ := cells_modify_eq_some.mp hit'
      by_cases hj : j = i
      · subst hj
        rw [hit, some.injEq] at hit₀
        subst hit₀
        rw [if_pos rfl] at hso' ⊢
        rw [show (g it).socket = p from hsock, hp, some.injEq] at hso'
        subst hso'
        by_contra hev
        exact hawake (by rwa [BitVec.and_comm]) he' hin
      · rw [if_neg hj] at hso' ⊢
        exact h.idle hep₀ hin₀ hit₀ hso'

def EpollState.withoutItem (s : EpollState) (e p : Nat) (epfd fd i : Nat) : EpollState :=
  { s with
    items := s.items.free i
    sockets := s.sockets.modify p fun so => { so with epollItems := so.epollItems.erase epfd }
    epolls := s.epolls.modify e fun ep => ep.remove fd }

theorem linked_withoutItem (h : Linked s) (he : s.epolls.cells e = some ep)
    (hp : s.sockets.cells p = some so)
    (hit : s.items.cells i = some it) (hepoll : it.epoll = e) (hsock : it.socket = p)
    (hfiled : ep.Filed so.fd i) : Linked (s.withoutItem e p ep.epfd so.fd i) := by
  refine ⟨h.toNamed.of_same rfl rfl (fun _ => map_cells_modify fun _ _ => rfl)
    (fun _ => map_cells_modify fun _ _ => remove_epfd), ?_, ?_⟩
  · intro p' so' epfd j hp' hreg'
    obtain ⟨so₀, hso₀, rfl⟩ := cells_modify_eq_some.mp hp'
    -- the registration that is left is another one
    have hother : so₀.epollItems[epfd]? = some j ∧ ¬ (p' = p ∧ epfd = ep.epfd) := by
      split_ifs at hreg' with hsame
      · simp only [getElem?_eraseFd] at hreg'
        split_ifs at hreg' with hkey
        exact ⟨hreg', fun hboth => hkey hboth.2.symm⟩
      · exact ⟨hreg', fun hboth => hsame hboth.1⟩
    obtain ⟨it', ep', hit', hs', hep', hepfd', hf'⟩ := h.registered hso₀ hother.1
    simp only [withoutItem]
    grind [remove_filed_of_ne, remove_epfd, Linked.socket_unique]
  · intro e' ep' fd j he' hl
    obtain ⟨ep₀, hep₀, rfl⟩ := cells_modify_eq_some.mp he'
    have hother : ep₀.Lists fd j ∧ ¬ (e' = e ∧ fd = so.fd) := by
      split_ifs at hl with hsame
      · subst hsame
        obtain rfl := some.inj (he.symm.trans hep₀)
        obtain ⟨hne, hl⟩ := lists_of_remove hfiled hl
        exact ⟨hl, fun hboth => hne hboth.2⟩
      · exact ⟨hl, fun hboth => hsame hboth.1⟩
    obtain ⟨it', so', hit', hepoll', hso', hfd', hreg'⟩ := h.listed hep₀ hother.1
    simp only [withoutItem]
    grind [getElem?_eraseFd, remove_epfd, Linked.epoll_unique]

theorem idle_withoutItem (h : Idle s) (e p epfd fd i : Nat) :
    Idle (s.withoutItem e p epfd fd i) := by
  intro e' ep' it' so' fd' j he' hin hit' hso'
  obtain ⟨ep₀, hep₀, rfl⟩ := cells_modify_eq_some.mp he'
  obtain ⟨so₀, hso₀, rfl⟩ := cells_modify_eq_some.mp hso'
  obtain ⟨-, hit'⟩ := cells_free_eq_some.mp hit'
  have hin₀ : ep₀.inactiveList[fd']? = some j := by grind [inactive_of_remove]
  have hold := h hep₀ hin₀ hit' hso₀
  split_ifs <;> exact hold

theorem sound_ctlDel (h : Sound s) (he : s.epolls.cells e = some ep)
    (hp : s.sockets.cells p = some so) :
    ∃ r, s.ctlDel e ep.epfd p so so.fd = some r ∧ Sound r.1 := by
  unfold ctlDel
  cases hreg : so.epollItems[ep.epfd]? with
  | none => exact ⟨_, rfl, h⟩
  | some i =>
    obtain ⟨it, ep', hit, hsock, hep', hepfd, hfiled⟩ := h.linked.registered hp hreg
    have hepoll : it.epoll = e := h.linked.epoll_unique hep' he hepfd
    obtain rfl := some.inj (he.symm.trans (hepoll ▸ hep'))
    simp only [hit]
    exact ⟨_, rfl, linked_withoutItem h.linked he hp hit hepoll hsock hfiled,
      idle_withoutItem h.idle e p ep.epfd so.fd i⟩

theorem sound_epollCtl (h : Sound s) (epfd : Nat) (op : CtlOp) (fd : Nat) (event : EpollEvent)
    (libc : Int) : ∃ r, s.epollCtl epfd op fd event libc = some r ∧ Sound r.1 := by
  unfold epollCtl
  split
  · exact ⟨_, rfl, h⟩
  · next e he =>
    obtain ⟨ep, hep, rfl⟩ := h.linked.of_lookupEpoll he
    simp only [hep]
    split
    · -- a descriptor of Linux: only the counter changes
      refine ⟨_, rfl, ?_⟩
      unfold ctlLinux
      split_ifs
      · exact h
      · cases op
        · exact sound_modifyEpoll h _ fun _ => ⟨rfl, rfl, rfl⟩
        · exact h
        · exact sound_modifyEpoll h _ fun _ => ⟨rfl, rfl, rfl⟩
        · exact h
    · next p hp =>
      obtain ⟨so, hso, rfl⟩ := h.linked.of_lookupSocket hp
      simp only [hso]
      split_ifs
      · exact ⟨_, rfl, h⟩
      · exact ⟨_, rfl, h⟩
      · cases op with
        | add => exact sound_ctlAdd h hep hso event
        | mod => exact sound_ctlMod h hep hso event
        | del => exact sound_ctlDel h hep hso
        | other => exact ⟨_, rfl, h⟩

/-! ## `eTran_close` -/

def EpollState.nothingRegistered (s : EpollState) (fd : Nat) : Bool :=
  match s.fds fd with
  | .unused => true
  | .socket p =>
    match s.sockets.cells p with
    | none => true
    | some so => so.epollItems.isEmpty
  | .epoll e =>
    match s.epolls.cells e with
    | none => true
    | some ep => ep.inactiveList.isEmpty && ep.activeList.isEmpty

theorem sound_closeSocket (h : Sound s) (hp : s.sockets.cells p = some so)
    (hempty : so.epollItems.isEmpty = true) (polled : List Readiness) :
    ∃ s', s.closeSocket p polled = some s' ∧ Sound s' := by
  obtain ⟨s₁, hs₁, hr⟩ := readies_socketTcpPoll polled h.linked h.idle
  obtain ⟨so₁, hp₁, -⟩ := hr.linked.fdSock (hr.fds ▸ h.linked.sockFd hp)
  obtain ⟨so', hp', hitems⟩ := hr.regs hp₁
  rw [hp, some.injEq] at hp'
  subst hp'
  have hnone : ∀ epfd : Nat, so₁.epollItems[epfd]? = none := by
    intro epfd
    rw [hitems]
    exact Std.TreeMap.getElem?_of_isEmpty hempty
  simp only [closeSocket, hs₁, hp₁]
  obtain ⟨⟨⟨hsock, hepoll, hfdSock, hfdEpoll, hfdOpen⟩, hreg, hlist⟩, hidle⟩ := hr.sound
  refine ⟨_, rfl, ⟨⟨?_, ?_, ?_, ?_, ?_⟩, ?_, ?_⟩, ?_⟩ <;> intros <;>
    grind [update_apply, Idle]

theorem sound_closeEpoll (h : Sound s) {ep : EtranEpoll} (he : s.epolls.cells e = some ep)
    (hin : ep.inactiveList.isEmpty = true) (hact : ep.activeList.isEmpty = true) :
    ∃ s', s.closeEpoll ep.epfd e = some s' ∧ Sound s' := by
  have hnil : ∀ {m : FdMap}, m.isEmpty = true → m.toList = [] := by
    intro m hm
    rwa [← List.isEmpty_iff, Std.TreeMap.isEmpty_toList]
  simp only [closeEpoll, he, hnil hin, hnil hact, List.map_nil, List.append_nil,
    List.foldlM_nil, Option.pure_def, map_some]
  have hnone : ∀ fd : Nat, ep.inactiveList[fd]? = none ∧ ep.activeList[fd]? = none := fun fd =>
    ⟨Std.TreeMap.getElem?_of_isEmpty hin, Std.TreeMap.getElem?_of_isEmpty hact⟩
  obtain ⟨⟨⟨hsock, hepoll, hfdSock, hfdEpoll, hfdOpen⟩, hreg, hlist⟩, hidle⟩ := h
  refine ⟨_, rfl, ⟨⟨?_, ?_, ?_, ?_, ?_⟩, ?_, ?_⟩, ?_⟩ <;> intros <;>
    grind [update_apply, Idle, EtranEpoll.Filed]

theorem sound_close (h : Sound s) (fd : Nat) (polled : List Readiness)
    (hclean : s.nothingRegistered fd = true) : ∃ r, s.close fd polled = some r ∧ Sound r.1 := by
  unfold nothingRegistered at hclean
  unfold close
  split at hclean
  · next hfd =>
    simp only [hfd]
    exact ⟨_, rfl, h⟩
  · next p hfd =>
    obtain ⟨so, hso, rfl⟩ := h.linked.fdSock hfd
    simp only [hso] at hclean
    obtain ⟨s', hs', hsound⟩ := sound_closeSocket h hso hclean polled
    simp only [hfd, hs', map_some]
    exact ⟨_, rfl, hsound⟩
  · next e hfd =>
    obtain ⟨ep, hep, rfl⟩ := h.linked.fdEpoll hfd
    simp only [hep, Bool.and_eq_true] at hclean
    obtain ⟨s', hs', hsound⟩ := sound_closeEpoll h hep hclean.1 hclean.2
    simp only [hfd, hs', map_some]
    exact ⟨_, rfl, hsound⟩

end MtpXdp.Lib.Epoll
