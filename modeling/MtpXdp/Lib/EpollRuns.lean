import MtpXdp.Lib.EpollCalls

/-!
# Runs of the Epoll Calls

Every call keeps the registrations intact and loses no readiness, except that `eTran_close` leaves
the other side of a registration behind: a closed socket stays on the lists of its epolls, and
closing an epoll deletes items that its sockets still refer to.
-/

namespace MtpXdp.Lib.Epoll

open MtpXdp.Core Ebpf Option EpollState

/-! ## One call -/

def CleanClose : Option EpollState → Call → Prop
  | some s, .close fd _ => s.nothingRegistered fd = true
  | _, _ => True

instance (s : Option EpollState) (c : Call) : Decidable (CleanClose s c) := by
  cases s <;> cases c <;> unfold CleanClose <;> infer_instance

def Runs (P : EpollState → Prop) (s : Option EpollState) : Prop := ∃ t, s = some t ∧ P t

theorem Runs.mono {P Q : EpollState → Prop} (h : ∀ s, P s → Q s) {s : Option EpollState} :
    Runs P s → Runs Q s := by
  rintro ⟨t, rfl, ht⟩
  exact ⟨t, rfl, h t ht⟩

theorem sound_step (s : Option EpollState) (c : Call) (h : Runs Sound s) (hclean : CleanClose s c) :
    Runs Sound (step s c) := by
  obtain ⟨t, rfl, ht⟩ := h
  have hfst : ∀ {α : Type} {o : Option (EpollState × α)}, (∃ r, o = some r ∧ Sound r.1) →
      Runs Sound (o.map Prod.fst) := by
    rintro α o ⟨r, rfl, hr⟩
    exact ⟨r.1, rfl, hr⟩
  cases c with
  | socket fd protocol => exact ⟨_, rfl, sound_socket ht fd protocol⟩
  | epollCreate1 fd linuxFirst => exact ⟨_, rfl, sound_epollCreate1 ht fd linuxFirst⟩
  | epollCtl epfd op fd event libc => exact hfst (sound_epollCtl ht epfd op fd event libc)
  | epollWait w => exact hfst (sound_epollWait ht w)
  | ready r =>
    obtain ⟨t', ht', hr⟩ := readies_ready ht.linked ht.idle r
    exact ⟨t', ht', hr.sound⟩
  | close fd polled => exact hfst (sound_close ht fd polled hclean)

/-! ## Integrity of the references -/

def EtranEpoll.HasActive (ep : EtranEpoll) (i : Nat) : Prop :=
  ∃ fd : Nat, ep.activeList[fd]? = some i
def EtranEpoll.HasInactive (ep : EtranEpoll) (i : Nat) : Prop :=
  ∃ fd : Nat, ep.inactiveList[fd]? = some i

/-- **Integrity**: an item stands in one list of its epoll, its socket has it under the epoll's
    descriptor, and neither is freed. -/
structure ItemsIntact (s : EpollState) : Prop where
  registered : ∀ {p so} {epfd i : Nat}, s.sockets.cells p = some so →
    so.epollItems[epfd]? = some i →
    ∃ it ep, s.items.cells i = some it ∧ it.socket = p ∧ s.epolls.cells it.epoll = some ep ∧
      ep.epfd = epfd ∧ Xor (ep.HasActive i) (ep.HasInactive i)
  listed : ∀ {e ep i}, s.epolls.cells e = some ep → ep.HasActive i ∨ ep.HasInactive i →
    ∃ it so, s.items.cells i = some it ∧ it.epoll = e ∧ s.sockets.cells it.socket = some so ∧
      so.epollItems[ep.epfd]? = some i ∧ Xor (ep.HasActive i) (ep.HasInactive i)

section

variable {s : EpollState}

theorem Linked.xor_of_filed (h : Linked s) {e fd i : Nat} {ep : EtranEpoll}
    (he : s.epolls.cells e = some ep) (hf : ep.Filed fd i) :
    Xor (ep.HasActive i) (ep.HasInactive i) := by
  -- all places of the item have the descriptor of its socket
  have hplace : ∀ {fd'}, ep.Lists fd' i → fd' = fd := by
    intro fd' hl
    obtain ⟨it, so, hit, -, hso, hfd, -⟩ := h.listed he hf.lists
    obtain ⟨it', so', hit', -, hso', hfd', -⟩ := h.listed he hl
    rw [hit, some.injEq] at hit'
    subst hit'
    rw [hso, some.injEq] at hso'
    subst hso'
    exact hfd'.symm.trans hfd
  rcases hf with ⟨hact, hin⟩ | ⟨hact, hin⟩
  · refine Or.inl ⟨⟨fd, hact⟩, ?_⟩
    rintro ⟨fd', hin'⟩
    rw [hplace (Or.inr hin'), hin] at hin'
    cases hin'
  · refine Or.inr ⟨⟨fd, hin⟩, ?_⟩
    rintro ⟨fd', hact'⟩
    rw [hplace (Or.inl hact'), hact] at hact'
    cases hact'

theorem Linked.itemsIntact (h : Linked s) : ItemsIntact s := by
  constructor
  · intro p so epfd i hp hreg
    obtain ⟨it, ep, hit, hsock, hep, hepfd, hf⟩ := h.registered hp hreg
    exact ⟨it, ep, hit, hsock, hep, hepfd, h.xor_of_filed hep hf⟩
  · intro e ep i he hlist
    have hplace : ∃ fd, ep.Lists fd i := by
      rcases hlist with ⟨fd, hfd⟩ | ⟨fd, hfd⟩
      · exact ⟨fd, Or.inl hfd⟩
      · exact ⟨fd, Or.inr hfd⟩
    obtain ⟨fd, hl⟩ := hplace
    obtain ⟨it, so, hit, hepoll, hso, -, hreg⟩ := h.listed he hl
    exact ⟨it, so, hit, hepoll, hso, hreg, h.xor_of_filed he (h.filed he hl)⟩

theorem exists_entry {m : FdMap} (h : m.isEmpty = false) : ∃ k i : Nat, m[k]? = some i := by
  obtain ⟨k, hk⟩ := Std.TreeMap.isEmpty_eq_false_iff_exists_mem.mp h
  exact ⟨k, m[k], Std.TreeMap.getElem?_eq_some_getElem hk⟩

theorem not_intact_closeSocket (h : Sound s) {p : Nat} {so : EtranSocket}
    (hp : s.sockets.cells p = some so) (hreg : so.epollItems.isEmpty = false)
    (polled : List Readiness) {s' : EpollState} (hs' : s.closeSocket p polled = some s') :
    ¬ ItemsIntact s' := by
  obtain ⟨s₁, hs₁, hr⟩ := readies_socketTcpPoll polled h.linked h.idle
  obtain ⟨so₁, hp₁, -⟩ := hr.linked.fdSock (hr.fds ▸ h.linked.sockFd hp)
  obtain ⟨so', hp', hitems⟩ := hr.regs hp₁
  rw [hp, some.injEq] at hp'
  subst hp'
  simp only [closeSocket, hs₁, hp₁, some.injEq] at hs'
  subst hs'
  intro hintact
  obtain ⟨epfd, i, hi⟩ := exists_entry hreg
  rw [← hitems] at hi
  obtain ⟨it, ep, hit, hsock, hep, -, hf⟩ := hr.linked.registered hp₁ hi
  have hlist : ep.HasActive i ∨ ep.HasInactive i := by
    rcases hf.lists with hl | hl
    · exact Or.inl ⟨_, hl⟩
    · exact Or.inr ⟨_, hl⟩
  obtain ⟨it', so', hit', -, hso', -⟩ := hintact.listed hep hlist
  rw [show s₁.items.cells i = some it' from hit', some.injEq] at hit
  subst hit
  exact (Heap.cells_free_eq_some.mp hso').1 hsock

theorem foldlM_deleteItem (is : List Nat) {s s' : EpollState}
    (h : is.foldlM deleteItem s = some s') : s'.sockets = s.sockets ∧ s'.epolls = s.epolls ∧
      ∀ {i it}, s'.items.cells i = some it → s.items.cells i = some it := by
  induction is generalizing s with
  | nil =>
    obtain rfl : s = s' := by simpa using h
    exact ⟨rfl, rfl, fun hi => hi⟩
  | cons j is ih =>
    rw [List.foldlM_cons, bind_eq_bind, bind_eq_some_iff] at h
    obtain ⟨s₁, hs₁, h⟩ := h
    unfold deleteItem at hs₁
    split at hs₁
    · cases hs₁
    · rw [some.injEq] at hs₁
      subst hs₁
      obtain ⟨hsock, hepoll, hitems⟩ := ih h
      exact ⟨hsock, hepoll, fun hi => (Heap.cells_free_eq_some.mp (hitems hi)).2⟩

theorem not_intact_closeEpoll (h : Sound s) {fd e : Nat} {ep : EtranEpoll}
    (he : s.epolls.cells e = some ep)
    (hlist : (ep.inactiveList.isEmpty && ep.activeList.isEmpty) = false) {s' : EpollState}
    (hs' : s.closeEpoll fd e = some s') : ¬ ItemsIntact s' := by
  have hplace : ∃ fd i : Nat, ep.Lists fd i := by
    rcases Bool.and_eq_false_iff.mp hlist with hne | hne
    · obtain ⟨fd, i, hi⟩ := exists_entry hne
      exact ⟨fd, i, Or.inr hi⟩
    · obtain ⟨fd, i, hi⟩ := exists_entry hne
      exact ⟨fd, i, Or.inl hi⟩
  obtain ⟨fd', i, hl⟩ := hplace
  obtain ⟨it, so, hit, hepoll, hso, -, hreg⟩ := h.linked.listed he hl
  simp only [closeEpoll, he, map_eq_some_iff] at hs'
  obtain ⟨s₁, hs₁, rfl⟩ := hs'
  obtain ⟨hsock, -, hitems⟩ := foldlM_deleteItem _ hs₁
  intro hintact
  obtain ⟨it', ep', hit', -, hep', -⟩ := hintact.registered (by rw [hsock]; exact hso) hreg
  have hsame := hitems hit'
  rw [hit, some.injEq] at hsame
  subst hsame
  exact (Heap.cells_free_eq_some.mp hep').1 hepoll

theorem clean_of_intact_step (s : Option EpollState) (c : Call) (h : Runs Sound s)
    (hintact : Runs ItemsIntact (step s c)) : CleanClose s c := by
  obtain ⟨t, rfl, ht⟩ := h
  cases c with
  | close fd polled =>
    change t.nothingRegistered fd = true
    by_contra hdirty
    rw [Bool.not_eq_true] at hdirty
    obtain ⟨s', hs', hs'intact⟩ := hintact
    change ((t.close fd polled).map Prod.fst) = some s' at hs'
    unfold nothingRegistered at hdirty
    unfold close at hs'
    split at hdirty
    · cases hdirty
    · next p hfd =>
      obtain ⟨so, hso, rfl⟩ := ht.linked.fdSock hfd
      simp only [hso] at hdirty
      simp only [hfd, map_map, map_eq_some_iff, Function.comp_apply] at hs'
      obtain ⟨s₁, hs₁, rfl⟩ := hs'
      exact not_intact_closeSocket ht hso hdirty polled hs₁ hs'intact
    · next e hfd =>
      obtain ⟨ep, hep, rfl⟩ := ht.linked.fdEpoll hfd
      simp only [hep] at hdirty
      simp only [hfd, map_map, map_eq_some_iff, Function.comp_apply] at hs'
      obtain ⟨s₁, hs₁, rfl⟩ := hs'
      exact not_intact_closeEpoll ht hep hdirty hs₁ hs'intact
  | _ => trivial

end

/-- **Referential integrity of epoll**: both sides of every registration agree iff every close finds
    nothing registered. -/
theorem items_intact_iff (cs : List Call) :
    Always step (Runs ItemsIntact) (some .init) cs ↔ Meets step CleanClose (some .init) cs := by
  have hkeep : ∀ s c, Runs Sound s → True → CleanClose s c → Runs Sound (step s c) :=
    fun s c h _ hclean => sound_step s c h hclean
  apply always_iff_meets hkeep
  · exact fun s c h _ hintact => clean_of_intact_step s c h hintact
  · exact fun s h => h.mono fun t ht => ht.linked.itemsIntact
  · exact ⟨_, rfl, sound_init⟩
  · exact meets_true

def closedEpollRun : List Call :=
  [.socket 3 .tcp, .epollCreate1 4 false, .epollCtl 4 .add 3 { events := 1#32, data := 0#64 } 0,
    .close 4 []]

/-- The socket still has the item, which has been deleted. -/
theorem closed_epoll_leaves_item :
    ¬ Always step (Runs ItemsIntact) (some .init) closedEpollRun := by
  intro h
  obtain ⟨s, hs, hintact⟩ := h.last
  have hitem : (run step (some .init) closedEpollRun).bind (fun s => s.items.cells 0) = none := by
    decide +kernel
  have hreg : (run step (some .init) closedEpollRun).bind
      (fun s => (s.sockets.cells 0).bind fun so => so.epollItems[4]?) = some 0 := by
    decide +kernel
  rw [hs, bind_some] at hitem hreg
  obtain ⟨so, hso, hi⟩ := bind_eq_some_iff.mp hreg
  obtain ⟨it, -, hit, -⟩ := hintact.registered hso hi
  rw [hitem] at hit
  cases hit

/-! ## Readiness -/

end MtpXdp.Lib.Epoll
