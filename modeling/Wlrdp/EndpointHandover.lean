import Wlrdp.RegistrySoundness

namespace Wlrdp
set_option autoImplicit true

variable {db : Passwd} {d d' : Daemon} {i : Fin maxSessions} {image : ProcessImage}

/-- The program started for an entry has, at the number it is given, the other end of the socket
pair whose daemon end the entry holds, and no end of another pair. -/
def Daemon.HandsOver (d : Daemon) (i : Fin maxSessions) (image : ProcessImage) : Prop :=
  ∃ pair side, (∃ c, d.fds (d.mgr.sessions i).ipcFd = some ⟨.endpoint pair side, c⟩) ∧
    (∃ c, image.fds image.ipcFd = some ⟨.endpoint pair side.other, c⟩) ∧
    ∀ pair' side', image.fds.Opens (.endpoint pair' side') → pair' = pair

/-- Every IPC endpoint of the daemon is close-on-exec. -/
def Daemon.Sealed (d : Daemon) : Prop := d.fds.Seals FileObject.isEndpoint

theorem sessionChild_some (h : sessionChild mgr entry auth fds sv₀ sv₁ r = some image) :
    image.ipcFd = sv₁ ∧ image.fds = (fds.close sv₀).exec := by
  simp only [sessionChild] at h
  split at h
  · cases h
  split at h
  · cases h
  split at h
  · cases h
  split at h
  · cases h
  · cases h
    exact ⟨rfl, rfl⟩

/-- `execlp` closes the worker's end of the socket pair: its number is unused afterwards. -/
theorem newChild_endpoint (h : (d.newChild i auth sv₀ sv₁ pid r).image = some image) :
    image.fds image.ipcFd = none := by
  obtain ⟨hfd, hfds⟩ := sessionChild_some h
  rw [hfd, hfds]
  by_cases heq : sv₁ = sv₀
  · exact DescriptorTable.exec_closed (heq ▸ DescriptorTable.close_self ..)
  · apply DescriptorTable.exec_cloexec (a := .endpoint d.nextPair .session)
    rw [DescriptorTable.close_of_ne heq]
    exact DescriptorTable.socketpair_right ..

/-- From no state of the registry does `fork_session` hand the endpoint over. -/
theorem never_hands_over (hf : forkSession d i auth r = (true, d'))
    (hc : d'.children.head?.bind (·.image) = some image) : ¬ d'.HandsOver i image := by
  have hstep := forkSession_step d i auth r
  rw [hf] at hstep
  cases hstep with
  | forked sv₀ sv₁ pid =>
    have hnone := newChild_endpoint hc
    rintro ⟨pair, side, _, ⟨c, hopen⟩, _⟩
    rw [hnone] at hopen
    cases hopen

/-- A registry with one live session. -/
def Daemon.oneSession : Daemon := (forkSession .fresh firstSlot (.basic 1000) (.working 3 4 1)).2

theorem never_hands_over_first :
    ∃ image, forkSession .fresh firstSlot (.basic 1000) (.working 3 4 1) = (true, .oneSession) ∧
      Daemon.oneSession.children.head?.bind (·.image) = some image ∧
      ¬ Daemon.oneSession.HandsOver firstSlot image := by
  have hf : forkSession .fresh firstSlot (.basic 1000) (.working 3 4 1) = (true, .oneSession) := rfl
  exact ⟨_, hf, rfl, never_hands_over hf rfl⟩

/-- The second worker is told the number 6, which it does not have open. -/
theorem second_worker_unconnected :
    ∃ d' image, forkSession .oneSession secondSlot (.basic 1001) (.working 5 6 2) = (true, d') ∧
      d'.children.head?.bind (·.image) = some image ∧ image.ipcFd = 6 ∧ image.fds 6 = none ∧
      ¬ d'.HandsOver secondSlot image := by
  refine ⟨_, _, rfl, rfl, rfl, rfl, ?_⟩
  rintro ⟨pair, side, _, ⟨c, hopen⟩, _⟩
  cases hopen

/-! ### Endpoints do not leak -/

/-- No program started for a worker has an IPC endpoint open, and none will. -/
structure Confined (d : Daemon) : Prop where
  sealed : d.Sealed
  images : ∀ c ∈ d.children, ∀ image, c.image = some image → ∀ o, o.isEndpoint →
    ¬ image.fds.Opens o

theorem Confined.start (h : fds.Seals FileObject.isEndpoint) : Confined (.start mgr fds) :=
  ⟨h, fun _ hc => by cases hc⟩

theorem Confined.keep (h : Confined d) (hs : d'.Sealed)
    (hc : ∀ c ∈ d'.children, ∃ c₀ ∈ d.children, c.image = c₀.image) : Confined d' := by
  refine ⟨hs, fun c hmem image hi => ?_⟩
  obtain ⟨c₀, hmem₀, heq⟩ := hc c hmem
  exact h.images c₀ hmem₀ image (heq ▸ hi)

theorem Confined.same (h : Confined d) (hs : d'.Sealed) (hc : d'.children = d.children) :
    Confined d' := h.keep hs fun c hmem => ⟨c, hc ▸ hmem, rfl⟩

theorem forkStep_confined {res : Bool × Daemon} (h : Confined d) (hs : ForkStep d i auth r res) :
    Confined res.2 := by
  cases hs with
  | noPair => exact h
  | noFork => exact h.same h.sealed.socketpair.close.close rfl
  | forked sv₀ sv₁ pid =>
    have hpair : (d.socketpair sv₀ sv₁).Sealed := h.sealed.socketpair
    refine ⟨hpair.close, fun c hmem image hi o ho => ?_⟩
    rcases List.mem_cons.1 hmem with rfl | hmem
    · rw [(sessionChild_some hi).2]
      exact hpair.close.exec ho
    · exact h.images c hmem image hi o ho

theorem getSession_confined (h : Confined d) :
    Confined (sessionMgrGetSession db d auth r).2 := by
  have hstep := sessionMgrGetSession_step db d auth r
  generalize sessionMgrGetSession db d auth r = res at hstep
  have hnamed : ∀ i username, Confined (d.named i username) := fun _ _ => h.same h.sealed rfl
  cases hstep with
  | unknown => exact h
  | found => exact h
  | full => exact h
  | failed _ _ _ hf =>
    have hd := forkStep_confined (hnamed _ _) hf
    exact hd.same hd.sealed rfl
  | forked _ _ _ hf => exact forkStep_confined (hnamed _ _) hf

theorem reapChild_confined (h : Confined d) (pid : Nat) : Confined (reapChild d pid) := by
  have hrest : ∀ c ∈ d.children.filter (·.pid ≠ pid), ∃ c₀ ∈ d.children, c.image = c₀.image :=
    fun c hmem => ⟨c, List.mem_of_mem_filter hmem, rfl⟩
  unfold reapChild
  dsimp only
  split
  · exact h.keep h.sealed hrest
  · exact h.keep h.sealed.close hrest

theorem confined_step (h : Confined d) : Confined (d.step db e) := by
  cases e with
  | getSession auth r => exact getSession_confined h
  | workerExited pid =>
    refine h.keep h.sealed fun c hmem => ?_
    obtain ⟨c₀, hmem₀, rfl⟩ := List.mem_map.1 hmem
    refine ⟨c₀, hmem₀, ?_⟩
    split <;> rfl
  | reap pids =>
    change Confined (sessionMgrReap d pids)
    simp only [sessionMgrReap]
    induction pids generalizing d with
    | nil => exact h
    | cons pid pids ih => exact ih (reapChild_confined h pid)

/-- However many sessions are live, no worker ever starts with an IPC endpoint of any session. -/
theorem endpoints_confined (h : fds.Seals FileObject.isEndpoint) :
    (daemon db).Always Confined (.start mgr fds) es :=
  System.always_of_step (C := fun _ _ => True) (fun _ _ h _ => confined_step h) (.start h)
    (System.along_of_forall fun _ _ => trivial)

end Wlrdp
