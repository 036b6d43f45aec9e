import Wlrdp.DaemonSoundness

namespace Wlrdp
set_option autoImplicit true

variable {d d' : Daemon} {i j : Fin maxSessions} {mgr : SessionMgr}

/-! ### Counting the active entries -/

namespace SessionMgr

def activeSlots (mgr : SessionMgr) : List (Fin maxSessions) :=
  allSlots.filter fun i => (mgr.sessions i).active

/-- The entries that `session_mgr_destroy` meets, in the order of its loops. -/
def activeEntries (mgr : SessionMgr) : List SessionEntry := mgr.activeSlots.map mgr.sessions

def activeCount (mgr : SessionMgr) : Nat := mgr.activeSlots.length

theorem mem_activeSlots : i ∈ mgr.activeSlots ↔ (mgr.sessions i).active = true := by
  rw [activeSlots, List.mem_filter]
  exact and_iff_right (List.mem_finRange i)

theorem activeSlots_nodup (mgr : SessionMgr) : mgr.activeSlots.Nodup :=
  (List.nodup_finRange maxSessions).filter _

theorem activeCount_le (mgr : SessionMgr) : mgr.activeCount ≤ maxSessions :=
  (List.length_filter_le ..).trans_eq (List.length_finRange ..)

/-- The other slots are counted as before. -/
theorem activeCount_setEntry (mgr : SessionMgr) (i : Fin maxSessions) (entry : SessionEntry) :
    (mgr.setEntry i entry).activeCount + (mgr.sessions i).active.toNat =
      mgr.activeCount + entry.active.toNat := by
  have hperm : allSlots.Perm (i :: allSlots.erase i) := List.perm_cons_erase (List.mem_finRange i)
  have hcount (m : SessionMgr) : m.activeCount =
      (allSlots.erase i).countP (fun j => (m.sessions j).active) + (m.sessions i).active.toNat := by
    rw [activeCount, activeSlots, ← List.countP_eq_length_filter, hperm.countP_eq, List.countP_cons]
    cases (m.sessions i).active <;> rfl
  have hrest : (allSlots.erase i).countP (fun j => ((mgr.setEntry i entry).sessions j).active) =
      (allSlots.erase i).countP fun j => (mgr.sessions j).active := by
    apply List.countP_congr
    intro j hj
    have hne : j ≠ i := ((List.nodup_finRange maxSessions).mem_erase_iff.1 hj).1
    rw [sessions_setEntry_of_ne hne]
  rw [hcount, hcount, hrest, sessions_setEntry_self]
  exact Nat.add_right_comm ..

theorem activeCount_enter (hi : (mgr.sessions i).active = false) (he : entry.active = true) :
    (mgr.setEntry i entry).activeCount = mgr.activeCount + 1 := by
  have h := mgr.activeCount_setEntry i entry
  rwa [hi, he] at h

theorem activeCount_leave (hi : (mgr.sessions i).active = true) :
    (mgr.setEntry i .zero).activeCount + 1 = mgr.activeCount := by
  have h := mgr.activeCount_setEntry i .zero
  rwa [hi] at h

theorem activeCount_keep (hi : (mgr.sessions i).active = entry.active) :
    (mgr.setEntry i entry).activeCount = mgr.activeCount := by
  have h := mgr.activeCount_setEntry i entry
  rw [hi] at h
  exact Nat.add_right_cancel h

end SessionMgr

/-! ### The representation invariant -/

/-- The counter and the slots agree, a slot that is not in use is zero, and every active entry
has a worker and an open descriptor of its own. -/
structure EntriesInv (d : Daemon) : Prop where
  workers : WorkersInv d
  count : d.mgr.count = d.mgr.activeCount
  zero : ∀ i, (d.mgr.sessions i).active = false → d.mgr.sessions i = .zero
  fds : ∀ i j, (d.mgr.sessions i).active = true → (d.mgr.sessions j).active = true →
    (d.mgr.sessions i).ipcFd = (d.mgr.sessions j).ipcFd → i = j
  opened : ∀ i, (d.mgr.sessions i).active = true → (d.fds (d.mgr.sessions i).ipcFd).isSome = true

theorem EntriesInv.start (fds : DescriptorTable FileObject) :
    EntriesInv (.start (sessionMgrInit desktop cert key width height) fds) := by
  refine ⟨.start fds, ?_, fun _ _ => rfl, fun _ _ ha => (by cases ha), fun _ ha => (by cases ha)⟩
  have hnone : (sessionMgrInit desktop cert key width height).activeSlots = [] :=
    List.filter_eq_nil_iff.2 fun _ _ ha => by cases ha
  change (0 : Int) = _
  rw [SessionMgr.activeCount, Daemon.start, hnone]
  rfl

/-- Children and descriptors of others do not matter. -/
theorem EntriesInv.congr (h : EntriesInv d) (hw : WorkersInv d') (hm : d'.mgr = d.mgr)
    (hf : ∀ i, (d.mgr.sessions i).active = true →
      d'.fds (d.mgr.sessions i).ipcFd = d.fds (d.mgr.sessions i).ipcFd) : EntriesInv d' := by
  refine ⟨hw, ?_, ?_, ?_, fun i hi => ?_⟩
  · rw [hm]; exact h.count
  · rw [hm]; exact h.zero
  · rw [hm]; exact h.fds
  · rw [hm] at hi ⊢
    rw [hf i hi]
    exact h.opened i hi

theorem admits_socketpair (he : d.admits (.getSession auth r) = true)
    (hp : r.socketpair = some (sv₀, sv₁)) :
    sv₀ ≠ sv₁ ∧ d.fds sv₀ = none ∧ d.fds sv₁ = none := by
  simp only [Daemon.admits, Daemon.freeDescriptor] at he
  simp only [hp, Option.all_some, Bool.and_eq_true, decide_eq_true_eq,
    Option.isNone_iff_eq_none] at he
  exact ⟨he.1.1.1, he.1.1.2, he.1.2⟩

/-- A descriptor that is open is none of two unused ones. -/
theorem EntriesInv.apart (h : EntriesInv d) (hi : (d.mgr.sessions i).active = true)
    (hn : d.fds n = none) : (d.mgr.sessions i).ipcFd ≠ n := by
  intro heq
  have ho := h.opened i hi
  rw [heq, hn] at ho
  cases ho

theorem socketpair_of_ne (d : Daemon) (h₀ : n ≠ sv₀) (h₁ : n ≠ sv₁) :
    (d.socketpair sv₀ sv₁).fds n = d.fds n := by
  change DescriptorTable.install (DescriptorTable.install d.fds sv₀ _ _) sv₁ _ _ n = _
  rw [DescriptorTable.install_of_ne h₁, DescriptorTable.install_of_ne h₀]

/-- A failed `fork_session` leaves no trace: the slot is zero again, and only the two new
descriptors are closed. -/
theorem EntriesInv.failed (h : EntriesInv d) (he : d.admits (.getSession auth r) = true)
    (ha : allocSlot d.mgr = some i)
    (hf : ForkStep (d.named i username) i auth r (false, d')) : EntriesInv (d'.clear i) := by
  obtain ⟨hm, _⟩ := hf.failed
  have hmgr : (d'.clear i).mgr = d.mgr := by
    change d'.mgr.setEntry i .zero = d.mgr
    rw [hm]
    have hsessions (entry : SessionEntry) :
        Function.update (Function.update d.mgr.sessions i entry) i .zero = d.mgr.sessions := by
      rw [Function.update_idem, ← h.zero i (allocSlot_some ha), Function.update_eq_self]
    exact congrArg (fun sessions => { d.mgr with sessions := sessions }) (hsessions _)
  refine h.congr (h.workers.failed ha hf) hmgr fun j hj => ?_
  cases hf with
  | noPair => rfl
  | noFork sv₀ sv₁ hp =>
    obtain ⟨_, h₀, h₁⟩ := admits_socketpair he hp
    have hj₀ := h.apart hj h₀
    have hj₁ := h.apart hj h₁
    change DescriptorTable.close (((d.named i username).socketpair sv₀ sv₁).fds.close sv₀) sv₁ _ = _
    rw [DescriptorTable.close_of_ne hj₁, DescriptorTable.close_of_ne hj₀]
    exact socketpair_of_ne _ hj₀ hj₁

theorem EntriesInv.forked (h : EntriesInv d) (he : d.admits (.getSession auth r) = true)
    (ha : allocSlot d.mgr = some i) (hp : r.socketpair = some (sv₀, sv₁))
    (hf : r.fork = some pid)
    (hd' : d' = ((d.named i username).socketpair sv₀ sv₁).adopt i sv₀ sv₁
      ((d.named i username).newChild i auth sv₀ sv₁ pid r)) : EntriesInv d' := by
  obtain ⟨hne, h₀, h₁⟩ := admits_socketpair he hp
  have hfree := allocSlot_some ha
  have hs (j : Fin maxSessions) : d'.mgr.sessions j =
      if j = i then ⟨true, username.snprintf usernameSize, pid, sv₀, .ready⟩
      else d.mgr.sessions j := by
    rw [hd']
    exact adopt_entries d i username auth sv₀ sv₁ pid r j
  have hfds : d'.fds = ((d.named i username).socketpair sv₀ sv₁).fds.close sv₁ := by
    rw [hd']
    rfl
  constructor
  · exact h.workers.forked (admits_fork he hf) hd'
  · have hnamed : (d.named i username).mgr.activeCount = d.mgr.activeCount :=
      SessionMgr.activeCount_keep rfl
    have hinactive : ((d.named i username).mgr.sessions i).active = false := by
      change ((d.mgr.setEntry i _).sessions i).active = false
      rw [SessionMgr.sessions_setEntry_self]
      exact hfree
    rw [hd']
    change d.mgr.count + 1 = (((d.named i username).mgr.setEntry i _).activeCount : Int)
    rw [SessionMgr.activeCount_enter hinactive rfl, hnamed, h.count]
    rfl
  · intro j hj
    rw [hs] at hj ⊢
    by_cases hij : j = i
    · rw [if_pos hij] at hj
      cases hj
    · rw [if_neg hij] at hj ⊢
      exact h.zero j hj
  · intro j k hj hk hjk
    rw [hs] at hj hk
    rw [hs j, hs k] at hjk
    by_cases hij : j = i <;> by_cases hik : k = i
    · exact hij.trans hik.symm
    · rw [if_neg hik] at hk
      rw [if_pos hij, if_neg hik] at hjk
      exact absurd hjk.symm (h.apart hk h₀)
    · rw [if_neg hij] at hj
      rw [if_neg hij, if_pos hik] at hjk
      exact absurd hjk (h.apart hj h₀)
    · rw [if_neg hij] at hj
      rw [if_neg hik] at hk
      rw [if_neg hij, if_neg hik] at hjk
      exact h.fds j k hj hk hjk
  · intro j hj
    rw [hs] at hj ⊢
    rw [hfds]
    by_cases hij : j = i
    · rw [if_pos hij, DescriptorTable.close_of_ne hne]
      change (((d.named i username).fds.socketpair sv₀ sv₁ _ _ true) sv₀).isSome = true
      rw [DescriptorTable.socketpair_left hne]
      rfl
    · rw [if_neg hij] at hj ⊢
      have hj₀ := h.apart hj h₀
      have hj₁ := h.apart hj h₁
      rw [DescriptorTable.close_of_ne hj₁, socketpair_of_ne _ hj₀ hj₁]
      exact h.opened j hj

theorem EntriesInv.getSession (h : EntriesInv d) (names : Passwd) (auth : AuthResult)
    (he : d.admits (.getSession auth r) = true) :
    EntriesInv (sessionMgrGetSession names d auth r).2 := by
  have hstep := sessionMgrGetSession_step names d auth r
  generalize sessionMgrGetSession names d auth r = res at hstep
  cases hstep with
  | unknown => exact h
  | found => exact h
  | full => exact h
  | failed _ _ ha hf => exact h.failed he ha hf
  | forked _ _ ha hf =>
    cases hf with
    | forked sv₀ sv₁ pid hp hpid => exact h.forked he ha hp hpid rfl

/-! ### Reaping -/

theorem EntriesInv.reaped (h : EntriesInv d) (pid : Nat) : EntriesInv (reapChild d pid) := by
  have hw := h.workers.reaped pid
  have hstep := reapChild_step d pid
  generalize reapChild d pid = d' at hw hstep
  cases hstep with
  | stranger => exact h.congr hw rfl fun _ _ => rfl
  | worker i ha hp =>
    refine ⟨hw, ?_, fun j hj => ?_, fun j k hj hk hjk => ?_, fun j hj => ?_⟩
    · change d.mgr.count - 1 = ((d.mgr.setEntry i .zero).activeCount : Int)
      have hc := SessionMgr.activeCount_leave ha
      have hd := h.count
      omega
    · change (d.mgr.setEntry i .zero).sessions j = .zero
      by_cases hij : j = i
      · rw [hij, SessionMgr.sessions_setEntry_self]
      · change ((d.mgr.setEntry i .zero).sessions j).active = false at hj
        rw [SessionMgr.sessions_setEntry_of_ne hij] at hj ⊢
        exact h.zero j hj
    · obtain ⟨_, hsj⟩ := sessions_left hj
      obtain ⟨_, hsk⟩ := sessions_left hk
      change ((d.mgr.setEntry i .zero).sessions j).ipcFd =
        ((d.mgr.setEntry i .zero).sessions k).ipcFd at hjk
      rw [hsj, hsk] at hjk
      exact h.fds j k (hsj ▸ hj) (hsk ▸ hk) hjk
    · obtain ⟨hij, hsj⟩ := sessions_left hj
      have haj : (d.mgr.sessions j).active = true := hsj ▸ hj
      have hfd : (d.mgr.sessions j).ipcFd ≠ (d.mgr.sessions i).ipcFd :=
        fun heq => hij (h.fds j i haj ha heq)
      change ((d.fds.close (d.mgr.sessions i).ipcFd)
        ((d.mgr.setEntry i .zero).sessions j).ipcFd).isSome = true
      rw [hsj, DescriptorTable.close_of_ne hfd]
      exact h.opened j haj

/-- The entry is that of an exited session. -/
def Daemon.Exited (d : Daemon) (pids : List Nat) (i : Fin maxSessions) : Prop :=
  (d.mgr.sessions i).active = true ∧ (d.mgr.sessions i).pid ∈ pids

/-- Exactly the entries of `pids` are removed, and exactly their descriptors are closed. -/
structure Reaped (pids : List Nat) (d d' : Daemon) : Prop where
  removed : ∀ i, d.Exited pids i → d'.mgr.sessions i = .zero
  kept : ∀ i, ¬ d.Exited pids i → d'.mgr.sessions i = d.mgr.sessions i
  closed : ∀ i, d.Exited pids i → d'.fds (d.mgr.sessions i).ipcFd = none
  others : ∀ n, (∀ i, d.Exited pids i → (d.mgr.sessions i).ipcFd ≠ n) → d'.fds n = d.fds n

theorem Reaped.nil (d : Daemon) : Reaped [] d d := by
  have hnone (i : Fin maxSessions) : ¬ d.Exited [] i := fun h => by cases h.2
  exact ⟨fun i h => absurd h (hnone i), fun _ _ => rfl, fun i h => absurd h (hnone i),
    fun _ _ => rfl⟩

/-- Reaping one pid after another. -/
theorem Reaped.cons {d₁ : Daemon} (h : Reaped [pid] d d₁) (h' : Reaped pids d₁ d') :
    Reaped (pid :: pids) d d' := by
  -- an entry removed by the first step is inactive in the second
  have hgone (i : Fin maxSessions) (hi : d.Exited [pid] i) : ¬ d₁.Exited pids i := by
    intro hi'
    have ha := hi'.1
    rw [h.removed i hi] at ha
    cases ha
  have hlater (i : Fin maxSessions) (hi : ¬ d.Exited [pid] i) :
      d₁.Exited pids i ↔ d.Exited (pid :: pids) i := by
    rw [Daemon.Exited, Daemon.Exited, h.kept i hi, List.mem_cons]
    constructor
    · exact fun hi' => ⟨hi'.1, .inr hi'.2⟩
    · rintro ⟨ha, hp | hp⟩
      · exact absurd ⟨ha, List.mem_singleton.2 hp⟩ hi
      · exact ⟨ha, hp⟩
  have hfirst (i : Fin maxSessions) (hi : d.Exited [pid] i) : d.Exited (pid :: pids) i :=
    ⟨hi.1, List.mem_cons.2 (.inl (List.mem_singleton.1 hi.2))⟩
  constructor
  · intro i hi
    by_cases hp : d.Exited [pid] i
    · rw [h'.kept i (hgone i hp)]
      exact h.removed i hp
    · exact h'.removed i ((hlater i hp).2 hi)
  · intro i hi
    have hp : ¬ d.Exited [pid] i := fun hp => hi (hfirst i hp)
    rw [h'.kept i fun hi' => hi ((hlater i hp).1 hi')]
    exact h.kept i hp
  · intro i hi
    by_cases hp : d.Exited [pid] i
    · by_cases hre : ∃ j, d₁.Exited pids j ∧ (d₁.mgr.sessions j).ipcFd = (d.mgr.sessions i).ipcFd
      · obtain ⟨j, hj, hfd⟩ := hre
        rw [← hfd]
        exact h'.closed j hj
      · rw [h'.others _ fun j hj hfd => hre ⟨j, hj, hfd⟩]
        exact h.closed i hp
    · rw [← h.kept i hp]
      exact h'.closed i ((hlater i hp).2 hi)
  · intro n hn
    rw [h'.others n ?_]
    · exact h.others n fun i hi => hn i (hfirst i hi)
    · intro i hi
      have hp : ¬ d.Exited [pid] i := fun hp => hgone i hp hi
      rw [h.kept i hp]
      exact hn i ((hlater i hp).1 hi)

theorem reapChild_reaped (h : WorkersInv d) (pid : Nat) : Reaped [pid] d (reapChild d pid) := by
  have hstep := reapChild_step d pid
  generalize reapChild d pid = d' at hstep
  cases hstep with
  | stranger hn =>
    have hnone (i : Fin maxSessions) : ¬ d.Exited [pid] i := fun hi =>
      hn i hi.1 (List.mem_singleton.1 hi.2)
    exact ⟨fun i hi => absurd hi (hnone i), fun _ _ => rfl, fun i hi => absurd hi (hnone i),
      fun _ _ => rfl⟩
  | worker i ha hp =>
    have honly (j : Fin maxSessions) (hj : d.Exited [pid] j) : j = i :=
      h.distinct j i hj.1 ha ((List.mem_singleton.1 hj.2).trans hp.symm)
    have hself : d.Exited [pid] i := ⟨ha, List.mem_singleton.2 hp⟩
    refine ⟨fun j hj => ?_, fun j hj => ?_, fun j hj => ?_, fun n hn => ?_⟩
    · rw [honly j hj]
      exact SessionMgr.sessions_setEntry_self ..
    · apply SessionMgr.sessions_setEntry_of_ne
      rintro rfl
      exact hj hself
    · rw [honly j hj]
      exact DescriptorTable.close_self ..
    · exact DescriptorTable.close_of_ne fun heq => hn i hself heq.symm

/-- `session_mgr_reap` keeps the invariant, whatever `waitpid` returns. -/
theorem sessionMgrReap_reaped (h : EntriesInv d) (pids : List Nat) :
    EntriesInv (sessionMgrReap d pids) ∧ Reaped pids d (sessionMgrReap d pids) := by
  simp only [sessionMgrReap]
  induction pids generalizing d with
  | nil => exact ⟨h, .nil d⟩
  | cons pid pids ih =>
    obtain ⟨hinv, hreaped⟩ := ih (h.reaped pid)
    exact ⟨hinv, (reapChild_reaped h.workers pid).cons hreaped⟩

/-! ### `session_mgr_destroy` -/

/-- A call made by `session_mgr_destroy`; `kill` sends SIGTERM. -/
inductive DestroyCall
  | ipcSendMsg (m : IpcSend)
  | kill (pid : Nat)
  | close (fd : Nat)
  | waitpid (pid : Nat)

namespace DestroyCall

def sent : DestroyCall → Option IpcSend
  | .ipcSendMsg m => some m
  | _ => none

def killed : DestroyCall → Option Nat
  | .kill pid => some pid
  | _ => none

def closed : DestroyCall → Option Nat
  | .close fd => some fd
  | _ => none

def awaited : DestroyCall → Option Nat
  | .waitpid pid => some pid
  | _ => none

end DestroyCall

/-- The body of the first loop. -/
def stopCalls (entry : SessionEntry) : List DestroyCall :=
  if entry.active then
    [.ipcSendMsg (shutdownSession entry), .kill entry.pid, .close entry.ipcFd]
  else []

/-- The body of the second loop. -/
def joinCalls (entry : SessionEntry) : List DestroyCall :=
  if entry.active then [.waitpid entry.pid] else []

def sessionMgrDestroy (mgr : SessionMgr) : List DestroyCall × SessionMgr :=
  ((allSlots.flatMap fun i => stopCalls (mgr.sessions i)) ++
      allSlots.flatMap fun i => joinCalls (mgr.sessions i),
    sessionMgrInit .empty .empty .empty 0 0)

/-- The calls of one kind in a loop over the slots, when its body makes one for each active
entry. -/
theorem filterMap_loop {g : DestroyCall → Option β} {f : SessionEntry → β}
    {body : SessionEntry → List DestroyCall}
    (h : ∀ entry, (body entry).filterMap g = if entry.active then [f entry] else [])
    (mgr : SessionMgr) (slots : List (Fin maxSessions)) :
    (slots.flatMap fun i => body (mgr.sessions i)).filterMap g =
      ((slots.filter fun i => (mgr.sessions i).active).map mgr.sessions).map f := by
  induction slots with
  | nil => rfl
  | cons i slots ih =>
    rw [List.flatMap_cons, List.filterMap_append, ih, h, List.filter_cons]
    cases (mgr.sessions i).active with
    | true => rfl
    | false => rfl

/-- A loop that makes no such call. -/
theorem filterMap_quiet {g : DestroyCall → Option β} {body : SessionEntry → List DestroyCall}
    (h : ∀ entry, (body entry).filterMap g = []) (mgr : SessionMgr)
    (slots : List (Fin maxSessions)) :
    (slots.flatMap fun i => body (mgr.sessions i)).filterMap g = [] := by
  induction slots with
  | nil => rfl
  | cons i slots ih => rw [List.flatMap_cons, List.filterMap_append, ih, h, List.append_nil]

/-- The calls of the first loop. -/
theorem destroy_stops {g : DestroyCall → Option β} {f : SessionEntry → β}
    (hstop : ∀ entry, [.ipcSendMsg (shutdownSession entry), .kill entry.pid,
      .close entry.ipcFd].filterMap g = [f entry])
    (hjoin : ∀ pid, g (.waitpid pid) = none) (mgr : SessionMgr) :
    (sessionMgrDestroy mgr).1.filterMap g = mgr.activeEntries.map f := by
  have hquiet (entry : SessionEntry) : (joinCalls entry).filterMap g = [] := by
    rw [joinCalls]
    split
    · rw [List.filterMap_cons_none (hjoin _), List.filterMap_nil]
    · rfl
  rw [sessionMgrDestroy, List.filterMap_append, filterMap_quiet hquiet, List.append_nil]
  apply filterMap_loop
  intro entry
  rw [stopCalls]
  split
  · exact hstop entry
  · rfl

/-- Every active entry is sent SHUTDOWN, signalled, closed and waited for, once each. -/
structure Destroyed (mgr : SessionMgr) (calls : List DestroyCall) : Prop where
  sent : calls.filterMap DestroyCall.sent = mgr.activeEntries.map shutdownSession
  killed : calls.filterMap DestroyCall.killed = mgr.activeEntries.map (·.pid)
  closed : calls.filterMap DestroyCall.closed = mgr.activeEntries.map (·.ipcFd)
  awaited : calls.filterMap DestroyCall.awaited = mgr.activeEntries.map (·.pid)
  pids : (mgr.activeEntries.map (·.pid)).Nodup
  fds : (mgr.activeEntries.map (·.ipcFd)).Nodup

theorem activeEntries_nodup {f : SessionEntry → Nat}
    (h : ∀ i j, (mgr.sessions i).active = true → (mgr.sessions j).active = true →
      f (mgr.sessions i) = f (mgr.sessions j) → i = j) : (mgr.activeEntries.map f).Nodup := by
  rw [SessionMgr.activeEntries, List.map_map]
  apply mgr.activeSlots_nodup.map_on
  intro i hi j hj hij
  exact h i j (SessionMgr.mem_activeSlots.1 hi) (SessionMgr.mem_activeSlots.1 hj) hij

theorem sessionMgrDestroy_destroyed (h : EntriesInv d) :
    Destroyed d.mgr (sessionMgrDestroy d.mgr).1 := by
  constructor
  · exact destroy_stops (fun _ => rfl) (fun _ => rfl) d.mgr
  · exact destroy_stops (fun _ => rfl) (fun _ => rfl) d.mgr
  · exact destroy_stops (fun _ => rfl) (fun _ => rfl) d.mgr
  · have hquiet (entry : SessionEntry) : (stopCalls entry).filterMap DestroyCall.awaited = [] := by
      rw [stopCalls]
      split <;> rfl
    rw [sessionMgrDestroy, List.filterMap_append, filterMap_quiet hquiet, List.nil_append]
    apply filterMap_loop
    intro entry
    rw [joinCalls]
    split <;> rfl
  · exact activeEntries_nodup h.workers.distinct
  · exact activeEntries_nodup h.fds

/-- The daemon process makes these calls when it stops its sessions. -/
theorem stopping_destroys {s : DaemonProcess} (db : AccountDb) (hpc : s.pc = .stopping slots) :
    ∃ s', (daemonProcess db).run s (List.replicate slots.length .stopSession) = s' ∧
      s'.pc = .stopping [] ∧ s'.daemon.mgr = s.daemon.mgr ∧
      s'.sent = s.sent ++ (slots.flatMap fun i => stopCalls (s.daemon.mgr.sessions i)).filterMap
        DestroyCall.sent ∧
      s'.daemon.fds = ((slots.flatMap fun i => stopCalls (s.daemon.mgr.sessions i)).filterMap
        DestroyCall.closed).foldl DescriptorTable.close s.daemon.fds := by
  induction slots generalizing s with
  | nil => exact ⟨s, rfl, hpc, rfl, (List.append_nil _).symm, rfl⟩
  | cons i slots ih =>
    have hstep : (daemonProcess db).step s .stopSession = s.stop i slots := by
      change DaemonProcess.step db s .stopSession = _
      rw [DaemonProcess.step, hpc]
    have hmgr : (s.stop i slots).daemon.mgr = s.daemon.mgr := by
      rw [DaemonProcess.stop]
      split <;> rfl
    have hnext : (s.stop i slots).pc = .stopping slots := by
      rw [DaemonProcess.stop]
      split <;> rfl
    obtain ⟨s', hrun, hpc', hm, hsent, hfds⟩ := ih hnext
    refine ⟨s', ?_, hpc', hm.trans hmgr, ?_, ?_⟩
    · rw [List.length_cons, List.replicate_succ, System.run_cons, hstep]
      exact hrun
    · rw [hsent, hmgr, List.flatMap_cons, List.filterMap_append, ← List.append_assoc]
      congr 1
      rw [DaemonProcess.stop, stopCalls]
      split
      · rfl
      · exact (List.append_nil _).symm
    · rw [hfds, hmgr, List.flatMap_cons, List.filterMap_append, List.foldl_append]
      congr 1
      rw [DaemonProcess.stop, stopCalls]
      split <;> rfl

/-! ### Every sequence of calls -/

/-- The registry under any sequence of calls. `fork` returns no pid of an unreaped child and
`socketpair` two unused descriptors; `waitpid` may return any pids in any order. -/
def registry (db : Passwd) : System Daemon DaemonEvent where
  enabled
    | d, .getSession auth r => d.admits (.getSession auth r) = true
    | _, .workerExited _ | _, .reap _ => True
  step := .step db

instance (db : Passwd) : ∀ d e, Decidable ((registry db).enabled d e)
  | d, .getSession auth r => inferInstanceAs (Decidable (d.admits (.getSession auth r) = true))
  | _, .workerExited _ | _, .reap _ => .isTrue trivial

theorem EntriesInv.exited (h : EntriesInv d) (names : Passwd) (pid : Nat) :
    EntriesInv (d.step names (.workerExited pid)) :=
  h.congr (h.workers.exited names pid) rfl fun _ _ => rfl

theorem entriesInv_step (db : Passwd) (d : Daemon) (e : DaemonEvent) (h : EntriesInv d)
    (he : (registry db).enabled d e) : EntriesInv ((registry db).step d e) := by
  cases e with
  | getSession auth r => exact h.getSession db auth he
  | workerExited pid => exact h.exited db pid
  | reap pids => exact (sessionMgrReap_reaped h pids).1

/-- What the users of the registry rely on. -/
structure Daemon.WellRepresented (d : Daemon) : Prop where
  count : d.mgr.count = d.mgr.activeCount
  bound : d.mgr.count ≤ maxSessions
  zero : ∀ i, (d.mgr.sessions i).active = false → d.mgr.sessions i = .zero
  distinct : ∀ i j, (d.mgr.sessions i).active = true → (d.mgr.sessions j).active = true → i ≠ j →
    (d.mgr.sessions i).pid ≠ (d.mgr.sessions j).pid ∧
      (d.mgr.sessions i).ipcFd ≠ (d.mgr.sessions j).ipcFd
  opened : ∀ i, (d.mgr.sessions i).active = true → (d.fds (d.mgr.sessions i).ipcFd).isSome = true

theorem EntriesInv.wellRepresented (h : EntriesInv d) : d.WellRepresented := by
  refine ⟨h.count, ?_, h.zero, fun i j hi hj hne => ⟨fun hp => ?_, fun hf => ?_⟩, h.opened⟩
  · rw [h.count]
    exact Int.ofNat_le.2 d.mgr.activeCount_le
  · exact hne (h.workers.distinct i j hi hj hp)
  · exact hne (h.fds i j hi hj hf)

/-- After every sequence of calls the registry is well represented, reaping any pids removes
exactly their entries and descriptors, and destroying it stops every active entry once. -/
theorem registry_well_represented (db : Passwd) (desktop cert key : CString) (width height : Int)
    (fds : DescriptorTable FileObject)
    (hl : (registry db).Legal (.start (sessionMgrInit desktop cert key width height) fds) es) :
    (registry db).Always
      (fun d => d.WellRepresented ∧ (∀ pids, Reaped pids d (sessionMgrReap d pids)) ∧
        Destroyed d.mgr (sessionMgrDestroy d.mgr).1)
      (.start (sessionMgrInit desktop cert key width height) fds) es := by
  have hinv := System.always_of_legal (entriesInv_step db) (EntriesInv.start fds) hl
  apply hinv.mono
  intro d h
  exact ⟨h.wellRepresented, fun pids => (sessionMgrReap_reaped h pids).2,
    sessionMgrDestroy_destroyed h⟩

/-- Two users log on, a fork fails, and one of the sessions exits among strangers. -/
def registryCalls : List DaemonEvent :=
  [.getSession (.basic 1000) (.working 3 4 70), .getSession (.basic 1001) (.working 5 6 71),
    .getSession (.basic 1002) { ForkTurn.working 7 8 72 with fork := none }, .reap [9, 70]]

def twoNames : Passwd := fun uid =>
  some (if uid = 1000 then .empty else ⟨[97], fun b h => by rw [List.mem_singleton.1 h]; decide⟩)

theorem registry_well_represented_calls :
    (registry twoNames).Always
      (fun d => d.WellRepresented ∧ (∀ pids, Reaped pids d (sessionMgrReap d pids)) ∧
        Destroyed d.mgr (sessionMgrDestroy d.mgr).1)
      .fresh registryCalls :=
  registry_well_represented twoNames .empty .empty .empty 0 0 .empty (by decide +kernel)

end Wlrdp
