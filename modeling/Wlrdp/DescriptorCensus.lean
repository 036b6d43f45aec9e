import Wlrdp.DaemonChildren

namespace Wlrdp
set_option autoImplicit true

/-- The slots whose sockets are open. -/
def DaemonPc.holding : DaemonPc → List (Fin maxSessions)
  | .stopping slots => slots
  | .joining _ | .done => []
  | _ => allSlots

/-- The socket of the peer that `on_peer_accepted` pumps. -/
def DaemonPc.peer : DaemonPc → Option Nat
  | .pumping _ peerFd => some peerFd
  | _ => none

/-- The descriptors that a daemon has open for these slots and a peer. -/
def Daemon.holds (d : Daemon) (slots : List (Fin maxSessions)) (peer : Option Nat) : List Nat :=
  peer.toList ++ (slots.filter fun i => (d.mgr.sessions i).active).map fun i =>
    (d.mgr.sessions i).ipcFd

/-- The daemon has open what was open in `base` and what it has opened for these, each once. -/
def Daemon.Balanced (base : DescriptorTable FileObject) (slots : List (Fin maxSessions))
    (peer : Option Nat) (d : Daemon) : Prop := d.fds.Extends base (d.holds slots peer)

variable {d d' : Daemon} {base : DescriptorTable FileObject} {slots : List (Fin maxSessions)}
  {peer : Option Nat} {i : Fin maxSessions}

theorem holds_start (slots : List (Fin maxSessions)) :
    (Daemon.start (sessionMgrInit desktop cert key width height) base).holds slots none = [] := by
  have hnone : (slots.filter fun _ => false) = [] :=
    List.filter_eq_nil_iff.2 fun _ _ => Bool.false_ne_true
  exact congrArg (List.map fun _ => 0) hnone

theorem holds_congr (hs : ∀ j, (d'.mgr.sessions j).active = (d.mgr.sessions j).active ∧
      ((d.mgr.sessions j).active = true → d'.mgr.sessions j = d.mgr.sessions j)) :
    d'.holds slots peer = d.holds slots peer := by
  have hactive : (slots.filter fun j => (d'.mgr.sessions j).active) =
      slots.filter fun j => (d.mgr.sessions j).active :=
    List.filter_congr fun j _ => (hs j).1
  rw [Daemon.holds, Daemon.holds, hactive]
  congr 1
  apply List.map_congr_left
  intro j hj
  rw [(hs j).2 (List.mem_filter.1 hj).2]

/-- One more session is one more socket. -/
theorem holds_enter (peer : Option Nat) (hi : (d.mgr.sessions i).active = false)
    (ha : entry.active = true)
    (hs : ∀ j, d'.mgr.sessions j = if j = i then entry else d.mgr.sessions j) :
    (d'.holds allSlots peer).Perm (entry.ipcFd :: d.holds allSlots peer) := by
  have hperm : (allSlots.filter fun j => (d'.mgr.sessions j).active).Perm
      (i :: allSlots.filter fun j => (d.mgr.sessions j).active) := by
    apply (List.perm_ext_iff_of_nodup ((List.nodup_finRange _).filter _) ?_).2
    · intro j
      simp only [List.mem_filter, List.mem_cons, hs, allSlots, List.mem_finRange, true_and]
      by_cases hj : j = i
      · simp [hj, ha]
      · simp [hj]
    · rw [List.nodup_cons, List.mem_filter, hi]
      exact ⟨fun h => Bool.false_ne_true h.2, (List.nodup_finRange _).filter _⟩
  have hmap := hperm.map fun j => (d'.mgr.sessions j).ipcFd
  rw [List.map_cons, hs i, if_pos rfl] at hmap
  have hold : ((allSlots.filter fun j => (d.mgr.sessions j).active).map fun j =>
      (d'.mgr.sessions j).ipcFd) = (allSlots.filter fun j => (d.mgr.sessions j).active).map fun j =>
        (d.mgr.sessions j).ipcFd := by
    apply List.map_congr_left
    intro j hj
    have hji : j ≠ i := by
      rintro rfl
      rw [List.mem_filter, hi] at hj
      exact Bool.false_ne_true hj.2
    rw [hs, if_neg hji]
  rw [hold] at hmap
  exact (hmap.append_left peer.toList).trans List.perm_middle

theorem holds_cons (d : Daemon) (i : Fin maxSessions) (slots : List (Fin maxSessions)) :
    d.holds (i :: slots) none = if (d.mgr.sessions i).active then
      (d.mgr.sessions i).ipcFd :: d.holds slots none else d.holds slots none := by
  simp only [Daemon.holds, Option.toList_none, List.nil_append, List.filter_cons]
  split <;> rfl

/-! ### The registry -/

theorem Daemon.Balanced.failed (h : d.Balanced base allSlots peer)
    (he : d.admits (.getSession auth r) = true) (ha : allocSlot d.mgr = some i)
    (hf : ForkStep (d.named i username) i auth r (false, d')) :
    (d'.clear i).Balanced base allSlots peer := by
  obtain ⟨hm, _⟩ := hf.failed
  have hinactive := allocSlot_some ha
  have hholds : (d'.clear i).holds allSlots peer = d.holds allSlots peer := by
    apply holds_congr
    intro j
    by_cases hj : j = i
    · subst hj
      have hzero : (d'.clear j).mgr.sessions j = .zero := SessionMgr.sessions_setEntry_self ..
      rw [hzero, hinactive]
      exact ⟨rfl, fun h => absurd h Bool.false_ne_true⟩
    · have hsame : (d'.clear i).mgr.sessions j = d.mgr.sessions j := by
        change (d'.mgr.setEntry i .zero).sessions j = _
        rw [SessionMgr.sessions_setEntry_of_ne hj, hm]
        exact SessionMgr.sessions_setEntry_of_ne hj
      rw [hsame]
      exact ⟨rfl, fun _ => rfl⟩
  have hfds : (d'.clear i).fds = d.fds := by
    cases hf with
    | noPair => rfl
    | noFork sv₀ sv₁ hp =>
      obtain ⟨hne, h₀, h₁⟩ := admits_socketpair he hp
      exact DescriptorTable.socketpair_closed hne h₀ h₁ ..
  rw [Balanced, hholds, hfds]
  exact h

theorem Daemon.Balanced.forked (h : d.Balanced base allSlots peer)
    (he : d.admits (.getSession auth r) = true) (ha : allocSlot d.mgr = some i)
    (hf : ForkStep (d.named i username) i auth r (true, d')) :
    d'.Balanced base allSlots peer := by
  cases hf with
  | forked sv₀ sv₁ pid hp =>
    obtain ⟨hne, h₀, h₁⟩ := admits_socketpair he hp
    have henter := holds_enter peer (allocSlot_some ha) rfl
      (adopt_entries d i username auth sv₀ sv₁ pid r)
    apply DescriptorTable.Extends.perm _ henter.symm
    have hopened := h.install h₀ (.endpoint d.nextPair .daemon) true
    rw [← DescriptorTable.socketpair_close hne h₁ _ (.endpoint d.nextPair .session)] at hopened
    exact hopened

theorem Daemon.Balanced.getSession (h : d.Balanced base allSlots peer) (names : Passwd)
    (auth : AuthResult) (he : d.admits (.getSession auth r) = true) :
    (sessionMgrGetSession names d auth r).2.Balanced base allSlots peer := by
  have hstep := sessionMgrGetSession_step names d auth r
  generalize sessionMgrGetSession names d auth r = res at hstep
  cases hstep with
  | unknown | found | full => exact h
  | failed _ _ ha hf => exact h.failed he ha hf
  | forked _ _ ha hf => exact h.forked he ha hf

theorem Daemon.Balanced.logon (h : d.Balanced base allSlots peer) (identity : Identity)
    (he : d.admits (.getSession auth r.fork) = true) :
    (onPeerLogon db d identity r).2.Balanced base allSlots peer := by
  rcases logon_registry db d identity r with ⟨_, _, hsame⟩ | ⟨_, _, auth', _, _, _, hget, _⟩
  · rw [hsame]
    exact h
  · have hbalanced := h.getSession db.names auth' he
    rw [hget] at hbalanced
    exact hbalanced

theorem Daemon.Balanced.reaped (h : d.Balanced base allSlots peer) (pid : Nat) :
    (reapChild d pid).Balanced base allSlots peer := by
  have hstep := reapChild_step d pid
  generalize reapChild d pid = d' at hstep
  cases hstep with
  | stranger => exact h
  | worker i hi _ =>
    apply DescriptorTable.Extends.close
    apply DescriptorTable.Extends.perm h
    -- backwards, the entry of the worker enters a registry without it
    apply holds_enter (i := i) peer _ hi
    · intro j
      split
      · next hj => rw [hj]
      · next hj => exact (SessionMgr.sessions_setEntry_of_ne hj).symm
    · change ((d.mgr.setEntry i .zero).sessions i).active = false
      rw [SessionMgr.sessions_setEntry_self]
      rfl

/-! ### Whole runs -/

def DaemonProcess.Balanced (base : DescriptorTable FileObject) (s : DaemonProcess) : Prop :=
  s.daemon.Balanced base s.pc.holding s.pc.peer

theorem dispatchLoop_holding (nfds : Nat) :
    (dispatchLoop nfds).holding = allSlots ∧ (dispatchLoop nfds).peer = none := by
  simp only [dispatchLoop]
  split <;> exact ⟨rfl, rfl⟩

variable {db : AccountDb} {s s' : DaemonProcess} {e : DaemonInput}

/-- Steps that neither open nor close. -/
theorem DaemonProcess.Balanced.same (h : s.Balanced base) (hd : s'.daemon = s.daemon)
    (hs : s'.pc.holding = s.pc.holding) (hp : s'.pc.peer = s.pc.peer) : s'.Balanced base := by
  rw [Balanced, hd, hs, hp]
  exact h

theorem DaemonProcess.Balanced.stop (h : s.Balanced base) (hpc : s.pc = .stopping (i :: slots)) :
    (s.stop i slots).Balanced base := by
  rw [Balanced, hpc] at h
  change s.daemon.fds.Extends base (s.daemon.holds (i :: slots) none) at h
  rw [holds_cons] at h
  simp only [DaemonProcess.stop]
  split
  · next hi =>
    rw [if_pos hi] at h
    exact h.close
  · next hi =>
    rw [if_neg hi] at h
    exact h

theorem DaemonProcess.Balanced.step (db : AccountDb) (h : s.Balanced base)
    (he : s.admits e = true) : (s.step db e).Balanced base := by
  cases e with
  | workerExits | sigchld | sigterm => exact h
  | loopTest =>
    have hpc : s.pc = .test := of_decide_eq_true he
    simp only [DaemonProcess.step]
    split
    · exact h.same rfl (by rw [hpc]; rfl) (by rw [hpc]; rfl)
    · split <;> exact h.same rfl (by rw [hpc]; rfl) (by rw [hpc]; rfl)
  | waitpid pid =>
    have hpc : s.pc = .reaping := by
      cases pid <;> exact of_decide_eq_true (Bool.and_eq_true_iff.1 he).1
    cases pid with
    | none => exact h.same rfl (by rw [hpc]; rfl) (by rw [hpc]; rfl)
    | some pid =>
      change (reapChild s.daemon pid).Balanced base s.pc.holding s.pc.peer
      rw [Balanced, hpc] at h
      rw [hpc]
      exact Daemon.Balanced.reaped h pid
  | clearFlag =>
    have hpc : s.pc = .reaped := of_decide_eq_true he
    exact h.same rfl (by rw [hpc]; rfl) (by rw [hpc]; rfl)
  | epollWait r =>
    have hpc : s.pc = .waiting := of_decide_eq_true he
    cases r with
    | interrupted | failed => exact h.same rfl (by rw [hpc]; rfl) (by rw [hpc]; rfl)
    | ready nfds =>
      obtain ⟨hslots, hpeer⟩ := dispatchLoop_holding nfds
      exact h.same rfl (by rw [hpc]; exact hslots) (by rw [hpc]; exact hpeer)
  | peerAccepted peerFd =>
    simp only [DaemonProcess.admits] at he
    simp only [DaemonProcess.step]
    split
    · next hpc =>
      rw [hpc] at he
      rw [Balanced, hpc] at h
      exact DescriptorTable.Extends.install h (Option.isNone_iff_eq_none.1 he) ..
    · exact h
  | listenerChecked ok =>
    simp only [DaemonProcess.step]
    split
    · next nfds hpc =>
      obtain ⟨hslots, hpeer⟩ := dispatchLoop_holding (nfds - 1)
      exact h.same rfl (by rw [hpc]; exact hslots) (by rw [hpc]; exact hpeer)
    · exact h
  | peerLogon identity r =>
    simp only [DaemonProcess.admits] at he
    simp only [DaemonProcess.step]
    split at he
    · next hpc =>
      rw [Balanced, hpc] at h
      change (onPeerLogon db s.daemon identity r).2.Balanced base s.pc.holding s.pc.peer
      rw [hpc]
      exact Daemon.Balanced.logon h identity he
    · cases he
  | peerChecked connected =>
    simp only [DaemonProcess.step]
    split
    · next hpc =>
      split
      · exact h
      · rw [Balanced, hpc] at h
        exact DescriptorTable.Extends.close h
    · exact h
  | stopSession =>
    simp only [DaemonProcess.step]
    split
    · next hpc => exact h.stop hpc
    · next hpc => exact h.same rfl (by rw [hpc]; rfl) (by rw [hpc]; rfl)
    · exact h
  | joinSession interrupted =>
    simp only [DaemonProcess.step]
    split
    · next hpc =>
      rw [Balanced, hpc] at h
      simp only [DaemonProcess.join]
      split <;> exact h
    · next hpc =>
      rw [Balanced, hpc] at h
      exact h
    · exact h

/-- Once the daemon has stopped its sessions, only what it started with is open. -/
theorem DaemonProcess.Balanced.closed (h : s.Balanced base) (hpc : s.pc = .done) :
    s.daemon.fds = base := by
  rw [Balanced, hpc] at h
  funext fd
  exact DescriptorTable.Extends.kept h fd List.not_mem_nil

/-- While the daemon serves, its children are the workers of its sessions, one each. -/
theorem children_perm (hw : WorkersInv d) (hr : d.Registered)
    (hn : (d.children.map (·.pid)).Nodup) :
    (d.children.map (·.pid)).Perm (d.mgr.activeEntries.map (·.pid)) := by
  have hentries : (d.mgr.activeEntries.map (·.pid)).Nodup := by
    rw [SessionMgr.activeEntries, List.map_map]
    apply List.Nodup.map_on
    · intro i hi j hj hij
      exact hw.distinct i j (SessionMgr.mem_activeSlots.1 hi) (SessionMgr.mem_activeSlots.1 hj) hij
    · exact d.mgr.activeSlots_nodup
  apply (List.perm_ext_iff_of_nodup hn hentries).2
  intro pid
  simp only [SessionMgr.activeEntries, List.mem_map, SessionMgr.mem_activeSlots]
  constructor
  · rintro ⟨c, hmem, rfl⟩
    obtain ⟨i, hi, hpid⟩ := hr c hmem
    exact ⟨_, ⟨i, hi, rfl⟩, hpid⟩
  · rintro ⟨_, ⟨i, hi, rfl⟩, rfl⟩
    exact hw.owned i hi

theorem children_nodup (db : AccountDb) (hn : (s.daemon.children.map (·.pid)).Nodup)
    (he : s.admits e = true) : ((s.step db e).daemon.children.map (·.pid)).Nodup := by
  cases hx : e.isExit with
  | false => exact (daemon_children db hn he hx).nodup hn
  | true =>
    cases e with
    | workerExits pid =>
      have hpids : ((s.step db (.workerExits pid)).daemon.children.map (·.pid)) =
          s.daemon.children.map (·.pid) := by
        change (List.map _ (List.map _ _)) = _
        rw [List.map_map]
        apply List.map_congr_left
        intro c _
        rw [Function.comp_apply]
        split <;> rfl
      rw [hpids]
      exact hn
    | _ => cases hx

/-- What the daemon has open and which children it has: besides what it started with, the
socket of every session that it has not yet stopped and that of its peer, each once, and the
workers of its sessions. -/
structure DaemonProcess.Census (base : DescriptorTable FileObject) (s : DaemonProcess) : Prop where
  descriptors : s.daemon.fds.Extends base (s.daemon.holds s.pc.holding s.pc.peer)
  closed : s.pc = .done → s.daemon.fds = base
  children : s.pc.serving = true →
    (s.daemon.children.map (·.pid)).Perm (s.daemon.mgr.activeEntries.map (·.pid))

structure CensusInv (base : DescriptorTable FileObject) (s : DaemonProcess) : Prop where
  balanced : s.Balanced base
  workers : s.Inv
  registered : s.pc.serving = true → s.daemon.Registered
  pids : (s.daemon.children.map (·.pid)).Nodup

theorem CensusInv.start (base : DescriptorTable FileObject) :
    CensusInv base (.start (sessionMgrInit desktop cert key width height) base) := by
  refine ⟨?_, .start, fun _ _ hmem => (by cases hmem), List.nodup_nil⟩
  change base.Extends base ((Daemon.start _ base).holds allSlots none)
  rw [holds_start]
  exact .refl base

theorem CensusInv.step (db : AccountDb) (h : CensusInv base s) (he : s.admits e = true) :
    CensusInv base (s.step db e) :=
  ⟨h.balanced.step db he, h.workers.step he, registered_step h.registered he,
    children_nodup db h.pids he⟩

theorem CensusInv.census (h : CensusInv base s) : s.Census base :=
  ⟨h.balanced, h.balanced.closed,
    fun hs => children_perm (h.workers hs) (h.registered hs) h.pids⟩

/-- In every run the daemon neither leaks a descriptor nor closes one that it needs, and it has
no child that is not the worker of a session. -/
theorem daemon_census (db : AccountDb) (desktop cert key : CString) (width height : Int)
    (base : DescriptorTable FileObject)
    (hl : (daemonProcess db).Legal
      (.start (sessionMgrInit desktop cert key width height) base) es) :
    (daemonProcess db).Always (DaemonProcess.Census base)
      (.start (sessionMgrInit desktop cert key width height) base) es := by
  have hinv := System.always_of_legal (fun _ _ => CensusInv.step db) (CensusInv.start base) hl
  exact hinv.mono fun _ h => h.census

/-- Of two sessions one exits by itself, and the daemon then stops the other. -/
def twoSessionsEnd : List DaemonInput :=
  firstWorkerExits ++ [.waitpid none, .clearFlag, .sigterm, .epollWait .interrupted, .loopTest] ++
    List.replicate 51 .stopSession ++ [.workerExits 2] ++ List.replicate 51 (.joinSession false)

theorem daemon_census_two :
    (daemonProcess twoAccounts).Always (DaemonProcess.Census .empty) .fresh twoSessionsEnd :=
  daemon_census twoAccounts .empty .empty .empty 0 0 .empty (by decide +kernel)

end Wlrdp
