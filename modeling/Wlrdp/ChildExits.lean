import Wlrdp.CompositorSemantics
import Wlrdp.ReapingLoops
import Wlrdp.ReconnectionLiveness

namespace Wlrdp
set_option autoImplicit true

/-! ### The loop of the daemon -/

section Daemon

variable {db : AccountDb} {d : Daemon} {s : DaemonProcess}

def DaemonPc.phase : DaemonPc → ReapPhase
  | .test | .dispatching _ | .pumping _ _ => .testing
  | .reaping => .collecting
  | .reaped => .clearing
  | .waiting => .blocking
  | .stopping _ | .joining _ | .done => .stopped

/-- The daemon as a loop that collects children. -/
def DaemonProcess.reaper (s : DaemonProcess) : Reaper Nat where
  phase := s.pc.phase
  flag := s.childExited
  zombies := { pid | pid ∈ s.daemon.zombies }

/-- The steps of a collecting loop that a step of the daemon amounts to. -/
def DaemonProcess.reapEvents (s : DaemonProcess) : DaemonInput → List (ReapEvent Nat)
  | .workerExits pid => [.exit pid]
  | .sigchld => [.signal]
  | .loopTest => if s.running then [.test] else [.stop]
  | .waitpid (some pid) => [.collect pid]
  | .waitpid none => [.collected]
  | .clearFlag => [.clear]
  | .epollWait .failed => [.stop]
  | .epollWait _ => [.resume]
  | .joinSession interrupted =>
    match s.pc with
    | .joining (i :: _) =>
      if (s.daemon.mgr.sessions i).active && !interrupted then
        [.collect (s.daemon.mgr.sessions i).pid]
      else []
    | _ => []
  | _ => []

/-- Before it blocks, the daemon knows of every worker that has exited and is not reaped. -/
def DaemonProcess.Alert (s : DaemonProcess) : Prop :=
  s.pc = .waiting → s.daemon.zombies ≠ [] → s.childExited = true

instance : DecidablePred DaemonProcess.Alert := fun s =>
  inferInstanceAs (Decidable (s.pc = .waiting → s.daemon.zombies ≠ [] → s.childExited = true))

/-- No worker exits between the last `waitpid` of `session_mgr_reap` and the clearing of
`g_child_exited`. -/
def DaemonProcess.exitsInTime (s : DaemonProcess) : DaemonInput → Bool
  | .workerExits _ => s.pc ≠ .reaped
  | _ => true

theorem DaemonProcess.alert_of_reaper (h : s.reaper.Alert) : s.Alert := by
  intro hpc hne
  have hphase : s.reaper.phase = .blocking := congrArg DaemonPc.phase hpc
  exact h hphase (List.exists_mem_of_ne_nil _ hne)

theorem Reaper.ext_zombies {phase : ReapPhase} {flag : Bool} {zs zs' : Set Nat}
    (h : ∀ q, q ∈ zs ↔ q ∈ zs') : (⟨phase, flag, zs⟩ : Reaper Nat) = ⟨phase, flag, zs'⟩ := by
  rw [Set.ext h]

theorem dispatchLoop_phase (nfds : Nat) : (dispatchLoop nfds).phase = .testing := by
  simp only [dispatchLoop]
  split <;> rfl

theorem phase_clearing {pc : DaemonPc} (h : pc.phase = .clearing) : pc = .reaped := by
  cases pc with
  | reaped => rfl
  | _ => cases h

/-- Steps that are none of a collecting loop. -/
theorem reaper_idle (s s' : DaemonProcess) (hp : s'.pc.phase = s.pc.phase)
    (hf : s'.childExited = s.childExited) (hz : s'.daemon.zombies = s.daemon.zombies) :
    s.reaper = s'.reaper := by
  simp only [DaemonProcess.reaper, hp, hf, hz]

theorem reaper_collect (s s' : DaemonProcess) (hp : s'.pc.phase = s.pc.phase)
    (hf : s'.childExited = s.childExited)
    (hc : s'.daemon.children = s.daemon.children.filter (·.pid ≠ pid)) :
    s.reaper.step (.collect pid) = s'.reaper := by
  simp only [DaemonProcess.reaper, hp, hf]
  exact Reaper.ext_zombies fun q => (mem_zombies_filter hc).symm

/-- The daemon refines a collecting loop. -/
theorem daemon_refines (db : AccountDb) (he : s.admits e = true) (ht : s.exitsInTime e = true) :
    (Wlrdp.reaper Nat).Legal s.reaper (s.reapEvents e) ∧
      (Wlrdp.reaper Nat).run s.reaper (s.reapEvents e) = (s.step db e).reaper := by
  cases e with
  | workerExits pid =>
    refine ⟨⟨fun hphase => ?_, trivial⟩, ?_⟩
    · have hpc : s.pc ≠ .reaped := of_decide_eq_true ht
      exact hpc (phase_clearing hphase)
    · apply Reaper.ext_zombies
      intro q
      exact (mem_zombies_exited db.names he).symm
  | sigchld => exact ⟨⟨trivial, trivial⟩, rfl⟩
  | sigterm => exact ⟨trivial, rfl⟩
  | loopTest =>
    have hpc : s.pc = .test := of_decide_eq_true he
    simp only [DaemonProcess.reapEvents, DaemonProcess.step]
    cases hr : s.running with
    | false => exact ⟨⟨trivial, trivial⟩, rfl⟩
    | true =>
      refine ⟨⟨trivial, trivial⟩, ?_⟩
      cases hf : s.childExited <;>
        simp [DaemonProcess.reaper, Wlrdp.reaper, Reaper.step, hf, DaemonPc.phase]
  | waitpid pid =>
    have hpc : s.pc = .reaping := by
      cases pid <;> exact of_decide_eq_true (Bool.and_eq_true_iff.1 he).1
    cases pid with
    | none =>
      have hnone : s.daemon.zombies = [] := of_decide_eq_true (Bool.and_eq_true_iff.1 he).2
      refine ⟨⟨?_, trivial⟩, rfl⟩
      change { pid | pid ∈ s.daemon.zombies } = ∅
      rw [hnone]
      exact Set.eq_empty_of_forall_notMem fun q hq => List.not_mem_nil hq
    | some pid => exact ⟨⟨trivial, trivial⟩, reaper_collect s _ rfl rfl (reapChild_children ..)⟩
  | clearFlag =>
    have hpc : s.pc = .reaped := of_decide_eq_true he
    have hphase : s.pc.phase = .clearing := congrArg DaemonPc.phase hpc
    exact ⟨⟨hphase, trivial⟩, rfl⟩
  | epollWait r =>
    cases r with
    | interrupted => exact ⟨⟨trivial, trivial⟩, rfl⟩
    | failed => exact ⟨⟨trivial, trivial⟩, rfl⟩
    | ready nfds =>
      refine ⟨⟨trivial, trivial⟩, ?_⟩
      change Reaper.mk .testing s.childExited _ =
        Reaper.mk (dispatchLoop nfds).phase s.childExited _
      rw [dispatchLoop_phase]
      rfl
  | peerAccepted peerFd =>
    simp only [DaemonProcess.step]
    split
    · next hpc => exact ⟨trivial, reaper_idle s _ (by rw [hpc]; rfl) rfl rfl⟩
    · exact ⟨trivial, rfl⟩
  | listenerChecked ok =>
    simp only [DaemonProcess.step]
    split
    · next hpc =>
      exact ⟨trivial, reaper_idle s _ (by rw [hpc, dispatchLoop_phase]; rfl) rfl rfl⟩
    · exact ⟨trivial, rfl⟩
  | peerLogon identity r =>
    simp only [DaemonProcess.step]
    split
    · exact ⟨trivial, reaper_idle s _ rfl rfl (logon_zombies db s.daemon identity r)⟩
    · exact ⟨trivial, rfl⟩
  | peerChecked connected =>
    simp only [DaemonProcess.step]
    split
    · next hpc =>
      split
      · exact ⟨trivial, rfl⟩
      · exact ⟨trivial, reaper_idle s _ (by rw [hpc]; rfl) rfl rfl⟩
    · exact ⟨trivial, rfl⟩
  | stopSession =>
    simp only [DaemonProcess.step]
    split
    · next hpc =>
      simp only [DaemonProcess.stop]
      split <;> exact ⟨trivial, reaper_idle s _ (by rw [hpc]; rfl) rfl rfl⟩
    · next hpc => exact ⟨trivial, reaper_idle s _ (by rw [hpc]; rfl) rfl rfl⟩
    · exact ⟨trivial, rfl⟩
  | joinSession interrupted =>
    simp only [DaemonProcess.step, DaemonProcess.reapEvents]
    cases hpc : s.pc with
    | joining slots =>
      cases slots with
      | nil => exact ⟨trivial, reaper_idle s _ (by rw [hpc]; rfl) rfl rfl⟩
      | cons i slots =>
        simp only [DaemonProcess.join]
        split
        · exact ⟨⟨trivial, trivial⟩, reaper_collect s _ (by rw [hpc]; rfl) rfl rfl⟩
        · exact ⟨trivial, reaper_idle s _ (by rw [hpc]; rfl) rfl rfl⟩
    | _ => exact ⟨trivial, rfl⟩

theorem daemon_alert (hl : (daemonProcess db).Legal (.start mgr fds) es)
    (ht : (daemonProcess db).Along (fun s e => s.exitsInTime e = true) (.start mgr fds) es) :
    (daemonProcess db).Always DaemonProcess.Alert (.start mgr fds) es := by
  have halways := alert_of_refines (S := daemonProcess db) (I := fun _ => True)
    DaemonProcess.reaper DaemonProcess.reapEvents (fun _ _ _ _ => trivial)
    (fun s e _ h => daemon_refines db h.1 h.2) trivial ?_ (System.Along.and hl ht)
  · exact halways.mono fun _ => DaemonProcess.alert_of_reaper
  · refine ⟨?_, fun hp => by cases hp⟩
    rintro ⟨q, hq⟩
    exact absurd hq List.not_mem_nil

end Daemon

/-! ### The loop of the session worker -/

section Session

variable {s : SessionProcess}

def SessionPc.phase : SessionPc → ReapPhase
  | .test | .dispatching => .testing
  | .collecting => .collecting
  | .clearing => .clearing
  | .waiting => .blocking
  | _ => .stopped

/-- The session worker as a loop that collects children. -/
def SessionProcess.reaper (s : SessionProcess) : Reaper Nat where
  phase := s.pc.phase
  flag := s.childExited
  zombies := { pid | pid ∈ s.zombies }

/-- The steps of a collecting loop that a step of the session worker amounts to. Its one child is
the compositor, whose exit ends the loop. -/
def SessionProcess.reapEvents (s : SessionProcess) : SessionInput → List (ReapEvent Nat)
  | .childExits pid => [.exit pid]
  | .sigchld => [.signal]
  | .initialized .entered => [.resume]
  | .loopTest => if s.running then [.test] else [.stop]
  | .waitpid (some pid) => [.collect pid, .stop]
  | .waitpid none => [.collected]
  | .clearFlag => [.clear]
  | .epollWait failed => if failed then [.stop] else [.resume]
  | .poll (some pid) => [.collect pid, .stop]
  | .join interrupted => if interrupted then [.stop] else [.collect s.compPid, .stop]
  | _ => []

/-- Before it blocks, the session worker knows of a child that has exited and is not reaped. -/
def SessionProcess.Alert (s : SessionProcess) : Prop :=
  s.pc = .waiting → s.zombies ≠ [] → s.childExited = true

instance : DecidablePred SessionProcess.Alert := fun s =>
  inferInstanceAs (Decidable (s.pc = .waiting → s.zombies ≠ [] → s.childExited = true))

/-- No child exits between the `waitpid` of the main loop and the clearing of
`g_child_exited`. -/
def SessionProcess.exitsInTime (s : SessionProcess) : SessionInput → Bool
  | .childExits _ => s.pc ≠ .clearing
  | _ => true

/-- The compositor is the only child, up to the end. -/
structure SessionProcess.Inv (s : SessionProcess) : Prop where
  childless : s.pc = .launching → s.children = []
  owned : s.pc ≠ .done → ∀ c ∈ s.children, c.pid = s.compPid

theorem SessionProcess.Inv.start : SessionProcess.start.Inv :=
  ⟨fun _ => rfl, fun _ _ hc => absurd hc List.not_mem_nil⟩

theorem SessionProcess.destroy_pc (s : SessionProcess) :
    s.destroy.pc = .done ∨ s.destroy.pc = .terminating := by
  simp only [SessionProcess.destroy]
  split
  · exact .inl rfl
  · exact .inr rfl

theorem SessionProcess.destroy_phase (s : SessionProcess) : s.destroy.pc.phase = .stopped := by
  rcases s.destroy_pc with hpc | hpc <;> rw [hpc] <;> rfl

theorem SessionProcess.destroy_children (s : SessionProcess) :
    s.destroy.children = s.children ∧ s.destroy.compPid = s.compPid := by
  simp only [SessionProcess.destroy]
  split <;> exact ⟨rfl, rfl⟩

theorem SessionProcess.destroy_childExited (s : SessionProcess) :
    s.destroy.childExited = s.childExited := by
  simp only [SessionProcess.destroy]
  split <;> rfl

/-- A step that keeps the children or loses some, behind the launch. -/
theorem SessionProcess.Inv.narrow {s' : SessionProcess} (h : s.Inv) (hpc : s.pc = l)
    (hd : l ≠ .done) (hl : s'.pc ≠ .launching) (hsub : ∀ c ∈ s'.children, c ∈ s.children)
    (hcomp : s'.compPid = s.compPid) : s'.Inv := by
  refine ⟨fun hl' => absurd hl' hl, fun _ c hc => ?_⟩
  rw [hcomp]
  exact h.owned (hpc ▸ hd) c (hsub c hc)

theorem SessionProcess.Inv.destroyed (h : s.Inv) (hpc : s.pc = l) (hd : l ≠ .done) :
    s.destroy.Inv := by
  obtain ⟨hchildren, hcomp⟩ := s.destroy_children
  refine h.narrow hpc hd ?_ (fun c hc => hchildren ▸ hc) hcomp
  rcases s.destroy_pc with h' | h' <;> rw [h'] <;> intro h'' <;> cases h''

theorem SessionProcess.Inv.ended {s' : SessionProcess} (hpc : s'.pc = .done) : s'.Inv := by
  refine ⟨fun hl => ?_, fun hd => absurd hpc hd⟩
  rw [hpc] at hl
  cases hl

/-- Where the main function is when an event happens. -/
def SessionPc.At (pc : SessionPc) : SessionInput → Prop
  | .childExits _ | .sigchld | .sigterm => True
  | .fork _ => pc = .launching
  | .displayReady _ => pc = .awaitingDisplay
  | .initialized _ => pc = .initializing
  | .loopTest => pc = .test
  | .waitpid _ => pc = .collecting
  | .clearFlag => pc = .clearing
  | .epollWait _ => pc = .waiting
  | .dispatched _ => pc = .dispatching
  | .peersFreed => pc = .cleanup
  | .kill => pc = .terminating ∨ pc = .killing
  | .poll _ => ∃ left, pc = .polling (left + 1)
  | .join _ => pc = .joining

theorem SessionProcess.admits_pc (he : s.admits e = true) : s.pc.At e := by
  cases e with
  | childExits | sigchld | sigterm => trivial
  | waitpid pid =>
    cases pid <;>
    · simp only [SessionProcess.admits, Bool.and_eq_true, decide_eq_true_eq] at he
      exact he.1
  | kill => exact (Bool.or_eq_true_iff.1 he).imp of_decide_eq_true of_decide_eq_true
  | poll =>
    simp only [SessionProcess.admits] at he
    split at he
    · next left hpc => exact ⟨left, hpc⟩
    · cases he
  | fork | join =>
    simp only [SessionProcess.admits, Bool.and_eq_true, decide_eq_true_eq] at he
    exact he.1
  | _ =>
    simp only [SessionProcess.admits, decide_eq_true_eq] at he
    exact he

theorem SessionProcess.Inv.step (h : s.Inv) (he : s.admits e = true) : (s.step e).Inv := by
  have hpc : s.pc.At e := SessionProcess.admits_pc he
  cases e with
  | childExits pid =>
    constructor
    · intro hl
      simp only [SessionProcess.step, h.childless hl, List.map_nil]
    · intro hd c hc
      obtain ⟨c, hmem, rfl⟩ := List.mem_map.1 hc
      have howned := h.owned hd c hmem
      split <;> exact howned
  | sigchld => exact ⟨h.childless, h.owned⟩
  | sigterm => exact ⟨h.childless, h.owned⟩
  | fork pid =>
    cases pid with
    | none => exact .ended rfl
    | some pid =>
      refine ⟨nofun, fun _ c hc => ?_⟩
      rw [SessionProcess.step, h.childless hpc] at hc
      rw [List.mem_singleton.1 hc]
      rfl
  | displayReady ok =>
    simp only [SessionProcess.step]
    split
    · exact h.narrow hpc nofun nofun (fun _ hc => hc) rfl
    · exact h.destroyed hpc nofun
  | initialized r =>
    cases r with
    | returned => exact h.destroyed hpc nofun
    | _ => exact h.narrow hpc nofun nofun (fun _ hc => hc) rfl
  | loopTest =>
    simp only [SessionProcess.step]
    split
    · exact h.narrow hpc nofun nofun (fun _ hc => hc) rfl
    · split <;> exact h.narrow hpc nofun nofun (fun _ hc => hc) rfl
  | waitpid pid =>
    cases pid with
    | none => exact h.narrow hpc nofun nofun (fun _ hc => hc) rfl
    | some pid =>
      refine h.narrow hpc nofun ?_ (fun _ hc => List.mem_of_mem_filter hc) rfl
      simp only [SessionProcess.step]
      split <;> nofun
  | clearFlag =>
    exact h.narrow hpc nofun nofun (fun _ hc => hc) rfl
  | epollWait failed =>
    refine h.narrow hpc nofun ?_ (fun _ hc => hc) rfl
    simp only [SessionProcess.step]
    split <;> nofun
  | dispatched fatal =>
    exact h.narrow hpc nofun nofun (fun _ hc => hc) rfl
  | peersFreed =>
    exact h.destroyed hpc nofun
  | kill =>
    have hl : (s.step .kill).pc ≠ .launching := by
      simp only [SessionProcess.step]
      split <;> nofun
    rcases hpc with hpc | hpc
    · exact h.narrow hpc nofun hl (fun _ hc => hc) rfl
    · exact h.narrow hpc nofun hl (fun _ hc => hc) rfl
  | poll pid =>
    cases pid with
    | some => exact .ended rfl
    | none =>
      obtain ⟨left, hpc⟩ := hpc
      simp only [SessionProcess.step, hpc]
      refine h.narrow hpc nofun ?_ (fun _ hc => hc) rfl
      dsimp only
      split <;> nofun
  | join => exact .ended rfl

theorem SessionProcess.alert_of_reaper (h : s.reaper.Alert) : s.Alert := by
  intro hpc hne
  have hphase : s.reaper.phase = .blocking := congrArg SessionPc.phase hpc
  exact h hphase (List.exists_mem_of_ne_nil _ hne)

theorem SessionPc.phase_clearing {pc : SessionPc} (h : pc.phase = .clearing) : pc = .clearing := by
  cases pc with
  | clearing => rfl
  | _ => cases h

/-- Steps that only move a loop on, and steps that are none of it. -/
theorem session_moves (s s' : SessionProcess) (r : Reaper Nat) (hp : s'.pc.phase = r.phase)
    (hf : s'.childExited = r.flag) (hr : r.zombies = s.reaper.zombies)
    (hz : s'.zombies = s.zombies) : r = s'.reaper := by
  obtain ⟨phase, flag, zombies⟩ := r
  subst hp hf hr
  simp only [SessionProcess.reaper, hz]

theorem session_collects (s s' : SessionProcess) (hp : s'.pc.phase = .stopped)
    (hf : s'.childExited = s.childExited)
    (hc : s'.children = s.children.filter (·.pid ≠ pid)) :
    (s.reaper.step (.collect pid)).step .stop = s'.reaper := by
  simp only [SessionProcess.reaper, Reaper.step, hp, hf]
  apply Reaper.ext_zombies
  intro q
  simp only [Set.mem_sdiff, Set.mem_ofPred_eq, Set.mem_singleton_iff, SessionProcess.zombies,
    mem_zombie_pids, hc]
  exact zombie_filter_ne.symm

theorem session_destroyed (hphase : s.pc.phase = .stopped) : s.reaper = s.destroy.reaper := by
  have hzombies : s.destroy.zombies = s.zombies := by
    rw [SessionProcess.zombies, s.destroy_children.1]
    rfl
  exact session_moves s _ _ (s.destroy_phase.trans hphase.symm) s.destroy_childExited rfl hzombies

theorem SessionProcess.Inv.zombie (h : s.Inv) (hpc : s.pc ≠ .done) (hz : pid ∈ s.zombies) :
    pid = s.compPid := by
  obtain ⟨c, hmem, _, rfl⟩ := mem_zombie_pids.1 hz
  exact h.owned hpc c hmem

theorem SessionProcess.mem_zombies_exited (he : s.admits (.childExits pid) = true) :
    q ∈ (s.step (.childExits pid)).zombies ↔ q = pid ∨ q ∈ s.zombies := by
  simp only [SessionProcess.zombies, SessionProcess.step, mem_zombie_pids]
  exact zombie_map_exit (fun _ => rfl) (fun _ => rfl) (exists_pid he)

/-- The session worker refines a collecting loop. -/
theorem session_refines (h : s.Inv) (he : s.admits e = true) (ht : s.exitsInTime e = true) :
    (Wlrdp.reaper Nat).Legal s.reaper (s.reapEvents e) ∧
      (Wlrdp.reaper Nat).run s.reaper (s.reapEvents e) = (s.step e).reaper := by
  have hpc : s.pc.At e := SessionProcess.admits_pc he
  cases e with
  | childExits pid =>
    refine ⟨⟨fun hphase => ?_, trivial⟩, ?_⟩
    · have hne : s.pc ≠ .clearing := of_decide_eq_true ht
      exact hne (SessionPc.phase_clearing hphase)
    · apply Reaper.ext_zombies
      intro q
      exact (SessionProcess.mem_zombies_exited he).symm
  | sigchld => exact ⟨⟨trivial, trivial⟩, rfl⟩
  | sigterm => exact ⟨trivial, rfl⟩
  | fork pid =>
    have hphase : s.pc.phase = .stopped := congrArg SessionPc.phase hpc
    refine ⟨trivial, ?_⟩
    cases pid with
    | none => exact session_moves s _ _ hphase.symm rfl rfl rfl
    | some pid => exact session_moves s _ _ hphase.symm rfl rfl rfl
  | displayReady ok =>
    have hphase : s.pc.phase = .stopped := congrArg SessionPc.phase hpc
    refine ⟨trivial, ?_⟩
    cases ok with
    | true => exact session_moves s _ _ hphase.symm rfl rfl rfl
    | false => exact session_destroyed hphase
  | initialized r =>
    have hphase : s.pc.phase = .stopped := congrArg SessionPc.phase hpc
    cases r with
    | entered => exact ⟨⟨trivial, trivial⟩, rfl⟩
    | returned => exact ⟨trivial, session_destroyed hphase⟩
    | cleanedUp => exact ⟨trivial, session_moves s _ _ hphase.symm rfl rfl rfl⟩
  | loopTest =>
    simp only [SessionProcess.reapEvents, SessionProcess.step]
    cases hr : s.running with
    | false => exact ⟨⟨trivial, trivial⟩, rfl⟩
    | true =>
      refine ⟨⟨trivial, trivial⟩, ?_⟩
      refine session_moves s _ _ ?_ ?_ rfl ?_
      · cases hf : s.childExited <;>
          simp [SessionProcess.reaper, Wlrdp.reaper, Reaper.step, hf, SessionPc.phase]
      · cases hf : s.childExited <;>
          simp [SessionProcess.reaper, Wlrdp.reaper, Reaper.step, hf]
      · cases s.childExited <;> rfl
  | waitpid pid =>
    cases pid with
    | none =>
      have hnone : s.zombies = [] := of_decide_eq_true (Bool.and_eq_true_iff.1 he).2
      refine ⟨⟨?_, trivial⟩, rfl⟩
      change { pid | pid ∈ s.zombies } = ∅
      rw [hnone]
      exact Set.eq_empty_of_forall_notMem fun q hq => List.not_mem_nil hq
    | some pid =>
      have hd : s.pc ≠ .done := fun h => by cases (show s.pc = _ from hpc).symm.trans h
      have hz : pid ∈ s.zombies := of_decide_eq_true (Bool.and_eq_true_iff.1 he).2
      have hcomp : pid = s.compPid := h.zombie hd hz
      refine ⟨⟨trivial, trivial, trivial⟩, ?_⟩
      exact session_collects s _ (by rw [SessionProcess.step, if_pos hcomp]; rfl) rfl rfl
  | clearFlag =>
    have hphase : s.pc.phase = .clearing := congrArg SessionPc.phase hpc
    exact ⟨⟨hphase, trivial⟩, rfl⟩
  | epollWait failed => cases failed <;> exact ⟨⟨trivial, trivial⟩, rfl⟩
  | dispatched fatal =>
    have hphase : s.pc.phase = .testing := congrArg SessionPc.phase hpc
    exact ⟨trivial, session_moves s _ _ hphase.symm rfl rfl rfl⟩
  | peersFreed =>
    have hphase : s.pc.phase = .stopped := congrArg SessionPc.phase hpc
    exact ⟨trivial, session_destroyed hphase⟩
  | kill =>
    have hphase : s.pc.phase = .stopped :=
      hpc.elim (congrArg SessionPc.phase) (congrArg SessionPc.phase)
    refine ⟨trivial, session_moves s _ _ ?_ rfl rfl rfl⟩
    rw [SessionProcess.step]
    split <;> exact hphase.symm
  | poll pid =>
    cases pid with
    | some pid => exact ⟨⟨trivial, trivial, trivial⟩, session_collects s _ rfl rfl rfl⟩
    | none =>
      obtain ⟨left, hpc⟩ := hpc
      simp only [SessionProcess.step, hpc]
      refine ⟨trivial, session_moves s _ _ ?_ rfl rfl rfl⟩
      change (if left = 0 then SessionPc.killing else .polling left).phase = s.pc.phase
      rw [hpc]
      split <;> rfl
  | join interrupted =>
    cases interrupted with
    | true => exact ⟨⟨trivial, trivial⟩, rfl⟩
    | false => exact ⟨⟨trivial, trivial, trivial⟩, session_collects s _ rfl rfl rfl⟩

theorem session_alert (hl : sessionProcess.Legal .start es)
    (ht : sessionProcess.Along (fun s e => s.exitsInTime e = true) .start es) :
    sessionProcess.Always SessionProcess.Alert .start es := by
  have halways := alert_of_refines (S := sessionProcess) SessionProcess.reaper
    SessionProcess.reapEvents (fun s e hs h => hs.step h.1)
    (fun s e hs h => session_refines hs h.1 h.2) .start ?_ (System.Along.and hl ht)
  · exact halways.mono fun _ => SessionProcess.alert_of_reaper
  · refine ⟨?_, fun hp => by cases hp⟩
    rintro ⟨q, hq⟩
    exact absurd hq List.not_mem_nil

end Session

/-- When no child exits between the last `waitpid` and the clearing of the flag, neither loop
blocks on an exit that it has not noticed. -/
theorem no_exit_lost (db : AccountDb) (mgr : SessionMgr) (fds : DescriptorTable FileObject) :
    (∀ es, (daemonProcess db).Legal (.start mgr fds) es →
        (daemonProcess db).Along (fun s e => s.exitsInTime e = true) (.start mgr fds) es →
        (daemonProcess db).Always DaemonProcess.Alert (.start mgr fds) es) ∧
      ∀ es, sessionProcess.Legal .start es →
        sessionProcess.Along (fun s e => s.exitsInTime e = true) .start es →
        sessionProcess.Always SessionProcess.Alert .start es :=
  ⟨fun _ => daemon_alert, fun _ => session_alert⟩

/-! ### Exits before and behind the last `waitpid` -/

/-- Two users, whose names are of lengths 1 and 2. -/
def twoAccounts : AccountDb :=
  ⟨[⟨.repeated 1, 1000, 1000, .repeated 2, .repeated 3⟩,
    ⟨.repeated 2, 1001, 1001, .repeated 2, .repeated 3⟩], []⟩

/-- A user connects, logs on and leaves. -/
def visitOf (user peerFd sv₀ sv₁ pid : Nat) : List DaemonInput :=
  [.loopTest, .epollWait (.ready 1), .peerAccepted peerFd,
    .peerLogon (.of (.repeated user) (.repeated 8)) (.working sv₀ sv₁ pid), .peerChecked false,
    .listenerChecked true]

/-- Both users log on, and the worker of the first exits. -/
def firstWorkerExits : List DaemonInput :=
  visitOf 1 10 3 4 1 ++ visitOf 2 11 5 6 2 ++ [.workerExits 1, .loopTest, .waitpid (some 1)]

/-- The session worker finds a stopped compositor behind a signal. -/
def compositorStops : List SessionInput :=
  [.fork (some 7), .displayReady true, .initialized .entered, .sigchld, .loopTest]

theorem timely_exits_noticed :
    (daemonProcess twoAccounts).Always DaemonProcess.Alert .fresh
        (firstWorkerExits ++ [.workerExits 2, .waitpid (some 2), .waitpid none, .clearFlag]) ∧
      sessionProcess.Always SessionProcess.Alert .start
        (compositorStops ++ [.waitpid none, .clearFlag, .childExits 7]) :=
  ⟨(no_exit_lost twoAccounts _ _).1 _ (by decide +kernel) (by decide +kernel),
    (no_exit_lost twoAccounts (sessionMgrInit .empty .empty .empty 0 0) .empty).2 _
      (by decide +kernel) (by decide +kernel)⟩

/-- An exit behind the last `waitpid` is lost, in the daemon and in the session worker. -/
theorem late_exits_lost :
    ((daemonProcess twoAccounts).Legal .fresh
          (firstWorkerExits ++ [.waitpid none, .workerExits 2, .clearFlag]) ∧
        ¬ (daemonProcess twoAccounts).Always DaemonProcess.Alert .fresh
          (firstWorkerExits ++ [.waitpid none, .workerExits 2, .clearFlag])) ∧
      sessionProcess.Legal .start
          (compositorStops ++ [.waitpid none, .childExits 7, .clearFlag]) ∧
        ¬ sessionProcess.Always SessionProcess.Alert .start
          (compositorStops ++ [.waitpid none, .childExits 7, .clearFlag]) := by
  decide +kernel

end Wlrdp
