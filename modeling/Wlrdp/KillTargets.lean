import Wlrdp.ChildExits

namespace Wlrdp
set_option autoImplicit true

/-! ### The daemon -/

/-- The step kills only an unreaped child of the daemon. -/
def DaemonProcess.killsChild (s : DaemonProcess) (e : DaemonInput) : Bool :=
  (s.kills e).all fun pid => s.daemon.children.any (·.pid = pid)

theorem daemon_kills {s : DaemonProcess} (h : s.Inv) : s.killsChild e = true := by
  rw [DaemonProcess.killsChild, Option.all_eq_true]
  intro pid hpid
  cases e with
  | stopSession =>
    simp only [DaemonProcess.kills] at hpid
    split at hpid
    · next i slots hpc =>
      have hserving : s.pc.serving = true := by rw [hpc]; rfl
      split at hpid
      · next hactive =>
        cases hpid
        obtain ⟨c, hmem, hc⟩ := (h hserving).owned i hactive
        exact List.any_eq_true.2 ⟨c, hmem, decide_eq_true hc⟩
      · cases hpid
    · cases hpid
  | _ => cases hpid

theorem daemon_kills_along {s : DaemonProcess} (h : s.Inv) (hl : (daemonProcess db).Legal s es) :
    (daemonProcess db).Along (fun s e => s.killsChild e = true) s es :=
  System.along_of_step (fun _ _ => DaemonProcess.Inv.step) (fun _ _ hs _ => daemon_kills hs) h hl

/-! ### The session worker -/

section Session

variable {s : SessionProcess}

/-- The step kills only an unreaped child of the session worker. -/
def SessionProcess.killsChild (s : SessionProcess) (e : SessionInput) : Bool :=
  (s.kills e).all (· ∈ s.unreaped)

/-- The `waitpid` of the main loop does not find the compositor exited. -/
def SessionProcess.compositorUp (s : SessionProcess) : SessionInput → Bool
  | .waitpid _ => s.compPid ∉ s.zombies
  | _ => true

/-- The main function is between the launch and the end of `compositor_destroy`. -/
def SessionPc.launched : SessionPc → Bool
  | .launching | .done => false
  | _ => true

/-- While the session worker knows of a compositor, it is a child that is not reaped. -/
structure SessionProcess.Holding (s : SessionProcess) : Prop where
  inv : s.Inv
  held : s.pc.launched = true → s.compPid ∈ s.unreaped
  positive : s.pc.launched = true → 0 < s.compPid

theorem SessionProcess.Holding.start : SessionProcess.start.Holding := ⟨.start, nofun, nofun⟩

/-- Steps that reap no child. -/
theorem SessionProcess.Holding.keep {s' : SessionProcess} (h : s.Holding) (hinv : s'.Inv)
    (hpc : s'.pc.launched = true → s.pc.launched = true) (hcomp : s'.compPid = s.compPid)
    (hsub : s'.unreaped = s.unreaped) : s'.Holding := by
  refine ⟨hinv, fun hl => ?_, fun hl => ?_⟩
  · rw [hcomp, hsub]
    exact h.held (hpc hl)
  · rw [hcomp]
    exact h.positive (hpc hl)

theorem SessionProcess.Holding.ended {s' : SessionProcess} (hinv : s'.Inv) (hpc : s'.pc = .done) :
    s'.Holding := by
  have hl (h : s'.pc.launched = true) : False := by
    rw [hpc] at h
    cases h
  exact ⟨hinv, fun h => (hl h).elim, fun h => (hl h).elim⟩

theorem unreaped_exited (s : SessionProcess) (pid : Nat) :
    (s.step (.childExits pid)).unreaped = s.unreaped := by
  simp only [SessionProcess.unreaped, SessionProcess.step, List.map_map]
  apply List.map_congr_left
  intro c _
  simp only [Function.comp_apply]
  split <;> rfl

theorem destroy_unreaped (s : SessionProcess) : s.destroy.unreaped = s.unreaped := by
  rw [SessionProcess.unreaped, s.destroy_children.1]
  rfl

theorem SessionProcess.Holding.step (h : s.Holding) (he : s.admits e = true)
    (hup : s.compositorUp e = true) : (s.step e).Holding := by
  have hinv := h.inv.step he
  have hpc : s.pc.At e := SessionProcess.admits_pc he
  cases e with
  | childExits pid => exact h.keep hinv id rfl (unreaped_exited s pid)
  | sigchld => exact h.keep hinv id rfl rfl
  | sigterm => exact h.keep hinv id rfl rfl
  | fork pid =>
    cases pid with
    | none => exact .ended hinv rfl
    | some pid =>
      simp only [SessionProcess.admits, Bool.and_eq_true, Option.all_some, decide_eq_true_eq] at he
      exact ⟨hinv, fun _ => List.mem_cons_self, fun _ => he.2.1⟩
  | waitpid pid =>
    have hl : s.pc.launched = true := congrArg SessionPc.launched hpc
    cases pid with
    | none => exact h.keep hinv (fun _ => hl) rfl rfl
    | some pid =>
      have hd : s.pc ≠ .done := fun h => by cases (show s.pc = _ from hpc).symm.trans h
      have hz : pid ∈ s.zombies := of_decide_eq_true (Bool.and_eq_true_iff.1 he).2
      have hcomp : pid = s.compPid := h.inv.zombie hd hz
      exact absurd (hcomp ▸ hz) (of_decide_eq_true hup)
  | displayReady ok =>
    have hl : s.pc.launched = true := congrArg SessionPc.launched hpc
    cases ok with
    | true => exact h.keep hinv (fun _ => hl) rfl rfl
    | false => exact h.keep hinv (fun _ => hl) s.destroy_children.2 (destroy_unreaped s)
  | initialized r =>
    have hl : s.pc.launched = true := congrArg SessionPc.launched hpc
    cases r with
    | returned => exact h.keep hinv (fun _ => hl) s.destroy_children.2 (destroy_unreaped s)
    | _ => exact h.keep hinv (fun _ => hl) rfl rfl
  | peersFreed =>
    have hl : s.pc.launched = true := congrArg SessionPc.launched hpc
    exact h.keep hinv (fun _ => hl) s.destroy_children.2 (destroy_unreaped s)
  | loopTest =>
    have hl : s.pc.launched = true := congrArg SessionPc.launched hpc
    refine h.keep hinv (fun _ => hl) ?_ ?_
    · cases hr : s.running <;> cases hf : s.childExited <;> simp [SessionProcess.step, hr, hf]
    · cases hr : s.running <;> cases hf : s.childExited <;>
        simp [SessionProcess.step, SessionProcess.unreaped, hr, hf]
  | clearFlag | epollWait | dispatched =>
    have hl : s.pc.launched = true := congrArg SessionPc.launched hpc
    exact h.keep hinv (fun _ => hl) rfl rfl
  | kill =>
    have hl : s.pc.launched = true :=
      hpc.elim (congrArg SessionPc.launched) (congrArg SessionPc.launched)
    exact h.keep hinv (fun _ => hl) rfl rfl
  | poll pid =>
    cases pid with
    | some pid => exact .ended hinv rfl
    | none =>
      obtain ⟨left, hpc⟩ := hpc
      have hl : s.pc.launched = true := congrArg SessionPc.launched hpc
      refine h.keep hinv (fun _ => hl) ?_ ?_
      · rw [SessionProcess.step, hpc]
      · rw [SessionProcess.step, hpc]
        rfl
  | join => exact .ended hinv rfl

theorem session_kills (h : s.Holding) (he : s.admits e = true) : s.killsChild e = true := by
  cases e with
  | kill =>
    have hl : s.pc.launched = true :=
      (SessionProcess.admits_pc he).elim (congrArg SessionPc.launched) (congrArg SessionPc.launched)
    exact decide_eq_true (h.held hl)
  | _ => rfl

/-- The main function is on its way to kill a compositor that is reaped. -/
structure SessionProcess.Doomed (s : SessionProcess) : Prop where
  pc : s.pc = .cleanup ∨ s.pc = .terminating
  positive : 0 < s.compPid
  reaped : s.compPid ∉ s.unreaped

theorem SessionProcess.Doomed.step (h : s.Doomed) (he : s.admits e = true)
    (hk : s.killsChild e = true) : (s.step e).Doomed := by
  have hat : s.pc.At e := SessionProcess.admits_pc he
  cases e with
  | childExits pid =>
    refine ⟨h.pc, h.positive, ?_⟩
    rw [unreaped_exited]
    exact h.reaped
  | sigchld => exact ⟨h.pc, h.positive, h.reaped⟩
  | sigterm => exact ⟨h.pc, h.positive, h.reaped⟩
  | peersFreed =>
    have hdestroy : s.destroy = { s with pc := .terminating } := by
      rw [SessionProcess.destroy, if_neg (Nat.ne_of_gt h.positive)]
    rw [SessionProcess.step, hdestroy]
    exact ⟨.inr rfl, h.positive, h.reaped⟩
  | kill => exact absurd (of_decide_eq_true hk) h.reaped
  | poll =>
    obtain ⟨left, hat⟩ := hat
    rcases h.pc with hpc | hpc <;> cases hpc.symm.trans hat
  | _ => rcases h.pc with hpc | hpc <;> cases hpc.symm.trans hat

/-- No run from there ends well. -/
theorem SessionProcess.Doomed.not_done (h : s.Doomed) (hl : sessionProcess.Legal s es)
    (hk : sessionProcess.Along (fun s e => s.killsChild e = true) s es) :
    (sessionProcess.run s es).pc ≠ .done := by
  have hlast : (sessionProcess.run s es).Doomed :=
    (System.always_of_step (S := sessionProcess) (fun _ _ hs hc => hs.step hc.1 hc.2) h
      (System.Along.and hl hk)).last
  rcases hlast.pc with hpc | hpc <;> rw [hpc] <;> nofun

theorem SessionProcess.Holding.doomed (h : s.Holding) (he : s.admits e = true)
    (hdown : s.compositorUp e = false) : (s.step e).Doomed := by
  cases e with
  | waitpid pid =>
    have hpc : s.pc = .collecting := SessionProcess.admits_pc he
    have hl : s.pc.launched = true := congrArg SessionPc.launched hpc
    have hdead : s.compPid ∈ s.zombies := by
      simpa [SessionProcess.compositorUp] using hdown
    cases pid with
    | none =>
      have hnone : s.zombies = [] := of_decide_eq_true (Bool.and_eq_true_iff.1 he).2
      rw [hnone] at hdead
      cases hdead
    | some pid =>
      have hd : s.pc ≠ .done := by rw [hpc]; nofun
      have hz : pid ∈ s.zombies := of_decide_eq_true (Bool.and_eq_true_iff.1 he).2
      have hcomp : pid = s.compPid := h.inv.zombie hd hz
      refine ⟨.inl (if_pos hcomp), h.positive hl, ?_⟩
      rw [SessionProcess.step, hcomp]
      simp [SessionProcess.unreaped, SessionProcess.reap]
  | _ => cases hdown

theorem session_kills_iff (h : s.Holding) (hl : sessionProcess.Legal s es)
    (hdone : (sessionProcess.run s es).pc = .done) :
    sessionProcess.Along (fun s e => s.killsChild e = true) s es ↔
      sessionProcess.Along (fun s e => s.compositorUp e = true) s es := by
  induction es generalizing s with
  | nil => exact Iff.rfl
  | cons e es ih =>
    by_cases hup : s.compositorUp e = true
    · have hnext := h.step hl.1 hup
      exact and_congr (iff_of_true (session_kills h hl.1) hup) (ih hnext hl.2 hdone)
    · have hdoomed := h.doomed hl.1 (Bool.eq_false_of_not_eq_true hup)
      refine iff_of_false (fun hk => ?_) fun hc => hup hc.1
      exact hdoomed.not_done hl.2 hk.2 hdone

theorem session_kills_of_up (h : s.Holding) (hl : sessionProcess.Legal s es)
    (hup : sessionProcess.Along (fun s e => s.compositorUp e = true) s es) :
    sessionProcess.Along (fun s e => s.killsChild e = true) s es :=
  System.along_of_step (fun _ _ hs h => hs.step h.1 h.2) (fun _ _ hs h => session_kills hs h.1) h
    (System.Along.and hl hup)

end Session

/-- The daemon kills only its unreaped children. So does a session worker whose main loop finds
no compositor exited, and a worker that runs to its end does so only then. -/
theorem kills_reach_children (db : AccountDb) (desktop cert key : CString) (width height : Int)
    (fds : DescriptorTable FileObject) :
    (∀ es, (daemonProcess db).Legal
          (.start (sessionMgrInit desktop cert key width height) fds) es →
        (daemonProcess db).Along (fun s e => s.killsChild e = true)
          (.start (sessionMgrInit desktop cert key width height) fds) es) ∧
      (∀ es, sessionProcess.Legal .start es →
        sessionProcess.Along (fun s e => s.compositorUp e = true) .start es →
        sessionProcess.Along (fun s e => s.killsChild e = true) .start es) ∧
      ∀ es, sessionProcess.Legal .start es → (sessionProcess.run .start es).pc = .done →
        (sessionProcess.Along (fun s e => s.killsChild e = true) .start es ↔
          sessionProcess.Along (fun s e => s.compositorUp e = true) .start es) := by
  refine ⟨fun es hl => ?_, fun es => session_kills_of_up .start, fun es => session_kills_iff .start⟩
  exact daemon_kills_along .start hl

/-! ### A compositor that exits -/

/-- The compositor is launched, and the main loop begins. -/
def sessionBegins : List SessionInput := [.fork (some 7), .displayReady true, .initialized .entered]

theorem terminated_session_kills :
    sessionProcess.Along (fun s e => s.killsChild e = true) .start
      (sessionBegins ++ [.sigterm, .loopTest, .peersFreed, .kill, .childExits 7, .poll (some 7)]) :=
  (kills_reach_children ⟨[], []⟩ .empty .empty .empty 0 0 .empty).2.1 _ (by decide +kernel)
    (by decide +kernel)

/-- The main loop reaps the compositor and leaves `srv.comp.pid` as it is. -/
theorem exited_compositor_killed :
    sessionProcess.Legal .start
        (sessionBegins ++ [.childExits 7, .loopTest, .waitpid (some 7), .peersFreed, .kill]) ∧
      ¬ sessionProcess.Along (fun s e => s.killsChild e = true) .start
        (sessionBegins ++ [.childExits 7, .loopTest, .waitpid (some 7), .peersFreed, .kill]) := by
  decide +kernel

end Wlrdp
