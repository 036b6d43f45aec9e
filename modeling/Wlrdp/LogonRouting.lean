import Wlrdp.ReconnectionLiveness

namespace Wlrdp
set_option autoImplicit true

variable {db : AccountDb} {d : Daemon} {s : DaemonProcess}

/-- The `NEW_CLIENT` messages among those sent. -/
def newClients (sent : List IpcSend) : List IpcSend := sent.filter (·.msg.type = msgNewClient)

/-- The daemon has sent exactly one `NEW_CLIENT` message for each logon it has accepted, with the
socket of the peer, to the session of that logon, and no other. -/
def DaemonProcess.Routes (s : DaemonProcess) : Prop :=
  (newClients s.sent).Perm (s.logons.map fun l => sessionMgrSendClient l.1 l.2)

/-- What makes `on_peer_logon` refuse a logon: no user name or password, PAM, an unknown user, or
that no session is registered for the user and none can be made. -/
def Refusal (db : AccountDb) (d : Daemon) (identity : Identity) (r : LogonTurn) : Prop :=
  ∀ username pw first, identity.user = some username → identity.password.isSome = true →
    r.pam.ok = true → getpwnam db username = some pw → getpwuid db pw.uid = some first →
      (∀ i, (d.mgr.sessions i).active = true → (d.mgr.sessions i).username ≠ first.name) ∧
        ((∀ i, (d.mgr.sessions i).active = true) ∨ r.fork.socketpair = none ∨ r.fork.fork = none)

def DaemonProcess.Refuses (db : AccountDb) (s : DaemonProcess) : DaemonInput → Prop
  | .peerLogon identity r => Refusal db s.daemon identity r
  | _ => True

/-! ### Refused logons -/

theorem authCheckCredentials_of_ok (h : r.ok = true) (hpw : getpwnam db username = some pw) :
    authCheckCredentials db username r =
      some ⟨pw.uid, pw.gid, pw.dir.snprintf pathSize, pw.shell.snprintf pathSize⟩ := by
  rw [PamTurn.ok, Bool.and_eq_true, Bool.and_eq_true] at h
  simp only [authCheckCredentials, h.1.1, h.1.2, h.2, hpw]
  rfl

theorem allocSlot_none : allocSlot d.mgr = none ↔ ∀ i, (d.mgr.sessions i).active = true := by
  rw [allocSlot, Fin.find?_eq_none_iff]
  simp only [Bool.not_eq_false']

theorem logonSession_none_iff (db : AccountDb) (d : Daemon) (identity : Identity) (r : LogonTurn) :
    logonSession db d identity r = none ↔ Refusal db d identity r := by
  rcases logon_registry db d identity r with
    ⟨hname, hnone, _⟩ | ⟨username, password, auth, rfl, hauth, hname, hget, _⟩
  · refine ⟨fun _ username pw first hu hp hpam hpw hfirst => ?_, fun _ => hnone⟩
    obtain ⟨user, password⟩ := identity
    obtain ⟨password, rfl⟩ := Option.isSome_iff_exists.1 hp
    cases hu
    simp only [logonName, authCheckCredentials_of_ok hpam hpw, Option.bind_some, AccountDb.names,
      hfirst] at hname
    cases hname
  · have hstep := sessionMgrGetSession_step db.names d auth r.fork
    obtain ⟨hpam, pw, hpw, hauth⟩ := authCheckCredentials_some hauth
    have hknown (pw' first : PasswdEntry) (hpw' : getpwnam db username = some pw')
        (hfirst : getpwuid db pw'.uid = some first) : db.names auth.uid = some first.name := by
      cases hpw.symm.trans hpw'
      rw [hauth, AccountDb.names, hfirst]
      rfl
    rw [hget] at hstep
    generalize logonSession db d ⟨some username, some password⟩ r = entry at hstep
    generalize (onPeerLogon db d ⟨some username, some password⟩ r).2 = d' at hstep
    constructor
    · rintro rfl username' pw' first hu _ _ hpw' hfirst
      cases hu
      have hn := hknown pw' first hpw' hfirst
      cases hstep with
      | unknown hn' => cases hn'.symm.trans hn
      | full hn' hs ha =>
        cases hn'.symm.trans hn
        exact ⟨fun _ => findSession_none hs, .inl (allocSlot_none.1 ha)⟩
      | failed hn' hs _ hf =>
        cases hn'.symm.trans hn
        refine ⟨fun _ => findSession_none hs, .inr ?_⟩
        cases hf with
        | noPair hp => exact .inl hp
        | noFork _ _ _ hf => exact .inr hf
    · intro hrefused
      have hno (name : CString) (hn : db.names auth.uid = some name) :
          findSession d.mgr name = none ∧ ((∀ i, (d.mgr.sessions i).active = true) ∨
            r.fork.socketpair = none ∨ r.fork.fork = none) := by
        rw [hauth] at hn
        obtain ⟨first, hfirst, rfl⟩ := Option.map_eq_some_iff.1 hn
        obtain ⟨hnone, hfull⟩ := hrefused username pw first rfl rfl hpam hpw hfirst
        exact ⟨findSession_eq_none hnone, hfull⟩
      cases hstep with
      | unknown => rfl
      | found hn hs => cases hs.symm.trans (hno _ hn).1
      | full => rfl
      | failed => rfl
      | forked hn _ ha hf =>
        rcases (hno _ hn).2 with hfull | hp | hfork
        · cases (allocSlot_some ha).symm.trans (hfull _)
        · cases hf with
          | forked _ _ _ hp' => cases hp'.symm.trans hp
        · cases hf with
          | forked _ _ _ _ hf' => cases hf'.symm.trans hfork

/-! ### Messages -/

theorem newClients_shutdown (sent : List IpcSend) (entry : SessionEntry) :
    newClients (sent ++ [shutdownSession entry]) = newClients sent := by
  rw [newClients, List.filter_append]
  exact List.append_nil _

/-- What a step adds to the messages sent and to the logons accepted: nothing, the end of a
session, or a logon. -/
inductive TrafficStep (db : AccountDb) (s : DaemonProcess) : DaemonInput → DaemonProcess → Prop
  | quiet {e : DaemonInput} {s' : DaemonProcess} (hs : s'.sent = s.sent) (hl : s'.logons = s.logons)
      (hr : s.Refuses db e) : TrafficStep db s e s'
  | shutdown {s' : DaemonProcess} (entry : SessionEntry)
      (hs : s'.sent = s.sent ++ [shutdownSession entry]) (hl : s'.logons = s.logons) :
      TrafficStep db s .stopSession s'
  | logon (identity : Identity) (r : LogonTurn) (peerFd : Nat) :
      TrafficStep db s (.peerLogon identity r) (s.logon db identity r peerFd)

theorem step_traffic (he : s.admits e = true) : TrafficStep db s e (s.step db e) := by
  cases e with
  | workerExits => exact .quiet rfl rfl trivial
  | sigchld => exact .quiet rfl rfl trivial
  | sigterm => exact .quiet rfl rfl trivial
  | loopTest =>
    simp only [DaemonProcess.step]
    split
    · exact .quiet rfl rfl trivial
    · split <;> exact .quiet rfl rfl trivial
  | waitpid pid => cases pid <;> exact .quiet rfl rfl trivial
  | clearFlag => exact .quiet rfl rfl trivial
  | epollWait r => cases r <;> exact .quiet rfl rfl trivial
  | peerAccepted =>
    simp only [DaemonProcess.step]
    split <;> exact .quiet rfl rfl trivial
  | listenerChecked =>
    simp only [DaemonProcess.step]
    split <;> exact .quiet rfl rfl trivial
  | peerLogon identity r =>
    simp only [DaemonProcess.admits] at he
    simp only [DaemonProcess.step]
    split at he
    · exact .logon identity r _
    · cases he
  | peerChecked =>
    simp only [DaemonProcess.step]
    split
    · split <;> exact .quiet rfl rfl trivial
    · exact .quiet rfl rfl trivial
  | stopSession =>
    simp only [DaemonProcess.step]
    split
    · simp only [DaemonProcess.stop]
      split
      · exact .shutdown _ rfl rfl
      · exact .quiet rfl rfl trivial
    · exact .quiet rfl rfl trivial
    · exact .quiet rfl rfl trivial
  | joinSession interrupted =>
    simp only [DaemonProcess.step]
    split
    · simp only [DaemonProcess.join]
      split <;> exact .quiet rfl rfl trivial
    · exact .quiet rfl rfl trivial
    · exact .quiet rfl rfl trivial

/-- No step of the daemon sends a `NEW_CLIENT` message. -/
theorem TrafficStep.newClients (h : TrafficStep db s e s') :
    newClients s'.sent = newClients s.sent := by
  cases h with
  | quiet hs => rw [hs]
  | shutdown entry hs => rw [hs, newClients_shutdown]
  | logon => rfl

/-- A step accepts a logon unless it refuses it. -/
theorem TrafficStep.logons (h : TrafficStep db s e s') :
    s.logons.length ≤ s'.logons.length ∧
      (s'.logons.length = s.logons.length ↔ s.Refuses db e) := by
  cases h with
  | quiet _ hl hr =>
    rw [hl]
    exact ⟨Nat.le_refl _, fun _ => hr, fun _ => rfl⟩
  | shutdown entry _ hl =>
    rw [hl]
    exact ⟨Nat.le_refl _, fun _ => trivial, fun _ => rfl⟩
  | logon identity r peerFd =>
    have hnone := logonSession_none_iff db s.daemon identity r
    simp only [DaemonProcess.logon, DaemonProcess.Refuses, List.length_append, ← hnone]
    cases logonSession db s.daemon identity r with
    | none => exact ⟨Nat.le_refl _, fun _ => rfl, fun _ => rfl⟩
    | some i =>
      refine ⟨Nat.le_add_right _ _, fun h => ?_, fun h => ?_⟩
      · exact absurd h (Nat.succ_ne_self _)
      · cases h

theorem run_newClients (hl : (daemonProcess db).Legal s es) :
    newClients ((daemonProcess db).run s es).sent = newClients s.sent := by
  induction es generalizing s with
  | nil => rfl
  | cons e es ih =>
    rw [System.run_cons, ih hl.2]
    exact (step_traffic hl.1).newClients

theorem run_logons (hl : (daemonProcess db).Legal s es) :
    s.logons.length ≤ ((daemonProcess db).run s es).logons.length ∧
      (((daemonProcess db).run s es).logons.length = s.logons.length ↔
        (daemonProcess db).Along (fun s e => s.Refuses db e) s es) := by
  induction es generalizing s with
  | nil => exact ⟨Nat.le_refl _, fun _ => trivial, fun _ => rfl⟩
  | cons e es ih =>
    have htraffic : TrafficStep db s e ((daemonProcess db).step s e) := step_traffic hl.1
    obtain ⟨hle, hrefuses⟩ := htraffic.logons
    obtain ⟨hle', hrest⟩ := ih hl.2
    rw [System.run_cons]
    refine ⟨Nat.le_trans hle hle', fun h => ?_, fun h => ?_⟩
    · exact ⟨hrefuses.1 (by omega), hrest.1 (by omega)⟩
    · rw [hrest.2 h.2]
      exact hrefuses.2 h.1

/-- The daemon routes the logons of a run exactly if it accepts none of them. -/
theorem routes_iff_refuses (hl : (daemonProcess db).Legal
      (.start (sessionMgrInit desktop cert key width height) fds) es) :
    ((daemonProcess db).run (.start (sessionMgrInit desktop cert key width height) fds) es).Routes ↔
      (daemonProcess db).Along (fun s e => s.Refuses db e)
        (.start (sessionMgrInit desktop cert key width height) fds) es := by
  rw [DaemonProcess.Routes, run_newClients hl, ← (run_logons hl).2]
  constructor
  · intro h
    have hlen := h.length_eq
    rw [List.length_map] at hlen
    exact hlen.symm
  · intro h
    rw [List.eq_nil_of_length_eq_zero h]
    exact List.Perm.nil

/-! ### One peer -/

/-- A logon with a wrong password. -/
def refusedVisit : List DaemonInput :=
  [.loopTest, .epollWait (.ready 1), .peerAccepted 10,
    .peerLogon (.of (.repeated 1) (.repeated 8))
      ⟨⟨true, false, true⟩, .working 3 4 1⟩, .peerChecked false, .listenerChecked true]

theorem refusedVisit_routed : ((daemonProcess singleUser).run .fresh refusedVisit).Routes := by
  apply (routes_iff_refuses (by decide +kernel)).2
  refine ⟨trivial, trivial, trivial, ?_, trivial, trivial, trivial⟩
  intro _ _ _ _ _ hpam
  cases hpam

/-- An accepted logon whose peer is freed without having been passed on. -/
theorem accepted_never_routed :
    (daemonProcess singleUser).Legal .fresh (visit 10 3 4 1 []) ∧
      ¬ ((daemonProcess singleUser).run .fresh (visit 10 3 4 1 [])).Routes := by
  have hl : (daemonProcess singleUser).Legal .fresh (visit 10 3 4 1 []) := by decide +kernel
  refine ⟨hl, fun h => ?_⟩
  have hlen := h.length_eq
  rw [run_newClients hl, List.length_map] at hlen
  revert hlen
  decide +kernel

end Wlrdp
