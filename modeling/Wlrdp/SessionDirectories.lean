import Wlrdp.RegistryInvariants
import Wlrdp.SessionIsolation
import Wlrdp.SlotTables

namespace Wlrdp
set_option autoImplicit true

variable {db : Passwd} {d d' : Daemon} {i j : Fin maxSessions} {username : CString}

/-- What the daemon knows of a session: the process of its worker and the socket to it. -/
structure SessionWorker where
  pid : Nat
  ipcFd : Nat
deriving DecidableEq

/-- What the registry is for: at most `maxSessions` user names, each with one worker. -/
abbrev SessionDirectory := CString → Option SessionWorker

namespace SessionDirectory

noncomputable def getSession (db : Passwd) (m : SessionDirectory) (auth : AuthResult)
    (r : ForkTurn) : Option SessionWorker × SessionDirectory :=
  match db auth.uid with
  | none => (none, m)
  | some username =>
    match m username with
    | some w => (some w, m)
    | none =>
      if SlotTable.size m = maxSessions then (none, m) else
      match r.socketpair, r.fork with
      | some (sv₀, _), some pid => (some ⟨pid, sv₀⟩, Function.update m username (some ⟨pid, sv₀⟩))
      | _, _ => (none, m)

/-- The workers with these pids are gone. -/
def reap (m : SessionDirectory) (pids : List Nat) : SessionDirectory :=
  fun username => (m username).filter (·.pid ∉ pids)

noncomputable def step (db : Passwd) (m : SessionDirectory) : DaemonEvent → SessionDirectory
  | .getSession auth r => (getSession db m auth r).2
  | .workerExited _ => m
  | .reap pids => reap m pids

end SessionDirectory

noncomputable def sessionDirectory (db : Passwd) : System SessionDirectory DaemonEvent :=
  ⟨fun _ _ => True, SessionDirectory.step db⟩

/-! ### The directory of a registry -/

def SessionEntry.worker (entry : SessionEntry) : SessionWorker := ⟨entry.pid, entry.ipcFd⟩

/-- The entries that are in use. -/
def SessionMgr.table (mgr : SessionMgr) : SlotTable maxSessions CString SessionWorker := fun i =>
  if (mgr.sessions i).active then some ((mgr.sessions i).username, (mgr.sessions i).worker)
  else none

def Daemon.directory (d : Daemon) : SessionDirectory := d.mgr.table.lookup

/-- The worker behind the entry that `session_mgr_get_session` returns. -/
def Daemon.answer (db : Passwd) (d : Daemon) (auth : AuthResult) (r : ForkTurn) :
    Option SessionWorker :=
  let (entry, d') := sessionMgrGetSession db d auth r
  entry.map fun i => (d'.mgr.sessions i).worker

/-- The registry answers as its directory does. -/
def Daemon.AnswersAlike (db : Passwd) (d : Daemon) : DaemonEvent → Prop
  | .getSession auth r => d.answer db auth r = (SessionDirectory.getSession db d.directory auth r).1
  | _ => True

theorem table_eq_some {mgr : SessionMgr} : mgr.table i = some (username, w) ↔
    (mgr.sessions i).active = true ∧ (mgr.sessions i).username = username ∧
      (mgr.sessions i).worker = w := by
  rw [SessionMgr.table]
  split
  · next ha =>
    simp only [ha, Option.some.injEq, Prod.mk.injEq, true_and]
  · next ha =>
    simp only [ha, reduceCtorEq, Bool.false_eq_true, false_and]

theorem isSome_table {mgr : SessionMgr} : (mgr.table i).isSome = (mgr.sessions i).active := by
  rw [SessionMgr.table]
  cases (mgr.sessions i).active with
  | true => rfl
  | false => rfl

theorem table_setEntry (mgr : SessionMgr) (i : Fin maxSessions) (entry : SessionEntry) :
    (mgr.setEntry i entry).table = Function.update mgr.table i
      (if entry.active then some (entry.username, entry.worker) else none) := by
  funext j
  by_cases hij : j = i
  · rw [hij, Function.update_self, SessionMgr.table, SessionMgr.sessions_setEntry_self]
  · rw [Function.update_of_ne hij, SessionMgr.table, SessionMgr.sessions_setEntry_of_ne hij]
    rfl

theorem RegistryInv.keyed (h : RegistryInv db d) : d.mgr.table.Keyed := by
  intro i j name v w hi hj
  obtain ⟨hai, hni, _⟩ := table_eq_some.1 hi
  obtain ⟨haj, hnj, _⟩ := table_eq_some.1 hj
  exact h.named i j hai haj (hni.trans hnj.symm)

theorem RegistryInv.directory_found (h : RegistryInv db d)
    (hs : findSession d.mgr username = some i) :
    d.directory username = some (d.mgr.sessions i).worker := by
  obtain ⟨ha, hname⟩ := findSession_some hs
  exact h.keyed.lookup_eq_some.2 ⟨i, table_eq_some.2 ⟨ha, hname, rfl⟩⟩

theorem RegistryInv.directory_missing (h : RegistryInv db d)
    (hs : findSession d.mgr username = none) : d.directory username = none := by
  apply h.keyed.lookup_eq_none.2
  intro i w hi
  obtain ⟨ha, hname, _⟩ := table_eq_some.1 hi
  exact findSession_none hs ha hname

theorem RegistryInv.full_iff (h : RegistryInv db d) :
    allocSlot d.mgr = none ↔ SlotTable.size d.directory = maxSessions := by
  rw [Daemon.directory, ← h.keyed.full_iff, allocSlot, Fin.find?_eq_none_iff]
  apply forall_congr'
  intro i
  rw [isSome_table, Bool.not_eq_false']

/-! ### One event -/

theorem directory_failed (ha : (d.mgr.sessions i).active = false) (hm : d'.mgr = (d.named i n).mgr) :
    (d'.clear i).directory = d.directory := by
  have hempty : d.mgr.table i = none := by
    rw [← Option.not_isSome_iff_eq_none, isSome_table, ha]
    exact Bool.false_ne_true
  have htable : (d'.clear i).mgr.table = d.mgr.table := by
    rw [Daemon.clear, hm, table_setEntry, Daemon.named, table_setEntry, Function.update_idem]
    exact Function.update_eq_self_iff.2 hempty.symm
  rw [Daemon.directory, htable, Daemon.directory]

theorem table_adopt (d : Daemon) (i : Fin maxSessions) (hfit : username.length < usernameSize)
    (auth : AuthResult) (sv₀ sv₁ pid : Nat) (r : ForkTurn) :
    (((d.named i username).socketpair sv₀ sv₁).adopt i sv₀ sv₁
        ((d.named i username).newChild i auth sv₀ sv₁ pid r)).mgr.table =
      Function.update d.mgr.table i (some (username, ⟨pid, sv₀⟩)) := by
  funext j
  have hentry := adopt_entries d i username auth sv₀ sv₁ pid r j
  rw [SessionMgr.table, hentry]
  by_cases hij : j = i
  · rw [if_pos hij, hij, Function.update_self, if_pos rfl, CString.snprintf_of_lt hfit]
    rfl
  · rw [if_neg hij, Function.update_of_ne hij]
    rfl

/-- The registry and its directory do the same for a logon. -/
theorem RegistryInv.getSession (h : RegistryInv db d) (hfit : db.Fits) (auth : AuthResult)
    (r : ForkTurn) :
    d.answer db auth r = (SessionDirectory.getSession db d.directory auth r).1 ∧
      (sessionMgrGetSession db d auth r).2.directory =
        (SessionDirectory.getSession db d.directory auth r).2 := by
  have hstep := sessionMgrGetSession_step db d auth r
  rw [Daemon.answer]
  generalize sessionMgrGetSession db d auth r = res at hstep
  cases hstep with
  | unknown hn =>
    rw [SessionDirectory.getSession, hn]
    exact ⟨rfl, rfl⟩
  | found hn hs =>
    have hdir := h.directory_found hs
    simp only [SessionDirectory.getSession, hn, hdir]
    exact ⟨rfl, trivial⟩
  | full hn hs ha =>
    have hdir := h.directory_missing hs
    have hsize := h.full_iff.1 ha
    simp only [SessionDirectory.getSession, hn, hdir, hsize, if_true]
    exact ⟨rfl, trivial⟩
  | failed hn hs ha hf =>
    have hdir := h.directory_missing hs
    have hsize : ¬ SlotTable.size d.directory = maxSessions := fun hfull => by
      rw [h.full_iff.2 hfull] at ha
      cases ha
    have hsame := directory_failed (allocSlot_some ha) hf.failed.1
    cases hf with
    | noPair hp =>
      simp only [SessionDirectory.getSession, hn, hdir, hsize, hp, if_false]
      exact ⟨rfl, hsame⟩
    | noFork sv₀ sv₁ hp hfork =>
      simp only [SessionDirectory.getSession, hn, hdir, hsize, hp, hfork, if_false]
      exact ⟨rfl, hsame⟩
  | @forked username i _ hn hs ha hf =>
    have hdir := h.directory_missing hs
    have hsize : ¬ SlotTable.size d.directory = maxSessions := fun hfull => by
      rw [h.full_iff.2 hfull] at ha
      cases ha
    cases hf with
    | forked sv₀ sv₁ pid hp hfork =>
      have hempty : d.mgr.table i = none := by
        rw [← Option.not_isSome_iff_eq_none, isSome_table, allocSlot_some ha]
        exact Bool.false_ne_true
      have hentry := adopt_entries d i username auth sv₀ sv₁ pid r i
      rw [if_pos rfl] at hentry
      have hanswer : SessionDirectory.getSession db d.directory auth r =
          (some ⟨pid, sv₀⟩, Function.update d.directory username (some ⟨pid, sv₀⟩)) := by
        simp only [SessionDirectory.getSession, hn, hdir, hsize, hp, hfork, if_false]
      rw [hanswer]
      constructor
      · dsimp only
        rw [Option.map_some, hentry]
        rfl
      · rw [Daemon.directory, table_adopt d i (hfit _ _ hn)]
        exact h.keyed.lookup_put hempty hdir _

theorem SessionDirectory.reap_eq_some {m : SessionDirectory} :
    reap m pids username = some w ↔ m username = some w ∧ w.pid ∉ pids := by
  rw [reap, Option.filter_eq_some_iff, decide_eq_true_eq]

theorem SessionDirectory.reap_nil (m : SessionDirectory) : reap m [] = m := by
  funext username
  apply Option.ext
  intro w
  rw [reap_eq_some]
  exact and_iff_left List.not_mem_nil

theorem SessionDirectory.reap_cons (m : SessionDirectory) (pid : Nat) (pids : List Nat) :
    reap m (pid :: pids) = reap (reap m [pid]) pids := by
  funext username
  apply Option.ext
  intro w
  simp only [reap_eq_some, List.mem_cons, List.not_mem_nil, or_false, not_or, and_assoc]

/-- The entry with a reaped pid is the only one. -/
theorem RegistryInv.table_reapChild (h : RegistryInv db d) (pid : Nat) :
    (reapChild d pid).mgr.table j = some (username, w) ↔
      d.mgr.table j = some (username, w) ∧ w.pid ≠ pid := by
  have hstep := reapChild_step d pid
  generalize reapChild d pid = d' at hstep
  cases hstep with
  | stranger hn =>
    apply (and_iff_left_of_imp _).symm
    intro hj
    obtain ⟨ha, _, rfl⟩ := table_eq_some.1 hj
    exact hn j ha
  | worker i ha hp =>
    change (d.mgr.setEntry i .zero).table j = _ ↔ _
    rw [table_setEntry]
    by_cases hji : j = i
    · subst hji
      rw [Function.update_self]
      constructor
      · intro hj
        cases hj
      · rintro ⟨hj, hne⟩
        obtain ⟨_, _, rfl⟩ := table_eq_some.1 hj
        exact absurd hp hne
    · rw [Function.update_of_ne hji]
      apply (and_iff_left_of_imp _).symm
      intro hj
      obtain ⟨haj, _, rfl⟩ := table_eq_some.1 hj
      intro hpj
      exact hji (h.pid_inj haj ha (hpj.trans hp.symm))

theorem RegistryInv.directory_reapChild (h : RegistryInv db d) (pid : Nat) :
    (reapChild d pid).directory = SessionDirectory.reap d.directory [pid] := by
  apply (reapChild_inv h pid).keyed.lookup_eq
  intro username w
  rw [SessionDirectory.reap_eq_some, Daemon.directory, h.keyed.lookup_eq_some, List.mem_singleton,
    ← exists_and_right]
  apply exists_congr
  intro j
  exact (h.table_reapChild pid).symm

theorem RegistryInv.directory_reap (h : RegistryInv db d) (pids : List Nat) :
    (sessionMgrReap d pids).directory = SessionDirectory.reap d.directory pids := by
  simp only [sessionMgrReap]
  induction pids generalizing d with
  | nil => exact (SessionDirectory.reap_nil _).symm
  | cons pid pids ih =>
    rw [List.foldl_cons, ih (reapChild_inv h pid), h.directory_reapChild, ← SessionDirectory.reap_cons]

/-- The registry keeps one entry for a name, also when several uids share it. -/
theorem RegistryInv.afterGet (h : RegistryInv db d) (hfit : db.Fits)
    (he : d.admits (.getSession auth r) = true) :
    RegistryInv db (sessionMgrGetSession db d auth r).2 := by
  have hstep := sessionMgrGetSession_step db d auth r
  generalize sessionMgrGetSession db d auth r = res at hstep
  cases hstep with
  | unknown => exact h
  | found => exact h
  | full => exact h
  | failed _ _ ha hf => exact h.failed ha hf
  | forked hn hs _ hf =>
    cases hf with
    | forked sv₀ sv₁ pid _ hfork =>
      exact (h.forked hn (admits_fork he hfork) (names_new hs (hfit _ _ hn)) rfl).1

theorem RegistryInv.step (h : RegistryInv db d) (hfit : db.Fits) (he : d.admits e = true) :
    RegistryInv db (d.step db e) := by
  cases e with
  | getSession auth r => exact h.afterGet hfit he
  | workerExited pid => exact h.exited pid
  | reap pids => exact sessionMgrReap_inv h pids

theorem RegistryInv.directory_step (h : RegistryInv db d) (hfit : db.Fits) (e : DaemonEvent) :
    (d.step db e).directory = SessionDirectory.step db d.directory e := by
  cases e with
  | getSession auth r => exact (h.getSession hfit auth r).2
  | workerExited pid => rfl
  | reap pids => exact h.directory_reap pids

theorem RegistryInv.answersAlike (h : RegistryInv db d) (hfit : db.Fits) (e : DaemonEvent) :
    d.AnswersAlike db e := by
  cases e with
  | getSession auth r => exact (h.getSession hfit auth r).1
  | workerExited pid => trivial
  | reap pids => trivial

/-! ### Runs -/

theorem directory_start (mgr : SessionMgr) (hmgr : ∀ i, (mgr.sessions i).active = false)
    (fds : DescriptorTable FileObject) : (Daemon.start mgr fds).directory = fun _ => none := by
  funext username
  have hempty : ∀ i, mgr.table i = none := by
    intro i
    rw [← Option.not_isSome_iff_eq_none, isSome_table, hmgr i]
    exact Bool.false_ne_true
  have hkeyed : mgr.table.Keyed := by
    intro i j k v w hi
    rw [hempty i] at hi
    cases hi
  apply hkeyed.lookup_eq_none.2
  intro i v hi
  rw [hempty i] at hi
  cases hi

theorem RegistryInv.run (h : RegistryInv db d) (hfit : db.Fits) (hl : (daemon db).Legal d es) :
    RegistryInv db ((daemon db).run d es) ∧
      ((daemon db).run d es).directory = (sessionDirectory db).run d.directory es := by
  have hstep : ∀ d e, RegistryInv db d → (daemon db).enabled d e → RegistryInv db (d.step db e) :=
    fun d e h he => h.step hfit he
  constructor
  · exact (System.always_of_legal hstep h hl).last
  · exact System.run_abstracts (T := sessionDirectory db) hstep
      (fun d e h _ => h.directory_step hfit e) h hl

/-- The table of slots is a directory of users: every run of the registry is one of the directory,
and every logon gets the worker that the directory has for the user. -/
theorem registry_refines_directory (hfit : db.Fits)
    (hl : (daemon db).Legal (.start (sessionMgrInit desktop cert key width height) fds) es) :
    (daemon db).Along (Daemon.AnswersAlike db)
        (.start (sessionMgrInit desktop cert key width height) fds) es ∧
      ((daemon db).run (.start (sessionMgrInit desktop cert key width height) fds) es).directory =
        (sessionDirectory db).run (fun _ => none) es := by
  constructor
  · exact System.along_of_step (I := RegistryInv db) (fun d e h he => h.step hfit he)
      (fun d e h _ => h.answersAlike hfit e) .start hl
  · rw [← directory_start (sessionMgrInit desktop cert key width height) (fun _ => rfl) fds]
    exact (RegistryInv.start.run hfit hl).2

theorem twoNames_fits : twoNames.Fits := by
  intro uid name hn
  cases hn
  split
  · exact (by decide : (0 : Nat) < usernameSize)
  · exact (by decide : (1 : Nat) < usernameSize)

/-- The first of two users comes back after the worker has exited. -/
def returningUser : List DaemonEvent :=
  [.workerExited 70, .reap [70], .getSession (.basic 1000) (.working 3 4 72)]

theorem registry_refines_directory_returning :
    ((daemon twoNames).run .fresh
        (.getSession (.basic 1000) (.working 3 4 70) :: returningUser)).directory =
      (sessionDirectory twoNames).run (fun _ => none)
        (.getSession (.basic 1000) (.working 3 4 70) :: returningUser) :=
  (registry_refines_directory twoNames_fits (by decide +kernel)).2

/-! ### Reconnection -/

/-- The event tells the daemon that the process has exited. -/
def DaemonEvent.reaps (pid : Nat) : DaemonEvent → Bool
  | .reap pids => pid ∈ pids
  | _ => false

namespace SessionDirectory

variable {m : SessionDirectory}

/-- Whoever is given a worker has it in the directory. -/
theorem getSession_stored (hw : (getSession db m auth r).1 = some w) :
    ∃ username, db auth.uid = some username ∧ (getSession db m auth r).2 username = some w := by
  cases hn : db auth.uid with
  | none =>
    simp only [getSession, hn] at hw
    cases hw
  | some username =>
    refine ⟨username, rfl, ?_⟩
    cases hm : m username with
    | some w' =>
      simp only [getSession, hn, hm] at hw ⊢
      exact hw
    | none =>
      simp only [getSession, hn, hm] at hw ⊢
      split at hw
      · cases hw
      · next hroom =>
        rw [if_neg hroom]
        split at hw
        · cases hw
          exact Function.update_self ..
        · cases hw

theorem getSession_known (hn : db auth.uid = some username) (hm : m username = some w) :
    getSession db m auth r = (some w, m) := by
  simp only [getSession, hn, hm]

/-- A logon never changes the worker that a user has. -/
theorem getSession_kept (hm : m username = some w) :
    (getSession db m auth r).2 username = some w := by
  rw [getSession]
  split
  · exact hm
  · next name _ =>
    split
    · exact hm
    · next hnone =>
      have hne : username ≠ name := by
        rintro rfl
        rw [hnone] at hm
        cases hm
      split
      · exact hm
      · split
        · exact (Function.update_of_ne hne ..).trans hm
        · exact hm

theorem step_kept (hm : m username = some w) (he : e.reaps w.pid = false) :
    step db m e username = some w := by
  cases e with
  | getSession auth r => exact getSession_kept hm
  | workerExited pid => exact hm
  | reap pids => exact reap_eq_some.2 ⟨hm, of_decide_eq_false he⟩

theorem run_kept (hm : m username = some w) (hes : ∀ e ∈ es, e.reaps w.pid = false) :
    (sessionDirectory db).run m es username = some w := by
  induction es generalizing m with
  | nil => exact hm
  | cons e es ih =>
    apply ih (step_kept hm (hes e List.mem_cons_self))
    intro f hf
    exact hes f (List.mem_cons_of_mem _ hf)

end SessionDirectory

theorem RegistryInv.answer_kept (h : RegistryInv db d) (hfit : db.Fits)
    (hl : (daemon db).Legal d es) (hn : db auth.uid = some username)
    (hm : d.directory username = some w) (hes : ∀ e ∈ es, e.reaps w.pid = false) (r : ForkTurn) :
    ((daemon db).run d es).answer db auth r = some w := by
  obtain ⟨hend, hdir⟩ := h.run hfit hl
  have hkept : (sessionDirectory db).run d.directory es username = some w :=
    SessionDirectory.run_kept hm hes
  rw [← hdir] at hkept
  rw [(hend.getSession hfit auth r).1, SessionDirectory.getSession_known hn hkept]

/-- A user who was given a worker is given it again at every logon, whatever the others do, until
the worker is reaped. -/
theorem session_kept (hfit : db.Fits)
    (hl : (daemon db).Legal (.start (sessionMgrInit desktop cert key width height) fds)
      (es ++ .getSession auth r :: fs))
    (hw : ((daemon db).run (.start (sessionMgrInit desktop cert key width height) fds) es).answer
      db auth r = some w)
    (hfs : ∀ e ∈ fs, e.reaps w.pid = false) (huid : auth'.uid = auth.uid) (r' : ForkTurn) :
    ((daemon db).run (.start (sessionMgrInit desktop cert key width height) fds)
      (es ++ .getSession auth r :: fs)).answer db auth' r' = some w := by
  obtain ⟨hles, hlogon, hlfs⟩ := System.along_append.1 hl
  have hbefore := (RegistryInv.start.run hfit hles).1
  obtain ⟨hanswer, hdir⟩ := hbefore.getSession hfit auth r
  obtain ⟨username, hn, hstored⟩ := SessionDirectory.getSession_stored (hanswer.symm.trans hw)
  rw [← hdir] at hstored
  rw [System.run_append, System.run_cons]
  exact (hbefore.step hfit hlogon).answer_kept hfit hlfs ((congrArg db huid).trans hn) hstored hfs r'

theorem session_kept_returning :
    Daemon.answer twoNames ((daemon twoNames).run .fresh
      ([.getSession (.basic 1000) (.working 3 4 70)] ++
        .getSession (.basic 1001) (.working 5 6 71) :: returningUser)) (.basic 1001)
      (.working 7 8 73) = some ⟨71, 5⟩ :=
  session_kept twoNames_fits (by decide +kernel) (by decide +kernel) (by decide) rfl _

end Wlrdp
