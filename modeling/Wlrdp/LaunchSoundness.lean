import Wlrdp.LaunchSemantics
import Wlrdp.RegistryInvariants

namespace Wlrdp
set_option autoImplicit true

open Getopt (Found Setting Word)

variable {o : MainOptions} {ss : List Setting} {d d' : Daemon} {posix posix' : Bool}

/-! ### What options set -/

/-- The argument of the last setting of an option. -/
def lastArg (ss : List Setting) (val : UInt8) : Option Word :=
  (ss.reverse.find? (·.option.val = val)).map (·.arg)

/-- What a program runs with: for every option its last argument, or the default. -/
def MainOptions.settled (o : MainOptions) (ss : List Setting) : MainOptions where
  port := ((lastArg ss (letter 'p')).map atoi).getD o.port
  width := ((lastArg ss (letter 'W')).map atoi).getD o.width
  height := ((lastArg ss (letter 'H')).map atoi).getD o.height
  desktopCmd := ((lastArg ss (letter 'd')).map .ofBytes).getD o.desktopCmd
  certFile := ((lastArg ss (letter 'c')).map fun arg => some (.ofBytes arg)).getD o.certFile
  keyFile := ((lastArg ss (letter 'k')).map fun arg => some (.ofBytes arg)).getD o.keyFile
  ipcFd := ((lastArg ss (letter 'i')).map atoi).getD o.ipcFd

/-- An earlier setting counts when no later one replaces it. -/
theorem lastArg_cons (f : Word → α) (s : Setting) (ss : List Setting) (val : UInt8) (a : α) :
    ((lastArg ss val).map f).getD (if s.option.val = val then f s.arg else a) =
      ((lastArg (s :: ss) val).map f).getD a := by
  simp only [lastArg, List.reverse_cons, List.find?_append]
  cases List.find? (fun p => decide (p.option.val = val)) ss.reverse with
  | some p => rfl
  | none =>
    rw [List.find?_singleton, Option.none_or]
    split
    · next hs =>
      rw [if_pos (decide_eq_true hs)]
      rfl
    · next hs =>
      rw [if_neg fun h => hs (of_decide_eq_true h)]

theorem MainOptions.scan_settings (o : MainOptions) (ss : List Setting) :
    o.scan (ss.map fun s => .option s.option.val (some s.arg)) = .ok (o.settled ss) := by
  induction ss generalizing o with
  | nil => rfl
  | cons s ss ih =>
    rw [List.map_cons, MainOptions.scan, ih]
    simp only [MainOptions.settled, MainOptions.set, lastArg_cons]

theorem daemonOptions_wellFormed (posix : Bool) : (daemonOptions posix).WellFormed := by
  cases posix with
  | true => exact ⟨by decide, by decide, by decide⟩
  | false => exact ⟨by decide, by decide, by decide⟩

theorem sessionOptions_wellFormed (posix : Bool) : (sessionOptions posix).WellFormed := by
  cases posix with
  | true => exact ⟨by decide, by decide, by decide⟩
  | false => exact ⟨by decide, by decide, by decide⟩

/-- In whatever style and order the options are given, the daemon takes the last of each. -/
theorem daemonMain_settings (hs : ∀ s ∈ ss, s.Fits (daemonOptions posix)) :
    daemonMain posix (ss.flatMap Setting.words) = .ok (daemonDefaults.settled ss).withAutoFiles := by
  rw [daemonMain, (daemonOptions_wellFormed posix).getopt_settings hs, MainOptions.scan_settings]

/-- A kiosk whose command looks like an option, with the width given twice. -/
def kioskSettings : List Setting :=
  [⟨widthOption, ascii "640", .joined⟩, ⟨desktopCmdOption, ascii "--help", .separate⟩,
    ⟨widthOption, ascii "1024", .equals⟩]

def kioskOptions : MainOptions :=
  ⟨defaultPort, 1024, 600, .ofBytes (ascii "--help"), some autoCert, some autoKey, -1⟩

theorem kioskSettings_fit : ∀ s ∈ kioskSettings, s.Fits (daemonOptions false) := by
  simp only [kioskSettings, List.forall_mem_cons, List.not_mem_nil, false_imp_iff, implies_true,
    and_true]
  exact ⟨⟨by decide, rfl, fun _ => by decide⟩, ⟨by decide, rfl, nofun⟩, ⟨by decide, rfl, nofun⟩⟩

theorem daemonMain_settings_kiosk :
    daemonMain false (kioskSettings.flatMap Setting.words) = .ok kioskOptions :=
  daemonMain_settings kioskSettings_fit

theorem sessionMain_settings (hs : ∀ s ∈ ss, s.Fits (sessionOptions posix)) :
    sessionMain posix (ss.flatMap Setting.words) =
      .ok (if (sessionDefaults.settled ss).ipcFd < 0 then (sessionDefaults.settled ss).withAutoFiles
        else sessionDefaults.settled ss) := by
  rw [sessionMain, (sessionOptions_wellFormed posix).getopt_settings hs, MainOptions.scan_settings]

/-! ### The arguments of a worker -/

theorem CString.ofBytes_bytes (s : CString) : .ofBytes s.bytes = s := by
  have hall : ∀ b ∈ s.bytes, decide (b ≠ 0) = true := fun b hb => decide_eq_true (s.noNul b hb)
  cases s with
  | mk bytes noNul =>
    rw [CString.ofBytes, CString.mk.injEq]
    exact List.takeWhile_eq_self_iff.2 hall

theorem numberArg_eq (x : Int) : numberArg x = formatInt x := by
  have hlength := formatD_length (UInt32.ofInt x)
  exact List.take_of_length_le (Nat.le_trans hlength (by decide))

/-- The settings that `fork_session` writes. -/
def ProcessImage.settings (image : ProcessImage) : List Setting :=
  [⟨ipcFdOption, numberArg image.ipcFd, .separate⟩,
    ⟨widthOption, numberArg image.width, .separate⟩,
    ⟨heightOption, numberArg image.height, .separate⟩,
    ⟨desktopCmdOption, image.desktopCmd.bytes, .separate⟩,
    ⟨certOption, image.cert.bytes, .separate⟩, ⟨keyOption, image.key.bytes, .separate⟩]

theorem ProcessImage.argv_eq (image : ProcessImage) :
    image.argv = image.settings.flatMap Setting.words := rfl

theorem ProcessImage.settings_fit (image : ProcessImage) (posix : Bool) :
    ∀ s ∈ image.settings, s.Fits (sessionOptions posix) := by
  have hfit : ∀ o ∈ [ipcFdOption, widthOption, heightOption, desktopCmdOption, certOption, keyOption],
      ∀ arg, Setting.Fits (sessionOptions posix) ⟨o, arg, .separate⟩ := by
    intro o ho arg
    have hoption : ∀ o ∈ [ipcFdOption, widthOption, heightOption, desktopCmdOption, certOption,
        keyOption], o ∈ (sessionOptions true).long ∧ o.takesArg = true := by decide
    refine ⟨(hoption o ho).1, (hoption o ho).2, ?_⟩
    intro hjoined
    cases hjoined
  simp only [ProcessImage.settings, List.forall_mem_cons, List.not_mem_nil, false_imp_iff,
    implies_true, and_true]
  exact ⟨hfit _ (by decide) _, hfit _ (by decide) _, hfit _ (by decide) _, hfit _ (by decide) _,
    hfit _ (by decide) _, hfit _ (by decide) _⟩

/-- A worker's `main` reads its arguments as what the daemon started it with. -/
theorem ProcessImage.sessionMain_argv (image : ProcessImage) (hfd : FitsInt image.ipcFd)
    (hwidth : FitsInt image.width) (hheight : FitsInt image.height) :
    sessionMain posix image.argv = .ok
      { port := defaultPort, width := image.width, height := image.height
        desktopCmd := image.desktopCmd, certFile := some image.cert, keyFile := some image.key
        ipcFd := image.ipcFd } := by
  have hsettled : sessionDefaults.settled image.settings =
      { port := defaultPort, width := atoi (numberArg image.width)
        height := atoi (numberArg image.height), desktopCmd := .ofBytes image.desktopCmd.bytes
        certFile := some (.ofBytes image.cert.bytes), keyFile := some (.ofBytes image.key.bytes)
        ipcFd := atoi (numberArg image.ipcFd) } := rfl
  rw [image.argv_eq, sessionMain_settings (image.settings_fit posix), hsettled]
  simp only [numberArg_eq, atoi_formatInt hfd, atoi_formatInt hwidth, atoi_formatInt hheight,
    CString.ofBytes_bytes]
  rw [if_neg (Int.not_lt.2 (Int.natCast_nonneg _))]

/-! ### The configuration of a run -/

/-- What a registry starts its workers with. -/
structure LaunchConfig where
  desktopCmd : CString
  cert : CString
  key : CString
  width : Int
  height : Int

def SessionMgr.config (mgr : SessionMgr) : LaunchConfig :=
  ⟨mgr.desktopCmd, mgr.certFile, mgr.keyFile, mgr.defaultWidth, mgr.defaultHeight⟩

def ProcessImage.config (image : ProcessImage) : LaunchConfig :=
  ⟨image.desktopCmd, image.cert, image.key, image.width, image.height⟩

/-- The registry keeps its configuration, and every worker was started with it. -/
structure Configured (config : LaunchConfig) (d : Daemon) : Prop where
  mgr : d.mgr.config = config
  images : ∀ c ∈ d.children, ∀ image, c.image = some image → image.config = config

variable {config : LaunchConfig}

theorem sessionChild_config {mgr : SessionMgr}
    (h : sessionChild mgr entry auth fds sv₀ sv₁ r = some image) : image.config = mgr.config := by
  simp only [sessionChild] at h
  split at h
  · cases h
  split at h
  · cases h
  split at h
  · cases h
  split at h
  · cases h
  · cases h
    rfl

theorem Configured.keep (h : Configured config d) (hm : d'.mgr.config = d.mgr.config)
    (hc : ∀ c ∈ d'.children, ∃ c₀ ∈ d.children, c.image = c₀.image) : Configured config d' := by
  refine ⟨hm.trans h.mgr, ?_⟩
  intro c hmem image hi
  obtain ⟨c₀, hmem₀, heq⟩ := hc c hmem
  exact h.images c₀ hmem₀ image (heq ▸ hi)

theorem Configured.same (h : Configured config d) (hm : d'.mgr.config = d.mgr.config)
    (hc : d'.children = d.children) : Configured config d' :=
  h.keep hm fun c hmem => ⟨c, hc ▸ hmem, rfl⟩

theorem Configured.forked (h : Configured config d) {i : Fin maxSessions} {res : Bool × Daemon}
    (hs : ForkStep d i auth r res) : Configured config res.2 := by
  cases hs with
  | noPair => exact h
  | noFork => exact h.same rfl rfl
  | forked sv₀ sv₁ pid =>
    refine ⟨h.mgr, ?_⟩
    intro c hmem image hi
    rcases List.mem_cons.1 hmem with rfl | hmem
    · exact (sessionChild_config hi).trans h.mgr
    · exact h.images c hmem image hi

theorem Configured.getSession (h : Configured config d) :
    Configured config (sessionMgrGetSession db d auth r).2 := by
  have hstep := sessionMgrGetSession_step db d auth r
  generalize sessionMgrGetSession db d auth r = res at hstep
  have hnamed : ∀ i username, Configured config (d.named i username) := by
    intro i username
    exact h.same rfl rfl
  cases hstep with
  | unknown => exact h
  | found => exact h
  | full => exact h
  | failed _ _ _ hf => exact ((hnamed _ _).forked hf).same rfl rfl
  | forked _ _ _ hf => exact (hnamed _ _).forked hf

theorem Configured.reaped (h : Configured config d) (pid : Nat) :
    Configured config (reapChild d pid) := by
  have hrest : ∀ c ∈ d.children.filter (·.pid ≠ pid), ∃ c₀ ∈ d.children, c.image = c₀.image :=
    fun c hmem => ⟨c, List.mem_of_mem_filter hmem, rfl⟩
  have hstep := reapChild_step d pid
  generalize reapChild d pid = d' at hstep
  cases hstep with
  | stranger => exact h.keep rfl hrest
  | worker => exact h.keep rfl hrest

theorem Configured.step (h : Configured config d) (db : Passwd) (e : DaemonEvent) :
    Configured config (d.step db e) := by
  cases e with
  | getSession auth r => exact h.getSession
  | workerExited pid =>
    refine h.keep rfl ?_
    intro c hmem
    obtain ⟨c₀, hmem₀, rfl⟩ := List.mem_map.1 hmem
    refine ⟨c₀, hmem₀, ?_⟩
    split <;> rfl
  | reap pids =>
    change Configured config (sessionMgrReap d pids)
    simp only [sessionMgrReap]
    induction pids generalizing d with
    | nil => exact h
    | cons pid pids ih => exact ih (h.reaped pid)

/-! ### From one command line to another -/

/-- Numbers come from `atoi`. -/
structure MainOptions.Sizes (o : MainOptions) : Prop where
  width : FitsInt o.width
  height : FitsInt o.height

theorem MainOptions.Sizes.scan (h : o.Sizes) (ho : o.scan fs = .ok o') : o'.Sizes := by
  induction fs generalizing o with
  | nil =>
    cases ho
    exact h
  | cons f fs ih =>
    cases f with
    | bad => cases ho
    | option val arg =>
      cases arg with
      | none => cases ho
      | some arg =>
        apply ih _ ho
        constructor
        · dsimp only [MainOptions.set]
          split
          · exact atoi_fits arg
          · exact h.width
        · dsimp only [MainOptions.set]
          split
          · exact atoi_fits arg
          · exact h.height

theorem daemonMain_ok (h : daemonMain posix argv = .ok o) :
    o.Sizes ∧ o.certFile.isSome ∧ o.keyFile.isSome := by
  rw [daemonMain] at h
  split at h
  · cases h
  · next o' hscan =>
    cases h
    have hdefaults : daemonDefaults.Sizes := ⟨by decide, by decide⟩
    have hsizes := hdefaults.scan hscan
    exact ⟨⟨hsizes.width, hsizes.height⟩, rfl, rfl⟩

/-- Whatever command line the daemon accepts, every worker that it ever starts reads the daemon's
desktop command, files and size from its own, and the number of its end of the socket pair. -/
theorem launch_faithful (hmain : daemonMain posix argv = .ok o) (hc :
      c ∈ ((daemon db).run (.start o.sessionMgr fds) es).children)
    (hi : c.image = some image) (hfd : FitsInt image.ipcFd) :
    sessionMain posix' image.argv = .ok
      { o with port := defaultPort, ipcFd := image.ipcFd } := by
  obtain ⟨hsizes, hcert, hkey⟩ := daemonMain_ok hmain
  obtain ⟨cert, hcert⟩ := Option.isSome_iff_exists.1 hcert
  obtain ⟨key, hkey⟩ := Option.isSome_iff_exists.1 hkey
  have hstart : Configured o.sessionMgr.config (.start o.sessionMgr fds) :=
    ⟨rfl, fun _ hmem => absurd hmem List.not_mem_nil⟩
  have hall : (daemon db).Along (fun _ _ => True) (.start o.sessionMgr fds) es :=
    System.along_of_forall fun _ _ => trivial
  have hrun := (System.always_of_step (S := daemon db) (C := fun _ _ => True)
    (fun d e h _ => h.step db e) hstart hall).last
  have himage := hrun.images c hc image hi
  have hwidth : image.width = o.width := congrArg LaunchConfig.width himage
  have hheight : image.height = o.height := congrArg LaunchConfig.height himage
  have hdesktop : image.desktopCmd = o.desktopCmd := congrArg LaunchConfig.desktopCmd himage
  have hcertFile : image.cert = o.certFile.getD autoCert := congrArg LaunchConfig.cert himage
  have hkeyFile : image.key = o.keyFile.getD autoKey := congrArg LaunchConfig.key himage
  rw [image.sessionMain_argv hfd (hwidth ▸ hsizes.width) (hheight ▸ hsizes.height), hwidth, hheight,
    hdesktop, hcertFile, hkeyFile, hcert, hkey]
  rfl

theorem launch_faithful_kiosk :
    ∃ c ∈ ((daemon twoNames).run (.start kioskOptions.sessionMgr .empty)
        [.getSession (.basic 1000) (.working 3 4 70)]).children,
      ∃ image, c.image = some image ∧ sessionMain true image.argv =
        .ok ⟨defaultPort, 1024, 600, .ofBytes (ascii "--help"), some autoCert, some autoKey, 4⟩ := by
  have hmain : daemonMain false (kioskSettings.flatMap Setting.words) = .ok kioskOptions := rfl
  have hc : _ ∈ ((daemon twoNames).run (.start kioskOptions.sessionMgr .empty)
      [.getSession (.basic 1000) (.working 3 4 70)]).children := List.mem_cons_self
  exact ⟨_, hc, _, rfl, launch_faithful hmain hc rfl (by decide)⟩

end Wlrdp
