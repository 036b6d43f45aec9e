import Wlrdp.DisplayFiles
import Wlrdp.OrderlyShutdown

namespace Wlrdp
set_option autoImplicit true

variable {s : CompositorLaunch} {e : LaunchInput} {name : CString}

/-! ### The session worker behind it -/

/-- Where `compositor_launch` keeps the session worker until it returns. -/
def LaunchPc.session : LaunchPc → Option SessionPc
  | .unlinking | .forking => some .launching
  | .returned _ => none
  | _ => some .awaitingDisplay

/-- The session worker comes here in some run of its own. -/
def SessionProcess.Reached (p : SessionProcess) : Prop :=
  ∃ es, sessionProcess.Legal .start es ∧ sessionProcess.run .start es = p

theorem SessionProcess.Reached.step {p : SessionProcess} (h : p.Reached)
    (hf : p.admits f = true) : (p.step f).Reached := by
  obtain ⟨es, hl, hrun⟩ := h
  refine ⟨es ++ [f], System.along_append.2 ⟨hl, ?_⟩, ?_⟩
  · rw [hrun]
    exact ⟨hf, trivial⟩
  · rw [System.run_append, hrun]
    rfl

structure CompositorLaunch.Placed (s : CompositorLaunch) : Prop where
  session : ∀ pc, s.pc.session = some pc → s.proc.pc = pc
  reached : s.proc.Reached
  failed : s.pc = .returned false → s.proc.stopping = true

theorem CompositorLaunch.Placed.start (file : Option DisplayFile) :
    (CompositorLaunch.start file).Placed := by
  refine ⟨?_, ⟨[], trivial, rfl⟩, LaunchPc.noConfusion⟩
  rintro _ ⟨⟩
  rfl

/-- A step within `compositor_launch` that leaves the session worker alone. -/
theorem CompositorLaunch.Placed.within {s' : CompositorLaunch} (h : s.Placed)
    (hproc : s'.proc = s.proc) (hpc : s'.pc.session = s.pc.session)
    (hreturned : s'.pc ≠ .returned false) : s'.Placed := by
  refine ⟨?_, ?_, fun hf => absurd hf hreturned⟩
  · rw [hproc, hpc]
    exact h.session
  · rw [hproc]
    exact h.reached

theorem CompositorLaunch.Placed.ends (h : s.Placed) (hpc : s.pc.session = some .awaitingDisplay)
    (ok : Bool) : (s.ends ok).Placed := by
  have hadmits : s.proc.admits (.displayReady ok) = true := decide_eq_true (h.session _ hpc)
  refine ⟨fun _ hnone => (by cases hnone), h.reached.step hadmits, fun hfailed => ?_⟩
  cases LaunchPc.returned.inj hfailed
  exact (destroy_left s.proc).1

/-- Outside `compositor_launch` the session worker only sees exits and signals until it returns. -/
theorem SessionProcess.awaiting_step {p : SessionProcess} (he : p.admits f = true)
    (hf : f.launches = false) (hpc : p.pc = .launching ∨ p.pc = .awaitingDisplay) :
    (p.step f).pc = p.pc := by
  have hat : p.pc.At f := SessionProcess.admits_pc he
  have hother {l : SessionPc} (hl : l ≠ .launching ∧ l ≠ .awaitingDisplay) (h : p.pc = l) :
      False := by
    rw [h] at hpc
    exact hpc.elim hl.1 hl.2
  cases f with
  | childExits | sigchld | sigterm => rfl
  | fork | displayReady => cases hf
  | kill => exact (hat.elim (hother (by decide)) (hother (by decide))).elim
  | poll =>
    obtain ⟨left, hat⟩ := hat
    exact (hother ⟨SessionPc.noConfusion, SessionPc.noConfusion⟩ hat).elim
  | _ => exact (hother (by decide) hat).elim

theorem CompositorLaunch.Placed.step (h : s.Placed) (he : s.admits e = true) :
    (s.step name e).Placed := by
  cases e with
  | unlink =>
    simp only [CompositorLaunch.step]
    split
    · next hpc => exact h.within rfl (by rw [hpc]; rfl) LaunchPc.noConfusion
    · next hpc =>
      split
      · exact h.within rfl (by rw [hpc]; rfl) LaunchPc.noConfusion
      · have hunlinked : s.unlinked.Placed := h.within rfl rfl (by
          change s.pc ≠ _
          rw [hpc]
          exact LaunchPc.noConfusion)
        apply hunlinked.ends
        change s.pc.session = _
        rw [hpc]
        rfl
    · exact h
  | fork pid =>
    have hadmits : s.proc.admits (.fork pid) = true := (Bool.and_eq_true_iff.1 he).2
    cases pid with
    | none => exact ⟨fun _ hnone => (by cases hnone), h.reached.step hadmits, fun _ => rfl⟩
    | some pid =>
      refine ⟨?_, h.reached.step hadmits, LaunchPc.noConfusion⟩
      rintro _ ⟨⟩
      rfl
  | access found =>
    simp only [CompositorLaunch.step]
    split
    · next hpc =>
      split
      · exact h.within rfl (by rw [hpc]; rfl) LaunchPc.noConfusion
      · split <;> exact h.within rfl (by rw [hpc]; rfl) LaunchPc.noConfusion
    · next hpc =>
      have hsession : s.pc.session = some .awaitingDisplay := by
        rw [hpc]
        rfl
      split
      · exact h.ends hsession true
      · split
        · exact h.ends hsession false
        · exact h.within rfl (by rw [hpc]; rfl) LaunchPc.noConfusion
    · exact h
  | read opened =>
    have hpc : s.pc = .reading := of_decide_eq_true (Bool.and_eq_true_iff.1 he).1
    exact h.within rfl (by rw [hpc]; rfl) LaunchPc.noConfusion
  | shellOpens =>
    simp only [CompositorLaunch.step, CompositorLaunch.shellOpened]
    split <;> exact ⟨h.session, h.reached, h.failed⟩
  | shellWrites | foreign => exact ⟨h.session, h.reached, h.failed⟩
  | session f =>
    obtain ⟨hf, hadmits⟩ := Bool.and_eq_true_iff.1 he
    refine ⟨fun pc hpc => ?_, h.reached.step hadmits, fun hfailed => ?_⟩
    · have hbefore := h.session pc hpc
      have hawaiting : s.proc.pc = .launching ∨ s.proc.pc = .awaitingDisplay := by
        change s.pc.session = some pc at hpc
        rw [hbefore]
        revert hpc
        cases s.pc with
        | unlinking | forking => exact fun hpc => .inl (Option.some.inj hpc).symm
        | returned => exact fun hpc => by cases hpc
        | _ => exact fun hpc => .inr (Option.some.inj hpc).symm
      exact (SessionProcess.awaiting_step hadmits (Bool.not_eq_true' _ ▸ hf) hawaiting).trans
        hbefore
    · exact (stopping_step (h.failed hfailed) hadmits).1

/-! ### The name -/

theorem readDisplayName_echoed (hne : name.bytes ≠ []) (hlen : name.length < displayNameSize)
    (hend : name.bytes.getLast hne ≠ 10 ∧ name.bytes.getLast hne ≠ 13) :
    readDisplayName (echoed name) displayNameSize = some name := by
  have hkept : name.bytes.rdropWhile (fun b => b = 10 || b = 13) = name.bytes := by
    apply List.rdropWhile_eq_self_iff.2
    intro hl
    simp only [Bool.or_eq_true, decide_eq_true_eq, not_or]
    exact hend
  have hread : ((echoed name).take (displayNameSize - 1)).rdropWhile
      (fun b => b = 10 || b = 13) = name.bytes := by
    rcases Nat.lt_or_ge name.length (displayNameSize - 1) with hshort | hlong
    · have hwhole : (echoed name).length ≤ displayNameSize - 1 := by
        rw [echoed, List.length_append]
        exact hshort
      rw [List.take_of_length_le hwhole, echoed, List.rdropWhile_concat_pos _ _ _ rfl]
      exact hkept
    · have hfull : name.bytes.length = displayNameSize - 1 :=
        Nat.le_antisymm (Nat.le_of_lt_succ hlen) hlong
      rw [echoed, List.take_append_of_le_length (Nat.le_of_eq hfull.symm), ← hfull,
        List.take_length]
      exact hkept
  have hsome : (echoed name).take (displayNameSize - 1) ≠ [] := by
    intro hnil
    rw [hnil] at hread
    exact hne hread.symm
  have hbytes : name.bytes.takeWhile (· ≠ 0) = name.bytes :=
    List.takeWhile_eq_self_iff.2 fun b hb => decide_eq_true (name.noNul b hb)
  simp only [readDisplayName, if_neg hsome, hread, if_neg hne, hbytes]

/-- The step does not read a file of another user. -/
def CompositorLaunch.readsOwn (s : CompositorLaunch) : LaunchInput → Bool
  | .read _ => !s.file.any (·.foreign)
  | _ => true

/-- What the own file contains, and what the name read from it is. -/
structure CompositorLaunch.Named (name : CString) (s : CompositorLaunch) : Prop where
  absent : s.pc = .unlinking ∨ s.pc = .forking → s.echo = .absent ∧ s.displayName = none
  content : ∀ f, s.file = some f → f.foreign = false → s.pc = .unlinking ∨
    s.echo = .opened ∧ f.content = [] ∨ s.echo = .done ∧ f.content = echoed name
  name : ∀ n, s.displayName = some n → n = name ∧ s.echo = .done
  removed : s.displayName.isSome = true → s.pc ≠ .removing → s.file.all (·.foreign) = true
  present : s.pc = .returned true ∨ (∃ left, s.pc = .awaitingSocket left) →
    s.displayName.isSome = true

namespace CompositorLaunch.Named

theorem start (name : CString) (file : Option DisplayFile) : (start file).Named name := by
  refine ⟨fun _ => ⟨rfl, rfl⟩, fun _ _ _ => .inl rfl, fun _ h => (by cases h),
    fun h => (by cases h), ?_⟩
  rintro (hpc | ⟨_, hpc⟩) <;> cases hpc

/-- Behind an `unlink` there is no file of the own user. -/
theorem all_foreign (file : Option DisplayFile) :
    (file.filter (·.foreign)).all (·.foreign) = true := by
  rw [Option.all_eq_true]
  intro f hf
  exact (Option.filter_eq_some_iff.1 hf).2

theorem no_own {file : Option DisplayFile} (h : file.all (·.foreign) = true)
    (hf : file = some f) (hown : f.foreign = false) : False := by
  rw [Option.all_eq_true] at h
  rw [h f hf] at hown
  cases hown

/-- Steps that only move on. -/
theorem moved {s' : CompositorLaunch} (h : s.Named name)
    (hsame : s'.displayName = s.displayName ∧ s'.file = s.file ∧ s'.echo = s.echo)
    (hpc' : s'.pc ≠ .unlinking ∧ s'.pc ≠ .forking) (hpc : s.pc ≠ .unlinking ∧ s.pc ≠ .removing)
    (hpresent : s'.pc = .returned true ∨ (∃ left, s'.pc = .awaitingSocket left) →
      s.displayName.isSome = true) : s'.Named name := by
  obtain ⟨hname, hfile, hecho⟩ := hsame
  refine ⟨fun hold => (hold.elim hpc'.1 hpc'.2).elim, ?_, ?_, ?_, ?_⟩
  · rw [hfile, hecho]
    intro f hf hown
    exact .inr ((h.content f hf hown).resolve_left hpc.1)
  · rw [hname, hecho]
    exact h.name
  · rw [hname, hfile]
    exact fun hsome _ => h.removed hsome hpc.2
  · rw [hname]
    exact hpresent

theorem unlinked {s' : CompositorLaunch} (h : s.Named name)
    (hsame : s'.displayName = s.displayName ∧ s'.echo = s.echo)
    (hfile : s'.file = s.file.filter (·.foreign))
    (habsent : s'.pc = .unlinking ∨ s'.pc = .forking → s.pc = .unlinking)
    (hpresent : s'.pc = .returned true ∨ (∃ left, s'.pc = .awaitingSocket left) →
      s.displayName.isSome = true) : s'.Named name := by
  obtain ⟨hname, hecho⟩ := hsame
  have hforeign := all_foreign s.file
  rw [← hfile] at hforeign
  refine ⟨?_, fun f hf hown => (no_own hforeign hf hown).elim, ?_, fun _ _ => hforeign, ?_⟩
  · rw [hname, hecho]
    exact fun hpc => h.absent (.inl (habsent hpc))
  · rw [hname, hecho]
    exact h.name
  · rw [hname]
    exact hpresent

/-- Until the shell has written, no name is read. -/
theorem unread (h : s.Named name) (hecho : s.echo ≠ .done) : s.displayName = none := by
  cases hn : s.displayName with
  | none => rfl
  | some n => exact absurd (h.name n hn).2 hecho

/-- Steps of the shell. -/
theorem shell {s' : CompositorLaunch} (h : s.Named name)
    (hecho : s.echo = .pending ∨ s.echo = .opened)
    (hsame : s'.displayName = s.displayName ∧ s'.pc = s.pc)
    (hcontent : ∀ f, s'.file = some f → f.foreign = false → s'.echo = .opened ∧ f.content = [] ∨
      s'.echo = .done ∧ f.content = echoed name) : s'.Named name := by
  obtain ⟨hname, hpc⟩ := hsame
  have hnone : s'.displayName = none := by
    rw [hname]
    apply h.unread
    rcases hecho with hecho | hecho <;> rw [hecho] <;> exact EchoPc.noConfusion
  refine ⟨fun hold => ?_, fun f hf hown => .inr (hcontent f hf hown), fun n hn => ?_, ?_, ?_⟩
  · rw [hpc] at hold
    have habsent := (h.absent hold).1
    rcases hecho with hecho | hecho <;> cases hecho.symm.trans habsent
  · cases hnone.symm.trans hn
  · rw [hnone]
    exact fun hsome => absurd hsome Bool.false_ne_true
  · rw [hname, hpc]
    exact h.present

theorem forked {s' : CompositorLaunch} (h : s.Named name) (hpc : s.pc = .forking)
    (hsame : s'.displayName = s.displayName ∧ s'.file = s.file)
    (hpc' : s'.pc = .awaitingFile left) : s'.Named name := by
  obtain ⟨hname, hfile⟩ := hsame
  obtain ⟨habsent, hnone⟩ := h.absent (.inr hpc)
  rw [← hname] at hnone
  refine ⟨fun hold => ?_, fun f hf hown => ?_, fun n hn => ?_, fun hsome => ?_, fun hold => ?_⟩
  · rw [hpc'] at hold
    rcases hold with hold | hold <;> cases hold
  · rw [hfile] at hf
    have hold := h.content f hf hown
    rw [hpc, habsent] at hold
    rcases hold with hold | ⟨hold, _⟩ | ⟨hold, _⟩ <;> cases hold
  · cases hnone.symm.trans hn
  · rw [hnone] at hsome
    cases hsome
  · rw [hpc'] at hold
    rcases hold with hold | ⟨_, hold⟩ <;> cases hold

/-- The name is read from the own file once the shell has written it. -/
theorem content_read (h : s.Named name) (hread : readDisplayName (echoed name) displayNameSize =
      some name) (hpc : s.pc = .reading) (hown : s.readsOwn (.read opened) = true)
    (hn : (s.step name (.read opened)).displayName = some n) : n = name ∧ s.echo = .done := by
  simp only [CompositorLaunch.step, Option.bind_eq_some_iff] at hn
  obtain ⟨content, hcontent, hn⟩ := hn
  split at hcontent
  · obtain ⟨f, hf, rfl⟩ := Option.map_eq_some_iff.1 hcontent
    rw [readsOwn, hf, Option.any_some, Bool.not_eq_true'] at hown
    rcases (h.content f hf hown) with hold | ⟨_, hempty⟩ | ⟨hdone, hwritten⟩
    · cases hpc.symm.trans hold
    · rw [hempty] at hn
      cases hn
    · rw [hwritten, hread] at hn
      exact ⟨(Option.some.inj hn).symm, hdone⟩
  · cases hcontent

theorem step (hread : readDisplayName (echoed name) displayNameSize = some name)
    (h : s.Named name) (he : s.admits e = true) (hown : s.readsOwn e = true) :
    (s.step name e).Named name := by
  cases e with
  | unlink =>
    simp only [CompositorLaunch.step]
    split
    · next hpc =>
      refine h.unlinked ⟨rfl, rfl⟩ rfl (fun _ => hpc) ?_
      rintro (hold | ⟨_, hold⟩) <;> cases hold
    · next hpc =>
      split
      · next hsome =>
        refine h.unlinked ⟨rfl, rfl⟩ rfl ?_ fun _ => hsome
        rintro (hold | hold) <;> cases hold
      · refine h.unlinked ⟨rfl, rfl⟩ rfl ?_ ?_
        · rintro (hold | hold) <;> cases hold
        · rintro (hold | ⟨_, hold⟩) <;> cases hold
    · exact h
  | fork pid =>
    have hpc : s.pc = .forking := of_decide_eq_true (Bool.and_eq_true_iff.1 he).1
    cases pid with
    | none =>
      refine h.moved ⟨rfl, rfl, rfl⟩ ⟨LaunchPc.noConfusion, LaunchPc.noConfusion⟩ ?_ ?_
      · rw [hpc]
        exact ⟨LaunchPc.noConfusion, LaunchPc.noConfusion⟩
      · rintro (hold | ⟨_, hold⟩) <;> cases hold
    | some pid => exact h.forked hpc ⟨rfl, rfl⟩ rfl
  | access found =>
    simp only [CompositorLaunch.step]
    split
    · next hpc =>
      have hat : s.pc ≠ .unlinking ∧ s.pc ≠ .removing := by
        rw [hpc]
        exact ⟨LaunchPc.noConfusion, LaunchPc.noConfusion⟩
      have hbefore {pc : LaunchPc} (hpc' : pc ≠ .returned true ∧ ∀ left, pc ≠ .awaitingSocket left)
          (hold : pc = .returned true ∨ ∃ left, pc = .awaitingSocket left) :
          s.displayName.isSome = true := by
        obtain hold | ⟨left, hold⟩ := hold
        · exact absurd hold hpc'.1
        · exact absurd hold (hpc'.2 left)
      split
      · exact h.moved ⟨rfl, rfl, rfl⟩ ⟨LaunchPc.noConfusion, LaunchPc.noConfusion⟩ hat
          (hbefore ⟨LaunchPc.noConfusion, fun _ => LaunchPc.noConfusion⟩)
      · split <;>
          exact h.moved ⟨rfl, rfl, rfl⟩ ⟨LaunchPc.noConfusion, LaunchPc.noConfusion⟩ hat
            (hbefore ⟨LaunchPc.noConfusion, fun _ => LaunchPc.noConfusion⟩)
    · next left hpc =>
      have hat : s.pc ≠ .unlinking ∧ s.pc ≠ .removing := by
        rw [hpc]
        exact ⟨LaunchPc.noConfusion, LaunchPc.noConfusion⟩
      have hsome := h.present (.inr ⟨left, hpc⟩)
      split
      · exact h.moved ⟨rfl, rfl, rfl⟩ ⟨LaunchPc.noConfusion, LaunchPc.noConfusion⟩ hat
          fun _ => hsome
      · split <;>
          exact h.moved ⟨rfl, rfl, rfl⟩ ⟨LaunchPc.noConfusion, LaunchPc.noConfusion⟩ hat
            fun _ => hsome
    · exact h
  | read opened =>
    have hpc : s.pc = .reading := of_decide_eq_true (Bool.and_eq_true_iff.1 he).1
    refine ⟨?_, fun f hf hforeign => ?_, fun n hn => ?_, fun _ hremoving => ?_, ?_⟩
    · rintro (hold | hold) <;> cases hold
    · have hold := h.content f hf hforeign
      rw [hpc] at hold
      exact .inr (hold.resolve_left LaunchPc.noConfusion)
    · exact h.content_read hread hpc hown hn
    · exact absurd rfl hremoving
    · rintro (hold | ⟨_, hold⟩) <;> cases hold
  | shellOpens =>
    have hecho : s.echo = .pending := of_decide_eq_true he
    simp only [CompositorLaunch.step, shellOpened]
    split
    · next hforeign =>
      refine h.shell (.inl hecho) ⟨rfl, rfl⟩ fun f hf hnot => ?_
      change s.file = some f at hf
      rw [hf, Option.any_some, hnot] at hforeign
      cases hforeign
    · refine h.shell (.inl hecho) ⟨rfl, rfl⟩ fun f hf _ => ?_
      cases hf
      exact .inl ⟨rfl, rfl⟩
  | shellWrites =>
    refine h.shell (.inr (of_decide_eq_true he)) ⟨rfl, rfl⟩ fun f hf hnot => ?_
    obtain ⟨f₀, _, rfl⟩ := Option.map_eq_some_iff.1 hf
    split at hnot
    · next hforeign => cases hnot.symm.trans hforeign
    · next hforeign =>
      rw [if_neg hforeign]
      exact .inr ⟨rfl, rfl⟩
  | foreign content =>
    have hforeign : (content.map (DisplayFile.mk · true)).all (·.foreign) = true := by
      cases content <;> rfl
    exact ⟨h.absent, fun f hf hnot => (no_own hforeign hf hnot).elim, h.name, fun _ _ => hforeign,
      h.present⟩
  | session => exact ⟨h.absent, h.content, h.name, h.removed, h.present⟩

end CompositorLaunch.Named

/-! ### The length of the launch -/

/-- The steps of `compositor_launch` itself. -/
def LaunchInput.own : LaunchInput → Bool
  | .unlink | .fork _ | .access _ | .read _ => true
  | _ => false

/-- The steps that `compositor_launch` still takes at most. -/
def LaunchPc.left : LaunchPc → Nat
  | .unlinking => 164
  | .forking => 163
  | .awaitingFile left => left + 63
  | .reading => 62
  | .removing => 61
  | .awaitingSocket left => left + 1
  | .returned _ => 0

theorem launch_left (name : CString) (he : s.admits e = true) :
    (s.step name e).pc.left + (if e.own then 1 else 0) ≤ s.pc.left := by
  cases e with
  | unlink =>
    simp only [CompositorLaunch.admits, Bool.or_eq_true, decide_eq_true_eq] at he
    rcases he with hpc | hpc
    · simp only [CompositorLaunch.step, hpc]
      exact Nat.le_refl _
    · simp only [CompositorLaunch.step, hpc]
      split
      · exact Nat.le_refl _
      · exact Nat.le_add_left 1 60
  | fork pid =>
    have hpc : s.pc = .forking := of_decide_eq_true (Bool.and_eq_true_iff.1 he).1
    rw [hpc]
    cases pid with
    | none => exact Nat.le_add_left 1 162
    | some pid => exact Nat.le_refl _
  | access found =>
    simp only [CompositorLaunch.admits] at he
    split at he
    · next left hpc =>
      simp only [CompositorLaunch.step, hpc]
      split
      · exact Nat.le_add_left 63 left
      · split
        · exact Nat.le_trans (Nat.le_succ 62) (Nat.le_add_left 63 left)
        · next hleft =>
          change left - 1 + 63 + 1 ≤ left + 63
          omega
    · next left hpc =>
      simp only [CompositorLaunch.step, hpc]
      split
      · exact Nat.le_add_left 1 left
      · split
        · exact Nat.le_add_left 1 left
        · next hleft =>
          change left - 1 + 1 + 1 ≤ left + 1
          omega
    · cases he
  | read opened =>
    have hpc : s.pc = .reading := of_decide_eq_true (Bool.and_eq_true_iff.1 he).1
    rw [hpc]
    exact Nat.le_refl _
  | shellOpens =>
    simp only [CompositorLaunch.step, CompositorLaunch.shellOpened]
    split <;> exact Nat.le_refl _
  | shellWrites | foreign | session => exact Nat.le_refl _

/-- Until it returns, `compositor_launch` waits for nobody. -/
theorem launch_progress (h : s.Placed) (hpc : ∀ ok, s.pc ≠ .returned ok) :
    ∃ e, e.own = true ∧ s.admits e = true := by
  cases hat : s.pc with
  | unlinking =>
    refine ⟨.unlink, rfl, ?_⟩
    rw [CompositorLaunch.admits, hat]
    rfl
  | forking =>
    have hlaunching : s.proc.pc = .launching := by
      apply h.session
      rw [hat]
      rfl
    refine ⟨.fork none, rfl, ?_⟩
    rw [CompositorLaunch.admits, SessionProcess.admits, hat, hlaunching]
    rfl
  | awaitingFile left =>
    refine ⟨.access s.file.isSome, rfl, ?_⟩
    simp only [CompositorLaunch.admits, hat, decide_true]
  | reading =>
    refine ⟨.read s.file.isSome, rfl, ?_⟩
    simp only [CompositorLaunch.admits, hat]
    cases s.file with
    | none => rfl
    | some f => exact Bool.or_true _
  | removing =>
    refine ⟨.unlink, rfl, ?_⟩
    rw [CompositorLaunch.admits, hat]
    rfl
  | awaitingSocket left =>
    refine ⟨.access false, rfl, ?_⟩
    simp only [CompositorLaunch.admits, hat]
  | returned ok => exact absurd hat (hpc ok)

/-! ### When it succeeds -/

/-- The step finds what it waits for: the fork succeeds, no loop ends without having found its
file, and the shell has written its own file when it is read. -/
def CompositorLaunch.inTime (s : CompositorLaunch) : LaunchInput → Bool
  | .fork pid => pid.isSome
  | .access found =>
    found || match s.pc with
      | .awaitingFile left | .awaitingSocket left => left ≠ 0
      | _ => true
  | .read _ => s.echo = .done && s.file.any fun f => !f.foreign
  | _ => true

/-- On the way to success. -/
structure CompositorLaunch.OnCourse (s : CompositorLaunch) : Prop where
  returned : s.pc ≠ .returned false
  named : s.pc = .removing → s.displayName.isSome = true

theorem CompositorLaunch.inTime_readsOwn (h : s.inTime e = true) : s.readsOwn e = true := by
  cases e with
  | read opened =>
    obtain ⟨f, hf, hown⟩ := (Option.any_eq_true ..).1 (Bool.and_eq_true_iff.1 h).2
    rw [readsOwn, hf]
    exact hown
  | _ => rfl

theorem CompositorLaunch.OnCourse.step
    (hread : readDisplayName (echoed name) displayNameSize = some name) (hn : s.Named name)
    (h : s.OnCourse) (he : s.admits e = true) (ht : s.inTime e = true) :
    (s.step name e).OnCourse := by
  cases e with
  | unlink =>
    simp only [CompositorLaunch.step]
    split
    · exact ⟨LaunchPc.noConfusion, fun hpc => (by cases hpc)⟩
    · next hpc =>
      rw [if_pos (h.named hpc)]
      exact ⟨LaunchPc.noConfusion, fun hpc => (by cases hpc)⟩
    · exact h
  | fork pid =>
    cases pid with
    | none => cases ht
    | some pid => exact ⟨LaunchPc.noConfusion, fun hpc => (by cases hpc)⟩
  | access found =>
    simp only [inTime, Bool.or_eq_true] at ht
    simp only [CompositorLaunch.step]
    split
    · next hpc =>
      split
      · exact ⟨LaunchPc.noConfusion, fun hpc => (by cases hpc)⟩
      · next hfound =>
        rw [hpc] at ht
        have hleft := of_decide_eq_true (ht.resolve_left hfound)
        rw [if_neg hleft]
        exact ⟨LaunchPc.noConfusion, fun hpc => (by cases hpc)⟩
    · next hpc =>
      split
      · refine ⟨fun hpc => ?_, fun hpc => (by cases hpc)⟩
        cases LaunchPc.returned.inj hpc
      · next hfound =>
        rw [hpc] at ht
        have hleft := of_decide_eq_true (ht.resolve_left hfound)
        rw [if_neg hleft]
        exact ⟨LaunchPc.noConfusion, fun hpc => (by cases hpc)⟩
    · exact h
  | read opened =>
    refine ⟨LaunchPc.noConfusion, fun _ => ?_⟩
    obtain ⟨hpc, hopened⟩ := Bool.and_eq_true_iff.1 he
    obtain ⟨hdone, hfile⟩ := Bool.and_eq_true_iff.1 ht
    obtain ⟨f, hf, hown⟩ := (Option.any_eq_true ..).1 hfile
    rw [Bool.not_eq_true'] at hown
    rw [hf] at hopened
    simp only [hown, Bool.false_or] at hopened
    have hwritten : f.content = echoed name := by
      rcases hn.content f hf hown with hold | ⟨hold, _⟩ | ⟨_, hwritten⟩
      · cases (of_decide_eq_true hpc).symm.trans hold
      · cases hold.symm.trans (of_decide_eq_true hdone)
      · exact hwritten
    simp only [CompositorLaunch.step, hf, hopened, if_true, Option.map_some, Option.bind_some,
      hwritten, hread, Option.isSome_some]
  | shellOpens =>
    simp only [CompositorLaunch.step, shellOpened]
    split <;> exact ⟨h.returned, h.named⟩
  | shellWrites | foreign | session => exact ⟨h.returned, h.named⟩

/-! ### Whole runs -/

/-- The worker is where its own program brings it, and if the launch has failed it destroys its
compositor. -/
structure CompositorLaunch.Launched (s : CompositorLaunch) : Prop where
  reached : s.proc.Reached
  failed : s.pc = .returned false → s.proc.stopping = true

/-- If the launch has succeeded, the name is that of the compositor and its file is gone. -/
def CompositorLaunch.Shown (name : CString) (s : CompositorLaunch) : Prop :=
  s.pc = .returned true → s.displayName = some name ∧ s.file.all (·.foreign) = true

theorem CompositorLaunch.Named.shown (h : s.Named name) : s.Shown name := by
  intro hpc
  have hsome := h.present (.inl hpc)
  obtain ⟨n, hn⟩ := Option.isSome_iff_exists.1 hsome
  have hgone := h.removed hsome (by rw [hpc]; exact LaunchPc.noConfusion)
  exact ⟨(h.name n hn).1 ▸ hn, hgone⟩

/-- In every interleaving with the compositor, its shell and other users `compositor_launch`
returns after at most 164 steps of its own; provided that the file it reads is not one of another
user it succeeds with no other name than that of the compositor, and it does succeed if what it
waits for comes in time. -/
theorem display_handshake (name : CString) (file : Option DisplayFile) (hne : name.bytes ≠ [])
    (hlen : name.length < displayNameSize)
    (hend : name.bytes.getLast hne ≠ 10 ∧ name.bytes.getLast hne ≠ 13)
    (hl : (compositorLaunch name).Legal (.start file) es) :
    let s := (compositorLaunch name).run (.start file) es
    (es.filter LaunchInput.own).length ≤ 164 ∧
      ((∀ ok, s.pc ≠ .returned ok) → ∃ e, e.own = true ∧ (compositorLaunch name).enabled s e) ∧
      (compositorLaunch name).Always CompositorLaunch.Launched (.start file) es ∧
      ((compositorLaunch name).Along (fun s e => s.readsOwn e = true) (.start file) es →
        (compositorLaunch name).Always (CompositorLaunch.Shown name) (.start file) es) ∧
      ((compositorLaunch name).Along (fun s e => s.inTime e = true) (.start file) es →
        s.pc ≠ .returned false) := by
  have hread := readDisplayName_echoed hne hlen hend
  have hplaced := System.always_of_legal (I := CompositorLaunch.Placed)
    (fun _ _ h he => h.step he) (.start file) hl
  refine ⟨?_, launch_progress hplaced.last, hplaced.mono fun _ h => ⟨h.reached, h.failed⟩,
    fun hown => ?_, fun htime => ?_⟩
  · have hlength := System.length_filter_add_measure_le (I := fun _ => True) LaunchInput.own
      (fun s => s.pc.left) (fun _ _ _ _ => trivial) (fun _ _ _ he => launch_left name he) trivial hl
    exact Nat.le_trans (Nat.le_add_right ..) hlength
  · have hnamed := System.always_of_step (S := compositorLaunch name)
      (I := CompositorLaunch.Named name) (fun _ _ h he => h.step hread he.1 he.2)
      (.start name file) (hl.and hown)
    exact hnamed.mono fun _ h => h.shown
  · have hcourse := System.always_of_step (S := compositorLaunch name)
      (I := fun s => s.Named name ∧ s.OnCourse)
      (fun _ _ h he => ⟨h.1.step hread he.1 (CompositorLaunch.inTime_readsOwn he.2),
        h.2.step hread h.1 he.1 he.2⟩)
      ⟨.start name file, LaunchPc.noConfusion, fun hpc => (by cases hpc)⟩ (hl.and htime)
    exact hcourse.last.2.returned

/-- A worker of the same user and pid has left its file, and a signal arrives meanwhile. -/
def staleDisplay : List LaunchInput :=
  [.unlink, .fork (some 7), .access false, .session .sigchld, .shellOpens, .access true,
    .shellWrites, .read true, .unlink, .access false, .access true]

theorem display_handshake_stale :
    ((compositorLaunch socketName).run (.start (some ⟨ascii "wayland-7\n", false⟩))
      staleDisplay).displayName = some socketName := by
  have hl : (compositorLaunch socketName).Legal (.start (some ⟨ascii "wayland-7\n", false⟩))
      staleDisplay := by decide
  obtain ⟨_, _, _, hshown, _⟩ :=
    display_handshake socketName _ (by decide) (by decide) (by decide) hl
  exact ((hshown (by decide)).last rfl).1

/-- Another user has left the file: its name is taken for that of the compositor. -/
example : ((compositorLaunch socketName).run (.start (some ⟨ascii "wayland-7\n", true⟩))
    [.unlink, .fork (some 7), .access true, .read true, .unlink, .access true]).displayName =
      some ⟨ascii "wayland-7", noNul_of_all (by decide)⟩ := by decide

end Wlrdp
