import Mathlib.Data.Fin.Tuple.Basic
import Mathlib.Data.List.Nodup
import Wlrdp.RegistrySemantics

namespace Wlrdp
set_option autoImplicit true

variable {db : Passwd} {d d' : Daemon} {i j : Fin maxSessions}

theorem findSession_some {mgr : SessionMgr} (h : findSession mgr username = some i) :
    (mgr.sessions i).active = true ∧ (mgr.sessions i).username = username := by
  have hp := Fin.eq_true_of_find?_eq_some h
  exact ⟨(Bool.and_eq_true_iff.1 hp).1, of_decide_eq_true (Bool.and_eq_true_iff.1 hp).2⟩

theorem findSession_none {mgr : SessionMgr} (h : findSession mgr username = none)
    (hi : (mgr.sessions i).active = true) : (mgr.sessions i).username ≠ username := by
  have hp := Fin.eq_false_of_find?_eq_none h i
  rw [hi, Bool.true_and] at hp
  exact of_decide_eq_false hp

theorem findSession_eq_none {mgr : SessionMgr}
    (h : ∀ i, (mgr.sessions i).active = true → (mgr.sessions i).username ≠ username) :
    findSession mgr username = none := by
  refine Fin.find?_eq_none_iff.2 fun i => ?_
  cases hi : (mgr.sessions i).active with
  | false => rfl
  | true =>
    rw [Bool.true_and]
    exact decide_eq_false (h i hi)

theorem allocSlot_some {mgr : SessionMgr} (h : allocSlot mgr = some i) :
    (mgr.sessions i).active = false := by
  have hp := Fin.eq_true_of_find?_eq_some h
  simpa only [Bool.not_eq_true'] using hp

/-! ### What the operations can do -/

/-- The child that a successful `fork_session` leaves in the process table. -/
def Daemon.newChild (d : Daemon) (i : Fin maxSessions) (auth : AuthResult) (sv₀ sv₁ pid : Nat)
    (r : ForkTurn) : ChildProcess where
  pid := pid
  uid := auth.uid
  image := sessionChild d.mgr (d.mgr.sessions i) auth (d.socketpair sv₀ sv₁).fds sv₀ sv₁ r
  exited := false

inductive ForkStep (d : Daemon) (i : Fin maxSessions) (auth : AuthResult) (r : ForkTurn) :
    Bool × Daemon → Prop
  | noPair (hp : r.socketpair = none) : ForkStep d i auth r (false, d)
  | noFork (sv₀ sv₁ : Nat) (hp : r.socketpair = some (sv₀, sv₁)) (hf : r.fork = none) :
      ForkStep d i auth r (false, { d.socketpair sv₀ sv₁ with
        fds := ((d.socketpair sv₀ sv₁).fds.close sv₀).close sv₁ })
  | forked (sv₀ sv₁ pid : Nat) (hp : r.socketpair = some (sv₀, sv₁)) (hf : r.fork = some pid) :
      ForkStep d i auth r
        (true, (d.socketpair sv₀ sv₁).adopt i sv₀ sv₁ (d.newChild i auth sv₀ sv₁ pid r))

theorem forkSession_step (d : Daemon) (i : Fin maxSessions) (auth : AuthResult) (r : ForkTurn) :
    ForkStep d i auth r (forkSession d i auth r) := by
  simp only [forkSession]
  cases hp : r.socketpair with
  | none => exact .noPair hp
  | some sv =>
    cases hf : r.fork with
    | none => exact .noFork _ _ hp hf
    | some pid => exact .forked _ _ pid hp hf

/-- What `session_mgr_get_session` can do: find nobody of that uid, find a session, find no
slot, fail to fork, or fork. -/
inductive GetStep (db : Passwd) (d : Daemon) (auth : AuthResult) (r : ForkTurn) :
    Option (Fin maxSessions) × Daemon → Prop
  | unknown (hn : db auth.uid = none) : GetStep db d auth r (none, d)
  | found {i : Fin maxSessions} (hn : db auth.uid = some username)
    (hs : findSession d.mgr username = some i) :
      GetStep db d auth r (some i, d)
  | full (hn : db auth.uid = some username) (hs : findSession d.mgr username = none)
      (ha : allocSlot d.mgr = none) : GetStep db d auth r (none, d)
  | failed {i : Fin maxSessions} {d' : Daemon} (hn : db auth.uid = some username)
      (hs : findSession d.mgr username = none)
      (ha : allocSlot d.mgr = some i)
      (hf : ForkStep (d.named i username) i auth r (false, d')) :
      GetStep db d auth r (none, d'.clear i)
  | forked {i : Fin maxSessions} {d' : Daemon} (hn : db auth.uid = some username)
      (hs : findSession d.mgr username = none)
      (ha : allocSlot d.mgr = some i)
      (hf : ForkStep (d.named i username) i auth r (true, d')) :
      GetStep db d auth r (some i, d')

theorem sessionMgrGetSession_step (db : Passwd) (d : Daemon) (auth : AuthResult) (r : ForkTurn) :
    GetStep db d auth r (sessionMgrGetSession db d auth r) := by
  simp only [sessionMgrGetSession]
  cases hn : db auth.uid with
  | none => exact .unknown hn
  | some username =>
    dsimp only
    cases hs : findSession d.mgr username with
    | some i => exact .found hn hs
    | none =>
      dsimp only
      cases ha : allocSlot d.mgr with
      | none => exact .full hn hs ha
      | some i =>
        have hstep := forkSession_step (d.named i username) i auth r
        dsimp only
        cases hf : forkSession (d.named i username) i auth r with
        | mk ok d' =>
          rw [hf] at hstep
          cases ok with
          | true => exact .forked hn hs ha hstep
          | false => exact .failed hn hs ha hstep

/-- A failed `fork_session` leaves the registry and the children alone. -/
theorem ForkStep.failed (h : ForkStep d i auth r (false, d')) :
    d'.mgr = d.mgr ∧ d'.children = d.children := by
  cases h with
  | noPair => exact ⟨rfl, rfl⟩
  | noFork => exact ⟨rfl, rfl⟩

/-! ### Who owns a session -/

/-- The uid that the worker of an active entry was forked for. -/
def Daemon.owner (d : Daemon) (i : Fin maxSessions) : Option UInt32 :=
  if (d.mgr.sessions i).active then
    (d.children.find? (·.pid = (d.mgr.sessions i).pid)).map (·.uid)
  else none

theorem active_of_owner (h : d.owner i = some uid) : (d.mgr.sessions i).active = true := by
  simp only [Daemon.owner] at h
  split at h
  · next ha => exact ha
  · cases h

theorem owner_congr (hs : d'.mgr.sessions i = d.mgr.sessions j)
    (hc : d'.children.find? (·.pid = (d.mgr.sessions j).pid) =
      d.children.find? (·.pid = (d.mgr.sessions j).pid)) : d'.owner i = d.owner j := by
  simp only [Daemon.owner]
  rw [hs, hc]

theorem mem_of_owner (h : d.owner i = some uid) :
    ∃ c ∈ d.children, c.pid = (d.mgr.sessions i).pid ∧ c.uid = uid := by
  have ha := active_of_owner h
  rw [Daemon.owner, if_pos ha] at h
  obtain ⟨c, hc, huid⟩ := Option.map_eq_some_iff.1 h
  have hpid := List.find?_some hc
  exact ⟨c, List.mem_of_find?_eq_some hc, of_decide_eq_true hpid, huid⟩

/-- Every active entry is backed by a child forked for a uid of the entry's name, as far as the
field holds it, and no two active entries have the same name. -/
structure RegistryInv (db : Passwd) (d : Daemon) : Prop where
  owned : ∀ i, (d.mgr.sessions i).active = true → ∃ uid name, d.owner i = some uid ∧
    db uid = some name ∧ (d.mgr.sessions i).username = name.snprintf usernameSize
  named : ∀ i j, (d.mgr.sessions i).active = true → (d.mgr.sessions j).active = true →
    (d.mgr.sessions i).username = (d.mgr.sessions j).username → i = j
  pids : (d.children.map (·.pid)).Nodup

theorem RegistryInv.start :
    RegistryInv db (.start (sessionMgrInit desktop cert key width height) fds) :=
  ⟨fun _ ha => (by cases ha), fun _ _ ha => (by cases ha), List.nodup_nil⟩

/-- Entries only go away, and those that stay keep their worker. -/
theorem RegistryInv.shrink (h : RegistryInv db d)
    (hs : ∀ i, (d'.mgr.sessions i).active = true →
      d'.mgr.sessions i = d.mgr.sessions i ∧ d'.owner i = d.owner i)
    (hp : (d'.children.map (·.pid)).Nodup) : RegistryInv db d' := by
  refine ⟨fun i hi => ?_, fun i j hi hj hij => ?_, hp⟩
  · obtain ⟨hsame, howner⟩ := hs i hi
    rw [hsame] at hi ⊢
    rw [howner]
    exact h.owned i hi
  · have hsi := (hs i hi).1
    have hsj := (hs j hj).1
    rw [hsi] at hi hij
    rw [hsj] at hj hij
    exact h.named i j hi hj hij

theorem RegistryInv.owner_inj (h : RegistryInv db d) (hi : d.owner i = some uid)
    (hj : d.owner j = some uid) : i = j := by
  have hai := active_of_owner hi
  have haj := active_of_owner hj
  obtain ⟨u, n, hu, hn, hui⟩ := h.owned i hai
  obtain ⟨v, m, hv, hm, hvj⟩ := h.owned j haj
  cases hi.symm.trans hu
  cases hj.symm.trans hv
  cases hn.symm.trans hm
  exact h.named i j hai haj (hui.trans hvj.symm)

theorem RegistryInv.pid_inj (h : RegistryInv db d) (hi : (d.mgr.sessions i).active = true)
    (hj : (d.mgr.sessions j).active = true)
    (hpid : (d.mgr.sessions i).pid = (d.mgr.sessions j).pid) : i = j := by
  obtain ⟨uid, _, hu, _⟩ := h.owned i hi
  apply h.owner_inj hu
  rw [← hu]
  simp only [Daemon.owner]
  rw [if_pos hi, if_pos hj, hpid]

theorem clear_same (ha : (d.mgr.sessions i).active = false) (hm : d'.mgr = (d.named i n).mgr)
    (hj : ((d'.clear i).mgr.sessions j).active = true) :
    (d'.clear i).mgr.sessions j = d.mgr.sessions j := by
  change ((d'.mgr.setEntry i .zero).sessions j).active = true at hj
  change (d'.mgr.setEntry i .zero).sessions j = _
  by_cases hij : j = i
  · subst hij
    rw [SessionMgr.sessions_setEntry_self] at hj
    cases hj
  · rw [SessionMgr.sessions_setEntry_of_ne hij, hm]
    exact SessionMgr.sessions_setEntry_of_ne hij

theorem RegistryInv.failed (h : RegistryInv db d) (ha : allocSlot d.mgr = some i)
    (hf : ForkStep (d.named i username) i auth r (false, d')) :
    RegistryInv db (d'.clear i) := by
  obtain ⟨hm, hc⟩ := hf.failed
  have hc' : (d'.clear i).children = d.children := hc
  refine h.shrink (fun j hj => ?_) (hc'.symm ▸ h.pids)
  have hsame := clear_same (allocSlot_some ha) hm hj
  exact ⟨hsame, owner_congr hsame (by rw [hc'])⟩

/-- `fork_session` fills the slot and leaves every other entry to its worker. -/
theorem adopt_entries (d : Daemon) (i : Fin maxSessions) (username : CString) (auth : AuthResult)
    (sv₀ sv₁ pid : Nat) (r : ForkTurn) (j : Fin maxSessions) :
    (((d.named i username).socketpair sv₀ sv₁).adopt i sv₀ sv₁
        ((d.named i username).newChild i auth sv₀ sv₁ pid r)).mgr.sessions j =
      if j = i then ⟨true, username.snprintf usernameSize, pid, sv₀, .ready⟩
      else d.mgr.sessions j := by
  change (SessionMgr.setEntry _ i _).sessions j = _
  split
  · next hij =>
    subst hij
    rw [SessionMgr.sessions_setEntry_self]
    change SessionEntry.mk true ((d.mgr.setEntry j _).sessions j).username pid sv₀ .ready = _
    rw [SessionMgr.sessions_setEntry_self]
  · next hij =>
    rw [SessionMgr.sessions_setEntry_of_ne hij]
    exact SessionMgr.sessions_setEntry_of_ne hij

theorem admits_fork (he : d.admits (.getSession auth r) = true) (hf : r.fork = some pid) :
    ∀ c ∈ d.children, c.pid ≠ pid := by
  simp only [Daemon.admits] at he
  simp only [hf, Option.all_some, Bool.and_eq_true, List.all_eq_true, decide_eq_true_eq] at he
  exact he.2.2

theorem RegistryInv.forked (h : RegistryInv db d) (hn : db auth.uid = some username)
    (hfresh : ∀ c ∈ d.children, c.pid ≠ pid)
    (hname : ∀ j, (d.mgr.sessions j).active = true →
      (d.mgr.sessions j).username ≠ username.snprintf usernameSize)
    (hd' : d' = ((d.named i username).socketpair sv₀ sv₁).adopt i sv₀ sv₁
      ((d.named i username).newChild i auth sv₀ sv₁ pid r)) :
    RegistryInv db d' ∧ d'.owner i = some auth.uid := by
  have hs : ∀ j, d'.mgr.sessions j = if j = i then
      ⟨true, username.snprintf usernameSize, pid, sv₀, .ready⟩ else d.mgr.sessions j := by
    intro j
    rw [hd']
    exact adopt_entries d i username auth sv₀ sv₁ pid r j
  have hi : d'.mgr.sessions i = ⟨true, username.snprintf usernameSize, pid, sv₀, .ready⟩ := by
    rw [hs, if_pos rfl]
  have hc : d'.children = (d.named i username).newChild i auth sv₀ sv₁ pid r :: d.children := by
    rw [hd']
    rfl
  have hown : d'.owner i = some auth.uid := by
    rw [Daemon.owner, hi, if_pos rfl, hc, List.find?_cons_of_pos]
    · rfl
    · exact decide_eq_true rfl
  have hold : ∀ j, j ≠ i → (d.mgr.sessions j).active = true → d'.owner j = d.owner j := by
    intro j hij hj
    apply owner_congr (by rw [hs, if_neg hij])
    obtain ⟨uid, _, hu, _⟩ := h.owned j hj
    obtain ⟨c, hmem, hpid, _⟩ := mem_of_owner hu
    have hne : pid ≠ (d.mgr.sessions j).pid := fun heq => hfresh c hmem (hpid.trans heq.symm)
    rw [hc, List.find?_cons_of_neg]
    exact fun heq => hne (of_decide_eq_true heq)
  refine ⟨⟨fun j hj => ?_, fun j k hj hk hjk => ?_, ?_⟩, hown⟩
  · by_cases hij : j = i
    · subst hij
      exact ⟨auth.uid, username, hown, hn, by rw [hi]⟩
    · have hsj : d'.mgr.sessions j = d.mgr.sessions j := by rw [hs, if_neg hij]
      rw [hsj] at hj ⊢
      rw [hold j hij hj]
      exact h.owned j hj
  · rw [hs] at hj hk
    rw [hs j, hs k] at hjk
    by_cases hij : j = i <;> by_cases hik : k = i
    · exact hij.trans hik.symm
    · rw [if_pos hij, if_neg hik] at hjk
      rw [if_neg hik] at hk
      exact absurd hjk.symm (hname k hk)
    · rw [if_neg hij, if_pos hik] at hjk
      rw [if_neg hij] at hj
      exact absurd hjk (hname j hj)
    · rw [if_neg hij, if_neg hik] at hjk
      rw [if_neg hij] at hj
      rw [if_neg hik] at hk
      exact h.named j k hj hk hjk
  · rw [hc, List.map_cons, List.nodup_cons]
    refine ⟨fun hmem => ?_, h.pids⟩
    obtain ⟨c, hmem, hpid⟩ := List.mem_map.1 hmem
    exact hfresh c hmem hpid

theorem RegistryInv.exited (h : RegistryInv db d) (pid : Nat) :
    RegistryInv db (d.step db (.workerExited pid)) := by
  have hchild : ∀ c : ChildProcess, (if c.pid = pid then { c with exited := true } else c).pid =
      c.pid ∧ (if c.pid = pid then { c with exited := true } else c).uid = c.uid := by
    intro c
    split <;> exact ⟨rfl, rfl⟩
  refine h.shrink (fun i _ => ⟨rfl, ?_⟩) ?_
  · simp only [Daemon.owner]
    change (if (d.mgr.sessions i).active then
      ((d.children.map _).find? _).map _ else none) = _
    rw [List.find?_map, Option.map_map]
    simp only [Function.comp_def, hchild]
    rfl
  · change ((d.children.map _).map _).Nodup
    rw [List.map_map]
    simp only [Function.comp_def, hchild]
    exact h.pids

theorem reapChild_inv (h : RegistryInv db d) (pid : Nat) : RegistryInv db (reapChild d pid) := by
  let d₁ : Daemon := { d with children := d.children.filter (·.pid ≠ pid) }
  have hpids : (d₁.children.map (·.pid)).Nodup :=
    h.pids.sublist ((List.filter_sublist).map _)
  have hother : ∀ i, (d.mgr.sessions i).pid ≠ pid → ∀ d' : Daemon, d'.children = d₁.children →
      d'.mgr.sessions i = d.mgr.sessions i → d'.owner i = d.owner i := by
    intro i hi d' hc hs
    apply owner_congr hs
    rw [hc]
    change (d.children.filter _).find? _ = _
    rw [List.find?_filter]
    congr 1
    funext c
    by_cases hcp : c.pid = (d.mgr.sessions i).pid
    · simp only [hcp, hi, ne_eq, not_false_eq_true, decide_true, and_self]
    · simp only [hcp, decide_false, Bool.false_eq_true, and_false]
  unfold reapChild
  dsimp only
  split
  · next hnone =>
    refine h.shrink (fun i hi => ⟨rfl, hother i (fun hpid => ?_) d₁ rfl rfl⟩) hpids
    have hp := Fin.eq_false_of_find?_eq_none hnone i
    change (d.mgr.sessions i).active = true at hi
    rw [hi, Bool.true_and] at hp
    exact of_decide_eq_false hp hpid
  · next i hsome =>
    have hp := Fin.eq_true_of_find?_eq_some hsome
    have hai := (Bool.and_eq_true_iff.1 hp).1
    have hpid : (d.mgr.sessions i).pid = pid :=
      of_decide_eq_true (Bool.and_eq_true_iff.1 hp).2
    refine h.shrink (fun j hj => ?_) hpids
    change ((d.mgr.setEntry i .zero).sessions j).active = true at hj
    by_cases hij : j = i
    · subst hij
      rw [SessionMgr.sessions_setEntry_self] at hj
      cases hj
    · have hsame : (d.mgr.setEntry i .zero).sessions j = d.mgr.sessions j :=
        SessionMgr.sessions_setEntry_of_ne hij
      rw [hsame] at hj
      exact ⟨hsame, hother j (fun hpj => hij (h.pid_inj hj hai (hpj.trans hpid.symm))) _ rfl hsame⟩

theorem sessionMgrReap_inv (h : RegistryInv db d) (pids : List Nat) :
    RegistryInv db (sessionMgrReap d pids) := by
  simp only [sessionMgrReap]
  induction pids generalizing d with
  | nil => exact h
  | cons pid pids ih => exact ih (reapChild_inv h pid)

end Wlrdp
