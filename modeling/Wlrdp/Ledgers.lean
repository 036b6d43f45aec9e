import Mathlib.Data.List.Perm.Basic

namespace Wlrdp
set_option autoImplicit true

/-- The objects obtained and not yet given back, and every release or use of an object that
was not live at that time. -/
structure Ledger (α : Type) where
  live : List α
  faults : List α
deriving DecidableEq

namespace Ledger

def empty : Ledger α := ⟨[], []⟩

def acquire (l : Ledger α) (a : α) : Ledger α := { l with live := a :: l.live }

variable [DecidableEq α]

def release (l : Ledger α) (a : α) : Ledger α :=
  if a ∈ l.live then { l with live := l.live.erase a } else { l with faults := a :: l.faults }

def use (l : Ledger α) (a : α) : Ledger α :=
  if a ∈ l.live then l else { l with faults := a :: l.faults }

omit [DecidableEq α] in
@[simp] theorem live_acquire (l : Ledger α) (a : α) : (l.acquire a).live = a :: l.live := rfl

omit [DecidableEq α] in
@[simp] theorem faults_acquire (l : Ledger α) (a : α) : (l.acquire a).faults = l.faults := rfl

@[simp] theorem live_release (l : Ledger α) (a : α) : (l.release a).live = l.live.erase a := by
  simp only [release]
  split
  · rfl
  · next h => exact (List.erase_of_not_mem h).symm

theorem release_of_mem {l : Ledger α} (h : a ∈ l.live) :
    l.release a = { l with live := l.live.erase a } := if_pos h

theorem faults_release_of_mem {l : Ledger α} (h : a ∈ l.live) :
    (l.release a).faults = l.faults := by rw [release_of_mem h]

@[simp] theorem release_acquire (l : Ledger α) (a : α) : (l.acquire a).release a = l := by
  rw [release_of_mem (List.mem_cons_self ..)]
  simp only [acquire, List.erase_cons_head]

omit [DecidableEq α] in
theorem acquire_perm {l : Ledger α} (h : l.live.Perm (as ++ bs)) :
    (l.acquire a).live.Perm (as ++ a :: bs) := (h.cons a).trans List.perm_middle.symm

theorem release_perm {l : Ledger α} (h : l.live.Perm (as ++ a :: bs)) :
    (l.release a).live.Perm (as ++ bs) := by
  rw [live_release]
  simpa only [List.erase_cons_head] using (h.trans List.perm_middle).erase a

theorem faults_release_perm {l : Ledger α} (h : l.live.Perm (as ++ a :: bs)) :
    (l.release a).faults = l.faults :=
  faults_release_of_mem (h.mem_iff.2 (List.mem_append_right as List.mem_cons_self))

def releaseAll (l : Ledger α) (as : List α) : Ledger α := as.foldl release l

theorem releaseAll_append (l : Ledger α) (as bs : List α) :
    l.releaseAll (as ++ bs) = (l.releaseAll as).releaseAll bs := List.foldl_append

/-- Exactly the objects `as` are live, each as often as it is listed, and none was released or
used when it was not. -/
structure Owns (l : Ledger α) (as : List α) : Prop where
  live : l.live.Perm as
  faults : l.faults = []

namespace Owns

variable {l : Ledger α}

omit [DecidableEq α] in
theorem empty : (empty : Ledger α).Owns [] := ⟨.nil, rfl⟩

omit [DecidableEq α] in
theorem acquire (h : l.Owns (as ++ bs)) : (l.acquire a).Owns (as ++ a :: bs) :=
  ⟨acquire_perm h.live, h.faults⟩

theorem release (h : l.Owns (as ++ a :: bs)) : (l.release a).Owns (as ++ bs) :=
  ⟨release_perm h.live, (faults_release_perm h.live).trans h.faults⟩

/-- Using a live object leaves the ledger alone. -/
theorem use (h : l.Owns as) (ha : a ∈ as) : l.use a = l := if_pos (h.live.mem_iff.2 ha)

theorem releaseAll (h : l.Owns (as ++ bs)) : (l.releaseAll as).Owns bs := by
  induction as generalizing l with
  | nil => exact h
  | cons a as ih =>
    have hcons : l.Owns ([] ++ a :: (as ++ bs)) := h
    exact ih hcons.release

omit [DecidableEq α] in
theorem nothing (h : l.Owns []) : l.live = [] := h.live.eq_nil

end Owns
end Ledger
end Wlrdp
