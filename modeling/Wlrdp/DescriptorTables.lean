import Mathlib.Data.List.Nodup
import Mathlib.Logic.Function.Basic

namespace Wlrdp
set_option autoImplicit true

structure Descriptor (α : Type) where
  object : α
  cloexec : Bool
deriving DecidableEq

/-- The descriptor table of a process. -/
abbrev DescriptorTable (α : Type) := Nat → Option (Descriptor α)

namespace DescriptorTable

def empty : DescriptorTable α := fun _ => none

def install (t : DescriptorTable α) (fd : Nat) (a : α) (cloexec : Bool) : DescriptorTable α :=
  Function.update t fd (some ⟨a, cloexec⟩)

def close (t : DescriptorTable α) (fd : Nat) : DescriptorTable α := Function.update t fd none

/-- `socketpair`: both ends get the same flag. -/
def socketpair (t : DescriptorTable α) (fd₁ fd₂ : Nat) (a b : α) (cloexec : Bool) :
    DescriptorTable α := (t.install fd₁ a cloexec).install fd₂ b cloexec

/-- `exec` closes the flagged descriptors and keeps the others under their numbers. -/
def exec (t : DescriptorTable α) : DescriptorTable α := fun fd => (t fd).filter (!·.cloexec)

def Opens (t : DescriptorTable α) (a : α) : Prop := ∃ fd d, t fd = some d ∧ d.object = a

/-- Every descriptor of an object in `P` is closed by `exec`. -/
def Seals (t : DescriptorTable α) (P : α → Prop) : Prop :=
  ∀ fd d, t fd = some d → P d.object → d.cloexec = true

variable {t : DescriptorTable α} {P : α → Prop}

@[simp] theorem install_self (t : DescriptorTable α) (fd : Nat) (a : α) (cloexec : Bool) :
    t.install fd a cloexec fd = some ⟨a, cloexec⟩ := Function.update_self ..

theorem install_of_ne (h : n ≠ fd) : t.install fd a cloexec n = t n := Function.update_of_ne h ..

@[simp] theorem close_self (t : DescriptorTable α) (fd : Nat) : t.close fd fd = none :=
  Function.update_self ..

theorem close_of_ne (h : n ≠ fd) : t.close fd n = t n := Function.update_of_ne h ..

theorem socketpair_left (h : fd₁ ≠ fd₂) :
    t.socketpair fd₁ fd₂ a b cloexec fd₁ = some ⟨a, cloexec⟩ :=
  (install_of_ne h).trans (install_self ..)

theorem socketpair_right (t : DescriptorTable α) (fd₁ fd₂ : Nat) (a b : α) (cloexec : Bool) :
    t.socketpair fd₁ fd₂ a b cloexec fd₂ = some ⟨b, cloexec⟩ := install_self ..

theorem exec_cloexec (h : t fd = some ⟨a, true⟩) : t.exec fd = none := by
  rw [exec, h]
  rfl

theorem exec_closed (h : t fd = none) : t.exec fd = none := by
  rw [exec, h]
  rfl

theorem Seals.install (h : t.Seals P) (ha : P a → cloexec = true) :
    (t.install fd a cloexec).Seals P := by
  intro n d hd hP
  by_cases hn : n = fd
  · subst hn
    rw [install_self] at hd
    cases hd
    exact ha hP
  · rw [install_of_ne hn] at hd
    exact h n d hd hP

theorem Seals.close (h : t.Seals P) : (t.close fd).Seals P := by
  intro n d hd hP
  by_cases hn : n = fd
  · subst hn
    rw [close_self] at hd
    cases hd
  · rw [close_of_ne hn] at hd
    exact h n d hd hP

theorem Seals.socketpair (h : t.Seals P) : (t.socketpair fd₁ fd₂ a b true).Seals P :=
  (h.install fun _ => rfl).install fun _ => rfl

/-- Nothing sealed crosses `exec`. -/
theorem Seals.exec (h : t.Seals P) (ha : P a) : ¬ t.exec.Opens a := by
  rintro ⟨fd, d, hd, rfl⟩
  rw [DescriptorTable.exec, Option.filter_eq_some_iff, Bool.not_eq_true'] at hd
  obtain ⟨hopen, hkept⟩ := hd
  rw [h fd d hopen ha] at hkept
  cases hkept

/-! ### What a process has opened -/

/-- The table has the descriptors in `held`, each once, besides those of `base`. -/
structure Extends (t base : DescriptorTable α) (held : List Nat) : Prop where
  nodup : held.Nodup
  added : ∀ fd ∈ held, base fd = none ∧ (t fd).isSome = true
  kept : ∀ fd, fd ∉ held → t fd = base fd

namespace Extends

theorem refl (base : DescriptorTable α) : base.Extends base [] :=
  ⟨List.nodup_nil, fun _ h => absurd h List.not_mem_nil, fun _ _ => rfl⟩

theorem perm (h : t.Extends base held) (hp : held.Perm held') : t.Extends base held' := by
  refine ⟨hp.nodup_iff.1 h.nodup, fun fd hmem => ?_, fun fd hmem => ?_⟩
  · exact h.added fd (hp.mem_iff.2 hmem)
  · exact h.kept fd fun hold => hmem (hp.mem_iff.1 hold)

/-- A free descriptor is none of those held, and was free at first. -/
theorem free (h : t.Extends base held) (hfree : t fd = none) : fd ∉ held ∧ base fd = none := by
  have hnot : fd ∉ held := by
    intro hmem
    have hopen := (h.added fd hmem).2
    rw [hfree] at hopen
    cases hopen
  exact ⟨hnot, (h.kept fd hnot).symm.trans hfree⟩

theorem install (h : t.Extends base held) (hfree : t fd = none) (a : α) (cloexec : Bool) :
    (t.install fd a cloexec).Extends base (fd :: held) := by
  obtain ⟨hnot, hbase⟩ := h.free hfree
  refine ⟨List.nodup_cons.2 ⟨hnot, h.nodup⟩, fun n hn => ?_, fun n hn => ?_⟩
  · rcases List.mem_cons.1 hn with rfl | hmem
    · rw [install_self]
      exact ⟨hbase, rfl⟩
    · have hne : n ≠ fd := by
        rintro rfl
        exact hnot hmem
      rw [install_of_ne hne]
      exact h.added n hmem
  · rw [install_of_ne (List.ne_of_not_mem_cons hn)]
    exact h.kept n (List.not_mem_of_not_mem_cons hn)

theorem close (h : t.Extends base (fd :: held)) : (t.close fd).Extends base held := by
  obtain ⟨hnot, hnodup⟩ := List.nodup_cons.1 h.nodup
  refine ⟨hnodup, fun n hn => ?_, fun n hn => ?_⟩
  · have hne : n ≠ fd := by
      rintro rfl
      exact hnot hn
    rw [close_of_ne hne]
    exact h.added n (List.mem_cons_of_mem _ hn)
  · by_cases heq : n = fd
    · rw [heq, close_self]
      exact (h.added fd List.mem_cons_self).1.symm
    · rw [close_of_ne heq]
      exact h.kept n (List.not_mem_cons_of_ne_of_not_mem heq hn)

end Extends

theorem install_close (h : t fd = none) : (t.install fd a cloexec).close fd = t := by
  rw [DescriptorTable.close, DescriptorTable.install, Function.update_idem, ← h,
    Function.update_eq_self]

/-- Of a new pair of descriptors the second is closed again. -/
theorem socketpair_close (hne : fd₁ ≠ fd₂) (h₂ : t fd₂ = none) (a b : α) (cloexec : Bool) :
    (t.socketpair fd₁ fd₂ a b cloexec).close fd₂ = t.install fd₁ a cloexec :=
  install_close ((install_of_ne hne.symm).trans h₂)

/-- A new pair of descriptors is closed again. -/
theorem socketpair_closed (hne : fd₁ ≠ fd₂) (h₁ : t fd₁ = none) (h₂ : t fd₂ = none) (a b : α)
    (cloexec : Bool) : ((t.socketpair fd₁ fd₂ a b cloexec).close fd₁).close fd₂ = t := by
  have hswap (t : DescriptorTable α) : (t.close fd₁).close fd₂ = (t.close fd₂).close fd₁ :=
    Function.update_comm hne ..
  rw [hswap, socketpair_close hne h₂, install_close h₁]

end DescriptorTable
end Wlrdp
