import Mathlib.Data.List.Nodup
import Mathlib.Data.List.Perm.Basic
import Mathlib.Logic.Function.Basic

namespace Wlrdp
set_option autoImplicit true

/-- Pipes whose write ends are passed on: from the reader to a router (`requested`), from there
back to the reader's own side (`undelivered`) or to somebody else (`held`). The reader blocks in
one read at a time. -/
structure PipeNetwork (β : Type) where
  requested : List Nat
  undelivered : List Nat
  held : List Nat
  data : Nat → List β
  nextPipe : Nat
  reading : Option Nat

namespace PipeNetwork

def writeEnds (v : PipeNetwork β) : List Nat := v.requested ++ (v.undelivered ++ v.held)

/-- The steps of a network. The label is the pipe that the router passes back to the reader's own
side. -/
inductive Step (v : PipeNetwork β) : Option Nat → PipeNetwork β → Prop
  | idle (n : Nat) : Step v none { v with nextPipe := v.nextPipe + n }
  | opened (hr : v.reading = none) (h : rd = none ∨ rd = some v.nextPipe) :
      Step v none { v with
        requested := v.requested ++ [v.nextPipe], nextPipe := v.nextPipe + 1, reading := rd }
  | answered (hr : v.reading = none) (h : v.undelivered = p :: rest) (bytes : List β) (n : Nat) :
      Step v none { v with
        undelivered := rest, data := Function.update v.data p (v.data p ++ bytes)
        nextPipe := v.nextPipe + n }
  | read (hr : v.reading = some p) (hd : v.data p ≠ []) (bytes : List β)
      (h : rd = none ∨ rd = some p) :
      Step v none { v with data := Function.update v.data p bytes, reading := rd }
  | ended (hr : v.reading = some p) (hw : p ∉ v.writeEnds) : Step v none { v with reading := none }
  | served (h : v.requested = p :: rest) :
      Step v (some p) { v with requested := rest, undelivered := v.undelivered ++ [p] }
  | routed (h : v.requested = p :: rest) :
      Step v none { v with requested := rest, held := p :: v.held }
  | refused (h : v.requested = p :: rest) : Step v none { v with requested := rest }
  | asked : Step v none { v with
      undelivered := v.undelivered ++ [v.nextPipe], nextPipe := v.nextPipe + 1 }
  | written (h : p ∈ v.held) (bytes : List β) :
      Step v none { v with data := Function.update v.data p (v.data p ++ bytes) }
  | closed (h : p ∈ v.held) : Step v none { v with held := v.held.erase p }

/-- A pipe has at most one write end, and nothing is written to it before somebody holds it. -/
structure Inv (v : PipeNetwork β) : Prop where
  nodup : v.writeEnds.Nodup
  fresh : ∀ p ∈ v.writeEnds, p < v.nextPipe
  reading : ∀ p, v.reading = some p → p < v.nextPipe
  unwritten : ∀ p ∈ v.requested ++ v.undelivered, v.data p = []
  future : ∀ p, v.nextPipe ≤ p → v.data p = []

/-- The reader waits for a pipe whose only write end is on its way to the reader itself. -/
def WaitsOnSelf (v : PipeNetwork β) : Prop :=
  ∃ p ∈ v.reading, v.data p = [] ∧ p ∈ v.undelivered ∧ p ∉ v.requested ∧ p ∉ v.held

instance [DecidableEq β] (v : PipeNetwork β) : Decidable v.WaitsOnSelf :=
  inferInstanceAs (Decidable (∃ p ∈ v.reading, _))

variable {v v' : PipeNetwork β}

/-- The write ends only move, except for those that are closed. -/
theorem Inv.shrink (h : Inv v) (hsub : v'.writeEnds.Subperm v.writeEnds)
    (hn : v.nextPipe ≤ v'.nextPipe) (hr : ∀ p, v'.reading = some p → v.reading = some p)
    (hu : ∀ p ∈ v'.requested ++ v'.undelivered, v'.data p = [])
    (hf : ∀ p, v'.nextPipe ≤ p → v'.data p = []) : Inv v' where
  nodup := by
    obtain ⟨l, hperm, hsublist⟩ := hsub
    exact hperm.nodup_iff.1 (h.nodup.sublist hsublist)
  fresh p hp := Nat.lt_of_lt_of_le (h.fresh p (hsub.subset hp)) hn
  reading p hp := Nat.lt_of_lt_of_le (h.reading p (hr p hp)) hn
  unwritten := hu
  future := hf

/-- A fresh pipe gets its write end. -/
theorem Inv.extend (h : Inv v) (hperm : v'.writeEnds.Perm (v.nextPipe :: v.writeEnds))
    (hn : v'.nextPipe = v.nextPipe + 1)
    (hr : ∀ p, v'.reading = some p → v.reading = some p ∨ p = v.nextPipe)
    (hu : ∀ p ∈ v'.requested ++ v'.undelivered, p ∈ v.requested ++ v.undelivered ∨ p = v.nextPipe)
    (hd : v'.data = v.data) : Inv v' where
  nodup := by
    refine hperm.nodup_iff.2 (List.nodup_cons.2 ⟨fun hmem => ?_, h.nodup⟩)
    exact Nat.lt_irrefl _ (h.fresh _ hmem)
  fresh p hp := by
    rcases List.mem_cons.1 (hperm.mem_iff.1 hp) with rfl | hp
    · omega
    · have := h.fresh p hp
      omega
  reading p hp := by
    rcases hr p hp with hp | rfl
    · have := h.reading p hp
      omega
    · omega
  unwritten p hp := by
    rw [hd]
    rcases hu p hp with hp | rfl
    · exact h.unwritten p hp
    · exact h.future _ (Nat.le_refl _)
  future p hp := by
    rw [hd]
    exact h.future p (by omega)

theorem Inv.not_held (h : Inv v) (hp : p ∈ v.requested ++ v.undelivered) : p ∉ v.held := by
  intro hheld
  have hnodup := h.nodup
  rw [writeEnds, ← List.append_assoc] at hnodup
  exact (List.nodup_append.1 hnodup).2.2 p hp p hheld rfl

theorem Inv.not_requested (h : Inv v) (hp : p ∈ v.undelivered ++ v.held) : p ∉ v.requested :=
  fun hreq => (List.nodup_append.1 h.nodup).2.2 p hreq p hp rfl

theorem Inv.update (h : Inv v) (hp : p < v.nextPipe) (hq : v'.nextPipe ≥ v.nextPipe)
    (hd : v'.data = Function.update v.data p bytes) (n : Nat) (hn : v'.nextPipe ≤ n) :
    v'.data n = [] := by
  rw [hd, Function.update_of_ne (by omega)]
  exact h.future n (by omega)

theorem step_inv (h : Inv v) (hs : Step v l v') : Inv v' := by
  cases hs with
  | idle n =>
    refine h.shrink (List.Subperm.refl _) (Nat.le_add_right ..) (fun _ h => h) h.unwritten
      fun p hp => h.future p ?_
    exact Nat.le_trans (Nat.le_add_right ..) hp
  | opened hr hreading =>
    refine h.extend ?_ rfl (fun p hp => .inr ?_) (fun p hp => ?_) rfl
    · rw [writeEnds, List.append_assoc]
      exact List.perm_middle
    · rcases hreading with rfl | rfl
      · cases hp
      · exact (Option.some.inj hp).symm
    · simp only [List.mem_append, List.mem_singleton] at hp ⊢
      grind
  | answered hr hu bytes n =>
    rename_i p rest
    have hp : p ∈ v.undelivered := hu ▸ List.mem_cons_self
    have hnodup := h.nodup
    rw [writeEnds, hu] at hnodup
    have hlt : p < v.nextPipe :=
      h.fresh p (List.mem_append_right _ (List.mem_append_left _ hp))
    refine h.shrink ?_ (Nat.le_add_right ..) (fun _ h => h) (fun q hq => ?_)
      (h.update hlt (Nat.le_add_right ..) rfl)
    · simp only [writeEnds]
      rw [hu]
      exact ((List.sublist_cons_self p (rest ++ v.held)).append_left _).subperm
    · have hne : q ≠ p := by grind
      change Function.update v.data p _ q = []
      rw [Function.update_of_ne hne]
      exact h.unwritten q (by grind)
  | read hr hd bytes hreading =>
    rename_i p rd
    have hp := h.reading p hr
    refine h.shrink (List.Subperm.refl _) (Nat.le_refl _) (fun q hq => ?_) (fun q hq => ?_)
      (h.update hp (Nat.le_refl _) rfl)
    · rcases hreading with rfl | rfl
      · cases hq
      · rw [hr]
        exact hq
    · have hne : q ≠ p := fun heq => hd (heq ▸ h.unwritten q hq)
      change Function.update v.data p _ q = []
      rw [Function.update_of_ne hne]
      exact h.unwritten q hq
  | ended hr hw =>
    exact h.shrink (List.Subperm.refl _) (Nat.le_refl _) (fun q hq => by cases hq) h.unwritten
      h.future
  | served hreq =>
    rename_i p rest
    refine h.shrink ?_ (Nat.le_refl _) (fun _ h => h) (fun q hq => h.unwritten q ?_) h.future
    · simp only [writeEnds]
      rw [hreq, List.append_assoc]
      apply List.Perm.subperm
      change (rest ++ (v.undelivered ++ p :: v.held)).Perm (p :: (rest ++ (v.undelivered ++ v.held)))
      exact (List.perm_middle.append_left rest).trans List.perm_middle
    · rw [hreq]
      simp only [List.mem_append, List.mem_cons] at hq ⊢
      grind
  | routed hreq =>
    rename_i p rest
    refine h.shrink ?_ (Nat.le_refl _) (fun _ h => h) (fun q hq => h.unwritten q ?_) h.future
    · simp only [writeEnds]
      rw [hreq]
      exact ((List.perm_middle.append_left rest).trans List.perm_middle).subperm
    · rw [hreq]
      exact List.mem_cons_of_mem p hq
  | refused hreq =>
    rename_i p rest
    refine h.shrink ?_ (Nat.le_refl _) (fun _ h => h) (fun q hq => h.unwritten q ?_) h.future
    · simp only [writeEnds]
      rw [hreq]
      exact (List.sublist_cons_self p _).subperm
    · rw [hreq]
      exact List.mem_cons_of_mem p hq
  | asked =>
    refine h.extend ?_ rfl (fun p hp => .inl hp) (fun p hp => ?_) rfl
    · rw [writeEnds, List.append_assoc]
      exact (List.perm_middle.append_left v.requested).trans List.perm_middle
    · simp only [List.mem_append, List.mem_singleton] at hp ⊢
      grind
  | written hheld bytes =>
    rename_i p
    have hlt : p < v.nextPipe :=
      h.fresh p (List.mem_append_right _ (List.mem_append_right _ hheld))
    refine h.shrink (List.Subperm.refl _) (Nat.le_refl _) (fun _ h => h) (fun q hq => ?_)
      (h.update hlt (Nat.le_refl _) rfl)
    have hne : q ≠ p := fun heq => h.not_held hq (heq ▸ hheld)
    change Function.update v.data p _ q = []
    rw [Function.update_of_ne hne]
    exact h.unwritten q hq
  | closed hheld =>
    refine h.shrink ?_ (Nat.le_refl _) (fun _ h => h) h.unwritten h.future
    exact ((List.erase_sublist.append_left _).append_left _).subperm

/-- The reader comes to wait for itself only when the pipe that it reads is passed back to it. -/
theorem label_of_waits (h : Inv v) (hw : ¬ v.WaitsOnSelf) (hs : Step v l v')
    (hw' : v'.WaitsOnSelf) : ∃ p, l = some p ∧ v.reading = some p := by
  obtain ⟨p, hp, hd, hu, hreq, hheld⟩ := hw'
  have hold : v.reading = some p → v.data p = [] → p ∈ v.undelivered → p ∉ v.requested →
      p ∉ v.held → ∃ p, l = some p ∧ v.reading = some p :=
    fun h₁ h₂ h₃ h₄ h₅ => absurd ⟨p, h₁, h₂, h₃, h₄, h₅⟩ hw
  cases hs with
  | idle => exact hold hp hd hu hreq hheld
  | opened hr hreading =>
    exfalso
    rcases hreading with rfl | rfl
    · cases hp
    · cases Option.some.inj hp
      exact hreq (List.mem_append_right _ List.mem_cons_self)
  | answered hr =>
    change p ∈ v.reading at hp
    rw [hr] at hp
    cases hp
  | read hr hdata bytes hreading =>
    rename_i q rd
    have hq : q = p := by
      rcases hreading with rfl | rfl
      · cases hp
      · exact Option.some.inj hp
    subst hq
    exact absurd (h.unwritten _ (List.mem_append_right _ hu)) hdata
  | ended => cases hp
  | served hrequested =>
    rename_i q rest
    by_cases hq : p = q
    · exact ⟨q, rfl, hq ▸ hp⟩
    · have hu' : p ∈ v.undelivered := by
        rcases List.mem_append.1 hu with hu | hu
        · exact hu
        · exact absurd (List.mem_singleton.1 hu) hq
      refine hold hp hd hu' (fun hmem => ?_) hheld
      rw [hrequested] at hmem
      rcases List.mem_cons.1 hmem with heq | hmem
      · exact hq heq
      · exact hreq hmem
  | routed hrequested =>
    rename_i q rest
    refine hold hp hd hu (fun hmem => ?_) fun hmem => hheld (List.mem_cons_of_mem _ hmem)
    rw [hrequested] at hmem
    rcases List.mem_cons.1 hmem with rfl | hmem
    · exact hheld List.mem_cons_self
    · exact hreq hmem
  | refused hrequested =>
    exact hold hp hd hu (h.not_requested (List.mem_append_left _ hu)) hheld
  | asked =>
    have hne : p ≠ v.nextPipe := Nat.ne_of_lt (h.reading p hp)
    have hu' : p ∈ v.undelivered := by
      rcases List.mem_append.1 hu with hu | hu
      · exact hu
      · exact absurd (List.mem_singleton.1 hu) hne
    exact hold hp hd hu' hreq hheld
  | written hmem =>
    rename_i q bytes
    have hne : p ≠ q := fun heq => hheld (heq ▸ hmem)
    change Function.update v.data q _ p = [] at hd
    rw [Function.update_of_ne hne] at hd
    exact hold hp hd hu hreq hheld
  | closed hmem => exact hold hp hd hu hreq (h.not_held (List.mem_append_right _ hu))

theorem waits_of_served (h : Inv v) (hs : Step v (some p) v') (hp : v.reading = some p) :
    v'.WaitsOnSelf := by
  cases hs with
  | served hrequested =>
    rename_i rest
    have hmem : p ∈ v.requested := hrequested ▸ List.mem_cons_self
    have hleft : p ∈ v.requested ++ v.undelivered := List.mem_append_left _ hmem
    refine ⟨p, hp, h.unwritten p hleft, List.mem_append_right _ List.mem_cons_self, ?_,
      h.not_held hleft⟩
    have hnodup := (List.nodup_append.1 h.nodup).1
    rw [hrequested] at hnodup
    exact (List.nodup_cons.1 hnodup).1

theorem step_waits_iff (h : Inv v) (hw : ¬ v.WaitsOnSelf) (hs : Step v l v') :
    v'.WaitsOnSelf ↔ ∃ p, l = some p ∧ v.reading = some p := by
  constructor
  · exact label_of_waits h hw hs
  · rintro ⟨p, rfl, hp⟩
    exact waits_of_served h hs hp

/-- A reader that waits for itself waits for ever. -/
theorem step_waits (h : v.WaitsOnSelf) (hs : Step v l v') : v'.WaitsOnSelf := by
  obtain ⟨p, hp, hd, hu, hreq, hheld⟩ := h
  have hreading : v.reading = some p := hp
  cases hs with
  | idle => exact ⟨p, hp, hd, hu, hreq, hheld⟩
  | opened hr => rw [hr] at hreading; cases hreading
  | answered hr => rw [hr] at hreading; cases hreading
  | read hr hdata =>
    cases hr.symm.trans hreading
    exact absurd hd hdata
  | ended hr hw =>
    cases hr.symm.trans hreading
    exact absurd (List.mem_append_right _ (List.mem_append_left _ hu)) hw
  | served hrequested =>
    rw [hrequested] at hreq
    exact ⟨p, hp, hd, List.mem_append_left _ hu, fun h => hreq (List.mem_cons_of_mem _ h), hheld⟩
  | routed hrequested =>
    rw [hrequested] at hreq
    refine ⟨p, hp, hd, hu, fun h => hreq (List.mem_cons_of_mem _ h), fun hmem => ?_⟩
    rcases List.mem_cons.1 hmem with rfl | hmem
    · exact hreq List.mem_cons_self
    · exact hheld hmem
  | refused hrequested =>
    rw [hrequested] at hreq
    exact ⟨p, hp, hd, hu, fun h => hreq (List.mem_cons_of_mem _ h), hheld⟩
  | asked => exact ⟨p, hp, hd, List.mem_append_left _ hu, hreq, hheld⟩
  | written hmem =>
    have hne : p ≠ _ := fun heq => hheld (heq ▸ hmem)
    refine ⟨p, hp, ?_, hu, hreq, hheld⟩
    change Function.update v.data _ _ p = []
    rw [Function.update_of_ne hne]
    exact hd
  | closed hmem => exact ⟨p, hp, hd, hu, hreq, fun h => hheld (List.mem_of_mem_erase h)⟩

end PipeNetwork
end Wlrdp
