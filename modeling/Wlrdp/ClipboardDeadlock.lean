import Wlrdp.ClipboardSoundness

namespace Wlrdp
set_option autoImplicit true

variable {s s' : Parties}

/-- The session is blocked in `read_offer_text` on a pipe that nobody has written to and whose
only write end is in a `send` event that the session itself has yet to handle. -/
def Parties.WaitsOnSelf (s : Parties) : Prop := s.network.WaitsOnSelf

instance : DecidablePred Parties.WaitsOnSelf := fun s =>
  inferInstanceAs (Decidable s.network.WaitsOnSelf)

/-- The step does not pass the pipe that the session reads to a source of the session: as far as
the compositor serves an offer of such a source, the session has gone on by then. -/
def Parties.readsOthers (s : Parties) (e : PartyEvent) : Bool :=
  (s.servesSelf e).all fun pipe => s.cb.reading.all (·.pipe ≠ pipe)

theorem readsOthers_iff : s.readsOthers e = true ↔
    ¬ ∃ p, s.servesSelf e = some p ∧ s.network.reading = some p := by
  simp only [Parties.readsOthers]
  change _ ↔ ¬ ∃ p, _ ∧ s.cb.reading.map (·.pipe) = some p
  cases s.servesSelf e with
  | none => exact iff_of_true rfl fun ⟨_, h, _⟩ => by cases h
  | some p =>
    cases s.cb.reading with
    | none => exact iff_of_true rfl fun ⟨_, _, h⟩ => by cases h
    | some rd =>
      simp only [Option.all_some, decide_eq_true_eq, Option.map_some, Option.some.injEq,
        exists_eq_left', ne_eq]

theorem networkInv_step (h : s.network.Inv) (he : s.admits e = true) : (s.step e).network.Inv :=
  PipeNetwork.step_inv h (step_network he)

theorem networkInv_start : Parties.start.network.Inv :=
  ⟨List.nodup_nil, fun _ h => (by cases h), fun _ h => (by cases h), fun _ h => (by cases h),
    fun _ _ => rfl⟩

/-- A run never leaves the session waiting for itself exactly when no pipe that the session reads
is ever passed to one of its own sources. -/
theorem never_waits_iff (hl : parties.Legal .start es) :
    parties.Always (fun s => ¬ s.WaitsOnSelf) .start es ↔
      parties.Along (fun s e => s.readsOthers e = true) .start es := by
  refine System.always_iff_along (I := fun s => s.network.Inv) (D := parties.enabled) ?_ ?_
    networkInv_start (by decide) hl
  · exact fun s e h he => networkInv_step h he
  · intro s e h hw he
    rw [readsOthers_iff]
    exact not_congr (PipeNetwork.step_waits_iff h hw (step_network he))

/-- Once the session waits for itself, nothing that anybody does ends it. -/
theorem waits_for_ever (h : s.WaitsOnSelf) (hl : parties.Legal s es) :
    parties.Always Parties.WaitsOnSelf s es :=
  System.always_of_legal (I := Parties.WaitsOnSelf)
    (fun _ _ h he => PipeNetwork.step_waits h (step_network he)) h hl

/-! ### Concrete exchanges -/

def DispatchTurn.working : DispatchTurn := ⟨true, true, true, 2⟩

/-- The session handles the three events that announce a selection with text. -/
def announced : List PartyEvent := List.replicate 3 (.dispatch .working)

/-- The RDP client sets a text, and the compositor makes it the selection. -/
def setFromRdp : List PartyEvent :=
  .setText [104, 105] true :: List.replicate 3 (.compositor false)

/-- Another client's selection is read, and one from RDP is replaced before the session has heard
of it. -/
def exchange : List PartyEvent :=
  .otherSelects [clipboardMimeType] :: announced ++
    [.compositor false, .otherWrites 2 [111, 107], .readReturned 2 true, .otherCloses 2,
      .readEnded, .compositor false] ++
    setFromRdp ++ .otherSelects [clipboardMimeType] :: announced ++ [.compositor false, .readEnded]

theorem never_waits_iff_exchange :
    parties.Legal .start exchange ∧
      parties.Always (fun s => ¬ s.WaitsOnSelf) .start exchange :=
  ⟨by decide, (never_waits_iff (by decide)).2 (by decide)⟩

/-- The session reads the selection that it has just set itself. -/
theorem own_selection_blocks :
    parties.Legal .start (setFromRdp ++ announced ++ [.compositor false]) ∧
      ¬ parties.Always (fun s => ¬ s.WaitsOnSelf) .start
        (setFromRdp ++ announced ++ [.compositor false]) := by
  decide

end Wlrdp
