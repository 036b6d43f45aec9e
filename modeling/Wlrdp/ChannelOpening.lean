import Wlrdp.PeerSoundness
import Wlrdp.WorkerSemantics

namespace Wlrdp
set_option autoImplicit true

variable {p p' : Peer}

/-! ### Opening one channel -/

@[simp] theorem Channels.free_obtain (c : Channels) (o : Channel) : (c.obtain o).free o = c := by
  rw [Channels.obtain, Channels.free, Ledger.release_acquire]

/-- Without an open channel the peer is as it was. -/
theorem dispOpen_failed (h : r.ok = false) : dispOpen p r = (false, p) := by
  simp only [ChannelSetup.ok] at h
  simp only [dispOpen]
  cases hn : r.contextNew with
  | none => rfl
  | some disp =>
    rw [hn, Option.isSome_some, Bool.true_and] at h
    simp [h]

theorem dispOpen_opened (hn : r.contextNew = some disp) (ho : r.opens = true) :
    dispOpen p r = (true, { p with
      ctx.dispContext := some disp, ctx.dispOpened := true
      chans := (p.chans.obtain (p.channel .disp disp)).opened (p.channel .disp disp)
      out := p.out ++ [Output.stored .disp p.ctx.dispContext] }) := by
  simp only [dispOpen]
  simp only [hn, ho]
  rfl

theorem clipboardOpenCliprdr_failed (h : r.ok = false) :
    clipboardOpenCliprdr p r = (false, p) := by
  simp only [ChannelSetup.ok] at h
  simp only [clipboardOpenCliprdr]
  cases hn : r.contextNew with
  | none => rfl
  | some cliprdr =>
    rw [hn, Option.isSome_some, Bool.true_and] at h
    simp [h]

theorem clipboardOpenCliprdr_opened (hn : r.contextNew = some cliprdr) (ho : r.opens = true) :
    clipboardOpenCliprdr p r = (true, { p with
      cliprdr := some cliprdr
      chans := (p.chans.obtain (p.channel .cliprdr cliprdr)).opened (p.channel .cliprdr cliprdr)
      out := p.out ++ [Output.stored .cliprdr p.cliprdr] }) := by
  simp only [clipboardOpenCliprdr]
  simp only [hn, ho]
  rfl

theorem rdpsndOpen_failed (h : r.ok = false) : rdpsndOpen p r = (false, p) := by
  simp only [RdpsndSetup.ok] at h
  simp only [rdpsndOpen]
  cases hn : r.contextNew with
  | none => rfl
  | some rdpsnd =>
    rw [hn, Option.isSome_some, Bool.true_and] at h
    cases hi : r.initialized with
    | false => simp
    | true =>
      rw [hi, Bool.true_and] at h
      simp [h]

theorem rdpsndOpen_opened (hn : r.contextNew = some rdpsnd) (hi : r.initialized = true)
    (hs : r.started = true) :
    rdpsndOpen p r = (true, { p with
      ctx.rdpsndContext := some rdpsnd, ctx.rdpsndOpened := true
      chans := (p.chans.obtain (p.channel .rdpsnd rdpsnd)).opened (p.channel .rdpsnd rdpsnd)
      out := p.out ++ [Output.stored .rdpsnd p.ctx.rdpsndContext] }) := by
  simp only [rdpsndOpen]
  simp only [hn, hi, hs]
  rfl

theorem ChannelSetup.ok_iff : ChannelSetup.ok r = true ↔
    ∃ h, r.contextNew = some h ∧ r.opens = true := by
  rw [ChannelSetup.ok, Bool.and_eq_true, Option.isSome_iff_exists, exists_and_right]

theorem RdpsndSetup.ok_iff : RdpsndSetup.ok r = true ↔
    ∃ h, r.contextNew = some h ∧ r.initialized = true ∧ r.started = true := by
  simp only [RdpsndSetup.ok]
  rw [Bool.and_eq_true, Bool.and_eq_true, Option.isSome_iff_exists, and_assoc, exists_and_right]

/-! ### One connection -/

inductive ConnectionCall
  | check (r : VcmCheck)
  | capsAdvertise (caps : List CapSet) (r : CapsResult)
deriving DecidableEq

/-- The calls that touch the channels of one connection: the checks of the main loop, and the
advertisements that arrive once the graphics channel is open. -/
def connection : System Peer ConnectionCall where
  enabled
    | _, .check _ => True
    | p, .capsAdvertise _ _ => p.ctx.gfxOpened = true
  step
    | p, .check r => (rdpPeerCheckVcm p r).2
    | p, .capsAdvertise caps r => gfxCapsAdvertise p caps r

instance : ∀ p c, Decidable (connection.enabled p c)
  | _, .check _ => .isTrue trivial
  | p, .capsAdvertise _ _ => inferInstanceAs (Decidable (p.ctx.gfxOpened = true))

/-- A peer after `on_post_connect`. The session's clipboard may still have the channel of an
earlier connection, which `disconnect_client` leaves open. -/
def Peer.connected (id : Nat) (settings : Settings) (width height : UInt32) (clipboard : Bool)
    (vcm cliprdr : Option Handle) (chans : Channels) : Peer where
  id := id
  settings := settings
  ctx := { PeerContext.new width height clipboard with gfxVcm := vcm }
  cliprdr := cliprdr
  chans := chans
  out := []

/-- Nothing was stored over a live context. -/
def Output.replacesNothing : Output → Bool
  | .stored _ replaced => replaced.isNone
  | _ => true

def storesFresh (out : List Output) : Bool := out.all Output.replacesNothing

/-- The checks that reach the opening block: those with a ready DRDYNVC, until a check fails or
the graphics channel opens. -/
def openings : List ConnectionCall → List VcmCheck
  | [] => []
  | .capsAdvertise _ _ :: cs => openings cs
  | .check r :: cs =>
    if !r.checkFileDescriptor || r.drdynvcState = .failed then []
    else if r.drdynvcState ≠ .ready then openings cs
    else if r.gfx.ok then [r]
    else r :: openings cs

/-- Each channel opens in at most one of the blocks, and the clipboard's in none of them if it is
open at the start. -/
def opensEachOnce (clipboard cliprdr : Bool) (os : List VcmCheck) : Bool :=
  os.countP (·.disp.ok) ≤ 1 &&
    cliprdr.toNat + os.countP (fun r => clipboard && r.cliprdr.ok) ≤ 1 &&
    os.countP (·.rdpsnd.ok) ≤ 1

/-- The graphics channel is still to be opened. -/
structure Negotiating (p : Peer) : Prop where
  gfxVcm : p.ctx.gfxVcm.isSome = true
  gfxContext : p.ctx.gfxContext = none
  gfxOpened : p.ctx.gfxOpened = false
  gfxReady : p.ctx.gfxReady = false

/-- The opening block is out of reach. -/
def Settled (p : Peer) : Prop :=
  p.ctx.gfxVcm = none ∨ p.ctx.gfxOpened = true ∨ p.ctx.gfxReady = true

theorem Talks.storesFresh (h : Talks out out') : storesFresh out' = storesFresh out := by
  obtain ⟨said, hs, rfl⟩ := h
  have hsaid : Wlrdp.storesFresh said = true := by
    apply List.all_eq_true.2
    intro o ho
    have hp := hs o ho
    cases o <;> first | rfl | cases hp
  simp only [Wlrdp.storesFresh] at hsaid ⊢
  rw [List.all_append, hsaid, Bool.and_true]

theorem rdpPeerCheckVcm_settled (h : Settled p) : (rdpPeerCheckVcm p r).2 = p := by
  simp only [rdpPeerCheckVcm]
  by_cases hv : p.ctx.gfxVcm = none
  · rw [if_pos hv]
  · rw [if_neg hv, if_pos]
    rcases h with h | h | h
    · exact absurd h hv
    · rw [h, Bool.true_or]
    · rw [h, Bool.or_true]

/-- Once the block is out of reach it stays so, and nothing is stored any more. -/
theorem settled_run (h : Settled p) (hl : connection.Legal p cs) :
    storesFresh (connection.run p cs).out = storesFresh p.out := by
  induction cs generalizing p with
  | nil => rfl
  | cons c cs ih =>
    cases c with
    | check r =>
      have hsame : connection.step p (.check r) = p := rdpPeerCheckVcm_settled h
      rw [System.run_cons, hsame]
      exact ih h (hsame ▸ hl.2)
    | capsAdvertise caps r =>
      have hs := gfxCapsAdvertise_step p caps r
      have hset : Settled (gfxCapsAdvertise p caps r) := by
        have ho : p.ctx.gfxOpened = true := hl.1
        generalize gfxCapsAdvertise p caps r = p' at hs
        cases hs with
        | unconfirmed => exact .inr (.inl ho)
        | kept => exact .inr (.inl ho)
        | created => exact .inr (.inl ho)
        | fallback _ _ _ _ _ hp => exact .inl (cleaned_of_eq hp).gfxVcm
      exact (ih hset hl.2).trans hs.talk.storesFresh

/-! ### What one opening adds -/

/-- The clipboard, the channels held beside graphics, and whether nothing was stored over
one of them. -/
structure Holding (p : Peer) (clipboard disp cliprdr rdpsnd fresh : Bool) : Prop where
  clipboard : p.ctx.clipboard = clipboard
  disp : p.ctx.dispContext.isSome = disp
  cliprdr : p.cliprdr.isSome = cliprdr
  rdpsnd : p.ctx.rdpsndContext.isSome = rdpsnd
  fresh : storesFresh p.out = fresh

theorem storesFresh_stored : storesFresh (out ++ [Output.stored kind h]) =
    (storesFresh out && !h.isSome) := by
  simp only [storesFresh]
  rw [List.all_append]
  cases h <;> simp [Output.replacesNothing]

theorem dispOpen_holding (h : Holding p b d c s f) :
    Holding (dispOpen p r).2 b (d || r.ok) c s (f && !(d && r.ok)) := by
  cases hr : r.ok with
  | false => rw [dispOpen_failed hr]; simpa using h
  | true =>
    obtain ⟨disp, hn, ho⟩ := ChannelSetup.ok_iff.1 hr
    rw [dispOpen_opened hn ho]
    refine ⟨h.clipboard, (Bool.or_true d).symm, h.cliprdr, h.rdpsnd, ?_⟩
    rw [storesFresh_stored, h.fresh, h.disp, Bool.and_true]

theorem openCliprdr_holding (h : Holding p b d c s f) :
    Holding (openCliprdr p r) b d (c || (b && r.ok)) s (f && !(c && (b && r.ok))) := by
  rw [openCliprdr, h.clipboard]
  cases hb : b with
  | false => simpa [hb] using h
  | true =>
    subst hb
    rw [if_neg (by decide)]
    cases hr : r.ok with
    | false => rw [clipboardOpenCliprdr_failed hr]; simpa using h
    | true =>
      obtain ⟨cliprdr, hn, ho⟩ := ChannelSetup.ok_iff.1 hr
      rw [clipboardOpenCliprdr_opened hn ho]
      refine ⟨h.clipboard, h.disp, (Bool.or_true c).symm, h.rdpsnd, ?_⟩
      change storesFresh (p.out ++ [Output.stored .cliprdr p.cliprdr]) = _
      rw [storesFresh_stored, h.fresh, h.cliprdr, Bool.and_true, Bool.and_true]

theorem rdpsndOpen_holding (h : Holding p b d c s f) :
    Holding (rdpsndOpen p r).2 b d c (s || r.ok) (f && !(s && r.ok)) := by
  cases hr : r.ok with
  | false => rw [rdpsndOpen_failed hr]; simpa using h
  | true =>
    obtain ⟨rdpsnd, hn, hi, hs⟩ := RdpsndSetup.ok_iff.1 hr
    rw [rdpsndOpen_opened hn hi hs]
    refine ⟨h.clipboard, h.disp, h.cliprdr, (Bool.or_true s).symm, ?_⟩
    rw [storesFresh_stored, h.fresh, h.rdpsnd, Bool.and_true]

theorem gfxOpen_holding (h : Holding p b d c s f) (hg : p.ctx.gfxContext = none) :
    Holding (gfxOpen p r).2 b d c s f := by
  have hstored : storesFresh (p.out ++ [Output.stored .gfx p.ctx.gfxContext]) = f := by
    rw [storesFresh_stored, h.fresh, hg]
    simp
  rw [gfxOpen]
  split
  · exact ⟨h.clipboard, h.disp, h.cliprdr, h.rdpsnd, h.fresh⟩
  · dsimp only
    split <;> exact ⟨h.clipboard, h.disp, h.cliprdr, h.rdpsnd, hstored⟩

theorem gfxOpen_fields (p : Peer) (r : ChannelSetup) (h : Negotiating p) :
    (gfxOpen p r).2.ctx.gfxOpened = r.ok ∧ (r.ok = false → Negotiating (gfxOpen p r).2) := by
  rw [gfxOpen, ChannelSetup.ok]
  split
  · next hn =>
    rw [hn]
    exact ⟨h.gfxOpened, fun _ => ⟨h.gfxVcm, h.gfxContext, h.gfxOpened, h.gfxReady⟩⟩
  · next hn =>
    rw [hn]
    dsimp only
    split
    · next ho =>
      rw [Bool.not_eq_true'] at ho
      rw [ho]
      exact ⟨rfl, fun _ => ⟨h.gfxVcm, rfl, rfl, h.gfxReady⟩⟩
    · next ho =>
      rw [Bool.not_eq_true', Bool.not_eq_false] at ho
      rw [ho]
      exact ⟨rfl, Bool.noConfusion⟩

theorem openChannels_holding (h : Holding p b d c s f) (hn : Negotiating p) :
    let k := b && r.cliprdr.ok
    Holding (openChannels p r) b (d || r.disp.ok) (c || k) (s || r.rdpsnd.ok)
      (f && !(d && r.disp.ok) && !(c && k) && !(s && r.rdpsnd.ok)) :=
  rdpsndOpen_holding (openCliprdr_holding (dispOpen_holding (gfxOpen_holding h hn.gfxContext)))

theorem openChannels_opened (h : Negotiating p) (r : VcmCheck) :
    (r.gfx.ok = true → Settled (openChannels p r)) ∧
      (r.gfx.ok = false → Negotiating (openChannels p r)) := by
  obtain ⟨ho, hn⟩ := gfxOpen_fields p r.gfx h
  have hs := openChannels_sameGfx p r
  constructor
  · intro hok
    rw [hok] at ho
    exact .inr (.inl (hs.gfxOpened.trans ho))
  · intro hok
    obtain ⟨h₁, h₂, h₃, h₄⟩ := hn hok
    exact ⟨hs.gfxVcm ▸ h₁, hs.gfxContext.trans h₂, hs.gfxOpened.trans h₃, hs.gfxReady.trans h₄⟩

/-- The channels that are held leave room for what is still going to be opened. -/
def roomFor (b d c s : Bool) (os : List VcmCheck) : Prop :=
  d.toNat + os.countP (·.disp.ok) ≤ 1 ∧
    c.toNat + os.countP (fun r => b && r.cliprdr.ok) ≤ 1 ∧
    s.toNat + os.countP (·.rdpsnd.ok) ≤ 1

theorem room_cons (d k : Bool) (n : Nat) :
    (!(d && k)) = true ∧ (d || k).toNat + n ≤ 1 ↔ d.toNat + (n + if k then 1 else 0) ≤ 1 := by
  have hone : 1 + n ≤ 1 ↔ n = 0 := by omega
  cases d <;> cases k <;> simp [hone]

/-- What the opening block does to the room is what it takes from it. -/
theorem roomFor_cons :
    (f && !(d && r.disp.ok) && !(c && (b && r.cliprdr.ok)) && !(s && r.rdpsnd.ok)) = true ∧
        roomFor b (d || r.disp.ok) (c || (b && r.cliprdr.ok)) (s || r.rdpsnd.ok) os ↔
      f = true ∧ roomFor b d c s (r :: os) := by
  simp only [roomFor]
  rw [List.countP_cons, List.countP_cons, List.countP_cons, ← room_cons, ← room_cons,
    ← room_cons, Bool.and_eq_true, Bool.and_eq_true, Bool.and_eq_true]
  constructor
  · rintro ⟨⟨⟨⟨hf, h₁⟩, h₂⟩, h₃⟩, h₄, h₅, h₆⟩
    exact ⟨hf, ⟨h₁, h₄⟩, ⟨h₂, h₅⟩, h₃, h₆⟩
  · rintro ⟨hf, ⟨h₁, h₄⟩, ⟨h₂, h₅⟩, h₃, h₆⟩
    exact ⟨⟨⟨⟨hf, h₁⟩, h₂⟩, h₃⟩, h₄, h₅, h₆⟩

theorem roomFor_nil : roomFor b d c s [] := ⟨d.toNat_le, c.toNat_le, s.toNat_le⟩

/-- While graphics is still to be opened, a run stores over nothing exactly when there is room
for all of its openings. -/
theorem negotiating_run (hn : Negotiating p) (hh : Holding p b d c s f)
    (hl : connection.Legal p cs) :
    storesFresh (connection.run p cs).out = true ↔
      f = true ∧ roomFor b d c s (openings cs) := by
  induction cs generalizing p d c s f with
  | nil =>
    rw [System.run_nil, hh.fresh]
    exact (and_iff_left roomFor_nil).symm
  | cons call cs ih =>
    cases call with
    | capsAdvertise caps r =>
      have ho : p.ctx.gfxOpened = true := hl.1
      rw [hn.gfxOpened] at ho
      cases ho
    | check r =>
      rw [System.run_cons]
      have hlegal : connection.Legal (rdpPeerCheckVcm p r).2 cs := hl.2
      change storesFresh (connection.run (rdpPeerCheckVcm p r).2 cs).out = true ↔ _
      cases hp : rdpPeerCheckVcm p r with
      | mk ok p' =>
      rw [hp] at hlegal
      cases rdpPeerCheckVcm_step hp with
      | settled h =>
        have hv := hn.gfxVcm
        rw [hn.gfxOpened, hn.gfxReady] at h
        rcases h with h | h | h
        · rw [h] at hv; cases hv
        · cases h
        · cases h
      | handshaking hc hf hd =>
        have hos : openings (.check r :: cs) = openings cs := by
          simp [openings, hc, hf, hd]
        rw [hos]
        exact ih hn hh hlegal
      | fallback hf _ _ _ hp =>
        have hc := cleaned_of_eq hp
        have hos : openings (.check r :: cs) = [] := by
          rcases hf with hf | hf
          · simp only [openings, hf]
            simp
          · simp only [openings, hf]
            simp
        have hset : Settled p' := .inl hc.gfxVcm
        rw [hos, settled_run hset hlegal, hc.talk.storesFresh]
        exact (iff_of_eq (congrArg (· = true) hh.fresh)).trans (and_iff_left roomFor_nil).symm
      | opened hc hd =>
        have hopen := openChannels_holding (r := r) hh hn
        obtain ⟨hset, hneg⟩ := openChannels_opened hn r
        cases hg : r.gfx.ok with
        | true =>
          have hos : openings (.check r :: cs) = [r] := by
            simp only [openings, hc, hd, hg]
            simp
          rw [hos, settled_run (hset hg) hlegal, ← roomFor_cons, hopen.fresh]
          exact (and_iff_left roomFor_nil).symm
        | false =>
          have hos : openings (.check r :: cs) = r :: openings cs := by
            simp only [openings, hc, hd, hg]
            simp
          rw [hos, ← roomFor_cons]
          exact ih (hneg hg) hopen hlegal

theorem roomFor_start : roomFor b false c false os ↔ opensEachOnce b c os = true := by
  simp only [roomFor, opensEachOnce, Bool.toNat_false, Nat.zero_add, Bool.and_eq_true,
    decide_eq_true_eq, and_assoc]

/-- On one connection no channel context is stored over another exactly when it has no manager
or no channel opens in more than one of the opening blocks, and the clipboard's in none if an
earlier connection has left it open. -/
theorem stores_fresh_iff {vcm cliprdr : Option Handle} {n : Nat}
    (hl : connection.Legal (.connected n settings width height clipboard vcm cliprdr chans) cs) :
    storesFresh (connection.run
          (.connected n settings width height clipboard vcm cliprdr chans) cs).out = true ↔
      vcm = none ∨ opensEachOnce clipboard cliprdr.isSome (openings cs) = true := by
  cases vcm with
  | none => exact iff_of_true (settled_run (.inl rfl) hl) (.inl rfl)
  | some vcm =>
    have hn : Negotiating
        (.connected n settings width height clipboard (some vcm) cliprdr chans) :=
      ⟨rfl, rfl, rfl, rfl⟩
    have hh : Holding (.connected n settings width height clipboard (some vcm) cliprdr chans)
        clipboard false cliprdr.isSome false true := ⟨rfl, rfl, rfl, rfl, rfl⟩
    have hvcm : ¬ some vcm = none := Option.some_ne_none vcm
    rw [negotiating_run hn hh hl, roomFor_start, or_iff_right hvcm]
    exact and_iff_right rfl

/-- Outcomes of one opening block: the three channels beside graphics open under the given
handles. -/
def VcmCheck.opening (gfx : ChannelSetup) (disp cliprdr rdpsnd : Handle) : VcmCheck :=
  ⟨true, .ready, gfx, ⟨some disp, true⟩, ⟨some cliprdr, true⟩, ⟨some rdpsnd, true, true⟩, true⟩

theorem stores_fresh_iff_first :
    storesFresh (connection.run
        (.connected 0 (.basic 800 600 true true) 800 600 true (some 1) none .empty)
        [.check (.opening ⟨some 2, true⟩ 3 4 5), .capsAdvertise [⟨capVersion107, 0⟩]
          ⟨true, ⟨true, true, true⟩, true⟩, .check (.opening ⟨some 6, true⟩ 7 8 9)]).out = true :=
  (stores_fresh_iff (by decide)).2 (.inr (by decide))

/-- The clipboard's channel of an earlier connection is still open, and opens again. -/
example :
    connection.Legal
        (.connected 1 (.basic 800 600 true true) 800 600 true (some 1) (some 4) .empty)
        [.check (.opening ⟨some 2, true⟩ 3 5 6)] ∧
      storesFresh (connection.run
        (.connected 1 (.basic 800 600 true true) 800 600 true (some 1) (some 4) .empty)
        [.check (.opening ⟨some 2, true⟩ 3 5 6)]).out = false := by
  decide

/-- GFX fails to open, and the next iteration opens the other channels again. -/
theorem retried_opening_replaces :
    connection.Legal (.connected 0 (.basic 800 600 true true) 800 600 true (some 1) none .empty)
        [.check (.opening ⟨some 2, false⟩ 3 4 5), .check (.opening ⟨some 2, false⟩ 6 7 8)] ∧
      storesFresh (connection.run
        (.connected 0 (.basic 800 600 true true) 800 600 true (some 1) none .empty)
        [.check (.opening ⟨some 2, false⟩ 3 4 5),
          .check (.opening ⟨some 2, false⟩ 6 7 8)]).out = false := by
  decide

end Wlrdp
