import Wlrdp.ChannelOpening
import Wlrdp.WorkerSoundness

namespace Wlrdp
set_option autoImplicit true

variable {p p' : Peer} {w w' : Worker} {e : Event}

/-! ### The channels of a client -/

/-- Exactly the channels `l` exist and are open, and none was ever released twice. -/
structure Channels.Holds (c : Channels) (l : List Channel) : Prop where
  objects : c.objects.live.Perm l
  links : c.links.live.Perm l
  freedOnce : c.objects.faults = []
  closedOnce : c.links.faults = []

theorem Channels.Holds.empty : Channels.empty.Holds [] :=
  ⟨.nil, .nil, rfl, rfl⟩

theorem Channels.Holds.open {c : Channels} (h : c.Holds (as ++ bs)) :
    ((c.obtain o).opened o).Holds (as ++ o :: bs) :=
  ⟨Ledger.acquire_perm h.objects, Ledger.acquire_perm h.links, h.freedOnce, h.closedOnce⟩

theorem Channels.Holds.close {c : Channels} (h : c.Holds (as ++ o :: bs)) :
    ((c.close o).free o).Holds (as ++ bs) :=
  ⟨Ledger.release_perm h.objects, Ledger.release_perm h.links,
    (Ledger.faults_release_perm h.objects).trans h.freedOnce,
    (Ledger.faults_release_perm h.links).trans h.closedOnce⟩

namespace Peer

def slot (p : Peer) (kind : ChannelKind) (h : Option Handle) : List Channel :=
  (h.map (p.channel kind)).toList

/-- The channels that the fields of a peer refer to, in the order in which `gfx_cleanup` closes
them. -/
def held (p : Peer) : List Channel :=
  p.slot .gfx p.ctx.gfxContext ++ (p.slot .rdpsnd p.ctx.rdpsndContext ++
    (p.slot .cliprdr p.cliprdr ++ (p.slot .disp p.ctx.dispContext ++
      p.slot .vcm p.ctx.gfxVcm)))

end Peer

/-- The channel fields of a peer account for every channel there is. -/
structure HeldInv (p : Peer) : Prop where
  holds : p.chans.Holds p.held
  gfx : p.ctx.gfxContext.isSome = true → p.ctx.gfxOpened = true
  rdpsnd : p.ctx.rdpsndContext.isSome = true → p.ctx.rdpsndOpened = true
  cliprdr : p.cliprdr.isSome = true → (p.ctx.cliprdrOpened && p.ctx.clipboard) = true
  disp : p.ctx.dispContext.isSome = true → p.ctx.dispOpened = true

theorem closeGfx_heldInv (h : HeldInv p) : HeldInv (closeGfx p d) := by
  have hh := h.holds
  simp only [closeGfx]
  simp only [Peer.held] at hh
  cases hg : p.ctx.gfxContext with
  | none => exact h
  | some gfx =>
    rw [hg] at hh
    dsimp only
    rw [h.gfx (hg ▸ rfl), if_pos rfl]
    have hheld : p.chans.Holds ([] ++ p.channel .gfx gfx :: _) := hh
    exact ⟨hheld.close, fun hs => (by cases hs), h.rdpsnd, h.cliprdr, h.disp⟩

theorem closeRdpsnd_heldInv (h : HeldInv p) : HeldInv (closeRdpsnd p) := by
  have hh := h.holds
  simp only [closeRdpsnd]
  simp only [Peer.held] at hh
  cases hg : p.ctx.rdpsndContext with
  | none => exact h
  | some rdpsnd =>
    rw [hg] at hh
    dsimp only
    rw [h.rdpsnd (hg ▸ rfl), if_pos rfl]
    exact ⟨Channels.Holds.close hh, h.gfx, fun hs => (by cases hs), h.cliprdr, h.disp⟩

theorem closeCliprdr_heldInv (h : HeldInv p) :
    HeldInv (closeCliprdr p) ∧ (closeCliprdr p).cliprdr = none := by
  have hh := h.holds
  simp only [closeCliprdr, clipboardCloseCliprdr]
  simp only [Peer.held] at hh
  cases hg : p.cliprdr with
  | none =>
    have hnone : p.cliprdr.isSome = true → (false && p.ctx.clipboard) = true := by
      intro hs
      rw [hg] at hs
      cases hs
    split
    · exact ⟨⟨h.holds, h.gfx, h.rdpsnd, hnone, h.disp⟩, hg⟩
    · exact ⟨h, hg⟩
  | some cliprdr =>
    rw [hg, ← List.append_assoc] at hh
    rw [h.cliprdr (hg ▸ rfl), if_pos rfl]
    refine ⟨⟨?_, h.gfx, h.rdpsnd, fun hs => (by cases hs), h.disp⟩, rfl⟩
    have hclosed := Channels.Holds.close hh
    rw [List.append_assoc] at hclosed
    exact hclosed

theorem closeDisp_heldInv (h : HeldInv p) : HeldInv (closeDisp p) := by
  have hh := h.holds
  simp only [closeDisp]
  simp only [Peer.held] at hh
  cases hg : p.ctx.dispContext with
  | none => exact h
  | some disp =>
    rw [hg, ← List.append_assoc, ← List.append_assoc] at hh
    dsimp only
    rw [h.disp (hg ▸ rfl), if_pos rfl]
    refine ⟨?_, h.gfx, h.rdpsnd, h.cliprdr, fun hs => (by cases hs)⟩
    have hclosed := Channels.Holds.close hh
    rw [List.append_assoc, List.append_assoc] at hclosed
    exact hclosed

theorem closeVcm_heldInv (h : HeldInv p) : HeldInv (closeVcm p) := by
  have hh := h.holds
  simp only [closeVcm]
  simp only [Peer.held] at hh
  cases hg : p.ctx.gfxVcm with
  | none => exact h
  | some vcm =>
    rw [hg, ← List.append_assoc, ← List.append_assoc, ← List.append_assoc] at hh
    refine ⟨?_, h.gfx, h.rdpsnd, h.cliprdr, h.disp⟩
    have hclosed := Channels.Holds.close hh
    rw [List.append_assoc, List.append_assoc, List.append_assoc] at hclosed
    exact hclosed

/-- `gfx_cleanup` closes and frees every channel of the peer, and clears the fields. -/
theorem gfxCleanup_heldInv (h : HeldInv p) :
    HeldInv (gfxCleanup p d) ∧ (gfxCleanup p d).held = [] := by
  obtain ⟨_, _, _, e₁⟩ := closeGfx_shape p d
  obtain ⟨_, _, _, e₂⟩ := closeRdpsnd_shape (closeGfx p d)
  obtain ⟨_, _, _, _, e₃⟩ := closeCliprdr_shape (closeRdpsnd (closeGfx p d))
  obtain ⟨_, e₄⟩ := closeDisp_shape (closeCliprdr (closeRdpsnd (closeGfx p d)))
  obtain ⟨_, e₅⟩ := closeVcm_shape (closeDisp (closeCliprdr (closeRdpsnd (closeGfx p d))))
  obtain ⟨h₃, hc⟩ := closeCliprdr_heldInv (closeRdpsnd_heldInv (closeGfx_heldInv (d := d) h))
  have h₅ := closeVcm_heldInv (closeDisp_heldInv h₃)
  rw [e₃] at hc
  simp only [gfxCleanup]
  rw [e₅, e₄, e₃, e₂, e₁] at h₅ ⊢
  dsimp only at hc
  subst hc
  exact ⟨⟨h₅.holds, fun hs => (by cases hs), fun hs => (by cases hs), fun hs => (by cases hs),
    fun hs => (by cases hs)⟩, rfl⟩

theorem gfxOpen_heldInv (h : HeldInv p) (hn : p.ctx.gfxContext = none) :
    HeldInv (gfxOpen p r).2 := by
  have hh := h.holds
  rw [gfxOpen]
  rw [Peer.held, hn] at hh
  split
  · exact ⟨h.holds, h.gfx, h.rdpsnd, h.cliprdr, h.disp⟩
  · next gfx _ =>
    dsimp only
    split
    · rw [Channels.free_obtain]
      exact ⟨hh, fun hs => (by cases hs), h.rdpsnd, h.cliprdr, h.disp⟩
    · have hheld : p.chans.Holds ([] ++ _) := hh
      exact ⟨hheld.open, fun _ => rfl, h.rdpsnd, h.cliprdr, h.disp⟩

theorem dispOpen_heldInv (h : HeldInv p) (hn : r.ok = true → p.ctx.dispContext = none) :
    HeldInv (dispOpen p r).2 := by
  cases hr : r.ok with
  | false => rw [dispOpen_failed hr]; exact h
  | true =>
    obtain ⟨disp, hc, ho⟩ := ChannelSetup.ok_iff.1 hr
    have hh := h.holds
    rw [Peer.held, hn hr, ← List.append_assoc, ← List.append_assoc] at hh
    rw [dispOpen_opened hc ho]
    refine ⟨?_, h.gfx, h.rdpsnd, h.cliprdr, fun _ => rfl⟩
    have hopened : Channels.Holds _ (_ ++ p.channel .disp disp :: _) := hh.open
    rw [List.append_assoc, List.append_assoc] at hopened
    exact hopened

theorem openCliprdr_heldInv (h : HeldInv p)
    (hn : (p.ctx.clipboard && r.ok) = true → p.cliprdr = none) : HeldInv (openCliprdr p r) := by
  simp only [openCliprdr]
  cases hb : p.ctx.clipboard with
  | false => exact h
  | true =>
    rw [hb, Bool.true_and] at hn
    rw [if_neg (by decide)]
    cases hr : r.ok with
    | false => rw [clipboardOpenCliprdr_failed hr]; exact h
    | true =>
      obtain ⟨cliprdr, hc, ho⟩ := ChannelSetup.ok_iff.1 hr
      have hh := h.holds
      rw [Peer.held, hn hr, ← List.append_assoc] at hh
      rw [clipboardOpenCliprdr_opened hc ho]
      refine ⟨?_, h.gfx, h.rdpsnd, fun _ => hb, h.disp⟩
      have hopened : Channels.Holds _ (_ ++ p.channel .cliprdr cliprdr :: _) := hh.open
      rw [List.append_assoc] at hopened
      exact hopened

theorem rdpsndOpen_heldInv (h : HeldInv p) (hn : r.ok = true → p.ctx.rdpsndContext = none) :
    HeldInv (rdpsndOpen p r).2 := by
  cases hr : r.ok with
  | false => rw [rdpsndOpen_failed hr]; exact h
  | true =>
    obtain ⟨rdpsnd, hc, hi, hs⟩ := RdpsndSetup.ok_iff.1 hr
    have hh := h.holds
    rw [Peer.held, hn hr] at hh
    rw [rdpsndOpen_opened hc hi hs]
    have hopened : Channels.Holds _ (_ ++ p.channel .rdpsnd rdpsnd :: _) := hh.open
    exact ⟨hopened, h.gfx, fun _ => rfl, h.cliprdr, h.disp⟩

theorem vcmInit_heldInv (h : HeldInv p) (hn : p.ctx.gfxVcm = none) :
    HeldInv (vcmInit p r).2 := by
  have hh := h.holds
  rw [vcmInit]
  rw [Peer.held, hn] at hh
  split
  · exact ⟨h.holds, h.gfx, h.rdpsnd, h.cliprdr, h.disp⟩
  · next vcm _ =>
    dsimp only
    split
    · rw [Channels.free_obtain]
      exact ⟨hh, h.gfx, h.rdpsnd, h.cliprdr, h.disp⟩
    · refine ⟨?_, h.gfx, h.rdpsnd, h.cliprdr, h.disp⟩
      rw [← List.append_assoc, ← List.append_assoc, ← List.append_assoc] at hh
      have hopened : Channels.Holds _ (_ ++ p.channel .vcm vcm :: _) := hh.open
      rw [List.append_assoc, List.append_assoc, List.append_assoc] at hopened
      exact hopened

/-- The opening block meets no live context of a channel that it opens. -/
def Peer.vacant (p : Peer) (r : VcmCheck) : Bool :=
  (!r.disp.ok || p.ctx.dispContext.isNone) &&
    (!(p.ctx.clipboard && r.cliprdr.ok) || p.cliprdr.isNone) &&
    (!r.rdpsnd.ok || p.ctx.rdpsndContext.isNone)

theorem openChannels_heldInv (h : HeldInv p) (hg : p.ctx.gfxContext = none)
    (hv : p.vacant r = true) : HeldInv (openChannels p r) := by
  simp only [Peer.vacant] at hv
  obtain ⟨hdc, hs⟩ := Bool.and_eq_true_iff.1 hv
  obtain ⟨hd, hc⟩ := Bool.and_eq_true_iff.1 hdc
  have hnone : ∀ {ok : Bool} {f : Option Handle}, (!ok || f.isNone) = true → ok = true →
      f.isSome = false := by
    rintro ok f hof rfl
    simpa using hof
  -- what is held when the turn of each channel comes
  have h₁ := gfxOpen_holding (r := r.gfx) (p := p) ⟨rfl, rfl, rfl, rfl, rfl⟩ hg
  have h₂ := dispOpen_holding (r := r.disp) h₁
  have h₃ := openCliprdr_holding (r := r.cliprdr) h₂
  refine rdpsndOpen_heldInv (openCliprdr_heldInv (dispOpen_heldInv
    (gfxOpen_heldInv h hg) fun hok => ?_) fun hok => ?_) fun hok => ?_
  · exact Option.not_isSome_iff_eq_none.1 (by rw [h₁.disp, hnone hd hok]; decide)
  · rw [h₂.clipboard] at hok
    exact Option.not_isSome_iff_eq_none.1 (by rw [h₂.cliprdr, hnone hc hok]; decide)
  · exact Option.not_isSome_iff_eq_none.1 (by rw [h₃.rdpsnd, hnone hs hok]; decide)

/-- The channel fields are as before. -/
structure SameChannels (p p' : Peer) : Prop where
  id : p'.id = p.id
  gfxContext : p'.ctx.gfxContext = p.ctx.gfxContext
  gfxOpened : p'.ctx.gfxOpened = p.ctx.gfxOpened
  rdpsndContext : p'.ctx.rdpsndContext = p.ctx.rdpsndContext
  rdpsndOpened : p'.ctx.rdpsndOpened = p.ctx.rdpsndOpened
  cliprdr : p'.cliprdr = p.cliprdr
  cliprdrOpened : p'.ctx.cliprdrOpened = p.ctx.cliprdrOpened
  clipboard : p'.ctx.clipboard = p.ctx.clipboard
  dispContext : p'.ctx.dispContext = p.ctx.dispContext
  dispOpened : p'.ctx.dispOpened = p.ctx.dispOpened
  gfxVcm : p'.ctx.gfxVcm = p.ctx.gfxVcm
  vcmEventFd : p'.ctx.vcmEventFd = p.ctx.vcmEventFd
  chans : p'.chans = p.chans

theorem SameChannels.heldInv (hs : SameChannels p p') (h : HeldInv p) : HeldInv p' := by
  obtain ⟨h₁, h₂, h₃, h₄, h₅⟩ := h
  constructor
  · unfold Peer.held Peer.slot Peer.channel at h₁ ⊢
    rwa [hs.chans, hs.id, hs.gfxContext, hs.rdpsndContext, hs.cliprdr, hs.dispContext, hs.gfxVcm]
  · rwa [hs.gfxContext, hs.gfxOpened]
  · rwa [hs.rdpsndContext, hs.rdpsndOpened]
  · rwa [hs.cliprdr, hs.cliprdrOpened, hs.clipboard]
  · rwa [hs.dispContext, hs.dispOpened]

theorem SameChannels.refl (p : Peer) : SameChannels p p :=
  ⟨rfl, rfl, rfl, rfl, rfl, rfl, rfl, rfl, rfl, rfl, rfl, rfl, rfl⟩

theorem onRdpsndActivated_channels (p : Peer) (formats : List AudioFormat) :
    SameChannels p (onRdpsndActivated p formats) := by
  simp only [onRdpsndActivated]
  split
  · exact .refl p
  · exact ⟨rfl, rfl, rfl, rfl, rfl, rfl, rfl, rfl, rfl, rfl, rfl, rfl, rfl⟩

theorem rdpPeerSendAudio_channels (p : Peer) (n : UInt32) (ok : Bool) :
    SameChannels p (rdpPeerSendAudio p n ok).2 := by
  simp only [rdpPeerSendAudio]
  split
  · exact ⟨rfl, rfl, rfl, rfl, rfl, rfl, rfl, rfl, rfl, rfl, rfl, rfl, rfl⟩
  · exact .refl p

theorem rdpPeerSendFrame_channels (p : Peer) (f : EncodedFrame) (width height : UInt32)
    (r : FrameSend) : SameChannels p (rdpPeerSendFrame p f width height r).2 := by
  obtain ⟨ok, n, out, he⟩ := rdpPeerSendFrame_shape p f width height r
  rw [he]
  exact ⟨rfl, rfl, rfl, rfl, rfl, rfl, rfl, rfl, rfl, rfl, rfl, rfl, rfl⟩

theorem rdpPeerUpdateSize_channels (p : Peer) (width height : UInt32) (r : SurfaceSetup) :
    SameChannels p (rdpPeerUpdateSize p width height r) := by
  simp only [rdpPeerUpdateSize]
  split
  · obtain ⟨out, _, he⟩ := gfxCreateSurface_shape
      { p with ctx.width := width, ctx.height := height } width height r
    rw [he]
    exact ⟨rfl, rfl, rfl, rfl, rfl, rfl, rfl, rfl, rfl, rfl, rfl, rfl, rfl⟩
  · exact ⟨rfl, rfl, rfl, rfl, rfl, rfl, rfl, rfl, rfl, rfl, rfl, rfl, rfl⟩

/-! ### The session across clients -/

/-- The references of the session are to live channels of the attached client, no channel of a
freed client is left, and none was closed or freed twice. -/
def Worker.NoDangling (w : Worker) : Prop :=
  (∀ h ∈ w.cliprdr, ∃ c ∈ w.client,
    (⟨.cliprdr, h, c.id⟩ : Channel) ∈ w.channels.links.live) ∧
  (∀ fd ∈ w.vcmFd, ∃ c ∈ w.client, c.ctx.vcmEventFd = some fd ∧ ∃ vcm ∈ c.ctx.gfxVcm,
    (⟨.vcm, vcm, c.id⟩ : Channel) ∈ w.channels.links.live) ∧
  (∀ o ∈ w.channels.objects.live ++ w.channels.links.live, o.owner ∉ w.freedClients) ∧
  w.channels.objects.faults = [] ∧ w.channels.links.faults = []

instance : DecidablePred Worker.NoDangling := fun w =>
  inferInstanceAs (Decidable ((∀ h ∈ w.cliprdr, _) ∧ (∀ fd ∈ w.vcmFd, _) ∧ (∀ o ∈ _, _) ∧ _ ∧ _))

/-- The event frees the context of the attached client. -/
def Worker.dropsClient (w : Worker) : Event → Bool
  | .checkFailed => true
  | .ipcMessage (some msg) _ => msg.type = .newClient && msg.peerFd.isSome
  | .checkVcm r => w.client.any fun c =>
    (c.ctx.gfxOpened || c.ctx.gfxReady) && !r.checkFileDescriptor
  | .cleanup => true
  | _ => false

/-- The event runs `gfx_cleanup`. -/
def Worker.cleansUp (w : Worker) : Event → Bool
  | .checkVcm r => w.client.any fun c =>
    c.ctx.gfxVcm.isSome && !(c.ctx.gfxOpened || c.ctx.gfxReady) &&
      (!r.checkFileDescriptor || r.drdynvcState = .failed)
  | .capsAdvertise _ r => w.client.any fun c =>
    r.capsConfirm && c.ctx.gfxSurfaceId = 0 && !r.surface.ok
  | _ => false

/-- The clients of the session leave nothing behind: one is only dropped when it has no channel
open, `gfx_cleanup` only runs before the manager's descriptor is registered, and no opening
block meets a channel that is already open. -/
def Worker.channelSafe (w : Worker) (e : Event) : Bool :=
  (!w.dropsClient e || w.client.all fun c => (w.peer c).held.isEmpty) &&
  (!w.cleansUp e || w.vcmFd.isNone) &&
  match e with
  | .checkVcm r => w.client.all fun c => c.ctx.gfxOpened || c.ctx.gfxReady || (w.peer c).vacant r
  | _ => true

structure ChannelInv (w : Worker) : Prop where
  held : ∀ c, w.client = some c → HeldInv (w.peer c)
  idle : w.client = none → w.cliprdr = none ∧ w.channels.Holds []
  fresh : ∀ c, w.client = some c → c.id < w.nextClient ∧ c.id ∉ w.freedClients
  freed : ∀ n ∈ w.freedClients, n < w.nextClient
  vcmFd : ∀ fd, w.vcmFd = some fd →
    ∃ c, w.client = some c ∧ c.ctx.gfxVcm.isSome = true ∧ c.ctx.vcmEventFd = some fd

theorem ChannelInv.start : ChannelInv (.start standalone clipboard audio width height) :=
  ⟨fun _ hc => (by cases hc), fun _ => ⟨rfl, .empty⟩, fun _ hc => (by cases hc),
    fun _ hn => (by cases hn), fun _ hv => (by cases hv)⟩

theorem mem_held_cliprdr (h : p.cliprdr = some q) : p.channel .cliprdr q ∈ p.held := by
  simp only [Peer.held, Peer.slot]
  rw [h]
  simp

theorem mem_held_vcm (h : p.ctx.gfxVcm = some q) : p.channel .vcm q ∈ p.held := by
  simp only [Peer.held, Peer.slot]
  rw [h]
  simp

theorem owner_of_held (h : o ∈ p.held) : o.owner = p.id := by
  simp only [Peer.held, Peer.slot, List.mem_append, Option.mem_toList, Option.map_eq_some_iff] at h
  rcases h with ⟨_, _, rfl⟩ | ⟨_, _, rfl⟩ | ⟨_, _, rfl⟩ | ⟨_, _, rfl⟩ | ⟨_, _, rfl⟩ <;> rfl

theorem ChannelInv.noDangling (h : ChannelInv w) : w.NoDangling := by
  cases hc : w.client with
  | none =>
    obtain ⟨hclip, hholds⟩ := h.idle hc
    refine ⟨fun q hq => ?_, fun fd hfd => ?_, fun o ho => ?_, hholds.freedOnce, hholds.closedOnce⟩
    · rw [hclip] at hq
      cases hq
    · obtain ⟨c, hc', _⟩ := h.vcmFd fd hfd
      rw [hc] at hc'
      cases hc'
    · rw [List.Perm.eq_nil hholds.objects, List.Perm.eq_nil hholds.links] at ho
      cases ho
  | some c =>
    have hheld := (h.held c hc).holds
    refine ⟨fun q hq => ⟨c, hc, ?_⟩, fun fd hfd => ?_, fun o ho => ?_, hheld.freedOnce,
      hheld.closedOnce⟩
    · exact hheld.links.mem_iff.2 (mem_held_cliprdr hq)
    · obtain ⟨c', hc', hv, hfd'⟩ := h.vcmFd fd hfd
      cases hc.symm.trans hc'
      obtain ⟨vcm, hvcm⟩ := Option.isSome_iff_exists.1 hv
      exact ⟨c, hc, hfd', vcm, hvcm, hheld.links.mem_iff.2 (mem_held_vcm hvcm)⟩
    · have howner : o.owner = c.id := by
        rcases List.mem_append.1 ho with ho | ho
        · exact owner_of_held (hheld.objects.mem_iff.1 ho)
        · exact owner_of_held (hheld.links.mem_iff.1 ho)
      rw [howner]
      exact (h.fresh c hc).2

/-- A step that leaves clients and channels alone. -/
theorem ChannelInv.keep (h : ChannelInv w) (hclient : w'.client = w.client)
    (hclip : w'.cliprdr = w.cliprdr) (hchan : w'.channels = w.channels)
    (hnext : w'.nextClient = w.nextClient) (hfreed : w'.freedClients = w.freedClients)
    (hvcm : w'.vcmFd = w.vcmFd) : ChannelInv w' := by
  constructor
  · intro c hc
    have hsame : SameChannels (w.peer c) (w'.peer c) :=
      ⟨rfl, rfl, rfl, rfl, rfl, hclip, rfl, rfl, rfl, rfl, rfl, rfl, hchan⟩
    exact hsame.heldInv (h.held c (hclient ▸ hc))
  · rw [hclient, hclip, hchan]
    exact h.idle
  · rw [hclient, hnext, hfreed]
    exact h.fresh
  · rw [hnext, hfreed]
    exact h.freed
  · rw [hclient, hvcm]
    exact h.vcmFd

/-- A step of the attached client's peer. -/
theorem ChannelInv.setPeer {c c' : Client} (h : ChannelInv w) (hc : w.client = some c)
    (hid : c'.id = c.id) (hheld : HeldInv { p with id := c.id })
    (hvcm : ∀ fd, w.vcmFd = some fd → p.ctx.gfxVcm = c.ctx.gfxVcm ∧
      p.ctx.vcmEventFd = c.ctx.vcmEventFd) : ChannelInv (w.setPeer c' p) := by
  refine ⟨fun c₁ hc₁ => ?_, fun hn => (by cases hn), fun c₁ hc₁ => ?_, h.freed, fun fd hfd => ?_⟩
  · cases hc₁
    have hsame : SameChannels { p with id := c.id }
        ((w.setPeer c' p).peer { c' with ctx := p.ctx }) :=
      ⟨hid, rfl, rfl, rfl, rfl, rfl, rfl, rfl, rfl, rfl, rfl, rfl, rfl⟩
    exact hsame.heldInv hheld
  · cases hc₁
    change c'.id < _ ∧ c'.id ∉ _
    rw [hid]
    exact h.fresh c hc
  · obtain ⟨c₂, hc₂, hv, hev⟩ := h.vcmFd fd hfd
    cases hc.symm.trans hc₂
    obtain ⟨hv', hev'⟩ := hvcm fd hfd
    exact ⟨_, rfl, hv' ▸ hv, hev'.trans hev⟩

theorem ChannelInv.samePeer {c c' : Client} (h : ChannelInv w) (hc : w.client = some c)
    (hid : c'.id = c.id) (hs : SameChannels (w.peer c) p) : ChannelInv (w.setPeer c' p) := by
  refine h.setPeer hc hid ?_ fun _ _ => ⟨hs.gfxVcm, hs.vcmEventFd⟩
  have hid' : p.id = c.id := hs.id
  have hp : { p with id := c.id } = p := by rw [← hid']
  rw [hp]
  exact hs.heldInv (h.held c hc)

theorem ChannelInv.onPeer {f : Peer → Peer} (h : ChannelInv w)
    (hf : ∀ p, SameChannels p (f p)) : ChannelInv (w.onPeer f) := by
  simp only [Worker.onPeer]
  cases hc : w.client with
  | none => exact h
  | some c => exact h.samePeer hc rfl (hf _)

/-- A client without channels leaves nothing behind. -/
structure Unheld (w : Worker) : Prop where
  cliprdr : w.cliprdr = none
  holds : w.channels.Holds []
  vcmFd : w.vcmFd = none

theorem ChannelInv.unheld (h : ChannelInv w)
    (hu : w.client.all (fun c => (w.peer c).held.isEmpty) = true) : Unheld w := by
  have hvcm : (∀ c, w.client = some c → c.ctx.gfxVcm = none) → w.vcmFd = none := by
    intro hnone
    cases hv : w.vcmFd with
    | none => rfl
    | some fd =>
      obtain ⟨c, hc, hsome, _⟩ := h.vcmFd fd hv
      rw [hnone c hc] at hsome
      cases hsome
  cases hc : w.client with
  | none =>
    obtain ⟨hclip, hholds⟩ := h.idle hc
    refine ⟨hclip, hholds, hvcm fun c hc' => ?_⟩
    rw [hc] at hc'
    cases hc'
  | some c =>
    rw [hc, Option.all_some, List.isEmpty_iff] at hu
    have hnone : ∀ {o}, o ∈ (w.peer c).held → False := fun ho => by rw [hu] at ho; cases ho
    refine ⟨?_, hu ▸ (h.held c hc).holds, hvcm fun c' hc' => ?_⟩
    · cases hq : w.cliprdr with
      | none => rfl
      | some q => exact (hnone (mem_held_cliprdr hq)).elim
    · cases hc.symm.trans hc'
      cases hq : c.ctx.gfxVcm with
      | none => rfl
      | some q => exact (hnone (mem_held_vcm hq)).elim

/-- The session drops a client that has no channel open. -/
theorem ChannelInv.drop (h : ChannelInv w) (hu : Unheld w) (hclient : w'.client = none)
    (hclip : w'.cliprdr = none) (hchan : w'.channels = w.channels) (hvcm : w'.vcmFd = none)
    (hnext : w'.nextClient = w.nextClient)
    (hfreed : w'.freedClients = (w.client.map (·.id)).toList ++ w.freedClients) :
    ChannelInv w' := by
  refine ⟨fun c hc => ?_, fun _ => ⟨hclip, hchan ▸ hu.holds⟩, fun c hc => ?_, fun n hn => ?_,
    fun fd hfd => ?_⟩
  · rw [hclient] at hc; cases hc
  · rw [hclient] at hc; cases hc
  · rw [hnext]
    rcases List.mem_append.1 (hfreed ▸ hn) with hn | hn
    · obtain ⟨c, hc, rfl⟩ := Option.map_eq_some_iff.1 (Option.mem_toList.1 hn)
      exact (h.fresh c hc).1
    · exact h.freed n hn
  · rw [hvcm] at hfd; cases hfd

theorem disconnectClient_channels (h : ChannelInv w)
    (hu : w.client.all (fun c => (w.peer c).held.isEmpty) = true) :
    ChannelInv (disconnectClient w) :=
  have hun := h.unheld hu
  h.drop hun rfl hun.cliprdr rfl rfl rfl rfl

theorem cleanup_channels (h : ChannelInv w)
    (hu : w.client.all (fun c => (w.peer c).held.isEmpty) = true) :
    ChannelInv (cleanup w) := by
  have hun := h.unheld hu
  refine h.drop hun rfl ?_ rfl hun.vcmFd rfl rfl
  change (if w.clipboardActive then none else w.cliprdr) = none
  rw [hun.cliprdr, ite_self]

theorem attachClient_channels (h : ChannelInv w) (hc : w.client = none) :
    ChannelInv (attachClient w r) := by
  obtain ⟨hclip, hholds⟩ := h.idle hc
  have hvcm : w.vcmFd = none := by
    cases hv : w.vcmFd with
    | none => rfl
    | some fd =>
      obtain ⟨c, hc', _⟩ := h.vcmFd fd hv
      rw [hc] at hc'
      cases hc'
  have hfreed : ∀ n ∈ w.freedClients, n < w.nextClient + 1 := fun n hn =>
    Nat.lt_succ_of_lt (h.freed n hn)
  rw [attachClient]
  split
  · exact h
  · dsimp only
    split
    · refine ⟨fun c hc' => ?_, fun _ => ⟨hclip, hholds⟩, fun c hc' => ?_, fun n hn => ?_,
        fun fd hfd => ?_⟩
      · rw [hc] at hc'; cases hc'
      · rw [hc] at hc'; cases hc'
      · rcases List.mem_cons.1 hn with rfl | hn
        · exact Nat.lt_succ_self _
        · exact hfreed n hn
      · rw [hvcm] at hfd; cases hfd
    · refine ⟨fun c hc' => ?_, fun hn => (by cases hn), fun c hc' => ?_, hfreed, fun fd hfd => ?_⟩
      · cases hc'
        refine ⟨?_, fun hs => (by cases hs), fun hs => (by cases hs), fun hs => ?_,
          fun hs => (by cases hs)⟩
        · simp only [Peer.held, Peer.slot, Worker.peer]
          rw [hclip]
          exact hholds
        · change w.cliprdr.isSome = true at hs
          rw [hclip] at hs
          cases hs
      · cases hc'
        exact ⟨Nat.lt_succ_self _, fun hmem => Nat.lt_irrefl _ (h.freed _ hmem)⟩
      · change w.vcmFd = some fd at hfd
        rw [hvcm] at hfd
        cases hfd

theorem ChannelInv.resize (h : ChannelInv w) :
    ChannelInv (onPeerResize w width height scale r) := by
  have hto : ChannelInv (w.resizeTo (roundUp16 width) (roundUp16 height) scale r) := by
    have hw : ChannelInv { w.emit (.wlrRandr (roundUp16 width) (roundUp16 height) scale r.wlrRandr)
        with width := roundUp16 width, height := roundUp16 height } :=
      h.keep rfl rfl rfl rfl rfl rfl
    exact (hw.onPeer fun p => rdpPeerUpdateSize_channels p _ _ r.surface).keep
      rfl rfl rfl rfl rfl rfl
  cases hs : w.sameSize width height with
  | true => rw [onPeerResize_same hs]; exact h
  | false =>
    rw [onPeerResize_eq hs]
    dsimp only
    split
    · exact hto.keep rfl rfl rfl rfl rfl rfl
    · exact hto

theorem gfxOpen_manager (p : Peer) (r : ChannelSetup) :
    (gfxOpen p r).2.id = p.id ∧ (gfxOpen p r).2.ctx.gfxVcm = p.ctx.gfxVcm ∧
      (gfxOpen p r).2.ctx.vcmEventFd = p.ctx.vcmEventFd := by
  rw [gfxOpen]
  split
  · exact ⟨rfl, rfl, rfl⟩
  · dsimp only
    split <;> exact ⟨rfl, rfl, rfl⟩

theorem heldInv_of_id {n : Nat} (h : HeldInv p) (hid : p.id = n) :
    HeldInv { p with id := n } := by
  subst hid
  exact h

theorem checkVcm_channels {c : Client} (h : ChannelInv w) (hw : WorkerInv w)
    (hc : w.client = some c) (hs : w.channelSafe (.checkVcm r) = true) :
    ChannelInv (checkVcm w c r) := by
  have hheld := h.held c hc
  rw [Worker.channelSafe, Worker.dropsClient, Worker.cleansUp, hc] at hs
  simp only [Option.any_some, Option.all_some, Bool.and_eq_true] at hs
  obtain ⟨⟨hdrop, hclean⟩, hopen⟩ := hs
  simp only [checkVcm]
  cases hp : rdpPeerCheckVcm (w.peer c) r with
  | mk ok p =>
  have hstep := rdpPeerCheckVcm_step hp
  dsimp only
  cases hstep with
  | settled hset hok =>
    have hkept := h.samePeer hc rfl (.refl (w.peer c))
    cases ok with
    | true => exact hkept
    | false =>
      obtain ⟨ho, hf⟩ := hok rfl
      have ho' : (c.ctx.gfxOpened || c.ctx.gfxReady) = true := ho
      rw [ho', hf] at hdrop
      exact disconnectClient_channels hkept hdrop
  | handshaking => exact h.samePeer hc rfl (.refl _)
  | fallback hf hv ho hr hp' =>
    have hvcm : w.vcmFd = none := by
      have hv' : c.ctx.gfxVcm.isSome = true := hv
      have ho' : c.ctx.gfxOpened = false := ho
      have hr' : c.ctx.gfxReady = false := hr
      rw [hv', ho', hr'] at hclean
      rcases hf with hf | hf
      · simpa [hf] using hclean
      · simpa [hf] using hclean
    have hsame : SameChannels (w.peer c) { w.peer c with ctx.bringUpFailed := true } :=
      ⟨rfl, rfl, rfl, rfl, rfl, rfl, rfl, rfl, rfl, rfl, rfl, rfl, rfl⟩
    have hempty := (gfxCleanup_heldInv (d := r.deleteSurface) (hsame.heldInv hheld)).1
    rw [← hp'] at hempty
    apply h.setPeer hc rfl (heldInv_of_id hempty (cleaned_of_eq hp').id)
    intro fd hfd
    rw [hvcm] at hfd
    cases hfd
  | opened _ _ hv ho hr =>
    have ho' : c.ctx.gfxOpened = false := ho
    have hr' : c.ctx.gfxReady = false := hr
    rw [ho', hr', Bool.false_or, Bool.false_or] at hopen
    have hgfx : c.ctx.gfxContext = none := ((hw.client c hc).gfx.unopened ho').1
    have hsame := openChannels_sameGfx (w.peer c) r
    obtain ⟨hid, hvcm, hev⟩ := gfxOpen_manager (w.peer c) r.gfx
    refine h.setPeer hc rfl (heldInv_of_id (openChannels_heldInv hheld hgfx hopen)
      (hsame.id.trans hid)) fun _ _ => ?_
    exact ⟨hsame.gfxVcm.trans hvcm, hsame.vcmEventFd.trans hev⟩

theorem capsAdvertise_channels {c : Client} (h : ChannelInv w) (hc : w.client = some c)
    (hs : w.channelSafe (.capsAdvertise caps r) = true) :
    ChannelInv (w.setPeer c (gfxCapsAdvertise (w.peer c) caps r)) := by
  have hstep := gfxCapsAdvertise_step (w.peer c) caps r
  generalize gfxCapsAdvertise (w.peer c) caps r = p at hstep
  cases hstep with
  | unconfirmed =>
    apply h.samePeer hc rfl
    exact ⟨rfl, rfl, rfl, rfl, rfl, rfl, rfl, rfl, rfl, rfl, rfl, rfl, rfl⟩
  | kept =>
    apply h.samePeer hc rfl
    exact ⟨rfl, rfl, rfl, rfl, rfl, rfl, rfl, rfl, rfl, rfl, rfl, rfl, rfl⟩
  | created =>
    apply h.samePeer hc rfl
    exact ⟨rfl, rfl, rfl, rfl, rfl, rfl, rfl, rfl, rfl, rfl, rfl, rfl, rfl⟩
  | fallback hcf hok out hf hsurf hp =>
    have hvcm : w.vcmFd = none := by
      have hsurf' : c.ctx.gfxSurfaceId = 0 := hsurf
      have hcu : w.cleansUp (.capsAdvertise caps r) = true := by
        simp [Worker.cleansUp, hc, hcf, hsurf', hok]
      simp only [Worker.channelSafe] at hs
      rw [hcu] at hs
      simpa using (Bool.and_eq_true_iff.1 (Bool.and_eq_true_iff.1 hs).1).2
    have hsame : SameChannels (w.peer c)
        { w.peer c with ctx.sendMode := .surfaceBits, ctx.bringUpFailed := true, out := out } :=
      ⟨rfl, rfl, rfl, rfl, rfl, rfl, rfl, rfl, rfl, rfl, rfl, rfl, rfl⟩
    have hempty := (gfxCleanup_heldInv (d := r.deleteSurface)
      (hsame.heldInv (h.held c hc))).1
    rw [← hp] at hempty
    apply h.setPeer hc rfl (heldInv_of_id hempty (cleaned_of_eq hp).id)
    intro fd hfd
    rw [hvcm] at hfd
    cases hfd

theorem onPostConnect_heldInv (h : HeldInv p) (hn : p.ctx.gfxVcm = none) :
    HeldInv (onPostConnect p r) := by
  have hsame : SameChannels p { p with ctx.pixelFormat := formatOfDepth p.settings.colorDepth } :=
    ⟨rfl, rfl, rfl, rfl, rfl, rfl, rfl, rfl, rfl, rfl, rfl, rfl, rfl⟩
  simp only [onPostConnect]
  split
  · exact vcmInit_heldInv (hsame.heldInv h) hn
  · exact hsame.heldInv h

theorem acceptIpcClient_channels (h : ChannelInv w)
    (hs : w.channelSafe (.ipcMessage msg r) = true) : ChannelInv (acceptIpcClient w msg r) := by
  have hstop : ChannelInv { w with running := false } := h.keep rfl rfl rfl rfl rfl rfl
  unfold acceptIpcClient
  split
  · exact hstop
  · next msg =>
    split
    · exact hstop
    split
    · exact h
    next hnew =>
    have hdrop : w.dropsClient (.ipcMessage (some msg) r) = true := by
      simp only [not_or, ne_eq, not_not] at hnew
      simp only [Worker.dropsClient]
      simp [hnew.1, Option.isSome_iff_ne_none, hnew.2]
    have hu : w.client.all (fun c => (w.peer c).held.isEmpty) = true := by
      simp only [Worker.channelSafe] at hs
      rw [hdrop] at hs
      simpa using (Bool.and_eq_true_iff.1 (Bool.and_eq_true_iff.1 hs).1).1
    have hd := disconnectClient_channels h hu
    dsimp only
    split
    · exact hd
    · exact attachClient_channels hd rfl

theorem frameReady_channels {id : Nat} (h : ChannelInv w) :
    ChannelInv (frameReady w id r) := by
  have hd : ChannelInv (w.finishFrame id) := h.keep rfl rfl rfl rfl rfl rfl
  have hs := frameReady_step w id r
  generalize frameReady w id r = w' at hs
  cases hs with
  | ignored => exact hd
  | throttled _ _ hw => exact hw ▸ hd.keep rfl rfl rfl rfl rfl rfl
  | unsent _ _ _ hw => exact hw ▸ hd.keep rfl rfl rfl rfl rfl rfl
  | sent _ _ hc _ hp _ _ hw =>
    subst hw hp
    exact (hd.samePeer hc rfl (rdpPeerSendFrame_channels _ _ _ _ _)).keep rfl rfl rfl rfl rfl rfl

theorem channelInv_step (hw : WorkerInv w) (h : ChannelInv w) (he : w.enabled e)
    (hs : w.channelSafe e = true) : ChannelInv (w.step e) := by
  cases e with
  | peerAccepted r =>
    change ChannelInv (onPeerAccepted w r)
    simp only [onPeerAccepted]
    split
    · exact h
    · next hc => exact attachClient_channels h (Option.not_isSome_iff_eq_none.1 hc)
  | ipcMessage msg r => exact acceptIpcClient_channels h hs
  | settings s =>
    apply onClient_cases h
    intro c hc
    have hsame : ChannelInv (w.setPeer { c with settings := s } (w.peer c)) :=
      h.samePeer hc rfl (.refl _)
    exact hsame
  | postConnect r =>
    apply onClient_cases h
    intro c hc
    have hcon : c.connected = false := by
      have ha := (Bool.and_eq_true_iff.1 he.2).1
      rw [hc] at ha
      simpa using ha
    have hvcm := (hw.client c hc).manager hcon
    refine h.setPeer hc rfl (heldInv_of_id (onPostConnect_heldInv (h.held c hc) hvcm)
      (onPostConnect_step (w.peer c) r).id) fun fd hfd => ?_
    obtain ⟨c', hc', hv, _⟩ := h.vcmFd fd hfd
    cases hc.symm.trans hc'
    rw [hvcm] at hv
    cases hv
  | activate r =>
    apply onClient_cases h
    intro c hc
    have hact : ChannelInv { w with client := some { c with ctx.activated := true } } :=
      h.samePeer (p := { w.peer c with ctx.activated := true }) hc rfl
        ⟨rfl, rfl, rfl, rfl, rfl, rfl, rfl, rfl, rfl, rfl, rfl, rfl, rfl⟩
    simp only [onActivate]
    split
    · exact hact.resize
    · exact hact
  | desktopResize r => exact onClient_cases h fun c _ => h.resize
  | remoteMonitors ms r =>
    apply onClient_cases h
    intro c _
    cases ms with
    | nil => exact h
    | cons m ms => exact h.resize
  | dispMonitorLayout ms r =>
    cases ms with
    | nil => exact h
    | cons m ms => exact h.resize
  | capsAdvertise caps r => exact onClient_cases h fun c hc => capsAdvertise_channels h hc hs
  | rdpsndActivated formats => exact h.onPeer fun p => onRdpsndActivated_channels p formats
  | audioData n ok =>
    change ChannelInv (onAudioData w n ok)
    simp only [onAudioData]
    split
    · exact h
    · exact h.onPeer fun p => rdpPeerSendAudio_channels p n ok
  | wlClipboardChanged =>
    change ChannelInv (onWlClipboardChanged w)
    simp only [onWlClipboardChanged]
    split
    · exact h
    split
    · exact h
    · exact h.keep rfl rfl rfl rfl rfl rfl
  | clipboardFailed => exact h.keep rfl rfl rfl rfl rfl rfl
  | checkFailed =>
    apply disconnectClient_channels h
    simpa [Worker.channelSafe, Worker.dropsClient, Worker.cleansUp] using hs
  | updateClient =>
    apply onClient_cases h
    intro c hc
    simp only [epollAddVcm]
    split
    · exact h
    · next fd hfd =>
      refine ⟨h.held, h.idle, h.fresh, h.freed, fun fd' hfd' => ⟨c, hc, ?_⟩⟩
      cases hfd'
      simp only [rdpPeerGetVcmFd] at hfd
      split at hfd
      · cases hfd
      · next hv => exact ⟨Option.ne_none_iff_isSome.1 hv, hfd⟩
  | checkVcm r => exact onClient_cases h fun c hc => checkVcm_channels h hw hc hs
  | startCapture r =>
    apply onClient_cases h
    intro c _
    rw [startCapture_eq]
    simp only [beginCaptureIf]
    split
    · exact h.keep rfl rfl rfl rfl rfl rfl
    · exact h
  | frameBuffer => exact h.keep rfl rfl rfl rfl rfl rfl
  | frameBufferDone => exact h.keep rfl rfl rfl rfl rfl rfl
  | frameReady id r => exact frameReady_channels h
  | frameFailed => exact h.keep rfl rfl rfl rfl rfl rfl
  | signal => exact h.keep rfl rfl rfl rfl rfl rfl
  | cleanup =>
    apply cleanup_channels h
    simpa [Worker.channelSafe, Worker.dropsClient, Worker.cleansUp] using hs

/-- In a run of safe events no reference dangles, and what a client leaves has been closed and
freed exactly once. -/
theorem no_dangling_of_safe
    (hl : worker.Legal (.start standalone clipboard audio width height) es)
    (hs : worker.Along (fun w e => w.channelSafe e = true)
      (.start standalone clipboard audio width height) es) :
    worker.Always Worker.NoDangling (.start standalone clipboard audio width height) es := by
  have hinv : worker.Always (fun w => WorkerInv w ∧ ChannelInv w)
      (.start standalone clipboard audio width height) es := by
    refine System.always_of_step ?_ ⟨.start, .start⟩ (hl.and hs)
    rintro w e ⟨hw, hc⟩ ⟨he, hsafe⟩
    exact ⟨workerInv_step w e hw he, channelInv_step hw hc he hsafe⟩
  exact hinv.mono fun _ h => h.2.noDangling

/-- A client whose manager opens with the given descriptor, and whose first opening block opens
every channel beside graphics. -/
def channelRun (eventFd : Option Nat) (gfx : ChannelSetup) : List Event :=
  [.peerAccepted (.accepted (.basic 16 16 true true)), .postConnect ⟨some 1, true, eventFd⟩,
    .updateClient, .checkVcm (.opening gfx 3 4 5)]

/-- Graphics does not open, DRDYNVC fails, and the client leaves after `gfx_cleanup`. -/
def fallbackRun : List Event :=
  channelRun none ⟨some 2, false⟩ ++
    [.checkVcm ⟨true, .failed, ⟨none, false⟩, ⟨none, false⟩, ⟨none, false⟩, ⟨none, false, false⟩,
      true⟩, .checkFailed]

theorem no_dangling_of_safe_fallback :
    worker.Legal (.start true true true 16 16) fallbackRun ∧
      worker.Always Worker.NoDangling (.start true true true 16 16) fallbackRun :=
  ⟨by decide, no_dangling_of_safe (by decide) (by decide)⟩

/-- A client with open channels disconnects: nothing closes them, and the clipboard keeps its
context. -/
theorem disconnect_leaves_channels :
    worker.Legal (.start true true true 16 16)
        (channelRun (some 9) ⟨some 2, true⟩ ++ [.checkFailed]) ∧
      ¬ worker.Always Worker.NoDangling (.start true true true 16 16)
        (channelRun (some 9) ⟨some 2, true⟩ ++ [.checkFailed]) := by
  decide

end Wlrdp
