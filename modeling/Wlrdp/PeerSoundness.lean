import Wlrdp.PeerSemantics

namespace Wlrdp
set_option autoImplicit true

/-- A picture on the wire: the codec announced for it, its bytes and the size announced. -/
structure Picture where
  codec : Codec
  data : Option Bitstream
  width : UInt32
  height : UInt32
deriving DecidableEq

def Output.picture : Output → Option Picture
  | .gfx _ (.surfaceCommand cmd) _ => some ⟨cmd.codecId, cmd.data, cmd.right, cmd.bottom⟩
  | .surfaceBits cmd _ =>
    some ⟨cmd.codecId, cmd.bitmapData, cmd.width.toUInt32, cmd.height.toUInt32⟩
  | _ => none

def framesOf (out : List Output) : List Picture := out.filterMap Output.picture

@[simp] theorem framesOf_append (out out' : List Output) :
    framesOf (out ++ out') = framesOf out ++ framesOf out' := List.filterMap_append

theorem framesOf_quiet (h : ∀ o ∈ out', o.picture = none) :
    framesOf (out ++ out') = framesOf out := by
  have hn : framesOf out' = [] := List.filterMap_eq_nil_iff.2 h
  rw [framesOf_append, hn, List.append_nil]

/-- Neither a picture nor a stored channel context. -/
def Output.plain : Output → Bool
  | .gfx _ (.surfaceCommand _) _ | .surfaceBits _ _ | .stored _ _ => false
  | _ => true

/-- Some plain output was added. -/
def Talks (out out' : List Output) : Prop :=
  ∃ said : List Output, (∀ o ∈ said, o.plain = true) ∧ out' = out ++ said

theorem Talks.refl (out : List Output) : Talks out out :=
  ⟨[], fun _ h => (by cases h), (List.append_nil out).symm⟩

theorem Talks.say (h : o.plain = true) : Talks out (out ++ [o]) :=
  ⟨[o], fun _ ho => List.mem_singleton.1 ho ▸ h, rfl⟩

theorem Talks.trans (h : Talks a b) (h' : Talks b c) : Talks a c := by
  obtain ⟨s, hs, rfl⟩ := h
  obtain ⟨s', hs', rfl⟩ := h'
  refine ⟨s ++ s', fun o ho => ?_, List.append_assoc ..⟩
  rcases List.mem_append.1 ho with ho | ho
  · exact hs o ho
  · exact hs' o ho

theorem Talks.frames (h : Talks out out') : framesOf out' = framesOf out := by
  obtain ⟨s, hs, rfl⟩ := h
  apply framesOf_quiet
  intro o ho
  have hp := hs o ho
  simp only [Output.plain] at hp
  simp only [Output.picture]
  split at hp
  · cases hp
  · cases hp
  · cases hp
  · next h₁ h₂ _ =>
    split
    · exact absurd rfl (h₁ _ _ _)
    · exact absurd rfl (h₂ _ _)
    · rfl

theorem closeGfx_shape (p : Peer) (d : Bool) :
    ∃ chans out, Talks p.out out ∧
      closeGfx p d = { p with ctx.gfxContext := none, chans := chans, out := out } := by
  simp only [closeGfx]
  cases hg : p.ctx.gfxContext with
  | none =>
    refine ⟨p.chans, p.out, .refl _, ?_⟩
    cases p with | mk id settings ctx cliprdr chans out => cases ctx; cases hg; rfl
  | some gfx =>
    refine ⟨_, _, ?_, rfl⟩
    split
    · exact .say rfl
    · exact ⟨[], fun _ h => (by cases h), rfl⟩

theorem closeRdpsnd_shape (p : Peer) :
    ∃ chans o r, closeRdpsnd p = { p with
      ctx.rdpsndContext := none, ctx.rdpsndOpened := o, ctx.rdpsndReady := r
      chans := chans } := by
  simp only [closeRdpsnd]
  cases hg : p.ctx.rdpsndContext with
  | none =>
    refine ⟨p.chans, p.ctx.rdpsndOpened, p.ctx.rdpsndReady, ?_⟩
    cases p with | mk id settings ctx cliprdr chans out => cases ctx; cases hg; rfl
  | some rdpsnd => exact ⟨_, _, _, rfl⟩

theorem closeCliprdr_shape (p : Peer) :
    ∃ chans cliprdr c o, closeCliprdr p = { p with
      ctx.cliprdrContext := c, ctx.cliprdrOpened := o, cliprdr := cliprdr
      chans := chans } := by
  simp only [closeCliprdr, clipboardCloseCliprdr]
  split
  · split <;> exact ⟨_, _, _, _, rfl⟩
  · exact ⟨p.chans, p.cliprdr, p.ctx.cliprdrContext, p.ctx.cliprdrOpened, rfl⟩

theorem closeDisp_shape (p : Peer) :
    ∃ chans, closeDisp p = { p with ctx.dispContext := none, chans := chans } := by
  simp only [closeDisp]
  cases hg : p.ctx.dispContext with
  | none =>
    refine ⟨p.chans, ?_⟩
    cases p with | mk id settings ctx cliprdr chans out => cases ctx; cases hg; rfl
  | some disp => exact ⟨_, rfl⟩

theorem closeVcm_shape (p : Peer) :
    ∃ chans, closeVcm p = { p with ctx.gfxVcm := none, chans := chans } := by
  simp only [closeVcm]
  cases hg : p.ctx.gfxVcm with
  | none =>
    refine ⟨p.chans, ?_⟩
    cases p with | mk id settings ctx cliprdr chans out => cases ctx; cases hg; rfl
  | some vcm => exact ⟨_, rfl⟩

/-- The graphics part of a context after `gfx_cleanup`. -/
structure Cleaned (p p' : Peer) : Prop where
  id : p'.id = p.id
  settings : p'.settings = p.settings
  gfxContext : p'.ctx.gfxContext = none
  gfxVcm : p'.ctx.gfxVcm = none
  gfxOpened : p'.ctx.gfxOpened = false
  gfxReady : p'.ctx.gfxReady = false
  gfxSurfaceId : p'.ctx.gfxSurfaceId = 0
  sendMode : p'.ctx.sendMode = p.ctx.sendMode
  activated : p'.ctx.activated = p.ctx.activated
  bringUpFailed : p'.ctx.bringUpFailed = p.ctx.bringUpFailed
  talk : Talks p.out p'.out

theorem gfxCleanup_cleaned (p : Peer) (d : Bool) : Cleaned p (gfxCleanup p d) := by
  obtain ⟨_, _, hf, h₁⟩ := closeGfx_shape p d
  obtain ⟨_, _, _, h₂⟩ := closeRdpsnd_shape (closeGfx p d)
  obtain ⟨_, _, _, _, h₃⟩ := closeCliprdr_shape (closeRdpsnd (closeGfx p d))
  obtain ⟨_, h₄⟩ := closeDisp_shape (closeCliprdr (closeRdpsnd (closeGfx p d)))
  obtain ⟨_, h₅⟩ := closeVcm_shape (closeDisp (closeCliprdr (closeRdpsnd (closeGfx p d))))
  rw [gfxCleanup, h₅, h₄, h₃, h₂, h₁]
  exact ⟨rfl, rfl, rfl, rfl, rfl, rfl, rfl, rfl, rfl, rfl, hf⟩

theorem cleaned_of_eq (h : p' = gfxCleanup p d) : Cleaned p p' := h ▸ gfxCleanup_cleaned p d

/-- Everything the graphics pipeline depends on is as before, and no picture was sent. -/
structure SameGfx (p p' : Peer) : Prop where
  id : p'.id = p.id
  settings : p'.settings = p.settings
  gfxContext : p'.ctx.gfxContext = p.ctx.gfxContext
  gfxVcm : p'.ctx.gfxVcm = p.ctx.gfxVcm
  vcmEventFd : p'.ctx.vcmEventFd = p.ctx.vcmEventFd
  gfxOpened : p'.ctx.gfxOpened = p.ctx.gfxOpened
  gfxReady : p'.ctx.gfxReady = p.ctx.gfxReady
  gfxSurfaceId : p'.ctx.gfxSurfaceId = p.ctx.gfxSurfaceId
  sendMode : p'.ctx.sendMode = p.ctx.sendMode
  activated : p'.ctx.activated = p.ctx.activated
  bringUpFailed : p'.ctx.bringUpFailed = p.ctx.bringUpFailed
  frames : framesOf p'.out = framesOf p.out

theorem SameGfx.refl (p : Peer) : SameGfx p p :=
  ⟨rfl, rfl, rfl, rfl, rfl, rfl, rfl, rfl, rfl, rfl, rfl, rfl⟩

theorem SameGfx.trans (h : SameGfx p q) (h' : SameGfx q r) : SameGfx p r :=
  ⟨h'.id.trans h.id, h'.settings.trans h.settings, h'.gfxContext.trans h.gfxContext,
    h'.gfxVcm.trans h.gfxVcm, h'.vcmEventFd.trans h.vcmEventFd,
    h'.gfxOpened.trans h.gfxOpened, h'.gfxReady.trans h.gfxReady,
    h'.gfxSurfaceId.trans h.gfxSurfaceId, h'.sendMode.trans h.sendMode,
    h'.activated.trans h.activated, h'.bringUpFailed.trans h.bringUpFailed,
    h'.frames.trans h.frames⟩

theorem framesOf_stored : framesOf (out ++ [Output.stored kind h]) = framesOf out :=
  framesOf_quiet fun o ho => by rw [List.mem_singleton.1 ho]; rfl

theorem dispOpen_sameGfx (p : Peer) (r : ChannelSetup) : SameGfx p (dispOpen p r).2 := by
  rw [dispOpen]
  split
  · exact .refl p
  · dsimp only
    split
    · exact ⟨rfl, rfl, rfl, rfl, rfl, rfl, rfl, rfl, rfl, rfl, rfl, rfl⟩
    · exact ⟨rfl, rfl, rfl, rfl, rfl, rfl, rfl, rfl, rfl, rfl, rfl, framesOf_stored⟩

theorem clipboardOpenCliprdr_sameGfx (p : Peer) (r : ChannelSetup) :
    SameGfx p (clipboardOpenCliprdr p r).2 := by
  rw [clipboardOpenCliprdr]
  split
  · exact .refl p
  · dsimp only
    split
    · exact ⟨rfl, rfl, rfl, rfl, rfl, rfl, rfl, rfl, rfl, rfl, rfl, rfl⟩
    · exact ⟨rfl, rfl, rfl, rfl, rfl, rfl, rfl, rfl, rfl, rfl, rfl, framesOf_stored⟩

theorem openCliprdr_sameGfx (p : Peer) (r : ChannelSetup) : SameGfx p (openCliprdr p r) := by
  have h := clipboardOpenCliprdr_sameGfx p r
  simp only [openCliprdr]
  split
  · exact .refl p
  · cases hc : clipboardOpenCliprdr p r with
    | mk ok p' =>
      rw [hc] at h
      cases ok with
      | false => exact h
      | true =>
        exact ⟨h.id, h.settings, h.gfxContext, h.gfxVcm, h.vcmEventFd, h.gfxOpened, h.gfxReady,
          h.gfxSurfaceId, h.sendMode, h.activated, h.bringUpFailed, h.frames⟩

theorem rdpsndOpen_sameGfx (p : Peer) (r : RdpsndSetup) : SameGfx p (rdpsndOpen p r).2 := by
  rw [rdpsndOpen]
  split
  · exact .refl p
  · dsimp only
    split
    · exact ⟨rfl, rfl, rfl, rfl, rfl, rfl, rfl, rfl, rfl, rfl, rfl, rfl⟩
    · split
      · exact ⟨rfl, rfl, rfl, rfl, rfl, rfl, rfl, rfl, rfl, rfl, rfl, rfl⟩
      · exact ⟨rfl, rfl, rfl, rfl, rfl, rfl, rfl, rfl, rfl, rfl, rfl, framesOf_stored⟩

theorem onRdpsndActivated_sameGfx (p : Peer) (formats : List AudioFormat) :
    SameGfx p (onRdpsndActivated p formats) := by
  simp only [onRdpsndActivated]
  split
  · exact .refl p
  · refine ⟨rfl, rfl, rfl, rfl, rfl, rfl, rfl, rfl, rfl, rfl, rfl, framesOf_quiet fun o ho => ?_⟩
    rw [List.mem_singleton.1 ho]; rfl

theorem rdpPeerSendAudio_sameGfx (p : Peer) (n : UInt32) (ok : Bool) :
    SameGfx p (rdpPeerSendAudio p n ok).2 := by
  simp only [rdpPeerSendAudio]
  split
  · refine ⟨rfl, rfl, rfl, rfl, rfl, rfl, rfl, rfl, rfl, rfl, rfl, framesOf_quiet fun o ho => ?_⟩
    rw [List.mem_singleton.1 ho]; rfl
  · exact .refl p

/-- What holds of the graphics fields of a context between two handlers. -/
structure GfxInv (ctx : PeerContext) : Prop where
  ready : ctx.gfxReady = true → ctx.gfxOpened = true
  opened : ctx.gfxOpened = true ↔ ctx.gfxContext.isSome = true
  context : ctx.gfxContext.isSome = true → ctx.gfxVcm.isSome = true
  surface : ctx.gfxSurfaceId = if ctx.gfxReady then 1 else 0

theorem GfxInv.new (width height : UInt32) (clipboard : Bool) :
    GfxInv (.new width height clipboard) := by
  constructor
  · intro h; cases h
  · simp only [PeerContext.new, Bool.false_eq_true, Option.isSome_none]
  · intro h; cases h
  · rfl

theorem GfxInv.same (h : GfxInv p.ctx) (hs : SameGfx p p') : GfxInv p'.ctx := by
  obtain ⟨h₁, h₂, h₃, h₄⟩ := h
  constructor
  · rwa [hs.gfxReady, hs.gfxOpened]
  · rwa [hs.gfxOpened, hs.gfxContext]
  · rwa [hs.gfxContext, hs.gfxVcm]
  · rwa [hs.gfxSurfaceId, hs.gfxReady]

theorem Cleaned.gfxInv (h : Cleaned p p') : GfxInv p'.ctx := by
  constructor
  · intro hr; rw [h.gfxReady] at hr; cases hr
  · simp [h.gfxOpened, h.gfxContext]
  · intro hc; rw [h.gfxContext] at hc; cases hc
  · simp [h.gfxSurfaceId, h.gfxReady]

/-- A context whose graphics channel is not open. -/
theorem GfxInv.unopened (h : GfxInv ctx) (ho : ctx.gfxOpened = false) :
    ctx.gfxContext = none ∧ ctx.gfxReady = false ∧ ctx.gfxSurfaceId = 0 := by
  have hc : ctx.gfxContext = none := by
    cases hc : ctx.gfxContext with
    | none => rfl
    | some g =>
      have ho' := h.opened.2 (by rw [hc]; rfl)
      rw [ho] at ho'
      cases ho'
  have hr : ctx.gfxReady = false := by
    cases hr : ctx.gfxReady with
    | false => rfl
    | true =>
      have ho' := h.ready hr
      rw [ho] at ho'
      cases ho'
  have hs := h.surface
  rw [hr] at hs
  exact ⟨hc, hr, hs⟩

theorem gfxCreateSurface_shape (p : Peer) (w h : UInt32) (r : SurfaceSetup) :
    ∃ out, Talks p.out out ∧ gfxCreateSurface p w h r =
      (r.ok, { p with
        ctx.gfxSurfaceId := if r.ok then 1 else p.ctx.gfxSurfaceId, out := out }) := by
  cases r with
  | mk reset create map =>
    cases create with
    | false => exact ⟨_, (Talks.say rfl).trans (.say rfl), rfl⟩
    | true =>
      cases map with
      | false => exact ⟨_, (Talks.say rfl).trans ((Talks.say rfl).trans (.say rfl)), rfl⟩
      | true => exact ⟨_, (Talks.say rfl).trans ((Talks.say rfl).trans (.say rfl)), rfl⟩

theorem GfxInv.gfxOpen (h : GfxInv p.ctx) (ho : p.ctx.gfxOpened = false)
    (hv : p.ctx.gfxVcm.isSome = true) (r : ChannelSetup) : GfxInv (gfxOpen p r).2.ctx := by
  obtain ⟨hc, hr, hs⟩ := h.unopened ho
  rw [Wlrdp.gfxOpen]
  split
  · exact ⟨h.ready, h.opened, h.context, h.surface⟩
  · dsimp only
    split
    · constructor <;> simp [hr]
    · constructor <;> simp [hr, hv]

/-- What `gfx_caps_advertise` can make of a peer: it always selects the send mode, and then
fails to confirm, keeps the surface it has, creates one, or falls back. -/
inductive CapsStep (p : Peer) (mode : SendMode) (r : CapsResult) : Peer → Prop
  | unconfirmed (hc : r.capsConfirm = false) (out : List Output) (hf : Talks p.out out) :
      CapsStep p mode r { p with
        ctx.sendMode := mode
        ctx.bringUpFailed := p.ctx.bringUpFailed || !p.ctx.gfxReady, out := out }
  | kept (hc : r.capsConfirm = true) (out : List Output) (hf : Talks p.out out)
      (hs : p.ctx.gfxSurfaceId ≠ 0) :
      CapsStep p mode r { p with ctx.sendMode := mode, out := out }
  | created (hc : r.capsConfirm = true) (hok : r.surface.ok = true) (out : List Output)
      (hf : Talks p.out out) (hs : p.ctx.gfxSurfaceId = 0) :
      CapsStep p mode r { p with
        ctx.sendMode := mode, ctx.gfxSurfaceId := 1, ctx.gfxReady := true
        ctx.bringUpFailed := false, out := out }
  | fallback (hc : r.capsConfirm = true) (hok : r.surface.ok = false) (out : List Output)
      (hf : Talks p.out out) (hs : p.ctx.gfxSurfaceId = 0)
      (hp : p' = gfxCleanup { p with
        ctx.sendMode := .surfaceBits, ctx.bringUpFailed := true, out := out } r.deleteSurface) :
      CapsStep p mode r p'

theorem gfxCapsAdvertise_step (p : Peer) (caps : List CapSet) (r : CapsResult) :
    CapsStep p (advertisedMode p.settings caps) r (gfxCapsAdvertise p caps r) := by
  rw [gfxCapsAdvertise, advertisedMode]
  cases hsc : scanCaps (isMacosClient p.settings.osMajorType) caps 0 (-1) 0 with
  | mk rank chosen =>
    have hf : Talks p.out (p.out ++
        [Output.gfx p.ctx.gfxContext (.capsConfirm caps[chosen]?) r.capsConfirm]) := .say rfl
    dsimp only [Peer.gfxPdu, Peer.emit]
    cases hr : r.capsConfirm with
    | false => exact .unconfirmed hr _ (hr ▸ hf)
    | true =>
      rw [hr] at hf
      by_cases hs : p.ctx.gfxSurfaceId = 0
      · rw [if_neg (by decide), if_pos hs]
        obtain ⟨out, hout, he⟩ := gfxCreateSurface_shape
          { p with
            ctx.sendMode := modeOfRank rank
            out := p.out ++ [Output.gfx p.ctx.gfxContext (.capsConfirm caps[chosen]?) true] }
          p.ctx.width p.ctx.height r.surface
        rw [he]
        cases hok : r.surface.ok with
        | true => exact .created hr hok out (hf.trans hout) hs
        | false => exact .fallback hr hok out (hf.trans hout) hs rfl
      · rw [if_neg (by decide), if_neg hs]
        exact .kept hr _ hf hs

theorem GfxInv.caps (h : GfxInv p.ctx) (ho : p.ctx.gfxOpened = true)
    (hs : CapsStep p mode r p') : GfxInv p'.ctx := by
  cases hs with
  | unconfirmed => exact ⟨h.ready, h.opened, h.context, h.surface⟩
  | kept => exact ⟨h.ready, h.opened, h.context, h.surface⟩
  | created => exact ⟨fun _ => ho, h.opened, h.context, by simp⟩
  | fallback _ _ _ _ _ hp => exact (cleaned_of_eq hp).gfxInv

theorem CapsStep.talk (hs : CapsStep p mode r p') : Talks p.out p'.out := by
  cases hs with
  | unconfirmed _ _ hf => exact hf
  | kept _ _ hf => exact hf
  | created _ _ _ hf => exact hf
  | fallback _ _ _ hf _ hp => exact hf.trans (cleaned_of_eq hp).talk

/-- On a ready pipeline an advertisement only selects the send mode. -/
theorem CapsStep.selected (hs : CapsStep p mode r p') (hsurf : p.ctx.gfxSurfaceId ≠ 0) :
    p'.ctx.gfxReady = p.ctx.gfxReady ∧ p'.ctx.sendMode = mode := by
  cases hs with
  | unconfirmed => exact ⟨rfl, rfl⟩
  | kept => exact ⟨rfl, rfl⟩
  | created _ _ _ _ h₀ => exact absurd h₀ hsurf
  | fallback _ _ _ _ h₀ => exact absurd h₀ hsurf

/-- What `rdp_peer_check_vcm` can make of a peer. -/
inductive CheckStep (p : Peer) (r : VcmCheck) : Bool → Peer → Prop
  | settled (h : p.ctx.gfxVcm = none ∨ p.ctx.gfxOpened = true ∨ p.ctx.gfxReady = true)
      (hok : ok = false →
        (p.ctx.gfxOpened || p.ctx.gfxReady) = true ∧ r.checkFileDescriptor = false) :
      CheckStep p r ok p
  | handshaking (hc : r.checkFileDescriptor = true) (hf : r.drdynvcState ≠ .failed)
      (h : r.drdynvcState ≠ .ready) : CheckStep p r true p
  | fallback (hf : r.checkFileDescriptor = false ∨ r.drdynvcState = .failed)
      (hv : p.ctx.gfxVcm.isSome = true) (ho : p.ctx.gfxOpened = false)
      (hr : p.ctx.gfxReady = false)
      (hp : p' = gfxCleanup { p with ctx.bringUpFailed := true } r.deleteSurface) :
      CheckStep p r true p'
  | opened (hc : r.checkFileDescriptor = true) (hd : r.drdynvcState = .ready)
      (hv : p.ctx.gfxVcm.isSome = true) (ho : p.ctx.gfxOpened = false)
      (hr : p.ctx.gfxReady = false) : CheckStep p r true (openChannels p r)

theorem rdpPeerCheckVcm_step (h : rdpPeerCheckVcm p r = (ok, p')) : CheckStep p r ok p' := by
  rw [rdpPeerCheckVcm] at h
  by_cases hv : p.ctx.gfxVcm = none
  · rw [if_pos hv] at h
    obtain ⟨rfl, rfl⟩ := h
    exact .settled (.inl hv) fun h => by cases h
  rw [if_neg hv] at h
  cases ho : p.ctx.gfxOpened with
  | true =>
    rw [ho, Bool.true_or, if_pos rfl] at h
    obtain ⟨rfl, rfl⟩ := h
    exact .settled (.inr (.inl ho)) fun h => ⟨by rw [ho, Bool.true_or], h⟩
  | false =>
  cases hr : p.ctx.gfxReady with
  | true =>
    rw [hr, Bool.or_true, if_pos rfl] at h
    obtain ⟨rfl, rfl⟩ := h
    exact .settled (.inr (.inr hr)) fun h => ⟨by rw [hr, Bool.or_true], h⟩
  | false =>
  rw [ho, hr, if_neg (by decide)] at h
  cases hc : r.checkFileDescriptor with
  | false =>
    rw [hc, if_pos (by decide)] at h
    obtain ⟨rfl, rfl⟩ := h
    exact .fallback (.inl hc) (Option.ne_none_iff_isSome.1 hv) ho hr rfl
  | true =>
  rw [hc, if_neg (by decide)] at h
  by_cases hf : r.drdynvcState = .failed
  · rw [if_pos hf] at h
    obtain ⟨rfl, rfl⟩ := h
    exact .fallback (.inr hf) (Option.ne_none_iff_isSome.1 hv) ho hr rfl
  rw [if_neg hf] at h
  by_cases hd : r.drdynvcState = .ready
  · rw [if_neg (not_not_intro hd)] at h
    obtain ⟨rfl, rfl⟩ := h
    exact .opened hc hd (Option.ne_none_iff_isSome.1 hv) ho hr
  · rw [if_pos hd] at h
    obtain ⟨rfl, rfl⟩ := h
    exact .handshaking hc hf hd

theorem openChannels_sameGfx (p : Peer) (r : VcmCheck) :
    SameGfx (gfxOpen p r.gfx).2 (openChannels p r) :=
  ((dispOpen_sameGfx _ _).trans (openCliprdr_sameGfx _ _)).trans (rdpsndOpen_sameGfx _ _)

theorem GfxInv.check (h : GfxInv p.ctx) (hs : CheckStep p r ok p') : GfxInv p'.ctx := by
  cases hs with
  | settled => exact h
  | handshaking => exact h
  | fallback _ _ _ _ hp => exact (cleaned_of_eq hp).gfxInv
  | opened _ _ hv ho hr => exact (h.gfxOpen ho hv r.gfx).same (openChannels_sameGfx p r)

theorem gfxOpen_frames (p : Peer) (r : ChannelSetup) :
    framesOf (gfxOpen p r).2.out = framesOf p.out := by
  rw [gfxOpen]
  split
  · rfl
  · dsimp only
    split <;> exact framesOf_stored

theorem CheckStep.frames (hs : CheckStep p r ok p') : framesOf p'.out = framesOf p.out := by
  cases hs with
  | settled => rfl
  | handshaking => rfl
  | fallback _ _ _ _ hp => exact (cleaned_of_eq hp).talk.frames
  | opened => exact (openChannels_sameGfx p r).frames.trans (gfxOpen_frames p r.gfx)

/-- What `vcm_init` leaves of a context that has no manager yet. -/
structure VcmStep (p p' : Peer) : Prop where
  id : p'.id = p.id
  settings : p'.settings = p.settings
  gfxContext : p'.ctx.gfxContext = p.ctx.gfxContext
  gfxOpened : p'.ctx.gfxOpened = p.ctx.gfxOpened
  gfxReady : p'.ctx.gfxReady = p.ctx.gfxReady
  gfxSurfaceId : p'.ctx.gfxSurfaceId = p.ctx.gfxSurfaceId
  sendMode : p'.ctx.sendMode = p.ctx.sendMode
  activated : p'.ctx.activated = p.ctx.activated
  out : p'.out = p.out
  failed : p'.ctx.bringUpFailed = true → p.ctx.gfxVcm = none → p.ctx.bringUpFailed = false →
    p'.ctx.gfxVcm = none

theorem vcmInit_step (p : Peer) (r : VcmSetup) : VcmStep p (vcmInit p r).2 := by
  rw [vcmInit]
  split
  · exact ⟨rfl, rfl, rfl, rfl, rfl, rfl, rfl, rfl, rfl, fun _ h _ => h⟩
  · dsimp only
    split
    · exact ⟨rfl, rfl, rfl, rfl, rfl, rfl, rfl, rfl, rfl, fun _ _ _ => rfl⟩
    · exact ⟨rfl, rfl, rfl, rfl, rfl, rfl, rfl, rfl, rfl, fun h => by cases h⟩

theorem onPostConnect_step (p : Peer) (r : VcmSetup) : VcmStep p (onPostConnect p r) := by
  simp only [onPostConnect]
  split
  · obtain ⟨h₁, h₂, h₃, h₄, h₅, h₆, h₇, h₈, h₉, h₀⟩ :=
      vcmInit_step { p with ctx.pixelFormat := formatOfDepth p.settings.colorDepth } r
    exact ⟨h₁, h₂, h₃, h₄, h₅, h₆, h₇, h₈, h₉, h₀⟩
  · refine ⟨rfl, rfl, rfl, rfl, rfl, rfl, rfl, rfl, rfl, fun h _ hf => ?_⟩
    change p.ctx.bringUpFailed = true at h
    rw [hf] at h
    cases h

theorem GfxInv.vcm (h : GfxInv p.ctx) (hc : p.ctx.gfxContext = none) (hs : VcmStep p p') :
    GfxInv p'.ctx := by
  constructor
  · rw [hs.gfxReady, hs.gfxOpened]; exact h.ready
  · rw [hs.gfxOpened, hs.gfxContext]; exact h.opened
  · rw [hs.gfxContext, hc]; intro h; cases h
  · rw [hs.gfxSurfaceId, hs.gfxReady]; exact h.surface

/-- A resize of the peer keeps the graphics pipeline as it is. -/
theorem rdpPeerUpdateSize_shape (h : GfxInv p.ctx) (w hgt : UInt32) (r : SurfaceSetup) :
    SameGfx p (rdpPeerUpdateSize p w hgt r) ∧
      (rdpPeerUpdateSize p w hgt r).ctx.width = w ∧
      (rdpPeerUpdateSize p w hgt r).ctx.height = hgt := by
  simp only [rdpPeerUpdateSize]
  split
  · next hr =>
    obtain ⟨out, hf, he⟩ := gfxCreateSurface_shape
      { p with ctx.width := w, ctx.height := hgt } w hgt r
    rw [he]
    have hs : p.ctx.gfxSurfaceId = 1 := by
      rw [h.surface, (Bool.and_eq_true_iff.1 hr).1]; rfl
    refine ⟨⟨rfl, rfl, rfl, rfl, rfl, rfl, rfl, ?_, rfl, rfl, rfl, hf.frames⟩, rfl, rfl⟩
    change (if r.ok then (1 : UInt16) else p.ctx.gfxSurfaceId) = p.ctx.gfxSurfaceId
    rw [hs, ite_self]
  · exact ⟨⟨rfl, rfl, rfl, rfl, rfl, rfl, rfl, rfl, rfl, rfl, rfl, rfl⟩, rfl, rfl⟩

theorem sendGfxFrame_shape (p : Peer) : ∃ ok id out,
    sendGfxFrame p codec data extra len w h r =
      (ok, { p with ctx.gfxFrameId := id, out := out }) := by
  simp only [sendGfxFrame]
  split
  · exact ⟨_, _, _, rfl⟩
  · split <;> exact ⟨_, _, _, rfl⟩

/-- Sending a frame uses up frame ids and produces output, nothing else. -/
theorem rdpPeerSendFrame_shape (p : Peer) (f : EncodedFrame) (w h : UInt32) (r : FrameSend) :
    ∃ ok id out, rdpPeerSendFrame p f w h r =
      (ok, { p with ctx.gfxFrameId := id, out := out }) := by
  have hbits : ∃ ok id out, sendSurfaceBits p f w h r =
      (ok, { p with ctx.gfxFrameId := id, out := out }) := ⟨_, _, _, rfl⟩
  simp only [rdpPeerSendFrame]
  split
  · split
    · simp only [sendGfxAvc444]
      split
      · exact ⟨_, _, _, rfl⟩
      · exact sendGfxFrame_shape p
    · simp only [sendGfxAvc444]
      split
      · exact ⟨_, _, _, rfl⟩
      · exact sendGfxFrame_shape p
    · simp only [sendGfxAvc420]
      split
      · exact ⟨_, _, _, rfl⟩
      · exact sendGfxFrame_shape p
    · simp only [sendGfxProgressive]
      split
      · exact ⟨_, _, _, rfl⟩
      · exact sendGfxFrame_shape p
    · exact hbits
  · exact hbits

/-- The codec that a send path announces: the send mode and the NSCodec setting. -/
def announcedCodec : SendMode × Bool → Codec
  | (.gfxAvc444v2, _) => .avc444v2
  | (.gfxAvc444, _) => .avc444
  | (.gfxAvc420, _) => .avc420
  | (.gfxProgressive, _) => .caprogressive
  | (.surfaceBits, nscodec) => if nscodec then .nscodec else .none

/-- What a send path announces for a side of the picture: SurfaceBits have 16 bits for it. -/
def announcedSide (mode : SendMode) (side : UInt32) : UInt32 :=
  match mode with
  | .surfaceBits => side.toUInt16.toUInt32
  | _ => side

theorem sendGfxFrame_frames (p : Peer) :
    framesOf (sendGfxFrame p codec data extra len w h r).2.out = framesOf p.out ∨
      framesOf (sendGfxFrame p codec data extra len w h r).2.out =
        framesOf p.out ++ [⟨codec, data, w, h⟩] := by
  simp only [sendGfxFrame]
  dsimp only [Peer.gfxPdu, Peer.emit]
  split
  · left
    simp [framesOf, Output.picture]
  · right
    split <;> simp only [framesOf_append, List.append_assoc] <;> rfl

/-- Sending a frame puts at most one picture on the wire, and none without regions for
AVC420. -/
theorem rdpPeerSendFrame_frames (p : Peer) (f : EncodedFrame) (w h : UInt32) (r : FrameSend) :
    let path := (rdpPeerGetSendMode p.ctx, p.settings.nscodec)
    let out := (rdpPeerSendFrame p f w h r).2.out
    framesOf out = framesOf p.out ∨
      framesOf out = framesOf p.out ++
          [⟨announcedCodec path, f.data, announcedSide path.1 w, announcedSide path.1 h⟩] ∧
        (path.1 = .gfxAvc420 → f.metablock.numRegionRects ≠ 0) := by
  have hbits : framesOf (sendSurfaceBits p f w h r).2.out =
      framesOf p.out ++ [⟨announcedCodec (.surfaceBits, p.settings.nscodec), f.data,
        announcedSide .surfaceBits w, announcedSide .surfaceBits h⟩] := by
    rw [sendSurfaceBits, Peer.emit, framesOf_append]
    rfl
  simp only [rdpPeerSendFrame, rdpPeerGetSendMode]
  cases hr : p.ctx.gfxReady with
  | false => exact .inr ⟨hbits, nofun⟩
  | true =>
    rw [if_pos rfl]
    cases hm : p.ctx.sendMode with
    | surfaceBits => exact .inr ⟨hbits, nofun⟩
    | gfxAvc420 =>
      dsimp only
      simp only [sendGfxAvc420]
      split
      · exact .inl rfl
      · next hn =>
        rcases sendGfxFrame_frames p with h | h
        · exact .inl h
        · exact .inr ⟨h, fun _ hz => hn (.inl hz)⟩
    | gfxAvc444 =>
      dsimp only
      simp only [sendGfxAvc444]
      split
      · exact .inl rfl
      · exact (sendGfxFrame_frames p).imp_right fun h => ⟨h, nofun⟩
    | gfxAvc444v2 =>
      dsimp only
      simp only [sendGfxAvc444]
      split
      · exact .inl rfl
      · exact (sendGfxFrame_frames p).imp_right fun h => ⟨h, nofun⟩
    | gfxProgressive =>
      dsimp only
      simp only [sendGfxProgressive]
      split
      · exact .inl rfl
      · exact (sendGfxFrame_frames p).imp_right fun h => ⟨h, nofun⟩

end Wlrdp
