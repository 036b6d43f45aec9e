import Wlrdp.ChannelOpening

namespace Wlrdp
set_option autoImplicit true

variable {p p' q : Peer}

/-! ### The open graphics channel of a peer -/

/-- The graphics channels made for a peer that were opened and not closed. -/
def Channels.gfxLinks (c : Channels) (owner : Nat) : List Channel :=
  c.links.live.filter fun o => o.kind = .gfx && o.owner = owner

namespace Channels

@[simp] theorem gfxLinks_obtain (c : Channels) (o : Channel) (owner : Nat) :
    (c.obtain o).gfxLinks owner = c.gfxLinks owner := rfl

@[simp] theorem gfxLinks_free (c : Channels) (o : Channel) (owner : Nat) :
    (c.free o).gfxLinks owner = c.gfxLinks owner := rfl

theorem gfxLinks_close (c : Channels) (o : Channel) (owner : Nat) :
    (c.close o).gfxLinks owner = (c.gfxLinks owner).erase o := by
  simp only [gfxLinks, close, Ledger.live_release]
  exact List.erase_filter.symm

theorem gfxLinks_close_other {c : Channels} (h : o.kind ≠ .gfx) :
    (c.close o).gfxLinks owner = c.gfxLinks owner := by
  rw [gfxLinks_close]
  apply List.erase_of_not_mem
  intro hmem
  have ho := (List.mem_filter.1 hmem).2
  exact h (of_decide_eq_true (Bool.and_eq_true_iff.1 ho).1)

theorem gfxLinks_opened_other {c : Channels} (h : o.kind ≠ .gfx) :
    (c.opened o).gfxLinks owner = c.gfxLinks owner := by
  apply List.filter_cons_of_neg
  intro ho
  exact h (of_decide_eq_true (Bool.and_eq_true_iff.1 ho).1)

theorem gfxLinks_opened (c : Channels) (h : Handle) (owner : Nat) :
    (c.opened ⟨.gfx, h, owner⟩).gfxLinks owner = ⟨.gfx, h, owner⟩ :: c.gfxLinks owner := by
  apply List.filter_cons_of_pos
  simp only [decide_true, Bool.and_self]

end Channels

/-- A graphics PDU that was sent through a null context. -/
def Output.unaddressed : Output → Bool
  | .gfx none _ _ => true
  | _ => false

/-- Every graphics PDU was sent through a context. -/
def Addressed (out : List Output) : Prop := ∀ o ∈ out, o.unaddressed = false

theorem Addressed.say (h : Addressed out) (ho : o.unaddressed = false) :
    Addressed (out ++ [o]) := by
  intro o' ho'
  rcases List.mem_append.1 ho' with hmem | hmem
  · exact h o' hmem
  · rw [List.mem_singleton.1 hmem]
    exact ho

theorem Addressed.pdu (h : Addressed p.out) (hc : p.ctx.gfxContext.isSome = true) (pdu : GfxPdu)
    (ok : Bool) : Addressed (p.gfxPdu pdu ok).out := by
  apply h.say
  obtain ⟨gfx, hg⟩ := Option.isSome_iff_exists.1 hc
  rw [hg]
  rfl

/-- The open graphics channel is the one that the context refers to. -/
structure ContextLinkInv (p : Peer) : Prop where
  links : p.chans.gfxLinks p.id = (p.ctx.gfxContext.map (p.channel .gfx)).toList
  addressed : Addressed p.out

/-- The graphics context and its channel are as before. -/
structure SameLink (p p' : Peer) : Prop where
  id : p'.id = p.id
  gfxContext : p'.ctx.gfxContext = p.ctx.gfxContext
  gfxOpened : p'.ctx.gfxOpened = p.ctx.gfxOpened
  links : p'.chans.gfxLinks p'.id = p.chans.gfxLinks p.id
  addressed : Addressed p.out → Addressed p'.out

theorem SameLink.refl (p : Peer) : SameLink p p := ⟨rfl, rfl, rfl, rfl, fun h => h⟩

theorem SameLink.trans (h : SameLink p p') (h' : SameLink p' q) : SameLink p q :=
  ⟨h'.id.trans h.id, h'.gfxContext.trans h.gfxContext, h'.gfxOpened.trans h.gfxOpened,
    h'.links.trans h.links, fun ha => h'.addressed (h.addressed ha)⟩

theorem ContextLinkInv.same (h : ContextLinkInv p) (hs : SameLink p p') : ContextLinkInv p' := by
  have hchannel : p'.channel .gfx = p.channel .gfx := by
    funext gfx
    exact congrArg (Channel.mk .gfx gfx) hs.id
  refine ⟨?_, hs.addressed h.addressed⟩
  rw [hs.links, hs.gfxContext, hchannel, h.links]

theorem closeRdpsnd_sameLink (p : Peer) : SameLink p (closeRdpsnd p) := by
  simp only [closeRdpsnd]
  split
  · exact .refl p
  · refine ⟨rfl, rfl, rfl, ?_, fun h => h⟩
    rw [Channels.gfxLinks_free]
    split
    · exact Channels.gfxLinks_close_other ChannelKind.noConfusion
    · rfl

theorem closeCliprdr_sameLink (p : Peer) : SameLink p (closeCliprdr p) := by
  simp only [closeCliprdr, clipboardCloseCliprdr]
  split
  · split
    · exact ⟨rfl, rfl, rfl, rfl, fun h => h⟩
    · refine ⟨rfl, rfl, rfl, ?_, fun h => h⟩
      rw [Channels.gfxLinks_free]
      exact Channels.gfxLinks_close_other ChannelKind.noConfusion
  · exact .refl p

theorem closeDisp_sameLink (p : Peer) : SameLink p (closeDisp p) := by
  simp only [closeDisp]
  split
  · exact .refl p
  · refine ⟨rfl, rfl, rfl, ?_, fun h => h⟩
    rw [Channels.gfxLinks_free]
    split
    · exact Channels.gfxLinks_close_other ChannelKind.noConfusion
    · rfl

theorem closeVcm_sameLink (p : Peer) : SameLink p (closeVcm p) := by
  simp only [closeVcm]
  split
  · exact .refl p
  · refine ⟨rfl, rfl, rfl, ?_, fun h => h⟩
    rw [Channels.gfxLinks_free]
    exact Channels.gfxLinks_close_other ChannelKind.noConfusion

theorem stored_addressed (h : Addressed out) : Addressed (out ++ [Output.stored kind r]) :=
  h.say rfl

theorem dispOpen_sameLink (p : Peer) (r : ChannelSetup) : SameLink p (dispOpen p r).2 := by
  cases hr : r.ok with
  | false => rw [dispOpen_failed hr]; exact .refl p
  | true =>
    obtain ⟨disp, hn, ho⟩ := ChannelSetup.ok_iff.1 hr
    rw [dispOpen_opened hn ho]
    exact ⟨rfl, rfl, rfl, Channels.gfxLinks_opened_other ChannelKind.noConfusion, stored_addressed⟩

theorem openCliprdr_sameLink (p : Peer) (r : ChannelSetup) : SameLink p (openCliprdr p r) := by
  simp only [openCliprdr]
  split
  · exact .refl p
  · cases hr : r.ok with
    | false => rw [clipboardOpenCliprdr_failed hr]; exact .refl p
    | true =>
      obtain ⟨cliprdr, hn, ho⟩ := ChannelSetup.ok_iff.1 hr
      rw [clipboardOpenCliprdr_opened hn ho]
      exact ⟨rfl, rfl, rfl, Channels.gfxLinks_opened_other ChannelKind.noConfusion, stored_addressed⟩

theorem rdpsndOpen_sameLink (p : Peer) (r : RdpsndSetup) : SameLink p (rdpsndOpen p r).2 := by
  cases hr : r.ok with
  | false => rw [rdpsndOpen_failed hr]; exact .refl p
  | true =>
    obtain ⟨rdpsnd, hn, hi, hs⟩ := RdpsndSetup.ok_iff.1 hr
    rw [rdpsndOpen_opened hn hi hs]
    exact ⟨rfl, rfl, rfl, Channels.gfxLinks_opened_other ChannelKind.noConfusion, stored_addressed⟩

/-- `gfx_cleanup` first deletes the surface through the context that it then frees. -/
theorem closeGfx_linkInv (h : ContextLinkInv p) (ho : p.ctx.gfxOpened = p.ctx.gfxContext.isSome) :
    ContextLinkInv (closeGfx p d) := by
  simp only [closeGfx]
  cases hg : p.ctx.gfxContext with
  | none => exact h
  | some gfx =>
    have hl := h.links
    rw [hg] at ho hl
    dsimp only
    rw [ho, Option.isSome_some, if_pos rfl]
    constructor
    · change ((p.chans.close (p.channel .gfx gfx)).free _).gfxLinks p.id = []
      rw [Channels.gfxLinks_free, Channels.gfxLinks_close, hl]
      exact List.erase_cons_head ..
    · dsimp only
      split
      · exact h.addressed.say rfl
      · rw [List.append_nil]
        exact h.addressed

theorem gfxCleanup_linkInv (h : ContextLinkInv p) (ho : p.ctx.gfxOpened = p.ctx.gfxContext.isSome) :
    ContextLinkInv (gfxCleanup p d) := by
  have hs := ((closeRdpsnd_sameLink (closeGfx p d)).trans (closeCliprdr_sameLink _)).trans
    ((closeDisp_sameLink _).trans (closeVcm_sameLink _))
  obtain ⟨hl, ha⟩ := (closeGfx_linkInv h ho).same hs
  exact ⟨hl, ha⟩

theorem gfxOpen_linkInv (h : ContextLinkInv p) (hn : p.ctx.gfxContext = none) (r : ChannelSetup) :
    ContextLinkInv (gfxOpen p r).2 := by
  have hl := h.links
  rw [hn] at hl
  rw [gfxOpen]
  split
  · exact ⟨h.links, h.addressed⟩
  · next gfx _ =>
    dsimp only
    split
    · rw [Channels.free_obtain]
      exact ⟨hl, stored_addressed h.addressed⟩
    · refine ⟨?_, stored_addressed h.addressed⟩
      change ((p.chans.obtain _).opened ⟨.gfx, gfx, p.id⟩).gfxLinks p.id = [⟨.gfx, gfx, p.id⟩]
      rw [Channels.gfxLinks_opened, Channels.gfxLinks_obtain, hl]
      rfl

/-! ### Sending through the context -/

theorem SameLink.isSome (h : SameLink p p') (hc : p.ctx.gfxContext.isSome = true) :
    p'.ctx.gfxContext.isSome = true := by
  rw [h.gfxContext]
  exact hc

theorem SameLink.pdu (hc : p.ctx.gfxContext.isSome = true) (pdu : GfxPdu) (ok : Bool) :
    SameLink p (p.gfxPdu pdu ok) := ⟨rfl, rfl, rfl, rfl, fun h => h.pdu hc pdu ok⟩

theorem gfxCreateSurface_sameLink (hc : p.ctx.gfxContext.isSome = true) (w h : UInt32)
    (r : SurfaceSetup) : SameLink p (gfxCreateSurface p w h r).2 := by
  have h₁ := SameLink.pdu hc (.resetGraphics w h (w - 1) (h - 1)) r.resetGraphics
  have h₂ := h₁.trans (.pdu (h₁.isSome hc) (.createSurface 1 w.toUInt16 h.toUInt16) r.createSurface)
  simp only [gfxCreateSurface]
  split
  · exact h₂
  · have h₃ := h₂.trans (.pdu (h₂.isSome hc) (.mapSurfaceToOutput 1) r.mapSurfaceToOutput)
    split
    · exact h₃
    · exact ⟨h₃.id, h₃.gfxContext, h₃.gfxOpened, h₃.links, h₃.addressed⟩

theorem sendGfxFrame_sameLink (hc : p.ctx.gfxContext.isSome = true) (r : FrameSend) :
    SameLink p (sendGfxFrame p codecId data extra len w h r).2 := by
  let p₀ : Peer := { p with ctx.gfxFrameId := p.ctx.gfxFrameId + 1 }
  have h₀ : SameLink p p₀ := ⟨rfl, rfl, rfl, rfl, fun h => h⟩
  have h₁ := h₀.trans (.pdu (h₀.isSome hc) (.startFrame p₀.ctx.gfxFrameId) r.startFrame)
  simp only [sendGfxFrame]
  split
  · exact h₁
  · have h₂ := h₁.trans (.pdu (h₁.isSome hc) (.surfaceCommand
      { surfaceId := p.ctx.gfxSurfaceId, codecId := codecId, format := p.ctx.pixelFormat
        right := w, bottom := h, length := len, data := data, extra := extra })
      r.surfaceCommand)
    split
    · exact h₂
    · exact h₂.trans (.pdu (h₂.isSome hc) (.endFrame p₀.ctx.gfxFrameId) r.endFrame)

theorem sendGfxAvc444_sameLink (hc : p.ctx.gfxContext.isSome = true) (f : EncodedFrame)
    (w h : UInt32) (v2 : Bool) (r : FrameSend) : SameLink p (sendGfxAvc444 p f w h v2 r).2 := by
  simp only [sendGfxAvc444]
  split
  · exact .refl p
  · exact sendGfxFrame_sameLink hc r

theorem sendGfxAvc420_sameLink (hc : p.ctx.gfxContext.isSome = true) (f : EncodedFrame)
    (w h : UInt32) (r : FrameSend) : SameLink p (sendGfxAvc420 p f w h r).2 := by
  simp only [sendGfxAvc420]
  split
  · exact .refl p
  · exact sendGfxFrame_sameLink hc r

theorem sendGfxProgressive_sameLink (hc : p.ctx.gfxContext.isSome = true) (f : EncodedFrame)
    (w h : UInt32) (r : FrameSend) : SameLink p (sendGfxProgressive p f w h r).2 := by
  simp only [sendGfxProgressive]
  split
  · exact .refl p
  · exact sendGfxFrame_sameLink hc r

theorem sendSurfaceBits_sameLink (p : Peer) (f : EncodedFrame) (w h : UInt32) (r : FrameSend) :
    SameLink p (sendSurfaceBits p f w h r).2 := ⟨rfl, rfl, rfl, rfl, fun ha => ha.say rfl⟩

/-- The GFX paths are taken by a ready pipeline only. -/
theorem rdpPeerSendFrame_sameLink
    (hc : p.ctx.gfxReady = true → p.ctx.gfxContext.isSome = true) (f : EncodedFrame)
    (w h : UInt32) (r : FrameSend) : SameLink p (rdpPeerSendFrame p f w h r).2 := by
  simp only [rdpPeerSendFrame]
  split
  · next hr =>
    have hctx := hc hr
    split
    · exact sendGfxAvc444_sameLink hctx f w h true r
    · exact sendGfxAvc444_sameLink hctx f w h false r
    · exact sendGfxAvc420_sameLink hctx f w h r
    · exact sendGfxProgressive_sameLink hctx f w h r
    · exact sendSurfaceBits_sameLink p f w h r
  · exact sendSurfaceBits_sameLink p f w h r

theorem rdpPeerUpdateSize_sameLink (p : Peer) (w h : UInt32) (r : SurfaceSetup) :
    SameLink p (rdpPeerUpdateSize p w h r) := by
  let p₀ : Peer := { p with ctx.width := w, ctx.height := h }
  have h₀ : SameLink p p₀ := ⟨rfl, rfl, rfl, rfl, fun ha => ha⟩
  simp only [rdpPeerUpdateSize]
  split
  · next hr =>
    have hc : p₀.ctx.gfxContext.isSome = true := (Bool.and_eq_true_iff.1 hr).2
    exact h₀.trans (gfxCreateSurface_sameLink hc w h r)
  · exact h₀

theorem gfxCapsAdvertise_linkInv (h : ContextLinkInv p) (hc : p.ctx.gfxContext.isSome = true)
    (ho : p.ctx.gfxOpened = true) (caps : List CapSet) (r : CapsResult) :
    ContextLinkInv (gfxCapsAdvertise p caps r) := by
  rw [gfxCapsAdvertise]
  cases hsc : scanCaps (isMacosClient p.settings.osMajorType) caps 0 (-1) 0 with
  | mk rank chosen =>
    let p₀ : Peer := { p with ctx.sendMode := modeOfRank rank }
    have h₀ : SameLink p p₀ := ⟨rfl, rfl, rfl, rfl, fun ha => ha⟩
    have h₁ : SameLink p (p₀.gfxPdu (.capsConfirm caps[chosen]?) r.capsConfirm) :=
      h₀.trans (.pdu (h₀.isSome hc) ..)
    dsimp only
    change ContextLinkInv (if (!r.capsConfirm) = true then _ else _)
    generalize p₀.gfxPdu (.capsConfirm caps[chosen]?) r.capsConfirm = p₁ at h₁ ⊢
    split
    · obtain ⟨hl, ha⟩ := h.same h₁
      exact ⟨hl, ha⟩
    · split
      · have h₂ := h₁.trans (gfxCreateSurface_sameLink (h₁.isSome hc) p₁.ctx.width p₁.ctx.height
          r.surface)
        cases hs : gfxCreateSurface p₁ p₁.ctx.width p₁.ctx.height r.surface with
        | mk ok p₂ =>
          rw [hs] at h₂
          obtain ⟨hl, ha⟩ := h.same h₂
          cases ok with
          | true => exact ⟨hl, ha⟩
          | false =>
            have hf : ContextLinkInv { p₂ with
                ctx.sendMode := .surfaceBits, ctx.bringUpFailed := true } := ⟨hl, ha⟩
            exact gfxCleanup_linkInv hf ((h₂.gfxOpened.trans ho).trans (h₂.isSome hc).symm)
      · exact h.same h₁

/-! ### Every sequence of calls -/

/-- The calls that touch the graphics pipeline of one client, with the results of everything
they call. -/
inductive PipelineCall
  | settings (s : Settings)
  | postConnect (r : VcmSetup)
  | checkVcm (r : VcmCheck)
  | capsAdvertise (caps : List CapSet) (r : CapsResult)
  | updateSize (width height : UInt32) (r : SurfaceSetup)
  | sendFrame (f : EncodedFrame) (width height : UInt32) (r : FrameSend)
deriving DecidableEq

/-- A peer, and whether FreeRDP has called `PostConnect`. -/
structure GfxClient where
  peer : Peer
  connected : Bool
deriving DecidableEq

/-- `PostConnect` is called once. A channel delivers advertisements from when `Open` returned
until it is closed. -/
def graphicsPipeline : System GfxClient PipelineCall where
  enabled
    | c, .postConnect _ => c.connected = false
    | c, .capsAdvertise _ _ => c.peer.chans.gfxLinks c.peer.id ≠ []
    | _, _ => True
  step c
    | .settings s => { c with peer.settings := s }
    | .postConnect r => ⟨onPostConnect c.peer r, true⟩
    | .checkVcm r => { c with peer := (rdpPeerCheckVcm c.peer r).2 }
    | .capsAdvertise caps r => { c with peer := gfxCapsAdvertise c.peer caps r }
    | .updateSize w h r => { c with peer := rdpPeerUpdateSize c.peer w h r }
    | .sendFrame f w h r => { c with peer := (rdpPeerSendFrame c.peer f w h r).2 }

instance : ∀ c e, Decidable (graphicsPipeline.enabled c e)
  | c, .postConnect _ => inferInstanceAs (Decidable (c.connected = false))
  | c, .capsAdvertise _ _ => inferInstanceAs (Decidable (c.peer.chans.gfxLinks c.peer.id ≠ []))
  | _, .settings _ | _, .checkVcm _ | _, .updateSize _ _ _ | _, .sendFrame _ _ _ _ =>
    .isTrue trivial

/-- A client that was just attached to a session with the channels `chans`. -/
def GfxClient.attached (id : Nat) (settings : Settings) (width height : UInt32)
    (clipboard : Bool) (cliprdr : Option Handle) (chans : Channels) : GfxClient where
  peer :=
    { id := id, settings := settings, ctx := .new width height clipboard, cliprdr := cliprdr
      chans := chans, out := [] }
  connected := false

/-- The send function of each mode. -/
def sendPath (mode : SendMode) (p : Peer) (f : EncodedFrame) (width height : UInt32)
    (r : FrameSend) : Bool × Peer :=
  match mode with
  | .gfxAvc444v2 => sendGfxAvc444 p f width height true r
  | .gfxAvc444 => sendGfxAvc444 p f width height false r
  | .gfxAvc420 => sendGfxAvc420 p f width height r
  | .gfxProgressive => sendGfxProgressive p f width height r
  | .surfaceBits => sendSurfaceBits p f width height r

/-- The reported mode is the path that a frame takes. -/
theorem rdpPeerSendFrame_path (p : Peer) (f : EncodedFrame) (w h : UInt32) (r : FrameSend) :
    rdpPeerSendFrame p f w h r = sendPath (rdpPeerGetSendMode p.ctx) p f w h r := by
  simp only [rdpPeerSendFrame, rdpPeerGetSendMode]
  cases p.ctx.gfxReady with
  | false => rfl
  | true => rfl

/-- What the invariant of a client's graphics pipeline says, and that there is no manager before
`PostConnect`. -/
structure PipelineInv (c : GfxClient) : Prop where
  gfx : GfxInv c.peer.ctx
  link : ContextLinkInv c.peer
  manager : c.connected = false → c.peer.ctx.gfxVcm = none

theorem PipelineInv.attached (h : ∀ o ∈ chans.links.live, o.owner ≠ owner) :
    PipelineInv (.attached owner settings width height clipboard cliprdr chans) := by
  refine ⟨.new .., ⟨?_, fun _ ho => (by cases ho)⟩, fun _ => rfl⟩
  apply List.filter_eq_nil_iff.2
  intro o ho howner
  exact h o ho (of_decide_eq_true (Bool.and_eq_true_iff.1 howner).2)

theorem GfxInv.opened_eq (h : GfxInv ctx) : ctx.gfxOpened = ctx.gfxContext.isSome :=
  Bool.eq_iff_iff.2 h.opened

theorem GfxInv.context_of_ready (h : GfxInv ctx) (hr : ctx.gfxReady = true) :
    ctx.gfxContext.isSome = true := h.opened.1 (h.ready hr)

/-- An advertisement finds the context of the channel that delivers it. -/
theorem ContextLinkInv.context (h : ContextLinkInv p) (hl : p.chans.gfxLinks p.id ≠ []) :
    p.ctx.gfxContext.isSome = true := by
  rw [h.links] at hl
  cases hg : p.ctx.gfxContext with
  | none =>
    rw [hg] at hl
    exact absurd rfl hl
  | some gfx => rfl

theorem onPostConnect_sameLink (p : Peer) (r : VcmSetup) : SameLink p (onPostConnect p r) := by
  simp only [onPostConnect]
  split
  · simp only [vcmInit]
    split
    · exact ⟨rfl, rfl, rfl, rfl, fun h => h⟩
    · split
      · exact ⟨rfl, rfl, rfl, rfl, fun h => h⟩
      · exact ⟨rfl, rfl, rfl, Channels.gfxLinks_opened_other ChannelKind.noConfusion, fun h => h⟩
  · exact ⟨rfl, rfl, rfl, rfl, fun h => h⟩

theorem CheckStep.linkInv (h : ContextLinkInv p) (hg : GfxInv p.ctx) (hs : CheckStep p r ok p') :
    ContextLinkInv p' := by
  cases hs with
  | settled => exact h
  | handshaking => exact h
  | fallback _ _ _ _ hp =>
    subst hp
    have hf : ContextLinkInv { p with ctx.bringUpFailed := true } := ⟨h.links, h.addressed⟩
    exact gfxCleanup_linkInv hf hg.opened_eq
  | opened _ _ _ ho _ =>
    have hl := gfxOpen_linkInv h (hg.unopened ho).1 r.gfx
    exact ((hl.same (dispOpen_sameLink ..)).same (openCliprdr_sameLink ..)).same
      (rdpsndOpen_sameLink ..)

theorem pipelineInv_step (c : GfxClient) (e : PipelineCall) (h : PipelineInv c)
    (he : graphicsPipeline.enabled c e) : PipelineInv (graphicsPipeline.step c e) := by
  cases e with
  | settings s => exact ⟨h.gfx, ⟨h.link.links, h.link.addressed⟩, h.manager⟩
  | postConnect r =>
    have hnone : c.peer.ctx.gfxContext = none := by
      apply Option.not_isSome_iff_eq_none.1
      intro hc
      have hv := h.gfx.context hc
      rw [h.manager he] at hv
      cases hv
    exact ⟨h.gfx.vcm hnone (onPostConnect_step c.peer r),
      h.link.same (onPostConnect_sameLink c.peer r), fun hc => (by cases hc)⟩
  | checkVcm r =>
    have hs : CheckStep c.peer r _ _ := rdpPeerCheckVcm_step rfl
    refine ⟨h.gfx.check hs, hs.linkInv h.link h.gfx, fun hc => ?_⟩
    change (rdpPeerCheckVcm c.peer r).2.ctx.gfxVcm = none
    rw [rdpPeerCheckVcm, if_pos (h.manager hc)]
    exact h.manager hc
  | capsAdvertise caps r =>
    have hc := h.link.context he
    have ho : c.peer.ctx.gfxOpened = true := h.gfx.opened.2 hc
    refine ⟨h.gfx.caps ho (gfxCapsAdvertise_step ..), gfxCapsAdvertise_linkInv h.link hc ho caps r,
      fun hcon => ?_⟩
    have hv := h.gfx.context hc
    rw [h.manager hcon] at hv
    cases hv
  | updateSize w hgt r =>
    obtain ⟨hs, _, _⟩ := rdpPeerUpdateSize_shape h.gfx w hgt r
    refine ⟨h.gfx.same hs, h.link.same (rdpPeerUpdateSize_sameLink c.peer w hgt r), fun hc => ?_⟩
    exact hs.gfxVcm.trans (h.manager hc)
  | sendFrame f w hgt r =>
    have hl := h.link.same (rdpPeerSendFrame_sameLink h.gfx.context_of_ready f w hgt r)
    obtain ⟨ok, n, out, hs⟩ := rdpPeerSendFrame_shape c.peer f w hgt r
    change PipelineInv { c with peer := (rdpPeerSendFrame c.peer f w hgt r).2 }
    rw [hs] at hl ⊢
    exact ⟨⟨h.gfx.ready, h.gfx.opened, h.gfx.context, h.gfx.surface⟩, hl, h.manager⟩

/-- A ready pipeline has what its users rely on: a context, a manager and the surface 1. No
graphics PDU was sent through a null context, and the reported mode is the path that a frame
takes. -/
def GfxClient.Usable (c : GfxClient) : Prop :=
  (c.peer.ctx.gfxReady = true → c.peer.ctx.gfxContext.isSome = true ∧
    c.peer.ctx.gfxVcm.isSome = true ∧ c.peer.ctx.gfxSurfaceId = 1) ∧
  Addressed c.peer.out ∧
  ∀ f w h r, rdpPeerSendFrame c.peer f w h r =
    sendPath (rdpPeerGetSendMode c.peer.ctx) c.peer f w h r

theorem PipelineInv.usable (h : PipelineInv c) : c.Usable := by
  refine ⟨fun hr => ?_, h.link.addressed, rdpPeerSendFrame_path c.peer⟩
  have hc := h.gfx.context_of_ready hr
  refine ⟨hc, h.gfx.context hc, ?_⟩
  rw [h.gfx.surface, hr]
  rfl

/-- Throughout every sequence of calls for a client, a ready pipeline can be used. -/
theorem gfx_ready_usable (hfresh : ∀ o ∈ chans.links.live, o.owner ≠ owner)
    (hl : graphicsPipeline.Legal
      (.attached owner settings width height clipboard cliprdr chans) es) :
    graphicsPipeline.Always GfxClient.Usable
      (.attached owner settings width height clipboard cliprdr chans) es := by
  have hinv := System.always_of_legal pipelineInv_step (PipelineInv.attached hfresh) hl
  exact hinv.mono fun _ => PipelineInv.usable

/-- A client whose surface is created, resized and drawn to. -/
def readyCalls : List PipelineCall :=
  [.postConnect ⟨some 1, true, some 7⟩,
    .checkVcm ⟨true, .ready, ⟨some 2, true⟩, ⟨none, false⟩, ⟨none, false⟩, ⟨none, false, false⟩, true⟩,
    .capsAdvertise [⟨capVersion107, 0⟩] ⟨true, ⟨true, true, true⟩, true⟩,
    .updateSize 640 480 ⟨true, true, false⟩]

theorem gfx_ready_usable_readyCalls : graphicsPipeline.Always GfxClient.Usable
    (.attached 0 (.basic 800 600 true true) 800 600 false none .empty) readyCalls :=
  gfx_ready_usable (fun _ ho => (by cases ho)) (by decide)

end Wlrdp
