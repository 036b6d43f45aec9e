import Wlrdp.PeerSoundness

namespace Wlrdp
set_option autoImplicit true

variable {p p' q : Peer}

/-- What a peer function may say; the rest is said by the session itself. -/
def Output.fromPeer : Output → Bool
  | .serverFormatList _ | .wlrRandr _ _ _ _ | .status _ => false
  | _ => true

/-- The peer function only added output of its own. -/
def PeerSays (p p' : Peer) : Prop := ∃ new, p'.out = p.out ++ new ∧ ∀ o ∈ new, o.fromPeer = true

theorem PeerSays.quiet (h : p'.out = p.out) : PeerSays p p' :=
  ⟨[], h.trans (List.append_nil _).symm, List.forall_mem_nil _⟩

theorem PeerSays.refl (p : Peer) : PeerSays p p := .quiet rfl

theorem PeerSays.say (h : p'.out = p.out ++ [o]) (ho : o.fromPeer = true) : PeerSays p p' :=
  ⟨[o], h, List.forall_mem_singleton.2 ho⟩

theorem PeerSays.trans (h : PeerSays p q) (h' : PeerSays q p') : PeerSays p p' := by
  obtain ⟨new, hout, hnew⟩ := h
  obtain ⟨more, hout', hmore⟩ := h'
  refine ⟨new ++ more, ?_, List.forall_mem_append.2 ⟨hnew, hmore⟩⟩
  rw [hout', hout, List.append_assoc]

/-- What does not look at the output of a peer sees no difference. -/
theorem PeerSays.filterMap (h : PeerSays p p') (hf : ∀ o, o.fromPeer = true → f o = none) :
    p'.out.filterMap f = p.out.filterMap f := by
  obtain ⟨new, hout, hnew⟩ := h
  have hnone : new.filterMap f = [] := List.filterMap_eq_nil_iff.2 fun o ho => hf o (hnew o ho)
  rw [hout, List.filterMap_append, hnone, List.append_nil]

theorem gfxPdu_speaks (p : Peer) (pdu : GfxPdu) (ok : Bool) : PeerSays p (p.gfxPdu pdu ok) :=
  .say rfl rfl

theorem gfxCreateSurface_speaks (p : Peer) (w h : UInt32) (r : SurfaceSetup) :
    PeerSays p (gfxCreateSurface p w h r).2 := by
  have h₁ := gfxPdu_speaks p (.resetGraphics w h (w - 1) (h - 1)) r.resetGraphics
  have h₂ := h₁.trans (gfxPdu_speaks _ (.createSurface 1 w.toUInt16 h.toUInt16) r.createSurface)
  have h₃ := h₂.trans (gfxPdu_speaks _ (.mapSurfaceToOutput 1) r.mapSurfaceToOutput)
  simp only [gfxCreateSurface]
  split
  · exact h₂
  · split <;> exact h₃

theorem gfxCleanup_speaks (p : Peer) (d : Bool) : PeerSays p (gfxCleanup p d) := by
  have hgfx : PeerSays p (closeGfx p d) := by
    simp only [closeGfx]
    split
    · exact .refl p
    · refine ⟨_, rfl, ?_⟩
      split
      · exact List.forall_mem_singleton.2 rfl
      · exact List.forall_mem_nil _
  obtain ⟨_, _, _, h₂⟩ := closeRdpsnd_shape (closeGfx p d)
  obtain ⟨_, _, _, _, h₃⟩ := closeCliprdr_shape (closeRdpsnd (closeGfx p d))
  obtain ⟨_, h₄⟩ := closeDisp_shape (closeCliprdr (closeRdpsnd (closeGfx p d)))
  obtain ⟨_, h₅⟩ := closeVcm_shape (closeDisp (closeCliprdr (closeRdpsnd (closeGfx p d))))
  rw [gfxCleanup, h₅, h₄, h₃, h₂]
  exact hgfx

theorem gfxCapsAdvertise_speaks (p : Peer) (caps : List CapSet) (r : CapsResult) :
    PeerSays p (gfxCapsAdvertise p caps r) := by
  rw [gfxCapsAdvertise]
  cases scanCaps (isMacosClient p.settings.osMajorType) caps 0 (-1) 0 with
  | mk rank chosen =>
    have h₁ : PeerSays p (Peer.gfxPdu { p with ctx.sendMode := modeOfRank rank }
        (.capsConfirm caps[chosen]?) r.capsConfirm) := .say rfl rfl
    dsimp only
    generalize Peer.gfxPdu { p with ctx.sendMode := modeOfRank rank } (.capsConfirm caps[chosen]?)
      r.capsConfirm = p₁ at h₁ ⊢
    split
    · exact h₁
    · split
      · have h₂ := h₁.trans (gfxCreateSurface_speaks p₁ p₁.ctx.width p₁.ctx.height r.surface)
        cases hs : gfxCreateSurface p₁ p₁.ctx.width p₁.ctx.height r.surface with
        | mk ok p₂ =>
          rw [hs] at h₂
          cases ok with
          | true => exact h₂
          | false => exact PeerSays.trans h₂ (gfxCleanup_speaks { p₂ with
              ctx.sendMode := .surfaceBits, ctx.bringUpFailed := true } r.deleteSurface)
      · exact h₁

theorem gfxOpen_speaks (p : Peer) (r : ChannelSetup) : PeerSays p (gfxOpen p r).2 := by
  rw [gfxOpen]
  split
  · exact .refl p
  · dsimp only
    split <;> exact .say rfl rfl

theorem dispOpen_speaks (p : Peer) (r : ChannelSetup) : PeerSays p (dispOpen p r).2 := by
  rw [dispOpen]
  split
  · exact .refl p
  · dsimp only
    split
    · exact .refl p
    · exact .say rfl rfl

theorem openCliprdr_speaks (p : Peer) (r : ChannelSetup) :
    PeerSays p (openCliprdr p r) := by
  simp only [openCliprdr, clipboardOpenCliprdr]
  split
  · exact .refl p
  · cases r.contextNew with
    | none => exact .refl p
    | some cliprdr =>
      cases r.opens with
      | false => exact .refl p
      | true => exact .say rfl rfl

theorem rdpsndOpen_speaks (p : Peer) (r : RdpsndSetup) :
    PeerSays p (rdpsndOpen p r).2 := by
  rw [rdpsndOpen]
  split
  · exact .refl p
  · dsimp only
    split
    · exact .refl p
    · split
      · exact .refl p
      · exact .say rfl rfl

theorem CheckStep.speaks (h : CheckStep p r ok p') : PeerSays p p' := by
  cases h with
  | settled => exact .refl p
  | handshaking => exact .refl p
  | fallback _ _ _ _ hp =>
    subst hp
    exact gfxCleanup_speaks { p with ctx.bringUpFailed := true } r.deleteSurface
  | opened =>
    exact (((gfxOpen_speaks p r.gfx).trans (dispOpen_speaks ..)).trans
      (openCliprdr_speaks ..)).trans (rdpsndOpen_speaks ..)

theorem rdpPeerUpdateSize_speaks (p : Peer) (w h : UInt32) (r : SurfaceSetup) :
    PeerSays p (rdpPeerUpdateSize p w h r) := by
  simp only [rdpPeerUpdateSize]
  split
  · exact gfxCreateSurface_speaks { p with ctx.width := w, ctx.height := h } w h r
  · exact .refl p

theorem sendGfxFrame_speaks (p : Peer) (r : FrameSend) :
    PeerSays p (sendGfxFrame p codecId data extra len w h r).2 := by
  let p₀ : Peer := { p with ctx.gfxFrameId := p.ctx.gfxFrameId + 1 }
  have h₁ : PeerSays p (p₀.gfxPdu (.startFrame p₀.ctx.gfxFrameId) r.startFrame) :=
    .say rfl rfl
  have h₂ := h₁.trans (gfxPdu_speaks _ (.surfaceCommand
    { surfaceId := p.ctx.gfxSurfaceId, codecId := codecId, format := p.ctx.pixelFormat
      right := w, bottom := h, length := len, data := data, extra := extra }) r.surfaceCommand)
  simp only [sendGfxFrame]
  split
  · exact h₁
  · split
    · exact h₂
    · exact h₂.trans (gfxPdu_speaks _ (.endFrame p₀.ctx.gfxFrameId) r.endFrame)

theorem rdpPeerSendFrame_speaks (p : Peer) (f : EncodedFrame) (w h : UInt32) (r : FrameSend) :
    PeerSays p (rdpPeerSendFrame p f w h r).2 := by
  have hbits : PeerSays p (sendSurfaceBits p f w h r).2 := .say rfl rfl
  have h444 (v2 : Bool) : PeerSays p (sendGfxAvc444 p f w h v2 r).2 := by
    simp only [sendGfxAvc444]
    split
    · exact .refl p
    · exact sendGfxFrame_speaks p r
  simp only [rdpPeerSendFrame]
  split
  · split
    · exact h444 true
    · exact h444 false
    · simp only [sendGfxAvc420]
      split
      · exact .refl p
      · exact sendGfxFrame_speaks p r
    · simp only [sendGfxProgressive]
      split
      · exact .refl p
      · exact sendGfxFrame_speaks p r
    · exact hbits
  · exact hbits

theorem onPostConnect_speaks (p : Peer) (r : VcmSetup) : PeerSays p (onPostConnect p r) :=
  .quiet (onPostConnect_step p r).out

theorem onRdpsndActivated_speaks (p : Peer) (formats : List AudioFormat) :
    PeerSays p (onRdpsndActivated p formats) := by
  simp only [onRdpsndActivated]
  split
  · exact .refl p
  · exact .say rfl rfl

theorem rdpPeerSendAudio_speaks (p : Peer) (n : UInt32) (ok : Bool) :
    PeerSays p (rdpPeerSendAudio p n ok).2 := by
  simp only [rdpPeerSendAudio]
  split
  · exact .say rfl rfl
  · exact .refl p

end Wlrdp
