import Wlrdp.PeerSoundness

namespace Wlrdp
set_option autoImplicit true

variable {p p' q : Peer}

/-- What happens on a graphics channel: a PDU is sent, successfully or not, or the channel is
closed. -/
inductive GfxEvent
  | pdu (pdu : GfxPdu) (ok : Bool)
  | closed
deriving DecidableEq

def Output.gfxEvent : Output → Option GfxEvent
  | .gfx _ pdu ok => some (.pdu pdu ok)
  | _ => none

/-- The PDUs among the outputs, in order. -/
def gfxSaid (out : List Output) : List GfxEvent := out.filterMap Output.gfxEvent

theorem gfxSaid_append (out out' : List Output) :
    gfxSaid (out ++ out') = gfxSaid out ++ gfxSaid out' := List.filterMap_append

/-- Between `p` and `p'` the PDUs in `said` were sent. -/
def Says (p p' : Peer) (said : List GfxEvent) : Prop :=
  ∃ out, p'.out = p.out ++ out ∧ gfxSaid out = said

theorem Says.refl (p : Peer) : Says p p [] := ⟨[], (List.append_nil _).symm, rfl⟩

theorem Says.of_out (h : p'.out = p.out) : Says p p' [] :=
  ⟨[], h.trans (List.append_nil _).symm, rfl⟩

theorem Says.trans (h : Says p q said) (h' : Says q p' said') : Says p p' (said ++ said') := by
  obtain ⟨out, hout, rfl⟩ := h
  obtain ⟨out', hout', rfl⟩ := h'
  refine ⟨out ++ out', ?_, gfxSaid_append _ _⟩
  rw [hout', hout, List.append_assoc]

theorem Says.pdu (p : Peer) (pdu : GfxPdu) (ok : Bool) : Says p (p.gfxPdu pdu ok) [.pdu pdu ok] :=
  ⟨_, rfl, rfl⟩

/-- Later updates of other fields do not count. -/
theorem Says.congr (h : Says p q said) (hout : p'.out = q.out) : Says p p' said := by
  obtain ⟨out, hq, hsaid⟩ := h
  exact ⟨out, hout.trans hq, hsaid⟩

theorem Says.drop (h : Says p p' said) : gfxSaid (p'.out.drop p.out.length) = said := by
  obtain ⟨out, hout, rfl⟩ := h
  rw [hout, List.drop_left]

/-! ### What each function sends -/

/-- The PDUs of `gfx_create_surface`. -/
def SurfaceSetup.said (width height : UInt32) (r : SurfaceSetup) : List GfxEvent :=
  [.pdu (.resetGraphics width height (width - 1) (height - 1)) r.resetGraphics,
    .pdu (.createSurface 1 width.toUInt16 height.toUInt16) r.createSurface] ++
  if r.createSurface then [.pdu (.mapSurfaceToOutput 1) r.mapSurfaceToOutput] else []

theorem gfxCreateSurface_tells (p : Peer) (width height : UInt32) (r : SurfaceSetup) :
    Says p (gfxCreateSurface p width height r).2 (r.said width height) := by
  have hopen := (Says.pdu p (.resetGraphics width height (width - 1) (height - 1))
    r.resetGraphics).trans (.pdu _ (.createSurface 1 width.toUInt16 height.toUInt16) r.createSurface)
  simp only [gfxCreateSurface, SurfaceSetup.said]
  cases hc : r.createSurface with
  | false =>
    rw [hc] at hopen
    exact hopen
  | true =>
    rw [hc] at hopen
    have hmap := hopen.trans (.pdu _ (.mapSurfaceToOutput 1) r.mapSurfaceToOutput)
    cases hm : r.mapSurfaceToOutput with
    | false =>
      rw [hm] at hmap
      exact hmap
    | true =>
      rw [hm] at hmap
      exact hmap

theorem gfxCleanup_out (p : Peer) (d : Bool) : (gfxCleanup p d).out = (closeGfx p d).out := by
  obtain ⟨_, _, _, h₂⟩ := closeRdpsnd_shape (closeGfx p d)
  obtain ⟨_, _, _, _, h₃⟩ := closeCliprdr_shape (closeRdpsnd (closeGfx p d))
  obtain ⟨_, h₄⟩ := closeDisp_shape (closeCliprdr (closeRdpsnd (closeGfx p d)))
  obtain ⟨_, h₅⟩ := closeVcm_shape (closeDisp (closeCliprdr (closeRdpsnd (closeGfx p d))))
  rw [gfxCleanup, h₅, h₄, h₃, h₂]

/-- The PDUs of `gfx_cleanup`. -/
def cleanupSaid (ctx : PeerContext) (d : Bool) : List GfxEvent :=
  if ctx.gfxContext.isSome ∧ ctx.gfxSurfaceId ≠ 0 then [.pdu (.deleteSurface ctx.gfxSurfaceId) d]
  else []

theorem gfxCleanup_tells (p : Peer) (d : Bool) :
    Says p (gfxCleanup p d) (cleanupSaid p.ctx d) := by
  refine Says.congr ?_ (gfxCleanup_out p d)
  simp only [closeGfx, cleanupSaid]
  cases hg : p.ctx.gfxContext with
  | none => exact .refl p
  | some gfx =>
    by_cases hid : p.ctx.gfxSurfaceId = 0
    · rw [if_neg (fun h => h.2 hid)]
      refine ⟨[], ?_, rfl⟩
      simp only [hid, ne_eq, not_true_eq_false, if_false]
    · rw [if_pos ⟨rfl, hid⟩]
      refine ⟨[.gfx (some gfx) (.deleteSurface p.ctx.gfxSurfaceId) d], ?_, rfl⟩
      simp only [hid, ne_eq, not_false_eq_true, if_true]

theorem gfxOpen_tells (p : Peer) (r : ChannelSetup) : Says p (gfxOpen p r).2 [] := by
  rw [gfxOpen]
  split
  · exact .of_out rfl
  · dsimp only
    split <;> exact ⟨[.stored .gfx p.ctx.gfxContext], rfl, rfl⟩

theorem dispOpen_tells (p : Peer) (r : ChannelSetup) : Says p (dispOpen p r).2 [] := by
  rw [dispOpen]
  split
  · exact .refl p
  · dsimp only
    split
    · exact .of_out rfl
    · exact ⟨[.stored .disp p.ctx.dispContext], rfl, rfl⟩

theorem clipboardOpenCliprdr_tells (p : Peer) (r : ChannelSetup) :
    Says p (clipboardOpenCliprdr p r).2 [] := by
  rw [clipboardOpenCliprdr]
  split
  · exact .refl p
  · dsimp only
    split
    · exact .of_out rfl
    · exact ⟨[.stored .cliprdr p.cliprdr], rfl, rfl⟩

theorem openCliprdr_tells (p : Peer) (r : ChannelSetup) : Says p (openCliprdr p r) [] := by
  have h := clipboardOpenCliprdr_tells p r
  simp only [openCliprdr]
  split
  · exact .refl p
  · cases hc : clipboardOpenCliprdr p r with
    | mk ok p' =>
      rw [hc] at h
      cases ok <;> exact h

theorem rdpsndOpen_tells (p : Peer) (r : RdpsndSetup) : Says p (rdpsndOpen p r).2 [] := by
  rw [rdpsndOpen]
  split
  · exact .refl p
  · dsimp only
    split
    · exact .of_out rfl
    · split
      · exact .of_out rfl
      · exact ⟨[.stored .rdpsnd p.ctx.rdpsndContext], rfl, rfl⟩

theorem openChannels_tells (p : Peer) (r : VcmCheck) : Says p (openChannels p r) [] :=
  (((gfxOpen_tells p r.gfx).trans (dispOpen_tells _ r.disp)).trans
    (openCliprdr_tells _ r.cliprdr)).trans (rdpsndOpen_tells _ r.rdpsnd)

/-- The PDUs of one frame. -/
def FrameSend.said (frameId : UInt32) (cmd : SurfaceCommand) (r : FrameSend) : List GfxEvent :=
  .pdu (.startFrame frameId) r.startFrame ::
    if r.startFrame then
      .pdu (.surfaceCommand cmd) r.surfaceCommand ::
        if r.surfaceCommand then [.pdu (.endFrame frameId) r.endFrame] else []
    else []

theorem sendGfxFrame_tells (p : Peer) (codecId : Codec) (data : Option Bitstream)
    (extra : CommandExtra) (len width height : UInt32) (r : FrameSend) :
    ∃ cmd, cmd.surfaceId = p.ctx.gfxSurfaceId ∧
      Says p (sendGfxFrame p codecId data extra len width height r).2
        (r.said (p.ctx.gfxFrameId + 1) cmd) := by
  let cmd : SurfaceCommand :=
    { surfaceId := p.ctx.gfxSurfaceId, codecId := codecId, format := p.ctx.pixelFormat
      right := width, bottom := height, length := len, data := data, extra := extra }
  refine ⟨cmd, rfl, ?_⟩
  let p₀ : Peer := { p with ctx.gfxFrameId := p.ctx.gfxFrameId + 1 }
  have hstart : Says p (p₀.gfxPdu (.startFrame p₀.ctx.gfxFrameId) r.startFrame) _ := ⟨_, rfl, rfl⟩
  simp only [sendGfxFrame, FrameSend.said]
  cases hs : r.startFrame with
  | false =>
    rw [hs] at hstart
    exact hstart
  | true =>
    rw [hs] at hstart
    have hcmd := hstart.trans (.pdu _ (.surfaceCommand cmd) r.surfaceCommand)
    cases hc : r.surfaceCommand with
    | false =>
      rw [hc] at hcmd
      exact hcmd
    | true =>
      rw [hc] at hcmd
      exact hcmd.trans (.pdu _ (.endFrame p₀.ctx.gfxFrameId) r.endFrame)

end Wlrdp
