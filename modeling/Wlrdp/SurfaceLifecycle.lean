import Mathlib.Logic.Function.Basic
import Wlrdp.ChannelOpening
import Wlrdp.FrameBracketing

namespace Wlrdp
set_option autoImplicit true

variable {p p' : Peer}

/-! ### The protocol of a graphics channel -/

inductive SurfaceState
  | absent | created | mapped
deriving DecidableEq

/-- The surfaces of a channel. A surface is live unless it is `absent`. -/
abbrev Surfaces := UInt16 → SurfaceState

def noSurfaces : Surfaces := fun _ => .absent

namespace Surfaces

/-- What may be sent to a client with these surfaces. -/
def admits (s : Surfaces) : GfxEvent → Bool
  | .pdu (.createSurface id _ _) _ => s id = .absent
  | .pdu (.mapSurfaceToOutput id) _ => s id ≠ .absent
  | .pdu (.deleteSurface id) _ => s id ≠ .absent
  | .pdu (.surfaceCommand cmd) _ => s cmd.surfaceId = .mapped
  | _ => true

def step (s : Surfaces) : GfxEvent → Surfaces
  | .pdu (.createSurface id _ _) true => Function.update s id .created
  | .pdu (.mapSurfaceToOutput id) true => Function.update s id .mapped
  | .pdu (.deleteSurface id) _ => Function.update s id .absent
  | .closed => noSurfaces
  | _ => s

end Surfaces

/-- A surface is live from a successful `CreateSurface` until it is deleted or the channel is
closed. Only absent surfaces are created, only live ones mapped or deleted, and only mapped
ones drawn to. -/
def surfaceProtocol : System Surfaces GfxEvent := ⟨fun s e => s.admits e = true, Surfaces.step⟩

instance (s : Surfaces) (e : GfxEvent) : Decidable (surfaceProtocol.enabled s e) :=
  inferInstanceAs (Decidable (s.admits e = true))

/-! ### Runs of a connection -/

/-- The calls that use the graphics channel of a connection. -/
inductive GfxCall
  | check (r : VcmCheck)
  | capsAdvertise (caps : List CapSet) (r : CapsResult)
  | updateSize (width height : UInt32) (r : SurfaceSetup)
  | sendFrame (f : EncodedFrame) (width height : UInt32) (r : FrameSend)
  | cleanup (deleteSurface : Bool)
deriving DecidableEq

def GfxCall.apply (p : Peer) : GfxCall → Peer
  | .check r => (rdpPeerCheckVcm p r).2
  | .capsAdvertise caps r => gfxCapsAdvertise p caps r
  | .updateSize width height r => rdpPeerUpdateSize p width height r
  | .sendFrame f width height r => (rdpPeerSendFrame p f width height r).2
  | .cleanup d => gfxCleanup p d

/-- A peer with everything that has happened on its graphics channels. -/
structure GfxLink where
  peer : Peer
  wire : List GfxEvent

/-- Whether the graphics channel was closed between two states of a peer. -/
def closings (p p' : Peer) : List GfxEvent :=
  if p.ctx.gfxContext.isSome && p'.ctx.gfxContext.isNone then [.closed] else []

def GfxLink.step (l : GfxLink) (c : GfxCall) : GfxLink where
  peer := c.apply l.peer
  wire := l.wire ++ gfxSaid ((c.apply l.peer).out.drop l.peer.out.length) ++
    closings l.peer (c.apply l.peer)

/-- An advertisement arrives only on an open channel; everything else happens at any time. -/
def GfxLink.admits (l : GfxLink) : GfxCall → Bool
  | .capsAdvertise _ _ => l.peer.ctx.gfxOpened
  | _ => true

def graphics : System GfxLink GfxCall := ⟨fun l c => l.admits c = true, GfxLink.step⟩

instance (l : GfxLink) (c : GfxCall) : Decidable (graphics.enabled l c) :=
  inferInstanceAs (Decidable (l.admits c = true))

/-- What has been sent follows the protocol. -/
def GfxLink.Conforms (l : GfxLink) : Prop := surfaceProtocol.Legal noSurfaces l.wire

instance : DecidablePred GfxLink.Conforms := fun l =>
  inferInstanceAs (Decidable (surfaceProtocol.Legal noSurfaces l.wire))

/-- The call is not a resize of a pipeline that is ready. -/
def GfxLink.keepsSurface (l : GfxLink) : GfxCall → Bool
  | .updateSize _ _ _ => !(l.peer.ctx.gfxReady && l.peer.ctx.gfxContext.isSome)
  | _ => true

/-! ### Calls that follow the protocol -/

def firstSurface : UInt16 := 1

/-- The surfaces of a pipeline: one, mapped, once it is ready. -/
def surfacesOf (ctx : PeerContext) : Surfaces :=
  if ctx.gfxReady then Function.update noSurfaces firstSurface .mapped else noSurfaces

/-- The events between two states of a peer follow the protocol, and lead from the surfaces of
the one to those of the other. -/
structure Follows (p p' : Peer) (said : List GfxEvent) : Prop where
  legal : surfaceProtocol.Legal (surfacesOf p.ctx) (said ++ closings p p')
  surfaces : surfaceProtocol.run (surfacesOf p.ctx) (said ++ closings p p') = surfacesOf p'.ctx

theorem closings_same (h : p'.ctx.gfxContext = p.ctx.gfxContext) : closings p p' = [] := by
  rw [closings, h]
  cases p.ctx.gfxContext <;> rfl

theorem closings_none (h : p.ctx.gfxContext = none) : closings p p' = [] := by
  rw [closings, h]
  rfl

theorem closings_closed (h : p.ctx.gfxContext.isSome = true) (h' : p'.ctx.gfxContext = none) :
    closings p p' = [.closed] := by
  rw [closings, h, h']
  rfl

/-- The channel stays as it is. -/
theorem Follows.kept (hc : p'.ctx.gfxContext = p.ctx.gfxContext)
    (hlegal : surfaceProtocol.Legal (surfacesOf p.ctx) said)
    (hrun : surfaceProtocol.run (surfacesOf p.ctx) said = surfacesOf p'.ctx) :
    Follows p p' said := by
  constructor
  · rw [closings_same hc, List.append_nil]
    exact hlegal
  · rw [closings_same hc, List.append_nil]
    exact hrun

/-- The pipeline is as it was. -/
theorem Follows.same (hc : p'.ctx.gfxContext = p.ctx.gfxContext)
    (hr : p'.ctx.gfxReady = p.ctx.gfxReady)
    (hlegal : surfaceProtocol.Legal (surfacesOf p.ctx) said)
    (hrun : surfaceProtocol.run (surfacesOf p.ctx) said = surfacesOf p.ctx) :
    Follows p p' said := by
  apply Follows.kept hc hlegal
  rw [hrun, surfacesOf, surfacesOf, hr]

theorem Follows.silent (hc : p'.ctx.gfxContext = p.ctx.gfxContext)
    (hr : p'.ctx.gfxReady = p.ctx.gfxReady) : Follows p p' [] := .same hc hr trivial rfl

theorem surfacesOf_ready (h : ctx.gfxReady = true) :
    surfacesOf ctx = Function.update noSurfaces firstSurface .mapped := if_pos h

theorem surfacesOf_unready (h : ctx.gfxReady = false) : surfacesOf ctx = noSurfaces := by
  rw [surfacesOf, h]
  rfl

theorem surfacesOf_mapped (h : ctx.gfxReady = true) : surfacesOf ctx firstSurface = .mapped := by
  rw [surfacesOf_ready h]
  exact Function.update_self ..

theorem GfxInv.surface_ready (h : GfxInv ctx) (hr : ctx.gfxReady = true) :
    ctx.gfxContext.isSome = true ∧ ctx.gfxSurfaceId = firstSurface := by
  have hs := h.surface
  rw [hr] at hs
  exact ⟨h.opened.1 (h.ready hr), hs⟩

theorem GfxInv.surface_unready (h : GfxInv ctx) (hr : ctx.gfxReady = false) :
    ctx.gfxSurfaceId = 0 := by
  have hs := h.surface
  rw [hr] at hs
  exact hs

theorem GfxInv.unready_of (h : GfxInv ctx) (hid : ctx.gfxSurfaceId = 0) :
    ctx.gfxReady = false := by
  cases hr : ctx.gfxReady with
  | false => rfl
  | true =>
    have hfirst := (h.surface_ready hr).2
    rw [hid] at hfirst
    cases hfirst

theorem firstSurface_ne : firstSurface ≠ 0 := by decide

theorem cleanupSaid_unready (h : ctx.gfxSurfaceId = 0) (d : Bool) : cleanupSaid ctx d = [] :=
  if_neg fun hc => hc.2 h

/-- Without a surface `gfx_cleanup` sends nothing. -/
theorem gfxCleanup_silent (h : p.ctx.gfxSurfaceId = 0) (d : Bool) : Says p (gfxCleanup p d) [] := by
  have htells := gfxCleanup_tells p d
  rwa [cleanupSaid_unready h] at htells

theorem cleanup_follows (h : GfxInv p.ctx) (d : Bool) :
    Follows p (gfxCleanup p d) (cleanupSaid p.ctx d) := by
  have hclean := gfxCleanup_cleaned p d
  have hafter := surfacesOf_unready hclean.gfxReady
  cases hr : p.ctx.gfxReady with
  | true =>
    obtain ⟨hcontext, hid⟩ := h.surface_ready hr
    have hsaid : cleanupSaid p.ctx d = [.pdu (.deleteSurface firstSurface) d] := by
      rw [cleanupSaid, if_pos ⟨hcontext, hid ▸ firstSurface_ne⟩, hid]
    rw [hsaid]
    constructor
    · rw [closings_closed hcontext hclean.gfxContext]
      refine ⟨?_, rfl, trivial⟩
      apply decide_eq_true
      rw [surfacesOf_mapped hr]
      decide
    · rw [closings_closed hcontext hclean.gfxContext, hafter]
      rfl
  | false =>
    rw [cleanupSaid_unready (h.surface_unready hr)]
    cases hcontext : p.ctx.gfxContext with
    | none =>
      constructor
      · rw [closings_none hcontext]
        trivial
      · rw [closings_none hcontext, surfacesOf_unready hr, hafter]
        rfl
    | some gfx =>
      have hclosed := closings_closed (p := p) (hcontext ▸ rfl) hclean.gfxContext
      constructor
      · rw [hclosed]
        exact ⟨rfl, trivial⟩
      · rw [hclosed, hafter]
        rfl

/-- A frame draws on one surface and leaves all as they are. -/
theorem frame_follows (h : s cmd.surfaceId = .mapped) :
    surfaceProtocol.Legal s (FrameSend.said k cmd r) ∧
      surfaceProtocol.run s (FrameSend.said k cmd r) = s := by
  simp only [FrameSend.said]
  cases r.startFrame with
  | false => exact ⟨⟨rfl, trivial⟩, rfl⟩
  | true =>
    cases r.surfaceCommand with
    | false => exact ⟨⟨rfl, decide_eq_true h, trivial⟩, rfl⟩
    | true =>
      cases r.endFrame with
      | false => exact ⟨⟨rfl, decide_eq_true h, rfl, trivial⟩, rfl⟩
      | true => exact ⟨⟨rfl, decide_eq_true h, rfl, trivial⟩, rfl⟩

theorem gfxOpen_ready (p : Peer) (r : ChannelSetup) :
    (gfxOpen p r).2.ctx.gfxReady = p.ctx.gfxReady := by
  rw [gfxOpen]
  split
  · rfl
  · dsimp only
    split <;> rfl

theorem sendFrame_tells (p : Peer) (f : EncodedFrame) (width height : UInt32) (r : FrameSend) :
    ∃ said, Says p (rdpPeerSendFrame p f width height r).2 said ∧
      (said = [] ∨ p.ctx.gfxReady = true ∧
        ∃ k cmd, cmd.surfaceId = p.ctx.gfxSurfaceId ∧ said = r.said k cmd) := by
  have hcall (c : FrameCall) (hr : c.result = r) (hready : p.ctx.gfxReady = true) :
      ∃ said, Says p (c.send p) said ∧ (said = [] ∨ p.ctx.gfxReady = true ∧
        ∃ k cmd, cmd.surfaceId = p.ctx.gfxSurfaceId ∧ said = r.said k cmd) := by
    rcases c.send_cases p with ⟨_, hsame⟩ | ⟨_, _, cmd, hid, htells⟩
    · exact ⟨[], .of_out (by rw [hsame]), .inl rfl⟩
    · exact ⟨_, htells, .inr ⟨hready, _, cmd, hid, by rw [hr]⟩⟩
  have hbits : Says p (sendSurfaceBits p f width height r).2 [] := ⟨_, rfl, rfl⟩
  simp only [rdpPeerSendFrame]
  by_cases hready : p.ctx.gfxReady = true
  · rw [if_pos hready]
    cases p.ctx.sendMode with
    | gfxAvc444v2 => exact hcall (.avc444 f width height true r) rfl hready
    | gfxAvc444 => exact hcall (.avc444 f width height false r) rfl hready
    | gfxAvc420 => exact hcall (.avc420 f width height r) rfl hready
    | gfxProgressive => exact hcall (.progressive f width height r) rfl hready
    | surfaceBits => exact ⟨[], hbits, .inl rfl⟩
  · rw [if_neg hready]
    exact ⟨[], hbits, .inl rfl⟩

theorem sendFrame_follows (h : GfxInv p.ctx) (f : EncodedFrame) (width height : UInt32)
    (r : FrameSend) :
    ∃ said, Says p (rdpPeerSendFrame p f width height r).2 said ∧
      Follows p (rdpPeerSendFrame p f width height r).2 said := by
  obtain ⟨said, htells, hsaid⟩ := sendFrame_tells p f width height r
  obtain ⟨ok, id, out, heq⟩ := rdpPeerSendFrame_shape p f width height r
  rw [heq] at htells ⊢
  refine ⟨said, htells, ?_⟩
  rcases hsaid with rfl | ⟨hready, k, cmd, hid, rfl⟩
  · exact .silent rfl rfl
  · have hmapped : surfacesOf p.ctx cmd.surfaceId = .mapped := by
      rw [hid, (h.surface_ready hready).2]
      exact surfacesOf_mapped hready
    obtain ⟨hlegal, hrun⟩ := frame_follows (k := k) (r := r) hmapped
    exact .same rfl rfl hlegal hrun

theorem check_follows (h : GfxInv p.ctx) (hs : CheckStep p r ok p') :
    Says p p' [] ∧ Follows p p' [] := by
  cases hs with
  | settled => exact ⟨.refl p, .silent rfl rfl⟩
  | handshaking => exact ⟨.refl p, .silent rfl rfl⟩
  | fallback _ _ ho hr hp =>
    obtain ⟨hc, _, hid⟩ := h.unopened ho
    have htells := gfxCleanup_silent (p := { p with ctx.bringUpFailed := true }) hid r.deleteSurface
    rw [← hp] at htells
    have hclean := cleaned_of_eq hp
    exact ⟨htells, .silent (hclean.gfxContext.trans hc.symm) (hclean.gfxReady.trans hr.symm)⟩
  | opened _ _ _ ho hr =>
    have hc := (h.unopened ho).1
    have hready := (openChannels_sameGfx p r).gfxReady.trans (gfxOpen_ready p r.gfx)
    refine ⟨openChannels_tells p r, ?_, ?_⟩
    · rw [closings_none hc]
      trivial
    · rw [closings_none hc, surfacesOf, surfacesOf, hready]
      rfl

/-- The PDUs of `gfx_caps_advertise`. -/
def capsSaid (p : Peer) (caps : List CapSet) (r : CapsResult) : List GfxEvent :=
  .pdu (.capsConfirm caps[(scanCaps (isMacosClient p.settings.osMajorType) caps 0 (-1) 0).2]?)
    r.capsConfirm ::
  if r.capsConfirm = true ∧ p.ctx.gfxSurfaceId = 0 then r.surface.said p.ctx.width p.ctx.height
  else []

theorem gfxCapsAdvertise_tells (p : Peer) (caps : List CapSet) (r : CapsResult) :
    Says p (gfxCapsAdvertise p caps r) (capsSaid p caps r) := by
  rw [gfxCapsAdvertise, capsSaid]
  cases hsc : scanCaps (isMacosClient p.settings.osMajorType) caps 0 (-1) 0 with
  | mk rank chosen =>
    let p₀ : Peer := { p with ctx.sendMode := modeOfRank rank }
    let p₁ := p₀.gfxPdu (.capsConfirm caps[chosen]?) true
    have hconfirm : Says p p₁ [.pdu (.capsConfirm caps[chosen]?) true] := ⟨_, rfl, rfl⟩
    dsimp only [Peer.gfxPdu, Peer.emit]
    cases hc : r.capsConfirm with
    | false => exact ⟨_, rfl, rfl⟩
    | true =>
      by_cases hid : p.ctx.gfxSurfaceId = 0
      · obtain ⟨out, _, hshape⟩ := gfxCreateSurface_shape p₁ p.ctx.width p.ctx.height r.surface
        have hsurface := hconfirm.trans
          (gfxCreateSurface_tells p₁ p.ctx.width p.ctx.height r.surface)
        rw [if_neg (by decide), if_pos hid, if_pos ⟨rfl, hid⟩]
        rw [hshape] at hsurface
        dsimp only [p₁, p₀, Peer.gfxPdu, Peer.emit] at hshape
        rw [hshape]
        cases hok : r.surface.ok with
        | true => exact hsurface.congr rfl
        | false =>
          let p₂ : Peer := { p₁ with
            ctx.sendMode := .surfaceBits, ctx.bringUpFailed := true, out := out }
          have hclean := gfxCleanup_silent (p := p₂) hid r.deleteSurface
          rw [hok] at hsurface
          rw [← List.append_nil (SurfaceSetup.said _ _ _)]
          exact hsurface.trans hclean
      · have hkept : ¬ (true = true ∧ p.ctx.gfxSurfaceId = 0) := fun h => hid h.2
        rw [if_neg hid, if_neg hkept]
        exact hconfirm

theorem surfaceSetup_follows (r : SurfaceSetup) (width height : UInt32) :
    surfaceProtocol.Legal noSurfaces (r.said width height) ∧
      (r.ok = true → surfaceProtocol.run noSurfaces (r.said width height) =
        Function.update noSurfaces firstSurface .mapped) := by
  rw [SurfaceSetup.said, SurfaceSetup.ok]
  cases r.createSurface with
  | false => exact ⟨⟨rfl, rfl, trivial⟩, fun h => by cases h⟩
  | true =>
    refine ⟨⟨rfl, rfl, rfl, trivial⟩, fun h => ?_⟩
    rw [Bool.true_and] at h
    rw [h]
    exact Function.update_idem ..

theorem caps_follows (h : GfxInv p.ctx) (ho : p.ctx.gfxOpened = true) (caps : List CapSet)
    (r : CapsResult) : Follows p (gfxCapsAdvertise p caps r) (capsSaid p caps r) := by
  have hstep := gfxCapsAdvertise_step p caps r
  simp only [capsSaid]
  generalize gfxCapsAdvertise p caps r = p' at hstep
  cases hstep with
  | unconfirmed hc =>
    rw [hc, if_neg (fun h => Bool.false_ne_true h.1)]
    exact .same rfl rfl ⟨rfl, trivial⟩ rfl
  | kept hc _ _ hid =>
    rw [hc, if_neg (fun h => hid h.2)]
    exact .same rfl rfl ⟨rfl, trivial⟩ rfl
  | created hc hok out _ hid =>
    obtain ⟨hlegal, hrun⟩ := surfaceSetup_follows r.surface p.ctx.width p.ctx.height
    rw [hc, if_pos ⟨rfl, hid⟩]
    refine .kept rfl ?_ ?_
    · rw [surfacesOf_unready (h.unready_of hid)]
      exact ⟨rfl, hlegal⟩
    · rw [surfacesOf_unready (h.unready_of hid)]
      exact hrun hok
  | fallback hc _ out _ hid hp =>
    have hclean := cleaned_of_eq hp
    have hlegal := (surfaceSetup_follows r.surface p.ctx.width p.ctx.height).1
    rw [hc, if_pos ⟨rfl, hid⟩]
    constructor
    · rw [closings_closed (h.opened.1 ho) hclean.gfxContext, surfacesOf_unready (h.unready_of hid)]
      exact ⟨rfl, System.along_append.2 ⟨hlegal, rfl, trivial⟩⟩
    · rw [closings_closed (h.opened.1 ho) hclean.gfxContext, surfacesOf_unready hclean.gfxReady,
        System.run_append]
      rfl

theorem updateSize_unready (h : ¬ (p.ctx.gfxReady && p.ctx.gfxContext.isSome) = true)
    (width height : UInt32) (r : SurfaceSetup) :
    rdpPeerUpdateSize p width height r = { p with ctx.width := width, ctx.height := height } :=
  if_neg h

theorem updateSize_ready (h : (p.ctx.gfxReady && p.ctx.gfxContext.isSome) = true)
    (width height : UInt32) (r : SurfaceSetup) :
    Says p (rdpPeerUpdateSize p width height r) (r.said width height) := by
  have hcreate := gfxCreateSurface_tells { p with ctx.width := width, ctx.height := height } width
    height r
  rw [rdpPeerUpdateSize, if_pos h]
  exact hcreate

/-! ### Whole runs -/

/-- What holds of a connection that has followed the protocol so far. -/
structure LinkInv (l : GfxLink) : Prop where
  gfx : GfxInv l.peer.ctx
  conforms : l.Conforms
  surfaces : surfaceProtocol.run noSurfaces l.wire = surfacesOf l.peer.ctx

theorem LinkInv.step {l : GfxLink} (h : LinkInv l) (hgfx : GfxInv (c.apply l.peer).ctx)
    (htells : Says l.peer (c.apply l.peer) said) (hfollows : Follows l.peer (c.apply l.peer) said) :
    LinkInv (l.step c) := by
  have hwire : (l.step c).wire = l.wire ++ (said ++ closings l.peer (c.apply l.peer)) := by
    rw [← List.append_assoc, ← htells.drop]
    rfl
  refine ⟨hgfx, ?_, ?_⟩
  · rw [GfxLink.Conforms, hwire]
    refine System.along_append.2 ⟨h.conforms, ?_⟩
    rw [h.surfaces]
    exact hfollows.legal
  · rw [hwire, System.run_append, h.surfaces]
    exact hfollows.surfaces

theorem LinkInv.keep {l : GfxLink} (h : LinkInv l) (hl : l.admits c = true)
    (hkeep : l.keepsSurface c = true) : LinkInv (l.step c) := by
  cases c with
  | check r =>
    have hstep := rdpPeerCheckVcm_step (p := l.peer) (r := r) rfl
    obtain ⟨htells, hfollows⟩ := check_follows h.gfx hstep
    exact h.step (h.gfx.check hstep) htells hfollows
  | capsAdvertise caps r =>
    have hstep := gfxCapsAdvertise_step l.peer caps r
    exact h.step (h.gfx.caps hl hstep) (gfxCapsAdvertise_tells ..) (caps_follows h.gfx hl caps r)
  | updateSize width height r =>
    have hidle : ¬ (l.peer.ctx.gfxReady && l.peer.ctx.gfxContext.isSome) = true := by
      intro hr
      simp only [GfxLink.keepsSurface, hr] at hkeep
      cases hkeep
    have heq := updateSize_unready hidle width height r
    refine @LinkInv.step [] (.updateSize width height r) l h ?_ ?_ ?_
    · exact h.gfx.same (rdpPeerUpdateSize_shape h.gfx width height r).1
    · exact .of_out (by rw [GfxCall.apply, heq])
    · exact .silent (by rw [GfxCall.apply, heq]) (by rw [GfxCall.apply, heq])
  | sendFrame f width height r =>
    obtain ⟨said, htells, hfollows⟩ := sendFrame_follows h.gfx f width height r
    obtain ⟨ok, id, out, heq⟩ := rdpPeerSendFrame_shape l.peer f width height r
    refine h.step (c := .sendFrame f width height r) ?_ htells hfollows
    rw [GfxCall.apply, heq]
    exact ⟨h.gfx.ready, h.gfx.opened, h.gfx.context, h.gfx.surface⟩
  | cleanup d =>
    exact h.step (gfxCleanup_cleaned l.peer d).gfxInv (gfxCleanup_tells l.peer d)
      (cleanup_follows h.gfx d)

/-- A resize of a pipeline that is ready creates its live surface again. -/
theorem LinkInv.leave {l : GfxLink} (h : LinkInv l) (hc : (l.step c).Conforms) :
    l.keepsSurface c = true := by
  cases c with
  | updateSize width height r =>
    by_contra hresize
    simp only [GfxLink.keepsSurface, Bool.not_eq_true, Bool.not_eq_false'] at hresize
    have htells := updateSize_ready hresize width height r
    simp only [GfxLink.Conforms] at hc
    change surfaceProtocol.Legal noSurfaces (l.wire ++ gfxSaid _ ++ _) at hc
    rw [GfxCall.apply, htells.drop, List.append_assoc, System.Legal, System.along_append,
      h.surfaces, surfacesOf_ready (Bool.and_eq_true_iff.1 hresize).1] at hc
    have habsent : Function.update noSurfaces firstSurface .mapped firstSurface = .absent :=
      of_decide_eq_true hc.2.2.1
    rw [Function.update_self] at habsent
    cases habsent
  | check | capsAdvertise | sendFrame | cleanup => rfl

/-- A peer after `on_post_connect`, before anything was sent. -/
def GfxLink.connected (id : Nat) (settings : Settings) (width height : UInt32) (clipboard : Bool)
    (vcm cliprdr : Option Handle) (chans : Channels) : GfxLink :=
  ⟨.connected id settings width height clipboard vcm cliprdr chans, []⟩

theorem GfxInv.connected (width height : UInt32) (clipboard : Bool) (vcm : Option Handle) :
    GfxInv { PeerContext.new width height clipboard with gfxVcm := vcm } := by
  have h := GfxInv.new width height clipboard
  exact ⟨h.ready, h.opened, fun hc => (by cases hc), h.surface⟩

/-- The surface of a connection follows the protocol throughout exactly when the desktop is
never resized while the graphics pipeline is ready. -/
theorem surface_lifecycle_iff (hl : graphics.Legal
      (.connected n settings width height clipboard vcm cliprdr chans) cs) :
    graphics.Always GfxLink.Conforms
        (.connected n settings width height clipboard vcm cliprdr chans) cs ↔
      graphics.Along (fun l c => l.keepsSurface c = true)
        (.connected n settings width height clipboard vcm cliprdr chans) cs := by
  have hinv : LinkInv (.connected n settings width height clipboard vcm cliprdr chans) :=
    ⟨.connected width height clipboard vcm, trivial, rfl⟩
  apply System.always_iff_along_of_leaves (I := LinkInv) (D := fun l c => l.admits c = true)
  · exact fun _ h => h.conforms
  · exact fun _ _ h hc hkeep => h.keep hc hkeep
  · exact fun _ _ h _ hconf => h.leave hconf
  · exact hinv
  · exact hl

/-! ### A resize -/

/-- The graphics channel opens and its pipeline becomes ready. -/
def bringUp : List GfxCall :=
  [.check ⟨true, .ready, ⟨some 2, true⟩, ⟨none, false⟩, ⟨none, false⟩, ⟨none, false, false⟩, true⟩,
    .capsAdvertise [⟨capVersion107, 0⟩] ⟨true, ⟨true, true, true⟩, true⟩]

def GfxLink.sample : GfxLink :=
  .connected 0 (.basic 800 600 true true) 800 600 false (some 1) none .empty

theorem bringUp_conforms : graphics.Always GfxLink.Conforms .sample bringUp :=
  (surface_lifecycle_iff (by decide)).2 (by decide)

/-- After a resize the live surface is created a second time. -/
theorem resize_recreates_surface :
    graphics.Legal .sample (bringUp ++ [.updateSize 1024 768 ⟨true, true, true⟩]) ∧
      ¬ graphics.Always GfxLink.Conforms .sample
        (bringUp ++ [.updateSize 1024 768 ⟨true, true, true⟩]) := by
  decide

end Wlrdp
