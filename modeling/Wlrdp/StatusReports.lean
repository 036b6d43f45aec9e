import Wlrdp.PeerOutputs
import Wlrdp.WorkerSoundness

namespace Wlrdp
set_option autoImplicit true

variable {p p' : Peer}

/-! ### Status messages -/

def Output.statusOf : Output → Option SessionStatus
  | .status s => some s
  | _ => none

/-- The STATUS messages among the output, in order. -/
def statusesOf (out : List Output) : List SessionStatus := out.filterMap Output.statusOf

theorem statusesOf_append (out out' : List Output) :
    statusesOf (out ++ out') = statusesOf out ++ statusesOf out' := List.filterMap_append

theorem statusesOf_say (h : o.statusOf = none) : statusesOf (out ++ [o]) = statusesOf out := by
  have hn : statusesOf [o] = [] := List.filterMap_cons_none h
  rw [statusesOf_append, hn, List.append_nil]

/-- The peer sent no status message. -/
def SameStatuses (p p' : Peer) : Prop := statusesOf p'.out = statusesOf p.out

theorem PeerSays.statuses (h : PeerSays p p') : SameStatuses p p' := by
  apply h.filterMap
  intro o ho
  cases o with
  | status => cases ho
  | _ => rfl

/-! ### What one handler reports -/

variable {w w' : Worker} {e : Event}

/-- The handler detaches the client that is attached; the event loop is still running. -/
def Worker.detaches (w : Worker) (e : Event) : Bool :=
  e ≠ .cleanup && w.client.any fun c => (w.step e).client.all fun c' => c'.id ≠ c.id

/-- The daemon hands over a client while none is attached. -/
def Worker.acceptsIdle (w : Worker) : Event → Bool
  | .ipcMessage (some msg) _ =>
    msg.type = .newClient && msg.peerFd.isSome && w.client.isNone
  | _ => false

/-- What a handler does to the attached client and to the status messages. -/
inductive ClientMove (w : Worker) (e : Event) : Worker → Prop
  | kept (hq : w.acceptsIdle e = false) (hs : statusesOf v.out = statusesOf w.out)
      (hc : v.client.map (·.id) = w.client.map (·.id)) (hn : v.nextClient = w.nextClient)
      (ha : v.standalone = w.standalone) (hx : v.exited = w.exited) : ClientMove w e v
  | attached (hq : w.acceptsIdle e = false) (hw : w.client = none) (h : v = attachClient w r) :
      ClientMove w e v
  | dropped (hq : w.acceptsIdle e = !w.client.isSome) (u : Worker)
      (hs : statusesOf u.out = statusesOf w.out)
      (hc : u.client.map (·.id) = w.client.map (·.id)) (hn : u.nextClient = w.nextClient)
      (ha : u.standalone = w.standalone) (hx : u.exited = w.exited)
      (h : v = disconnectClient u ∨ ∃ r, v = attachClient (disconnectClient u) r) :
      ClientMove w e v

theorem onPeer_move {f : Peer → Peer} (hq : w.acceptsIdle e = false)
    (hf : ∀ p, SameStatuses p (f p)) : ClientMove w e (w.onPeer f) := by
  simp only [Worker.onPeer]
  cases hc : w.client with
  | none => exact .kept hq rfl rfl rfl rfl rfl
  | some c => exact .kept hq (hf _) (by rw [hc]; rfl) rfl rfl rfl

/-- The status messages and the client of a session are as before. -/
structure SameReports (w w' : Worker) : Prop where
  statuses : statusesOf w'.out = statusesOf w.out
  client : w'.client.map (·.id) = w.client.map (·.id)
  nextClient : w'.nextClient = w.nextClient
  standalone : w'.standalone = w.standalone
  exited : w'.exited = w.exited

theorem SameReports.move (h : SameReports w w') (hq : w.acceptsIdle e = false) :
    ClientMove w e w' := .kept hq h.statuses h.client h.nextClient h.standalone h.exited

theorem onPeerResize_reports {u : Worker} (h : SameReports w u) :
    SameReports w (onPeerResize u width height scale r) := by
  cases hs : u.sameSize width height with
  | true =>
    rw [onPeerResize_same hs]
    exact h
  | false =>
    have hresized : SameReports w (u.resizeTo (roundUp16 width) (roundUp16 height) scale r) := by
      have hrandr : statusesOf (u.out ++ [Output.wlrRandr (roundUp16 width) (roundUp16 height)
          scale r.wlrRandr]) = statusesOf w.out := (statusesOf_say rfl).trans h.statuses
      simp only [Worker.resizeTo, Worker.onPeer]
      split
      · exact ⟨hrandr, h.client, h.nextClient, h.standalone, h.exited⟩
      · next c hc =>
        refine ⟨?_, ?_, h.nextClient, h.standalone, h.exited⟩
        · exact Eq.trans (rdpPeerUpdateSize_speaks _ (roundUp16 width) (roundUp16 height)
            r.surface).statuses hrandr
        · rw [← h.client]
          have hc' : u.client = some c := hc
          rw [hc']
          rfl
    rw [onPeerResize_eq hs]
    dsimp only
    split
    · exact ⟨hresized.statuses, hresized.client, hresized.nextClient, hresized.standalone,
        hresized.exited⟩
    · exact hresized

theorem frameStep_reports {u : Worker} (h : SameReports w u)
    (hs : FrameStep u px width height stride r w') : SameReports w w' := by
  cases hs with
  | ignored => exact h
  | throttled _ _ hw =>
    subst hw
    exact ⟨h.statuses, h.client, h.nextClient, h.standalone, h.exited⟩
  | unsent _ _ _ hw =>
    subst hw
    exact ⟨h.statuses, h.client, h.nextClient, h.standalone, h.exited⟩
  | @sent c enc p _ _ _ hc _ hp _ _ hw =>
    subst hw
    have hsent : SameStatuses (u.peer c) p := by
      rw [← hp]
      exact (rdpPeerSendFrame_speaks ..).statuses
    refine ⟨Eq.trans hsent h.statuses, ?_, h.nextClient, h.standalone, h.exited⟩
    rw [← h.client, hc]
    rfl

theorem startCapture_reports (w : Worker) (c : Client) (r : ActivationTurn) :
    SameReports w (startCapture w c r) := by
  rw [startCapture_eq, beginCaptureIf]
  split
  · exact ⟨rfl, rfl, rfl, rfl, rfl⟩
  · exact ⟨rfl, rfl, rfl, rfl, rfl⟩

/-- Every handler either keeps the client, attaches one, or disconnects. -/
theorem client_move (he : e ≠ .cleanup) (hl : w.admits e = true) : ClientMove w e (w.step e) := by
  have hrefl : SameReports w w := ⟨rfl, rfl, rfl, rfl, rfl⟩
  have hclient {f : Client → Worker} (hq : w.acceptsIdle e = false)
      (hf : ∀ c, w.client = some c → SameReports w (f c)) : ClientMove w e (w.onClient f) :=
    onClient_cases (hrefl.move hq) fun c hc => (hf c hc).move hq
  cases e with
  | peerAccepted r =>
    change ClientMove w _ (onPeerAccepted w r)
    rw [onPeerAccepted]
    split
    · exact hrefl.move rfl
    · next hc => exact .attached rfl (Option.not_isSome_iff_eq_none.1 hc) rfl
  | ipcMessage msg r =>
    change ClientMove w _ (acceptIpcClient w msg r)
    simp only [acceptIpcClient]
    split
    · exact SameReports.move ⟨rfl, rfl, rfl, rfl, rfl⟩ rfl
    · next msg =>
      split
      · next hs =>
        refine SameReports.move ⟨rfl, rfl, rfl, rfl, rfl⟩ ?_
        simp [Worker.acceptsIdle, hs]
      split
      · next hn =>
        apply hrefl.move
        simp only [Worker.acceptsIdle]
        rcases hn with hn | hn
        · simp [hn]
        · simp [hn]
      · next hn =>
        obtain ⟨htype, hfd⟩ := not_or.1 hn
        have hq : w.acceptsIdle (.ipcMessage (some msg) r) = !w.client.isSome := by
          simp only [Worker.acceptsIdle]
          rw [decide_eq_true (not_not.1 htype), Option.ne_none_iff_isSome.1 hfd]
          cases w.client <;> rfl
        split
        · exact .dropped hq w rfl rfl rfl rfl rfl (.inl rfl)
        · exact .dropped hq w rfl rfl rfl rfl rfl (.inr ⟨r, rfl⟩)
  | settings s =>
    apply hclient rfl
    intro c hc
    exact ⟨rfl, by rw [hc]; rfl, rfl, rfl, rfl⟩
  | postConnect r =>
    apply hclient rfl
    intro c hc
    exact ⟨(onPostConnect_speaks (w.peer c) r).statuses, by rw [hc]; rfl, rfl, rfl, rfl⟩
  | activate r =>
    apply hclient rfl
    intro c hc
    have hactive : SameReports w { w with client := some { c with ctx.activated := true } } :=
      ⟨rfl, by rw [hc]; rfl, rfl, rfl, rfl⟩
    simp only [onActivate]
    split
    · exact onPeerResize_reports hactive
    · exact hactive
  | desktopResize r => exact hclient rfl fun c _ => onPeerResize_reports hrefl
  | remoteMonitors ms r =>
    apply hclient rfl
    intro c _
    simp only [onRemoteMonitors]
    split
    · exact hrefl
    · exact onPeerResize_reports hrefl
  | dispMonitorLayout ms r =>
    change ClientMove w _ (onDispMonitorLayout w ms r)
    simp only [onDispMonitorLayout]
    split
    · exact hrefl.move rfl
    · exact (onPeerResize_reports hrefl).move rfl
  | capsAdvertise caps r => exact onPeer_move rfl fun p => (gfxCapsAdvertise_speaks p caps r).statuses
  | rdpsndActivated formats =>
    exact onPeer_move rfl fun p => (onRdpsndActivated_speaks p formats).statuses
  | audioData n ok =>
    change ClientMove w _ (onAudioData w n ok)
    simp only [onAudioData]
    split
    · exact hrefl.move rfl
    · exact onPeer_move rfl fun p => (rdpPeerSendAudio_speaks p n ok).statuses
  | wlClipboardChanged =>
    change ClientMove w _ (onWlClipboardChanged w)
    simp only [onWlClipboardChanged]
    split
    · exact hrefl.move rfl
    split
    · exact hrefl.move rfl
    · exact SameReports.move ⟨statusesOf_say rfl, rfl, rfl, rfl, rfl⟩ rfl
  | clipboardFailed => exact SameReports.move ⟨rfl, rfl, rfl, rfl, rfl⟩ rfl
  | checkFailed =>
    have hsome : w.client.isSome = true := hl
    exact .dropped (by rw [hsome]; rfl) w rfl rfl rfl rfl rfl (.inl rfl)
  | updateClient =>
    apply hclient rfl
    intro c _
    simp only [epollAddVcm]
    split
    · exact hrefl
    · exact ⟨rfl, rfl, rfl, rfl, rfl⟩
  | checkVcm r =>
    apply onClient_cases (hrefl.move rfl)
    intro c hc
    simp only [checkVcm]
    cases hp : rdpPeerCheckVcm (w.peer c) r with
    | mk ok p =>
      have hs := (rdpPeerCheckVcm_step hp).speaks.statuses
      have hid : (w.setPeer c p).client.map (·.id) = w.client.map (·.id) := by
        rw [hc]
        rfl
      cases ok with
      | true => exact SameReports.move ⟨hs, hid, rfl, rfl, rfl⟩ rfl
      | false => exact .dropped (by rw [hc]; rfl) (w.setPeer c p) hs hid rfl rfl rfl (.inl rfl)
  | startCapture r => exact hclient rfl fun c _ => startCapture_reports w c r
  | frameBuffer id a b s r => exact SameReports.move ⟨rfl, rfl, rfl, rfl, rfl⟩ rfl
  | frameBufferDone id => exact SameReports.move ⟨rfl, rfl, rfl, rfl, rfl⟩ rfl
  | frameReady id r =>
    have hdone : SameReports w (w.finishFrame id) := ⟨rfl, rfl, rfl, rfl, rfl⟩
    exact (frameStep_reports hdone (frameReady_step w id r)).move rfl
  | frameFailed id => exact SameReports.move ⟨rfl, rfl, rfl, rfl, rfl⟩ rfl
  | signal => exact SameReports.move ⟨rfl, rfl, rfl, rfl, rfl⟩ rfl
  | cleanup => exact absurd rfl he

/-- The attached client was made before the next one. -/
structure ClientIds (w : Worker) : Prop where
  older : ∀ c, w.client = some c → c.id < w.nextClient
  managed : w.standalone = false

theorem attachClient_ids (w : Worker) (r : AttachTurn) (hc : w.client = none) :
    (∀ c, (attachClient w r).client = some c →
      c.id = w.nextClient ∧ (attachClient w r).nextClient = w.nextClient + 1) ∧
    (attachClient w r).out = w.out ∧ (attachClient w r).standalone = w.standalone ∧
    (attachClient w r).exited = w.exited := by
  rw [attachClient]
  split
  · refine ⟨fun c hc' => ?_, rfl, rfl, rfl⟩
    rw [hc] at hc'
    cases hc'
  · dsimp only
    split
    · refine ⟨fun c hc' => ?_, rfl, rfl, rfl⟩
      change w.client = some c at hc'
      rw [hc] at hc'
      cases hc'
    · refine ⟨fun c hc' => ?_, rfl, rfl, rfl⟩
      cases hc'
      exact ⟨rfl, rfl⟩

theorem disconnectClient_statuses (hm : w.standalone = false) :
    statusesOf (disconnectClient w).out = statusesOf w.out ++ [.disconnected] := by
  change statusesOf (w.out ++ if w.standalone then [] else [Output.status .disconnected]) = _
  rw [hm, statusesOf_append]
  rfl

/-- One handler reports `DISCONNECTED` when it detaches a client, and when it accepts one
although none is attached. -/
structure Reported (w : Worker) (e : Event) (w' : Worker) : Prop where
  statuses : statusesOf w'.out = statusesOf w.out ++
    List.replicate ((w.detaches e).toNat + (w.acceptsIdle e).toNat) .disconnected
  ids : ClientIds w'
  exited : w'.exited = w.exited

theorem detaches_of_same (hc : (w.step e).client.map (·.id) = w.client.map (·.id)) :
    w.detaches e = false := by
  have hany : (w.client.any fun c => (w.step e).client.all fun c' => c'.id ≠ c.id) = false := by
    cases hw : w.client with
    | none => rfl
    | some c =>
      rw [hw] at hc
      obtain ⟨c', hc', hid⟩ := Option.map_eq_some_iff.1 hc
      rw [hc']
      simp [hid]
  rw [Worker.detaches, hany, Bool.and_false]

theorem detaches_of_idle (hw : w.client = none) : w.detaches e = false := by
  rw [Worker.detaches, hw, Option.any_none, Bool.and_false]

theorem detaches_of_left (he : e ≠ .cleanup) (hw : w.client = some c)
    (hc : ∀ c', (w.step e).client = some c' → c'.id ≠ c.id) : w.detaches e = true := by
  rw [Worker.detaches, hw, Option.any_some, decide_eq_true he, Bool.true_and]
  cases hs : (w.step e).client with
  | none => rfl
  | some c' => exact decide_eq_true (hc c' hs)

theorem ClientMove.reported (hi : ClientIds w) (he : e ≠ .cleanup)
    (h : ClientMove w e (w.step e)) : Reported w e (w.step e) := by
  cases h with
  | kept hq hs hc hn ha hx =>
    refine ⟨?_, ⟨fun c' hc' => ?_, ha.trans hi.managed⟩, hx⟩
    · rw [detaches_of_same hc, hq, hs]
      exact (List.append_nil _).symm
    · rw [hc'] at hc
      obtain ⟨c, hcw, hid⟩ := Option.map_eq_some_iff.1 hc.symm
      have hid' : c.id = c'.id := hid
      rw [hn, ← hid']
      exact hi.older c hcw
  | attached hq hw hv =>
    obtain ⟨hid, hout, ha, hx⟩ := attachClient_ids w _ hw
    rw [← hv] at hid hout ha hx
    refine ⟨?_, ⟨fun c hc => ?_, ha.trans hi.managed⟩, hx⟩
    · rw [detaches_of_idle hw, hq, hout]
      exact (List.append_nil _).symm
    · obtain ⟨hc', hn⟩ := hid c hc
      rw [hc', hn]
      exact Nat.lt_succ_self _
  | dropped hq u hs hc hn ha hx hv =>
    have hm : u.standalone = false := ha.trans hi.managed
    have hleft : (∀ c', (w.step e).client = some c' →
          c'.id = w.nextClient ∧ c'.id < (w.step e).nextClient) ∧
        statusesOf (w.step e).out = statusesOf w.out ++ [.disconnected] ∧
        (w.step e).standalone = false ∧ (w.step e).exited = w.exited := by
      have hdis : statusesOf (disconnectClient u).out = statusesOf w.out ++ [.disconnected] := by
        rw [disconnectClient_statuses hm, hs]
      rcases hv with hv | ⟨r, hv⟩
      · rw [hv]
        exact ⟨fun _ hc' => (by cases hc'), hdis, hm, hx⟩
      · obtain ⟨hid, hout, ha', hx'⟩ := attachClient_ids (disconnectClient u) r rfl
        rw [hv]
        refine ⟨fun c' hc' => ?_, ?_, ha'.trans hm, hx'.trans hx⟩
        · obtain ⟨hnew, hnext⟩ := hid c' hc'
          rw [hnext, hnew]
          exact ⟨hn, Nat.lt_succ_self _⟩
        · rw [hout]
          exact hdis
    obtain ⟨hids, hout, ha', hx'⟩ := hleft
    refine ⟨?_, ⟨fun c' hc' => (hids c' hc').2, ha'⟩, hx'⟩
    rw [hout]
    cases hw : w.client with
    | none =>
      rw [hw] at hq
      rw [detaches_of_idle hw, hq]
      rfl
    | some c =>
      have hne (c' : Client) (hc' : (w.step e).client = some c') : c'.id ≠ c.id := by
        rw [(hids c' hc').1]
        exact Nat.ne_of_gt (hi.older c hw)
      rw [hw] at hq
      rw [detaches_of_left he hw hne, hq]
      rfl

/-! ### The messages of a run -/

/-- How many clients were detached while the event loop was running. -/
def Worker.detachments : Worker → List Event → Nat
  | _, [] => 0
  | w, e :: es => (w.detaches e).toNat + detachments (w.step e) es

/-- How often a client was accepted while none was attached. -/
def Worker.idleAccepts : Worker → List Event → Nat
  | _, [] => 0
  | w, e :: es => (w.acceptsIdle e).toNat + idleAccepts (w.step e) es

/-- The end of the report. -/
def Worker.farewell (w : Worker) : List SessionStatus := if w.exited then [.terminated] else []

/-- What the daemon is to be told of a run: the session is ready, one message for each client
that was detached, and the end. -/
def Worker.report (w : Worker) (es : List Event) : List SessionStatus :=
  .ready :: List.replicate (w.detachments es) .disconnected ++ (worker.run w es).farewell

theorem cleanup_statuses (hm : w.standalone = false) :
    statusesOf (w.step .cleanup).out = statusesOf w.out ++ [.terminated] := by
  change statusesOf (w.out ++ if w.standalone then [] else [Output.status .terminated]) = _
  rw [hm, statusesOf_append]
  rfl

theorem run_exited (hx : w.exited = true) (hl : worker.Legal w es) : es = [] := by
  cases es with
  | nil => rfl
  | cons e es =>
    have hrunning := hl.1.1
    rw [hx] at hrunning
    cases hrunning

theorem run_statuses (hi : ClientIds w) (hx : w.exited = false) (hl : worker.Legal w es) :
    statusesOf (worker.run w es).out = statusesOf w.out ++
      (List.replicate (w.detachments es + w.idleAccepts es) .disconnected ++
        (worker.run w es).farewell) := by
  induction es generalizing w with
  | nil =>
    rw [System.run_nil, Worker.farewell, hx]
    exact (List.append_nil _).symm
  | cons e es ih =>
    by_cases he : e = .cleanup
    · subst he
      have hnil : es = [] := run_exited rfl hl.2
      subst hnil
      have hquiet : w.detaches .cleanup = false := by
        rw [Worker.detaches, decide_eq_false (not_not_intro rfl), Bool.false_and]
      rw [System.run_cons, System.run_nil, Worker.detachments, Worker.idleAccepts, hquiet]
      exact cleanup_statuses hi.managed
    · have hstep := (client_move he hl.1.2).reported hi he
      have hrest := ih hstep.ids (hstep.exited.trans hx) hl.2
      rw [System.run_cons]
      refine hrest.trans ?_
      rw [show worker.step w e = w.step e from rfl, hstep.statuses, List.append_assoc,
        ← List.append_assoc (List.replicate _ _), List.replicate_append_replicate,
        Worker.detachments, Worker.idleAccepts, Nat.add_add_add_comm]

theorem idleAccepts_eq_zero : w.idleAccepts es = 0 ↔
    worker.Along (fun w e => w.acceptsIdle e = false) w es := by
  induction es generalizing w with
  | nil => exact iff_of_true rfl trivial
  | cons e es ih =>
    rw [Worker.idleAccepts, Nat.add_eq_zero_iff, Bool.toNat_eq_zero]
    exact and_congr Iff.rfl ih

/-- The status messages of a session under the daemon are READY, one DISCONNECTED for each
detached client and TERMINATED, exactly if no client arrives while none is attached. -/
theorem status_reports_iff (clipboard audio : Bool) (width height : UInt32)
    (hl : worker.Legal (.start false clipboard audio width height) es) :
    statusesOf (worker.run (.start false clipboard audio width height) es).out =
        (Worker.start false clipboard audio width height).report es ↔
      worker.Along (fun w e => w.acceptsIdle e = false)
        (.start false clipboard audio width height) es := by
  have hids : ClientIds (.start false clipboard audio width height) :=
    ⟨fun _ hc => (by cases hc), rfl⟩
  rw [run_statuses hids rfl hl, ← idleAccepts_eq_zero, Worker.report]
  generalize (worker.run (.start false clipboard audio width height) es).farewell = rest
  change SessionStatus.ready :: (List.replicate _ SessionStatus.disconnected ++ rest) =
    SessionStatus.ready :: (List.replicate _ SessionStatus.disconnected ++ rest) ↔ _
  rw [List.cons_inj_right, List.append_cancel_right_eq]
  constructor
  · intro h
    have hlen := congrArg List.length h
    rw [List.length_replicate, List.length_replicate] at hlen
    omega
  · intro h
    rw [h, Nat.add_zero]

/-- The daemon hands over a client, and the session ends. -/
def handedOver (s : Settings) : Event :=
  .ipcMessage (some ⟨.newClient, some 9⟩) (.accepted s)

/-- A message of the daemon that carries no client. -/
def notHandedOver (t : MsgType) : Event :=
  .ipcMessage (some ⟨t, none⟩) (.accepted (.basic 800 600 true true))

/-- The daemon sends messages that hand over no client, and the session ends. -/
theorem status_reports_untouched :
    statusesOf (worker.run (.start false false false 800 600)
        [notHandedOver .newClient, notHandedOver .resize, notHandedOver .shutdown, .cleanup]).out =
        (Worker.start false false false 800 600).report
          [notHandedOver .newClient, notHandedOver .resize, notHandedOver .shutdown, .cleanup] ∧
      statusesOf (worker.run (.start false false false 800 600)
        [notHandedOver .newClient, notHandedOver .resize, notHandedOver .shutdown, .cleanup]).out =
        [.ready, .terminated] :=
  ⟨(status_reports_iff false false 800 600 (by decide)).2 (by decide), by decide⟩

/-- The first client of a session makes it report a client as gone that was never there. -/
theorem first_client_disconnected :
    worker.Legal (.start false false false 800 600) [handedOver (.basic 800 600 true true)] ∧
      statusesOf (worker.run (.start false false false 800 600)
        [handedOver (.basic 800 600 true true)]).out = [.ready, .disconnected] ∧
      statusesOf (worker.run (.start false false false 800 600)
        [handedOver (.basic 800 600 true true)]).out ≠
        (Worker.start false false false 800 600).report [handedOver (.basic 800 600 true true)] := by
  decide

end Wlrdp
