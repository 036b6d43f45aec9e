import Mathlib.Data.Int.ConditionallyCompleteOrder
import Mathlib.Data.List.MinMax
import Mathlib.Order.ConditionallyCompleteLattice.Basic
import Wlrdp.PeerSoundness

namespace Wlrdp
set_option autoImplicit true

variable {mac : Bool} {cap : CapSet} {caps : List CapSet} {p : Peer} {r : CapsResult}

/-! ### The loop -/

/-- `rank > best_rank` replaces the choice, so the choice is the first of those with the
maximal rank. The list is split at the index of the loop. -/
theorem scanCaps_argmax {pre : List CapSet} (hm : pre.argmax (capRank mac) = some cap)
    (hc : pre[chosen]? = some cap) :
    ∃ cap' chosen', scanCaps mac caps pre.length (capRank mac cap) chosen =
        (capRank mac cap', chosen') ∧
      (pre ++ caps).argmax (capRank mac) = some cap' ∧ (pre ++ caps)[chosen']? = some cap' := by
  induction caps generalizing pre cap chosen with
  | nil =>
    rw [List.append_nil]
    exact ⟨cap, chosen, rfl, hm, hc⟩
  | cons next caps ih =>
    have hstep : (pre ++ [next]).argmax (capRank mac) =
        if capRank mac cap < capRank mac next then some next else some cap := by
      rw [List.argmax_concat, hm]
    have hlen : pre.length + 1 = (pre ++ [next]).length := by
      rw [List.length_append, List.length_singleton]
    rw [scanCaps, List.append_cons, hlen]
    split
    · next hlt =>
      rw [if_pos hlt] at hstep
      exact ih hstep (by rw [List.getElem?_concat_length])
    · next hge =>
      rw [if_neg hge] at hstep
      obtain ⟨hin, _⟩ := List.getElem?_eq_some_iff.1 hc
      exact ih hstep (by rw [List.getElem?_append_left hin, hc])

theorem capRank_nonneg (mac : Bool) (cap : CapSet) : 0 ≤ capRank mac cap := by
  rw [capRank]
  grind

/-- The loop of `gfx_caps_advertise` over a list that is not empty. -/
theorem scanCaps_spec (mac : Bool) (hne : caps ≠ []) :
    ∃ cap chosen, scanCaps mac caps 0 (-1) 0 = (capRank mac cap, chosen) ∧
      caps.argmax (capRank mac) = some cap ∧ caps[chosen]? = some cap := by
  obtain ⟨first, rest, rfl⟩ := List.exists_cons_of_ne_nil hne
  have hfirst : (-1 : Int) < capRank mac first := by
    have h := capRank_nonneg mac first
    omega
  have hone : [first].argmax (capRank mac) = some first := List.argmax_singleton ..
  rw [scanCaps, if_pos hfirst]
  exact scanCaps_argmax hone rfl

/-! ### What a capability set justifies -/

/-- The order of preference. -/
def SendMode.level : SendMode → Int
  | .surfaceBits => 0
  | .gfxProgressive => 1
  | .gfxAvc420 => 2
  | .gfxAvc444 => 3
  | .gfxAvc444v2 => 4

/-- The set alone is reason enough for the mode. -/
def CapSet.Justifies (cap : CapSet) (mac : Bool) : SendMode → Prop
  | .gfxAvc444v2 =>
    mac = false ∧ capVersion107 ≤ cap.version ∧ cap.flags &&& capsFlagAvcDisabled = 0
  | .gfxAvc444 =>
    mac = false ∧ capVersion10 ≤ cap.version ∧ cap.flags &&& capsFlagAvcDisabled = 0
  | .gfxAvc420 =>
    (mac = true ∧ capVersion10 ≤ cap.version ∧ cap.flags &&& capsFlagAvcDisabled = 0) ∨
      (capVersion81 ≤ cap.version ∧ cap.version < capVersion10 ∧
        cap.flags &&& capsFlagAvc420Enabled ≠ 0)
  | .gfxProgressive =>
    capVersion81 ≤ cap.version ∧ cap.version < capVersion10 ∧
      cap.flags &&& capsFlagAvc420Enabled = 0
  | .surfaceBits => False

theorem level_modeOfRank (mac : Bool) (cap : CapSet) :
    (modeOfRank (capRank mac cap)).level = capRank mac cap := by
  rw [capRank]
  split
  · split
    · split
      · rfl
      · split <;> rfl
    · rfl
  · split
    · rfl
    · split <;> rfl

theorem version10_of_107 (h : capVersion107 ≤ cap.version) : capVersion10 ≤ cap.version :=
  UInt32.le_trans (by decide) h

theorem CapSet.Justifies.level_le (h : cap.Justifies mac mode) : mode.level ≤ capRank mac cap := by
  cases mode with
  | surfaceBits => cases h
  | gfxProgressive =>
    obtain ⟨h81, h10, hflag⟩ := h
    rw [capRank, if_neg (UInt32.not_le.2 h10), if_neg (fun hf => hf.2 hflag), if_pos h81]
    exact le_rfl
  | gfxAvc420 =>
    rcases h with ⟨hmac, h10, havc⟩ | ⟨h81, h10, hflag⟩
    · rw [capRank, if_pos h10, if_pos havc, if_pos hmac]
      exact le_rfl
    · rw [capRank, if_neg (UInt32.not_le.2 h10), if_pos ⟨h81, hflag⟩]
      exact le_rfl
  | gfxAvc444 =>
    obtain ⟨rfl, h10, havc⟩ := h
    rw [capRank, if_pos h10, if_pos havc, if_neg (by decide)]
    split <;> decide
  | gfxAvc444v2 =>
    obtain ⟨rfl, h107, havc⟩ := h
    rw [capRank, if_pos (version10_of_107 h107), if_pos havc, if_neg (by decide), if_pos h107]
    exact le_rfl

theorem justifies_modeOfRank (h : 0 < capRank mac cap) :
    cap.Justifies mac (modeOfRank (capRank mac cap)) := by
  rw [capRank] at h ⊢
  split at h
  · next h10 =>
    rw [if_pos h10]
    split at h
    · next havc =>
      rw [if_pos havc]
      cases mac with
      | true => exact .inl ⟨rfl, h10, havc⟩
      | false =>
        rw [if_neg (by decide)]
        by_cases h107 : capVersion107 ≤ cap.version
        · rw [if_pos h107]
          exact ⟨rfl, h107, havc⟩
        · rw [if_neg h107]
          exact ⟨rfl, h10, havc⟩
    · exact absurd h (lt_irrefl _)
  · next hlt =>
    have h10 : cap.version < capVersion10 := UInt32.not_le.1 hlt
    rw [if_neg hlt]
    split at h
    · next h420 =>
      rw [if_pos h420]
      exact .inr ⟨h420.1, h10, h420.2⟩
    · next h420 =>
      rw [if_neg h420]
      split at h
      · next h81 =>
        rw [if_pos h81]
        exact ⟨h81, h10, not_not.1 fun hflag => h420 ⟨h81, hflag⟩⟩
      · exact absurd h (lt_irrefl _)

/-! ### The negotiation -/

/-- The first member of the list with the maximal rank. -/
structure FirstBest (mac : Bool) (caps : List CapSet) (cap : CapSet) : Prop where
  maximal : ∀ other ∈ caps, capRank mac other ≤ capRank mac cap
  first : ∃ i : Nat, caps[i]? = some cap ∧
    ∀ j < i, ∀ other, caps[j]? = some other → capRank mac other < capRank mac cap

theorem firstBest_of_argmax (h : caps.argmax (capRank mac) = some cap) :
    FirstBest mac caps cap := by
  obtain ⟨hmem, hmax, hfirst⟩ := List.argmax_eq_some_iff.1 h
  refine ⟨hmax, caps.idxOf cap, List.getElem?_idxOf hmem, fun j hj other ho => ?_⟩
  obtain ⟨hin, rfl⟩ := List.getElem?_eq_some_iff.1 ho
  apply lt_of_not_ge
  intro hge
  have hle := hfirst _ (List.getElem_mem hin) hge
  have hidx : caps.idxOf caps[j] ≤ j := by
    apply Nat.le_of_not_lt
    intro hlt
    have hne := List.not_of_lt_findIdx hlt
    rw [beq_self_eq_true] at hne
    cases hne
  omega

/-- The mode is justified by the set, and no member of the list justifies a better one. -/
structure BestJustified (mac : Bool) (caps : List CapSet) (cap : CapSet) (mode : SendMode) :
    Prop where
  justified : mode ≠ .surfaceBits → cap.Justifies mac mode
  unjustified : mode = .surfaceBits → ∀ other ∈ caps, ∀ mode', ¬other.Justifies mac mode'
  best : ∀ other ∈ caps, ∀ mode', other.Justifies mac mode' → mode'.level ≤ mode.level

theorem FirstBest.justified (h : FirstBest mac caps cap) :
    BestJustified mac caps cap (modeOfRank (capRank mac cap)) := by
  have hbest : ∀ other ∈ caps, ∀ mode, other.Justifies mac mode →
      mode.level ≤ (modeOfRank (capRank mac cap)).level := by
    intro other ho mode hj
    rw [level_modeOfRank]
    exact hj.level_le.trans (h.maximal other ho)
  constructor
  · intro hne
    apply justifies_modeOfRank
    apply lt_of_le_of_ne (capRank_nonneg mac cap)
    intro hzero
    exact hne (by rw [← hzero]; rfl)
  · intro hs other ho mode hj
    have hle := hbest other ho mode hj
    rw [hs] at hle
    cases mode with
    | surfaceBits => cases hj
    | gfxProgressive => exact absurd hle (by decide)
    | gfxAvc420 => exact absurd hle (by decide)
    | gfxAvc444 => exact absurd hle (by decide)
    | gfxAvc444v2 => exact absurd hle (by decide)
  · exact hbest

/-- The selected mode depends on the members of the list only. -/
theorem advertisedMode_congr {settings : Settings} {caps' : List CapSet} (hne : caps ≠ [])
    (h : ∀ cap, cap ∈ caps' ↔ cap ∈ caps) :
    advertisedMode settings caps' = advertisedMode settings caps := by
  have hne' : caps' ≠ [] := by
    obtain ⟨cap, hcap⟩ := List.exists_mem_of_ne_nil caps hne
    exact List.ne_nil_of_mem ((h cap).2 hcap)
  obtain ⟨cap, _, hscan, hm, _⟩ :=
    scanCaps_spec (isMacosClient settings.osMajorType) hne
  obtain ⟨cap', _, hscan', hm', _⟩ :=
    scanCaps_spec (isMacosClient settings.osMajorType) hne'
  have hle := List.le_of_mem_argmax ((h cap').1 (List.argmax_mem hm')) hm
  have hge := List.le_of_mem_argmax ((h cap).2 (List.argmax_mem hm)) hm'
  rw [advertisedMode, advertisedMode, hscan, hscan']
  exact congrArg modeOfRank (le_antisymm hle hge)

/-- The capability set that is confirmed, in the first PDU of the handler. -/
theorem gfxCapsAdvertise_confirm (p : Peer) (caps : List CapSet) (r : CapsResult) :
    ∃ rest, (gfxCapsAdvertise p caps r).out = p.out ++ .gfx p.ctx.gfxContext (.capsConfirm
      caps[(scanCaps (isMacosClient p.settings.osMajorType) caps 0 (-1) 0).2]?)
      r.capsConfirm :: rest := by
  rw [gfxCapsAdvertise]
  cases hsc : scanCaps (isMacosClient p.settings.osMajorType) caps 0 (-1) 0 with
  | mk rank chosen =>
    let p₁ : Peer := { p with
      ctx.sendMode := modeOfRank rank
      out := p.out ++ [.gfx p.ctx.gfxContext (.capsConfirm caps[chosen]?) r.capsConfirm] }
    have hafter : ∀ {out}, Talks p₁.out out → ∃ rest, out = p.out ++
        .gfx p.ctx.gfxContext (.capsConfirm caps[chosen]?) r.capsConfirm :: rest := by
      rintro out ⟨rest, _, rfl⟩
      exact ⟨rest, List.append_assoc ..⟩
    dsimp only [Peer.gfxPdu, Peer.emit]
    split
    · exact ⟨[], rfl⟩
    split
    · obtain ⟨out, hout, he⟩ := gfxCreateSurface_shape p₁ p.ctx.width p.ctx.height r.surface
      rw [he]
      cases r.surface.ok with
      | true => exact hafter hout
      | false => exact hafter (hout.trans (cleaned_of_eq rfl).talk)
    · exact ⟨[], rfl⟩

/-- Once the capabilities are confirmed and there is a surface, the confirmed set is the first
one of the best, it justifies the send mode, no other set justifies a better one, and neither
the order of the list nor a repetition matters for the mode. -/
theorem caps_negotiated (p : Peer) (hne : caps ≠ []) (hconfirm : r.capsConfirm = true)
    (hsurface : p.ctx.gfxSurfaceId = 0 → r.surface.ok = true) :
    (∃ cap rest, (gfxCapsAdvertise p caps r).out =
        p.out ++ .gfx p.ctx.gfxContext (.capsConfirm (some cap)) true :: rest ∧
      FirstBest (isMacosClient p.settings.osMajorType) caps cap ∧
      BestJustified (isMacosClient p.settings.osMajorType) caps cap
        (gfxCapsAdvertise p caps r).ctx.sendMode) ∧
    ∀ caps' : List CapSet, (∀ cap, cap ∈ caps' ↔ cap ∈ caps) →
      (gfxCapsAdvertise p caps' r).ctx.sendMode = (gfxCapsAdvertise p caps r).ctx.sendMode := by
  have hmode : ∀ caps, (gfxCapsAdvertise p caps r).ctx.sendMode =
      advertisedMode p.settings caps := by
    intro caps
    have hs := gfxCapsAdvertise_step p caps r
    generalize gfxCapsAdvertise p caps r = p' at hs
    cases hs with
    | unconfirmed => rfl
    | kept => rfl
    | created => rfl
    | fallback _ hok _ _ hs _ => exact absurd (hsurface hs) (by rw [hok]; decide)
  constructor
  · obtain ⟨cap, chosen, hscan, hm, hget⟩ :=
      scanCaps_spec (isMacosClient p.settings.osMajorType) hne
    obtain ⟨rest, hout⟩ := gfxCapsAdvertise_confirm p caps r
    rw [hscan, hget, hconfirm] at hout
    have hfirst := firstBest_of_argmax hm
    refine ⟨cap, rest, hout, hfirst, ?_⟩
    rw [hmode, advertisedMode, hscan]
    exact hfirst.justified
  · intro caps' hmem
    rw [hmode, hmode]
    exact advertisedMode_congr hne hmem

/-- A peer of an 800 by 600 session before its first PDU. -/
def Peer.unserved (osMajorType : UInt32) : Peer where
  id := 0
  settings := ⟨true, osMajorType, 800, 600, 100, 32, true⟩
  ctx := .new 800 600 false
  cliprdr := none
  chans := .empty
  out := []

theorem caps_negotiated_mixed :
    ∃ cap rest, (gfxCapsAdvertise (.unserved 1) [⟨capVersion81, 0⟩, ⟨capVersion107, 0⟩]
        ⟨true, ⟨true, true, true⟩, true⟩).out =
        [] ++ .gfx none (.capsConfirm (some cap)) true :: rest ∧
      FirstBest false [⟨capVersion81, 0⟩, ⟨capVersion107, 0⟩] cap ∧
      BestJustified false [⟨capVersion81, 0⟩, ⟨capVersion107, 0⟩] cap
        (gfxCapsAdvertise (.unserved 1) [⟨capVersion81, 0⟩, ⟨capVersion107, 0⟩]
          ⟨true, ⟨true, true, true⟩, true⟩).ctx.sendMode :=
  (caps_negotiated (.unserved 1) (List.cons_ne_nil _ _) rfl fun _ => rfl).1

end Wlrdp
