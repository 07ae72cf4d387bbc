import TexecomBridge.Capture.Lifecycle

/-!
# The byte budget between sessions

The budget is enforced after opens and writes, while a pair is live and exempt, and not when it is
closed. Between sessions the store is within the budget exactly when no session ended with a pair
that, after its last flush, was larger than the whole budget.
-/

namespace TexecomBridge

/-- What flushing an event adds to the store: its record, and for each row of up to 16 bytes the
characters of a row. -/
def Event.storedSize (e : Event) : ℕ :=
  let n := kCaptureEventFixedSize + e.payload.length
  n + (62 * ((n + 15) / 16) + n)

/-- Every row has 62 characters and one for each byte. -/
lemma length_hexdumpRows (off : ℕ) (bytes : List UInt8) :
    (hexdumpRows off bytes).flatten.length = 62 * ((bytes.length + 15) / 16) + bytes.length := by
  induction off, bytes using hexdumpRows.induct with
  | case1 off => simp [hexdumpRows_nil]
  | case2 off bytes h ih =>
    have := List.length_pos_iff.mpr h
    rw [hexdumpRows_of_ne_nil off h, List.flatten_cons, List.length_append, ih, length_rowText]
    simp only [List.length_take, List.length_drop]
    omega

lemma CapturePair.size_extend (q : CapturePair) {e : Event} (he : e.Valid) (ms : UInt32) :
    (q.extend e.serialize ms).size = q.size + e.storedSize := by
  simp only [CapturePair.size, CapturePair.extend, RamCapture.append, List.length_append,
    length_hexdumpRows, Event.length_serialize he, Event.storedSize]
  omega

lemma CapturePair.size_extendEvents (q : CapturePair) {es : List Event} (hes : ∀ e ∈ es, e.Valid)
    (ms : UInt32) : (q.extendEvents es ms).size = q.size + (es.map Event.storedSize).sum := by
  induction es generalizing q with
  | nil => rfl
  | cons e es ih =>
    have hrest := ih (q.extend e.serialize ms) fun e' he' => hes e' (List.mem_cons_of_mem _ he')
    have hfirst := q.size_extend (hes e List.mem_cons_self) ms
    simp only [CapturePair.extendEvents, List.foldl_cons, List.map_cons, List.sum_cons] at hrest ⊢
    rw [hrest, hfirst]
    omega

lemma Store.Live.sizeAt_txt {s : Store} {old : List RamCapture} {p : CapturePair}
    (h : s.Live old p) : s.sizeAt s.currentTxtIdx = p.txt.bytes.length := by
  have hnat : ((old.length : ℤ) + 1).toNat = old.length + 1 := by omega
  simp [Store.sizeAt, h.txt_eq, h.captures_eq, hnat]

/-- Settled with a live pair: within the budget, or the pair is all there is. -/
lemma Store.Live.total_of_settled {s : Store} {old : List RamCapture} {p : CapturePair} {max : ℕ}
    (h : s.Live old p) (ha : s.Accounted) (hs : s.Settled max) :
    s.totalBytesUsed ≤ max ∨ s.totalBytesUsed = p.size := by
  refine hs.imp_right fun hall => ?_
  have hold : old = [] := by
    cases old with
    | nil => rfl
    | cons o old =>
      have := hall 0 (by simp [h.length_eq])
      rw [h.bin_eq, h.txt_eq, List.length_cons] at this
      omega
  rw [ha, h.captures_eq, hold]
  simp [CapturePair.size]

namespace Capture

variable {c : Capture}

/-- The bytes the live pair holds. -/
def liveBytes (c : Capture) : ℕ :=
  c.store.sizeAt c.store.currentBinIdx + c.store.sizeAt c.store.currentTxtIdx

/-- The bytes a flush of the queued events would add. -/
def pendingBytes (c : Capture) : ℕ := (c.ring.events.map Event.storedSize).sum

/-- Ending a session with a live pair leaves the store within the budget exactly when the pair, with
what is still queued, is. -/
lemma Inv.onSessionEnd_within_budget (h : c.Inv) (hlive : c.isLive) (p : Platform) :
    (c.onSessionEnd p).store.totalBytesUsed ≤ c.maxTotalBytes ↔
      c.liveBytes + c.pendingBytes ≤ c.maxTotalBytes := by
  obtain ⟨q, older, harchive, -, hq⟩ := h.exists_live hlive
  have hflush := h.flushRing p
  obtain ⟨-, harchive'⟩ := h.flushRing_of_isLive hlive p harchive
  obtain ⟨q', older', hq'eq, -, hq'⟩ := hflush.exists_live ((h.isLive_flushRing p).mpr hlive)
  obtain ⟨rfl, rfl⟩ : q.extendEvents c.ring.events p.millis = q' ∧ older = older' := by
    rw [harchive'] at hq'eq
    exact List.cons.inj hq'eq
  have hsize : (q.extendEvents c.ring.events p.millis).size = c.liveBytes + c.pendingBytes := by
    rw [q.size_extendEvents fun e he => (h.queued e he).valid, liveBytes, hq.sizeAt_bin,
      hq.sizeAt_txt, pendingBytes, CapturePair.size]
  have htotal : (c.onSessionEnd p).store.totalBytesUsed
      = totalBytes (c.flushRing p).store.captures := by
    rw [(captures_onSessionEnd p c).2, hflush.accounted]
  have hatLeast : c.liveBytes + c.pendingBytes ≤ (c.onSessionEnd p).store.totalBytesUsed := by
    rw [htotal, hq'.captures_eq, ← hsize]
    simp [CapturePair.size]
  have hmax : (c.flushRing p).maxTotalBytes = c.maxTotalBytes := by
    obtain ⟨_, _, _, _, _, _, _, hframe⟩ := h.flushRing_frame p
    rw [hframe]
  have hsettled := hflush.settled ((h.isLive_flushRing p).mpr hlive)
  rw [hmax] at hsettled
  rw [(captures_onSessionEnd p c).2] at hatLeast ⊢
  rcases hq'.total_of_settled hflush.accounted hsettled with hle | heq
  · omega
  · omega

/-- With nothing live, the only calls that change the store open a pair. -/
lemma Inv.step_of_not_isLive (h : c.Inv) (hlive : ¬ c.isLive) (op : Op)
    (hlive' : ¬ (c.step op).isLive) : (c.step op).store = c.store := by
  cases op with
  | sessionStart p =>
    by_cases hmode : c.mode.opens
    · rw [Capture.step, onSessionStart_of_opens hmode] at hlive'
      exact absurd (isLive_openNewCapture p _) hlive'
    · rw [Capture.step, onSessionStart_of_not_opens hmode]
      rfl
  | sessionEnd p =>
    obtain ⟨_, -, hflush⟩ := h.flushRing_of_not_isLive hlive p
    rw [Capture.step, Capture.onSessionEnd, hflush, closeCurrentCapture]
    rw [if_pos (not_le.mp hlive)]
  | record p direction bytes =>
    obtain ⟨_, _, _, hframe⟩ := record_frame p direction bytes c
    rw [Capture.step, hframe]
  | loop p =>
    obtain ⟨_, -, hflush⟩ := h.flushRing_of_not_isLive hlive p
    rw [Capture.step, loop_eq_flushRing, hflush]

/-- No call but the end of a session makes a live pair no longer live. -/
lemma Inv.isLive_step (h : c.Inv) (hlive : c.isLive) {op : Op} (hlive' : ¬ (c.step op).isLive) :
    ∃ p, op = .sessionEnd p := by
  cases op with
  | sessionStart p =>
    rw [Capture.step, onSessionStart_of_opens (h.isLive_iff.mp hlive).2] at hlive'
    exact absurd (isLive_openNewCapture p _) hlive'
  | sessionEnd p => exact ⟨p, rfl⟩
  | record p direction bytes =>
    obtain ⟨_, _, _, hframe⟩ := record_frame p direction bytes c
    rw [Capture.step, hframe] at hlive'
    exact absurd hlive hlive'
  | loop p =>
    rw [Capture.step, loop_eq_flushRing, h.isLive_flushRing] at hlive'
    exact absurd hlive hlive'

lemma maxTotalBytes_run_concat (cfg : Config) (ops : List Op) (op : Op) :
    (run cfg (ops ++ [op])).maxTotalBytes = (run cfg ops).maxTotalBytes := by
  rw [run_concat]
  exact congrArg Config.maxTotalBytes ((inv_run cfg ops).config_step op)

/-- Within the budget whenever nothing is live implies that a live pair fits when its session
ends. -/
lemma fits_of_within_budget {cfg : Config} {ops : List Op} {p : Platform}
    (hlive : (run cfg ops).isLive)
    (hwithin : ¬ (run cfg (ops ++ [.sessionEnd p])).isLive →
      (run cfg (ops ++ [.sessionEnd p])).store.totalBytesUsed
        ≤ (run cfg (ops ++ [.sessionEnd p])).maxTotalBytes) :
    (run cfg ops).liveBytes + (run cfg ops).pendingBytes ≤ (run cfg ops).maxTotalBytes := by
  rw [maxTotalBytes_run_concat, run_concat] at hwithin
  exact ((inv_run cfg ops).onSessionEnd_within_budget hlive p).mp
    (hwithin (not_isLive_onSessionEnd p _))

/-- Throughout a run, the store is within the budget whenever nothing is live, exactly when each
session that ends with a live pair ends with one that fits the budget, with what is still queued for
it. -/
theorem within_budget_between_sessions_iff (cfg : Config) (ops : List Op) :
    (∀ ops', ops' <+: ops → ¬ (run cfg ops').isLive →
      (run cfg ops').store.totalBytesUsed ≤ (run cfg ops').maxTotalBytes) ↔
    ∀ ops' p, ops' ++ [.sessionEnd p] <+: ops → (run cfg ops').isLive →
      (run cfg ops').liveBytes + (run cfg ops').pendingBytes ≤ (run cfg ops').maxTotalBytes := by
  constructor
  · intro hwithin ops' p hpre hlive
    exact fits_of_within_budget hlive (hwithin _ hpre)
  · intro hfits ops'
    induction ops' using List.reverseRecOn with
    | nil => exact fun _ _ => Nat.zero_le _
    | append_singleton ops' op ih =>
      intro hpre hlive'
      have h := inv_run cfg ops'
      rw [maxTotalBytes_run_concat]
      rw [run_concat] at hlive' ⊢
      by_cases hlive : (run cfg ops').isLive
      · obtain ⟨p, rfl⟩ := h.isLive_step hlive hlive'
        exact (h.onSessionEnd_within_budget hlive p).mpr (hfits ops' p hpre hlive)
      · rw [h.step_of_not_isLive hlive op hlive']
        exact ih ((List.prefix_append _ _).trans hpre) hlive

/-- The smallest budget the configuration allows, and a session in which the panel sends 1024 bytes
at once. -/
theorem not_within_budget_between_sessions : ¬ ∀ (cfg : Config) (ops : List Op),
    ¬ (run cfg ops).isLive → (run cfg ops).store.totalBytesUsed ≤ (run cfg ops).maxTotalBytes := by
  intro hwithin
  let cfg : Config := ⟨.bridgeOnly, ascii "Premier 24", 4096, 19200⟩
  let ops : List Op := [.sessionStart .quiet, .record .quiet 0 (List.replicate 1024 0)]
  have hlive : (run cfg ops).isLive := by decide +kernel
  have hend := hwithin cfg (ops ++ [.sessionEnd .quiet])
  have hfits := fits_of_within_budget hlive hend
  revert hfits
  decide +kernel

end Capture
end TexecomBridge
