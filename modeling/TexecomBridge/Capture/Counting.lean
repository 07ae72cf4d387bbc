import TexecomBridge.Capture.Lifecycle

/-!
# Counting events

Every push that `record()` accepts is one event in a `.bin`, one event in the ring, or one drop,
whether it was refused by a full ring or discarded by a flush with nothing live.
-/

namespace TexecomBridge

/-- The number of events read back from the `.bin`. -/
def CapturePair.eventCount (q : CapturePair) : ℕ :=
  (readEvents (q.bin.bytes.drop kCaptureHeaderSize)).1.length

lemma CapturePair.Holds.eventCount_eq {cfg : Capture.Config} {q : CapturePair} {es : List Event}
    (hq : q.Holds cfg es) : q.eventCount = es.length := by
  obtain ⟨nowUnix, hbin⟩ := hq.bin_eq
  have hread := readEvents_flatMap (fun e he => (hq.queueable e he).valid) []
  rw [List.append_nil, readEvents_nil, List.append_nil] at hread
  rw [CapturePair.eventCount, hbin, serializeCapture,
    List.drop_left' (length_serializeHeader _), hread]

namespace Capture

variable {c : Capture}

/-- The events ever appended to a `.bin`, also to one that was evicted since. -/
def appended (c : Capture) : ℕ := ((archive c.history).map CapturePair.eventCount).sum

/-- Appended, pending or dropped. -/
def accountedFor (c : Capture) : UInt32 := UInt32.ofNat (c.appended + c.ring.size) + c.drops

/-- The call is a `record()` that returns `true`. -/
def accepts (c : Capture) : Op → Bool
  | .record p direction bytes => (c.record p direction bytes).1
  | _ => false

/-- The number of `record()` calls among `ops` that return `true`. -/
def acceptedCount (c : Capture) : List Op → ℕ
  | [] => 0
  | op :: ops => (if c.accepts op then 1 else 0) + acceptedCount (c.step op) ops

/-- A `record()` is of at most 256 bytes, as both pumps make it. -/
def Op.Batched : Op → Prop
  | .record _ _ bytes => bytes.length ≤ kMaxEventPayload
  | _ => True

/-! ### One call -/

/-- A flush moves what is pending to the live pair, or drops it. -/
lemma Inv.accountedFor_flushRing (h : c.Inv) (p : Platform) :
    (c.flushRing p).accountedFor = c.accountedFor := by
  obtain ⟨_, _, _, _, _, r, hr, hframe⟩ := h.flushRing_frame p
  have hsize : (c.flushRing p).ring.size = 0 := by
    rw [hframe]
    exact EventRing.events_eq_nil_iff.mp hr
  by_cases hlive : c.isLive
  · obtain ⟨q, older, harchive, -, -⟩ := h.exists_live hlive
    obtain ⟨es, hes⟩ := h.contents q (by rw [harchive]; exact List.mem_cons_self)
    obtain ⟨hdrops, harchive'⟩ := h.flushRing_of_isLive hlive p harchive
    have hcount := (hes.extendEvents h.queued p.millis).eventCount_eq
    have happended : (c.flushRing p).appended = c.appended + c.ring.size := by
      simp only [appended, harchive, harchive', List.map_cons, List.sum_cons, hcount,
        hes.eventCount_eq, List.length_append, EventRing.length_events]
      omega
    rw [accountedFor, accountedFor, hsize, hdrops, happended, Nat.add_zero]
  · obtain ⟨r', -, hflush⟩ := h.flushRing_of_not_isLive hlive p
    have happended : (c.flushRing p).appended = c.appended := by
      rw [appended, appended, hflush]
    have hdrops : (c.flushRing p).drops = c.drops + UInt32.ofNat c.ring.size := by
      rw [hflush, ← EventRing.length_events]
    rw [accountedFor, accountedFor, hsize, happended, hdrops, Nat.add_zero, UInt32.ofNat_add,
      UInt32.add_comm c.drops, UInt32.add_assoc]

/-- A batch that is accepted is one more event in the ring or one more drop. -/
lemma accountedFor_enqueueEvent (p : Platform) (direction : UInt8) {bytes : List UInt8}
    (hb : bytes ≠ []) (hlen : bytes.length ≤ kMaxEventPayload) (c : Capture) :
    (c.enqueueEvent p direction bytes).accountedFor = c.accountedFor + 1 := by
  have hevents := congrArg List.length (events_enqueueEvent p direction bytes c)
  have hdrops := drops_enqueueEvent p direction bytes c
  rw [chunkEvents_singleton p c.sessionStartUs direction hb hlen] at hevents hdrops
  have happended : (c.enqueueEvent p direction bytes).appended = c.appended := by
    obtain ⟨_, _, _, hframe⟩ := enqueueEvent_frame p direction bytes c
    rw [hframe]
    rfl
  rw [accountedFor, accountedFor, happended, hdrops]
  simp only [List.length_append, EventRing.length_events, List.length_take,
    List.length_singleton] at hevents ⊢
  rw [hevents]
  by_cases hroom : 1 ≤ kCaptureRingEvents - c.ring.size
  · rw [if_pos hroom, Nat.min_eq_right hroom, ← Nat.add_assoc, UInt32.ofNat_add (_ + _)]
    exact add_right_comm _ _ _
  · have hnone : kCaptureRingEvents - c.ring.size = 0 := by omega
    rw [if_neg hroom, hnone, Nat.zero_min, Nat.add_zero, ← UInt32.add_assoc]

lemma Inv.accountedFor_step (h : c.Inv) {op : Op} (hop : op.Batched) :
    (c.step op).accountedFor = c.accountedFor + UInt32.ofNat (if c.accepts op then 1 else 0) := by
  cases op with
  | sessionStart p =>
    have happended : (c.onSessionStart p).appended = c.appended := by
      by_cases hmode : c.mode.opens
      · obtain ⟨q, harchive, hq⟩ := archive_onSessionStart hmode p
        simp [appended, harchive, hq.eventCount_eq]
      · rw [onSessionStart_of_not_opens hmode]
        rfl
    obtain ⟨_, _, _, _, hframe⟩ := onSessionStart_frame p c
    have hrest : (c.onSessionStart p).ring = c.ring ∧ (c.onSessionStart p).drops = c.drops := by
      rw [hframe]
      exact ⟨rfl, rfl⟩
    rw [Capture.step, accountedFor, accountedFor, happended, hrest.1, hrest.2]
    simp [accepts]
  | sessionEnd p =>
    have hflush := h.accountedFor_flushRing p
    obtain ⟨_, _, hclose⟩ := closeCurrentCapture_frame (c.flushRing p)
    have hend : (c.onSessionEnd p).accountedFor = (c.flushRing p).accountedFor := by
      rw [Capture.onSessionEnd, hclose]
      rfl
    simp [Capture.step, hend, hflush, accepts]
  | record p direction bytes =>
    rw [Capture.step, accepts]
    rcases record_cases p direction bytes c with hrec | ⟨-, hrec⟩
    · rw [hrec]
      simp
    · have hb : bytes ≠ [] := by
        rintro rfl
        simp [Capture.record] at hrec
      rw [hrec]
      exact accountedFor_enqueueEvent p direction hb hop c
  | loop p =>
    rw [Capture.step, loop_eq_flushRing, h.accountedFor_flushRing p]
    simp [accepts]

/-! ### Runs -/

lemma Inv.accountedFor_foldl (h : c.Inv) {ops : List Op} (hops : ∀ op ∈ ops, op.Batched) :
    (ops.foldl Capture.step c).accountedFor = c.accountedFor + UInt32.ofNat (c.acceptedCount ops) := by
  induction ops generalizing c with
  | nil => simp [acceptedCount]
  | cons op ops ih =>
    have hrest := ih (h.step op) fun op' hop' => hops op' (List.mem_cons_of_mem _ hop')
    rw [List.foldl_cons, hrest, h.accountedFor_step (hops op List.mem_cons_self), acceptedCount,
      UInt32.ofNat_add, UInt32.add_assoc]

/-- In every mode and after any calls, the number of pushes that were accepted is the number of
events ever appended to a `.bin`, plus those pending in the ring, plus the drop counter, up to the
wrap of that counter. -/
theorem events_conserved (cfg : Config) (ops : List Op) (hops : ∀ op ∈ ops, op.Batched) :
    (configured cfg).acceptedCount ops
      ≡ (run cfg ops).appended + (run cfg ops).ring.size + (run cfg ops).drops.toNat
        [MOD 2 ^ 32] := by
  have hinit : (configured cfg).accountedFor = 0 := by
    simp [accountedFor, appended, configured, setBaudRate, setMaxTotalBytes, setPanelName, setMode,
      init]
  have h := (inv_configured cfg).accountedFor_foldl hops
  rw [hinit, UInt32.zero_add, accountedFor] at h
  have hnat := congrArg UInt32.toNat h
  rw [UInt32.toNat_add, UInt32.toNat_ofNat', UInt32.toNat_ofNat', Nat.mod_add_mod] at hnat
  exact hnat.symm

/-- A batch between sessions in Monitor mode, dropped by the flush. -/
theorem events_conserved_between_sessions :
    let cfg : Config := ⟨.monitorOnly, ascii "Premier 24", 131072, 19200⟩
    let ops : List Op := [.record .quiet 0 [0x41], .loop .quiet]
    (configured cfg).acceptedCount ops
      ≡ (run cfg ops).appended + (run cfg ops).ring.size + (run cfg ops).drops.toNat
        [MOD 2 ^ 32] ∧ (run cfg ops).drops = 1 := by
  intro cfg ops
  refine ⟨events_conserved cfg ops ?_, by decide +kernel⟩
  intro op hop
  rcases List.mem_pair.mp hop with rfl | rfl
  · exact show 1 ≤ kMaxEventPayload by decide
  · trivial

end Capture
end TexecomBridge
