import TexecomBridge.Capture.Lifecycle

/-!
# What `would_record` promises

`would_record` and `record` decide by mode and session flag, `on_session_start` and the flush decide
again whether there is a capture to write to. The decisions agree when capture is off, in BridgeOnly
mode, and in Both mode while a session is active. In MonitorOnly mode, and in Both mode without a
session, what was accepted is dropped at the next flush.
-/

namespace TexecomBridge
namespace Capture

variable {c : Capture}

/-- A stored `.bin` holds, behind what it held before and what was queued then, events of this
direction with exactly these bytes. Captures are counted from the newest, which eviction leaves
alone. -/
def Stored (before after : Capture) (direction : UInt8) (bytes : List UInt8) : Prop :=
  ∃ (i : ℕ) (b b' : RamCapture) (hdr : CaptureHeader) (old new : List Event),
    before.store.captures.reverse[i]? = some b ∧
    after.store.captures.reverse[i]? = some b' ∧ b'.isText = false ∧
    parseCapture b.bytes = some (hdr, old) ∧
    parseCapture b'.bytes = some (hdr, old ++ before.ring.events ++ new) ∧
    (∀ e ∈ new, e.direction = direction) ∧ new.flatMap (·.payload) = bytes

/-- What `would_record` and `record` promise about a push: if it would be recorded it is accepted
and stored by the next flush; if not it is refused and nothing changes. -/
def KeepsPromise (c : Capture) (p p' : Platform) (direction : UInt8) (bytes : List UInt8) : Prop :=
  (c.wouldRecord = true → (c.record p direction bytes).1 = true ∧
    Stored c ((c.record p direction bytes).2.loop p') direction bytes ∧
    Stored c ((c.record p direction bytes).2.onSessionEnd p') direction bytes) ∧
  (c.wouldRecord = false → c.record p direction bytes = (false, c))

/-- The states in which the promise is kept. -/
def Trustworthy (c : Capture) : Prop :=
  c.mode = .none ∨ c.mode = .bridgeOnly ∨ (c.mode = .both ∧ c.sessionActive = true)

/-! ### Where nothing is live -/

/-- A store that has not changed has not stored anything. -/
lemma not_stored_of_store_eq {before after : Capture} (h : after.store = before.store)
    (direction : UInt8) {bytes : List UInt8} (hb : bytes ≠ []) :
    ¬ Stored before after direction bytes := by
  rintro ⟨i, b, b', hdr, old, new, hbefore, hafter, -, hold, hnew, -, hbytes⟩
  rw [h, hbefore, Option.some.injEq] at hafter
  subst hafter
  rw [hold, Option.some.injEq, Prod.mk.injEq] at hnew
  have hlen := congrArg List.length hnew.2
  simp only [List.length_append] at hlen
  have hnil : new = [] := List.length_eq_zero_iff.mp (by omega)
  rw [hnil, List.flatMap_nil] at hbytes
  exact hb hbytes.symm

/-- With nothing live, a push and a flush leave the store as it was. -/
lemma Inv.store_record_loop (h : c.Inv) (hlive : ¬ c.isLive) (p p' : Platform) (direction : UInt8)
    (bytes : List UInt8) : ((c.record p direction bytes).2.loop p').store = c.store := by
  have hrec := h.record p direction bytes
  obtain ⟨_, _, _, hframe⟩ := record_frame p direction bytes c
  rw [hframe] at hrec ⊢
  obtain ⟨_, -, hflush⟩ := hrec.flushRing_of_not_isLive (by exact hlive) p'
  rw [loop_eq_flushRing, hflush]

/-! ### Where a pair is live -/

/-- With a live pair, what is queued next is stored by the next flush. -/
lemma Inv.stored_of_isLive (h : c.Inv) (hlive : c.isLive) (p p' : Platform) {direction : UInt8}
    (hdir : direction ≤ 1) {bytes : List UInt8}
    (hfits : (chunkEvents p c.sessionStartUs direction bytes 0).length
      ≤ kCaptureRingEvents - c.ring.size)
    {after : Capture} (hafter : after.store.captures
      = ((c.enqueueEvent p direction bytes).flushRing p').store.captures) :
    Stored c after direction bytes := by
  obtain ⟨q, older, harchive, -, hq⟩ := h.exists_live hlive
  obtain ⟨es, hes⟩ := h.contents q (by rw [harchive]; exact List.mem_cons_self)
  have henqueue := h.enqueueEvent p hdir bytes
  have hevents := events_enqueueEvent p direction bytes c
  rw [List.take_of_length_le hfits] at hevents
  obtain ⟨ring, drops, warn, hframe⟩ := enqueueEvent_frame p direction bytes c
  have hlive' : (c.enqueueEvent p direction bytes).isLive := by
    rw [hframe]
    exact hlive
  have harchive' : archive (c.enqueueEvent p direction bytes).history = q :: older := by
    rw [hframe]
    exact harchive
  have hflushed := (henqueue.flushRing_of_isLive hlive' p' harchive').2
  obtain ⟨q', older', hq'eq, -, hq'⟩ := (henqueue.flushRing p').exists_live
    ((henqueue.isLive_flushRing p').mpr hlive')
  obtain ⟨rfl, rfl⟩ : q.extendEvents (c.enqueueEvent p direction bytes).ring.events p'.millis = q' ∧
      older = older' := by
    rw [hflushed] at hq'eq
    exact List.cons.inj hq'eq
  have hes' := hes.extendEvents henqueue.queued p'.millis
  obtain ⟨hdr, hparse⟩ := hes.parseCapture_extendEvents
  have hold := hparse [] (by simp) 0
  have hnew := hparse _ henqueue.queued p'.millis
  rw [List.append_nil] at hold
  rw [hevents, ← List.append_assoc] at hnew
  refine ⟨1, q.bin, _, hdr, es, chunkEvents p c.sessionStartUs direction bytes 0, ?_, ?_,
    hes'.isText.1, hold, ?_, fun e he => direction_of_mem_chunkEvents he,
    flatMap_chunkEvents bytes 0⟩
  · rw [hq.captures_eq, List.reverse_append]
    rfl
  · rw [hafter, hq'.captures_eq, List.reverse_append]
    rfl
  · rw [hevents]
    exact hnew

/-- In every reachable state, a push of direction 0 or 1 whose chunks fit the free slots is treated
as promised exactly when capture is off, or only sessions are recorded, or both are recorded and a
session is active. -/
theorem keepsPromise_iff (cfg : Config) (ops : List Op) (p p' : Platform) (direction : UInt8)
    (hdir : direction ≤ 1) (bytes : List UInt8) (hb : bytes ≠ [])
    (hfits : (bytes.length + (kMaxEventPayload - 1)) / kMaxEventPayload
      ≤ kCaptureRingEvents - (run cfg ops).ring.size) :
    KeepsPromise (run cfg ops) p p' direction bytes ↔ (run cfg ops).Trustworthy := by
  generalize hc : run cfg ops = c at hfits ⊢
  have h : c.Inv := hc ▸ inv_run cfg ops
  rw [← @length_chunkEvents p c.sessionStartUs direction bytes 0]
    at hfits
  by_cases hlive : c.isLive
  · obtain ⟨hactive, hmode⟩ := h.isLive_iff.mp hlive
    have hrec := record_of_opens p hmode hactive hdir hb
    have htrust : c.Trustworthy := by
      obtain hmode | hmode := hmode
      · exact Or.inr (Or.inl hmode)
      · exact Or.inr (Or.inr ⟨hmode, hactive⟩)
    refine iff_of_true ⟨fun _ => ⟨?_, ?_, ?_⟩, fun hwould => ?_⟩ htrust
    · rw [hrec]
    · rw [hrec, loop_eq_flushRing]
      exact h.stored_of_isLive hlive p p' hdir hfits rfl
    · rw [hrec]
      exact h.stored_of_isLive hlive p p' hdir hfits (captures_onSessionEnd p' _).1
    · rw [wouldRecord_of_opens hmode hactive] at hwould
      cases hwould
  · have hnot : c.wouldRecord = true → ¬ KeepsPromise c p p' direction bytes := by
      intro hwould hkeeps
      exact not_stored_of_store_eq (h.store_record_loop hlive p p' direction bytes) direction hb
        (hkeeps.1 hwould).2.1
    have hrefused : c.wouldRecord = false → c.record p direction bytes = (false, c) →
        KeepsPromise c p p' direction bytes := by
      intro hwould hrec
      exact ⟨fun htrue => by simp [hwould] at htrue, fun _ => hrec⟩
    cases hmode : c.mode with
    | none =>
      refine iff_of_true (hrefused ?_ ?_) (Or.inl hmode)
      · simp [wouldRecord, hmode]
      · simp [record, hmode]
    | bridgeOnly =>
      have hactive : c.sessionActive = false := by
        by_contra hactive
        exact hlive (h.isLive_iff.mpr ⟨by simpa using hactive, Or.inl hmode⟩)
      refine iff_of_true (hrefused ?_ ?_) (Or.inr (Or.inl hmode))
      · simp [wouldRecord, hmode, hactive]
      · simp [record, hmode, hactive]
    | monitorOnly =>
      refine iff_of_false (hnot ?_) ?_
      · simp [wouldRecord, hmode]
      · simp [Trustworthy, hmode]
    | both =>
      refine iff_of_false (hnot ?_) ?_
      · simp [wouldRecord, hmode]
      · rintro (hm | hm | ⟨-, hactive⟩)
        · simp [hmode] at hm
        · simp [hmode] at hm
        · exact hlive (h.isLive_iff.mpr ⟨hactive, Or.inr hmode⟩)

/-- A byte from the panel while a session is active, in BridgeOnly mode. -/
theorem keepsPromise_in_session :
    KeepsPromise (run ⟨.bridgeOnly, ascii "Premier 24", 131072, 19200⟩ [.sessionStart .quiet])
      .quiet .quiet 0 [0x41] :=
  (keepsPromise_iff ⟨.bridgeOnly, ascii "Premier 24", 131072, 19200⟩ [.sessionStart .quiet]
    .quiet .quiet 0 (by decide) [0x41] (by decide) (by decide +kernel)).mpr
      (Or.inr (Or.inl (by decide +kernel)))

/-- A byte from the panel before any client has connected, in Both mode. -/
theorem not_keepsPromise : ¬ ∀ (cfg : Config) (ops : List Op) (p p' : Platform) (direction : UInt8)
    (bytes : List UInt8), direction ≤ 1 → bytes ≠ [] →
      (bytes.length + (kMaxEventPayload - 1)) / kMaxEventPayload
        ≤ kCaptureRingEvents - (run cfg ops).ring.size →
      KeepsPromise (run cfg ops) p p' direction bytes := by
  intro h
  have hkeeps := h ⟨.both, ascii "Premier 24", 131072, 19200⟩ [] .quiet .quiet 0 [0x41]
    (by decide) (by decide) (by decide)
  have hstore := (inv_configured ⟨.both, ascii "Premier 24", 131072, 19200⟩).store_record_loop
    (by decide) .quiet .quiet 0 [0x41]
  exact not_stored_of_store_eq hstore 0 (by decide) (hkeeps.1 rfl).2.1

end Capture
end TexecomBridge
