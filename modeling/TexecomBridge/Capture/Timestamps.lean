import TexecomBridge.Capture.Lifecycle

/-!
# Timestamps

`micros()` wraps every 2^32 microseconds and is widened to 64 bits before the session start is
subtracted. What is stored is the elapsed time as long as the counter does not wrap between the two
reads, and is off by 2^64 - 2^32 when it does.
-/

namespace TexecomBridge

/-! ### A counter that wraps -/

/-- The difference of two reads of a counter modulo `m`, taken modulo a larger `M`, is the elapsed
time exactly when the counter did not wrap in between. -/
lemma widened_sub_eq_iff {m M t₀ t : ℕ} (hM : m < M) (hle : t₀ ≤ t) (hlt : t - t₀ < m) :
    (M - t₀ % m + t % m) % M = t - t₀ ↔ t₀ % m + (t - t₀) < m := by
  obtain ⟨e, rfl⟩ := Nat.exists_eq_add_of_le hle
  rw [Nat.add_sub_cancel_left] at hlt ⊢
  have hstart := Nat.mod_lt t₀ (Nat.zero_lt_of_lt hlt)
  rw [← Nat.mod_add_mod t₀ m e]
  generalize t₀ % m = b at hstart ⊢
  by_cases hwrap : b + e < m
  · refine iff_of_true ?_ hwrap
    have hsum : M - b + (b + e) = M + e := by omega
    rw [Nat.mod_eq_of_lt hwrap, hsum, Nat.add_mod_left, Nat.mod_eq_of_lt (hlt.trans hM)]
  · refine iff_of_false ?_ hwrap
    have hread : (b + e) % m = b + e - m := by
      rw [Nat.mod_eq_sub_mod (not_lt.mp hwrap), Nat.mod_eq_of_lt (by omega)]
    have hshort : M - b + (b + e - m) < M := by omega
    rw [hread, Nat.mod_eq_of_lt hshort]
    omega

/-- The platform at the true times `time`: its `i`-th `micros()` is `time i` cut to 32 bits. -/
def Platform.clocked (time : ℕ → ℕ) (p : Platform) : Platform :=
  { p with micros := fun i => UInt32.ofNat (time i) }

/-- What is stored for an event at `t` in a session that began at `t₀`. -/
def storedTimestamp (t₀ t : ℕ) : UInt64 := (UInt32.ofNat t).toUInt64 - (UInt32.ofNat t₀).toUInt64

/-- `micros()` does not wrap between `t₀` and `t`. -/
def NoWrap (t₀ t : ℕ) : Prop := t₀ % 2 ^ 32 + (t - t₀) < 2 ^ 32

instance (t₀ t : ℕ) : Decidable (NoWrap t₀ t) := inferInstanceAs (Decidable (_ < _))

lemma NoWrap.lt {t₀ t : ℕ} (h : NoWrap t₀ t) : t - t₀ < 2 ^ 32 :=
  (Nat.le_add_left _ _).trans_lt h

lemma toNat_storedTimestamp_eq_iff {t₀ t : ℕ} (hle : t₀ ≤ t) (hlt : t - t₀ < 2 ^ 32) :
    (storedTimestamp t₀ t).toNat = t - t₀ ↔ NoWrap t₀ t := by
  rw [storedTimestamp, UInt64.toNat_sub, UInt32.toNat_toUInt64, UInt32.toNat_toUInt64,
    UInt32.toNat_ofNat', UInt32.toNat_ofNat']
  exact widened_sub_eq_iff (by decide) hle hlt

namespace Capture

variable {c : Capture}

/-! ### One call -/

/-- The timestamps of the chunks of a push. -/
lemma map_timestampUs_chunkEvents (p : Platform) (startUs : UInt64) (direction : UInt8)
    (bytes : List UInt8) (i : ℕ) :
    (chunkEvents p startUs direction bytes i).map (·.timestampUs)
      = (List.range (chunkEvents p startUs direction bytes i).length).map
        fun j => (p.micros (i + j)).toUInt64 - startUs := by
  induction bytes, i using chunkEvents.induct with
  | case1 i => simp [chunkEvents_nil]
  | case2 bytes i h ih =>
    rw [chunkEvents_of_ne_nil p startUs direction h, List.map_cons, ih, List.length_cons,
      List.range_succ_eq_map, List.map_cons, List.map_map, Nat.add_zero]
    congr 1
    apply List.map_congr_left
    intro j _
    rw [Function.comp_apply, Nat.succ_eq_one_add, Nat.add_assoc]

/-- A push during a session puts behind the queued events as many as there is room for, each with
the time it was queued at. -/
lemma events_record (time : ℕ → ℕ) (p : Platform) (direction : UInt8) (bytes : List UInt8)
    (c : Capture) : ∃ new : List Event,
      (c.record (p.clocked time) direction bytes).2.ring.events = c.ring.events ++ new ∧
      (∀ e ∈ new, e.Queueable) ∧
      new.map (·.timestampUs) = (List.range
        ((c.record (p.clocked time) direction bytes).2.ring.size - c.ring.size)).map
          fun j => (UInt32.ofNat (time j)).toUInt64 - c.sessionStartUs := by
  rcases record_cases (p.clocked time) direction bytes c with hrec | ⟨hdir, hrec⟩
  · rw [hrec]
    exact ⟨[], by simp, by simp, by simp⟩
  · rw [hrec]
    have hevents := events_enqueueEvent (p.clocked time) direction bytes c
    refine ⟨_, hevents, fun e he => ?_, ?_⟩
    · exact queueable_of_mem_chunkEvents hdir (List.mem_of_mem_take he)
    · have hsize := congrArg List.length hevents
      rw [List.length_append, EventRing.length_events, EventRing.length_events,
        List.length_take] at hsize
      rw [hsize, Nat.add_sub_cancel_left, List.map_take, map_timestampUs_chunkEvents,
        ← List.map_take, List.take_range]
      apply List.map_congr_left
      intro j _
      rw [Nat.zero_add]
      rfl

/-! ### A session -/

/-- The calls made during a session, with the true time at each. -/
inductive TimedOp
  | record (time : ℕ → ℕ) (p : Platform) (direction : UInt8) (bytes : List UInt8)
  | loop (p : Platform)

def TimedOp.op : TimedOp → Op
  | .record time p direction bytes => .record (p.clocked time) direction bytes
  | .loop p => .loop p

/-- The true times of the events that these calls queue, in the order they are queued. -/
def queuedTimes (c : Capture) : List TimedOp → List ℕ
  | [] => []
  | .record time p direction bytes :: s =>
    let c' := (c.record (p.clocked time) direction bytes).2
    (List.range (c'.ring.size - c.ring.size)).map time ++ queuedTimes c' s
  | .loop p :: s => queuedTimes (c.loop p) s

/-- A session is being recorded: its pair holds `es`, and what is queued will follow. -/
structure Records (c : Capture) (startUs : UInt64) (es : List Event) : Prop where
  inv : c.Inv
  live : c.isLive
  start : c.sessionStartUs = startUs
  stored : ∃ q older, archive c.history = q :: older ∧ q.Holds c.config es

namespace Records

variable {startUs : UInt64} {es : List Event}

lemma record (h : c.Records startUs es) (p : Platform) (direction : UInt8) (bytes : List UInt8) :
    (c.record p direction bytes).2.Records startUs es := by
  have hinv := h.inv.record p direction bytes
  obtain ⟨_, _, _, hframe⟩ := record_frame p direction bytes c
  rw [hframe] at hinv ⊢
  exact ⟨hinv, h.live, h.start, h.stored⟩

/-- A flush stores what was queued. -/
lemma flushRing (h : c.Records startUs es) (p : Platform) :
    (c.flushRing p).Records startUs (es ++ c.ring.events) := by
  obtain ⟨q, older, harchive, hq⟩ := h.stored
  obtain ⟨-, harchive'⟩ := h.inv.flushRing_of_isLive h.live p harchive
  obtain ⟨_, _, _, _, _, _, _, hframe⟩ := h.inv.flushRing_frame p
  refine ⟨h.inv.flushRing p, (h.inv.isLive_flushRing p).mpr h.live, ?_, _, older, harchive', ?_⟩
  · rw [hframe]
    exact h.start
  · have hcfg : (c.flushRing p).config = c.config := by
      rw [hframe]
      rfl
    rw [hcfg]
    exact hq.extendEvents h.inv.queued p.millis

/-- Throughout a session, what is stored and queued is what was there at first and one event for
each time in `queuedTimes`. -/
lemma run (h : c.Records startUs es) (s : List TimedOp) :
    let c' := (s.map TimedOp.op).foldl Capture.step c
    ∃ es' new, c'.Records startUs es' ∧ es' ++ c'.ring.events = es ++ c.ring.events ++ new ∧
      new.map (·.timestampUs) = (queuedTimes c s).map
        fun t => (UInt32.ofNat t).toUInt64 - startUs := by
  induction s generalizing c es with
  | nil => exact ⟨es, [], h, (List.append_nil _).symm, rfl⟩
  | cons op s ih =>
    cases op with
    | record time p direction bytes =>
      obtain ⟨first, hfirst, -, htimes⟩ := events_record time p direction bytes c
      obtain ⟨es', rest, h', hrest, htimes'⟩ := ih (h.record (p.clocked time) direction bytes)
      refine ⟨es', first ++ rest, h', ?_, ?_⟩
      · rw [hfirst] at hrest
        simpa [TimedOp.op, Capture.step] using hrest
      · rw [h.start] at htimes
        rw [queuedTimes, List.map_append, List.map_append, htimes, htimes', List.map_map]
        rfl
    | loop p =>
      have hloop := h.flushRing p
      rw [← loop_eq_flushRing] at hloop
      have hnil := EventRing.events_eq_nil_iff.mpr (size_loop p c)
      obtain ⟨es', rest, h', hrest, htimes'⟩ := ih hloop
      refine ⟨es', rest, h', ?_, htimes'⟩
      rw [hnil, List.append_nil] at hrest
      exact hrest

/-- The `.bin` of the session, now and when the session has ended. -/
lemma exists_bin (h : c.Records startUs es) : ∃ bin hdr,
    c.store.captures.reverse[1]? = some bin ∧ parseCapture bin.bytes = some (hdr, es) ∧
    ∀ p, ∃ bin', (c.onSessionEnd p).store.captures.reverse[1]? = some bin' ∧
      parseCapture bin'.bytes = some (hdr, es ++ c.ring.events) := by
  obtain ⟨q, older, harchive, hq⟩ := h.stored
  obtain ⟨q', older', harchive', -, hlive⟩ := h.inv.exists_live h.live
  obtain ⟨rfl, rfl⟩ := List.cons.inj (harchive.symm.trans harchive')
  obtain ⟨hdr, hparse⟩ := hq.parseCapture_extendEvents
  have hnow := hparse [] (by simp) 0
  rw [List.append_nil] at hnow
  refine ⟨q.bin, hdr, ?_, hnow, fun p => ?_⟩
  · rw [hlive.captures_eq, List.reverse_append]
    rfl
  · obtain ⟨-, hflushed⟩ := h.inv.flushRing_of_isLive h.live p harchive
    obtain ⟨q', older', harchive', -, hlive'⟩ := (h.flushRing p).inv.exists_live (h.flushRing p).live
    obtain ⟨rfl, rfl⟩ := List.cons.inj (hflushed.symm.trans harchive')
    refine ⟨_, ?_, hparse _ h.inv.queued p.millis⟩
    rw [(captures_onSessionEnd p c).1, hlive'.captures_eq, List.reverse_append]
    rfl

end Records

/-- When a session starts in a mode that records it, its pair holds nothing. -/
lemma Inv.records_onSessionStart (h : c.Inv) (hmode : c.mode.opens) (p : Platform) :
    (c.onSessionStart p).Records (p.micros 0).toUInt64 [] := by
  obtain ⟨q, harchive, hq⟩ := archive_onSessionStart hmode p
  have hinv := h.onSessionStart p
  obtain ⟨_, _, _, _, hframe⟩ := onSessionStart_frame p c
  refine ⟨hinv, hinv.isLive_iff.mpr ?_, ?_, q, _, harchive, ?_⟩
  · rw [hframe]
    exact ⟨rfl, hmode⟩
  · rw [hframe]
    rfl
  · have hcfg : (c.onSessionStart p).config = c.config := by
      rw [hframe]
      rfl
    rwa [hcfg]

/-! ### Runs -/

/-- Only the start of a session sets the time that timestamps are relative to. -/
lemma Inv.sessionStartUs_foldl (h : c.Inv) {ops : List Op}
    (hops : ∀ op ∈ ops, ∀ p, op ≠ .sessionStart p) :
    (ops.foldl Capture.step c).sessionStartUs = c.sessionStartUs := by
  induction ops generalizing c with
  | nil => rfl
  | cons op ops ih =>
    have hstep : (c.step op).sessionStartUs = c.sessionStartUs := by
      cases op with
      | sessionStart p => exact absurd rfl (hops _ List.mem_cons_self p)
      | sessionEnd p =>
        obtain ⟨_, _, _, _, _, _, _, hframe⟩ := h.onSessionEnd_frame p
        rw [Capture.step, hframe]
      | record p direction bytes =>
        obtain ⟨_, _, _, hframe⟩ := record_frame p direction bytes c
        rw [Capture.step, hframe]
      | loop p =>
        obtain ⟨_, _, _, _, _, _, _, hframe⟩ := h.flushRing_frame p
        rw [Capture.step, loop_eq_flushRing, hframe]
    rw [List.foldl_cons, ih (h.step op) fun op' hop' => hops op' (List.mem_cons_of_mem _ hop'),
      hstep]

/-- The call that starts a session at `t₀`. -/
def startAt (t₀ : ℕ) (p : Platform) : Op := .sessionStart (p.clocked fun _ => t₀)

lemma sessionStartUs_run (cfg : Config) (ops : List Op) (t₀ : ℕ) (p : Platform) {mid : List Op}
    (hmid : ∀ op ∈ mid, ∀ p', op ≠ .sessionStart p') :
    (run cfg (ops ++ startAt t₀ p :: mid)).sessionStartUs = (UInt32.ofNat t₀).toUInt64 := by
  have hsplit : run cfg (ops ++ startAt t₀ p :: mid)
      = mid.foldl Capture.step (run cfg (ops ++ [startAt t₀ p])) := by
    simp [run]
  obtain ⟨_, _, _, _, hframe⟩ := onSessionStart_frame (p.clocked fun _ => t₀) (run cfg ops)
  rw [hsplit, (inv_run cfg _).sessionStartUs_foldl hmid, run_concat, startAt, Capture.step, hframe]
  rfl

/-- What is queued and stored of a session that starts at `t₀`: one event for each of the times in
`queuedTimes`, behind what was queued already. -/
lemma exists_session (cfg : Config) (hmode : cfg.mode.opens) (ops : List Op) (t₀ : ℕ) (p : Platform)
    (s : List TimedOp) :
    let before := run cfg (ops ++ [startAt t₀ p])
    let c := run cfg (ops ++ startAt t₀ p :: s.map TimedOp.op)
    ∃ es new, c.Records (UInt32.ofNat t₀).toUInt64 es ∧
      es ++ c.ring.events = before.ring.events ++ new ∧
      new.map (·.timestampUs) = (queuedTimes before s).map (storedTimestamp t₀) := by
  intro before c
  have hmode' : (run cfg ops).mode.opens := by
    rw [show (run cfg ops).mode = cfg.mode from congrArg Config.mode (config_run cfg ops)]
    exact hmode
  have hstart := (inv_run cfg ops).records_onSessionStart hmode' (p.clocked fun _ => t₀)
  have hbefore : before = (run cfg ops).onSessionStart (p.clocked fun _ => t₀) := by
    simp only [before, run_concat, startAt, Capture.step]
  have hc : c = (s.map TimedOp.op).foldl Capture.step before := by
    simp [c, before, run]
  rw [← hbefore] at hstart
  obtain ⟨es, new, h, hevents, htimes⟩ := hstart.run s
  rw [← hc] at h hevents
  exact ⟨es, new, h, hevents, htimes⟩

/-- An event that is queued less than 2^32 microseconds after the start of the session carries the
elapsed time exactly when `micros()` did not wrap since then, in the ring and in the `.bin`. If it
does not wrap while a session is recorded, and nothing was queued before it, the timestamps of the
`.bin` are in order and below 2^32. -/
theorem timestamps_elapsed_iff (cfg : Config) (ops : List Op) (t₀ : ℕ) (p : Platform) :
    (∀ mid : List Op, (∀ op ∈ mid, ∀ p', op ≠ .sessionStart p') →
      ∀ (time : ℕ → ℕ) (p' : Platform) (direction : UInt8) (bytes : List UInt8) (i : ℕ) (e : Event),
        let c := run cfg (ops ++ startAt t₀ p :: mid)
        (c.record (p'.clocked time) direction bytes).2.ring.events[c.ring.size + i]? = some e →
        t₀ ≤ time i → time i - t₀ < 2 ^ 32 →
          (e.timestampUs.toNat = time i - t₀ ↔ NoWrap t₀ (time i))) ∧
    (cfg.mode.opens → ∀ s : List TimedOp,
      let before := run cfg (ops ++ [startAt t₀ p])
      let c := run cfg (ops ++ startAt t₀ p :: s.map TimedOp.op)
      let ts := queuedTimes before s
      ∃ bin hdr es, c.store.captures.reverse[1]? = some bin ∧
        parseCapture bin.bytes = some (hdr, es) ∧
        (∀ p', ∃ bin', (c.onSessionEnd p').store.captures.reverse[1]? = some bin' ∧
          parseCapture bin'.bytes = some (hdr, es ++ c.ring.events)) ∧
        (es ++ c.ring.events).length = before.ring.size + ts.length ∧
        (∀ (i : ℕ) (e : Event) (t : ℕ),
          (es ++ c.ring.events)[before.ring.size + i]? = some e → ts[i]? = some t →
          t₀ ≤ t → t - t₀ < 2 ^ 32 → (e.timestampUs.toNat = t - t₀ ↔ NoWrap t₀ t)) ∧
        (before.ring.size = 0 → ts.Pairwise (· ≤ ·) → (∀ t ∈ ts, t₀ ≤ t ∧ NoWrap t₀ t) →
          ((es ++ c.ring.events).map (·.timestampUs.toNat)).Pairwise (· ≤ ·) ∧
            ∀ e ∈ es ++ c.ring.events, e.timestampUs.toNat < 2 ^ 32)) := by
  constructor
  · intro mid hmid time p' direction bytes i e c he hle hlt
    obtain ⟨new, hevents, -, htimes⟩ := events_record time p' direction bytes c
    rw [hevents, List.getElem?_append_right (by simp), EventRing.length_events,
      Nat.add_sub_cancel_left] at he
    rw [show c.sessionStartUs = (UInt32.ofNat t₀).toUInt64 from sessionStartUs_run cfg ops t₀ p hmid]
      at htimes
    have hi := (List.getElem?_eq_some_iff.mp he).1
    have hlen := congrArg List.length htimes
    rw [List.length_map, List.length_map, List.length_range] at hlen
    have hstamp : e.timestampUs = storedTimestamp t₀ (time i) := by
      have hget := congrArg (fun l : List UInt64 => l[i]?) htimes
      simpa [he, List.getElem?_range (hlen ▸ hi), storedTimestamp] using hget
    rw [hstamp]
    exact toNat_storedTimestamp_eq_iff hle hlt
  · intro hmode s before c ts
    obtain ⟨es, new, hrecords, hevents, htimes⟩ := exists_session cfg hmode ops t₀ p s
    obtain ⟨bin, hdr, hbin, hparse, hended⟩ := hrecords.exists_bin
    have hlen := congrArg List.length htimes
    rw [List.length_map, List.length_map] at hlen
    refine ⟨bin, hdr, es, hbin, hparse, hended, ?_, ?_, ?_⟩
    · rw [hevents, List.length_append, EventRing.length_events, hlen]
    · intro i e t he ht hle hlt
      rw [hevents, List.getElem?_append_right (by simp [before]), EventRing.length_events,
        Nat.add_sub_cancel_left] at he
      have hstamp : e.timestampUs = storedTimestamp t₀ t := by
        have hget : (new.map (·.timestampUs))[i]? = (ts.map (storedTimestamp t₀))[i]? := by
          rw [htimes]
        rw [List.getElem?_map, List.getElem?_map, he, ht] at hget
        exact Option.some.inj hget
      rw [hstamp]
      exact toNat_storedTimestamp_eq_iff hle hlt
    · intro hempty hsorted hwrap
      have hnil := EventRing.events_eq_nil_iff.mpr hempty
      have htrue : new.map (·.timestampUs.toNat) = ts.map (· - t₀) := by
        calc new.map (·.timestampUs.toNat)
            = (new.map (·.timestampUs)).map UInt64.toNat := by rw [List.map_map]; rfl
          _ = ts.map (fun t => (storedTimestamp t₀ t).toNat) := by rw [htimes, List.map_map]; rfl
          _ = ts.map (· - t₀) := by
            apply List.map_congr_left
            intro t ht
            obtain ⟨hle, hnowrap⟩ := hwrap t ht
            exact (toNat_storedTimestamp_eq_iff hle hnowrap.lt).mpr hnowrap
      rw [hevents, hnil, List.nil_append, htrue]
      constructor
      · rw [List.pairwise_map]
        exact hsorted.imp fun hab => Nat.sub_le_sub_right hab t₀
      · intro e he
        have hmem : e.timestampUs.toNat ∈ ts.map (· - t₀) := by
          rw [← htrue]
          exact List.mem_map_of_mem he
        obtain ⟨t, ht, hte⟩ := List.mem_map.mp hmem
        rw [← hte]
        exact (hwrap t ht).2.lt

/-- A session that starts at 1000 microseconds, and a batch 500 microseconds into it. -/
theorem timestamps_elapsed_after_boot :
    let c := run ⟨.bridgeOnly, ascii "Premier 24", 131072, 19200⟩ [startAt 1000 .quiet]
    (c.record (Platform.quiet.clocked fun _ => 1500) 0 [0x41]).2.ring.events.map
      (·.timestampUs.toNat) = [500] := by
  intro c
  have hlength : (c.record (Platform.quiet.clocked fun _ => 1500) 0 [0x41]).2.ring.events.length
      = 1 := by
    decide +kernel
  obtain ⟨e, he⟩ := List.length_eq_one_iff.mp hlength
  have hsize : c.ring.size = 0 := by decide +kernel
  have hfirst : (c.record (Platform.quiet.clocked fun _ => 1500) 0 [0x41]).2.ring.events[
      c.ring.size + 0]? = some e := by
    rw [hsize, he]
    rfl
  have helapsed :=
    ((timestamps_elapsed_iff ⟨.bridgeOnly, ascii "Premier 24", 131072, 19200⟩ [] 1000 .quiet).1
      [] (by simp) (fun _ => 1500) .quiet 0 [0x41] 0 e hfirst (by decide) (by decide)).mpr (by decide)
  rw [he, List.map_singleton, helapsed]

/-- A session that starts ten microseconds before `micros()` wraps, and a batch fifteen microseconds
into it. -/
theorem not_timestamps_elapsed :
    let c := run ⟨.bridgeOnly, ascii "Premier 24", 131072, 19200⟩ [startAt (2 ^ 32 - 10) .quiet]
    (c.record (Platform.quiet.clocked fun _ => 2 ^ 32 + 5) 0 [0x41]).2.ring.events.map
      (·.timestampUs.toNat) = [2 ^ 64 - 2 ^ 32 + 15] := by
  decide +kernel

end Capture
end TexecomBridge
