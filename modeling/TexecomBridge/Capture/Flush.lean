import TexecomBridge.Capture.EventRing

/-!
# Flushing

A flush writes every queued event, in order. With a live pair they end up at the end of that pair
and nothing else changes in the archive; with none, each is counted as a drop and nothing is stored.
-/

namespace TexecomBridge

/-! ### The contents of a pair -/

/-- `q` was opened with these settings, and then exactly the events `es` were written to it. -/
inductive CapturePair.Holds (cfg : Capture.Config) : CapturePair → List Event → Prop
  | opened (c : Capture) (hcfg : c.config = cfg) (p : Platform) :
    Holds cfg ⟨Capture.newBin p c, Capture.newTxt p c⟩ []
  | wrote {q : CapturePair} {es : List Event} {e : Event} (hq : Holds cfg q es)
      (he : e.Queueable) (ms : UInt32) : Holds cfg (q.extend e.serialize ms) (es ++ [e])

namespace CapturePair.Holds

variable {cfg : Capture.Config} {q : CapturePair} {es : List Event}

lemma queueable (h : q.Holds cfg es) : ∀ e ∈ es, e.Queueable := by
  induction h with
  | opened c hcfg p => simp
  | wrote hq he ms ih =>
    intro e' he'
    rcases List.mem_append.mp he' with he' | he'
    · exact ih e' he'
    · rw [List.mem_singleton.mp he']
      exact he

lemma isText (h : q.Holds cfg es) : q.bin.isText = false ∧ q.txt.isText = true := by
  induction h with
  | opened c hcfg p => exact ⟨rfl, rfl⟩
  | wrote hq he ms ih => exact ih

/-- The `.bin` is the header followed by the events. -/
lemma bin_eq (h : q.Holds cfg es) : ∃ nowUnix,
    q.bin.bytes = serializeCapture (Capture.captureHeader cfg.panelName cfg.baudRate nowUnix) es := by
  induction h with
  | opened c hcfg p =>
    subst hcfg
    exact ⟨Capture.Platform.nowUnix p, by simp [serializeCapture, Capture.newBin, Capture.config]⟩
  | wrote hq he ms ih =>
    obtain ⟨nowUnix, ih⟩ := ih
    refine ⟨nowUnix, ?_⟩
    simp [CapturePair.extend, RamCapture.append, ih, serializeCapture, List.flatMap_append]

end CapturePair.Holds

/-- The pair after a flush of `es`. -/
def CapturePair.extendEvents (es : List Event) (ms : UInt32) (q : CapturePair) : CapturePair :=
  es.foldl (fun q e => q.extend e.serialize ms) q

lemma CapturePair.Holds.extendEvents {cfg : Capture.Config} {q : CapturePair} {es₀ : List Event}
    (hq : q.Holds cfg es₀) {es : List Event} (hes : ∀ e ∈ es, e.Queueable) (ms : UInt32) :
    (q.extendEvents es ms).Holds cfg (es₀ ++ es) := by
  induction es generalizing q es₀ with
  | nil => simpa [CapturePair.extendEvents] using hq
  | cons e es ih =>
    have hq' := hq.wrote (hes e List.mem_cons_self) ms
    have := ih hq' fun e' he' => hes e' (List.mem_cons_of_mem _ he')
    simpa [CapturePair.extendEvents] using this

lemma CapturePair.bin_extendEvents (es : List Event) (ms : UInt32) (q : CapturePair) :
    (q.extendEvents es ms).bin.bytes = q.bin.bytes ++ es.flatMap Event.serialize := by
  induction es generalizing q with
  | nil => simp [CapturePair.extendEvents]
  | cons e es ih =>
    have := ih (q.extend e.serialize ms)
    simpa [CapturePair.extendEvents, CapturePair.extend, RamCapture.append] using this

/-- Reading the `.bin` from start to end gives the events, those of a further flush included. -/
lemma CapturePair.Holds.parseCapture_extendEvents {cfg : Capture.Config} {q : CapturePair}
    {es : List Event} (hq : q.Holds cfg es) : ∃ hdr, ∀ es' : List Event,
      (∀ e ∈ es', e.Queueable) → ∀ ms,
        parseCapture (q.extendEvents es' ms).bin.bytes = some (hdr, es ++ es') := by
  obtain ⟨nowUnix, hbin⟩ := hq.bin_eq
  refine ⟨Capture.captureHeader cfg.panelName cfg.baudRate nowUnix, fun es' hes' ms => ?_⟩
  have hbytes : (q.extendEvents es' ms).bin.bytes = serializeCapture
      (Capture.captureHeader cfg.panelName cfg.baudRate nowUnix) (es ++ es') := by
    rw [CapturePair.bin_extendEvents, hbin, serializeCapture, serializeCapture, List.flatMap_append,
      List.append_assoc]
  rw [hbytes]
  apply parseCapture_serializeCapture rfl
  intro e he
  rcases List.mem_append.mp he with he | he
  · exact (hq.queueable e he).valid
  · exact (hes' e he).valid

/-- Reading the `.bin` from start to end gives the events. -/
lemma CapturePair.Holds.parseCapture_eq {cfg : Capture.Config} {q : CapturePair} {es : List Event}
    (hq : q.Holds cfg es) : ∃ hdr, parseCapture q.bin.bytes = some (hdr, es) := by
  obtain ⟨hdr, h⟩ := hq.parseCapture_extendEvents
  have hnil := h [] (by simp) 0
  rw [List.append_nil] at hnil
  exact ⟨hdr, hnil⟩

namespace Capture

/-! ### Writing a list of events -/

/-- The writes of one flush. -/
def writeEvents (p : Platform) (es : List Event) (c : Capture) : Capture :=
  es.foldl (fun c e => c.writeBytes p e.serialize) c

@[simp] lemma writeEvents_nil (p : Platform) (c : Capture) : c.writeEvents p [] = c := rfl

@[simp] lemma writeEvents_cons (p : Platform) (e : Event) (es : List Event) (c : Capture) :
    c.writeEvents p (e :: es) = (c.writeBytes p e.serialize).writeEvents p es := rfl

variable {c : Capture} {p : Platform} {es : List Event}

/-- Writes leave alone everything but the store, its history and the counters. -/
lemma writeEvents_frame (hsink : c.testSink = none) (p : Platform) (es : List Event) :
    ∃ store warn history written drops, c.writeEvents p es = { c with
      store := store, budgetWarnEmitted := warn, history := history
      bytesWrittenTotal := written, drops := drops } := by
  induction es generalizing c with
  | nil => exact ⟨_, _, _, _, _, rfl⟩
  | cons e es ih =>
    obtain ⟨_, _, _, _, hwrite⟩ := writeBytes_frame hsink p e.serialize
    have hsink' : (c.writeBytes p e.serialize).testSink = none := by
      rw [hwrite]
      exact hsink
    obtain ⟨_, _, _, _, _, hrest⟩ := ih hsink'
    rw [writeEvents_cons, hrest, hwrite]
    exact ⟨_, _, _, _, _, rfl⟩

lemma config_writeBytes (hsink : c.testSink = none) (p : Platform) (bytes : List UInt8) :
    (c.writeBytes p bytes).config = c.config := by
  obtain ⟨_, _, _, _, h⟩ := writeBytes_frame hsink p bytes
  rw [h]
  rfl

lemma testSink_writeBytes (hsink : c.testSink = none) (p : Platform) (bytes : List UInt8) :
    (c.writeBytes p bytes).testSink = none := by
  obtain ⟨_, _, _, _, h⟩ := writeBytes_frame hsink p bytes
  rw [h]
  exact hsink

lemma drops_writeBytes (hsink : c.testSink = none) (hlive : c.isLive) (p : Platform)
    (bytes : List UInt8) : (c.writeBytes p bytes).drops = c.drops := by
  obtain ⟨_, _, _, _, h⟩ := writeBytes_frame hsink p bytes
  rw [h]
  exact if_neg (not_lt.mpr hlive)

lemma StoreInv.writeEvents (h : c.StoreInv) (hsink : c.testSink = none) (p : Platform)
    (hes : ∀ e ∈ es, e.Queueable) : (c.writeEvents p es).StoreInv := by
  induction es generalizing c with
  | nil => exact h
  | cons e es ih =>
    have he := (hes e List.mem_cons_self).serialize_ne
    exact ih (h.writeBytes hsink p he) (testSink_writeBytes hsink p _)
      fun e' he' => hes e' (List.mem_cons_of_mem _ he')

@[simp] lemma isLive_writeEvents (p : Platform) (es : List Event) (c : Capture) :
    (c.writeEvents p es).isLive ↔ c.isLive := by
  induction es generalizing c with
  | nil => rfl
  | cons e es ih => rw [writeEvents_cons, ih, isLive_writeBytes]

lemma drops_writeEvents (hsink : c.testSink = none) (hlive : c.isLive) (p : Platform)
    (es : List Event) : (c.writeEvents p es).drops = c.drops := by
  induction es generalizing c with
  | nil => rfl
  | cons e es ih =>
    rw [writeEvents_cons, ih (testSink_writeBytes hsink p _) ((isLive_writeBytes p _ c).mpr hlive),
      drops_writeBytes hsink hlive]

/-- With nothing live, each event is one more drop and that is all. -/
lemma writeEvents_of_not_isLive (hsink : c.testSink = none) (hlive : ¬ c.isLive) (p : Platform)
    (es : List Event) :
    c.writeEvents p es = { c with drops := c.drops + UInt32.ofNat es.length } := by
  induction es generalizing c with
  | nil => simp
  | cons e es ih =>
    have hrest := @ih { c with drops := c.drops + 1 } hsink hlive
    rw [writeEvents_cons, writeBytes_of_not_isLive hsink hlive, hrest, List.length_cons,
      UInt32.ofNat_add, UInt32.add_comm (UInt32.ofNat es.length), UInt32.add_assoc]
    rfl

/-- With a live pair, the events go to the newest pair of the archive. -/
lemma archive_writeEvents (hsink : c.testSink = none) (hlive : c.isLive) (p : Platform)
    (es : List Event) {q : CapturePair} {older : List CapturePair}
    (harchive : archive c.history = q :: older) :
    archive (c.writeEvents p es).history = q.extendEvents es p.millis :: older := by
  induction es generalizing c q with
  | nil => exact harchive
  | cons e es ih =>
    have hwrite : archive (c.writeBytes p e.serialize).history
        = q.extend e.serialize p.millis :: older := by
      rw [archive_writeBytes_of_isLive hsink hlive, harchive]
      rfl
    exact ih (testSink_writeBytes hsink p _) ((isLive_writeBytes p _ c).mpr hlive) hwrite

/-- The budget is met after the last write, or only the live pair is left. -/
lemma settled_writeEvents (h : c.StoreInv) (hsink : c.testSink = none) (hlive : c.isLive)
    (hsettled : c.store.Settled c.maxTotalBytes) (p : Platform) (hes : ∀ e ∈ es, e.Queueable) :
    (c.writeEvents p es).store.Settled c.maxTotalBytes := by
  induction es generalizing c with
  | nil => exact hsettled
  | cons e es ih =>
    have he := (hes e List.mem_cons_self).serialize_ne
    have hmax := congrArg Config.maxTotalBytes (config_writeBytes hsink p e.serialize)
    simp only [config] at hmax
    have hfirst := settled_writeBytes h hsink hlive p he
    rw [← hmax] at hfirst ⊢
    exact ih (h.writeBytes hsink p he) (testSink_writeBytes hsink p _)
      ((isLive_writeBytes p _ c).mpr hlive) hfirst fun e' he' => hes e' (List.mem_cons_of_mem _ he')

/-! ### The flush loop -/

/-- Enforcing the budget does not look at the event ring. -/
lemma enforceBudget_setRing (c : Capture) (r : EventRing) :
    enforceBudget { c with ring := r } = { c.enforceBudget with ring := r } := by
  fun_induction enforceBudget c with
  | case1 c hover hv =>
    rw [enforceBudget, if_pos hover]
    split
    · rfl
    · simp_all
  | case2 c hover v hv ih =>
    rw [enforceBudget, if_pos hover]
    split
    · simp_all
    · rename_i v' hv'
      obtain rfl : v' = v := by simpa [hv'] using hv
      exact ih
  | case3 c hover => rw [enforceBudget, if_neg hover]

lemma appendToLive_setRing (p : Platform) (bytes : List UInt8) (c : Capture) (r : EventRing) :
    appendToLive p bytes { c with ring := r } = { c.appendToLive p bytes with ring := r } := rfl

lemma writeBytes_setRing (p : Platform) (bytes : List UInt8) (c : Capture) (r : EventRing) :
    writeBytes p bytes { c with ring := r } = { c.writeBytes p bytes with ring := r } := by
  by_cases hsink : c.testSink = none
  · by_cases hlive : c.isLive
    · rw [writeBytes_of_isLive hsink hlive, writeBytes_of_isLive (by exact hsink) (by exact hlive),
        appendToLive_setRing, enforceBudget_setRing]
    · rw [writeBytes_of_not_isLive hsink hlive,
        writeBytes_of_not_isLive (by exact hsink) (by exact hlive)]
  · obtain ⟨out, hout⟩ := Option.ne_none_iff_exists'.mp hsink
    simp only [writeBytes, hout]

lemma writeEvents_setRing (p : Platform) (es : List Event) (c : Capture) (r : EventRing) :
    writeEvents p es { c with ring := r } = { c.writeEvents p es with ring := r } := by
  induction es generalizing c with
  | nil => rfl
  | cons e es ih => rw [writeEvents_cons, writeBytes_setRing, ih, writeEvents_cons]

lemma ring_writeBytes (p : Platform) (bytes : List UInt8) (c : Capture) :
    (c.writeBytes p bytes).ring = c.ring := by
  have hring := congrArg Capture.ring (writeBytes_setRing p bytes c c.ring)
  exact hring

/-- One round takes one event off the ring. -/
lemma size_flushOne (p : Platform) (c : Capture) : (flushOne p c).ring.size = c.ring.size - 1 := by
  unfold flushOne
  cases hfront : c.ring.front? with
  | none =>
    have hsize : c.ring.size = 0 := by
      by_contra hne
      simp [Circular.front?, hne] at hfront
    rw [hsize]
  | some e =>
    simp only
    rw [Circular.size_dropFront]
    split_ifs
    · rw [ring_writeBytes]
    · rfl

/-- The loop stops when the ring is empty, not before and not after. -/
lemma size_iterate_flushOne (p : Platform) (k : ℕ) (c : Capture) :
    ((flushOne p)^[k] c).ring.size = c.ring.size - k := by
  induction k generalizing c with
  | zero => rfl
  | succ k ih =>
    rw [Function.iterate_succ_apply, ih, size_flushOne]
    omega

lemma size_flushRing (p : Platform) (c : Capture) : (c.flushRing p).ring.size = 0 := by
  rw [flushRing, size_iterate_flushOne, Nat.sub_self]

/-- A flush is the writes of the queued events, and empties the ring. -/
lemma flushRing_eq (p : Platform) (hq : ∀ e ∈ c.ring.events, e.Queueable) :
    ∃ r : EventRing, r.events = [] ∧
      c.flushRing p = { c.writeEvents p c.ring.events with ring := r } := by
  induction hevents : c.ring.events generalizing c with
  | nil =>
    refine ⟨c.ring, hevents, ?_⟩
    rw [flushRing, EventRing.events_eq_nil_iff.mp hevents]
    simp
  | cons e es ih =>
    have hsize : c.ring.size = es.length + 1 := by
      rw [← EventRing.length_events, hevents, List.length_cons]
    obtain ⟨pe, pes, hlist⟩ : ∃ pe pes, c.ring.toList = pe :: pes :=
      List.exists_cons_of_ne_nil fun h => by simp [EventRing.events, h] at hevents
    rw [EventRing.events, hlist, List.map_cons, List.cons.injEq] at hevents
    obtain ⟨he, hes⟩ := hevents
    have hfront : c.ring.front? = some pe := by
      rw [Circular.front?_eq_head?, hlist, List.head?_cons]
    have hrest : EventRing.events c.ring.dropFront = es := by
      rw [EventRing.events_dropFront, EventRing.events, hlist, List.map_cons, List.tail_cons, hes]
    have hmem : ∀ e' ∈ e :: es, e' ∈ c.ring.events := by
      intro e' he'
      rwa [EventRing.events, hlist, List.map_cons, he, hes]
    have hserialize : PendingEvent.serialize pe = e.serialize := by
      rw [← he]
      rfl
    have hout : e.serialize.length > 0 :=
      List.length_pos_iff.mpr (hq e (hmem e List.mem_cons_self)).serialize_ne
    have hone : flushOne p c = { c.writeBytes p e.serialize with ring := c.ring.dropFront } := by
      unfold flushOne
      rw [hfront]
      simp only [hserialize, if_pos hout, ring_writeBytes]
    have hflush : c.flushRing p = (flushOne p c).flushRing p := by
      have hsize' : (flushOne p c).ring.size = es.length := by
        rw [hone, ← hrest, EventRing.length_events]
      rw [flushRing, flushRing, hsize, hsize', Function.iterate_succ_apply]
    obtain ⟨r, hr, ih⟩ := @ih (flushOne p c)
      (by
        intro e' he'
        rw [hone, hrest] at he'
        exact hq e' (hmem e' (List.mem_cons_of_mem _ he')))
      (by rw [hone, hrest])
    refine ⟨r, hr, ?_⟩
    rw [hflush, ih, hone, writeEvents_setRing, writeEvents_cons]

end Capture
end TexecomBridge
