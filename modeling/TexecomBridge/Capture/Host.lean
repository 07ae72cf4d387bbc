import TexecomBridge.Capture.Lifecycle

/-!
# The host build

Off the device there is no clock, and a test may set a sink that receives the serialised bytes in
place of the store. Without a sink the host build does what the device does with its clocks at 0.
With one, in Bridge-only mode, the sink is given what the store holds otherwise.
-/

namespace TexecomBridge

/-- No clock is read: time stamps, modification times and the clocks in the names are 0. -/
def Platform.host (stack : ℕ → UInt8) : Platform := ⟨fun _ => 0, 0, 0, stack⟩

namespace Capture

def setSinkForTest (c : Capture) : Capture := { c with testSink := some [] }

/-- With a sink set, to open a file is to write its header to the sink. -/
def hostOnSessionStart (stack : ℕ → UInt8) (c : Capture) : Capture :=
  let c := { c with sessionActive := true, sessionStartUs := 0 }
  if c.mode = .none ∨ c.mode = .monitorOnly then c
  else
    match c.testSink with
    | some out =>
      let hdr := serializeHeader (captureHeader c.panelName c.baudRate 0)
      { c with
        testSink := some (out ++ hdr)
        bytesWrittenTotal := c.bytesWrittenTotal + UInt32.ofNat hdr.length }
    | none => c.openNewCapture (.host stack)

def hostOnSessionEnd (c : Capture) : Capture :=
  let c := c.flushRing .quiet
  let c := if c.testSink = none then c.closeCurrentCapture else c
  { c with sessionActive := false }

/-- The calls a host test makes. The stack matters to a banner that is too long for its buffer. -/
inductive HostOp
  | sessionStart (stack : ℕ → UInt8)
  | sessionEnd
  | record (direction : UInt8) (bytes : List UInt8)
  | loop

def hostStep (c : Capture) : HostOp → Capture
  | .sessionStart stack => c.hostOnSessionStart stack
  | .sessionEnd => c.hostOnSessionEnd
  | .record direction bytes => (c.record .quiet direction bytes).2
  | .loop => c.loop .quiet

/-- A run that fills the store. -/
def hostRun (cfg : Config) (ops : List HostOp) : Capture := ops.foldl hostStep (configured cfg)

/-- The same calls with a sink set beforehand. -/
def sinkRun (cfg : Config) (ops : List HostOp) : Capture :=
  ops.foldl hostStep (configured cfg).setSinkForTest

@[simp] lemma hostRun_concat (cfg : Config) (ops : List HostOp) (op : HostOp) :
    hostRun cfg (ops ++ [op]) = hostStep (hostRun cfg ops) op := by
  simp [hostRun]

@[simp] lemma sinkRun_concat (cfg : Config) (ops : List HostOp) (op : HostOp) :
    sinkRun cfg (ops ++ [op]) = hostStep (sinkRun cfg ops) op := by
  simp [sinkRun]

/-! ### Without a sink -/

/-- The call on a device whose clocks stand at 0. -/
def HostOp.onDevice : HostOp → Op
  | .sessionStart stack => .sessionStart (.host stack)
  | .sessionEnd => .sessionEnd .quiet
  | .record direction bytes => .record .quiet direction bytes
  | .loop => .loop .quiet

variable {c s r : Capture}

lemma hostOnSessionStart_of_no_sink (hsink : c.testSink = none) (stack : ℕ → UInt8) :
    c.hostOnSessionStart stack = c.onSessionStart (.host stack) := by
  have hmicros : ((Platform.host stack).micros 0).toUInt64 = 0 := rfl
  cases hmode : c.mode <;> simp [hostOnSessionStart, onSessionStart, hmode, hsink, hmicros]

lemma Inv.hostStep_eq (h : c.Inv) (op : HostOp) : hostStep c op = Capture.step c op.onDevice := by
  cases op with
  | sessionStart stack => exact hostOnSessionStart_of_no_sink h.sink stack
  | sessionEnd =>
    have hsink := (h.flushRing .quiet).sink
    simp only [hostStep, hostOnSessionEnd, if_pos hsink]
    rfl
  | record direction bytes => rfl
  | loop => rfl

/-- Without a sink a host run is a run of the device. -/
lemma hostRun_eq_run (cfg : Config) (ops : List HostOp) :
    hostRun cfg ops = run cfg (ops.map HostOp.onDevice) := by
  induction ops using List.reverseRecOn with
  | nil => rfl
  | append_singleton ops op ih =>
    rw [hostRun_concat, List.map_append, List.map_singleton, run_concat, ih,
      (inv_run cfg _).hostStep_eq]

/-! ### With a sink -/

/-- The `.bin` captures of a list of pairs, newest pair first, one after the other in the order
they were created. -/
def binStream (ps : List CapturePair) : List UInt8 := ps.reverse.flatMap (·.bin.bytes)

@[simp] lemma binStream_cons (q : CapturePair) (ps : List CapturePair) :
    binStream (q :: ps) = binStream ps ++ q.bin.bytes := by
  simp [binStream, List.flatMap_append]

/-- The sink was given what the archive of the other run holds, and the two runs agree on what
decides how they go on. -/
structure Mirrors (s r : Capture) : Prop where
  config : s.config = r.config
  active : s.sessionActive = r.sessionActive
  startUs : s.sessionStartUs = r.sessionStartUs
  drops : s.drops = r.drops
  events : s.ring.events = r.ring.events
  sink : s.testSink = some (binStream (archive r.history))

lemma mirrors_configured (cfg : Config) : (configured cfg).setSinkForTest.Mirrors (configured cfg) :=
  ⟨rfl, rfl, rfl, rfl, rfl, rfl⟩

lemma Mirrors.mode (h : s.Mirrors r) : s.mode = r.mode := by
  have hmode := congrArg Config.mode h.config
  exact hmode

lemma Mirrors.size (h : s.Mirrors r) : s.ring.size = r.ring.size := by
  rw [← EventRing.length_events, h.events, EventRing.length_events]

/-- Every write goes to the sink. -/
lemma writeEvents_of_sink {out : List UInt8} (hsink : c.testSink = some out) (p : Platform)
    (es : List Event) : ∃ written, c.writeEvents p es = { c with
      testSink := some (out ++ es.flatMap Event.serialize), bytesWrittenTotal := written } := by
  induction es generalizing c out with
  | nil => exact ⟨c.bytesWrittenTotal, by simp [← hsink]⟩
  | cons e es ih =>
    have hwrite : c.writeBytes p e.serialize = { c with
        testSink := some (out ++ e.serialize)
        bytesWrittenTotal := c.bytesWrittenTotal + UInt32.ofNat e.serialize.length } := by
      simp only [writeBytes, hsink]
    obtain ⟨written, hrest⟩ := ih (c := c.writeBytes p e.serialize) (by rw [hwrite])
    refine ⟨written, ?_⟩
    rw [writeEvents_cons, hrest, hwrite, List.flatMap_cons, List.append_assoc]

/-- A new pair has nothing in its `.bin` but the header the sink is given. -/
lemma Mirrors.sessionStart (h : s.Mirrors r) (hmode : r.mode.opens) (stack : ℕ → UInt8) :
    (s.hostOnSessionStart stack).Mirrors (r.onSessionStart (.host stack)) := by
  have harchive := archive_openNewCapture (.host stack) (r.started (.host stack))
  have hmicros : ((Platform.host stack).micros 0).toUInt64 = 0 := rfl
  have hpanel := congrArg Config.panelName h.config
  have hbaud := congrArg Config.baudRate h.config
  have hmode' : ¬ (s.mode = .none ∨ s.mode = .monitorOnly) := by
    rw [h.mode]
    obtain hmode | hmode := hmode <;> simp [hmode]
  have hstart : s.hostOnSessionStart stack = { s with
      sessionActive := true
      sessionStartUs := 0
      testSink := some (binStream (archive r.history) ++
        serializeHeader (captureHeader r.panelName r.baudRate 0))
      bytesWrittenTotal := s.bytesWrittenTotal +
        UInt32.ofNat (serializeHeader (captureHeader r.panelName r.baudRate 0)).length } := by
    simp only [Capture.config] at hpanel hbaud
    simp only [hostOnSessionStart, if_neg hmode', h.sink, hpanel, hbaud]
  rw [onSessionStart_of_opens hmode, hstart]
  obtain ⟨_, _, _, _, hframe⟩ := openNewCapture_frame (.host stack) (r.started (.host stack))
  rw [hframe] at harchive ⊢
  refine ⟨h.config, rfl, hmicros.symm, h.drops, h.events, ?_⟩
  rw [harchive, binStream_cons]
  rfl

lemma Mirrors.enqueueEvent (h : s.Mirrors r) (p : Platform) (direction : UInt8)
    (bytes : List UInt8) :
    (s.enqueueEvent p direction bytes).Mirrors (r.enqueueEvent p direction bytes) := by
  have hevents : (s.enqueueEvent p direction bytes).ring.events
      = (r.enqueueEvent p direction bytes).ring.events := by
    rw [events_enqueueEvent, events_enqueueEvent, h.events, h.startUs, h.size]
  have hdrops : (s.enqueueEvent p direction bytes).drops
      = (r.enqueueEvent p direction bytes).drops := by
    rw [drops_enqueueEvent, drops_enqueueEvent, h.drops, h.startUs, h.size]
  obtain ⟨_, _, _, hs⟩ := enqueueEvent_frame p direction bytes s
  obtain ⟨_, _, _, hr⟩ := enqueueEvent_frame p direction bytes r
  rw [hs, hr] at hevents hdrops ⊢
  exact ⟨h.config, h.active, h.startUs, hdrops, hevents, h.sink⟩

/-- `record()` looks at nothing in which the two runs differ. -/
lemma Mirrors.record (h : s.Mirrors r) (p : Platform) (direction : UInt8) (bytes : List UInt8) :
    (s.record p direction bytes).1 = (r.record p direction bytes).1 ∧
      (s.record p direction bytes).2.Mirrors (r.record p direction bytes).2 := by
  simp only [Capture.record, h.mode, h.active]
  split_ifs
  · exact ⟨rfl, h⟩
  · exact ⟨rfl, h⟩
  · exact ⟨rfl, h⟩
  · exact ⟨rfl, h⟩
  · exact ⟨rfl, h⟩
  · exact ⟨rfl, h.enqueueEvent p direction bytes⟩

/-- What a flush gives the sink, it appends to the live `.bin` in the other run. There is one
whenever anything is queued. -/
lemma Mirrors.flushRing (h : s.Mirrors r) (hr : r.Inv)
    (hlive : ¬ r.isLive → r.ring.events = []) (p : Platform) :
    (s.flushRing p).Mirrors (r.flushRing p) := by
  have hq : ∀ e ∈ s.ring.events, e.Queueable := by
    rw [h.events]
    exact hr.queued
  obtain ⟨ring, hring, hs⟩ := flushRing_eq p hq
  obtain ⟨written, hwrites⟩ := writeEvents_of_sink h.sink p s.ring.events
  obtain ⟨_, _, _, _, _, ring', hring', hframe⟩ := hr.flushRing_frame p
  have hstream : (r.flushRing p).drops = r.drops ∧ binStream (archive (r.flushRing p).history)
      = binStream (archive r.history) ++ r.ring.events.flatMap Event.serialize := by
    by_cases hc : r.isLive
    · obtain ⟨q, older, harchive, -, -⟩ := hr.exists_live hc
      obtain ⟨hdrops, harchive'⟩ := hr.flushRing_of_isLive hc p harchive
      refine ⟨hdrops, ?_⟩
      rw [harchive', harchive, binStream_cons, binStream_cons, CapturePair.bin_extendEvents,
        List.append_assoc]
    · obtain ⟨_, -, hflush⟩ := hr.flushRing_of_not_isLive hc p
      rw [hflush, hlive hc]
      simp
  rw [hs, hwrites]
  rw [hframe] at hstream ⊢
  obtain ⟨hdrops, hstream⟩ := hstream
  refine ⟨h.config, h.active, h.startUs, ?_, hring.trans hring'.symm, ?_⟩
  · simp only at hdrops ⊢
    rw [h.drops, hdrops]
  · simp only at hstream ⊢
    rw [hstream, h.events]

lemma Mirrors.sessionEnd (h : s.Mirrors r) (hr : r.Inv)
    (hlive : ¬ r.isLive → r.ring.events = []) :
    s.hostOnSessionEnd.Mirrors (r.onSessionEnd .quiet) := by
  have hflush := h.flushRing hr hlive .quiet
  have hsink : ¬ (s.flushRing .quiet).testSink = none := by
    rw [hflush.sink]
    exact Option.some_ne_none _
  obtain ⟨_, _, hclose⟩ := closeCurrentCapture_frame (r.flushRing .quiet)
  simp only [hostOnSessionEnd, if_neg hsink, Capture.onSessionEnd]
  rw [hclose]
  exact ⟨hflush.config, rfl, hflush.startUs, hflush.drops, hflush.events, hflush.sink⟩

/-! ### Bridge-only mode -/

/-- In Bridge-only mode nothing is queued while nothing is live. -/
def Idle (c : Capture) : Prop := c.mode = .bridgeOnly ∧ (¬ c.isLive → c.ring.events = [])

lemma Inv.idle_step (h : c.Inv) (hidle : c.Idle) (op : Op) : (Capture.step c op).Idle := by
  have hcfg := congrArg Config.mode (h.config_step op)
  refine ⟨hcfg.trans hidle.1, ?_⟩
  cases op with
  | sessionStart p =>
    intro hdead
    rw [Capture.step, onSessionStart_of_opens (Or.inl hidle.1)] at hdead
    exact absurd (isLive_openNewCapture p _) hdead
  | sessionEnd p =>
    intro _
    obtain ⟨_, _, _, _, _, ring, hring, hframe⟩ := h.onSessionEnd_frame p
    rw [Capture.step, hframe]
    exact hring
  | record p direction bytes =>
    intro hdead
    obtain ⟨_, _, _, hframe⟩ := record_frame p direction bytes c
    have hdead' : ¬ c.isLive := by
      rw [Capture.step, hframe] at hdead
      exact hdead
    have hinactive : ¬ c.sessionActive = true := fun hactive =>
      hdead' (h.isLive_iff.mpr ⟨hactive, Or.inl hidle.1⟩)
    have hrecord : (c.record p direction bytes).2 = c := by
      simp only [Capture.record, hidle.1]
      split_ifs <;> simp_all
    rw [Capture.step, hrecord]
    exact hidle.2 hdead'
  | loop p =>
    intro _
    obtain ⟨_, _, _, _, _, ring, hring, hframe⟩ := h.flushRing_frame p
    rw [Capture.step, loop_eq_flushRing, hframe]
    exact hring

/-- One call, made in both runs. -/
lemma Mirrors.step (h : s.Mirrors r) (hr : r.Inv) (hidle : r.Idle) (op : HostOp) :
    (hostStep s op).Mirrors (hostStep r op) := by
  rw [hr.hostStep_eq]
  cases op with
  | sessionStart stack => exact h.sessionStart (Or.inl hidle.1) stack
  | sessionEnd => exact h.sessionEnd hr hidle.2
  | record direction bytes => exact (h.record .quiet direction bytes).2
  | loop =>
    simp only [hostStep, HostOp.onDevice, Capture.step, loop_eq_flushRing]
    exact h.flushRing hr hidle.2 .quiet

lemma inv_hostRun (cfg : Config) (ops : List HostOp) : (hostRun cfg ops).Inv := by
  rw [hostRun_eq_run]
  exact inv_run cfg _

/-- The same calls, made in both runs. -/
lemma mirrors_run {cfg : Config} (hmode : cfg.mode = .bridgeOnly) (ops : List HostOp) :
    (sinkRun cfg ops).Mirrors (hostRun cfg ops) ∧ (hostRun cfg ops).Idle := by
  induction ops using List.reverseRecOn with
  | nil => exact ⟨mirrors_configured cfg, hmode, fun _ => rfl⟩
  | append_singleton ops op ih =>
    obtain ⟨h, hidle⟩ := ih
    have hr := inv_hostRun cfg ops
    rw [sinkRun_concat, hostRun_concat]
    refine ⟨h.step hr hidle op, ?_⟩
    rw [hr.hostStep_eq]
    exact hr.idle_step hidle _

/-- The captures that are not text are the `.bin` captures. -/
lemma flatMap_bin_files {ps : List CapturePair}
    (htext : ∀ q ∈ ps, q.bin.isText = false ∧ q.txt.isText = true) :
    ((files ps).filter (!·.isText)).flatMap (·.bytes) = binStream ps := by
  induction ps with
  | nil => rfl
  | cons q ps ih =>
    obtain ⟨hbin, htxt⟩ := htext q List.mem_cons_self
    have hrest := ih fun q' hq' => htext q' (List.mem_cons_of_mem _ hq')
    rw [files, List.filter_append, List.flatMap_append, hrest, binStream_cons]
    simp [hbin, htxt]

/-- In Bridge-only mode, after any calls: with a sink and without one the drop counters agree, and
so do the results of whatever `record()` comes next; and if the budget has never been exceeded, so
that nothing was evicted, the sink was given the `.bin` captures of the store, one after the other
in the order they were created. -/
theorem sink_shows_store (panelName : List UInt8) (maxTotalBytes : ℕ) (baudRate : UInt32)
    (ops : List HostOp) :
    let cfg : Config := ⟨.bridgeOnly, panelName, maxTotalBytes, baudRate⟩
    let ram := hostRun cfg ops
    let sink := sinkRun cfg ops
    sink.drops = ram.drops ∧
    (∀ (direction : UInt8) (bytes : List UInt8),
      (sink.record .quiet direction bytes).1 = (ram.record .quiet direction bytes).1) ∧
    (evictions ram.history = 0 → sink.testSink
      = some ((ram.store.captures.filter (!·.isText)).flatMap (·.bytes))) := by
  intro cfg ram sink
  obtain ⟨h, -⟩ := mirrors_run (rfl : cfg.mode = .bridgeOnly) ops
  have hr : ram.Inv := inv_hostRun cfg ops
  refine ⟨h.drops, fun direction bytes => (h.record .quiet direction bytes).1, fun hnone => ?_⟩
  have htext : ∀ q ∈ archive ram.history, q.bin.isText = false ∧ q.txt.isText = true := by
    intro q hq
    obtain ⟨es, hes⟩ := hr.contents q hq
    exact hes.isText
  have hcaptures := hr.shelves.captures_eq
  rw [hnone, List.drop_zero] at hcaptures
  rw [hcaptures, flatMap_bin_files htext]
  exact h.sink

/-- A session with one batch each way, and a second one that ends at once. -/
theorem sink_shows_store_two_sessions :
    let cfg : Config := ⟨.bridgeOnly, ascii "Premier 24", 131072, 19200⟩
    let ops : List HostOp := [.sessionStart fun _ => 0, .record 0 [0x10, 0x20, 0x30],
      .record 1 [0xA1, 0xA2], .sessionEnd, .sessionStart fun _ => 0, .sessionEnd]
    (sinkRun cfg ops).testSink
      = some (((hostRun cfg ops).store.captures.filter (!·.isText)).flatMap (·.bytes)) := by
  intro cfg ops
  obtain ⟨-, -, hsink⟩ := sink_shows_store (ascii "Premier 24") 131072 19200 ops
  apply hsink
  decide +kernel

end Capture
end TexecomBridge
