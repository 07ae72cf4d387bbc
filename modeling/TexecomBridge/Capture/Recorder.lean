import TexecomBridge.Capture.Lifecycle
import TexecomBridge.Library.Lists

/-!
# What the sink is for

Seen from outside the sink is a recorder: one take for each session, a bounded list of events that
wait to be added to it, and a count of what was lost. The ring, the byte format, the store and its
eviction are how this is done, and a `.bin` that is still stored reads back as its take.
-/

namespace TexecomBridge

/-! ### The recorder -/

/-- `takes` are the events of each session that is recorded, newest first. -/
structure Recorder where
  active : Bool
  startUs : UInt64
  takes : List (List Event)
  pending : List Event
  lost : UInt32

namespace Recorder

def init : Recorder := ⟨false, 0, [], [], 0⟩

/-- Which pushes a mode lets through. -/
def listens (m : Mode) (direction : UInt8) (bytes : List UInt8) (r : Recorder) : Bool :=
  direction ≤ 1 && bytes ≠ [] &&
    match m with
    | .none => false
    | .bridgeOnly => r.active
    | .monitorOnly => !r.active
    | .both => true

/-- A push comes in events of at most 256 bytes, each with the time since the session began. As many
as there is room for wait; when some do not, the push counts as one loss. -/
def push (p : Platform) (direction : UInt8) (bytes : List UInt8) (r : Recorder) : Recorder :=
  let es := Capture.chunkEvents p r.startUs direction bytes 0
  let room := kCaptureRingEvents - r.pending.length
  { r with
    pending := r.pending ++ es.take room
    lost := if es.length ≤ room then r.lost else r.lost + 1 }

/-- What waits goes to the take that is being recorded; without one, each event is a loss. -/
def flush (m : Mode) (r : Recorder) : Recorder :=
  if r.active = true ∧ m.opens then
    { r with takes := r.takes.modifyHead (· ++ r.pending), pending := [] }
  else { r with lost := r.lost + UInt32.ofNat r.pending.length, pending := [] }

def step (m : Mode) (r : Recorder) : Capture.Op → Recorder
  | .sessionStart p =>
    { r with
      active := true
      startUs := (p.micros 0).toUInt64
      takes := if m.opens then [] :: r.takes else r.takes }
  | .sessionEnd _ => { r.flush m with active := false }
  | .record p direction bytes =>
    if r.listens m direction bytes then r.push p direction bytes else r
  | .loop _ => r.flush m

def run (m : Mode) (ops : List Capture.Op) : Recorder := ops.foldl (step m) init

end Recorder

/-! ### The end of the store -/

/-- The `j`-th newest pair is found from the end of the store, if its `.bin` is still there. -/
lemma Store.Shelves.getElem?_bin {s : Store} {ps : List CapturePair} {n j : ℕ} (h : s.Shelves ps n)
    {q : CapturePair} (hq : ps[j]? = some q)
    (hj : 2 * (j + 1) ≤ s.captures.length) :
    s.captures[s.captures.length - 2 * (j + 1)]? = some q.bin := by
  obtain ⟨hlt, -⟩ := List.getElem?_eq_some_iff.mp hq
  have hlength : s.captures.length = 2 * ps.length - n := by
    rw [h.captures_eq, List.length_drop, length_files]
  have hn := h.le_length
  rw [length_files] at hn
  have hindex : n + (s.captures.length - 2 * (j + 1)) = 2 * (ps.length - 1 - j) := by omega
  have hrev : ps.reverse[ps.length - 1 - j]? = some q := by
    rw [List.getElem?_reverse (by omega), ← hq]
    congr 1
    omega
  rw [hlength] at hindex ⊢
  rw [h.captures_eq, List.getElem?_drop, hindex, (getElem?_files ps _).1, hrev]
  rfl

/-! ### The sink is one -/

namespace Capture

/-- The sink does what the recorder `r` does. -/
structure Tracks (c : Capture) (r : Recorder) : Prop where
  active : c.sessionActive = r.active
  startUs : c.sessionStartUs = r.startUs
  takes : List.Forall₂ (CapturePair.Holds c.config) (archive c.history) r.takes
  pending : c.ring.events = r.pending
  lost : c.drops = r.lost

variable {c : Capture} {r : Recorder}

lemma record_eq (h : c.sessionActive = r.active) (p : Platform) (direction : UInt8)
    (bytes : List UInt8) : c.record p direction bytes =
      if r.listens c.mode direction bytes then (true, c.enqueueEvent p direction bytes)
      else (false, c) := by
  unfold record Recorder.listens
  rw [← h]
  by_cases hdir : direction ≤ 1
  · by_cases hb : bytes = []
    · simp [hb]
    · cases hmode : c.mode <;> cases hactive : c.sessionActive <;> simp [hdir, hb]
  · have hout : direction > 1 := UInt8.not_le.mp hdir
    simp [hdir, hout]

lemma Tracks.sessionStart (h : c.Tracks r) (p : Platform) :
    (c.onSessionStart p).Tracks (r.step c.mode (.sessionStart p)) := by
  obtain ⟨store, warn, history, seq, hframe⟩ := onSessionStart_frame p c
  have htakes : List.Forall₂ (CapturePair.Holds c.config) (archive (c.onSessionStart p).history)
      (if c.mode.opens then [] :: r.takes else r.takes) := by
    by_cases hmode : c.mode.opens
    · obtain ⟨q, harchive, hq⟩ := archive_onSessionStart hmode p
      rw [harchive, if_pos hmode]
      exact .cons hq h.takes
    · rw [onSessionStart_of_not_opens hmode, if_neg hmode]
      exact h.takes
  rw [hframe] at htakes ⊢
  exact ⟨rfl, rfl, htakes, h.pending, h.lost⟩

lemma Tracks.push (h : c.Tracks r) (p : Platform) (direction : UInt8) (bytes : List UInt8) :
    (c.enqueueEvent p direction bytes).Tracks (r.push p direction bytes) := by
  have hevents := events_enqueueEvent p direction bytes c
  have hdrops := drops_enqueueEvent p direction bytes c
  have hroom : c.ring.size = r.pending.length := by
    rw [← EventRing.length_events, h.pending]
  obtain ⟨ring, drops, warn, hframe⟩ := enqueueEvent_frame p direction bytes c
  rw [hroom, h.startUs] at hevents hdrops
  rw [hframe] at hevents hdrops ⊢
  refine ⟨h.active, h.startUs, h.takes, hevents.trans ?_, hdrops.trans ?_⟩
  · rw [h.pending]
    rfl
  · rw [h.lost]
    rfl

lemma Tracks.record (h : c.Tracks r) (p : Platform) (direction : UInt8) (bytes : List UInt8) :
    (c.record p direction bytes).2.Tracks (r.step c.mode (.record p direction bytes)) := by
  rw [record_eq h.active, Recorder.step]
  split_ifs
  · exact h.push p direction bytes
  · exact h

/-- With a live pair its take grows, and without one each event is counted. -/
lemma Tracks.flush (h : c.Tracks r) (hinv : c.Inv) (p : Platform) :
    (c.flushRing p).Tracks (r.flush c.mode) := by
  have hon : c.isLive ↔ r.active = true ∧ c.mode.opens := by
    rw [← h.active]
    exact hinv.isLive_iff
  obtain ⟨_, _, _, _, _, ring, hring, hframe⟩ := hinv.flushRing_frame p
  by_cases hlive : c.isLive
  · obtain ⟨q, older, harchive, -, -⟩ := hinv.exists_live hlive
    obtain ⟨hdrops, harchive'⟩ := hinv.flushRing_of_isLive hlive p harchive
    have htakes := h.takes
    rw [harchive] at htakes
    cases hr : r.takes with
    | nil =>
      rw [hr] at htakes
      cases htakes
    | cons es takes =>
      rw [hr] at htakes
      obtain ⟨hq, holder⟩ := List.forall₂_cons.mp htakes
      have hgrown := hq.extendEvents hinv.queued p.millis
      rw [Recorder.flush, if_pos (hon.mp hlive), hr, ← h.pending]
      rw [hframe] at hdrops harchive' ⊢
      refine ⟨h.active, h.startUs, ?_, hring, hdrops.trans h.lost⟩
      simp only [harchive', List.modifyHead_cons]
      exact .cons hgrown holder
  · obtain ⟨ring', hring', hflush⟩ := hinv.flushRing_of_not_isLive hlive p
    rw [Recorder.flush, if_neg (hon.not.mp hlive), hflush, h.pending, h.lost]
    exact ⟨h.active, h.startUs, h.takes, hring', rfl⟩

lemma Tracks.sessionEnd (h : c.Tracks r) (hinv : c.Inv) (p : Platform) :
    (c.onSessionEnd p).Tracks (r.step c.mode (.sessionEnd p)) := by
  obtain ⟨_, _, hclose⟩ := closeCurrentCapture_frame (c.flushRing p)
  obtain ⟨hactive, hstart, htakes, hpending, hlost⟩ := h.flush hinv p
  rw [onSessionEnd, hclose]
  exact ⟨rfl, hstart, htakes, hpending, hlost⟩

lemma Tracks.step (h : c.Tracks r) (hinv : c.Inv) (op : Op) :
    (c.step op).Tracks (r.step c.mode op) := by
  cases op with
  | sessionStart p => exact h.sessionStart p
  | sessionEnd p => exact h.sessionEnd hinv p
  | record p direction bytes => exact h.record p direction bytes
  | loop p =>
    rw [Capture.step, loop_eq_flushRing]
    exact h.flush hinv p

lemma tracks_run (cfg : Config) (ops : List Op) :
    (run cfg ops).Tracks (.run cfg.mode ops) := by
  induction ops using List.reverseRecOn with
  | nil => exact ⟨rfl, rfl, .nil, rfl, rfl⟩
  | append_singleton ops op ih =>
    have hstep := ih.step (inv_run cfg ops) op
    rw [mode_run] at hstep
    rw [run_concat, Recorder.run, List.foldl_append]
    exact hstep

/-- The sink is the recorder. After any calls in any mode, `record()` accepts what the recorder
listens to, what waits in the ring and the drop counter are the recorder's, there were two captures
for each take, and counted from the newest every `.bin` that is still stored reads back as the
header and its take: direction, time and bytes of every event. -/
theorem refines_recorder (cfg : Config) (ops : List Op) :
    let c := run cfg ops
    let r := Recorder.run cfg.mode ops
    (∀ p direction bytes, (c.record p direction bytes).1 = r.listens cfg.mode direction bytes) ∧
    c.ring.events = r.pending ∧ c.drops = r.lost ∧
    c.store.captures.length ≤ 2 * r.takes.length ∧
    ∀ j es, r.takes[j]? = some es → 2 * (j + 1) ≤ c.store.captures.length →
      ∃ bin hdr, c.store.captures[c.store.captures.length - 2 * (j + 1)]? = some bin ∧
        bin.isText = false ∧ parseCapture bin.bytes = some (hdr, es) := by
  intro c r
  have hinv : c.Inv := inv_run cfg ops
  have htracks : c.Tracks r := tracks_run cfg ops
  have hcount : (archive c.history).length = r.takes.length := htracks.takes.length_eq
  refine ⟨fun p direction bytes => ?_, htracks.pending, htracks.lost, ?_, fun j es hes hj => ?_⟩
  · rw [record_eq htracks.active, mode_run]
    split_ifs with hlistens
    · exact hlistens.symm
    · exact (Bool.eq_false_of_not_eq_true hlistens).symm
  · rw [hinv.shelves.captures_eq, List.length_drop, length_files, hcount]
    exact Nat.sub_le _ _
  · obtain ⟨q, hq, hholds⟩ := htracks.takes.flip.exists_getElem? hes
    obtain ⟨hdr, hparse⟩ := hholds.parseCapture_eq
    refine ⟨q.bin, hdr, ?_, hholds.isText.1, hparse⟩
    exact hinv.shelves.getElem?_bin hq hj

end Capture
end TexecomBridge
