import TexecomBridge.Capture.Names

/-!
# What a pair says about its session

The two file names, the binary header and the text banner are all made when a session starts, and a
pair is only appended to. In a mode that opens captures there is one pair for each start.
-/

namespace TexecomBridge

open Capture in
/-- The pair of the session with this number, started when the clocks showed these times. The banner
is cut to its buffer, and an `int` must hold its length. -/
structure CapturePair.Labelled (cfg : Capture.Config) (seq nowUnix nowMs : UInt32)
    (q : CapturePair) : Prop where
  bin_name : q.bin.name = captureName nowUnix nowMs seq (ascii ".bin")
  txt_name : q.txt.name = captureName nowUnix nowMs seq (ascii ".txt")
  header : parseHeader q.bin.bytes = some (captureHeader cfg.panelName cfg.baudRate nowUnix)
  banner : (bannerText cfg.panelName cfg.baudRate nowUnix).length < 2 ^ 31 →
    snprintf 128 (bannerText cfg.panelName cfg.baudRate nowUnix) <+: q.txt.bytes

/-- The pair was opened with these settings when the clocks showed this, and only appended to. -/
def CapturePair.OpenedAt (cfg : Capture.Config) (p : Platform) (q : CapturePair) : Prop :=
  ∃ c : Capture, c.config = cfg ∧ Extends ⟨Capture.newBin p c, Capture.newTxt p c⟩ q

namespace CapturePair

variable {cfg : Capture.Config} {p : Platform} {q : CapturePair} {seq nowUnix nowMs : UInt32}

/-- A header that is there is still there after more was appended. -/
lemma parseHeader_of_prefix {bytes bytes' : List UInt8} (h : CaptureHeader)
    (hversion : h.version = kCaptureFormatVersion) (hbytes : bytes = serializeHeader h)
    (hpre : bytes <+: bytes') : parseHeader bytes' = some h := by
  obtain ⟨rest, rfl⟩ := hpre
  rw [hbytes]
  exact parseHeader_serializeHeader hversion rest

lemma OpenedAt.extendEvents (h : q.OpenedAt cfg p) (es : List Event) (ms : UInt32) :
    (q.extendEvents es ms).OpenedAt cfg p := by
  induction es generalizing q with
  | nil => exact h
  | cons e es ih =>
    obtain ⟨c, hcfg, hext⟩ := h
    have hmore : q.Extends (q.extend e.serialize ms) :=
      ⟨rfl, List.prefix_append _ _, rfl, List.prefix_append _ _⟩
    exact ih ⟨c, hcfg, hext.trans hmore⟩

/-- What the buffer holds is copied before anything that lies behind it. -/
lemma snprintf_prefix_bannerBytes (p : Platform) {text : List UInt8} (h : text.length < 2 ^ 31) :
    snprintf 128 text <+: Capture.bannerBytes p text := by
  rw [Capture.bannerBytes, Capture.bannerN, if_pos h, List.prefix_take_iff]
  refine ⟨?_, List.length_take_le' _ _⟩
  rw [List.append_assoc]
  exact List.prefix_append _ _

/-- All labels of a pair come from the moment it was opened. -/
lemma OpenedAt.labelled (h : q.OpenedAt cfg p) {seq : UInt32} (hnamed : q.Named seq) :
    q.Labelled cfg seq (Capture.Platform.nowUnix p) p.millis := by
  obtain ⟨c, rfl, hext⟩ := h
  obtain ⟨nowUnix, nowMs, hbin, -⟩ := hnamed
  have hseq : c.fileSeq + 1 = seq :=
    (Capture.captureName_inj (Or.inl rfl) (Or.inl rfl) (hext.bin_name.symm.trans hbin)).1
  rw [← hseq]
  refine ⟨hext.bin_name, hext.txt_name, parseHeader_of_prefix _ rfl rfl hext.bin_bytes, ?_⟩
  intro hint
  exact (snprintf_prefix_bannerBytes p hint).trans hext.txt_bytes

end CapturePair

/-- The oldest pair has number 1. -/
lemma Numbered.getElem?_reverse {ps : List CapturePair} (h : Numbered ps) {i : ℕ} {q : CapturePair}
    (hq : ps.reverse[i]? = some q) : q.Named (UInt32.ofNat (i + 1)) := by
  induction ps generalizing i with
  | nil => cases hq
  | cons p ps ih =>
    rw [List.reverse_cons] at hq
    by_cases hi : i < ps.reverse.length
    · rw [List.getElem?_append_left hi] at hq
      exact ih h.2 hq
    · rw [List.getElem?_append_right (not_lt.mp hi)] at hq
      obtain ⟨hlt, hq⟩ := List.getElem?_eq_some_iff.mp hq
      rw [List.length_reverse] at hi hlt
      rw [List.length_singleton] at hlt
      obtain rfl : i = ps.length := by omega
      obtain rfl : p = q := by simpa using hq
      exact h.1

namespace Capture

/-- What the clocks showed when a session started. -/
def Op.startedAt : Op → Option Platform
  | .sessionStart p => some p
  | _ => none

/-- What the clocks showed at each session start. -/
def starts (ops : List Op) : List Platform := ops.filterMap Op.startedAt

lemma length_starts (ops : List Op) : (starts ops).length = sessions ops := by
  induction ops with
  | nil => rfl
  | cons op ops ih =>
    rw [starts, List.filterMap_cons, sessions, List.countP_cons, ← sessions, ← ih]
    cases op <;> rfl

variable {c : Capture}

/-- A flush only appends to the newest pair. -/
lemma Inv.openedAt_flushRing (h : c.Inv) {cfg : Config} {ps : List Platform}
    (hps : List.Forall₂ (CapturePair.OpenedAt cfg) ps (archive c.history)) (p : Platform) :
    List.Forall₂ (CapturePair.OpenedAt cfg) ps (archive (c.flushRing p).history) := by
  obtain ⟨-, harchive | ⟨q, older, es, hold, harchive⟩⟩ := h.archive_flushRing p
  · rwa [harchive]
  · rw [hold] at hps
    rw [harchive]
    cases hps with
    | cons hq holder => exact .cons (hq.extendEvents es p.millis) holder

lemma Inv.openedAt_step (h : c.Inv) (hmode : c.mode.opens) {ps : List Platform}
    (hps : List.Forall₂ (CapturePair.OpenedAt c.config) ps (archive c.history)) (op : Op) :
    List.Forall₂ (CapturePair.OpenedAt c.config) (op.startedAt.toList ++ ps)
      (archive (Capture.step c op).history) := by
  cases op with
  | sessionStart p =>
    rw [Capture.step, onSessionStart_of_opens hmode, archive_openNewCapture]
    exact .cons ⟨c.started p, rfl, .refl _⟩ hps
  | sessionEnd p =>
    obtain ⟨_, _, hclose⟩ := closeCurrentCapture_frame (c.flushRing p)
    rw [Capture.step, Capture.onSessionEnd, hclose]
    exact h.openedAt_flushRing hps p
  | record p direction bytes =>
    obtain ⟨_, _, _, hframe⟩ := record_frame p direction bytes c
    rw [Capture.step, hframe]
    exact hps
  | loop p =>
    rw [Capture.step, loop_eq_flushRing]
    exact h.openedAt_flushRing hps p

lemma openedAt_run {cfg : Config} (hmode : cfg.mode.opens) (ops : List Op) :
    List.Forall₂ (CapturePair.OpenedAt (configured cfg).config) (starts ops).reverse
      (archive (run cfg ops).history) := by
  induction ops using List.reverseRecOn with
  | nil => exact .nil
  | append_singleton ops op ih =>
    have hopens : (run cfg ops).mode.opens := by rwa [mode_run]
    rw [← config_run cfg ops] at ih ⊢
    have hstep := (inv_run cfg ops).openedAt_step hopens ih op
    have hstarts : (starts (ops ++ [op])).reverse
        = op.startedAt.toList ++ (starts ops).reverse := by
      cases op <;> simp [starts, Op.startedAt]
    rw [run_concat, hstarts]
    exact hstep

lemma labelled_of_getElem? (cfg : Config) (ops : List Op) {i : ℕ} {q : CapturePair}
    (h : (archive (run cfg ops).history).reverse[i]? = some q) :
    ∃ p, (starts ops)[i]? = some p ∧ q.Labelled (configured cfg).config (UInt32.ofNat (i + 1))
      (Platform.nowUnix p) p.millis := by
  obtain ⟨hsequenced, hlength⟩ := sequenced_run cfg ops
  by_cases hmode : cfg.mode.opens
  · have hopened := List.forall₂_reverse_iff.mpr (openedAt_run hmode ops).flip
    rw [List.reverse_reverse] at hopened
    obtain ⟨p, hp, hq⟩ := hopened.exists_getElem? h
    exact ⟨p, hp, CapturePair.OpenedAt.labelled hq (hsequenced.numbered.getElem?_reverse h)⟩
  · rw [if_neg hmode, List.length_eq_zero_iff] at hlength
    rw [hlength] at h
    cases h

/-- In a mode that opens captures there is one pair for each session, and otherwise there is none.
The pair of the `i`-th session bears the number `i + 1` in both its names, with the time of its
start. The header of its `.bin` and the banner of its `.txt` show the same time, and the panel and
the baud rate that were set. Before the clock is synced they say 0, and the names show the time
since boot. All that is stored belongs to one of these pairs. -/
theorem pairs_labelled (cfg : Config) (ops : List Op) :
    let c := run cfg ops
    let pairs := (archive c.history).reverse
    pairs.length = (if cfg.mode.opens then (starts ops).length else 0) ∧
    (∀ (i : ℕ) (q : CapturePair), pairs[i]? = some q → ∃ p, (starts ops)[i]? = some p ∧
      q.Labelled (configured cfg).config (UInt32.ofNat (i + 1)) (Platform.nowUnix p) p.millis) ∧
    ∀ cap ∈ c.store.captures, ∃ q ∈ pairs, cap = q.bin ∨ cap = q.txt := by
  intro c pairs
  refine ⟨?_, fun i q hq => labelled_of_getElem? cfg ops hq, fun cap hcap => ?_⟩
  · rw [List.length_reverse, (sequenced_run cfg ops).2, length_starts]
  · rw [(inv_run cfg ops).shelves.captures_eq] at hcap
    obtain ⟨q, hq, hof⟩ := mem_files (List.mem_of_mem_drop hcap)
    exact ⟨q, List.mem_reverse.mpr hq, hof⟩

/-- A session in which a byte was recorded, before the clock was synced. -/
theorem pairs_labelled_one_session :
    let cfg : Config := ⟨.bridgeOnly, ascii "Premier 24", 131072, 19200⟩
    let c := run cfg [.sessionStart .quiet, .record .quiet 0 [0x41], .sessionEnd .quiet]
    ∃ q, (archive c.history).reverse = [q] ∧ q.Labelled (configured cfg).config 1 0 0 ∧
      q.bin.name = ascii "wintex-boot0-001.bin" ∧ q.txt.name = ascii "wintex-boot0-001.txt" := by
  intro cfg c
  obtain ⟨hlength, hlabelled, -⟩ := pairs_labelled cfg
    [.sessionStart .quiet, .record .quiet 0 [0x41], .sessionEnd .quiet]
  obtain ⟨q, hq⟩ := List.length_eq_one_iff.mp hlength
  obtain ⟨p, hp, hq'⟩ := hlabelled 0 q (by rw [hq]; rfl)
  obtain rfl : Platform.quiet = p := Option.some.inj hp
  exact ⟨q, hq, hq', hq'.bin_name.trans (by decide +kernel), hq'.txt_name.trans (by decide +kernel)⟩

end Capture
end TexecomBridge
