import TexecomBridge.Capture.Labels
import TexecomBridge.Format.Truncation
import TexecomBridge.Http.Route
import TexecomBridge.Texecom.Device
import TexecomBridge.Texecom.Fidelity

/-!
# From the wire to the browser

What a download brings back of a session: all that was recorded when every chunk goes out, and the
first of it when the connection breaks in between.
-/

namespace TexecomBridge

/-! ### The beginning of a capture -/

/-- Cut anywhere behind its header, a capture still gives its header and the events that are there
whole. -/
lemma read_take_serializeCapture {h : CaptureHeader} {es : List Event}
    (hv : h.version = kCaptureFormatVersion) (hes : ∀ e ∈ es, e.Valid) {k : ℕ}
    (hk : kCaptureHeaderSize ≤ k) :
    parseHeader ((serializeCapture h es).take k) = some h ∧
      ∃ m, (readEvents (((serializeCapture h es).take k).drop kCaptureHeaderSize)).1 = es.take m ∧
        ∀ i < es.length, i < m ↔ endOffset es i ≤ k := by
  have hcut : (serializeCapture h es).take k
      = serializeHeader h ++ (es.flatMap Event.serialize).take (k - kCaptureHeaderSize) := by
    rw [serializeCapture, List.take_append, length_serializeHeader,
      List.take_of_length_le (by rwa [length_serializeHeader])]
  obtain ⟨m, hread, hm⟩ := readEvents_take hes (k - kCaptureHeaderSize)
  rw [Nat.add_sub_cancel' hk] at hm
  rw [hcut, List.drop_left' (length_serializeHeader h)]
  exact ⟨parseHeader_serializeHeader hv _, m, hread, hm⟩

lemma parseHeader_of_parseCapture {inp : List UInt8} {h : CaptureHeader} {es : List Event}
    (hparse : parseCapture inp = some (h, es)) : parseHeader inp = some h := by
  unfold parseCapture at hparse
  split at hparse
  · cases hparse
  · rename_i h' hheader
    split at hparse
    · cases hparse
      exact hheader
    · cases hparse

namespace CaptureHttpHandler

/-! ### The chunks that go out -/

/-- What arrives: all that was given to the calls that succeed, the first of which is the `i`-th. -/
def delivered (p : HttpPlatform) : ℕ → List (List UInt8) → List UInt8
  | _, [] => []
  | i, chunk :: chunks => (if p.sent i then chunk else []) ++ delivered p (i + 1) chunks

/-- The last call ends the response, and it is the only one after a call that fails. -/
lemma sendChunks_ends (p : HttpPlatform) (i : ℕ) (src : List UInt8) :
    (sendChunks p i src).getLast? = some [] ∧ ∀ j < (sendChunks p i src).length,
      p.sent (i + j) = false → (sendChunks p i src).drop (j + 1) <+: [[]] := by
  induction i, src using sendChunks.induct p with
  | case1 i =>
    rw [sendChunks, if_pos rfl]
    refine ⟨rfl, fun j _ _ => ?_⟩
    simp
  | case2 i src hne hi ih =>
    obtain ⟨hlast, hafter⟩ := ih
    rw [sendChunks, if_neg hne, if_pos hi]
    refine ⟨?_, fun j hj hfails => ?_⟩
    · rw [List.getLast?_cons, hlast]
      rfl
    · cases j with
      | zero =>
        rw [Nat.add_zero, hi] at hfails
        cases hfails
      | succ j =>
        rw [← Nat.add_assoc, Nat.add_right_comm] at hfails
        exact hafter j (Nat.lt_of_succ_lt_succ hj) hfails
  | case3 i src hne hi =>
    rw [sendChunks, if_neg hne, if_neg hi]
    refine ⟨rfl, fun j hj _ => ?_⟩
    cases j with
    | zero => exact List.prefix_rfl
    | succ j => simp

/-- What arrives are the chunks before the first that fails, or all. -/
lemma delivered_sendChunks (p : HttpPlatform) (i : ℕ) (src : List UInt8) :
    ∃ n, delivered p i (sendChunks p i src) = src.take (kStreamChunkBytes * n) ∧
      (∀ j < n, p.sent (i + j) = true) ∧
      (src.length ≤ kStreamChunkBytes * n ∨ p.sent (i + n) = false) := by
  induction i, src using sendChunks.induct p with
  | case1 i =>
    refine ⟨0, ?_, by simp, Or.inl (Nat.zero_le _)⟩
    simp [sendChunks, delivered]
  | case2 i src hne hi ih =>
    obtain ⟨n, hbytes, hsent, hend⟩ := ih
    refine ⟨n + 1, ?_, ?_, ?_⟩
    · rw [sendChunks, if_neg hne, if_pos hi, delivered, if_pos hi, hbytes, Nat.mul_succ,
        Nat.add_comm, List.take_add]
    · intro j hj
      cases j with
      | zero => exact hi
      | succ j =>
        rw [← Nat.add_assoc, Nat.add_right_comm]
        exact hsent j (Nat.lt_of_succ_lt_succ hj)
    · rw [List.length_drop] at hend
      rcases hend with hend | hend
      · exact Or.inl (by rw [Nat.mul_succ]; omega)
      · rw [← Nat.add_assoc, Nat.add_right_comm]
        exact Or.inr hend
  | case3 i src hne hi =>
    refine ⟨0, ?_, by simp, Or.inr (Bool.eq_false_iff.mpr hi)⟩
    rw [sendChunks, if_neg hne, if_neg hi, delivered, if_neg hi]
    simp [delivered]

end CaptureHttpHandler

namespace Capture

open CaptureHttpHandler

variable {cfg : Config} {ops : List Op} {cap : RamCapture}

/-- The name of a stored capture gets its bytes, as far as they can be sent. -/
lemma handleRequest_name (hfew : sessions ops < 2 ^ 32) (hcap : cap ∈ (run cfg ops).store.captures)
    {h : CaptureHttpHandler} (hcapture : h.capture = run cfg ops) (p : HttpPlatform) :
    ∃ len disposition, h.handleRequest p ⟨.get, h.pathPrefix ++ ascii "/" ++ cap.name⟩
      = some (.stream (ascii "200 OK") (contentType cap.name) len disposition
          (sendChunks p 0 cap.bytes)) := by
  have hsafe := (name_of_mem_captures cfg ops hcap).1
  have hne : cap.name ≠ [] := by
    intro heq
    rw [heq] at hsafe
    cases hsafe
  have hfound : h.capture.getCaptureBytes cap.name = some cap.bytes := by
    have hfind := List.find?_key (nodup_names_run cfg hfew) hcap
    rw [hcapture]
    exact congrArg (Option.map (·.bytes)) hfind
  rw [handleRequest_tail, if_neg hne, if_pos hsafe, sendFile, hfound]
  exact ⟨_, _, rfl⟩

lemma handleRequest_stored (hfew : sessions ops < 2 ^ 32)
    (hcap : cap ∈ (run cfg ops).store.captures) (p : HttpPlatform) :
    ∃ len disposition, (registerCaptureHttpHandler (run cfg ops)).handleRequest p
        ⟨.get, ascii "/captures" ++ ascii "/" ++ cap.name⟩
      = some (.stream (ascii "200 OK") (contentType cap.name) len disposition
          (sendChunks p 0 cap.bytes)) := by
  have hbase : (registerCaptureHttpHandler (run cfg ops)).pathPrefix = ascii "/captures" :=
    (by decide : canonicalPrefix (ascii "/captures") = ascii "/captures")
  rw [← hbase]
  exact handleRequest_name hfew hcap rfl p

/-- A download of a stored `.bin` with a connection that may fail at any chunk. The response is
ended in any case, and after a chunk that failed nothing else is sent. What arrives are the bytes of
the chunks before that; as soon as there is one, they are a capture with the header of the file and
with exactly those of its events that are there whole. -/
theorem broken_download_read {cfg : Config} {ops : List Op} (hfew : sessions ops < 2 ^ 32)
    {cap : RamCapture} (hcap : cap ∈ (run cfg ops).store.captures) (hbin : isBin cap.name = true)
    (p : HttpPlatform) :
    ∃ hdr es len disposition chunks n, parseCapture cap.bytes = some (hdr, es) ∧
      (registerCaptureHttpHandler (run cfg ops)).handleRequest p
          ⟨.get, ascii "/captures" ++ ascii "/" ++ cap.name⟩
        = some
          (.stream (ascii "200 OK") (ascii "application/octet-stream") len disposition chunks) ∧
      chunks.getLast? = some [] ∧
      (∀ j < chunks.length, p.sent j = false → chunks.drop (j + 1) <+: [[]]) ∧
      delivered p 0 chunks = cap.bytes.take (kStreamChunkBytes * n) ∧
      (∀ j < n, p.sent j = true) ∧
      (cap.bytes.length ≤ kStreamChunkBytes * n ∨ p.sent n = false) ∧
      (n ≠ 0 → parseHeader (delivered p 0 chunks) = some hdr ∧
        ∃ m, (readEvents ((delivered p 0 chunks).drop kCaptureHeaderSize)).1 = es.take m ∧
          ∀ i < es.length, i < m ↔ endOffset es i ≤ kStreamChunkBytes * n) := by
  obtain ⟨q, hq, rfl⟩ := (isBin_of_mem_captures cfg ops hcap).mp hbin
  obtain ⟨es, hes⟩ := (inv_run cfg ops).contents q hq
  obtain ⟨hdr, hversion, hbytes⟩ : ∃ hdr : CaptureHeader, hdr.version = kCaptureFormatVersion ∧
      q.bin.bytes = serializeCapture hdr es := by
    obtain ⟨nowUnix, hbytes⟩ := hes.bin_eq
    exact ⟨_, rfl, hbytes⟩
  obtain ⟨len, disposition, hresponse⟩ := handleRequest_stored hfew hcap p
  obtain ⟨hlast, hafter⟩ := sendChunks_ends p 0 q.bin.bytes
  obtain ⟨n, harrived, hsent, hend⟩ := delivered_sendChunks p 0 q.bin.bytes
  have hvalid : ∀ e ∈ es, e.Valid := fun e he => (hes.queueable e he).valid
  simp only [Nat.zero_add] at hafter hsent hend
  rw [contentType, if_pos hbin] at hresponse
  refine ⟨hdr, es, len, disposition, _, n, ?_, hresponse, hlast, hafter, harrived, hsent, hend, ?_⟩
  · rw [hbytes]
    exact parseCapture_serializeCapture hversion hvalid
  · intro hn
    have hk : kCaptureHeaderSize ≤ kStreamChunkBytes * n := by
      simp only [kCaptureHeaderSize, kStreamChunkBytes]
      omega
    have hread := read_take_serializeCapture hversion hvalid hk
    rw [← hbytes] at hread
    rw [harrived]
    exact hread

/-- A finished session, with a connection that fails after the first chunk. -/
theorem broken_download_read_first_chunk :
    let cfg : Config := ⟨.bridgeOnly, ascii "Premier 24", 131072, 19200⟩
    let ops : List Op := [.sessionStart .quiet, .record .quiet 0 [0x41], .sessionEnd .quiet]
    let p : HttpPlatform := ⟨0, fun n => n = 0⟩
    ∃ cap hdr es, cap ∈ (run cfg ops).store.captures ∧ parseCapture cap.bytes = some (hdr, es) ∧
      ∃ len disposition chunks, (registerCaptureHttpHandler (run cfg ops)).handleRequest p
          ⟨.get, ascii "/captures" ++ ascii "/" ++ cap.name⟩
        = some
          (.stream (ascii "200 OK") (ascii "application/octet-stream") len disposition chunks) ∧
        delivered p 0 chunks = cap.bytes.take kStreamChunkBytes := by
  intro cfg ops p
  have hstored : ∃ cap ∈ (run cfg ops).store.captures, isBin cap.name = true := by decide +kernel
  obtain ⟨cap, hcap, hbin⟩ := hstored
  obtain ⟨hdr, es, len, disposition, chunks, n, hparse, hresponse, -, -, harrived, hsent, hend, -⟩ :=
    @broken_download_read cfg ops (by decide) cap hcap hbin p
  have hshort : ∀ cap ∈ (run cfg ops).store.captures,
      0 < cap.bytes.length ∧ cap.bytes.length ≤ kStreamChunkBytes := by decide +kernel
  obtain ⟨hpos, hlength⟩ := hshort cap hcap
  -- The second call fails, so `n` is 1.
  have hn : n ≤ 1 := by
    by_contra hmany
    cases hsent 1 (by omega)
  refine ⟨cap, hdr, es, hcap, hparse, len, disposition, chunks, hresponse, ?_⟩
  rcases hend with hall | hfails
  · rw [harrived, List.take_of_length_le hall, List.take_of_length_le hlength]
  · obtain rfl : n = 1 := by
      interval_cases n
      · cases hfails
      · rfl
    exact harrived

end Capture

namespace Texecom

open Capture CaptureHttpHandler

/-- In a mode that gives each session its own pair, the recording of the `i`-th session can be
fetched once the session has ended, as long as it was not evicted: its file bears the number
`i + 1`, and the start time in its name is the one in its header. What is fetched reads back whole,
and gives the batches that were read from the panel and from the client during the session, in
order, but for `k`, where `k` is by how much the drop counter has gone up during the session. -/
theorem session_download {cfg : Config} (hmode : cfg.captureMode.opens) (listen : Bool)
    (ticks : List Tick) (hfew : (sessions (run cfg listen ticks).io).length < 2 ^ 32)
    (p : HttpPlatform) (hsent : ∀ n, p.sent n = true) {i : ℕ} {s : Session} {drops : DropCounters}
    (hs : (sessions (run cfg listen ticks).io).reverse[i]? = some s) (hended : s.ended = some drops)
    (hstored : evictions (run cfg listen ticks).capture.history ≤ 2 * i) :
    ∃ nowUnix nowMs len disposition chunks es k,
      let name := captureName nowUnix nowMs (UInt32.ofNat (i + 1)) (ascii ".bin")
      (registerCaptureHttpHandler (run cfg listen ticks).capture).handleRequest p
          ⟨.get, ascii "/captures" ++ ascii "/" ++ name⟩
        = some
          (.stream (ascii "200 OK") (ascii "application/octet-stream") len disposition chunks) ∧
      parseCapture chunks.flatten
        = some (captureHeader cfg.capture.panelName cfg.capture.baudRate nowUnix, es) ∧
      Missing k (es.map Event.key) s.batches ∧
      drops.capture = s.began.capture + UInt32.ofNat k ∧
      (k = 0 → payloads 0 (es.map Event.key) = s.received 0 ∧
        payloads 1 (es.map Event.key) = s.received 1) := by
  obtain ⟨ops, howns⟩ := Device.owns_ticks cfg listen ticks
  have hinv : (run cfg listen ticks).Inv (configured cfg.capture).config := inv_run cfg listen ticks
  obtain ⟨q, hq, hrecorded⟩ := (recorded_run hmode listen ticks).exists_getElem? hs
  rw [Session.captureDrops, hended] at hrecorded
  have hcap := List.mem_of_getElem? (hinv.capture.stored_bin hq hstored)
  rw [howns.capture_eq] at hq hcap ⊢
  obtain ⟨start, -, hlabelled⟩ := labelled_of_getElem? cfg.capture ops hq
  obtain ⟨hdr, es, hparse, -, k, hmissing, hcount, hwhole⟩ := hrecorded.reads_back
  have hhdr := parseHeader_of_parseCapture hparse
  rw [hlabelled.header, Option.some.injEq] at hhdr
  rw [howns.sessions_eq.symm] at hfew
  obtain ⟨len, disposition, hresponse⟩ := handleRequest_stored hfew hcap p
  have hbin := (isBin_captureName (Platform.nowUnix start) start.millis (UInt32.ofNat (i + 1))
    (Or.inl rfl)).mpr rfl
  rw [hlabelled.bin_name, contentType, if_pos hbin] at hresponse
  refine ⟨_, start.millis, len, disposition, _, es, k, hresponse, ?_, hmissing, hcount, hwhole⟩
  rw [flatten_sendChunks hsent, hparse, ← hhdr]
  rfl

/-- The recording of a client that sends one byte and closes. -/
theorem session_download_visit :
    let t := run ⟨true, none, .bridgeOnly, 8192⟩ true [.visit 1 0x41]
    ∃ name len disposition chunks hdr es,
      (registerCaptureHttpHandler t.capture).handleRequest ⟨0, fun _ => true⟩
          ⟨.get, ascii "/captures" ++ ascii "/" ++ name⟩
        = some
          (.stream (ascii "200 OK") (ascii "application/octet-stream") len disposition chunks) ∧
      parseCapture chunks.flatten = some (hdr, es) ∧ es.map Event.key = [(1, [0x41])] := by
  intro t
  have hevicted : evictions t.capture.history ≤ 2 * 0 := by decide +kernel
  have hfew : (sessions t.io).length < 2 ^ 32 := by decide +kernel
  obtain ⟨s, drops, hs, hbatches, hdrops, hstill⟩ := exists_visit
  obtain ⟨nowUnix, nowMs, len, disposition, chunks, es, k, hresponse, hparse, hmissing, hcount, -⟩ :=
    session_download (Or.inl rfl) true [.visit 1 0x41] hfew ⟨0, fun _ => true⟩ (fun _ => rfl) hs
      hdrops hevicted
  rw [hbatches] at hmissing
  obtain rfl : k = 0 := hmissing.eq_zero_of_counted hcount hstill (by decide)
  exact ⟨_, len, disposition, chunks, _, es, hresponse, hparse, hmissing.eq_of_zero⟩

end Texecom
end TexecomBridge
