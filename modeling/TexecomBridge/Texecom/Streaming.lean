import TexecomBridge.Texecom.CaptureExact

/-!
# Captures of a stream

A socket that delivers all that is wanted, as long as it has that much, is read in a few large
pieces. Then no tick has more batches than the event ring holds, and nothing is lost to a capture.
-/

namespace TexecomBridge

/-- A read that delivers less than was wanted has delivered all there is: the next one of the tick
delivers nothing. -/
def Tick.Streaming (inp : Tick) : Prop :=
  ∀ k want bytes, inp.read k want = .data bytes → bytes.length < want →
    ∀ want' bytes', inp.read (k + 1) want' ≠ .data bytes'

/-- A read that delivers nothing is the last. -/
lemma batches_readLoop_of_no_data {inp : Tick} {k : ℕ} (hdata : ∀ want bytes,
    inp.read k want ≠ .data bytes) (conn : Conn) (ring : RingBuffer UInt8 kBufferSize)
    (capture : Capture) : batches (readLoop inp conn k ring capture).io = [] := by
  by_cases hfull : ring.full = true
  · rw [readLoop_of_full hfull]
    rfl
  · rw [readLoop_of_no_data hfull (hdata (wanted ring))]
    exact (quiet_read (hdata (wanted ring)) conn).2

/-- The full reads take the room in the ring in pieces of the size of the buffer; at most one that
is not full comes after them. -/
lemma length_batches_readLoop {inp : Tick} (hstream : inp.Streaming) (conn : Conn) (k : ℕ)
    (ring : RingBuffer UInt8 kBufferSize) (capture : Capture) :
    (batches (readLoop inp conn k ring capture).io).length
      ≤ (kBufferSize - ring.size + (kBatchSize - 1)) / kBatchSize + 1 := by
  induction k, ring, capture using readLoop_induction inp conn with
  | full k ring capture hfull =>
    rw [readLoop_of_full hfull]
    exact Nat.zero_le _
  | no_data k ring capture hfull hdata =>
    rw [readLoop_of_no_data hfull hdata, (quiet_read hdata conn).2]
    exact Nat.zero_le _
  | data k ring capture bytes hfull hanswer ih =>
    obtain ⟨hfit, -⟩ := read_fits hanswer
    obtain ⟨hring, hrefused⟩ := pushAll_spec hfit
    have hsize := congrArg List.length hring
    rw [List.length_append, Circular.length_toList, Circular.length_toList] at hsize
    have hfirst : ∀ rest, batches (.read conn (wanted ring) (.data bytes) :: rest)
        = (1, bytes) :: batches rest := fun rest => rfl
    rw [readLoop_of_data hfull hanswer, hrefused]
    simp only [List.cons_append, List.nil_append, hfirst, List.length_cons]
    by_cases hshort : bytes.length < wanted ring
    · rw [batches_readLoop_of_no_data (hstream k _ bytes hanswer hshort)]
      exact Nat.succ_le_succ (Nat.zero_le _)
    · rw [Bool.not_eq_true, RingBuffer.full_eq_false_iff] at hfull
      simp only [wanted, kBufferSize, kBatchSize] at hshort hfull hsize hfit ih ⊢
      omega

namespace Texecom

/-- From `t` to `t'` at most `n` batches are read. -/
def Offers (n : ℕ) (t t' : Texecom) : Prop :=
  ∃ io, t'.io = t.io ++ io ∧ (batches io).length ≤ n

variable {t t' : Texecom}

lemma Offers.trans {m n : ℕ} {t'' : Texecom} (h : Offers m t t') (h' : Offers n t' t'') :
    Offers (m + n) t t'' := by
  obtain ⟨io, hio, hm⟩ := h
  obtain ⟨io', hio', hn⟩ := h'
  refine ⟨io ++ io', by rw [hio', hio, List.append_assoc], ?_⟩
  rw [batches_append, List.length_append]
  exact Nat.add_le_add hm hn

lemma Offers.mono {m n : ℕ} (h : Offers m t t') (hle : m ≤ n) : Offers n t t' := by
  obtain ⟨io, hio, hm⟩ := h
  exact ⟨io, hio, hm.trans hle⟩

lemma Offers.of_quiet {io : List Obs} (hio : t'.io = t.io ++ io) (hquiet : batches io = []) :
    Offers 0 t t' :=
  ⟨io, hio, by rw [hquiet]; exact le_rfl⟩

lemma Offers.refl (t : Texecom) : Offers 0 t t := .of_quiet (List.append_nil _).symm rfl

lemma offers_closeClient (t : Texecom) : Offers 0 t t.closeClient := by
  unfold closeClient
  split
  · exact .refl t
  · exact .of_quiet rfl rfl

lemma offers_acceptPendingClient (inp : Tick) (t : Texecom) :
    Offers 0 t (t.acceptPendingClient inp) := by
  unfold acceptPendingClient
  split_ifs
  · exact .refl t
  · cases inp.accept with
    | none => exact .refl t
    | some pending =>
      simp only
      split_ifs
      · exact .of_quiet rfl rfl
      · have hclosed : Offers 0 t (closeClient { t with
            nextClientId := idAfter t.nextClientId
            session := (t.session.onConnect t.nextClientId).2 }) := offers_closeClient _
        exact hclosed.trans (.of_quiet rfl rfl)

lemma offers_endSession (p : Platform) (t : Texecom) : Offers 0 t (t.endSession p) := by
  have hended : Offers 0 t.closeClient (t.endSession p) := .of_quiet rfl rfl
  exact (offers_closeClient t).trans hended

/-- The panel is read in one batch. -/
lemma offers_pumpUartToTcp (inp : Tick) (t : Texecom) : Offers 1 t (t.pumpUartToTcp inp) := by
  unfold pumpUartToTcp
  split_ifs
  · exact (Offers.refl t).mono (Nat.zero_le _)
  · have hrx : Offers 1 t (t.receiveFromUart inp) := by
      refine ⟨_, rfl, ?_⟩
      simp only [batches, List.flatMap_cons, List.flatMap_nil, List.append_nil, Obs.batches]
      split_ifs
      · exact Nat.zero_le _
      · exact le_rfl
    refine hrx.trans (n := 0) ?_
    generalize t.receiveFromUart inp = t'
    unfold sendToClient
    split
    · rename_i conn _ _
      obtain ⟨-, -, -, hbatches, -⟩ := quiet_sendLoop inp conn 0 t'.sendState
      have hsend : Offers 0 t' (t'.afterSend (sendLoop inp conn 0 t'.sendState)) :=
        .of_quiet rfl hbatches
      simp only
      split_ifs
      · exact hsend.trans (offers_endSession inp.atEnd _)
      · exact hsend
    · exact .refl t'

lemma offers_pumpTcpToUart {inp : Tick} (hstream : inp.Streaming) (t : Texecom) :
    Offers ((kBufferSize + (kBatchSize - 1)) / kBatchSize + 1) t (t.pumpTcpToUart inp) := by
  unfold pumpTcpToUart
  split_ifs
  · exact (Offers.refl t).mono (Nat.zero_le _)
  · have hrx : Offers ((kBufferSize + (kBatchSize - 1)) / kBatchSize + 1) t
        (t.receiveFromClient inp).1 := by
      unfold receiveFromClient
      split
      · rename_i conn _ _
        have hcount := length_batches_readLoop hstream conn 0 t.tcpToUart t.capture
        refine ⟨_, rfl, hcount.trans (Nat.succ_le_succ (Nat.div_le_div_right ?_))⟩
        exact Nat.add_le_add_right (Nat.sub_le _ _) _
      · exact (Offers.refl t).mono (Nat.zero_le _)
    split
    · rename_i t' heq
      rw [heq] at hrx
      exact hrx.trans (offers_endSession inp.atEnd t')
    · rename_i t' heq
      rw [heq] at hrx
      obtain ⟨-, -, -, hbatches, -⟩ := quiet_uartTx (drainToUart t'.tcpToUart).1
      exact hrx.trans (.of_quiet rfl hbatches)

/-- A tick has at most one batch of the panel, one for each full buffer, and one more. -/
lemma length_batches_loop {inp : Tick} (hstream : inp.Streaming) (t : Texecom) :
    (batches (t.loop inp).io).length
      ≤ (batches t.io).length + (1 + ((kBufferSize + (kBatchSize - 1)) / kBatchSize + 1)) := by
  have hbegun : Offers 0 t t.beginTick := .of_quiet rfl rfl
  have haccepted := hbegun.trans (offers_acceptPendingClient inp t.beginTick)
  have hsent := haccepted.trans (offers_pumpUartToTcp inp _)
  obtain ⟨io, hio, hcount⟩ := hsent.trans (offers_pumpTcpToUart hstream _)
  have hloop : (t.loop inp).io = t.io ++ io := hio
  rw [hloop, batches_append, List.length_append]
  simpa using hcount

/-- When all batches are kept, none was counted. -/
lemma captureDrops_of_keeps {cc : Capture.Config} {q : CapturePair} {s : Session} {drops : UInt32}
    (hrecorded : s.Recorded cc [] drops q) (hkeeps : q.Keeps cc s.batches) :
    drops = s.began.capture := by
  obtain ⟨es, k, hes, hmissing, hcount⟩ := hrecorded.events
  obtain ⟨es', hes', hkeys⟩ := hkeeps
  obtain ⟨hdr, hparse⟩ := hes.parseCapture_eq
  obtain ⟨hdr', hparse'⟩ := hes'.parseCapture_eq
  -- Both accounts are of the same file, so nothing is missing.
  obtain ⟨rfl, rfl⟩ : hdr = hdr' ∧ es = es' := by simpa [hparse] using hparse'
  have hlength := hmissing.length_eq
  rw [List.append_nil, hkeys] at hlength
  obtain rfl : k = 0 := by omega
  simpa using hcount

/-- When the client's socket delivers a stream, the captures are complete. In a mode that gives each
session its own pair, the `.bin` of every session that was not evicted, the one that goes on
included, reads back as all batches that were read during the session, so as all bytes of the panel
and of the client. No session has raised the drop counter, evicted or not, and neither has the one
that goes on. -/
theorem streaming_capture_complete {cfg : Config} (hmode : cfg.captureMode.opens) (listen : Bool)
    {ticks : List Tick} (hstream : ∀ inp ∈ ticks, inp.Streaming) :
    let t := run cfg listen ticks
    let evicted := evictions t.capture.history
    (∀ i s, (sessions t.io).reverse[i]? = some s → evicted ≤ 2 * i →
      ∃ bin hdr es, t.capture.store.captures[2 * i - evicted]? = some bin ∧ bin.isText = false ∧
        parseCapture bin.bytes = some (hdr, es) ∧ es.map Event.key = s.batches ∧
        payloads 0 (es.map Event.key) = s.received 0 ∧
        payloads 1 (es.map Event.key) = s.received 1) ∧
    ∀ s ∈ sessions t.io, (∀ drops, s.ended = some drops → drops.capture = s.began.capture) ∧
      (s.ended = none → t.capture.drops = s.began.capture) := by
  intro t evicted
  have hwhole : Whole t.io := by
    refine whole_run fun ticks' inp hpre => ?_
    have hinp := hstream inp (hpre.subset (List.mem_append_right _ List.mem_cons_self))
    have hcount := length_batches_loop hinp (run cfg listen ticks')
    rw [run_concat]
    exact hcount.trans (Nat.add_le_add_left (by decide) _)
  have hkept : ∀ (i : ℕ) (s : Session), (sessions t.io).reverse[i]? = some s →
      (keep t.io).kept.reverse[i]? = some s.batches := by
    intro i s hs
    rw [hwhole.kept_eq, ← List.map_reverse, List.getElem?_map, hs]
    rfl
  refine ⟨fun i s hs hstored => ?_, fun s hs => ?_⟩
  · obtain ⟨q, ⟨es, hes, hkeys⟩, hbin⟩ :=
      stored_of_kept hmode listen ticks (hkept i s hs) hstored
    obtain ⟨hdr, hparse⟩ := hes.parseCapture_eq
    exact ⟨q.bin, hdr, es, hbin, hes.isText.1, hparse, hkeys, by rw [hkeys]; rfl,
      by rw [hkeys]; rfl⟩
  · obtain ⟨i, hs⟩ := List.mem_iff_getElem?.mp (List.mem_reverse.mpr hs)
    obtain ⟨q, hq, hrecorded⟩ := (recorded_run hmode listen ticks).exists_getElem? hs
    obtain ⟨q', hq', hkeeps⟩ := (kept_run hmode listen ticks).exists_getElem? (hkept i s hs)
    obtain rfl : q = q' := Option.some.inj (hq.symm.trans hq')
    have hdrops := captureDrops_of_keeps hrecorded hkeeps
    constructor
    · intro drops hended
      rwa [Session.captureDrops, hended] at hdrops
    · intro hlive
      rwa [Session.captureDrops, hlive] at hdrops

/-- The capture of a client that sends one byte and closes. -/
theorem streaming_capture_complete_visit :
    let t := run ⟨true, none, .bridgeOnly, 8192⟩ true [.visit 1 0x41]
    ∃ bin hdr es, t.capture.store.captures[0]? = some bin ∧
      parseCapture bin.bytes = some (hdr, es) ∧ es.map Event.key = [(1, [0x41])] := by
  intro t
  have hsession : ((sessions t.io).reverse[0]?).map Session.batches = some [(1, [0x41])] := by
    decide +kernel
  have hevicted : evictions t.capture.history = 0 := by decide +kernel
  have hstream : ∀ inp ∈ [Tick.visit 1 0x41], inp.Streaming := by
    rw [List.forall_mem_singleton]
    intro k want bytes hdata hshort want' bytes' hdata'
    simp [Tick.visit] at hdata'
  obtain ⟨s, hs, hbatches⟩ := Option.map_eq_some_iff.mp hsession
  obtain ⟨hstored, -⟩ :=
    @streaming_capture_complete ⟨true, none, .bridgeOnly, 8192⟩ (Or.inl rfl) true
      [.visit 1 0x41] hstream
  obtain ⟨bin, hdr, es, hbin, -, hparse, hkeys, -⟩ := hstored 0 s hs hevicted.le
  rw [hevicted] at hbin
  rw [hbatches] at hkeys
  exact ⟨bin, hdr, es, hbin, hparse, hkeys⟩

end Texecom
end TexecomBridge
