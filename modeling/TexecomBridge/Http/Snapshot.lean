import TexecomBridge.Http.Download
import TexecomBridge.Texecom.Device
import TexecomBridge.Texecom.Fidelity

/-!
# The loop for finished captures

The captures of a session that is over are never written to again, so the loop of a download of one
of them can only be spoilt by its eviction. While no client is connected, nothing is evicted.
-/

namespace TexecomBridge

lemma prefix_files {ps qs : List CapturePair} (h : qs <:+ ps) : files qs <+: files ps := by
  obtain ⟨front, rfl⟩ := h
  induction front with
  | nil => exact List.prefix_rfl
  | cons p front ih => exact ih.trans (List.prefix_append _ _)

namespace Capture

variable {c : Capture} {finished : List CapturePair}

/-! ### What is finished -/

/-- The pairs that are not live. -/
def finishedPairs (c : Capture) : List CapturePair :=
  if 0 ≤ c.store.currentBinIdx then (archive c.history).tail else archive c.history

/-- The finished pairs are the oldest of the archive, and what is live comes behind them. -/
structure Keeps (finished : List CapturePair) (c : Capture) : Prop where
  suffix : finished <:+ archive c.history
  behind : c.isLive → finished <:+ (archive c.history).tail

lemma keeps_finishedPairs (c : Capture) : Keeps c.finishedPairs c := by
  by_cases hlive : 0 ≤ c.store.currentBinIdx
  · rw [finishedPairs, if_pos hlive]
    exact ⟨List.tail_suffix _, fun _ => List.suffix_rfl⟩
  · rw [finishedPairs, if_neg hlive]
    exact ⟨List.suffix_rfl, fun h => absurd h hlive⟩

/-- A capture that is not live is one of a finished pair. -/
lemma Inv.lt_of_not_live (h : c.Inv) {i : ℕ} (hi : i < c.store.captures.length)
    (hbin : (i : ℤ) ≠ c.store.currentBinIdx) (htxt : (i : ℤ) ≠ c.store.currentTxtIdx) :
    evictions c.history + i < (files c.finishedPairs).length := by
  cases h.shelves with
  | closed hclosed hn hcaptures =>
    have hneg : ¬ 0 ≤ c.store.currentBinIdx := not_le.mpr hclosed.bin_neg
    rw [hcaptures, List.length_drop] at hi
    rw [finishedPairs, if_neg hneg]
    omega
  | live q older hps hn hq =>
    have hnonneg : 0 ≤ c.store.currentBinIdx := not_lt.mp hq.bin_nonneg
    rw [hq.bin_eq] at hbin
    rw [hq.txt_eq] at htxt
    simp only [hq.captures_eq, List.length_append, List.length_cons, List.length_nil,
      List.length_drop] at hi
    rw [List.length_drop] at hbin htxt
    rw [finishedPairs, if_pos hnonneg, hps, List.tail_cons]
    omega

lemma Keeps.flushRing (h : Keeps finished c) (hinv : c.Inv) (p : Platform) :
    Keeps finished (c.flushRing p) := by
  by_cases hlive : c.isLive
  · obtain ⟨q, older, harchive, -, -⟩ := hinv.exists_live hlive
    have holder := h.behind hlive
    rw [harchive, List.tail_cons] at holder
    have harchive' := (hinv.flushRing_of_isLive hlive p harchive).2
    constructor
    · rw [harchive']
      exact holder.trans (List.suffix_cons _ _)
    · intro _
      rwa [harchive', List.tail_cons]
  · obtain ⟨_, -, hflush⟩ := hinv.flushRing_of_not_isLive hlive p
    rw [hflush]
    exact ⟨h.suffix, fun hl => absurd hl hlive⟩

/-- No call touches a finished pair. -/
lemma Keeps.step (h : Keeps finished c) (hinv : c.Inv) (op : Op) : Keeps finished (c.step op) := by
  cases op with
  | sessionStart p =>
    rw [Capture.step]
    by_cases hmode : c.mode.opens
    · obtain ⟨q, harchive, -⟩ := archive_onSessionStart hmode p
      constructor
      · rw [harchive]
        exact h.suffix.trans (List.suffix_cons _ _)
      · intro _
        rw [harchive]
        exact h.suffix
    · rw [onSessionStart_of_not_opens hmode]
      exact ⟨h.suffix, h.behind⟩
  | sessionEnd p =>
    have hflush := h.flushRing hinv p
    have hlive := not_isLive_onSessionEnd p c
    refine ⟨?_, fun hl => absurd hl hlive⟩
    rw [Capture.step, history_onSessionEnd]
    exact hflush.suffix
  | record p direction bytes =>
    obtain ⟨_, _, _, hframe⟩ := record_frame p direction bytes c
    rw [Capture.step, hframe]
    exact ⟨h.suffix, h.behind⟩
  | loop p =>
    rw [Capture.step, loop_eq_flushRing]
    exact h.flushRing hinv p

lemma Keeps.afterCalls (h : Keeps finished c) (hinv : c.Inv) (turns : List Turn) :
    Keeps finished (afterCalls c turns) := by
  induction turns generalizing c with
  | nil => exact h
  | cons turn turns ih =>
    cases turn with
    | call op => exact ih (h.step hinv op) (hinv.step op)
    | chunk => exact ih h hinv

/-- A finished capture is found where evictions have moved it, as it was. -/
lemma Keeps.getElem?_captures {c' : Capture} (h : Keeps finished c) (h' : Keeps finished c')
    (hinv : c.Inv) (hinv' : c'.Inv) (hgrown : evictions c.history ≤ evictions c'.history) {i : ℕ}
    (hi : evictions c.history + i < (files finished).length)
    (hgone : evictions c'.history ≤ evictions c.history + i) :
    c'.store.captures[i - (evictions c'.history - evictions c.history)]?
      = c.store.captures[i]? := by
  have hpos : evictions c'.history + (i - (evictions c'.history - evictions c.history))
      = evictions c.history + i := by omega
  obtain ⟨newer, hfiles⟩ := prefix_files h.suffix
  obtain ⟨newer', hfiles'⟩ := prefix_files h'.suffix
  rw [hinv.shelves.captures_eq, hinv'.shelves.captures_eq, List.getElem?_drop, List.getElem?_drop,
    hpos, ← hfiles, ← hfiles', List.getElem?_append_left hi, List.getElem?_append_left hi]

end Capture

/-! ### The loop for finished captures -/

variable {v : GrowthPolicy} {c : Capture} {name : List UInt8} {turns : List Turn}

lemma trueSnapshot_of_undisturbed (hinv : c.Inv) (hbacked : c.Backed v)
    (h : Undisturbed v c name turns) : TrueSnapshot v c name turns := by
  intro d bytes hd hbytes
  obtain ⟨i, b, hidx, hb, rfl, rfl⟩ := lookup_spec hbacked hd hbytes
  exact loopAfter_of_readable hinv hbacked hb (h i b.contents hidx hbytes)

/-- A stored capture fits the buffer it lies in. -/
lemma length_le_capacity (hbacked : c.Backed v) (i : ℕ) :
    ((c.store.captures[i]?).map (·.bytes.length)).getD 0
      ≤ (((buffers v c.history).owned[i]?).map (·.capacity)).getD 0 := by
  have hget := congrArg (fun l => (l[i]?).map List.length) hbacked
  simp only [Buffers.contents, List.getElem?_map, Option.map_map] at hget
  cases hb : (buffers v c.history).owned[i]? with
  | none =>
    rw [hb] at hget
    exact (congrArg (Option.getD · 0) hget.symm).le
  | some b =>
    rw [hb] at hget
    exact (congrArg (Option.getD · 0) hget.symm).le.trans b.fits

/-- A finished capture can be read as long as it is stored. -/
lemma readable_afterCalls_iff (hinv : c.Inv) (hbacked : c.Backed v) {i : ℕ}
    (hi : evictions c.history + i < (files c.finishedPairs).length) (turns : List Turn) :
    Readable v c (afterCalls c turns) i ↔
      evictions (afterCalls c turns).history ≤ evictions c.history + i := by
  obtain ⟨hinv', -, t, ht⟩ := afterCalls_spec hinv hbacked turns
  have hgrown : evictions c.history ≤ evictions (afterCalls c turns).history := by
    rw [← ht, evictions, evictions, List.countP_append]
    exact Nat.le_add_right _ _
  constructor
  · rintro ⟨hgone, -⟩
    omega
  · intro hgone
    have hkept := c.keeps_finishedPairs.getElem?_captures
      (c.keeps_finishedPairs.afterCalls hinv turns) hinv hinv' hgrown hi hgone
    refine ⟨by omega, ?_⟩
    rw [hkept]
    exact length_le_capacity hbacked i

/-- The loop sends a finished capture exactly when the capture is still stored before every round
that has something to send: more captures must have been evicted in the meantime than were stored
before it for anything to go wrong. -/
lemma finished_loop_iff (hinv : c.Inv) (hbacked : c.Backed v) {i : ℕ} {b : Buffer UInt8}
    (hb : (buffers v c.history).owned[i]? = some b)
    (hi : evictions c.history + i < (files c.finishedPairs).length) (turns : List Turn) :
    let d := loopAfter v c (.start b.id b.contents.length) turns
    (d.dangling = false ∧ d.body = b.contents.take (kStreamChunkBytes * rounds turns)) ↔
      ∀ before after, turns = before ++ .chunk :: after →
        kStreamChunkBytes * rounds before < b.contents.length →
          evictions (afterCalls c before).history ≤ evictions c.history + i := by
  intro d
  constructor
  · rintro ⟨hsafe, -⟩ before after hturns hrest
    exact (readable_afterCalls_iff hinv hbacked hi before).mp
      (readable_of_not_dangling hinv hbacked hb hsafe before after hturns hrest)
  · intro h
    apply loopAfter_of_readable hinv hbacked hb
    intro before after hturns hrest
    exact (readable_afterCalls_iff hinv hbacked hi before).mpr (h before after hturns hrest)

/-! ### Between sessions -/

namespace Capture

/-- Without a session, a call that starts none leaves the history alone. -/
lemma Inv.history_step_of_not_isLive (h : c.Inv) (hlive : ¬ c.isLive) {op : Op}
    (hop : op.isStart = false) :
    (c.step op).history = c.history ∧ ¬ (c.step op).isLive := by
  cases op with
  | sessionStart p => cases hop
  | sessionEnd p =>
    obtain ⟨_, -, hflush⟩ := h.flushRing_of_not_isLive hlive p
    refine ⟨?_, not_isLive_onSessionEnd p c⟩
    rw [Capture.step, history_onSessionEnd, hflush]
  | record p direction bytes =>
    obtain ⟨_, _, _, hframe⟩ := record_frame p direction bytes c
    rw [Capture.step, hframe]
    exact ⟨rfl, hlive⟩
  | loop p =>
    obtain ⟨_, -, hflush⟩ := h.flushRing_of_not_isLive hlive p
    rw [Capture.step, loop_eq_flushRing, hflush]
    exact ⟨rfl, hlive⟩

lemma Inv.history_afterCalls (h : c.Inv) (hlive : ¬ c.isLive) (turns : List Turn)
    (hturns : ∀ op, .call op ∈ turns → op.isStart = false) :
    (afterCalls c turns).history = c.history := by
  induction turns generalizing c with
  | nil => rfl
  | cons turn turns ih =>
    have hrest : ∀ op, .call op ∈ turns → op.isStart = false :=
      fun op hop => hturns op (List.mem_cons_of_mem _ hop)
    cases turn with
    | call op =>
      obtain ⟨hhistory, hlive'⟩ :=
        h.history_step_of_not_isLive hlive (hturns op List.mem_cons_self)
      exact (ih (h.step op) hlive' hrest).trans hhistory
    | chunk => exact ih h hlive hrest

end Capture

/-- The call of a turn, if it is one. -/
def Turn.op? : Turn → Option Capture.Op
  | .call op => some op
  | .chunk => none

/-- Only an accept starts a session. -/
lemma accepted_of_sessionStart {o : Obs} (h : .sessionStart ∈ o.calls) :
    ∃ transition id conn drops, o = .accepted transition id conn drops := by
  cases o with
  | accepted transition id conn drops => exact ⟨transition, id, conn, drops, rfl⟩
  | uartRx batch reads => by_cases hbatch : batch = [] <;> simp [Obs.calls, hbatch] at h
  | read conn want answer => cases answer <;> simp [Obs.calls] at h
  | ended transition id drops => cases transition <;> simp [Obs.calls] at h
  | _ => simp [Obs.calls] at h

namespace Texecom

variable {cc : Capture.Config} {t t' : Texecom} {inp : Tick}

/-- From `t` to `t'` no session starts. -/
def NoStart (t t' : Texecom) : Prop :=
  ∃ io, t'.io = t.io ++ io ∧ .sessionStart ∉ io.flatMap Obs.calls

lemma NoStart.of_forall {io : List Obs} (hio : t'.io = t.io ++ io)
    (h : ∀ o ∈ io, ∀ transition id conn drops, o ≠ .accepted transition id conn drops) :
    t.NoStart t' := by
  refine ⟨io, hio, fun hmem => ?_⟩
  obtain ⟨o, ho, hstart⟩ := List.mem_flatMap.mp hmem
  obtain ⟨transition, id, conn, drops, heq⟩ := accepted_of_sessionStart hstart
  exact h o ho transition id conn drops heq

lemma NoStart.trans {t'' : Texecom} (h : t.NoStart t') (h' : t'.NoStart t'') : t.NoStart t'' := by
  obtain ⟨io, hio, hnone⟩ := h
  obtain ⟨io', hio', hnone'⟩ := h'
  refine ⟨io ++ io', by rw [hio', hio, List.append_assoc], ?_⟩
  rw [List.flatMap_append, List.mem_append, not_or]
  exact ⟨hnone, hnone'⟩

lemma noStart_pumpStep (h : PumpStep inp t t') : t.NoStart t' := by
  cases h with
  | receiveFromUart => exact .of_forall rfl (by simp)
  | send conn hsession hclient =>
    refine .of_forall rfl fun o ho _ _ _ _ heq => ?_
    obtain ⟨_, _, rfl⟩ := (sendLoop_spec inp conn 0 t.sendState).1 o ho
    cases heq
  | read conn hsession hclient =>
    refine .of_forall rfl fun o ho _ _ _ _ heq => ?_
    obtain ⟨_, _, rfl⟩ := (readLoop_spec inp conn 0 t.tcpToUart t.capture).1 o ho
    cases heq
  | disconnect conn hsession hclient => exact .of_forall rfl (by simp)
  | sendToUart => exact .of_forall rfl (by simp)
  | captureLoop => exact .of_forall (List.append_nil _).symm (by simp)

lemma noStart_pumpSteps (h : PumpSteps inp t t') : t.NoStart t' := by
  induction h with
  | refl => exact .of_forall (List.append_nil _).symm (by simp)
  | tail _ hstep ih => exact ih.trans (noStart_pumpStep hstep)

lemma Inv.noStart_loop (h : t.Inv cc) (hnone : inp.accept = none) : t.NoStart (t.loop inp) := by
  have hbegin : t.NoStart t.beginTick := .of_forall rfl (by simp)
  have hpumped := noStart_pumpSteps (loop_steps (h.beginTick.acceptPendingClient inp))
  rw [acceptPendingClient_of_none (Or.inr hnone)] at hpumped
  exact hbegin.trans hpumped

lemma Inv.noStart_ticks (h : t.Inv cc) {ticks : List Tick}
    (hnone : ∀ inp ∈ ticks, inp.accept = none) :
    t.NoStart (ticks.foldl (fun t inp => t.loop inp) t) := by
  induction ticks generalizing t with
  | nil => exact .of_forall (List.append_nil _).symm (by simp)
  | cons inp ticks ih =>
    exact (h.noStart_loop (hnone inp List.mem_cons_self)).trans
      (ih (h.loop inp) fun inp' hinp' => hnone inp' (List.mem_cons_of_mem _ hinp'))

/-- From a tick boundary at which no client is connected, and over any number of ticks in which none
connects, the calls that these ticks make to the capture sink may come between the chunks of a
download in any way: what is sent are the bytes that were there at the lookup. -/
theorem download_between_sessions (v : GrowthPolicy) (cfg : Config) (listen : Bool)
    (ticks later : List Tick) (hmode : (run cfg listen ticks).isBridgeMode = false)
    (hnone : ∀ inp ∈ later, inp.accept = none) :
    let t := run cfg listen ticks
    let t' := run cfg listen (ticks ++ later)
    ∃ ops io, t'.capture = ops.foldl Capture.step t.capture ∧ t'.io = t.io ++ io ∧
      ops.map Capture.Op.call = calls io ∧
      ∀ name turns, turns.filterMap Turn.op? = ops → TrueSnapshot v t.capture name turns := by
  intro t t'
  have h : t.Inv (Capture.configured cfg.capture).config := inv_run cfg listen ticks
  have hrun : t' = later.foldl (fun t inp => t.loop inp) t := by simp [t', t, run]
  obtain ⟨ops, io, hcapture, hio, hshown⟩ := calls_ticks later t
  obtain ⟨io', hio', hstart⟩ := h.noStart_ticks hnone
  obtain rfl : io = io' := List.append_cancel_left (hio.symm.trans hio')
  rw [hrun]
  refine ⟨ops, io, hcapture, hio, hshown.map_eq, fun name turns hturns => ?_⟩
  obtain ⟨ops₀, howns⟩ := Device.owns_ticks cfg listen ticks
  have hbacked : t.capture.Backed v := by
    rw [howns.capture_eq]
    exact Capture.backed_run v cfg.capture ops₀
  have hlive : ¬ t.capture.isLive := h.not_isLive (h.clientSocket_of_monitor hmode)
  have hops : ∀ op, .call op ∈ turns → op.isStart = false := by
    intro op hop
    have hmem : op ∈ ops := by
      rw [← hturns]
      exact List.mem_filterMap.mpr ⟨_, hop, rfl⟩
    have hcall := List.mem_map_of_mem (f := Capture.Op.call) hmem
    cases op with
    | sessionStart p =>
      rw [hshown.map_eq, calls] at hcall
      rcases List.mem_append.mp (List.mem_of_mem_tail hcall) with hcall | hcall
      · exact absurd hcall hstart
      · cases List.mem_singleton.mp hcall
    | _ => rfl
  apply trueSnapshot_of_undisturbed h.capture hbacked
  intro i bytes hidx hbytes before after hbefore _
  have hsame := h.capture.history_afterCalls hlive before fun op hop =>
    hops op (hbefore ▸ List.mem_append_left _ hop)
  obtain ⟨hinv', -, -⟩ := afterCalls_spec h.capture hbacked before
  rw [Readable, hsame, Nat.sub_self, Nat.sub_zero, hinv'.shelves.captures_eq, hsame,
    ← h.capture.shelves.captures_eq]
  exact ⟨Nat.zero_le _, length_le_capacity hbacked i⟩

/-- After a visit, a quiet tick between the lookup and the first chunk. -/
theorem download_between_sessions_visit :
    let cfg : Config := ⟨true, none, .bridgeOnly, 8192⟩
    ∃ ops : List Capture.Op, (run cfg true [.visit 1 0x41, .quiet]).capture
        = ops.foldl Capture.step (run cfg true [.visit 1 0x41]).capture ∧
      TrueSnapshot .doubling (run cfg true [.visit 1 0x41]).capture (ascii "wintex-boot0-001.bin")
        (ops.map .call ++ [.chunk]) := by
  intro cfg
  obtain ⟨ops, io, hcapture, -, -, hsnapshot⟩ := download_between_sessions .doubling cfg true
    [.visit 1 0x41] [.quiet] (by decide +kernel) (by simp [Tick.quiet])
  refine ⟨ops, hcapture, hsnapshot _ _ ?_⟩
  have hcalls : (ops.map Turn.call).filterMap Turn.op? = ops := by
    rw [List.filterMap_map]
    exact List.filterMap_some
  rw [List.filterMap_append, hcalls]
  exact List.append_nil _

end Texecom
end TexecomBridge
