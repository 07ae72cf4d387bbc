import TexecomBridge.Texecom.Shutdown
import TexecomBridge.Capture.Names

/-!
# The calls a component makes

Whatever state the component is in, a tick leaves the capture sink as some calls of the sink's own
do, and the trace shows which. Asking `would_record()` first only spares calls that do nothing.
-/

namespace TexecomBridge

/-! ### Calls in a trace -/

/-- A call to the capture sink, without what the platform answers during it. -/
inductive Capture.Call
  | sessionStart
  | sessionEnd
  | record (direction : UInt8) (bytes : List UInt8)
  | loop
  deriving DecidableEq

def Capture.Op.call : Capture.Op → Capture.Call
  | .sessionStart _ => .sessionStart
  | .sessionEnd _ => .sessionEnd
  | .record _ direction bytes => .record direction bytes
  | .loop _ => .loop

/-- The calls that come with an observation. A tick ends with a flush, which is counted to the
beginning of the next. -/
def Obs.calls : Obs → List Capture.Call
  | .tick => [.loop]
  | .accepted _ _ _ _ => [.sessionStart]
  | .uartRx batch _ => if batch = [] then [] else [.record 0 batch]
  | .read _ _ (.data bytes) => [.record 1 bytes]
  | .ended .enteredMonitor _ _ => [.sessionEnd]
  | _ => []

/-- The calls that a trace of whole ticks shows. -/
def calls (io : List Obs) : List Capture.Call := (io.flatMap Obs.calls ++ [Capture.Call.loop]).tail

/-- A trace of whole ticks shows these calls. -/
def Shown (ops : List Capture.Op) (io : List Obs) : Prop :=
  .loop :: ops.map Capture.Op.call = io.flatMap Obs.calls ++ [.loop]

namespace Shown

variable {ops ops' : List Capture.Op} {io io' : List Obs}

lemma nil : Shown [] [] := rfl

lemma append (h : Shown ops io) (h' : Shown ops' io') : Shown (ops ++ ops') (io ++ io') := by
  unfold Shown at *
  rw [List.map_append, ← List.cons_append, h, List.append_assoc, List.singleton_append, h',
    List.flatMap_append, List.append_assoc]

/-- The flush of a tick comes last. -/
lemma tick (h : ops.map Capture.Op.call = io.flatMap Obs.calls) (p : Platform) :
    Shown (ops ++ [.loop p]) (.tick :: io) := by
  rw [Shown, List.map_append, h, List.flatMap_cons]
  rfl

lemma map_eq (h : Shown ops io) : ops.map Capture.Op.call = calls io := by
  rw [calls, ← h, List.tail_cons]

end Shown

/-- A refused `record()` is the same as none. -/
lemma recordIfWanted_eq (p : Platform) (direction : UInt8) (bytes : List UInt8) (c : Capture) :
    recordIfWanted p direction bytes c = (c.record p direction bytes).2 := by
  unfold recordIfWanted
  split_ifs with hwould
  · rfl
  · unfold Capture.wouldRecord at hwould
    split_ifs at hwould with hnone hbridge
    · simp [Capture.record, hnone]
    · unfold Capture.record
      split_ifs <;> rfl
    · exact absurd rfl hwould

/-- The pushes of a read that fits make no call. -/
lemma calls_pushAll (bs : List UInt8) (ring : RingBuffer UInt8 kBufferSize) :
    (pushAll bs ring).2.flatMap Obs.calls = [] := by
  induction bs generalizing ring with
  | nil => rfl
  | cons b bs ih =>
    rw [pushAll]
    cases hpush : ring.push b with
    | mk pushed ring' =>
      cases pushed with
      | true => exact ih ring'
      | false => simpa [Obs.calls] using ih ring'

lemma calls_sendLoop (inp : Tick) (conn : Conn) (k : ℕ) (s : SendState) :
    (sendLoop inp conn k s).io.flatMap Obs.calls = [] := by
  apply List.flatMap_eq_nil_iff.mpr
  intro o ho
  obtain ⟨_, _, rfl⟩ := (sendLoop_spec inp conn k s).1 o ho
  rfl

/-- The read loop records every batch it reads. -/
lemma calls_readLoop (inp : Tick) (conn : Conn) (k : ℕ) (ring : RingBuffer UInt8 kBufferSize)
    (capture : Capture) : ∃ ops : List Capture.Op,
      (readLoop inp conn k ring capture).capture = ops.foldl Capture.step capture ∧
      ops.map Capture.Op.call = (readLoop inp conn k ring capture).io.flatMap Obs.calls := by
  induction k, ring, capture using readLoop_induction inp conn with
  | full k ring capture hfull =>
    rw [readLoop_of_full hfull]
    exact ⟨[], rfl, rfl⟩
  | no_data k ring capture hfull hdata =>
    rw [readLoop_of_no_data hfull hdata]
    refine ⟨[], rfl, ?_⟩
    cases hanswer : inp.read k (wanted ring) with
    | data bytes => exact absurd hanswer (hdata bytes)
    | _ => rfl
  | data k ring capture bytes hfull hanswer ih =>
    obtain ⟨ops, hcapture, hcalls⟩ := ih
    rw [readLoop_of_data hfull hanswer]
    refine ⟨.record (inp.atRead k) 1 bytes :: ops, ?_, ?_⟩
    · rw [hcapture, recordIfWanted_eq]
      rfl
    · rw [List.map_cons, hcalls, List.cons_append, List.flatMap_cons, List.flatMap_append,
        calls_pushAll]
      rfl

namespace Texecom

/-! ### Calls of a step -/

/-- From `t` to `t'` the panel model stays, the sink takes calls, and the trace shows them. -/
def Calls (t t' : Texecom) : Prop :=
  t'.model = t.model ∧
  ∃ (ops : List Capture.Op) (io : List Obs), t'.capture = ops.foldl Capture.step t.capture ∧
    t'.io = t.io ++ io ∧ ops.map Capture.Op.call = io.flatMap Obs.calls

variable {t t' t'' : Texecom}

namespace Calls

lemma refl (t : Texecom) : t.Calls t := ⟨rfl, [], [], rfl, (List.append_nil _).symm, rfl⟩

lemma trans (h : t.Calls t') (h' : t'.Calls t'') : t.Calls t'' := by
  obtain ⟨hmodel, ops, io, hcapture, hio, hcalls⟩ := h
  obtain ⟨hmodel', ops', io', hcapture', hio', hcalls'⟩ := h'
  refine ⟨hmodel'.trans hmodel, ops ++ ops', io ++ io', ?_, ?_, ?_⟩
  · rw [hcapture', hcapture, List.foldl_append]
  · rw [hio', hio, List.append_assoc]
  · rw [List.map_append, hcalls, hcalls', List.flatMap_append]

/-- A step that leaves the sink alone. -/
lemma of_quiet {io : List Obs} (hmodel : t'.model = t.model) (hcapture : t'.capture = t.capture)
    (hio : t'.io = t.io ++ io) (hquiet : io.flatMap Obs.calls = []) : t.Calls t' :=
  ⟨hmodel, [], io, hcapture, hio, hquiet.symm⟩

/-- A step with one call. -/
lemma of_call (op : Capture.Op) {io : List Obs} (hmodel : t'.model = t.model)
    (hcapture : t'.capture = t.capture.step op) (hio : t'.io = t.io ++ io)
    (hcall : io.flatMap Obs.calls = [op.call]) : t.Calls t' :=
  ⟨hmodel, [op], io, hcapture, hio, hcall.symm⟩

end Calls

lemma calls_closeClient (t : Texecom) : t.Calls t.closeClient := by
  unfold closeClient
  split
  · exact .refl t
  · exact .of_quiet rfl rfl rfl rfl

lemma calls_acceptPendingClient (inp : Tick) (t : Texecom) :
    t.Calls (t.acceptPendingClient inp) := by
  unfold acceptPendingClient
  split_ifs
  · exact .refl t
  · split
    · exact .refl t
    · rename_i pending haccept
      cases hconnect : t.session.onConnect t.nextClientId with
      | mk transition session =>
        by_cases hrejected : transition = .rejected
        · simp only [hconnect, if_pos hrejected]
          exact .of_quiet rfl rfl rfl rfl
        · have hclosed : t.Calls (closeClient
              { t with nextClientId := idAfter t.nextClientId, session := session }) :=
            calls_closeClient _
          simp only [hconnect, if_neg hrejected]
          exact hclosed.trans (.of_call (.sessionStart inp.atAccept) rfl rfl rfl rfl)

lemma calls_endSession (p : Platform) (t : Texecom) : t.Calls (t.endSession p) := by
  refine (calls_closeClient t).trans ?_
  unfold endSession
  cases hdisconnect : t.closeClient.session.onDisconnect t.closeClient.activeClientId with
  | mk transition session =>
    simp only [hdisconnect]
    cases transition with
    | enteredMonitor => exact .of_call (.sessionEnd p) rfl rfl rfl rfl
    | _ => exact .of_quiet rfl rfl rfl rfl

lemma calls_receiveFromUart (inp : Tick) (t : Texecom) : t.Calls (t.receiveFromUart inp) := by
  unfold receiveFromUart
  by_cases hbatch : (drainUart inp.uart kBatchSize [] t.uartToTcp t.uartToTcpDrops).batch = []
  · refine .of_quiet rfl ?_ rfl ?_
    · simp [hbatch]
    · simp [Obs.calls, hbatch]
  · refine .of_call (.record inp.atUart 0
      (drainUart inp.uart kBatchSize [] t.uartToTcp t.uartToTcpDrops).batch) rfl ?_ rfl ?_
    · simp only [ne_eq, hbatch, not_false_eq_true, if_true, recordIfWanted_eq]
      rfl
    · simp [Obs.calls, hbatch, Capture.Op.call]

lemma calls_sendToClient (inp : Tick) (t : Texecom) : t.Calls (t.sendToClient inp) := by
  unfold sendToClient
  split
  · rename_i conn hmode hclient
    have hsent : t.Calls (t.afterSend (sendLoop inp conn 0 t.sendState)) :=
      .of_quiet rfl rfl rfl (calls_sendLoop inp conn 0 t.sendState)
    simp only
    split_ifs
    · exact hsent.trans (calls_endSession inp.atEnd _)
    · exact hsent
  · exact .refl t

lemma calls_pumpUartToTcp (inp : Tick) (t : Texecom) : t.Calls (t.pumpUartToTcp inp) := by
  unfold pumpUartToTcp
  split_ifs
  · exact .refl t
  · exact (calls_receiveFromUart inp t).trans (calls_sendToClient inp _)

lemma calls_receiveFromClient (inp : Tick) (t : Texecom) :
    t.Calls (t.receiveFromClient inp).1 := by
  unfold receiveFromClient
  split
  · rename_i conn hmode hclient
    obtain ⟨ops, hcapture, hcalls⟩ := calls_readLoop inp conn 0 t.tcpToUart t.capture
    exact ⟨rfl, ops, _, hcapture, rfl, hcalls⟩
  · exact .refl t

lemma calls_sendToUart (t : Texecom) : t.Calls t.sendToUart := by
  refine .of_quiet rfl rfl rfl (List.flatMap_eq_nil_iff.mpr ?_)
  intro o ho
  obtain ⟨b, -, rfl⟩ := List.mem_map.mp ho
  rfl

lemma calls_pumpTcpToUart (inp : Tick) (t : Texecom) : t.Calls (t.pumpTcpToUart inp) := by
  unfold pumpTcpToUart
  split_ifs
  · exact .refl t
  · have hreceived := calls_receiveFromClient inp t
    split
    · rename_i t' heq
      rw [heq] at hreceived
      exact hreceived.trans (calls_endSession inp.atEnd t')
    · rename_i t' heq
      rw [heq] at hreceived
      exact hreceived.trans (calls_sendToUart t')

/-- A tick takes the calls it shows, and then a flush. -/
lemma calls_loop (inp : Tick) (t : Texecom) : (t.loop inp).model = t.model ∧
    ∃ (ops : List Capture.Op) (io : List Obs),
      (t.loop inp).capture = ops.foldl Capture.step t.capture ∧ (t.loop inp).io = t.io ++ io ∧
      Shown ops io := by
  obtain ⟨hmodel, ops, io, hcapture, hio, hcalls⟩ :=
    ((calls_acceptPendingClient inp t.beginTick).trans (calls_pumpUartToTcp inp _)).trans
      (calls_pumpTcpToUart inp _)
  refine ⟨hmodel, ops ++ [.loop inp.atLoop], .tick :: io, ?_, ?_, .tick hcalls inp.atLoop⟩
  · rw [loop, captureLoop, hcapture, List.foldl_append]
    rfl
  · rw [loop, captureLoop, hio, beginTick, List.append_assoc]
    rfl

lemma calls_ticks (ticks : List Tick) (t : Texecom) : ∃ (ops : List Capture.Op) (io : List Obs),
    (ticks.foldl (fun t inp => t.loop inp) t).capture = ops.foldl Capture.step t.capture ∧
      (ticks.foldl (fun t inp => t.loop inp) t).io = t.io ++ io ∧ Shown ops io := by
  induction ticks generalizing t with
  | nil => exact ⟨[], [], rfl, (List.append_nil _).symm, .nil⟩
  | cons inp ticks ih =>
    obtain ⟨-, ops, io, hcapture, hio, hshown⟩ := calls_loop inp t
    obtain ⟨ops', io', hcapture', hio', hshown'⟩ := ih (t.loop inp)
    refine ⟨ops ++ ops', io ++ io', ?_, ?_, hshown.append hshown'⟩
    · rw [List.foldl_cons, hcapture', hcapture, List.foldl_append]
    · rw [List.foldl_cons, hio', hio, List.append_assoc]

end Texecom
end TexecomBridge
