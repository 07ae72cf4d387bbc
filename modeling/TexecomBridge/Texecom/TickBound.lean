import TexecomBridge.Texecom.Agreement

/-!
# What a tick costs

Whatever the UART and the client answer, a tick makes boundedly many calls to them. The send loop
ends because a full write empties the stage and the next one is refilled from a finite ring, the
read loop because it asks for at least one byte and stops when the ring is full.
-/

namespace TexecomBridge

/-! ### Counting calls -/

/-- Calls to a client's `write()`. -/
def Obs.writeCalls : Obs → List (Conn × List UInt8)
  | .write conn offered _ => [(conn, offered)]
  | _ => []

/-- Calls to `read_byte()`. -/
def Obs.uartReads : Obs → ℕ
  | .uartRx _ reads => reads
  | _ => 0

def writeCalls (io : List Obs) : List (Conn × List UInt8) := io.flatMap Obs.writeCalls

def uartReads (io : List Obs) : ℕ := (io.map Obs.uartReads).sum

@[simp] lemma writeCalls_append (io io' : List Obs) :
    writeCalls (io ++ io') = writeCalls io ++ writeCalls io' :=
  List.flatMap_append

@[simp] lemma readCalls_append (io io' : List Obs) :
    readCalls (io ++ io') = readCalls io ++ readCalls io' :=
  List.flatMap_append

@[simp] lemma uartReads_append (io io' : List Obs) :
    uartReads (io ++ io') = uartReads io + uartReads io' := by
  simp [uartReads]

/-- At most this many calls of each kind, and no `read()` that asks for nothing. -/
structure CallsWithin (fromUart writes reads toUart : ℕ) (io : List Obs) : Prop where
  uartReads_le : uartReads io ≤ fromUart
  writeCalls_le : (writeCalls io).length ≤ writes
  readCalls_le : (readCalls io).length ≤ reads
  want_pos : ∀ call ∈ readCalls io, 1 ≤ call.2
  panelTx_le : (panelTx io).length ≤ toUart

lemma CallsWithin.append {a b c d a' b' c' d' : ℕ} {io io' : List Obs} (h : CallsWithin a b c d io)
    (h' : CallsWithin a' b' c' d' io') :
    CallsWithin (a + a') (b + b') (c + c') (d + d') (io ++ io') := by
  refine ⟨?_, ?_, ?_, ?_, ?_⟩
  · rw [uartReads_append]
    exact Nat.add_le_add h.uartReads_le h'.uartReads_le
  · rw [writeCalls_append, List.length_append]
    exact Nat.add_le_add h.writeCalls_le h'.writeCalls_le
  · rw [readCalls_append, List.length_append]
    exact Nat.add_le_add h.readCalls_le h'.readCalls_le
  · rw [readCalls_append]
    intro call hcall
    rcases List.mem_append.mp hcall with hcall | hcall
    · exact h.want_pos call hcall
    · exact h'.want_pos call hcall
  · rw [panelTx_append, List.length_append]
    exact Nat.add_le_add h.panelTx_le h'.panelTx_le

lemma CallsWithin.mono {a b c d a' b' c' d' : ℕ} {io : List Obs} (h : CallsWithin a b c d io)
    (ha : a ≤ a') (hb : b ≤ b') (hc : c ≤ c') (hd : d ≤ d') : CallsWithin a' b' c' d' io :=
  ⟨h.uartReads_le.trans ha, h.writeCalls_le.trans hb, h.readCalls_le.trans hc, h.want_pos,
    h.panelTx_le.trans hd⟩

/-- Transitions, rejections and tick marks are no calls. -/
def Obs.isCall : Obs → Bool
  | .uartRx _ _ => true
  | .write _ _ _ => true
  | .read _ _ _ => true
  | .uartTx _ => true
  | _ => false

lemma callsWithin_singleton {o : Obs} (h : o.isCall = false) : CallsWithin 0 0 0 0 [o] := by
  have hnone : o.uartReads = 0 ∧ o.writeCalls = [] ∧ o.readCalls = [] ∧ o.panelTx = [] := by
    cases o <;> first | exact ⟨rfl, rfl, rfl, rfl⟩ | cases h
  obtain ⟨huart, hwrite, hread, htx⟩ := hnone
  constructor
  · simp [uartReads, huart]
  · simp [writeCalls, hwrite]
  · simp [readCalls, hread]
  · simp [readCalls, hread]
  · simp [panelTx, htx]

lemma callsWithin_zero {io : List Obs} (h : ∀ o ∈ io, o.isCall = false) :
    CallsWithin 0 0 0 0 io := by
  induction io with
  | nil => exact ⟨le_rfl, le_rfl, le_rfl, by simp [readCalls], le_rfl⟩
  | cons o io ih =>
    have hfirst := callsWithin_singleton (h o List.mem_cons_self)
    exact hfirst.append (ih fun o' ho' => h o' (List.mem_cons_of_mem _ ho'))

/-! ### UART to ring -/

/-- Every read but a failed last one delivers a byte, and there is room for at most `room`. -/
lemma reads_drainUart (uart : ℕ → UartAnswer) (room : ℕ) (batch : List UInt8)
    (ring : RingBuffer UInt8 kBufferSize) (drops : UInt32) :
    (drainUart uart room batch ring drops).reads ≤ batch.length + room := by
  induction room generalizing batch ring drops with
  | zero => exact le_rfl
  | succ room ih =>
    rw [drainUart]
    cases uart batch.length with
    | unavailable => exact Nat.le_add_right _ _
    | failed => exact Nat.add_le_add_left (Nat.succ_le_succ (Nat.zero_le _)) _
    | byte b =>
      have hrest := ih (batch ++ [b]) (pushDroppingOldest b ring drops).1
        (pushDroppingOldest b ring drops).2
      rw [List.length_append, List.length_singleton] at hrest
      exact hrest.trans_eq (by omega)

/-! ### Ring to socket -/

/-- A refill takes what there is room for. -/
lemma size_refill (room : ℕ) (stage : List UInt8) (ring : RingBuffer UInt8 kBufferSize) :
    (refill room stage ring).2.size = ring.size - room := by
  induction room generalizing stage ring with
  | zero => rfl
  | succ room ih =>
    cases hring : ring.toList with
    | nil =>
      have hsize := Circular.toList_eq_nil_iff.mp hring
      rw [refill, RingBuffer.pop_of_empty hsize, hsize]
      simp
    | cons b bs =>
      obtain ⟨ring', hpop, hring'⟩ := RingBuffer.pop_of_cons hring 0
      have hsize := congrArg List.length hring
      have hsize' := congrArg List.length hring'
      rw [Circular.length_toList] at hsize hsize'
      rw [List.length_cons] at hsize
      rw [refill, hpop]
      simp only
      rw [ih, hsize, hsize']
      omega

/-- The writes that are left if each is taken in full: one for the stage unless all of it has been
sent, and one for each stage that the ring can fill. -/
def SendState.writesLeft (s : SendState) : ℕ :=
  (if s.off < s.stage.length then 1 else 0) +
    (s.ring.size + (kSendStageSize - 1)) / kSendStageSize

/-- With something to offer there is a write left. -/
lemma SendState.writesLeft_pos {s : SendState} (h : s.topUp.remaining ≠ []) : 1 ≤ s.writesLeft := by
  unfold writesLeft
  split_ifs with hstage
  · exact Nat.le_add_right _ _
  · have hpending := congrArg List.length s.pending_topUp
    have hpos := List.length_pos_iff.mpr h
    simp only [SendState.pending, SendState.remaining, List.length_append, List.length_drop,
      Circular.length_toList] at hpending hpos
    simp only [kSendStageSize]
    omega

/-- A write that is taken in full uses one up. -/
lemma SendState.writesLeft_advance {s : SendState} (h : s.topUp.remaining ≠ []) {n : ℕ}
    (hn : s.topUp.remaining.length ≤ n) : (s.topUp.advance n).writesLeft + 1 ≤ s.writesLeft := by
  have hsent : ¬ (s.topUp.advance n).off < (s.topUp.advance n).stage.length := by
    simp only [SendState.remaining, List.length_drop] at hn
    simp only [SendState.advance]
    omega
  have hpos := s.writesLeft_pos h
  rw [writesLeft, if_neg hsent, Nat.zero_add]
  by_cases hstage : s.off < s.stage.length
  · have hring : (s.topUp.advance n).ring = s.ring := by
      rw [SendState.topUp, if_neg (not_le.mpr hstage)]
      rfl
    rw [hring, writesLeft, if_pos hstage, Nat.add_comm]
  · have hring : (s.topUp.advance n).ring.size = s.ring.size - kSendStageSize := by
      rw [SendState.topUp, if_pos (not_lt.mp hstage)]
      exact size_refill kSendStageSize [] s.ring
    rw [writesLeft, if_neg hstage] at hpos ⊢
    rw [hring]
    simp only [kSendStageSize] at hpos ⊢
    omega

/-- The send loop makes no more writes than are left. -/
lemma length_sendLoop (inp : Tick) (conn : Conn) (k : ℕ) (s : SendState) :
    (sendLoop inp conn k s).io.length ≤ s.writesLeft := by
  induction k, s using sendLoop.induct inp conn with
  | case1 k s hempty =>
    rw [sendLoop, dif_pos hempty]
    exact Nat.zero_le _
  | case2 k s hempty hanswer =>
    rw [sendLoop, dif_neg hempty, hanswer]
    exact SendState.writesLeft_pos hempty
  | case3 k s hempty hanswer =>
    rw [sendLoop, dif_neg hempty, hanswer]
    exact SendState.writesLeft_pos hempty
  | case4 k s hempty n hanswer hshort =>
    rw [sendLoop, dif_neg hempty, hanswer]
    simp only [if_pos hshort]
    exact SendState.writesLeft_pos hempty
  | case5 k s hempty n hanswer hfull ih =>
    rw [sendLoop, dif_neg hempty, hanswer]
    simp only [if_neg hfull, List.length_cons]
    exact (Nat.succ_le_succ ih).trans (SendState.writesLeft_advance hempty (not_lt.mp hfull))

/-- One for what is staged, and one for each stage the ring holds. -/
lemma writesLeft_le (s : SendState) :
    s.writesLeft ≤ (kBufferSize + (kSendStageSize - 1)) / kSendStageSize + 1 := by
  have hring := s.ring.size_le
  unfold SendState.writesLeft
  rw [Nat.add_comm]
  apply Nat.add_le_add
  · exact Nat.div_le_div_right (Nat.add_le_add_right hring _)
  · split_ifs
    · exact le_rfl
    · exact Nat.zero_le _

lemma callsWithin_sendLoop (inp : Tick) (conn : Conn) (s : SendState) :
    CallsWithin 0 ((kBufferSize + (kSendStageSize - 1)) / kSendStageSize + 1) 0 0
      (sendLoop inp conn 0 s).io := by
  have hlen := (length_sendLoop inp conn 0 s).trans (writesLeft_le s)
  have hwrites := (sendLoop_spec inp conn 0 s).1
  generalize (sendLoop inp conn 0 s).io = io at hlen hwrites
  refine CallsWithin.mono (a := 0) (b := io.length) (c := 0) (d := 0) ?_ le_rfl hlen le_rfl le_rfl
  clear hlen
  induction io with
  | nil => exact callsWithin_zero (by simp)
  | cons o io ih =>
    obtain ⟨offered, answer, rfl⟩ := hwrites o List.mem_cons_self
    have hfirst : CallsWithin 0 1 0 0 [.write conn offered answer] :=
      ⟨le_rfl, le_rfl, le_rfl, by simp [readCalls, Obs.readCalls], le_rfl⟩
    have h := hfirst.append (ih fun o' ho' => hwrites o' (List.mem_cons_of_mem _ ho'))
    exact h.mono le_rfl (by rw [List.length_cons, Nat.add_comm]) le_rfl le_rfl

/-! ### Socket to ring -/

/-- Every read but the last delivers a byte to the ring, and each asks for at least one. -/
lemma readCalls_readLoop (inp : Tick) (conn : Conn) (k : ℕ) (ring : RingBuffer UInt8 kBufferSize)
    (capture : Capture) :
    (readCalls (readLoop inp conn k ring capture).io).length ≤ kBufferSize - ring.size ∧
      ∀ call ∈ readCalls (readLoop inp conn k ring capture).io, 1 ≤ call.2 := by
  have hroom : ∀ ring : RingBuffer UInt8 kBufferSize, ¬ ring.full = true →
      1 ≤ kBufferSize - ring.size ∧ 1 ≤ wanted ring := by
    intro ring hfull
    rw [Bool.not_eq_true, RingBuffer.full_eq_false_iff] at hfull
    have hpos := Nat.sub_pos_of_lt hfull
    exact ⟨hpos, le_min hpos (by decide)⟩
  induction k, ring, capture using readLoop_induction inp conn with
  | full k ring capture hfull =>
    rw [readLoop_of_full hfull]
    exact ⟨Nat.zero_le _, by simp [readCalls]⟩
  | no_data k ring capture hfull hdata =>
    rw [readLoop_of_no_data hfull hdata]
    refine ⟨(hroom ring hfull).1, ?_⟩
    intro call hcall
    obtain rfl := List.mem_singleton.mp hcall
    exact (hroom ring hfull).2
  | data k ring capture bytes hfull hanswer ih =>
    obtain ⟨hfit, hbytes⟩ := read_fits hanswer
    obtain ⟨hring, hrefused⟩ := pushAll_spec hfit
    obtain ⟨hcount, hwant⟩ := ih
    have hsize := congrArg List.length hring
    rw [List.length_append, Circular.length_toList, Circular.length_toList] at hsize
    have hpos := List.length_pos_iff.mpr hbytes.ne_nil
    rw [readLoop_of_data hfull hanswer, hrefused]
    have hcalls : readCalls (.read conn (wanted ring) (.data bytes) :: [] ++
        (readLoop inp conn (k + 1) (pushAll bytes ring).1
          (recordIfWanted (inp.atRead k) 1 bytes capture)).io)
        = (conn, wanted ring) :: readCalls (readLoop inp conn (k + 1) (pushAll bytes ring).1
          (recordIfWanted (inp.atRead k) 1 bytes capture)).io := rfl
    simp only [hcalls]
    constructor
    · rw [hsize] at hcount
      rw [List.length_cons]
      omega
    · intro call hcall
      rcases List.mem_cons.mp hcall with rfl | hcall
      · exact (hroom ring hfull).2
      · exact hwant call hcall

lemma callsWithin_readLoop (inp : Tick) (conn : Conn) (ring : RingBuffer UInt8 kBufferSize)
    (capture : Capture) :
    CallsWithin 0 0 kBufferSize 0 (readLoop inp conn 0 ring capture).io := by
  obtain ⟨hcount, hwant⟩ := readCalls_readLoop inp conn 0 ring capture
  obtain ⟨htx, -, -, -⟩ := quiet_readLoop inp conn 0 ring capture
  have hreads := (readLoop_spec inp conn 0 ring capture).1
  refine ⟨?_, ?_, hcount.trans (Nat.sub_le _ _), hwant, ?_⟩
  · refine (List.sum_eq_zero fun n hn => ?_).le
    obtain ⟨o, ho, rfl⟩ := List.mem_map.mp hn
    obtain ⟨_, _, rfl⟩ := hreads o ho
    rfl
  · have hnil : writeCalls (readLoop inp conn 0 ring capture).io = [] := by
      apply List.flatMap_eq_nil_iff.mpr
      intro o ho
      obtain ⟨_, _, rfl⟩ := hreads o ho
      rfl
    rw [hnil, List.length_nil]
  · rw [htx, List.length_nil]

/-! ### Ring to UART -/

lemma callsWithin_uartTx (bs : List UInt8) : CallsWithin 0 0 0 bs.length (bs.map .uartTx) := by
  induction bs with
  | nil => exact callsWithin_zero (by simp)
  | cons b bs ih =>
    have hfirst : CallsWithin 0 0 0 1 [.uartTx b] :=
      ⟨le_rfl, le_rfl, le_rfl, by simp [readCalls, Obs.readCalls], le_rfl⟩
    exact (hfirst.append ih).mono le_rfl le_rfl le_rfl (by rw [List.length_cons, Nat.add_comm])

lemma callsWithin_drainToUart (ring : RingBuffer UInt8 kBufferSize) :
    CallsWithin 0 0 0 kBufferSize ((drainToUart ring).1.map .uartTx) := by
  refine (callsWithin_uartTx _).mono le_rfl le_rfl le_rfl ?_
  rw [(drainToUart_spec ring).1, Circular.length_toList]
  exact ring.size_le

namespace Texecom

variable {t : Texecom}

/-! ### A tick -/

/-- From `t` to `t'` the trace grew by at most this many calls. -/
def Spends (fromUart writes reads toUart : ℕ) (t t' : Texecom) : Prop :=
  ∃ io, t'.io = t.io ++ io ∧ CallsWithin fromUart writes reads toUart io

lemma Spends.trans {a b c d a' b' c' d' : ℕ} {t t' t'' : Texecom} (h : Spends a b c d t t')
    (h' : Spends a' b' c' d' t' t'') :
    Spends (a + a') (b + b') (c + c') (d + d') t t'' := by
  obtain ⟨io, hio, hcalls⟩ := h
  obtain ⟨io', hio', hcalls'⟩ := h'
  refine ⟨io ++ io', ?_, hcalls.append hcalls'⟩
  rw [hio', hio, List.append_assoc]

lemma Spends.mono {a b c d a' b' c' d' : ℕ} {t t' : Texecom} (h : Spends a b c d t t')
    (ha : a ≤ a') (hb : b ≤ b') (hc : c ≤ c') (hd : d ≤ d') : Spends a' b' c' d' t t' := by
  obtain ⟨io, hio, hcalls⟩ := h
  exact ⟨io, hio, hcalls.mono ha hb hc hd⟩

lemma Spends.refl (t : Texecom) : Spends 0 0 0 0 t t :=
  ⟨[], (List.append_nil _).symm, callsWithin_zero (by simp)⟩

/-- What adds no call to the trace spends nothing. -/
lemma Spends.of_append {t' : Texecom} {io : List Obs} (hio : t'.io = t.io ++ io)
    (h : ∀ o ∈ io, o.isCall = false) : Spends 0 0 0 0 t t' :=
  ⟨io, hio, callsWithin_zero h⟩

lemma spends_closeClient (t : Texecom) : Spends 0 0 0 0 t t.closeClient := by
  unfold closeClient
  split
  · exact .refl t
  · exact .of_append rfl (by simp [Obs.isCall])

lemma spends_acceptPendingClient (inp : Tick) (t : Texecom) :
    Spends 0 0 0 0 t (t.acceptPendingClient inp) := by
  unfold acceptPendingClient
  split_ifs
  · exact .refl t
  · cases inp.accept with
    | none => exact .refl t
    | some pending =>
      simp only
      split_ifs
      · exact .of_append rfl (by simp [Obs.isCall])
      · have hclosed : Spends 0 0 0 0 t (closeClient { t with
            nextClientId := idAfter t.nextClientId
            session := (t.session.onConnect t.nextClientId).2 }) := spends_closeClient _
        exact hclosed.trans (.of_append rfl (by simp [Obs.isCall]))

lemma spends_endSession (p : Platform) (t : Texecom) : Spends 0 0 0 0 t (t.endSession p) := by
  have hended : Spends 0 0 0 0 t.closeClient (t.endSession p) :=
    .of_append rfl (by simp [Obs.isCall])
  exact (spends_closeClient t).trans hended

lemma spends_pumpUartToTcp (inp : Tick) (t : Texecom) :
    Spends kBatchSize ((kBufferSize + (kSendStageSize - 1)) / kSendStageSize + 1) 0 0 t
      (t.pumpUartToTcp inp) := by
  unfold pumpUartToTcp
  split_ifs
  · exact (Spends.refl t).mono (Nat.zero_le _) (Nat.zero_le _) le_rfl le_rfl
  · have hrx : Spends kBatchSize 0 0 0 t (t.receiveFromUart inp) := by
      have hreads := reads_drainUart inp.uart kBatchSize [] t.uartToTcp t.uartToTcpDrops
      rw [List.length_nil, Nat.zero_add] at hreads
      refine ⟨_, rfl, ?_, le_rfl, le_rfl, by simp [readCalls, Obs.readCalls], le_rfl⟩
      simpa [uartReads, Obs.uartReads] using hreads
    have htx : Spends 0 ((kBufferSize + (kSendStageSize - 1)) / kSendStageSize + 1) 0 0
        (t.receiveFromUart inp) ((t.receiveFromUart inp).sendToClient inp) := by
      generalize t.receiveFromUart inp = t'
      unfold sendToClient
      split
      · rename_i conn _ _
        have hsend : Spends 0 ((kBufferSize + (kSendStageSize - 1)) / kSendStageSize + 1) 0 0 t'
            (t'.afterSend (sendLoop inp conn 0 t'.sendState)) :=
          ⟨_, rfl, callsWithin_sendLoop inp conn t'.sendState⟩
        simp only
        split_ifs
        · exact hsend.trans (spends_endSession inp.atEnd _)
        · exact hsend
      · exact (Spends.refl t').mono le_rfl (Nat.zero_le _) le_rfl le_rfl
    have h := hrx.trans htx
    rwa [Nat.zero_add] at h

lemma spends_pumpTcpToUart (inp : Tick) (t : Texecom) :
    Spends 0 0 kBufferSize kBufferSize t (t.pumpTcpToUart inp) := by
  unfold pumpTcpToUart
  split_ifs
  · exact (Spends.refl t).mono le_rfl le_rfl (Nat.zero_le _) (Nat.zero_le _)
  · have hrx : Spends 0 0 kBufferSize 0 t (t.receiveFromClient inp).1 := by
      unfold receiveFromClient
      split
      · rename_i conn _ _
        exact ⟨_, rfl, callsWithin_readLoop inp conn t.tcpToUart t.capture⟩
      · exact (Spends.refl t).mono le_rfl le_rfl (Nat.zero_le _) le_rfl
    split
    · rename_i t' heq
      rw [heq] at hrx
      exact (hrx.trans (spends_endSession inp.atEnd t')).mono le_rfl le_rfl le_rfl (Nat.zero_le _)
    · rename_i t' heq
      rw [heq] at hrx
      have htx : Spends 0 0 0 kBufferSize t' t'.sendToUart :=
        ⟨_, rfl, callsWithin_drainToUart t'.tcpToUart⟩
      have h := hrx.trans htx
      rwa [Nat.zero_add] at h

/-- In any state and whatever the UART and the client answer, a tick ends after at most 256 reads
from the UART, one `write()` for what is staged and one for each stage a full ring can fill, 1024
calls to `read()` that each ask for at least one byte, and 1024 writes to the UART, and leaves
nothing queued for capture. -/
theorem tick_bounded (t : Texecom) (inp : Tick) : ∃ io, (t.loop inp).io = t.io ++ io ∧
    uartReads io ≤ 256 ∧
    (writeCalls io).length ≤ (kBufferSize + (kSendStageSize - 1)) / kSendStageSize + 1 ∧
    (readCalls io).length ≤ kBufferSize ∧ (∀ call ∈ readCalls io, 1 ≤ call.2) ∧
    (panelTx io).length ≤ kBufferSize ∧ (t.loop inp).capture.ring.size = 0 := by
  have hbegin : Spends 0 0 0 0 t t.beginTick := .of_append rfl (by simp [Obs.isCall])
  have haccept := hbegin.trans (spends_acceptPendingClient inp t.beginTick)
  have hsend := haccept.trans (spends_pumpUartToTcp inp _)
  obtain ⟨io, hio, h⟩ := hsend.trans (spends_pumpTcpToUart inp _)
  simp only [Nat.zero_add, Nat.add_zero] at h
  exact ⟨io, hio, h.uartReads_le, h.writeCalls_le, h.readCalls_le, h.want_pos, h.panelTx_le,
    Capture.size_loop inp.atLoop _⟩

end Texecom
end TexecomBridge
