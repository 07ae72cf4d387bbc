import TexecomBridge.RingBuffer
import TexecomBridge.SessionState
import TexecomBridge.Capture.Basic

/-!
# The bridge component

`setup()` and `loop()` of the component, polled against a UART, a listening socket and one client
socket. What these answer during a tick is an argument of the tick; what the component does to them
is written to a trace. Log lines, socket options and the listener's address are not modelled.
-/

namespace TexecomBridge

def kBufferSize : ℕ := 1024
def kSendStageSize : ℕ := 256
/-- The size of `rx_batch` and of the buffer `read()` fills. -/
def kBatchSize : ℕ := 256

/-- The panel model, of which the bridge uses the name. -/
structure PanelModel where
  name : List UInt8

def panelModelPremier24 : PanelModel := ⟨ascii "Premier 24"⟩

/-! ### The world outside -/

/-- A connected socket. -/
abbrev Conn := ℕ

/-- What `available()` and `read_byte()` answer: nothing there, a failed read, or a byte. -/
inductive UartAnswer
  | unavailable
  | failed
  | byte (b : UInt8)

/-- What `read()` answers: 0, a negative value with `errno` at would-block or not, or bytes. -/
inductive ReadAnswer
  | closed
  | wouldBlock
  | error
  | data (bytes : List UInt8)

/-- What `write()` answers: a negative value with `errno` at would-block or not, or a count. -/
inductive WriteAnswer
  | wouldBlock
  | error
  | sent (n : ℕ)

/-- The answers of one tick. The `k`-th `write()` is given how many bytes it is offered and takes
no more; the `k`-th `read()` is given how many bytes are wanted and delivers at least one and no
more than that, unless it reports the peer's close. -/
structure Tick where
  accept : Option Conn
  uart : ℕ → UartAnswer
  write : ℕ → ℕ → WriteAnswer
  write_le : ∀ k offered n, write k offered = .sent n → n ≤ offered
  read : ℕ → ℕ → ReadAnswer
  read_le : ∀ k want bytes, read k want = .data bytes → bytes ≠ [] ∧ bytes.length ≤ want
  atAccept : Platform
  atUart : Platform
  atRead : ℕ → Platform
  atEnd : Platform
  atLoop : Platform

/-- A tick in which nothing arrives and nothing can be sent. -/
def Tick.quiet : Tick where
  accept := none
  uart _ := .unavailable
  write _ _ := .wouldBlock
  write_le := by simp
  read _ _ := .wouldBlock
  read_le := by simp
  atAccept := .quiet
  atUart := .quiet
  atRead _ := .quiet
  atEnd := .quiet
  atLoop := .quiet

/-- A tick in which a client connects, sends one byte and closes. -/
def Tick.visit (pending : Conn) (b : UInt8) : Tick :=
  { Tick.quiet with
    accept := some pending
    read := fun k want => if k = 0 ∧ 1 ≤ want then .data [b] else .closed
    read_le := by
      intro k want bytes hdata
      split_ifs at hdata with h
      cases hdata
      exact ⟨List.cons_ne_nil _ _, h.2⟩ }

/-- The counters of what did not fit in `uart_to_tcp_` and in the capture sink. -/
structure DropCounters where
  uartToTcp : UInt32
  capture : UInt32

/-- What the component does, in order. The first and last of a session come with the drop counters
at that moment. -/
inductive Obs
  | tick
  | accepted (transition : Transition) (id : ClientId) (conn : Conn) (drops : DropCounters)
  | rejected (conn : Conn)
  | uartRx (batch : List UInt8) (reads : ℕ)
  | write (conn : Conn) (offered : List UInt8) (answer : WriteAnswer)
  | read (conn : Conn) (want : ℕ) (answer : ReadAnswer)
  | refused (b : UInt8)
  | closed (conn : Conn)
  | ended (transition : Transition) (id : ClientId) (drops : DropCounters)
  | uartTx (b : UInt8)

/-- The component. `sendStage` is the part of `send_stage_` in use, so its length is
`send_stage_len_`. `io` is a history variable: the code writes it and never reads it. -/
structure Texecom where
  uart : Bool
  model : Option PanelModel
  listener : Bool
  clientSocket : Option Conn
  session : SessionState
  nextClientId : ClientId
  activeClientId : ClientId
  uartToTcp : RingBuffer UInt8 kBufferSize
  tcpToUart : RingBuffer UInt8 kBufferSize
  sendStage : List UInt8
  sendStageOff : ℕ
  uartToTcpDrops : UInt32
  tcpToUartPausedTicks : UInt32
  capture : Capture
  io : List Obs

/-! ### UART to ring -/

/-- Push a byte; when the ring is full, drop the oldest one for it and count the drop. -/
def pushDroppingOldest (b : UInt8) (ring : RingBuffer UInt8 kBufferSize) (drops : UInt32) :
    RingBuffer UInt8 kBufferSize × UInt32 :=
  match ring.push b with
  | (true, ring) => (ring, drops)
  | (false, ring) => ((ring.dropOldest.2.push b).2, drops + 1)

/-- `rx_batch`, the calls to `read_byte()`, the ring and the drop counter after the drain loop. -/
structure Drained where
  batch : List UInt8
  reads : ℕ
  ring : RingBuffer UInt8 kBufferSize
  drops : UInt32

/-- The drain loop, with `room` bytes left in `rx_batch`. -/
def drainUart (uart : ℕ → UartAnswer) :
    ℕ → List UInt8 → RingBuffer UInt8 kBufferSize → UInt32 → Drained
  | 0, batch, ring, drops => ⟨batch, batch.length, ring, drops⟩
  | room + 1, batch, ring, drops =>
    match uart batch.length with
    | .unavailable => ⟨batch, batch.length, ring, drops⟩
    | .failed => ⟨batch, batch.length + 1, ring, drops⟩
    | .byte b =>
      drainUart uart room (batch ++ [b]) (pushDroppingOldest b ring drops).1
        (pushDroppingOldest b ring drops).2

/-- `if (would_record()) record(..)` -/
def recordIfWanted (p : Platform) (direction : UInt8) (bytes : List UInt8) (c : Capture) :
    Capture :=
  if c.wouldRecord then (c.record p direction bytes).2 else c

/-! ### Ring to socket -/

/-- The refill loop, with `room` bytes left in the stage. -/
def refill : ℕ → List UInt8 → RingBuffer UInt8 kBufferSize →
    List UInt8 × RingBuffer UInt8 kBufferSize
  | 0, stage, ring => (stage, ring)
  | room + 1, stage, ring =>
    match ring.pop 0 with
    | (false, _, ring) => (stage, ring)
    | (true, b, ring) => refill room (stage ++ [b]) ring

/-- The stage and the ring it is filled from. -/
structure SendState where
  stage : List UInt8
  off : ℕ
  ring : RingBuffer UInt8 kBufferSize

namespace SendState

/-- What has not been sent yet, in the order it will be. -/
def pending (s : SendState) : List UInt8 := s.stage.drop s.off ++ s.ring.toList

/-- Refill the stage from the ring if all of it has been sent. -/
def topUp (s : SendState) : SendState :=
  if s.off ≥ s.stage.length then
    ⟨(refill kSendStageSize [] s.ring).1, 0, (refill kSendStageSize [] s.ring).2⟩
  else s

/-- The bytes offered to `write()`. -/
def remaining (s : SendState) : List UInt8 := s.stage.drop s.off

/-- `send_stage_off_ += sent` -/
def advance (n : ℕ) (s : SendState) : SendState := { s with off := s.off + n }

end SendState

lemma refill_spec (room : ℕ) (stage : List UInt8) (ring : RingBuffer UInt8 kBufferSize) :
    (refill room stage ring).1 ++ (refill room stage ring).2.toList = stage ++ ring.toList ∧
      (refill room stage ring).1.length ≤ stage.length + room := by
  induction room generalizing stage ring with
  | zero => exact ⟨rfl, le_rfl⟩
  | succ room ih =>
    cases hring : ring.toList with
    | nil =>
      rw [refill, RingBuffer.pop_of_empty (Circular.toList_eq_nil_iff.mp hring)]
      exact ⟨by rw [hring], by simp⟩
    | cons b bs =>
      obtain ⟨ring', hpop, hring'⟩ := RingBuffer.pop_of_cons hring 0
      obtain ⟨hbytes, hlength⟩ := ih (stage ++ [b]) ring'
      have hstep : refill (room + 1) stage ring = refill room (stage ++ [b]) ring' := by
        rw [refill, hpop]
      rw [hstep]
      constructor
      · rw [hbytes, hring', List.append_assoc, List.singleton_append]
      · rw [List.length_append, List.length_singleton] at hlength
        omega

/-- Refilling moves bytes from the ring to the stage and keeps their order. -/
lemma SendState.pending_topUp (s : SendState) : s.topUp.pending = s.pending := by
  unfold topUp
  split_ifs with h
  · simp only [pending, List.drop_zero, (refill_spec _ _ _).1, List.nil_append,
      List.drop_of_length_le h]
  · rfl

/-- What the send loop leaves: the stage and ring, the calls to `write()`, and whether one of them
failed. -/
structure Sent where
  state : SendState
  io : List Obs
  failed : Bool

/-- The send loop, from its `k`-th `write()` on. -/
def sendLoop (inp : Tick) (conn : Conn) (k : ℕ) (s : SendState) : Sent :=
  if _hempty : s.topUp.remaining = [] then ⟨s.topUp, [], false⟩
  else
    match inp.write k s.topUp.remaining.length with
    | .wouldBlock => ⟨s.topUp, [.write conn s.topUp.remaining .wouldBlock], false⟩
    | .error => ⟨s.topUp, [.write conn s.topUp.remaining .error], true⟩
    | .sent n =>
      if n < s.topUp.remaining.length then
        ⟨s.topUp.advance n, [.write conn s.topUp.remaining (.sent n)], false⟩
      else
        { sendLoop inp conn (k + 1) (s.topUp.advance n) with
          io := .write conn s.topUp.remaining (.sent n) ::
            (sendLoop inp conn (k + 1) (s.topUp.advance n)).io }
termination_by s.pending.length
decreasing_by
  all_goals
    rename_i hfull
    have hpos := List.length_pos_iff.mpr _hempty
    rw [← s.pending_topUp]
    simp only [SendState.remaining, List.length_drop, SendState.pending, SendState.advance,
      List.length_append] at hpos hfull ⊢
    omega

/-! ### Socket to ring -/

/-- The bytes asked for: at most what the ring has room for. -/
def wanted (ring : RingBuffer UInt8 kBufferSize) : ℕ := min (kBufferSize - ring.size) kBatchSize

/-- Push bytes one by one; a push that fails is ignored. -/
def pushAll : List UInt8 → RingBuffer UInt8 kBufferSize → RingBuffer UInt8 kBufferSize × List Obs
  | [], ring => (ring, [])
  | b :: bs, ring =>
    match ring.push b with
    | (true, ring) => pushAll bs ring
    | (false, ring) => ((pushAll bs ring).1, .refused b :: (pushAll bs ring).2)

/-- Where there is room, every push succeeds. -/
lemma pushAll_spec {bs : List UInt8} {ring : RingBuffer UInt8 kBufferSize}
    (h : ring.size + bs.length ≤ kBufferSize) :
    (pushAll bs ring).1.toList = ring.toList ++ bs ∧ (pushAll bs ring).2 = [] := by
  induction bs generalizing ring with
  | nil => exact ⟨by simp [pushAll], rfl⟩
  | cons b bs ih =>
    rw [List.length_cons] at h
    have hroom : ring.size < kBufferSize := by omega
    have hsize : Circular.size (ring.put b) = ring.size + 1 := Circular.size_put hroom b
    obtain ⟨hbytes, hobs⟩ := @ih (ring.put b) (by rw [hsize]; omega)
    rw [pushAll, RingBuffer.push_of_room hroom]
    refine ⟨?_, hobs⟩
    rw [hbytes, Circular.toList_put hroom, List.append_assoc, List.singleton_append]

/-- What the read loop leaves: the ring, the capture sink, the calls made, and whether the session
is over. -/
structure Received where
  ring : RingBuffer UInt8 kBufferSize
  capture : Capture
  io : List Obs
  ended : Bool

/-- The read loop, from its `k`-th `read()` on. -/
def readLoop (inp : Tick) (conn : Conn) (k : ℕ) (ring : RingBuffer UInt8 kBufferSize)
    (capture : Capture) : Received :=
  if ring.full then ⟨ring, capture, [], false⟩
  else
    match _hread : inp.read k (wanted ring) with
    | .closed => ⟨ring, capture, [.read conn (wanted ring) .closed], true⟩
    | .wouldBlock => ⟨ring, capture, [.read conn (wanted ring) .wouldBlock], false⟩
    | .error => ⟨ring, capture, [.read conn (wanted ring) .error], true⟩
    | .data bytes =>
      { readLoop inp conn (k + 1) (pushAll bytes ring).1
          (recordIfWanted (inp.atRead k) 1 bytes capture) with
        io := .read conn (wanted ring) (.data bytes) :: (pushAll bytes ring).2 ++
          (readLoop inp conn (k + 1) (pushAll bytes ring).1
            (recordIfWanted (inp.atRead k) 1 bytes capture)).io }
termination_by kBufferSize - ring.size
decreasing_by
  all_goals
    obtain ⟨hne, hlen⟩ := inp.read_le _ _ _ _hread
    have hpos := List.length_pos_iff.mpr hne
    have hfit : ring.size + bytes.length ≤ kBufferSize := by
      have := ring.size_le
      simp only [wanted] at hlen
      omega
    have hsize := congrArg List.length (pushAll_spec hfit).1
    rw [List.length_append, Circular.length_toList, Circular.length_toList] at hsize
    omega

/-! ### Ring to UART -/

/-- The loop that hands every byte in the ring to `write_byte()`. -/
def drainToUart (ring : RingBuffer UInt8 kBufferSize) :
    List UInt8 × RingBuffer UInt8 kBufferSize :=
  match _hpeek : ring.peek 0 with
  | (true, b) =>
    (b :: (drainToUart (ring.pop b).2.2).1, (drainToUart (ring.pop b).2.2).2)
  | (false, _) => ([], ring)
termination_by ring.size
decreasing_by
  all_goals
    have hsize : ring.size ≠ 0 := by
      intro hsize
      rw [RingBuffer.peek_of_empty hsize] at _hpeek
      cases _hpeek
    simp only [RingBuffer.pop, RingBuffer.empty, hsize, decide_false, Bool.false_eq_true,
      ↓reduceIte, Circular.size_dropFront]
    omega

namespace Texecom

/-! ### Setup -/

/-- What can be set before `setup()`. -/
structure Config where
  uart : Bool
  model : Option PanelModel
  captureMode : Mode
  captureMaxRamBytes : UInt32

/-- The component as constructed and configured. -/
def constructed (cfg : Config) : Texecom where
  uart := cfg.uart
  model := cfg.model
  listener := false
  clientSocket := none
  session := SessionState.init
  nextClientId := 1
  activeClientId := kNoClient
  uartToTcp := Circular.empty 0 (by decide)
  tcpToUart := Circular.empty 0 (by decide)
  sendStage := []
  sendStageOff := 0
  uartToTcpDrops := 0
  tcpToUartPausedTicks := 0
  capture := (Capture.init.setMode cfg.captureMode).setMaxTotalBytes cfg.captureMaxRamBytes.toNat
  io := []

/-- `listen` says whether a listening socket could be created. -/
def setup (listen : Bool) (t : Texecom) : Texecom :=
  let model := t.model.getD panelModelPremier24
  { t with
    model := some model
    uartToTcp := t.uartToTcp.clear
    tcpToUart := t.tcpToUart.clear
    sendStage := []
    sendStageOff := 0
    uartToTcpDrops := 0
    tcpToUartPausedTicks := 0
    session := t.session.reset
    activeClientId := kNoClient
    nextClientId := 1
    capture := t.capture.setPanelName model.name
    listener := listen }

/-! ### Session lifecycle -/

def isBridgeMode (t : Texecom) : Bool := t.session.isBridgeMode

def rejectClient (pending : Conn) (t : Texecom) : Texecom :=
  { t with io := t.io ++ [.rejected pending] }

/-- The id after `id`, skipping the one reserved for no client. -/
def idAfter (id : ClientId) : ClientId := if id + 1 = kNoClient then 1 else id + 1

/-- Close the client's socket, if there is one. -/
def closeClient (t : Texecom) : Texecom :=
  match t.clientSocket with
  | none => t
  | some conn => { t with clientSocket := none, io := t.io ++ [.closed conn] }

/-- A socket that is left over from before a second `setup()` closes when the new one takes its
place. -/
def acceptPendingClient (inp : Tick) (t : Texecom) : Texecom :=
  if !t.listener then t
  else
    match inp.accept with
    | none => t
    | some pending =>
      let id := t.nextClientId
      let (transition, session) := t.session.onConnect id
      let t := { t with nextClientId := idAfter id, session := session }
      if transition = .rejected then t.rejectClient pending
      else
        let t := t.closeClient
        { t with
          clientSocket := some pending
          activeClientId := id
          uartToTcp := t.uartToTcp.clear
          tcpToUart := t.tcpToUart.clear
          sendStage := []
          sendStageOff := 0
          capture := t.capture.onSessionStart inp.atAccept
          io := t.io ++ [.accepted transition id pending ⟨t.uartToTcpDrops, t.capture.drops⟩] }

def endSession (p : Platform) (t : Texecom) : Texecom :=
  let t := t.closeClient
  let (transition, session) := t.session.onDisconnect t.activeClientId
  let capture := if transition = .enteredMonitor then t.capture.onSessionEnd p else t.capture
  { t with
    session := session
    capture := capture
    activeClientId := kNoClient
    sendStage := []
    sendStageOff := 0
    io := t.io ++ [.ended transition t.activeClientId ⟨t.uartToTcpDrops, capture.drops⟩] }

/-! ### The pumps -/

/-- UART to ring, and the capture of the batch. -/
def receiveFromUart (inp : Tick) (t : Texecom) : Texecom :=
  let rx := drainUart inp.uart kBatchSize [] t.uartToTcp t.uartToTcpDrops
  { t with
    uartToTcp := rx.ring
    uartToTcpDrops := rx.drops
    capture := if rx.batch ≠ [] then recordIfWanted inp.atUart 0 rx.batch t.capture else t.capture
    io := t.io ++ [.uartRx rx.batch rx.reads] }

/-- What is staged and queued for the client. -/
def sendState (t : Texecom) : SendState := ⟨t.sendStage, t.sendStageOff, t.uartToTcp⟩

/-- The state after a send loop. -/
def afterSend (r : Sent) (t : Texecom) : Texecom :=
  { t with
    sendStage := r.state.stage
    sendStageOff := r.state.off
    uartToTcp := r.state.ring
    io := t.io ++ r.io }

/-- Ring to socket. -/
def sendToClient (inp : Tick) (t : Texecom) : Texecom :=
  match t.isBridgeMode, t.clientSocket with
  | true, some conn =>
    let r := sendLoop inp conn 0 t.sendState
    if r.failed then (t.afterSend r).endSession inp.atEnd else t.afterSend r
  | _, _ => t

def pumpUartToTcp (inp : Tick) (t : Texecom) : Texecom :=
  if !t.uart then t else (t.receiveFromUart inp).sendToClient inp

/-- The state after a read loop. A full ring is counted unless the session is over. -/
def afterRead (r : Received) (t : Texecom) : Texecom :=
  { t with
    tcpToUart := r.ring
    capture := r.capture
    tcpToUartPausedTicks :=
      if !r.ended && r.ring.full then t.tcpToUartPausedTicks + 1 else t.tcpToUartPausedTicks
    io := t.io ++ r.io }

/-- Socket to ring, and whether the session is over. -/
def receiveFromClient (inp : Tick) (t : Texecom) : Texecom × Bool :=
  match t.isBridgeMode, t.clientSocket with
  | true, some conn =>
    let r := readLoop inp conn 0 t.tcpToUart t.capture
    (t.afterRead r, r.ended)
  | _, _ => (t, false)

/-- Ring to UART. -/
def sendToUart (t : Texecom) : Texecom :=
  { t with
    tcpToUart := (drainToUart t.tcpToUart).2
    io := t.io ++ (drainToUart t.tcpToUart).1.map .uartTx }

/-- When the session ends in the read loop, the ring is left for a later tick. -/
def pumpTcpToUart (inp : Tick) (t : Texecom) : Texecom :=
  if !t.uart then t
  else
    match t.receiveFromClient inp with
    | (t, true) => t.endSession inp.atEnd
    | (t, false) => t.sendToUart

/-! ### Ticks -/

def captureLoop (inp : Tick) (t : Texecom) : Texecom :=
  { t with capture := t.capture.loop inp.atLoop }

def beginTick (t : Texecom) : Texecom := { t with io := t.io ++ [.tick] }

def loop (inp : Tick) (t : Texecom) : Texecom :=
  (((t.beginTick.acceptPendingClient inp).pumpUartToTcp inp).pumpTcpToUart inp).captureLoop inp

/-- `setup()` and then any number of ticks. -/
def run (cfg : Config) (listen : Bool) (ticks : List Tick) : Texecom :=
  ticks.foldl (fun t inp => t.loop inp) ((constructed cfg).setup listen)

end Texecom
end TexecomBridge
