import TexecomBridge.Texecom.Transparency

/-!
# What cannot be noticed

Two projections of a run. Seen without the capture sink, a run does not depend on how the sink is
set, on what it holds or on the clock. Seen from the panel, it does not depend on how much of what
it is offered a client takes.
-/

namespace TexecomBridge

/-! ### The loops look at one device each -/

lemma sendLoop_congr {inp inp' : Tick} (hwrite : inp'.write = inp.write) (conn : Conn) (k : ℕ)
    (s : SendState) : sendLoop inp' conn k s = sendLoop inp conn k s := by
  induction k, s using sendLoop.induct inp conn with
  | case1 k s hempty => rw [sendLoop, sendLoop, dif_pos hempty, dif_pos hempty]
  | case2 k s hempty hanswer =>
    rw [sendLoop, sendLoop, dif_neg hempty, dif_neg hempty, hwrite, hanswer]
  | case3 k s hempty hanswer =>
    rw [sendLoop, sendLoop, dif_neg hempty, dif_neg hempty, hwrite, hanswer]
  | case4 k s hempty n hanswer hshort =>
    rw [sendLoop, sendLoop, dif_neg hempty, dif_neg hempty, hwrite, hanswer]
    simp only [if_pos hshort]
  | case5 k s hempty n hanswer hfull ih =>
    rw [sendLoop, sendLoop, dif_neg hempty, dif_neg hempty, hwrite, hanswer]
    simp only [if_neg hfull, ih]

/-- The capture sink is written to, and has no say in what is read. -/
lemma readLoop_congr {inp inp' : Tick} (hread : inp'.read = inp.read) (conn : Conn) (k : ℕ)
    (ring : RingBuffer UInt8 kBufferSize) (capture capture' : Capture) :
    (readLoop inp' conn k ring capture').ring = (readLoop inp conn k ring capture).ring ∧
      (readLoop inp' conn k ring capture').io = (readLoop inp conn k ring capture).io ∧
      (readLoop inp' conn k ring capture').ended = (readLoop inp conn k ring capture).ended := by
  induction k, ring, capture using readLoop_induction inp conn generalizing capture' with
  | full k ring capture hfull =>
    rw [readLoop_of_full hfull, readLoop_of_full hfull]
    exact ⟨rfl, rfl, rfl⟩
  | no_data k ring capture hfull hdata =>
    rw [readLoop_of_no_data hfull hdata, readLoop_of_no_data hfull (by rwa [hread]), hread]
    exact ⟨rfl, rfl, rfl⟩
  | data k ring capture bytes hfull hanswer ih =>
    obtain ⟨hring, hio, hended⟩ := ih (recordIfWanted (inp'.atRead k) 1 bytes capture')
    rw [readLoop_of_data hfull hanswer, readLoop_of_data hfull (by rwa [hread])]
    simp only [hring, hio, hended]
    exact ⟨trivial, trivial, trivial⟩

/-- What is read from the panel does not depend on what is queued. -/
lemma drainUart_congr (uart : ℕ → UartAnswer) (room : ℕ) (batch : List UInt8)
    (ring ring' : RingBuffer UInt8 kBufferSize) (drops drops' : UInt32) :
    (drainUart uart room batch ring' drops').batch = (drainUart uart room batch ring drops).batch ∧
      (drainUart uart room batch ring' drops').reads
        = (drainUart uart room batch ring drops).reads := by
  induction room generalizing batch ring ring' drops drops' with
  | zero => exact ⟨rfl, rfl⟩
  | succ room ih =>
    cases hanswer : uart batch.length with
    | byte b =>
      rw [drainUart, drainUart, hanswer]
      exact ih _ _ _ _ _
    | _ => simp [drainUart, hanswer]

/-! ### The capture sink -/

/-- The same answers from the listener, the UART and the client; the clocks may differ. -/
structure Tick.SameDevices (inp inp' : Tick) : Prop where
  accept_eq : inp'.accept = inp.accept
  uart_eq : inp'.uart = inp.uart
  write_eq : inp'.write = inp.write
  read_eq : inp'.read = inp.read

/-- The observation without what the capture sink has dropped. -/
def Obs.forgetCapture : Obs → Obs
  | .accepted transition id conn drops => .accepted transition id conn ⟨drops.uartToTcp, 0⟩
  | .ended transition id drops => .ended transition id ⟨drops.uartToTcp, 0⟩
  | o => o

/-- A reading that ignores what the capture sink has dropped reads the same. -/
lemma flatMap_forgetCapture {δ : Type*} {io io' : List Obs}
    (h : io'.map Obs.forgetCapture = io.map Obs.forgetCapture) {f : Obs → List δ}
    (hf : ∀ o, f o.forgetCapture = f o) : io'.flatMap f = io.flatMap f := by
  have hsame := congrArg (List.flatMap f) h
  rw [List.flatMap_map, List.flatMap_map] at hsame
  simpa only [hf] using hsame

namespace Texecom

/-- The same state with another capture sink and another trace. -/
def withCapture (model : Option PanelModel) (capture : Capture) (io : List Obs) (t : Texecom) :
    Texecom :=
  { t with model := model, capture := capture, io := io }

/-- `t'` is `t` up to the capture sink. -/
def UpToCapture (t t' : Texecom) : Prop :=
  ∃ model capture io, t' = t.withCapture model capture io ∧
    io.map Obs.forgetCapture = t.io.map Obs.forgetCapture

variable {cc cc' : Capture.Config} {t t' : Texecom} {inp inp' : Tick}

namespace UpToCapture

lemma beginTick (h : t.UpToCapture t') : t.beginTick.UpToCapture t'.beginTick := by
  obtain ⟨model, capture, io, rfl, hio⟩ := h
  refine ⟨_, _, _, rfl, ?_⟩
  rw [withCapture, List.map_append, hio, Texecom.beginTick, List.map_append]

lemma acceptPendingClient (h : t.UpToCapture t') (hinv : t.Inv cc)
    (haccept : inp'.accept = inp.accept) :
    (t.acceptPendingClient inp).UpToCapture (t'.acceptPendingClient inp') := by
  obtain ⟨model, capture, io, rfl, hio⟩ := h
  rcases hinv.acceptPendingClient_cases inp with
    ⟨hnone, heq⟩ | ⟨pending, hlistener, hsome, ⟨hmode, heq⟩ | ⟨hmode, heq⟩⟩
  · rw [heq, acceptPendingClient_of_none (by rwa [haccept])]
    exact ⟨_, _, _, rfl, hio⟩
  · rw [heq, acceptPendingClient_of_bridge (by exact hlistener) (haccept.trans hsome)
      (by exact hinv.next) (by exact hmode)]
    refine ⟨_, _, _, rfl, ?_⟩
    rw [withCapture, List.map_append, hio, turnAway, List.map_append]
  · rw [heq, acceptPendingClient_of_monitor (by exact hlistener) (haccept.trans hsome)
      (by exact hinv.next) (by exact hmode),
      closeClient_of_no_client (by exact hinv.client_of_mode_ne hmode)]
    refine ⟨_, _, _, rfl, ?_⟩
    rw [withCapture, List.map_append, hio, enterBridge, List.map_append]
    simp only [List.map_cons, List.map_nil, Obs.forgetCapture]

/-- Each run ends the session of the same client. -/
lemma endSession (h : t.UpToCapture t') (hsession : t.session = ⟨.bridge, t.activeClientId⟩)
    {conn : Conn} (hclient : t.clientSocket = some conn) (p p' : Platform) :
    (t.endSession p).UpToCapture (t'.endSession p') := by
  obtain ⟨model, capture, io, rfl, hio⟩ := h
  rw [endSession_eq hsession hclient, endSession_eq (by exact hsession) (by exact hclient)]
  refine ⟨_, _, _, rfl, ?_⟩
  rw [withCapture, List.map_append, hio, disconnect, List.map_append]
  simp only [List.map_cons, List.map_nil, Obs.forgetCapture]

lemma receiveFromUart (h : t.UpToCapture t') (huart : inp'.uart = inp.uart) :
    (t.receiveFromUart inp).UpToCapture (t'.receiveFromUart inp') := by
  obtain ⟨model, capture, io, rfl, hio⟩ := h
  refine ⟨model, ((t.withCapture model capture io).receiveFromUart inp').capture,
    io ++ [.uartRx (t.drained inp).batch (t.drained inp).reads], ?_, ?_⟩
  · simp only [Texecom.receiveFromUart, withCapture, huart]
  · rw [List.map_append, hio, Texecom.receiveFromUart, List.map_append]

lemma sendToClient (h : t.UpToCapture t') (hinv : t.Inv cc) (hwrite : inp'.write = inp.write) :
    (t.sendToClient inp).UpToCapture (t'.sendToClient inp') := by
  obtain ⟨model, capture, io, rfl, hio⟩ := h
  rcases hinv.client_cases with hclient | ⟨conn, hclient, hsession, hmode⟩
  · rw [sendToClient_of_no_client hclient, sendToClient_of_no_client (by exact hclient)]
    exact ⟨_, _, _, rfl, hio⟩
  · have hstate : (t.withCapture model capture io).sendState = t.sendState := rfl
    have hsent : (t.afterSend (sendLoop inp conn 0 t.sendState)).UpToCapture
        ((t.withCapture model capture io).afterSend (sendLoop inp conn 0 t.sendState)) := by
      refine ⟨_, _, _, rfl, ?_⟩
      rw [withCapture, List.map_append, hio, afterSend, List.map_append]
    rw [sendToClient_of_client hmode hclient, sendToClient_of_client (by exact hmode)
      (by exact hclient), hstate, sendLoop_congr hwrite]
    split_ifs
    · exact hsent.endSession hsession hclient _ _
    · exact hsent

lemma pumpUartToTcp (h : t.UpToCapture t') (hinv : t.Inv cc) (hdevices : inp.SameDevices inp') :
    (t.pumpUartToTcp inp).UpToCapture (t'.pumpUartToTcp inp') := by
  have huart : t'.uart = t.uart := by
    obtain ⟨_, _, _, rfl, -⟩ := h
    rfl
  unfold Texecom.pumpUartToTcp
  rw [huart]
  split_ifs
  · exact h
  · exact (h.receiveFromUart hdevices.uart_eq).sendToClient (hinv.receiveFromUart inp)
      hdevices.write_eq

lemma sendToUart (h : t.UpToCapture t') : t.sendToUart.UpToCapture t'.sendToUart := by
  obtain ⟨model, capture, io, rfl, hio⟩ := h
  refine ⟨_, _, _, rfl, ?_⟩
  rw [withCapture, List.map_append, hio, Texecom.sendToUart, List.map_append]

lemma pumpTcpToUart (h : t.UpToCapture t') (hinv : t.Inv cc) (hread : inp'.read = inp.read) :
    (t.pumpTcpToUart inp).UpToCapture (t'.pumpTcpToUart inp') := by
  obtain ⟨model, capture, io, rfl, hio⟩ := id h
  have huart : (t.withCapture model capture io).uart = t.uart := rfl
  unfold Texecom.pumpTcpToUart
  rw [huart]
  split_ifs
  · exact h
  · rcases hinv.client_cases with hclient | ⟨conn, hclient, hsession, hmode⟩
    · rw [receiveFromClient_of_no_client hclient, receiveFromClient_of_no_client (by exact hclient)]
      exact h.sendToUart
    · obtain ⟨hring, hreads, hended⟩ :=
        readLoop_congr hread conn 0 t.tcpToUart t.capture capture
      have hreceived : (t.afterRead (readLoop inp conn 0 t.tcpToUart t.capture)).UpToCapture
          ((t.withCapture model capture io).afterRead
            (readLoop inp' conn 0 t.tcpToUart capture)) := by
        refine ⟨model, (readLoop inp' conn 0 t.tcpToUart capture).capture,
          io ++ (readLoop inp conn 0 t.tcpToUart t.capture).io, ?_, ?_⟩
        · simp only [afterRead, withCapture, hring, hreads, hended]
        · rw [List.map_append, hio, afterRead, List.map_append]
      have hsame : readLoop inp' conn 0 (t.withCapture model capture io).tcpToUart
          (t.withCapture model capture io).capture = readLoop inp' conn 0 t.tcpToUart capture := rfl
      rw [receiveFromClient_of_client hmode hclient, receiveFromClient_of_client (by exact hmode)
        (by exact hclient), hsame, hended]
      cases (readLoop inp conn 0 t.tcpToUart t.capture).ended with
      | true => exact hreceived.endSession hsession hclient _ _
      | false => exact hreceived.sendToUart

lemma captureLoop (h : t.UpToCapture t') :
    (t.captureLoop inp).UpToCapture (t'.captureLoop inp') := by
  obtain ⟨model, capture, io, rfl, hio⟩ := h
  exact ⟨_, _, _, rfl, hio⟩

lemma loop (h : t.UpToCapture t') (hinv : t.Inv cc) (hdevices : inp.SameDevices inp') :
    (t.loop inp).UpToCapture (t'.loop inp') := by
  have haccepted := h.beginTick.acceptPendingClient hinv.beginTick hdevices.accept_eq
  have hinv' := hinv.beginTick.acceptPendingClient inp
  have hpumped := haccepted.pumpUartToTcp hinv' hdevices
  have hinv'' := hinv'.pumpSteps (hinv'.pumpUartToTcp_steps inp)
  exact (hpumped.pumpTcpToUart hinv'' hdevices.read_eq).captureLoop

lemma setup {cfg cfg' : Config} (huart : cfg'.uart = cfg.uart) (listen : Bool) :
    ((constructed cfg).setup listen).UpToCapture ((constructed cfg').setup listen) := by
  obtain ⟨uart, model, mode, ram⟩ := cfg
  obtain ⟨uart', model', mode', ram'⟩ := cfg'
  obtain rfl : uart' = uart := huart
  exact ⟨_, _, _, rfl, rfl⟩

lemma foldl {ticks ticks' : List Tick} (hticks : List.Forall₂ Tick.SameDevices ticks ticks')
    (h : t.UpToCapture t') (hinv : t.Inv cc) :
    (ticks.foldl (fun t inp => t.loop inp) t).UpToCapture
      (ticks'.foldl (fun t inp => t.loop inp) t') := by
  induction hticks generalizing t t' with
  | nil => exact h
  | cons hdevices _ ih => exact ih (h.loop hinv hdevices) (hinv.loop _)

end UpToCapture

/-- Two runs with the same answers from the devices move the same bytes and go through the same
sessions, however the capture sink is set and whatever the clock says: they differ in the sink, and
in the trace by what it has dropped. -/
theorem capture_unnoticed {cfg cfg' : Config} (huart : cfg'.uart = cfg.uart) (listen : Bool)
    {ticks ticks' : List Tick} (h : List.Forall₂ Tick.SameDevices ticks ticks') :
    let t := run cfg listen ticks
    let t' := run cfg' listen ticks'
    t' = { t with model := t'.model, capture := t'.capture, io := t'.io } ∧
    t'.io.map Obs.forgetCapture = t.io.map Obs.forgetCapture ∧ panelTx t'.io = panelTx t.io ∧
    clientTx t'.io = clientTx t.io ∧ batches t'.io = batches t.io ∧
    transitions t'.io = transitions t.io := by
  intro t t'
  obtain ⟨model, capture, io, heq, hio⟩ : t.UpToCapture t' :=
    UpToCapture.foldl h (.setup huart listen) (inv_setup cfg listen)
  rw [heq]
  refine ⟨rfl, hio, ?_, ?_, ?_, ?_⟩
  all_goals exact flatMap_forgetCapture hio fun o => by cases o <;> rfl

/-- A visit of one client, with a capture of everything by other clocks and with none. -/
theorem capture_unnoticed_visit :
    let later : Tick := { Tick.visit 1 0x41 with atLoop := ⟨fun _ => 5, 7, 9, fun _ => 0⟩ }
    let t := run ⟨true, none, .none, 8192⟩ true [.visit 1 0x41]
    let t' := run ⟨true, some ⟨[]⟩, .both, 16⟩ true [later]
    panelTx t'.io = panelTx t.io ∧ clientTx t'.io = clientTx t.io ∧
    batches t'.io = batches t.io ∧ transitions t'.io = transitions t.io := by
  intro later t t'
  have hdevices : (Tick.visit 1 0x41).SameDevices later := ⟨rfl, rfl, rfl, rfl⟩
  obtain ⟨-, -, hbytes⟩ := @capture_unnoticed ⟨true, none, .none, 8192⟩ ⟨true, some ⟨[]⟩, .both, 16⟩
    rfl true [.visit 1 0x41] [later] (.cons hdevices .nil)
  exact hbytes

end Texecom

/-! ### The client's pace -/

/-- The same answers, but for those to `write()`. -/
def Tick.withWrite (write : ℕ → ℕ → WriteAnswer)
    (write_le : ∀ k offered n, write k offered = .sent n → n ≤ offered) (inp : Tick) : Tick :=
  { inp with write := write, write_le := write_le }

lemma readLoop_withWrite (inp : Tick) (write : ℕ → ℕ → WriteAnswer)
    (write_le : ∀ k offered n, write k offered = .sent n → n ≤ offered) (conn : Conn) (k : ℕ)
    (ring : RingBuffer UInt8 kBufferSize) (capture : Capture) :
    readLoop (inp.withWrite write write_le) conn k ring capture
      = readLoop inp conn k ring capture := by
  induction k, ring, capture using readLoop_induction inp conn with
  | full k ring capture hfull => rw [readLoop_of_full hfull, readLoop_of_full hfull]
  | no_data k ring capture hfull hdata =>
    rw [readLoop_of_no_data hfull hdata, readLoop_of_no_data hfull (by exact hdata)]
    rfl
  | data k ring capture bytes hfull hanswer ih =>
    have hat : (inp.withWrite write write_le).atRead k = inp.atRead k := rfl
    rw [readLoop_of_data hfull hanswer, readLoop_of_data hfull (by exact hanswer), hat, ih]

/-- No write fails. -/
def Tick.WritesWork (inp : Tick) : Prop := ∀ k offered, inp.write k offered ≠ .error

/-- The same answers but for how much is taken of what the client is offered. -/
def Tick.SameButTaken (inp inp' : Tick) : Prop :=
  inp.WritesWork ∧ inp'.WritesWork ∧ ∃ write write_le, inp' = inp.withWrite write write_le

/-- The observation without what is queued for the client. -/
def Obs.forgetTaken : Obs → List Obs
  | .write _ _ _ => []
  | .accepted transition id conn drops => [.accepted transition id conn ⟨0, drops.capture⟩]
  | .ended transition id drops => [.ended transition id ⟨0, drops.capture⟩]
  | o => [o]

/-- A reading that ignores what is sent and dropped reads the same. -/
lemma flatMap_forgetTaken {δ : Type*} {io io' : List Obs}
    (h : io'.flatMap Obs.forgetTaken = io.flatMap Obs.forgetTaken) {f : Obs → List δ}
    (hf : ∀ o, o.forgetTaken.flatMap f = f o) : io'.flatMap f = io.flatMap f := by
  have hsame := congrArg (List.flatMap f) h
  rw [List.flatMap_assoc, List.flatMap_assoc] at hsame
  simpa only [hf] using hsame

lemma sendLoop_of_writesWork {inp : Tick} (h : inp.WritesWork) (conn : Conn) (k : ℕ)
    (s : SendState) : (sendLoop inp conn k s).failed = false ∧
      (sendLoop inp conn k s).io.flatMap Obs.forgetTaken = [] := by
  constructor
  · induction k, s using sendLoop.induct inp conn with
    | case1 k s hempty => rw [sendLoop, dif_pos hempty]
    | case2 k s hempty hanswer => rw [sendLoop, dif_neg hempty, hanswer]
    | case3 k s hempty hanswer => exact absurd hanswer (h _ _)
    | case4 k s hempty n hanswer hshort =>
      rw [sendLoop, dif_neg hempty, hanswer]
      simp only [if_pos hshort]
    | case5 k s hempty n hanswer hfull ih =>
      rw [sendLoop, dif_neg hempty, hanswer]
      simp only [if_neg hfull, ih]
  · rw [List.flatMap_eq_nil_iff]
    intro o ho
    obtain ⟨_, _, rfl⟩ := (sendLoop_spec inp conn k s).1 o ho
    rfl

namespace Texecom

/-- The same state with other bytes queued for the client and another trace. -/
def withClientQueue (ring : RingBuffer UInt8 kBufferSize) (stage : List UInt8) (off : ℕ)
    (drops : UInt32) (io : List Obs) (t : Texecom) : Texecom :=
  { t with
    uartToTcp := ring, sendStage := stage, sendStageOff := off, uartToTcpDrops := drops, io := io }

/-- `t'` is `t` up to what is queued for the client. -/
def UpToTaken (t t' : Texecom) : Prop :=
  ∃ ring stage off drops io, t' = t.withClientQueue ring stage off drops io ∧
    io.flatMap Obs.forgetTaken = t.io.flatMap Obs.forgetTaken

variable {cc : Capture.Config} {t t' : Texecom} {inp inp' : Tick}

namespace UpToTaken

lemma beginTick (h : t.UpToTaken t') : t.beginTick.UpToTaken t'.beginTick := by
  obtain ⟨ring, stage, off, drops, io, rfl, hio⟩ := h
  refine ⟨_, _, _, _, _, rfl, ?_⟩
  rw [withClientQueue, List.flatMap_append, hio, Texecom.beginTick, List.flatMap_append]

lemma acceptPendingClient (h : t.UpToTaken t') (hinv : t.Inv cc) (hinp : inp.SameButTaken inp') :
    (t.acceptPendingClient inp).UpToTaken (t'.acceptPendingClient inp') := by
  obtain ⟨ring, stage, off, drops, io, rfl, hio⟩ := h
  obtain ⟨-, -, write, write_le, rfl⟩ := hinp
  rcases hinv.acceptPendingClient_cases inp with
    ⟨hnone, heq⟩ | ⟨pending, hlistener, hsome, ⟨hmode, heq⟩ | ⟨hmode, heq⟩⟩
  · rw [heq, acceptPendingClient_of_none (by exact hnone)]
    exact ⟨_, _, _, _, _, rfl, hio⟩
  · rw [heq, acceptPendingClient_of_bridge (by exact hlistener) (by exact hsome)
      (by exact hinv.next) (by exact hmode)]
    refine ⟨_, _, _, _, _, rfl, ?_⟩
    rw [withClientQueue, List.flatMap_append, hio, turnAway, List.flatMap_append]
  · rw [heq, acceptPendingClient_of_monitor (by exact hlistener) (by exact hsome)
      (by exact hinv.next) (by exact hmode),
      closeClient_of_no_client (by exact hinv.client_of_mode_ne hmode)]
    refine ⟨_, _, _, _, _, rfl, ?_⟩
    rw [withClientQueue, List.flatMap_append, hio, enterBridge, List.flatMap_append]
    rfl

lemma endSession (h : t.UpToTaken t') (hsession : t.session = ⟨.bridge, t.activeClientId⟩)
    {conn : Conn} (hclient : t.clientSocket = some conn) (p : Platform) :
    (t.endSession p).UpToTaken (t'.endSession p) := by
  obtain ⟨ring, stage, off, drops, io, rfl, hio⟩ := h
  rw [endSession_eq hsession hclient, endSession_eq (by exact hsession) (by exact hclient)]
  refine ⟨_, _, _, _, _, rfl, ?_⟩
  rw [withClientQueue, List.flatMap_append, hio, disconnect, List.flatMap_append]
  rfl

lemma receiveFromUart (h : t.UpToTaken t') (huart : inp'.uart = inp.uart)
    (hat : inp'.atUart = inp.atUart) :
    (t.receiveFromUart inp).UpToTaken (t'.receiveFromUart inp') := by
  obtain ⟨ring, stage, off, drops, io, rfl, hio⟩ := h
  obtain ⟨hbatch, hreads⟩ :=
    drainUart_congr inp.uart kBatchSize [] t.uartToTcp ring t.uartToTcpDrops drops
  refine ⟨(drainUart inp.uart kBatchSize [] ring drops).ring, stage, off,
    (drainUart inp.uart kBatchSize [] ring drops).drops,
    io ++ [.uartRx (t.drained inp).batch (t.drained inp).reads], ?_, ?_⟩
  · simp only [Texecom.receiveFromUart, withClientQueue, huart, hat, hbatch, hreads]
  · rw [List.flatMap_append, hio, Texecom.receiveFromUart, List.flatMap_append]

/-- As no write fails, the session goes on in both runs. -/
lemma sendToClient (h : t.UpToTaken t') (hinv : t.Inv cc) (hinp : inp.SameButTaken inp') :
    (t.sendToClient inp).UpToTaken (t'.sendToClient inp') := by
  obtain ⟨ring, stage, off, drops, io, rfl, hio⟩ := h
  obtain ⟨hworks, hworks', -⟩ := hinp
  rcases hinv.client_cases with hclient | ⟨conn, hclient, hsession, hmode⟩
  · rw [sendToClient_of_no_client hclient, sendToClient_of_no_client (by exact hclient)]
    exact ⟨_, _, _, _, _, rfl, hio⟩
  · obtain ⟨hfailed, hwrites⟩ := sendLoop_of_writesWork hworks conn 0 t.sendState
    obtain ⟨hfailed', hwrites'⟩ := sendLoop_of_writesWork hworks' conn 0
      (t.withClientQueue ring stage off drops io).sendState
    rw [sendToClient_of_client hmode hclient, sendToClient_of_client (by exact hmode)
      (by exact hclient), hfailed, hfailed', if_neg Bool.false_ne_true, if_neg Bool.false_ne_true]
    refine ⟨_, _, _, _, _, rfl, ?_⟩
    change List.flatMap Obs.forgetTaken
      (io ++ (sendLoop inp' conn 0 (t.withClientQueue ring stage off drops io).sendState).io) = _
    rw [List.flatMap_append, hio, hwrites', afterSend, List.flatMap_append, hwrites]

lemma sendToUart (h : t.UpToTaken t') : t.sendToUart.UpToTaken t'.sendToUart := by
  obtain ⟨ring, stage, off, drops, io, rfl, hio⟩ := h
  refine ⟨_, _, _, _, _, rfl, ?_⟩
  rw [withClientQueue, List.flatMap_append, hio, Texecom.sendToUart, List.flatMap_append]

lemma pumpUartToTcp (h : t.UpToTaken t') (hinv : t.Inv cc) (hinp : inp.SameButTaken inp') :
    (t.pumpUartToTcp inp).UpToTaken (t'.pumpUartToTcp inp') := by
  obtain ⟨huart, hat⟩ : inp'.uart = inp.uart ∧ inp'.atUart = inp.atUart := by
    obtain ⟨-, -, write, write_le, rfl⟩ := hinp
    exact ⟨rfl, rfl⟩
  have hsame : t'.uart = t.uart := by
    obtain ⟨_, _, _, _, _, rfl, -⟩ := h
    rfl
  unfold Texecom.pumpUartToTcp
  rw [hsame]
  split_ifs
  · exact h
  · exact (h.receiveFromUart huart hat).sendToClient (hinv.receiveFromUart inp) hinp

lemma pumpTcpToUart (h : t.UpToTaken t') (hinv : t.Inv cc) (hinp : inp.SameButTaken inp') :
    (t.pumpTcpToUart inp).UpToTaken (t'.pumpTcpToUart inp') := by
  obtain ⟨ring, stage, off, drops, io, rfl, hio⟩ := id h
  obtain ⟨-, -, write, write_le, rfl⟩ := hinp
  have huart : (t.withClientQueue ring stage off drops io).uart = t.uart := rfl
  unfold Texecom.pumpTcpToUart
  rw [huart]
  split_ifs
  · exact h
  · rcases hinv.client_cases with hclient | ⟨conn, hclient, hsession, hmode⟩
    · rw [receiveFromClient_of_no_client hclient, receiveFromClient_of_no_client (by exact hclient)]
      exact h.sendToUart
    · have hread : readLoop (inp.withWrite write write_le) conn 0
          (t.withClientQueue ring stage off drops io).tcpToUart
          (t.withClientQueue ring stage off drops io).capture
            = readLoop inp conn 0 t.tcpToUart t.capture :=
        readLoop_withWrite inp write write_le conn 0 t.tcpToUart t.capture
      have hreceived : (t.afterRead (readLoop inp conn 0 t.tcpToUart t.capture)).UpToTaken
          ((t.withClientQueue ring stage off drops io).afterRead
            (readLoop inp conn 0 t.tcpToUart t.capture)) := by
        refine ⟨_, _, _, _, _, rfl, ?_⟩
        rw [withClientQueue, List.flatMap_append, hio, afterRead, List.flatMap_append]
      rw [receiveFromClient_of_client hmode hclient, receiveFromClient_of_client (by exact hmode)
        (by exact hclient), hread]
      cases (readLoop inp conn 0 t.tcpToUart t.capture).ended with
      | true => exact hreceived.endSession hsession hclient inp.atEnd
      | false => exact hreceived.sendToUart

lemma captureLoop (h : t.UpToTaken t') (hinp : inp.SameButTaken inp') :
    (t.captureLoop inp).UpToTaken (t'.captureLoop inp') := by
  obtain ⟨ring, stage, off, drops, io, rfl, hio⟩ := h
  obtain ⟨-, -, write, write_le, rfl⟩ := hinp
  exact ⟨_, _, _, _, _, rfl, hio⟩

lemma loop (h : t.UpToTaken t') (hinv : t.Inv cc) (hinp : inp.SameButTaken inp') :
    (t.loop inp).UpToTaken (t'.loop inp') := by
  have haccepted := h.beginTick.acceptPendingClient hinv.beginTick hinp
  have hinv' := hinv.beginTick.acceptPendingClient inp
  have hpumped := haccepted.pumpUartToTcp hinv' hinp
  have hinv'' := hinv'.pumpSteps (hinv'.pumpUartToTcp_steps inp)
  exact (hpumped.pumpTcpToUart hinv'' hinp).captureLoop hinp

lemma foldl {ticks ticks' : List Tick} (hticks : List.Forall₂ Tick.SameButTaken ticks ticks')
    (h : t.UpToTaken t') (hinv : t.Inv cc) :
    (ticks.foldl (fun t inp => t.loop inp) t).UpToTaken
      (ticks'.foldl (fun t inp => t.loop inp) t') := by
  induction hticks generalizing t t' with
  | nil => exact h
  | cons hinp _ ih => exact ih (h.loop hinv hinp) (hinv.loop _)

end UpToTaken

/-- As long as no write fails, how slowly a client takes what it is offered changes nothing but what
is queued for it and what it is sent: the panel is handed the same bytes, the same reads are made,
the sessions begin and end alike, and the captures are the same. -/
theorem slow_client_unnoticed (cfg : Config) (listen : Bool) {ticks ticks' : List Tick}
    (h : List.Forall₂ Tick.SameButTaken ticks ticks') :
    let t := run cfg listen ticks
    let t' := run cfg listen ticks'
    t' = { t with
      uartToTcp := t'.uartToTcp
      sendStage := t'.sendStage
      sendStageOff := t'.sendStageOff
      uartToTcpDrops := t'.uartToTcpDrops
      io := t'.io } ∧
    t'.io.flatMap Obs.forgetTaken = t.io.flatMap Obs.forgetTaken ∧ t'.capture = t.capture ∧
    panelTx t'.io = panelTx t.io ∧ batches t'.io = batches t.io ∧
    readCalls t'.io = readCalls t.io ∧ transitions t'.io = transitions t.io := by
  intro t t'
  obtain ⟨ring, stage, off, drops, io, heq, hio⟩ : t.UpToTaken t' :=
    UpToTaken.foldl h ⟨_, _, _, _, _, rfl, rfl⟩ (inv_setup cfg listen)
  rw [heq]
  refine ⟨rfl, hio, rfl, ?_, ?_, ?_, ?_⟩
  all_goals
    refine flatMap_forgetTaken hio fun o => ?_
    cases o <;> simp [Obs.forgetTaken, Obs.panelTx, Obs.batches, Obs.readCalls, Obs.transitions]

/-- A client that takes nothing, and one that takes all. -/
theorem slow_client_unnoticed_arrival :
    let t := run ⟨true, none, .both, 8192⟩ true [.arrival 1 0x41]
    let t' := run ⟨true, none, .both, 8192⟩ true [(Tick.arrival 1 0x41).taking]
    t'.capture = t.capture ∧ panelTx t'.io = panelTx t.io := by
  intro t t'
  have hinp : (Tick.arrival 1 0x41).SameButTaken (Tick.arrival 1 0x41).taking :=
    ⟨fun _ _ => nofun, fun _ _ => nofun, _, _, rfl⟩
  obtain ⟨-, -, hcapture, htx, -⟩ :=
    slow_client_unnoticed ⟨true, none, .both, 8192⟩ true (.cons hinp .nil)
  exact ⟨hcapture, htx⟩

end Texecom
end TexecomBridge
