import TexecomBridge.Texecom.Pumps

/-!
# Session agreement

Session state, client socket, client id, capture sink and send stage are updated in different
places, by three paths that end a session. At every tick boundary they agree on whether a client is
connected.
-/

namespace TexecomBridge
namespace Texecom

/-! ### Steps in closed form -/

/-- The state after a client was admitted. -/
def enterBridge (inp : Tick) (pending : Conn) (t : Texecom) : Texecom :=
  { t with
    nextClientId := idAfter t.nextClientId
    session := ⟨.bridge, t.nextClientId⟩
    clientSocket := some pending
    activeClientId := t.nextClientId
    uartToTcp := t.uartToTcp.clear
    tcpToUart := t.tcpToUart.clear
    sendStage := []
    sendStageOff := 0
    capture := t.capture.onSessionStart inp.atAccept
    io := t.io ++
      [.accepted .enteredBridge t.nextClientId pending ⟨t.uartToTcpDrops, t.capture.drops⟩] }

/-- The state after a connection was turned away: an id is used up. -/
def turnAway (pending : Conn) (t : Texecom) : Texecom :=
  { t with nextClientId := idAfter t.nextClientId, io := t.io ++ [.rejected pending] }

/-- The state after the session of `conn` was ended. -/
def disconnect (p : Platform) (conn : Conn) (t : Texecom) : Texecom :=
  { t with
    clientSocket := none
    session := .init
    activeClientId := kNoClient
    capture := t.capture.onSessionEnd p
    sendStage := []
    sendStageOff := 0
    io := t.io ++ [.closed conn,
      .ended .enteredMonitor t.activeClientId
        ⟨t.uartToTcpDrops, (t.capture.onSessionEnd p).drops⟩] }

variable {t : Texecom} {conn : Conn}

lemma idAfter_ne (id : ClientId) : idAfter id ≠ kNoClient := by
  unfold idAfter
  split_ifs with h
  · decide
  · exact h

lemma acceptPendingClient_of_none {inp : Tick} (h : t.listener = false ∨ inp.accept = none) :
    t.acceptPendingClient inp = t := by
  unfold acceptPendingClient
  rcases h with hlistener | haccept
  · rw [hlistener]
    rfl
  · rw [haccept]
    exact ite_self t

lemma acceptPendingClient_of_bridge {inp : Tick} {pending : Conn} (hlistener : t.listener = true)
    (haccept : inp.accept = some pending) (hnext : t.nextClientId ≠ kNoClient)
    (hmode : t.session.mode = .bridge) : t.acceptPendingClient inp = t.turnAway pending := by
  have hconnect := SessionState.onConnect_bridge hnext hmode
  simp [acceptPendingClient, hlistener, haccept, hconnect, rejectClient, turnAway]

/-- Closing adds to the trace what was there to close. -/
lemma closeClient_eq (t : Texecom) : t.closeClient =
    { t with clientSocket := none, io := t.io ++ t.clientSocket.toList.map .closed } := by
  unfold closeClient
  split
  · rename_i hclient
    rw [hclient, Option.toList_none, List.map_nil, List.append_nil, ← hclient]
  · rename_i conn hclient
    rw [hclient]
    rfl

lemma closeClient_of_no_client (hclient : t.clientSocket = none) : t.closeClient = t := by
  rw [closeClient, hclient]

lemma acceptPendingClient_of_monitor {inp : Tick} {pending : Conn} (hlistener : t.listener = true)
    (haccept : inp.accept = some pending) (hnext : t.nextClientId ≠ kNoClient)
    (hmode : t.session.mode ≠ .bridge) :
    t.acceptPendingClient inp = t.closeClient.enterBridge inp pending := by
  have hconnect := SessionState.onConnect_monitor hnext hmode
  simp [acceptPendingClient, hlistener, haccept, hconnect, enterBridge, closeClient_eq]

/-- Without a listener or a connection nothing happens; in Bridge mode the connection is turned
away, else it is admitted. -/
lemma acceptPendingClient_cases (hnext : t.nextClientId ≠ kNoClient) (inp : Tick) :
    ((t.listener = false ∨ inp.accept = none) ∧ t.acceptPendingClient inp = t) ∨
    ∃ pending, t.listener = true ∧ inp.accept = some pending ∧
      ((t.session.mode = .bridge ∧ t.acceptPendingClient inp = t.turnAway pending) ∨
        (t.session.mode ≠ .bridge ∧
          t.acceptPendingClient inp = t.closeClient.enterBridge inp pending)) := by
  cases hlistener : t.listener with
  | false => exact Or.inl ⟨Or.inl rfl, acceptPendingClient_of_none (Or.inl hlistener)⟩
  | true =>
    cases haccept : inp.accept with
    | none => exact Or.inl ⟨Or.inr rfl, acceptPendingClient_of_none (Or.inr haccept)⟩
    | some pending =>
      refine Or.inr ⟨pending, rfl, rfl, ?_⟩
      by_cases hmode : t.session.mode = .bridge
      · exact Or.inl ⟨hmode, acceptPendingClient_of_bridge hlistener haccept hnext hmode⟩
      · exact Or.inr ⟨hmode, acceptPendingClient_of_monitor hlistener haccept hnext hmode⟩

/-- Ending the session of the active client. -/
lemma endSession_eq (hsession : t.session = ⟨.bridge, t.activeClientId⟩)
    (hclient : t.clientSocket = some conn) (p : Platform) :
    t.endSession p = t.disconnect p conn := by
  have hdisconnect : t.session.onDisconnect t.activeClientId = (.enteredMonitor, .init) := by
    rw [hsession]
    exact SessionState.onDisconnect_active rfl
  simp [endSession, closeClient, hclient, hdisconnect, disconnect]

lemma sendToClient_of_client (hmode : t.isBridgeMode = true) (hclient : t.clientSocket = some conn)
    (inp : Tick) : t.sendToClient inp =
      if (sendLoop inp conn 0 t.sendState).failed then
        (t.afterSend (sendLoop inp conn 0 t.sendState)).endSession inp.atEnd
      else t.afterSend (sendLoop inp conn 0 t.sendState) := by
  simp [sendToClient, hmode, hclient]

lemma sendToClient_of_no_client (hclient : t.clientSocket = none) (inp : Tick) :
    t.sendToClient inp = t := by
  simp [sendToClient, hclient]

lemma receiveFromClient_of_client (hmode : t.isBridgeMode = true)
    (hclient : t.clientSocket = some conn) (inp : Tick) : t.receiveFromClient inp =
      (t.afterRead (readLoop inp conn 0 t.tcpToUart t.capture),
        (readLoop inp conn 0 t.tcpToUart t.capture).ended) := by
  simp [receiveFromClient, hmode, hclient]

lemma receiveFromClient_of_no_client (hclient : t.clientSocket = none) (inp : Tick) :
    t.receiveFromClient inp = (t, false) := by
  simp [receiveFromClient, hclient]

/-! ### The invariant -/

/-- Either no client is connected for any part of the component, or the same one is for all. -/
inductive Agreement (t : Texecom) : Prop
  | monitor (session : t.session = .init) (client : t.clientSocket = none)
    (active : t.activeClientId = kNoClient) (capture : t.capture.sessionActive = false)
    (stage : t.sendStage = []) (off : t.sendStageOff = 0)
    (changes : Alternating none (transitions t.io))
  | bridge (conn : Conn) (session : t.session = ⟨.bridge, t.activeClientId⟩)
    (client : t.clientSocket = some conn) (active : t.activeClientId ≠ kNoClient)
    (capture : t.capture.sessionActive = true)
    (changes : Alternating (some t.activeClientId) (transitions t.io))

/-- Each record says the same. -/
lemma Agreement.records (h : t.Agreement) :
    (t.isBridgeMode = true ↔ t.clientSocket.isSome = true) ∧
    (t.isBridgeMode = true ↔ t.activeClientId ≠ kNoClient) ∧
    (t.isBridgeMode = true ↔
      t.session.activeClient = t.activeClientId ∧ t.activeClientId ≠ kNoClient) ∧
    (t.isBridgeMode = true ↔ t.capture.sessionActive = true) ∧
    (¬ t.isBridgeMode = true → t.sendStageOff = 0 ∧ t.sendStage.length = 0) ∧
    ∃ connected, Alternating connected (transitions t.io) := by
  cases h with
  | monitor session client active capture stage off changes =>
    have hbridge : t.isBridgeMode = false := by
      rw [isBridgeMode, session]
      rfl
    refine ⟨?_, ?_, ?_, ?_, ?_, _, changes⟩
    · simp [hbridge, client]
    · simp [hbridge, active]
    · simp [hbridge, active]
    · simp [hbridge, capture]
    · simp [stage, off]
  | bridge conn session client active capture changes =>
    have hbridge : t.isBridgeMode = true := by
      rw [isBridgeMode, session]
      rfl
    have hactive : t.session.activeClient = t.activeClientId := by
      rw [session]
      rfl
    refine ⟨?_, ?_, ?_, ?_, ?_, _, changes⟩
    · simp [hbridge, client]
    · simp [hbridge, active]
    · simp [hbridge, active, hactive]
    · simp [hbridge, capture]
    · simp [hbridge]

/-- What holds throughout a tick. -/
structure Inv (cc : Capture.Config) (t : Texecom) : Prop where
  agreement : t.Agreement
  next : t.nextClientId ≠ kNoClient
  bounded : t.sendState.Bounded
  capture : t.capture.Inv
  config : t.capture.config = cc

variable {cc : Capture.Config}

/-- Steps that are not transitions keep the agreement. -/
lemma Agreement.of_eq {t' : Texecom} (h : t.Agreement) (hsession : t'.session = t.session)
    (hclient : t'.clientSocket = t.clientSocket) (hactive : t'.activeClientId = t.activeClientId)
    (hcapture : t'.capture.sessionActive = t.capture.sessionActive)
    (hstage : t.clientSocket = none → t'.sendStage = t.sendStage ∧ t'.sendStageOff = t.sendStageOff)
    (hio : transitions t'.io = transitions t.io) : t'.Agreement := by
  cases h with
  | monitor session client active capture stage off changes =>
    obtain ⟨hstage, hoff⟩ := hstage client
    refine .monitor (hsession.trans session) (hclient.trans client) (hactive.trans active)
      (hcapture.trans capture) (hstage.trans stage) (hoff.trans off) ?_
    rwa [hio]
  | bridge conn session client active capture changes =>
    refine .bridge conn ?_ (hclient.trans client) ?_ (hcapture.trans capture) ?_
    · rw [hsession, hactive]
      exact session
    · rwa [hactive]
    · rwa [hio, hactive]

lemma Inv.beginTick (h : t.Inv cc) : t.beginTick.Inv cc := by
  refine ⟨h.agreement.of_eq rfl rfl rfl rfl (fun _ => ⟨rfl, rfl⟩) ?_, h.next, h.bounded, h.capture,
    h.config⟩
  simp [Texecom.beginTick, transitions, Obs.transitions]

lemma Inv.turnAway (h : t.Inv cc) (pending : Conn) : (t.turnAway pending).Inv cc := by
  refine ⟨h.agreement.of_eq rfl rfl rfl rfl (fun _ => ⟨rfl, rfl⟩) ?_, idAfter_ne _, h.bounded,
    h.capture, h.config⟩
  simp [Texecom.turnAway, transitions, Obs.transitions]

lemma sessionActive_onSessionStart (p : Platform) (c : Capture) :
    (c.onSessionStart p).sessionActive = true ∧ (c.onSessionStart p).config = c.config := by
  obtain ⟨_, _, _, _, hframe⟩ := Capture.onSessionStart_frame p c
  rw [hframe]
  exact ⟨rfl, rfl⟩

lemma sessionActive_onSessionEnd {c : Capture} (h : c.Inv) (p : Platform) :
    (c.onSessionEnd p).sessionActive = false ∧ (c.onSessionEnd p).config = c.config := by
  obtain ⟨_, _, _, _, _, _, _, hframe⟩ := h.onSessionEnd_frame p
  rw [hframe]
  exact ⟨rfl, rfl⟩

lemma Inv.enterBridge (h : t.Inv cc) (hmode : t.session.mode ≠ .bridge) (inp : Tick)
    (pending : Conn) : (t.enterBridge inp pending).Inv cc := by
  obtain ⟨hactive, hcfg⟩ := sessionActive_onSessionStart inp.atAccept t.capture
  cases h.agreement with
  | bridge conn session client active capture changes => exact absurd (by rw [session]) hmode
  | monitor session client active capture stage off changes =>
    refine ⟨.bridge pending rfl rfl h.next hactive ?_, idAfter_ne _, ⟨Nat.zero_le _, le_rfl⟩,
      h.capture.onSessionStart inp.atAccept, hcfg.trans h.config⟩
    simp only [Texecom.enterBridge, transitions_append]
    exact changes.bridge t.nextClientId

/-! ### The rest of a tick -/

/-- What the pumps and the capture flush can do, one at a time. -/
inductive PumpStep (inp : Tick) : Texecom → Texecom → Prop
  | receiveFromUart (t : Texecom) : PumpStep inp t (t.receiveFromUart inp)
  | send (t : Texecom) (conn : Conn) (hsession : t.session = ⟨.bridge, t.activeClientId⟩)
    (hclient : t.clientSocket = some conn) :
    PumpStep inp t (t.afterSend (sendLoop inp conn 0 t.sendState))
  | read (t : Texecom) (conn : Conn) (hsession : t.session = ⟨.bridge, t.activeClientId⟩)
    (hclient : t.clientSocket = some conn) :
    PumpStep inp t (t.afterRead (readLoop inp conn 0 t.tcpToUart t.capture))
  | disconnect (t : Texecom) (conn : Conn) (hsession : t.session = ⟨.bridge, t.activeClientId⟩)
    (hclient : t.clientSocket = some conn) : PumpStep inp t (t.disconnect inp.atEnd conn)
  | sendToUart (t : Texecom) : PumpStep inp t t.sendToUart
  | captureLoop (t : Texecom) : PumpStep inp t (t.captureLoop inp)

/-- Either the agreement is on no client, or it is on one. -/
lemma Inv.client_cases (h : t.Inv cc) : t.clientSocket = none ∨
    ∃ conn, t.clientSocket = some conn ∧ t.session = ⟨.bridge, t.activeClientId⟩ ∧
      t.isBridgeMode = true := by
  cases h.agreement with
  | monitor session client active capture stage off changes => exact Or.inl client
  | bridge conn session client active capture changes =>
    refine Or.inr ⟨conn, client, session, ?_⟩
    rw [isBridgeMode, SessionState.isBridgeMode, session]
    rfl

/-- In Monitor mode no client is connected. -/
lemma Inv.client_of_mode_ne (h : t.Inv cc) (hmode : t.session.mode ≠ .bridge) :
    t.clientSocket = none := by
  rcases h.client_cases with hclient | ⟨conn, -, hsession, -⟩
  · exact hclient
  · exact absurd (by rw [hsession]) hmode

/-- An accept with nothing left over from an earlier session. -/
lemma Inv.acceptPendingClient_cases (h : t.Inv cc) (inp : Tick) :
    ((t.listener = false ∨ inp.accept = none) ∧ t.acceptPendingClient inp = t) ∨
    ∃ pending, t.listener = true ∧ inp.accept = some pending ∧
      ((t.session.mode = .bridge ∧ t.acceptPendingClient inp = t.turnAway pending) ∨
        (t.session.mode ≠ .bridge ∧ t.acceptPendingClient inp = t.enterBridge inp pending)) := by
  rcases Texecom.acceptPendingClient_cases h.next inp with
    hnone | ⟨pending, hlistener, haccept, hturned | ⟨hmode, heq⟩⟩
  · exact Or.inl hnone
  · exact Or.inr ⟨pending, hlistener, haccept, Or.inl hturned⟩
  · rw [closeClient_of_no_client (h.client_of_mode_ne hmode)] at heq
    exact Or.inr ⟨pending, hlistener, haccept, Or.inr ⟨hmode, heq⟩⟩

lemma Inv.receiveFromUart (h : t.Inv cc) (inp : Tick) : (t.receiveFromUart inp).Inv cc := by
  have hqueues : t.capture.Queues (t.receiveFromUart inp).capture := by
    simp only [Texecom.receiveFromUart]
    split_ifs
    · exact recordIfWanted_queues _ _ _ _
    · exact .refl _
  refine ⟨h.agreement.of_eq rfl rfl rfl hqueues.sessionActive_eq (fun _ => ⟨rfl, rfl⟩) ?_, h.next,
    ⟨h.bounded.stage_le, h.bounded.off_le⟩, ?_, hqueues.config_eq.trans h.config⟩
  · simp [Texecom.receiveFromUart, transitions, Obs.transitions]
  · simp only [Texecom.receiveFromUart]
    split_ifs
    · exact inv_recordIfWanted h.capture _ _ _
    · exact h.capture

lemma Inv.afterSend (h : t.Inv cc) (hclient : t.clientSocket = some conn) (inp : Tick) :
    (t.afterSend (sendLoop inp conn 0 t.sendState)).Inv cc := by
  obtain ⟨-, -, hbounded⟩ := sendLoop_spec inp conn 0 t.sendState
  refine ⟨h.agreement.of_eq rfl rfl rfl rfl (fun hnone => ?_) ?_, h.next, hbounded h.bounded,
    h.capture, h.config⟩
  · rw [hclient] at hnone
    cases hnone
  · simp only [Texecom.afterSend, transitions_append,
      transitions_eq_nil (inSession_sendLoop inp conn 0 t.sendState), List.append_nil]

lemma Inv.afterRead (h : t.Inv cc) (inp : Tick) (conn : Conn) :
    (t.afterRead (readLoop inp conn 0 t.tcpToUart t.capture)).Inv cc := by
  obtain ⟨-, -, hqueues, hinv, -⟩ := readLoop_spec inp conn 0 t.tcpToUart t.capture
  refine ⟨h.agreement.of_eq rfl rfl rfl hqueues.sessionActive_eq (fun _ => ⟨rfl, rfl⟩) ?_, h.next,
    h.bounded, hinv h.capture, hqueues.config_eq.trans h.config⟩
  simp only [Texecom.afterRead, transitions_append,
    transitions_eq_nil (inSession_readLoop inp conn 0 t.tcpToUart t.capture), List.append_nil]

/-- The session that ends is that of the client that entered Bridge mode last. -/
lemma Inv.disconnect (h : t.Inv cc) (hclient : t.clientSocket = some conn) (p : Platform) :
    (t.disconnect p conn).Inv cc := by
  obtain ⟨hactive, hcfg⟩ := sessionActive_onSessionEnd h.capture p
  cases h.agreement with
  | monitor session client active capture stage off changes =>
    rw [client] at hclient
    cases hclient
  | bridge conn' session client active capture changes =>
    refine ⟨.monitor rfl rfl rfl hactive rfl rfl ?_, h.next, ⟨Nat.zero_le _, le_rfl⟩,
      h.capture.onSessionEnd p, hcfg.trans h.config⟩
    simp only [Texecom.disconnect, transitions_append]
    exact changes.monitor

lemma Inv.sendToUart (h : t.Inv cc) : t.sendToUart.Inv cc := by
  refine ⟨h.agreement.of_eq rfl rfl rfl rfl (fun _ => ⟨rfl, rfl⟩) ?_, h.next, h.bounded,
    h.capture, h.config⟩
  simp only [Texecom.sendToUart, transitions_append,
    transitions_eq_nil (inSession_uartTx (drainToUart t.tcpToUart).1), List.append_nil]

lemma captureLoop_eq (inp : Tick) (t : Texecom) :
    t.captureLoop inp = { t with capture := t.capture.flushRing inp.atLoop } := by
  rw [captureLoop, Capture.loop_eq_flushRing]

lemma Inv.captureLoop (h : t.Inv cc) (inp : Tick) : (t.captureLoop inp).Inv cc := by
  obtain ⟨_, _, _, _, _, _, _, hframe⟩ := h.capture.flushRing_frame inp.atLoop
  rw [captureLoop_eq]
  refine ⟨h.agreement.of_eq rfl rfl rfl ?_ (fun _ => ⟨rfl, rfl⟩) rfl, h.next, h.bounded,
    h.capture.flushRing inp.atLoop, ?_⟩
  · rw [hframe]
  · rw [hframe]
    exact h.config

/-- Every step of the pumps keeps the invariant. -/
lemma Inv.pumpStep {inp : Tick} {t t' : Texecom} (h : t.Inv cc) (hstep : PumpStep inp t t') :
    t'.Inv cc := by
  cases hstep with
  | receiveFromUart => exact h.receiveFromUart inp
  | send conn hsession hclient => exact h.afterSend hclient inp
  | read conn hsession hclient => exact h.afterRead inp conn
  | disconnect conn hsession hclient => exact h.disconnect hclient inp.atEnd
  | sendToUart => exact h.sendToUart
  | captureLoop => exact h.captureLoop inp

/-- Any number of steps of the pumps. -/
abbrev PumpSteps (inp : Tick) : Texecom → Texecom → Prop := Relation.ReflTransGen (PumpStep inp)

lemma Inv.pumpSteps {inp : Tick} {t t' : Texecom} (h : t.Inv cc) (hsteps : PumpSteps inp t t') :
    t'.Inv cc := by
  induction hsteps with
  | refl => exact h
  | tail _ hstep ih => exact ih.pumpStep hstep

lemma Inv.pumpUartToTcp_steps (h : t.Inv cc) (inp : Tick) :
    PumpSteps inp t (t.pumpUartToTcp inp) := by
  unfold Texecom.pumpUartToTcp
  split_ifs
  · exact .refl
  · have hfirst : PumpStep inp t (t.receiveFromUart inp) := .receiveFromUart t
    have h' := h.pumpStep hfirst
    rcases h'.client_cases with hclient | ⟨conn, hclient, hsession, hmode⟩
    · rw [sendToClient_of_no_client hclient]
      exact .single hfirst
    · have hsecond := (Relation.ReflTransGen.single hfirst).tail (.send _ conn hsession hclient)
      rw [sendToClient_of_client hmode hclient]
      split_ifs
      · rw [endSession_eq (by exact hsession) (by exact hclient)]
        exact hsecond.tail (.disconnect _ conn hsession hclient)
      · exact hsecond

lemma Inv.pumpTcpToUart_steps (h : t.Inv cc) (inp : Tick) :
    PumpSteps inp t (t.pumpTcpToUart inp) := by
  unfold Texecom.pumpTcpToUart
  split_ifs
  · exact .refl
  · rcases h.client_cases with hclient | ⟨conn, hclient, hsession, hmode⟩
    · rw [receiveFromClient_of_no_client hclient]
      exact .single (.sendToUart t)
    · have hfirst : PumpStep inp t _ := .read t conn hsession hclient
      rw [receiveFromClient_of_client hmode hclient]
      cases (readLoop inp conn 0 t.tcpToUart t.capture).ended with
      | true =>
        simp only
        rw [endSession_eq (by exact hsession) (by exact hclient)]
        exact (Relation.ReflTransGen.single hfirst).tail (.disconnect _ conn hsession hclient)
      | false => exact (Relation.ReflTransGen.single hfirst).tail (.sendToUart _)

/-- After the accept, a tick is a sequence of steps of the pumps. -/
lemma loop_steps {inp : Tick} (h' : (t.beginTick.acceptPendingClient inp).Inv cc) :
    PumpSteps inp (t.beginTick.acceptPendingClient inp) (t.loop inp) := by
  have hfirst := h'.pumpUartToTcp_steps inp
  have hsecond := (h'.pumpSteps hfirst).pumpTcpToUart_steps inp
  exact (hfirst.trans hsecond).tail (.captureLoop _)

lemma Inv.acceptPendingClient (h : t.Inv cc) (inp : Tick) : (t.acceptPendingClient inp).Inv cc := by
  rcases h.acceptPendingClient_cases inp with
    ⟨-, heq⟩ | ⟨pending, -, -, ⟨-, heq⟩ | ⟨hmode, heq⟩⟩
  · rw [heq]
    exact h
  · rw [heq]
    exact h.turnAway pending
  · rw [heq]
    exact h.enterBridge hmode inp pending

lemma Inv.loop (h : t.Inv cc) (inp : Tick) : (t.loop inp).Inv cc :=
  (h.beginTick.acceptPendingClient inp).pumpSteps
    (loop_steps (h.beginTick.acceptPendingClient inp))

/-! ### Runs -/

/-- What the capture sink of a run is set to. -/
def Config.capture (cfg : Config) : Capture.Config where
  mode := cfg.captureMode
  panelName := (cfg.model.getD panelModelPremier24).name
  maxTotalBytes := cfg.captureMaxRamBytes.toNat
  baudRate := Capture.init.baudRate

lemma capture_setup (cfg : Config) (listen : Bool) :
    ((constructed cfg).setup listen).capture = Capture.configured cfg.capture := rfl

lemma inv_setup (cfg : Config) (listen : Bool) :
    ((constructed cfg).setup listen).Inv (Capture.configured cfg.capture).config where
  agreement := .monitor rfl rfl rfl rfl rfl rfl .nil
  next := show (1 : ClientId) ≠ 0 by decide
  bounded := ⟨Nat.zero_le _, le_rfl⟩
  capture := capture_setup cfg listen ▸ Capture.inv_configured cfg.capture
  config := rfl

@[simp] lemma run_nil (cfg : Config) (listen : Bool) :
    run cfg listen [] = (constructed cfg).setup listen := rfl

@[simp] lemma run_concat (cfg : Config) (listen : Bool) (ticks : List Tick) (inp : Tick) :
    run cfg listen (ticks ++ [inp]) = (run cfg listen ticks).loop inp := by
  simp [run]

lemma inv_run (cfg : Config) (listen : Bool) (ticks : List Tick) :
    (run cfg listen ticks).Inv (Capture.configured cfg.capture).config := by
  induction ticks using List.reverseRecOn with
  | nil => exact inv_setup cfg listen
  | append_singleton ticks inp ih =>
    rw [run_concat]
    exact ih.loop inp

/-- A tick ends with a flush, so between ticks nothing is queued for capture. -/
lemma events_run (cfg : Config) (listen : Bool) (ticks : List Tick) :
    (run cfg listen ticks).capture.ring.events = [] := by
  induction ticks using List.reverseRecOn with
  | nil => rfl
  | append_singleton ticks inp ih =>
    have h := (inv_run cfg listen ticks).beginTick.acceptPendingClient inp
    have h' := (h.pumpSteps (h.pumpUartToTcp_steps inp))
    have h'' := (h'.pumpSteps (h'.pumpTcpToUart_steps inp)).capture
    obtain ⟨_, _, _, _, _, _, hring, hframe⟩ := h''.flushRing_frame inp.atLoop
    rw [run_concat, Texecom.loop, captureLoop_eq, hframe]
    exact hring

lemma queued_run (cfg : Config) (listen : Bool) (ticks : List Tick) :
    (run cfg listen ticks).capture.queued = [] := by
  rw [Capture.queued, events_run]
  rfl

/-- What holds after `setup()` and is kept by each thing a tick can do holds throughout a run. A
client is only let in when none is connected and nothing is queued for capture. -/
lemma run_induction {P : Texecom → Prop} (cfg : Config) (listen : Bool)
    (setup : P ((constructed cfg).setup listen)) (beginTick : ∀ t, P t → P t.beginTick)
    (turnAway : ∀ t pending, t.listener = true → P t → P (t.turnAway pending))
    (enterBridge : ∀ t inp pending, t.Inv (Capture.configured cfg.capture).config →
      t.listener = true → t.clientSocket = none → t.capture.queued = [] → P t →
      P (t.enterBridge inp pending))
    (pumpStep : ∀ inp t t', t.Inv (Capture.configured cfg.capture).config → PumpStep inp t t' →
      P t → P t') (ticks : List Tick) : P (run cfg listen ticks) := by
  induction ticks using List.reverseRecOn with
  | nil => exact setup
  | append_singleton ticks inp ih =>
    have hinv := (inv_run cfg listen ticks).beginTick
    have hbegun := beginTick _ ih
    have haccepted : P ((run cfg listen ticks).beginTick.acceptPendingClient inp) := by
      rcases hinv.acceptPendingClient_cases inp with
        ⟨-, heq⟩ | ⟨pending, hlistener, -, ⟨-, heq⟩ | ⟨hmode, heq⟩⟩
      · rwa [heq]
      · rw [heq]
        exact turnAway _ pending hlistener hbegun
      · have hclient := hinv.client_of_mode_ne hmode
        rw [heq]
        exact enterBridge _ inp pending hinv hlistener hclient (queued_run cfg listen ticks) hbegun
    have hinv' := hinv.acceptPendingClient inp
    have hpumped : ∀ t',
        PumpSteps inp ((run cfg listen ticks).beginTick.acceptPendingClient inp) t' → P t' := by
      intro t' hsteps
      induction hsteps with
      | refl => exact haccepted
      | tail hsteps hstep ih => exact pumpStep inp _ _ (hinv'.pumpSteps hsteps) hstep ih
    rw [run_concat]
    exact hpumped _ (loop_steps hinv')

/-- At every tick boundary the five records of whether a client is connected agree: the mode, the
socket, the two client ids and the capture sink. A pair of captures is live exactly during a session
that a mode with captures of its own is set for, nothing is queued for capture, the send stage is
within its bounds and empty outside a session, and Bridge and Monitor are entered in turn. -/
theorem session_agreement (cfg : Config) (listen : Bool) (ticks : List Tick) :
    let t := run cfg listen ticks
    (t.isBridgeMode = true ↔ t.clientSocket.isSome = true) ∧
    (t.isBridgeMode = true ↔ t.activeClientId ≠ kNoClient) ∧
    (t.isBridgeMode = true ↔
      t.session.activeClient = t.activeClientId ∧ t.activeClientId ≠ kNoClient) ∧
    (t.isBridgeMode = true ↔ t.capture.sessionActive = true) ∧
    ((∃ old q, t.capture.store.Live old q) ↔ t.isBridgeMode = true ∧ cfg.captureMode.opens) ∧
    (t.capture.store.Closed ↔ ¬ (t.isBridgeMode = true ∧ cfg.captureMode.opens)) ∧
    t.capture.ring.size = 0 ∧
    t.sendStageOff ≤ t.sendStage.length ∧ t.sendStage.length ≤ kSendStageSize ∧
    (¬ t.isBridgeMode = true → t.sendStageOff = 0 ∧ t.sendStage.length = 0) ∧
    ∃ connected, Alternating connected (transitions t.io) := by
  intro t
  have h : t.Inv (Capture.configured cfg.capture).config := inv_run cfg listen ticks
  have hring : t.capture.ring.size = 0 := by
    rw [← EventRing.events_eq_nil_iff]
    exact events_run cfg listen ticks
  have hmode : t.capture.mode = cfg.captureMode := congrArg Capture.Config.mode h.config
  obtain ⟨hlive, hclosed⟩ := h.capture.live_iff
  obtain ⟨hclient, hactive, hsession, hcapture, hstage, hchanges⟩ := h.agreement.records
  have hpair : t.capture.sessionActive = true ∧ cfg.captureMode.opens ↔
      t.isBridgeMode = true ∧ cfg.captureMode.opens := and_congr_left fun _ => hcapture.symm
  rw [hmode, hpair] at hlive hclosed
  exact ⟨hclient, hactive, hsession, hcapture, hlive, hclosed, hring, h.bounded.off_le,
    h.bounded.stage_le, hstage, hchanges⟩

end Texecom
end TexecomBridge
