import TexecomBridge.Texecom.Device

/-!
# Interrupted sessions

A shutdown in the middle of a session closes its client's socket and leaves session and capture sink
as they are; a setup resets the session and leaves socket and capture sink. The parts of the
component then disagree until the next client is let in, and nothing else ends it.
-/

namespace TexecomBridge
namespace Texecom

/-! ### Where a session stands -/

/-- Where the session stands, and whether it was interrupted: by a shutdown, which closes the
listener too, or by a setup. The capture sink hears of neither. -/
inductive Standing (t : Texecom) : Bool → Prop
  | idle (session : t.session = .init) (client : t.clientSocket = none)
    (active : t.activeClientId = kNoClient) (capture : t.capture.sessionActive = false) :
    Standing t false
  | serving (conn : Conn) (session : t.session = ⟨.bridge, t.activeClientId⟩)
    (client : t.clientSocket = some conn) (active : t.activeClientId ≠ kNoClient)
    (capture : t.capture.sessionActive = true) : Standing t false
  | severed (session : t.session = ⟨.bridge, t.activeClientId⟩) (client : t.clientSocket = none)
    (listener : t.listener = false) (capture : t.capture.sessionActive = true) : Standing t true
  | reset (session : t.session = .init) (capture : t.capture.sessionActive = true) :
    Standing t true

/-- What holds throughout a tick, whatever came before it. -/
structure Upheld (t : Texecom) (interrupted : Bool) : Prop where
  standing : t.Standing interrupted
  next : t.nextClientId ≠ kNoClient
  capture : t.capture.Inv

/-- The tick lets a client in: one is waiting, and the mode is Monitor. -/
def admits (inp : Tick) (t : Texecom) : Bool :=
  t.listener && inp.accept.isSome && !t.isBridgeMode

variable {t t' : Texecom} {conn : Conn} {interrupted : Bool} {inp : Tick}

lemma isBridgeMode_of_bridge {id : ClientId} (h : t.session = ⟨.bridge, id⟩) :
    t.isBridgeMode = true := by
  rw [isBridgeMode, h]
  rfl

lemma isBridgeMode_of_init (h : t.session = .init) : t.isBridgeMode = false := by
  rw [isBridgeMode, h]
  rfl

lemma Standing.of_eq (h : t.Standing interrupted) (hsession : t'.session = t.session)
    (hclient : t'.clientSocket = t.clientSocket) (hactive : t'.activeClientId = t.activeClientId)
    (hlistener : t'.listener = t.listener)
    (hcapture : t'.capture.sessionActive = t.capture.sessionActive) : t'.Standing interrupted := by
  cases h with
  | idle session client active capture =>
    exact .idle (hsession.trans session) (hclient.trans client) (hactive.trans active)
      (hcapture.trans capture)
  | serving conn session client active capture =>
    exact .serving conn (by rw [hsession, hactive, session]) (hclient.trans client)
      (by rwa [hactive]) (hcapture.trans capture)
  | severed session client listener capture =>
    exact .severed (by rw [hsession, hactive, session]) (hclient.trans client)
      (hlistener.trans listener) (hcapture.trans capture)
  | reset session capture => exact .reset (hsession.trans session) (hcapture.trans capture)

/-- Bytes are moved only for a client that the session is for. -/
lemma Standing.client_cases (h : t.Standing interrupted) :
    (t.isBridgeMode = false ∨ t.clientSocket = none) ∨
    ∃ conn, t.clientSocket = some conn ∧ t.session = ⟨.bridge, t.activeClientId⟩ ∧
      t.isBridgeMode = true := by
  cases h with
  | idle session client active capture => exact Or.inl (Or.inr client)
  | serving conn session client active capture =>
    exact Or.inr ⟨conn, client, session, isBridgeMode_of_bridge session⟩
  | severed session client listener capture => exact Or.inl (Or.inr client)
  | reset session capture => exact Or.inl (Or.inl (isBridgeMode_of_init session))

/-- The parts agree exactly when no session was interrupted. -/
lemma Upheld.agrees_iff (h : t.Upheld interrupted) : t.Agrees ↔ interrupted = false := by
  have hlive := h.capture.live_iff.1
  cases h.standing with
  | idle session client active capture =>
    have hmode := isBridgeMode_of_init session
    refine iff_of_true ⟨?_, ?_, ?_, ?_⟩ rfl
    · simp [hmode, client]
    · simp [hmode, active]
    · simp [hmode, capture]
    · simp [hlive, hmode, capture]
  | serving conn session client active capture =>
    have hmode := isBridgeMode_of_bridge session
    refine iff_of_true ⟨?_, ?_, ?_, ?_⟩ rfl
    · simp [hmode, client]
    · simp [hmode, active]
    · simp [hmode, capture]
    · simp [hlive, hmode, capture]
  | severed session client listener capture =>
    refine iff_of_false (fun hagrees => ?_) (by simp)
    have hsome := hagrees.client.mp (isBridgeMode_of_bridge session)
    rw [client] at hsome
    cases hsome
  | reset session capture =>
    refine iff_of_false (fun hagrees => ?_) (by simp)
    have hmode := hagrees.capture.mpr capture
    rw [isBridgeMode_of_init session] at hmode
    cases hmode

/-! ### Setup and shutdown -/

/-- The capture sink has the name of the panel model already. -/
lemma Upheld.setup (h : t.Upheld interrupted)
    (hname : (t.model.getD panelModelPremier24).name = t.capture.panelName) (listen : Bool) :
    (t.setup listen).Upheld (interrupted || t.isBridgeMode) := by
  have hcapture : (t.setup listen).capture = t.capture := by
    simp only [Texecom.setup, Capture.setPanelName, hname]
  refine ⟨?_, show (1 : ClientId) ≠ kNoClient by decide, hcapture ▸ h.capture⟩
  cases h.standing with
  | idle session client active capture =>
    rw [isBridgeMode_of_init session]
    exact .idle rfl client rfl (hcapture ▸ capture)
  | serving conn session client active capture =>
    rw [isBridgeMode_of_bridge session]
    exact .reset rfl (hcapture ▸ capture)
  | severed session client listener capture => exact .reset rfl (hcapture ▸ capture)
  | reset session capture => exact .reset rfl (hcapture ▸ capture)

lemma Upheld.onShutdown (h : t.Upheld interrupted) :
    t.onShutdown.Upheld (interrupted || t.isBridgeMode) := by
  rw [Texecom.onShutdown, closeClient_eq]
  refine ⟨?_, h.next, h.capture⟩
  cases h.standing with
  | idle session client active capture =>
    rw [isBridgeMode_of_init session]
    exact .idle session rfl active capture
  | serving conn session client active capture =>
    rw [isBridgeMode_of_bridge session]
    exact .severed session rfl rfl capture
  | severed session client listener capture => exact .severed session rfl rfl capture
  | reset session capture => exact .reset session capture

/-! ### A tick -/

lemma sendToClient_of_unserved (h : t.isBridgeMode = false ∨ t.clientSocket = none) (inp : Tick) :
    t.sendToClient inp = t := by
  rcases h with hmode | hclient
  · simp [sendToClient, hmode]
  · exact sendToClient_of_no_client hclient inp

lemma receiveFromClient_of_unserved (h : t.isBridgeMode = false ∨ t.clientSocket = none)
    (inp : Tick) : t.receiveFromClient inp = (t, false) := by
  rcases h with hmode | hclient
  · simp [receiveFromClient, hmode]
  · exact receiveFromClient_of_no_client hclient inp

lemma Upheld.turnAway (h : t.Upheld interrupted) (pending : Conn) :
    (t.turnAway pending).Upheld interrupted :=
  ⟨h.standing.of_eq rfl rfl rfl rfl rfl, idAfter_ne _, h.capture⟩

/-- A client that is let in finds all parts in agreement, also where a socket was left over. -/
lemma Upheld.enterBridge (h : t.Upheld interrupted) (inp : Tick) (pending : Conn) :
    (t.closeClient.enterBridge inp pending).Upheld false := by
  rw [closeClient_eq]
  exact ⟨.serving pending rfl rfl h.next (sessionActive_onSessionStart inp.atAccept t.capture).1,
    idAfter_ne _, h.capture.onSessionStart inp.atAccept⟩

lemma Upheld.acceptPendingClient (h : t.Upheld interrupted) (inp : Tick) :
    (t.acceptPendingClient inp).Upheld (interrupted && !t.admits inp) := by
  rcases acceptPendingClient_cases h.next inp with
    ⟨hnone, heq⟩ | ⟨pending, hlistener, hsome, ⟨hmode, heq⟩ | ⟨hmode, heq⟩⟩
  · have hadmits : t.admits inp = false := by
      rcases hnone with hnone | hnone <;> simp [admits, hnone]
    rw [heq, hadmits, Bool.not_false, Bool.and_true]
    exact h
  · have hadmits : t.admits inp = false := by
      simp [admits, isBridgeMode, SessionState.isBridgeMode, hmode]
    rw [heq, hadmits, Bool.not_false, Bool.and_true]
    exact h.turnAway pending
  · have hadmits : t.admits inp = true := by
      simp [admits, isBridgeMode, SessionState.isBridgeMode, hmode, hlistener, hsome]
    rw [heq, hadmits, Bool.not_true, Bool.and_false]
    exact h.enterBridge inp pending

lemma Upheld.receiveFromUart (h : t.Upheld interrupted) (inp : Tick) :
    (t.receiveFromUart inp).Upheld interrupted := by
  have hqueues : t.capture.Queues (t.receiveFromUart inp).capture ∧
      (t.receiveFromUart inp).capture.Inv := by
    simp only [Texecom.receiveFromUart]
    split_ifs
    · exact ⟨recordIfWanted_queues _ _ _ _, inv_recordIfWanted h.capture _ _ _⟩
    · exact ⟨.refl _, h.capture⟩
  exact ⟨h.standing.of_eq rfl rfl rfl rfl hqueues.1.sessionActive_eq, h.next, hqueues.2⟩

/-- Only a session that was not interrupted can end. -/
lemma Upheld.disconnect (h : t.Upheld interrupted)
    (hsession : t.session = ⟨.bridge, t.activeClientId⟩) (hclient : t.clientSocket = some conn)
    (p : Platform) : (t.disconnect p conn).Upheld interrupted := by
  refine ⟨?_, h.next, h.capture.onSessionEnd p⟩
  cases h.standing with
  | serving conn' session client active capture =>
    exact .idle rfl rfl rfl (sessionActive_onSessionEnd h.capture p).1
  | idle session client active capture =>
    rw [client] at hclient
    cases hclient
  | severed session client listener capture =>
    rw [client] at hclient
    cases hclient
  | reset session capture =>
    rw [session] at hsession
    cases hsession

lemma Upheld.pumpStep (h : t.Upheld interrupted) (hstep : PumpStep inp t t') :
    t'.Upheld interrupted := by
  cases hstep with
  | receiveFromUart => exact h.receiveFromUart inp
  | send conn hsession hclient => exact ⟨h.standing.of_eq rfl rfl rfl rfl rfl, h.next, h.capture⟩
  | read conn hsession hclient =>
    obtain ⟨-, -, hqueues, hinv, -⟩ := readLoop_spec inp conn 0 t.tcpToUart t.capture
    exact ⟨h.standing.of_eq rfl rfl rfl rfl hqueues.sessionActive_eq, h.next, hinv h.capture⟩
  | disconnect conn hsession hclient => exact h.disconnect hsession hclient inp.atEnd
  | sendToUart => exact ⟨h.standing.of_eq rfl rfl rfl rfl rfl, h.next, h.capture⟩
  | captureLoop =>
    obtain ⟨_, _, _, _, _, _, _, hframe⟩ := h.capture.flushRing_frame inp.atLoop
    rw [captureLoop_eq]
    refine ⟨h.standing.of_eq rfl rfl rfl rfl ?_, h.next, h.capture.flushRing inp.atLoop⟩
    rw [hframe]

lemma Upheld.pumpSteps (h : t.Upheld interrupted) (hsteps : PumpSteps inp t t') :
    t'.Upheld interrupted := by
  induction hsteps with
  | refl => exact h
  | tail _ hstep ih => exact ih.pumpStep hstep

lemma Upheld.pumpUartToTcp_steps (h : t.Upheld interrupted) (inp : Tick) :
    PumpSteps inp t (t.pumpUartToTcp inp) := by
  unfold Texecom.pumpUartToTcp
  split_ifs
  · exact .refl
  · have hfirst : PumpStep inp t (t.receiveFromUart inp) := .receiveFromUart t
    rcases (h.pumpStep hfirst).standing.client_cases with
      hunserved | ⟨conn, hclient, hsession, hmode⟩
    · rw [sendToClient_of_unserved hunserved]
      exact .single hfirst
    · have hsecond := (Relation.ReflTransGen.single hfirst).tail (.send _ conn hsession hclient)
      rw [sendToClient_of_client hmode hclient]
      split_ifs
      · rw [endSession_eq (by exact hsession) (by exact hclient)]
        exact hsecond.tail (.disconnect _ conn hsession hclient)
      · exact hsecond

lemma Upheld.pumpTcpToUart_steps (h : t.Upheld interrupted) (inp : Tick) :
    PumpSteps inp t (t.pumpTcpToUart inp) := by
  unfold Texecom.pumpTcpToUart
  split_ifs
  · exact .refl
  · rcases h.standing.client_cases with hunserved | ⟨conn, hclient, hsession, hmode⟩
    · rw [receiveFromClient_of_unserved hunserved]
      exact .single (.sendToUart t)
    · have hfirst : PumpStep inp t _ := .read t conn hsession hclient
      rw [receiveFromClient_of_client hmode hclient]
      cases (readLoop inp conn 0 t.tcpToUart t.capture).ended with
      | true =>
        simp only
        rw [endSession_eq (by exact hsession) (by exact hclient)]
        exact (Relation.ReflTransGen.single hfirst).tail (.disconnect _ conn hsession hclient)
      | false => exact (Relation.ReflTransGen.single hfirst).tail (.sendToUart _)

/-- After the accept, a tick is a sequence of steps of the pumps, also after an interruption. -/
lemma Upheld.loop_steps (h : (t.beginTick.acceptPendingClient inp).Upheld interrupted) :
    PumpSteps inp (t.beginTick.acceptPendingClient inp) (t.loop inp) := by
  have hfirst := h.pumpUartToTcp_steps inp
  have hsecond := (h.pumpSteps hfirst).pumpTcpToUart_steps inp
  exact (hfirst.trans hsecond).tail (.captureLoop _)

lemma Upheld.beginTick (h : t.Upheld interrupted) : t.beginTick.Upheld interrupted :=
  ⟨h.standing.of_eq rfl rfl rfl rfl rfl, h.next, h.capture⟩

lemma Upheld.loop (h : t.Upheld interrupted) (inp : Tick) :
    (t.loop inp).Upheld (interrupted && !t.admits inp) :=
  (h.beginTick.acceptPendingClient inp).pumpSteps (h.beginTick.acceptPendingClient inp).loop_steps

end Texecom

/-! ### Any order of setup, ticks and shutdown -/

namespace Device

/-- Whether the session was interrupted after `e`: a setup or a shutdown in Bridge mode interrupts
it, and the next client that is let in has a session of its own. -/
def interruptedAfter (d : Device) (interrupted : Bool) : Lifecycle → Bool
  | .loop inp => interrupted && !d.texecom.admits inp
  | _ => interrupted || d.texecom.isBridgeMode

def interruptedFrom (d : Device) (interrupted : Bool) : List Lifecycle → Bool
  | [] => interrupted
  | e :: events => (d.step e).interruptedFrom (d.interruptedAfter interrupted e) events

/-- Whether a session was interrupted, and no client has been let in since. -/
def interrupted (cfg : Texecom.Config) (webServer listen : Bool) (events : List Lifecycle) : Bool :=
  ((constructed cfg).setup webServer listen).interruptedFrom false events

lemma interruptedFrom_concat (d : Device) (b : Bool) (events : List Lifecycle) (e : Lifecycle) :
    d.interruptedFrom b (events ++ [e])
      = (events.foldl step d).interruptedAfter (d.interruptedFrom b events) e := by
  induction events generalizing d b with
  | nil => rfl
  | cons e' events ih => exact ih _ _

lemma upheld_run (cfg : Texecom.Config) (webServer listen : Bool) (events : List Lifecycle) :
    (run cfg webServer listen events).texecom.Upheld (interrupted cfg webServer listen events) := by
  induction events using List.reverseRecOn with
  | nil =>
    have hinv := Texecom.inv_setup cfg listen
    rw [run_nil, texecom_setup]
    exact ⟨.idle rfl rfl rfl rfl, hinv.next, hinv.capture⟩
  | append_singleton events e ih =>
    rw [run_concat, interrupted, interruptedFrom_concat]
    cases e with
    | setup webServer' listen' =>
      obtain ⟨ops, howns⟩ := owns_run cfg webServer listen events
      rw [step, texecom_setup]
      refine ih.setup ?_ listen'
      rw [howns.model_eq, howns.capture_eq]
      exact (congrArg Capture.Config.panelName (Capture.config_run cfg.capture ops)).symm
    | loop inp => exact ih.loop inp
    | shutdown => exact ih.onShutdown

/-- Whatever the framework calls, and in whatever order, session, socket, client id and capture sink
agree exactly when no setup and no shutdown has come in the middle of a session since a client was
last let in: nothing else sets them apart, and the next client that is let in sets them right. -/
theorem agrees_iff_not_interrupted (cfg : Texecom.Config) (webServer listen : Bool)
    (events : List Lifecycle) :
    (run cfg webServer listen events).texecom.Agrees
      ↔ interrupted cfg webServer listen events = false :=
  (upheld_run cfg webServer listen events).agrees_iff

/-- A client is let in and the device is set up again: the parts disagree until the next client. -/
example :
    let visit : Tick := { Tick.quiet with accept := some 1 }
    interrupted ⟨true, none, .bridgeOnly, 8192⟩ true true
        [.loop visit, .setup true true, .loop .quiet] = true ∧
    interrupted ⟨true, none, .bridgeOnly, 8192⟩ true true
        [.loop visit, .setup true true, .loop .quiet, .loop visit] = false := by
  decide +kernel

end Device
end TexecomBridge
