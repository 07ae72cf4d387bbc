import TexecomBridge.Texecom.PanelBound
import TexecomBridge.Library.Inserted

/-!
# A second client cannot be noticed by the first

Two runs, of which the second has further connection attempts while a client is connected. They
differ in what is done with the new sockets and in the client ids, and in nothing else.
-/

namespace TexecomBridge

/-- The same answers, and a connection. -/
def Tick.withAccept (conn : Conn) (inp : Tick) : Tick := { inp with accept := some conn }

/-- An observation without the client it is for. -/
def Obs.forgetId : Obs → Obs
  | .accepted transition _ conn drops => .accepted transition kNoClient conn drops
  | .ended transition _ drops => .ended transition kNoClient drops
  | o => o

/-- The second trace is the first up to client ids, with the sockets of `extra` closed at once. -/
abbrev Unnoticed : List Conn → List Obs → List Obs → Prop :=
  Inserted (fun o o' => o'.forgetId = o.forgetId) Obs.rejected

lemma Unnoticed.append {extra : List Conn} {io io' : List Obs} (h : Unnoticed extra io io')
    (os : List Obs) : Unnoticed extra (io ++ os) (io' ++ os) :=
  Inserted.append h (List.forall₂_same.mpr fun _ _ => rfl)

/-- A reading that ignores client ids and closed sockets reads the same. -/
lemma Unnoticed.flatMap_eq {δ : Type*} {extra : List Conn} {io io' : List Obs}
    (h : Unnoticed extra io io') {f : Obs → List δ} (hf : ∀ o, f o.forgetId = f o)
    (hrejected : ∀ conn, f (.rejected conn) = []) : io'.flatMap f = io.flatMap f := by
  apply Inserted.flatMap_eq h _ hrejected
  intro o o' hsame
  rw [← hf o', hsame, hf o]

/-! ### The pumps never look at the listener -/

lemma sendLoop_withAccept (inp : Tick) (pending conn : Conn) (k : ℕ) (s : SendState) :
    sendLoop (inp.withAccept pending) conn k s = sendLoop inp conn k s := by
  induction k, s using sendLoop.induct inp conn with
  | case1 k s hempty => rw [sendLoop, sendLoop, dif_pos hempty, dif_pos hempty]
  | case2 k s hempty hanswer =>
    have hanswer' : (inp.withAccept pending).write k s.topUp.remaining.length = .wouldBlock :=
      hanswer
    rw [sendLoop, sendLoop, dif_neg hempty, dif_neg hempty, hanswer, hanswer']
  | case3 k s hempty hanswer =>
    have hanswer' : (inp.withAccept pending).write k s.topUp.remaining.length = .error := hanswer
    rw [sendLoop, sendLoop, dif_neg hempty, dif_neg hempty, hanswer, hanswer']
  | case4 k s hempty n hanswer hshort =>
    have hanswer' : (inp.withAccept pending).write k s.topUp.remaining.length = .sent n := hanswer
    rw [sendLoop, sendLoop, dif_neg hempty, dif_neg hempty, hanswer, hanswer']
    simp only [if_pos hshort]
  | case5 k s hempty n hanswer hfull ih =>
    have hanswer' : (inp.withAccept pending).write k s.topUp.remaining.length = .sent n := hanswer
    rw [sendLoop, sendLoop, dif_neg hempty, dif_neg hempty, hanswer, hanswer']
    simp only [if_neg hfull, ih]

lemma readLoop_withAccept (inp : Tick) (pending conn : Conn) (k : ℕ)
    (ring : RingBuffer UInt8 kBufferSize) (capture : Capture) :
    readLoop (inp.withAccept pending) conn k ring capture = readLoop inp conn k ring capture := by
  induction k, ring, capture using readLoop_induction inp conn with
  | full k ring capture hfull => rw [readLoop_of_full hfull, readLoop_of_full hfull]
  | no_data k ring capture hfull hdata =>
    rw [readLoop_of_no_data hfull hdata, readLoop_of_no_data hfull (by exact hdata)]
    rfl
  | data k ring capture bytes hfull hanswer ih =>
    have hanswer' : (inp.withAccept pending).read k (wanted ring) = .data bytes := hanswer
    have hat : (inp.withAccept pending).atRead k = inp.atRead k := rfl
    rw [readLoop_of_data hfull hanswer, readLoop_of_data hfull hanswer', hat, ih]

namespace Texecom

lemma pumps_withAccept (inp : Tick) (pending : Conn) (t : Texecom) :
    t.pumpUartToTcp (inp.withAccept pending) = t.pumpUartToTcp inp ∧
      t.pumpTcpToUart (inp.withAccept pending) = t.pumpTcpToUart inp ∧
      t.captureLoop (inp.withAccept pending) = t.captureLoop inp := by
  refine ⟨?_, ?_, rfl⟩
  · have hfirst : t.receiveFromUart (inp.withAccept pending) = t.receiveFromUart inp := rfl
    simp only [pumpUartToTcp, hfirst, sendToClient, sendLoop_withAccept]
    rfl
  · simp only [pumpTcpToUart, receiveFromClient, readLoop_withAccept]
    rfl

/-! ### Renaming -/

/-- The same state with other client ids and another trace. -/
def rename (next active : ClientId) (io : List Obs) (t : Texecom) : Texecom :=
  { t with
    nextClientId := next, activeClientId := active, session := ⟨t.session.mode, active⟩, io := io }

/-- `t'` is `t` up to client ids and the sockets of `extra`. -/
def Alike (extra : List Conn) (t t' : Texecom) : Prop :=
  ∃ next active io, t' = t.rename next active io ∧ Unnoticed extra t.io io

variable {cc : Capture.Config} {extra : List Conn} {t t' : Texecom}

namespace Alike

lemma beginTick (h : Alike extra t t') : Alike extra t.beginTick t'.beginTick := by
  obtain ⟨next, active, io, rfl, hio⟩ := h
  exact ⟨next, active, _, rfl, hio.append [.tick]⟩

/-- With the same answer of the listener. -/
lemma acceptPendingClient (h : Alike extra t t') (hinv : t.Inv cc)
    (hnext' : t'.nextClientId ≠ kNoClient) (inp : Tick) :
    Alike extra (t.acceptPendingClient inp) (t'.acceptPendingClient inp) := by
  obtain ⟨next, active, io, rfl, hio⟩ := h
  rcases hinv.acceptPendingClient_cases inp with
    ⟨hnone, heq⟩ | ⟨pending, hlistener, haccept, ⟨hmode, heq⟩ | ⟨hmode, heq⟩⟩
  · rw [heq, acceptPendingClient_of_none (by exact hnone)]
    exact ⟨next, active, io, rfl, hio⟩
  · have hlistener' : (t.rename next active io).listener = true := hlistener
    rw [heq, acceptPendingClient_of_bridge hlistener' haccept hnext' hmode]
    exact ⟨_, _, _, rfl, hio.append [.rejected pending]⟩
  · have hlistener' : (t.rename next active io).listener = true := hlistener
    have hnone : (t.rename next active io).clientSocket = none := hinv.client_of_mode_ne hmode
    rw [heq, acceptPendingClient_of_monitor hlistener' haccept hnext' hmode,
      closeClient_of_no_client hnone]
    exact ⟨_, _, _, rfl, hio.pair rfl⟩

/-- With a connection in the second run only, while a client is connected. -/
lemma turnAway (h : Alike extra t t') {inp : Tick} (hnone : inp.accept = none)
    (hlistener : t.listener = true) (hnext' : t'.nextClientId ≠ kNoClient)
    (hmode : t.session.mode = .bridge) (pending : Conn) :
    Alike (extra ++ [pending]) (t.acceptPendingClient inp)
      (t'.acceptPendingClient (inp.withAccept pending)) := by
  obtain ⟨next, active, io, rfl, hio⟩ := h
  have hlistener' : (t.rename next active io).listener = true := hlistener
  have haccept : (inp.withAccept pending).accept = some pending := rfl
  rw [acceptPendingClient_of_none (Or.inr hnone),
    acceptPendingClient_of_bridge hlistener' haccept hnext' hmode]
  exact ⟨_, _, _, rfl, hio.insert pending⟩

lemma receiveFromUart (h : Alike extra t t') (inp : Tick) :
    Alike extra (t.receiveFromUart inp) (t'.receiveFromUart inp) := by
  obtain ⟨next, active, io, rfl, hio⟩ := h
  exact ⟨_, _, _, rfl, hio.append _⟩

/-- Each run ends the session of the client it calls active. -/
lemma endSession (h : Alike extra t t') (hsession : t.session = ⟨.bridge, t.activeClientId⟩)
    {conn : Conn} (hclient : t.clientSocket = some conn) (p : Platform) :
    Alike extra (t.endSession p) (t'.endSession p) := by
  obtain ⟨next, active, io, rfl, hio⟩ := h
  have hsession' : (t.rename next active io).session = ⟨.bridge, active⟩ := by
    rw [rename, hsession]
  have hclient' : (t.rename next active io).clientSocket = some conn := hclient
  rw [endSession_eq hsession hclient, endSession_eq hsession' hclient']
  exact ⟨_, _, _, rfl, Inserted.append hio (.cons rfl (.cons rfl .nil))⟩

lemma sendToClient (h : Alike extra t t') (hinv : t.Inv cc) (inp : Tick) :
    Alike extra (t.sendToClient inp) (t'.sendToClient inp) := by
  obtain ⟨next, active, io, rfl, hio⟩ := h
  rcases hinv.client_cases with hclient | ⟨conn, hclient, hsession, hmode⟩
  · have hclient' : (t.rename next active io).clientSocket = none := hclient
    rw [sendToClient_of_no_client hclient, sendToClient_of_no_client hclient']
    exact ⟨next, active, io, rfl, hio⟩
  · have hclient' : (t.rename next active io).clientSocket = some conn := hclient
    have hmode' : (t.rename next active io).isBridgeMode = true := hmode
    have hsend : (t.rename next active io).sendState = t.sendState := rfl
    have hsent : Alike extra (t.afterSend (sendLoop inp conn 0 t.sendState))
        ((t.rename next active io).afterSend (sendLoop inp conn 0 t.sendState)) :=
      ⟨_, _, _, rfl, hio.append _⟩
    rw [sendToClient_of_client hmode hclient, sendToClient_of_client hmode' hclient', hsend]
    by_cases hfailed : (sendLoop inp conn 0 t.sendState).failed = true
    · rw [if_pos hfailed, if_pos hfailed]
      exact hsent.endSession hsession hclient inp.atEnd
    · rw [if_neg hfailed, if_neg hfailed]
      exact hsent

lemma pumpUartToTcp (h : Alike extra t t') (hinv : t.Inv cc) (inp : Tick) :
    Alike extra (t.pumpUartToTcp inp) (t'.pumpUartToTcp inp) := by
  have huart : t'.uart = t.uart := by
    obtain ⟨next, active, io, rfl, hio⟩ := h
    rfl
  unfold Texecom.pumpUartToTcp
  rw [huart]
  split_ifs
  · exact h
  · exact (h.receiveFromUart inp).sendToClient (hinv.pumpStep (.receiveFromUart t)) inp

lemma pumpTcpToUart (h : Alike extra t t') (hinv : t.Inv cc) (inp : Tick) :
    Alike extra (t.pumpTcpToUart inp) (t'.pumpTcpToUart inp) := by
  obtain ⟨next, active, io, rfl, hio⟩ := h
  have huart : (t.rename next active io).uart = t.uart := rfl
  unfold Texecom.pumpTcpToUart
  rw [huart]
  split_ifs
  · exact ⟨next, active, io, rfl, hio⟩
  · rcases hinv.client_cases with hclient | ⟨conn, hclient, hsession, hmode⟩
    · have hclient' : (t.rename next active io).clientSocket = none := hclient
      rw [receiveFromClient_of_no_client hclient, receiveFromClient_of_no_client hclient']
      exact ⟨_, _, _, rfl, hio.append _⟩
    · have hclient' : (t.rename next active io).clientSocket = some conn := hclient
      have hmode' : (t.rename next active io).isBridgeMode = true := hmode
      have hread : readLoop inp conn 0 (t.rename next active io).tcpToUart
          (t.rename next active io).capture = readLoop inp conn 0 t.tcpToUart t.capture := rfl
      have hreceived : Alike extra (t.afterRead (readLoop inp conn 0 t.tcpToUart t.capture))
          ((t.rename next active io).afterRead (readLoop inp conn 0 t.tcpToUart t.capture)) :=
        ⟨_, _, _, rfl, hio.append _⟩
      rw [receiveFromClient_of_client hmode hclient, receiveFromClient_of_client hmode' hclient',
        hread]
      cases (readLoop inp conn 0 t.tcpToUart t.capture).ended with
      | true => exact hreceived.endSession hsession hclient inp.atEnd
      | false =>
        obtain ⟨next', active', io', heq, hio'⟩ := hreceived
        simp only
        rw [heq]
        exact ⟨_, _, _, rfl, hio'.append _⟩

lemma captureLoop (h : Alike extra t t') (inp : Tick) :
    Alike extra (t.captureLoop inp) (t'.captureLoop inp) := by
  obtain ⟨next, active, io, rfl, hio⟩ := h
  exact ⟨_, _, _, rfl, hio⟩

/-- What comes after the accept is the same in both runs. -/
lemma afterAccept (h : Alike extra t t') (hinv : t.Inv cc) (inp : Tick) :
    Alike extra (((t.pumpUartToTcp inp).pumpTcpToUart inp).captureLoop inp)
      (((t'.pumpUartToTcp inp).pumpTcpToUart inp).captureLoop inp) := by
  have hpumped := hinv.pumpSteps (hinv.pumpUartToTcp_steps inp)
  exact ((h.pumpUartToTcp hinv inp).pumpTcpToUart hpumped inp).captureLoop inp

end Alike

/-! ### Runs -/

/-- The second run has the connections of `extra` besides, each in a tick that begins in Bridge mode
and had none. -/
inductive Attempts (cfg : Config) (listen : Bool) : List Conn → List Tick → List Tick → Prop
  | nil : Attempts cfg listen [] [] []
  | same {extra : List Conn} {ticks ticks' : List Tick} (h : Attempts cfg listen extra ticks ticks')
    (inp : Tick) : Attempts cfg listen extra (ticks ++ [inp]) (ticks' ++ [inp])
  | extra {extra : List Conn} {ticks ticks' : List Tick}
    (h : Attempts cfg listen extra ticks ticks')
    {inp : Tick} (hbridge : (run cfg listen ticks).isBridgeMode = true) (hnone : inp.accept = none)
    (pending : Conn) :
    Attempts cfg listen (extra ++ [pending]) (ticks ++ [inp]) (ticks' ++ [inp.withAccept pending])

/-- Bridge mode is entered through the listener. -/
lemma listener_of_bridge (cfg : Config) (listen : Bool) (ticks : List Tick) :
    (run cfg listen ticks).session.mode = .bridge → (run cfg listen ticks).listener = true := by
  apply run_induction (P := fun t => t.session.mode = .bridge → t.listener = true) cfg listen
  · intro hmode
    cases hmode
  · intro t h
    exact h
  · intro t pending hlistener _ _
    exact hlistener
  · intro t inp pending _ hlistener _ _ _ _
    exact hlistener
  · intro inp t t' _ hstep h hmode
    cases hstep with
    | disconnect conn hsession hclient => cases hmode
    | _ => exact h hmode

lemma Attempts.alike {cfg : Config} {listen : Bool} {ticks ticks' : List Tick}
    (h : Attempts cfg listen extra ticks ticks') :
    Alike extra (run cfg listen ticks) (run cfg listen ticks') := by
  induction h with
  | nil => exact ⟨_, _, _, rfl, .nil⟩
  | @same extra ticks ticks' h inp ih =>
    have hinv := (inv_run cfg listen ticks).beginTick
    have hinv' := (inv_run cfg listen ticks').beginTick
    rw [run_concat, run_concat]
    exact (ih.beginTick.acceptPendingClient hinv hinv'.next inp).afterAccept
      (hinv.acceptPendingClient inp) inp
  | @extra extra ticks ticks' h inp hbridge hnone pending ih =>
    have hinv := (inv_run cfg listen ticks).beginTick
    have hinv' := (inv_run cfg listen ticks').beginTick
    have hmode : (run cfg listen ticks).session.mode = .bridge := of_decide_eq_true hbridge
    have hlistener := listener_of_bridge cfg listen ticks hmode
    have haccepted := ih.beginTick.turnAway hnone hlistener hinv'.next hmode pending
    rw [run_concat, run_concat, Texecom.loop, Texecom.loop, (pumps_withAccept _ _ _).1,
      (pumps_withAccept _ _ _).2.1, (pumps_withAccept _ _ _).2.2]
    exact haccepted.afterAccept (hinv.acceptPendingClient inp) inp

/-- Connection attempts while a client is connected cannot be noticed by that client, by the panel
or in the captures. The second trace is the first up to client ids, with the extra sockets closed in
the ticks they came in; so the same bytes go to the panel and to the client, the same reads are
made, and the sessions begin and end alike. In the state only client ids differ. -/
theorem second_client_unnoticed {cfg : Config} {listen : Bool} {extra : List Conn}
    {ticks ticks' : List Tick} (h : Attempts cfg listen extra ticks ticks') :
    let t := run cfg listen ticks
    let t' := run cfg listen ticks'
    t' = { t with
      nextClientId := t'.nextClientId
      activeClientId := t'.activeClientId
      session := ⟨t.session.mode, t'.session.active⟩
      io := t'.io } ∧
    Unnoticed extra t.io t'.io ∧ panelTx t'.io = panelTx t.io ∧ clientTx t'.io = clientTx t.io ∧
    readCalls t'.io = readCalls t.io ∧
    (transitions t'.io).map Prod.fst = (transitions t.io).map Prod.fst := by
  intro t t'
  obtain ⟨next, active, io, heq, hio⟩ : Alike extra t t' := h.alike
  rw [heq]
  refine ⟨rfl, hio, ?_, ?_, ?_, ?_⟩
  · exact hio.flatMap_eq (fun o => by cases o <;> rfl) fun _ => rfl
  · exact hio.flatMap_eq (fun o => by cases o <;> rfl) fun _ => rfl
  · exact hio.flatMap_eq (fun o => by cases o <;> rfl) fun _ => rfl
  · rw [transitions, transitions, List.map_flatMap, List.map_flatMap]
    exact hio.flatMap_eq (fun o => by cases o <;> rfl) fun _ => rfl

/-- A client is connected and another one knocks. -/
theorem second_client_unnoticed_knock :
    let connect : Tick := Tick.quiet.withAccept 1
    Unnoticed [2] (run ⟨true, none, .both, 8192⟩ true [connect, .quiet]).io
      (run ⟨true, none, .both, 8192⟩ true [connect, Tick.quiet.withAccept 2]).io := by
  intro connect
  have hbridge : (run ⟨true, none, .both, 8192⟩ true [connect]).isBridgeMode = true := by
    decide +kernel
  have hattempt : Attempts ⟨true, none, .both, 8192⟩ true [2] [connect, .quiet]
      [connect, Tick.quiet.withAccept 2] := (Attempts.nil.same connect).extra hbridge rfl 2
  exact (second_client_unnoticed hattempt).2.1

end Texecom
end TexecomBridge
