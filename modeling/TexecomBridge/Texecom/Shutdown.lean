import TexecomBridge.Texecom.Agreement

/-!
# Shutdown and a second setup

`on_shutdown()` closes the sockets and leaves session, client id and capture alone; a second
`setup()` resets session and client id and leaves socket and capture alone. Both keep the agreement
exactly when no session is open.
-/

namespace TexecomBridge
namespace Texecom

/-- Close the client first, then the listener. -/
def onShutdown (t : Texecom) : Texecom := { t.closeClient with listener := false }

/-- Session, socket, client id and capture sink agree on whether a client is connected. -/
structure Agrees (t : Texecom) : Prop where
  client : t.isBridgeMode = true ↔ t.clientSocket.isSome = true
  active : t.isBridgeMode = true ↔ t.activeClientId ≠ kNoClient
  capture : t.isBridgeMode = true ↔ t.capture.sessionActive = true
  live : (∃ old q, t.capture.store.Live old q) ↔ t.isBridgeMode = true ∧ t.capture.mode.opens

/-- No part of the component is in a session, and all agree after any ticks that follow. -/
structure TornDown (t : Texecom) : Prop where
  mode : t.isBridgeMode = false
  client : t.clientSocket = none
  active : t.activeClientId = kNoClient
  capture : t.capture.sessionActive = false
  closed : t.capture.store.Closed
  later : ∀ ticks : List Tick, (ticks.foldl (fun t inp => t.loop inp) t).Agrees

variable {t : Texecom} {cc : Capture.Config}

lemma Inv.agrees (h : t.Inv cc) : t.Agrees := by
  obtain ⟨hclient, hactive, -, hcapture, -⟩ := h.agreement.records
  refine ⟨hclient, hactive, hcapture, ?_⟩
  rw [h.capture.live_iff.1]
  exact and_congr_left fun _ => hcapture.symm

lemma Inv.foldl_loop (h : t.Inv cc) (ticks : List Tick) :
    (ticks.foldl (fun t inp => t.loop inp) t).Inv cc := by
  induction ticks generalizing t with
  | nil => exact h
  | cons inp ticks ih => exact ih (h.loop inp)

/-- With the invariant, Monitor mode is enough. -/
lemma Inv.tornDown (h : t.Inv cc) (hmode : t.isBridgeMode = false) : t.TornDown := by
  have hnot : ¬ t.isBridgeMode = true := by simp [hmode]
  have hagrees := h.agrees
  refine ⟨hmode, ?_, ?_, ?_, ?_, fun ticks => (h.foldl_loop ticks).agrees⟩
  · simpa [hmode] using hagrees.client
  · simpa [hmode] using hagrees.active
  · simpa [hmode] using hagrees.capture
  · apply h.capture.live_iff.2.mpr
    rintro ⟨hactive, -⟩
    exact hnot (hagrees.capture.mpr hactive)

lemma Inv.clientSocket_of_monitor (h : t.Inv cc) (hmode : t.isBridgeMode = false) :
    t.clientSocket = none := by
  rcases h.client_cases with hclient | ⟨conn, -, -, hbridge⟩
  · exact hclient
  · rw [hmode] at hbridge
    cases hbridge

/-- Without a session, shutting down takes the listener only. -/
lemma Inv.onShutdown (h : t.Inv cc) (hmode : t.isBridgeMode = false) : t.onShutdown.Inv cc := by
  have hclient := h.clientSocket_of_monitor hmode
  have hclose : t.closeClient = t := by
    unfold closeClient
    rw [hclient]
  rw [Texecom.onShutdown, hclose]
  refine ⟨?_, h.next, ⟨h.bounded.stage_le, h.bounded.off_le⟩, h.capture, h.config⟩
  exact h.agreement.of_eq rfl rfl rfl rfl (fun _ => ⟨rfl, rfl⟩) rfl

/-- Without a session, and with the panel name the capture sink has already, a second setup keeps
the invariant. -/
lemma Inv.setup (h : t.Inv cc) (hmode : t.isBridgeMode = false)
    (hname : (t.model.getD panelModelPremier24).name = cc.panelName) (listen : Bool) :
    (t.setup listen).Inv cc := by
  have hcapture : (t.setup listen).capture = t.capture := by
    have hpanel : t.capture.panelName = cc.panelName := congrArg Capture.Config.panelName h.config
    simp only [Texecom.setup, Capture.setPanelName, hname, ← hpanel]
  refine ⟨?_, ?_, ⟨Nat.zero_le _, le_rfl⟩, hcapture ▸ h.capture, hcapture ▸ h.config⟩
  · cases h.agreement with
    | bridge conn session client active capture changes =>
      rw [h.clientSocket_of_monitor hmode] at client
      cases client
    | monitor session client active capture stage off changes =>
      exact .monitor rfl client rfl (hcapture ▸ capture) rfl rfl changes
  · exact show (1 : ClientId) ≠ kNoClient by decide

/-- No tick changes the panel model. -/
lemma model_run (cfg : Config) (listen : Bool) (ticks : List Tick) :
    (run cfg listen ticks).model = some (cfg.model.getD panelModelPremier24) := by
  refine run_induction (P := fun t => t.model = some (cfg.model.getD panelModelPremier24)) cfg
    listen rfl (fun t h => h) (fun t pending hlistener h => h) ?_ ?_ ticks
  · exact fun t inp pending hinv hlistener hclient hqueued h => h
  · intro inp t t' hinv hstep h
    cases hstep <;> exact h

lemma isBridgeMode_onShutdown (t : Texecom) : t.onShutdown.isBridgeMode = t.isBridgeMode := by
  unfold onShutdown closeClient
  split <;> rfl

lemma monitor_of_onShutdown (h : t.onShutdown.TornDown) : t.isBridgeMode = false := by
  rw [← isBridgeMode_onShutdown]
  exact h.mode

/-- A second setup does not touch the socket. -/
lemma Inv.monitor_of_setup (h : t.Inv cc) {listen : Bool} (hdown : (t.setup listen).TornDown) :
    t.isBridgeMode = false := by
  have hclient : t.clientSocket = none := hdown.client
  rw [← Bool.not_eq_true, h.agrees.client, hclient]
  exact Bool.false_ne_true

/-- In every reachable state, `on_shutdown()` and a second `setup()` leave everything torn down, now
and after any ticks that follow, exactly when no session is open. -/
theorem tornDown_iff (cfg : Config) (listen : Bool) (ticks : List Tick) :
    ((run cfg listen ticks).onShutdown.TornDown ↔ (run cfg listen ticks).isBridgeMode = false) ∧
    ∀ again, ((run cfg listen ticks).setup again).TornDown ↔
      (run cfg listen ticks).isBridgeMode = false := by
  have h := inv_run cfg listen ticks
  constructor
  · constructor
    · exact monitor_of_onShutdown
    · intro hmode
      apply (h.onShutdown hmode).tornDown
      rw [isBridgeMode_onShutdown, hmode]
  · intro again
    constructor
    · exact h.monitor_of_setup
    · intro hmode
      refine (h.setup hmode ?_ again).tornDown rfl
      rw [model_run]
      rfl

/-- A client connects and stays: neither entry point ends its session. -/
theorem not_tornDown :
    let t := run ⟨true, none, .bridgeOnly, 131072⟩ true [{ Tick.quiet with accept := some 0 }]
    ¬ t.onShutdown.TornDown ∧ ∀ again, ¬ (t.setup again).TornDown := by
  intro t
  have hinv : t.Inv _ := inv_run _ _ _
  have hmode : ¬ t.isBridgeMode = false := by decide +kernel
  exact ⟨fun h => hmode (monitor_of_onShutdown h), fun again h => hmode (hinv.monitor_of_setup h)⟩

end Texecom
end TexecomBridge
