import TexecomBridge.Texecom.Calls
import TexecomBridge.Http.Basic

/-!
# The device

The component with the HTTP route it registers. `setup()`, ticks and `on_shutdown()` may come in any
order, also in one that leaves session, socket and capture in disagreement: the capture sink only
ever sees calls of its own, and at most one handler is registered.
-/

namespace TexecomBridge

/-- `gHandler` is the prefix of the handler that was registered, if one was, and `handlers` are the
prefixes of all handlers that were handed to the web server. A handler points to the component's
capture sink. -/
structure Device where
  texecom : Texecom
  gHandler : Option (List UInt8)
  handlers : List (List UInt8)

namespace Device

/-- `register_capture_http_handler()`. `webServer` says whether the web server is initialised. -/
def registerHandler (webServer : Bool) (urlPrefix : List UInt8) (d : Device) : Device :=
  if d.gHandler.isSome then d
  else if !webServer then d
  else
    { d with
      gHandler := some (canonicalPrefix urlPrefix)
      handlers := d.handlers ++ [canonicalPrefix urlPrefix] }

/-- What the framework calls. -/
inductive Lifecycle
  | setup (webServer listen : Bool)
  | loop (inp : Tick)
  | shutdown

def setup (webServer listen : Bool) (d : Device) : Device :=
  { d with texecom := d.texecom.setup listen }.registerHandler webServer (ascii "/captures")

def step (d : Device) : Lifecycle → Device
  | .setup webServer listen => d.setup webServer listen
  | .loop inp => { d with texecom := d.texecom.loop inp }
  | .shutdown => { d with texecom := d.texecom.onShutdown }

/-- The device as constructed. -/
def constructed (cfg : Texecom.Config) : Device := ⟨.constructed cfg, none, []⟩

/-- `setup()` and then any calls of the framework. -/
def run (cfg : Texecom.Config) (webServer listen : Bool) (events : List Lifecycle) : Device :=
  events.foldl step ((constructed cfg).setup webServer listen)

@[simp] lemma run_nil (cfg : Texecom.Config) (webServer listen : Bool) :
    run cfg webServer listen [] = (constructed cfg).setup webServer listen := rfl

@[simp] lemma run_concat (cfg : Texecom.Config) (webServer listen : Bool)
    (events : List Lifecycle) (e : Lifecycle) :
    run cfg webServer listen (events ++ [e]) = (run cfg webServer listen events).step e := by
  simp [run]

@[simp] lemma texecom_setup (webServer listen : Bool) (d : Device) :
    (d.setup webServer listen).texecom = d.texecom.setup listen := by
  unfold setup registerHandler
  split_ifs <;> rfl

/-! ### The handler -/

/-- The web server has no handler, or the one for `/captures`. -/
structure Registered (d : Device) (once : Bool) : Prop where
  handlers_eq : d.handlers = if once then [ascii "/captures"] else []
  gHandler_eq : d.gHandler = if once then some (ascii "/captures") else none

lemma Registered.setup {d : Device} {once : Bool} (h : d.Registered once)
    (webServer listen : Bool) : (d.setup webServer listen).Registered (once || webServer) := by
  obtain ⟨hhandlers, hhandler⟩ := h
  have hprefix : canonicalPrefix (ascii "/captures") = ascii "/captures" := by decide
  cases once with
  | true =>
    have hset : (d.setup webServer listen).gHandler = d.gHandler ∧
        (d.setup webServer listen).handlers = d.handlers := by
      simp [Device.setup, registerHandler, hhandler]
    exact ⟨hset.2.trans hhandlers, hset.1.trans hhandler⟩
  | false =>
    cases webServer with
    | true => constructor <;> simp [Device.setup, registerHandler, hhandler, hhandlers, hprefix]
    | false => constructor <;> simp [Device.setup, registerHandler, hhandler, hhandlers]

/-- The sink is as `ops` leave it, these are the calls in the trace, and the panel model is set. -/
structure Owns (cfg : Texecom.Config) (ops : List Capture.Op) (t : Texecom) : Prop where
  model_eq : t.model = some (cfg.model.getD panelModelPremier24)
  capture_eq : t.capture = Capture.run cfg.capture ops
  shown : Shown ops t.io

variable {cfg : Texecom.Config} {ops : List Capture.Op} {t : Texecom}

lemma owns_setup (cfg : Texecom.Config) (listen : Bool) :
    Owns cfg [] ((Texecom.constructed cfg).setup listen) := ⟨rfl, rfl, rfl⟩

/-- The sink has the name of the model already. -/
lemma Owns.setup (h : Owns cfg ops t) (listen : Bool) : Owns cfg ops (t.setup listen) := by
  have hname : t.capture.panelName = (cfg.model.getD panelModelPremier24).name := by
    rw [h.capture_eq]
    exact congrArg Capture.Config.panelName (Capture.config_run cfg.capture ops)
  refine ⟨?_, ?_, h.shown⟩
  · simp [Texecom.setup, h.model_eq]
  · rw [← h.capture_eq]
    simp [Texecom.setup, h.model_eq, Capture.setPanelName, ← hname]

lemma Owns.loop (h : Owns cfg ops t) (inp : Tick) :
    ∃ ops', Owns cfg (ops ++ ops') (t.loop inp) := by
  obtain ⟨hmodel, ops', io, hcapture, hio, hshown⟩ := Texecom.calls_loop inp t
  refine ⟨ops', hmodel.trans h.model_eq, ?_, hio ▸ h.shown.append hshown⟩
  rw [hcapture, h.capture_eq, Capture.run, ← List.foldl_append]
  rfl

lemma Owns.shutdown (h : Owns cfg ops t) : Owns cfg ops t.onShutdown := by
  have hquiet : t.closeClient.model = t.model ∧ t.closeClient.capture = t.capture ∧
      t.closeClient.io.flatMap Obs.calls = t.io.flatMap Obs.calls := by
    unfold Texecom.closeClient
    split <;> simp [Obs.calls]
  obtain ⟨hmodel, hcapture, hcalls⟩ := hquiet
  refine ⟨hmodel.trans h.model_eq, hcapture.trans h.capture_eq, ?_⟩
  rw [Shown, Texecom.onShutdown, hcalls]
  exact h.shown

lemma owns_run (cfg : Texecom.Config) (webServer listen : Bool) (events : List Lifecycle) :
    ∃ ops, Owns cfg ops (run cfg webServer listen events).texecom := by
  induction events using List.reverseRecOn with
  | nil =>
    rw [run_nil, texecom_setup]
    exact ⟨[], owns_setup cfg listen⟩
  | append_singleton events e ih =>
    obtain ⟨ops, h⟩ := ih
    rw [run_concat]
    cases e with
    | setup webServer' listen' =>
      rw [step, texecom_setup]
      exact ⟨ops, h.setup listen'⟩
    | loop inp =>
      obtain ⟨ops', h'⟩ := h.loop inp
      exact ⟨_, h'⟩
    | shutdown => exact ⟨ops, h.shutdown⟩

lemma owns_ticks (cfg : Texecom.Config) (listen : Bool) (ticks : List Tick) :
    ∃ ops, Owns cfg ops (Texecom.run cfg listen ticks) := by
  induction ticks using List.reverseRecOn with
  | nil => exact ⟨[], owns_setup cfg listen⟩
  | append_singleton ticks inp ih =>
    obtain ⟨ops, h⟩ := ih
    obtain ⟨ops', h'⟩ := h.loop inp
    rw [Texecom.run_concat]
    exact ⟨_, h'⟩

/-- A session is counted where it starts. -/
lemma length_foldl_sessionStep (ss : List Session) (io : List Obs) :
    (io.foldl sessionStep ss).length
      = ss.length + (io.flatMap Obs.calls).count .sessionStart := by
  induction io generalizing ss with
  | nil => rfl
  | cons o io ih =>
    have hstep : (sessionStep ss o).length = ss.length + o.calls.count .sessionStart := by
      cases o with
      | accepted => simp [sessionStep, Obs.calls]
      | ended transition => cases ss <;> cases transition <;> simp [sessionStep, Obs.calls]
      | uartRx batch reads =>
        by_cases hbatch : batch = [] <;> cases ss <;> simp [sessionStep, Obs.calls, hbatch]
      | read conn want answer =>
        cases ss <;> cases answer <;> simp [sessionStep, Obs.calls]
      | _ => cases ss <;> simp [sessionStep, Obs.calls]
    rw [List.foldl_cons, ih, hstep, List.flatMap_cons, List.count_append, Nat.add_assoc]

lemma Owns.sessions_eq (h : Owns cfg ops t) : Capture.sessions ops = (sessions t.io).length := by
  have hstarts : (ops.map Capture.Op.call).count .sessionStart = Capture.sessions ops := by
    rw [List.count, List.countP_map, Capture.sessions]
    refine List.countP_congr fun op _ => ?_
    cases op <;> simp [Capture.Op.call, Capture.Op.isStart]
  have hcount := congrArg (List.count .sessionStart) h.shown
  rw [sessions, length_foldl_sessionStep, ← hstarts]
  simpa using hcount

end Device
end TexecomBridge
