import TexecomBridge.Texecom.PipeRefinement

/-!
# The shared line, whatever is called

Setup, ticks and shutdown may come in any order, also in the middle of a session. What the component
does at the two ends is what a line can do that is reset by each setup, so the streams of a client
and of the panel stay apart from those of other clients.
-/

namespace TexecomBridge

variable {interrupted : Bool}

namespace Texecom

variable {t : Texecom}

/-- A setup leaves nothing on its way and nobody served, but it does not close the socket. -/
lemma line_setup (t : Texecom) (listen : Bool) :
    (t.setup listen).line = ⟨none, [], [], t.clientSocket⟩ := by
  have hmode : (t.setup listen).isBridgeMode = false := isBridgeMode_of_init rfl
  have hleft : (t.setup listen).leftOver = t.clientSocket := by
    rw [leftOver, hmode, if_neg Bool.false_ne_true]
    rfl
  rw [line_of_not_served (served_of_monitor hmode), hleft, Texecom.setup, RingBuffer.toList_clear]

lemma line_setup_constructed (cfg : Config) (listen : Bool) :
    ((constructed cfg).setup listen).line = .vacant :=
  line_setup (constructed cfg) listen

/-- A shutdown closes the socket, also one that was left over. -/
lemma lineSteps_onShutdown (t : Texecom) : t.LineSteps t.onShutdown := by
  obtain ⟨io, hio, hsteps⟩ := lineSteps_closeClient t
  exact ⟨io, hio, hsteps⟩

end Texecom

namespace Device

/-- What a call of the framework is for the line: a setup resets it, and otherwise it is what the
component does during the call. -/
def happens (d : Device) (e : Lifecycle) : List (PipeEvent Conn UInt8) :=
  match e with
  | .setup _ _ => [.reset]
  | e => pipeEvents ((d.step e).texecom.io.drop d.texecom.io.length)

def lineEventsFrom (d : Device) : List Lifecycle → List (PipeEvent Conn UInt8)
  | [] => []
  | e :: events => d.happens e ++ (d.step e).lineEventsFrom events

/-- What has happened on the line since the first setup. -/
def lineEvents (cfg : Texecom.Config) (webServer listen : Bool) (events : List Lifecycle) :
    List (PipeEvent Conn UInt8) :=
  ((constructed cfg).setup webServer listen).lineEventsFrom events

lemma lineEventsFrom_concat (d : Device) (events : List Lifecycle) (e : Lifecycle) :
    d.lineEventsFrom (events ++ [e])
      = d.lineEventsFrom events ++ (events.foldl step d).happens e := by
  induction events generalizing d with
  | nil => exact List.append_nil _
  | cons e' events ih =>
    rw [List.cons_append, lineEventsFrom, ih, ← List.append_assoc]
    rfl

lemma steps_of_lineSteps {d : Device} {t : Texecom} (h : d.texecom.LineSteps t) :
    Steps Pipe.Step d.texecom.line (pipeEvents (t.io.drop d.texecom.io.length)) t.line := by
  obtain ⟨io, hio, hsteps⟩ := h
  rwa [hio, List.drop_left]

lemma steps_step {d : Device} (h : d.texecom.Upheld interrupted) (e : Lifecycle) :
    Steps Pipe.Step d.texecom.line (d.happens e) (d.step e).texecom.line := by
  cases e with
  | setup webServer listen =>
    rw [step, texecom_setup, Texecom.line_setup, ← Texecom.held_line d.texecom]
    exact steps_singleton.mpr (.reset _)
  | loop inp => exact steps_of_lineSteps (h.lineSteps_loop inp)
  | shutdown => exact steps_of_lineSteps (Texecom.lineSteps_onShutdown d.texecom)

lemma steps_run (cfg : Texecom.Config) (webServer listen : Bool) (events : List Lifecycle) :
    Steps Pipe.Step .vacant (lineEvents cfg webServer listen events)
      (run cfg webServer listen events).texecom.line := by
  induction events using List.reverseRecOn with
  | nil =>
    rw [run_nil, texecom_setup]
    exact (Texecom.line_setup_constructed cfg listen).symm
  | append_singleton events e ih =>
    rw [run_concat, lineEvents, lineEventsFrom_concat]
    exact steps_append.mpr ⟨_, ih, steps_step (upheld_run cfg webServer listen events) e⟩

/-- Whatever the framework calls, and in whatever order, since a client was last let in or the
component was last set up the panel was handed, in order and without a loss, what was read from that
client, up to what is still queued for it, and the client that is served was sent, in order, bytes
that were read from the panel. No other client was read from or written to. The one socket that is
open is that of the last client let in, unless it was closed since, and no other is ever closed but
those that are turned away, at once: a socket that a setup leaves over is closed by the shutdown, or
when the next client is let in. -/
theorem streams_balance (cfg : Texecom.Config) (webServer listen : Bool) (events : List Lifecycle) :
    let t := (run cfg webServer listen events).texecom
    let es := lineEvents cfg webServer listen events
    let usage := Pipe.usage es
    Steps Pipe.Step .vacant es t.line ∧
    usage.2.flatMap PipeEvent.reachedLine ++ t.tcpToUart.toList
      = usage.2.flatMap PipeEvent.sentByOwner ∧
    (∀ conn, t.served = some conn → usage.1 = some conn ∧
      (usage.2.flatMap PipeEvent.reachedOwner ++ t.sendState.pending).Sublist
        (usage.2.flatMap PipeEvent.sentByLine)) ∧
    (∀ e ∈ usage.2, e.client = none ∨ e.client = usage.1) ∧
    t.clientSocket = Pipe.heldAfter es ∧
    ∀ before conn after, es = before ++ .closed conn :: after →
      Pipe.heldAfter before = some conn := by
  intro t es usage
  have hsteps : Steps Pipe.Step .vacant es t.line := steps_run cfg webServer listen events
  obtain ⟨howner, hline, htoOwner, hclient⟩ := Pipe.balanced_of_steps hsteps
  refine ⟨hsteps, hline, fun conn hserved => ?_, hclient, ?_, ?_⟩
  · rw [Texecom.line_of_served hserved] at howner htoOwner
    refine ⟨?_, htoOwner⟩
    rcases howner with hnone | hsame
    · cases hnone
    · exact hsame.symm
  · exact (Texecom.held_line t).symm.trans (Pipe.held_eq hsteps)
  · intro before conn after hsplit
    rw [hsplit] at hsteps
    exact Pipe.allowed_of_steps hsteps

end Device
end TexecomBridge
