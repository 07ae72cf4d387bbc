import Mathlib.Data.UInt

/-!
# The session state machine

Monitor: no TCP client is connected. Bridge: one client is connected and owns the UART. The first
client wins; a second connection attempt is rejected and changes nothing.
-/

namespace TexecomBridge

inductive SessionMode
  | monitor
  | bridge
  deriving DecidableEq

/-- What a transition method did. -/
inductive Transition
  | none
  | enteredBridge
  | enteredMonitor
  | rejected
  deriving DecidableEq

abbrev ClientId := UInt32

def kNoClient : ClientId := 0

structure SessionState where
  mode : SessionMode
  active : ClientId
  deriving DecidableEq

namespace SessionState

def init : SessionState := ⟨.monitor, kNoClient⟩

def isBridgeMode (s : SessionState) : Bool := s.mode = .bridge

def activeClient (s : SessionState) : ClientId := s.active

/-- A new connection was accepted. -/
def onConnect (s : SessionState) (id : ClientId) : Transition × SessionState :=
  if id = kNoClient then (.none, s)
  else if s.mode = .bridge then (.rejected, s)
  else (.enteredBridge, ⟨.bridge, id⟩)

/-- A client disconnected: only the active one counts. -/
def onDisconnect (s : SessionState) (id : ClientId) : Transition × SessionState :=
  if s.mode ≠ .bridge then (.none, s)
  else if id ≠ s.active then (.none, s)
  else (.enteredMonitor, ⟨.monitor, kNoClient⟩)

def reset (_ : SessionState) : SessionState := init

lemma onConnect_bridge {s : SessionState} {id : ClientId} (hid : id ≠ kNoClient)
    (h : s.mode = .bridge) : s.onConnect id = (.rejected, s) := by
  simp [onConnect, hid, h]

lemma onConnect_monitor {s : SessionState} {id : ClientId} (hid : id ≠ kNoClient)
    (h : s.mode ≠ .bridge) : s.onConnect id = (.enteredBridge, ⟨.bridge, id⟩) := by
  simp [onConnect, hid, h]

lemma onDisconnect_active {s : SessionState} (h : s.mode = .bridge) :
    s.onDisconnect s.active = (.enteredMonitor, init) := by
  simp [onDisconnect, h, init]

end SessionState
end TexecomBridge
