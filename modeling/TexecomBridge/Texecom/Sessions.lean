import TexecomBridge.Texecom.Agreement

/-!
# The sessions of a run

The trace's account of the sessions agrees with the state: the newest session is that of the
connected client, and all others have ended.
-/

namespace TexecomBridge
namespace Texecom

/-- What the drain loop does in this tick. -/
abbrev drained (inp : Tick) (t : Texecom) : Drained :=
  drainUart inp.uart kBatchSize [] t.uartToTcp t.uartToTcpDrops

/-- The session that goes on, if one does, and those that have ended, newest first. -/
inductive Roster (t : Texecom) : Option Session → List Session → Prop
  | monitor {past : List Session} (client : t.clientSocket = none)
    (sessions_eq : sessions t.io = past) (ended : ∀ s ∈ past, s.ended.isSome = true) : Roster t none past
  | bridge {s : Session} {past : List Session} (client : t.clientSocket = some s.conn)
    (active : s.id = t.activeClientId) (sessions_eq : sessions t.io = s :: past)
    (live : s.ended = none) (ended : ∀ s ∈ past, s.ended.isSome = true) : Roster t (some s) past

variable {t t' : Texecom} {s : Session} {live : Option Session} {past : List Session}

namespace Roster

lemma setup (cfg : Config) (listen : Bool) : ((constructed cfg).setup listen).Roster none [] :=
  .monitor rfl rfl (by simp)

/-- What is observed during a session is added to it. -/
lemma extend {io : List Obs} (h : t.Roster live past) (hclient : t'.clientSocket = t.clientSocket)
    (hactive : t'.activeClientId = t.activeClientId) (hio : t'.io = t.io ++ io)
    (hin : ∀ o ∈ io, o.inSession) : t'.Roster (live.map (·.extend io)) past := by
  cases h with
  | monitor client sessions_eq ended =>
    refine .monitor (hclient.trans client) ?_ ended
    rw [hio, sessions_append_ended (by rwa [sessions_eq]) hin, sessions_eq]
  | bridge client active sessions_eq live ended =>
    refine .bridge (hclient.trans client) (active.trans hactive.symm) ?_ live ended
    rw [hio, sessions_append_live sessions_eq live hin]

lemma beginTick (h : t.Roster live past) :
    t.beginTick.Roster (live.map (·.extend [.tick])) past :=
  h.extend rfl rfl rfl (by simp [Obs.inSession])

lemma turnAway (h : t.Roster live past) (pending : Conn) :
    (t.turnAway pending).Roster (live.map (·.extend [.rejected pending])) past :=
  h.extend rfl rfl rfl (by simp [Obs.inSession])

lemma enterBridge (h : t.Roster none past) (inp : Tick) (pending : Conn) :
    (t.enterBridge inp pending).Roster
      (some ⟨t.nextClientId, pending, ⟨t.uartToTcpDrops, t.capture.drops⟩, [], [], none⟩) past := by
  cases h with
  | monitor client sessions_eq ended =>
    refine .bridge rfl rfl ?_ rfl ended
    rw [Texecom.enterBridge, sessions_append_accepted, sessions_eq]

lemma receiveFromUart (h : t.Roster live past) (inp : Tick) : (t.receiveFromUart inp).Roster
    (live.map (·.extend [.uartRx (t.drained inp).batch (t.drained inp).reads])) past :=
  h.extend rfl rfl rfl (by simp [Obs.inSession])

lemma afterSend (h : t.Roster live past) (inp : Tick) (conn : Conn) :
    (t.afterSend (sendLoop inp conn 0 t.sendState)).Roster
      (live.map (·.extend (sendLoop inp conn 0 t.sendState).io)) past :=
  h.extend rfl rfl rfl (inSession_sendLoop inp conn 0 t.sendState)

lemma afterRead (h : t.Roster live past) (inp : Tick) (conn : Conn) :
    (t.afterRead (readLoop inp conn 0 t.tcpToUart t.capture)).Roster
      (live.map (·.extend (readLoop inp conn 0 t.tcpToUart t.capture).io)) past :=
  h.extend rfl rfl rfl (inSession_readLoop inp conn 0 t.tcpToUart t.capture)

lemma sendToUart (h : t.Roster live past) : t.sendToUart.Roster
    (live.map (·.extend ((drainToUart t.tcpToUart).1.map .uartTx))) past :=
  h.extend rfl rfl rfl (inSession_uartTx (drainToUart t.tcpToUart).1)

lemma captureLoop (h : t.Roster live past) (inp : Tick) :
    (t.captureLoop inp).Roster (live.map (·.extend [])) past :=
  h.extend rfl rfl (List.append_nil _).symm (by simp)

lemma disconnect (h : t.Roster (some s) past) (p : Platform) (conn : Conn) :
    (t.disconnect p conn).Roster none
      ({ s with ended := some ⟨t.uartToTcpDrops, (t.capture.onSessionEnd p).drops⟩ } :: past) := by
  cases h with
  | bridge client active sessions_eq live ended =>
    refine .monitor rfl ?_ ?_
    · rw [Texecom.disconnect, sessions_append_closed sessions_eq live]
    · intro s' hs'
      rcases List.mem_cons.mp hs' with rfl | hs'
      · rfl
      · exact ended s' hs'

lemma clientSocket_eq (h : t.Roster live past) : t.clientSocket = live.map (·.conn) := by
  cases h with
  | monitor client _ _ => exact client
  | bridge client _ _ _ _ => exact client

end Roster

end Texecom
end TexecomBridge
