import TexecomBridge.SessionState
import Mathlib.Data.List.Induction
import Mathlib.Tactic

/-!
# Who holds the session

The state machine is called from outside, in any order and with any ids. Its state is that of the
client that was let in last and has not left since, whatever the others did.
-/

namespace TexecomBridge
namespace SessionState

/-- The calls that can change the state. -/
inductive Call
  | onConnect (id : ClientId)
  | onDisconnect (id : ClientId)
  | reset
  deriving DecidableEq

def step (s : SessionState) : Call → SessionState
  | .onConnect id => (s.onConnect id).2
  | .onDisconnect id => (s.onDisconnect id).2
  | .reset => s.reset

/-- The state after a sequence of calls. -/
def after (calls : List Call) : SessionState := calls.foldl step init

/-- What would happen if a connection were accepted now. -/
def onAcceptWhileBusy (s : SessionState) : Transition :=
  if s.mode = .bridge then .rejected else .none

/-- The client was let in while nobody held the session, and has neither left nor been reset. -/
def LetIn (calls : List Call) (id : ClientId) : Prop :=
  id ≠ kNoClient ∧ ∃ before rest, calls = before ++ .onConnect id :: rest ∧
    (after before).isBridgeMode = false ∧ ∀ call ∈ rest, call ≠ .onDisconnect id ∧ call ≠ .reset

lemma after_concat (calls : List Call) (call : Call) :
    after (calls ++ [call]) = (after calls).step call := by
  simp [after]

/-! ### Who was let in -/

/-- A call keeps who was let in, or lets in a client of its own. -/
lemma letIn_concat (calls : List Call) (call : Call) (id : ClientId) :
    LetIn (calls ++ [call]) id ↔
      LetIn calls id ∧ call ≠ .onDisconnect id ∧ call ≠ .reset ∨
        id ≠ kNoClient ∧ call = .onConnect id ∧ (after calls).isBridgeMode = false := by
  constructor
  · rintro ⟨hid, before, rest, heq, hbefore, hrest⟩
    rcases rest.eq_nil_or_concat' with rfl | ⟨rest, last, rfl⟩
    · obtain ⟨rfl, hcall⟩ := List.append_inj' heq rfl
      exact Or.inr ⟨hid, (List.cons.inj hcall).1, hbefore⟩
    · rw [← List.cons_append, ← List.append_assoc] at heq
      obtain ⟨rfl, hcall⟩ := List.append_inj' heq rfl
      obtain rfl : call = last := (List.cons.inj hcall).1
      obtain ⟨hrest, hlast⟩ := List.forall_mem_append.mp hrest
      exact Or.inl ⟨⟨hid, before, rest, rfl, hbefore, hrest⟩, hlast call List.mem_cons_self⟩
  · rintro (⟨⟨hid, before, rest, rfl, hbefore, hrest⟩, hcall⟩ | ⟨hid, rfl, hmonitor⟩)
    · refine ⟨hid, before, rest ++ [call], by simp, hbefore, ?_⟩
      exact List.forall_mem_append.mpr ⟨hrest, List.forall_mem_singleton.mpr hcall⟩
    · exact ⟨hid, calls, [], rfl, hmonitor, by simp⟩

/-! ### One call -/

lemma step_init_onConnect {id : ClientId} (hid : id ≠ kNoClient) :
    init.step (.onConnect id) = ⟨.bridge, id⟩ := by
  simp [step, onConnect, init, hid]

lemma step_init {call : Call} (h : ∀ id, id ≠ kNoClient → call ≠ .onConnect id) :
    init.step call = init := by
  cases call with
  | onConnect id =>
    have hid : id = kNoClient := by
      by_contra hid
      exact h id hid rfl
    simp [step, onConnect, hid]
  | onDisconnect id => rfl
  | reset => rfl

/-- Whoever holds the session keeps it until it leaves, or until a reset. -/
lemma step_bridge {active : ClientId} {call : Call}
    (h : call ≠ .onDisconnect active ∧ call ≠ .reset) :
    step ⟨.bridge, active⟩ call = ⟨.bridge, active⟩ := by
  cases call with
  | onConnect id => by_cases hid : id = kNoClient <;> simp [step, onConnect, hid]
  | onDisconnect id =>
    have hid : id ≠ active := fun heq => h.1 (heq ▸ rfl)
    simp [step, onDisconnect, hid]
  | reset => exact absurd rfl h.2

lemma step_bridge_left {active : ClientId} {call : Call}
    (h : call = .onDisconnect active ∨ call = .reset) : step ⟨.bridge, active⟩ call = init := by
  rcases h with rfl | rfl
  · simp [step, onDisconnect, init]
  · rfl

/-! ### Any calls -/

/-- The state is the initial one, or somebody holds the session and was let in. -/
lemma init_or_letIn (calls : List Call) : (after calls = init ∧ ∀ id, ¬ LetIn calls id) ∨
    ∃ active, after calls = ⟨.bridge, active⟩ ∧ ∀ id, LetIn calls id ↔ id = active := by
  induction calls using List.reverseRecOn with
  | nil =>
    refine Or.inl ⟨rfl, ?_⟩
    rintro id ⟨-, before, rest, heq, -⟩
    simp at heq
  | append_singleton calls call ih =>
    simp only [after_concat, letIn_concat]
    rcases ih with ⟨hstate, hnobody⟩ | ⟨active, hstate, honly⟩
    · rw [hstate]
      by_cases hconnect : ∃ id, id ≠ kNoClient ∧ call = .onConnect id
      · obtain ⟨active, hactive, rfl⟩ := hconnect
        refine Or.inr ⟨active, step_init_onConnect hactive, fun id => ?_⟩
        simp only [hnobody, false_and, false_or, Call.onConnect.injEq]
        constructor
        · exact fun h => h.2.1.symm
        · rintro rfl
          exact ⟨hactive, rfl, rfl⟩
      · refine Or.inl ⟨step_init fun id hid hcall => hconnect ⟨id, hid, hcall⟩, ?_⟩
        rintro id (⟨hid, -⟩ | ⟨hid, hcall, -⟩)
        · exact hnobody id hid
        · exact hconnect ⟨id, hid, hcall⟩
    · have hbridge : isBridgeMode ⟨.bridge, active⟩ = true := rfl
      rw [hstate]
      simp only [honly, hbridge, Bool.true_eq_false, and_false, or_false]
      by_cases hleft : call = .onDisconnect active ∨ call = .reset
      · refine Or.inl ⟨step_bridge_left hleft, ?_⟩
        rintro id ⟨rfl, hstays⟩
        exact hleft.elim hstays.1 hstays.2
      · refine Or.inr ⟨active, step_bridge (not_or.mp hleft), fun id => ?_⟩
        constructor
        · exact fun h => h.1
        · rintro rfl
          exact ⟨rfl, not_or.mp hleft⟩

/-- After any calls, Bridge mode is on for exactly the client that was let in last, if it has
neither left nor been reset: no other client's calls, and no call for the reserved id, can take the
session from it. Otherwise the state is the initial one. -/
theorem held_iff_letIn (calls : List Call) :
    (∀ id, (after calls).isBridgeMode = true ∧ (after calls).activeClient = id ↔
      LetIn calls id) ∧
    ((after calls).isBridgeMode = false ↔ after calls = init) ∧
    ((after calls).onAcceptWhileBusy = .rejected ↔ ∃ id, LetIn calls id) := by
  rcases init_or_letIn calls with ⟨hstate, hnobody⟩ | ⟨active, hstate, honly⟩
  · rw [hstate]
    refine ⟨fun id => ?_, by decide, ?_⟩
    · exact iff_of_false (fun h => absurd h.1 (by decide)) (hnobody id)
    · exact iff_of_false (by decide) fun ⟨id, hid⟩ => hnobody id hid
  · rw [hstate]
    refine ⟨fun id => ?_, ?_, ?_⟩
    · rw [honly]
      simp [isBridgeMode, activeClient, eq_comm]
    · simp [isBridgeMode, init]
    · refine iff_of_true rfl ⟨active, ?_⟩
      exact (honly active).mpr rfl

end SessionState
end TexecomBridge
