import TexecomBridge.Texecom.Agreement

/-!
# The panel-bound stream

What is read from clients is handed to the panel in order or is queued for it. The accept of a
client is the one place where queued bytes are lost.
-/

namespace TexecomBridge

namespace Texecom

/-- The bytes handed to the panel so far, then those queued for it. -/
def panelBound (t : Texecom) : List UInt8 := panelTx t.io ++ t.tcpToUart.toList

/-- The panel-bound stream is all that was read from clients, and every push succeeded. -/
def Conserved (t : Texecom) : Prop := t.panelBound = clientRx t.io ∧ refusals t.io = []

instance (t : Texecom) : Decidable t.Conserved := inferInstanceAs (Decidable (_ ∧ _))

/-- A tick that admits a client while bytes are queued for the panel. -/
def Discards (inp : Tick) (t : Texecom) : Prop :=
  t.listener = true ∧ inp.accept.isSome = true ∧ t.isBridgeMode = false ∧
    t.tcpToUart.empty = false

/-- From `t` to `t'` the panel-bound stream grows by what is read from clients. -/
def Carries (t t' : Texecom) : Prop :=
  ∃ rx, clientRx t'.io = clientRx t.io ++ rx ∧ t'.panelBound = t.panelBound ++ rx ∧
    refusals t'.io = refusals t.io

variable {t t' t'' : Texecom}

namespace Carries

lemma refl (t : Texecom) : t.Carries t := ⟨[], by simp, by simp, rfl⟩

lemma trans (h : t.Carries t') (h' : t'.Carries t'') : t.Carries t'' := by
  obtain ⟨rx, hrx, hbound, hrefused⟩ := h
  obtain ⟨rx', hrx', hbound', hrefused'⟩ := h'
  refine ⟨rx ++ rx', ?_, ?_, hrefused'.trans hrefused⟩
  · rw [hrx', hrx, List.append_assoc]
  · rw [hbound', hbound, List.append_assoc]

/-- Steps that neither read from a client nor touch the ring. -/
lemma of_quiet (hring : t'.tcpToUart = t.tcpToUart) {io : List Obs} (hio : t'.io = t.io ++ io)
    (hquiet : panelTx io = [] ∧ clientRx io = [] ∧ refusals io = []) : t.Carries t' := by
  obtain ⟨htx, hrx, hrefused⟩ := hquiet
  refine ⟨[], ?_, ?_, ?_⟩
  · rw [hio, clientRx_append, hrx]
  · rw [panelBound, panelBound, hio, hring, panelTx_append, htx, List.append_nil, List.append_nil]
  · rw [hio, refusals_append, hrefused, List.append_nil]

lemma conserved_iff (h : t.Carries t') : t'.Conserved ↔ t.Conserved := by
  obtain ⟨rx, hrx, hbound, hrefused⟩ := h
  rw [Conserved, Conserved, hrx, hbound, hrefused, List.append_left_inj]

end Carries

/-! ### The pumps -/

/-- No step of the pumps loses, repeats or reorders a panel-bound byte. -/
lemma carries_pumpStep {inp : Tick} (h : PumpStep inp t t') : t.Carries t' := by
  cases h with
  | receiveFromUart => exact .of_quiet rfl rfl ⟨rfl, rfl, rfl⟩
  | send conn hsession hclient =>
    obtain ⟨htx, hrx, hrefused, -⟩ := quiet_sendLoop inp conn 0 t.sendState
    exact .of_quiet rfl rfl ⟨htx, hrx, hrefused⟩
  | read conn hsession hclient =>
    obtain ⟨-, hring, -⟩ := readLoop_spec inp conn 0 t.tcpToUart t.capture
    obtain ⟨htx, hrefused, -⟩ := quiet_readLoop inp conn 0 t.tcpToUart t.capture
    refine ⟨clientRx (readLoop inp conn 0 t.tcpToUart t.capture).io, ?_, ?_, ?_⟩
    · rw [afterRead, clientRx_append]
    · rw [panelBound, panelBound, afterRead, panelTx_append, htx, List.append_nil, hring,
        List.append_assoc]
    · rw [afterRead, refusals_append, hrefused, List.append_nil]
  | disconnect conn hsession hclient => exact .of_quiet rfl rfl ⟨rfl, rfl, rfl⟩
  | sendToUart =>
    obtain ⟨hbytes, hempty⟩ := drainToUart_spec t.tcpToUart
    obtain ⟨htx, hrx, hrefused, -⟩ := quiet_uartTx (drainToUart t.tcpToUart).1
    refine ⟨[], ?_, ?_, ?_⟩
    · rw [sendToUart, clientRx_append, hrx]
    · rw [panelBound, panelBound, sendToUart, panelTx_append, htx, hbytes, hempty, List.append_nil]
    · rw [sendToUart, refusals_append, hrefused, List.append_nil]
  | captureLoop => exact .of_quiet rfl (List.append_nil _).symm ⟨rfl, rfl, rfl⟩

lemma carries_pumpSteps {inp : Tick} (h : PumpSteps inp t t') : t.Carries t' := by
  induction h with
  | refl => exact .refl t
  | tail _ hstep ih => exact ih.trans (carries_pumpStep hstep)

/-! ### The accept -/

/-- Admitting a client empties the ring. -/
lemma Conserved.enterBridge_iff (h : t.Conserved) (inp : Tick) (pending : Conn) :
    (t.enterBridge inp pending).Conserved ↔ t.tcpToUart.empty = true := by
  have hbound : (t.enterBridge inp pending).panelBound = panelTx t.io := by
    rw [panelBound, Texecom.enterBridge, panelTx_append, RingBuffer.toList_clear, List.append_nil]
    exact List.append_nil _
  have hrx : clientRx (t.enterBridge inp pending).io = clientRx t.io := by
    rw [Texecom.enterBridge, clientRx_append]
    exact List.append_nil _
  have hrefused : refusals (t.enterBridge inp pending).io = refusals t.io := by
    rw [Texecom.enterBridge, refusals_append]
    exact List.append_nil _
  rw [Conserved, hbound, hrx, hrefused, ← h.1, panelBound, RingBuffer.empty_eq_true_iff,
    ← Circular.toList_eq_nil_iff]
  constructor
  · rintro ⟨hall, -⟩
    exact List.self_eq_append_right.mp hall
  · intro hnil
    exact ⟨by rw [hnil, List.append_nil], h.2⟩

/-- A tick keeps the panel-bound stream whole unless it admits a client while bytes are queued. -/
lemma Inv.conserved_loop_iff {cc : Capture.Config} (h : t.Inv cc) (hc : t.Conserved) (inp : Tick) :
    (t.loop inp).Conserved ↔ ¬ t.Discards inp := by
  have hpumps := carries_pumpSteps (loop_steps (h.beginTick.acceptPendingClient inp))
  have hbegin : t.Carries t.beginTick := .of_quiet rfl rfl ⟨rfl, rfl, rfl⟩
  have hc' := hbegin.conserved_iff.mpr hc
  rw [hpumps.conserved_iff]
  rcases h.beginTick.acceptPendingClient_cases inp with
    ⟨hnone, heq⟩ | ⟨pending, hlistener, haccept, ⟨hmode, heq⟩ | ⟨hmode, heq⟩⟩
  · rw [heq]
    refine iff_of_true hc' ?_
    rintro ⟨hlistener, haccept, -⟩
    rcases hnone with hnone | hnone
    · exact Bool.false_ne_true (hnone.symm.trans hlistener)
    · rw [hnone] at haccept
      cases haccept
  · rw [heq]
    have hreject : t.beginTick.Carries (t.beginTick.turnAway pending) :=
      .of_quiet rfl rfl ⟨rfl, rfl, rfl⟩
    refine iff_of_true (hreject.conserved_iff.mpr hc') ?_
    rintro ⟨-, -, hmonitor, -⟩
    exact of_decide_eq_false hmonitor hmode
  · rw [heq, hc'.enterBridge_iff]
    constructor
    · rintro hempty ⟨-, -, -, hqueued⟩
      exact Bool.false_ne_true (hqueued.symm.trans hempty)
    · intro hkeeps
      by_contra hqueued
      refine hkeeps ⟨hlistener, ?_, decide_eq_false hmode, Bool.eq_false_iff.mpr hqueued⟩
      rw [haccept]
      rfl

/-! ### Runs -/

/-- Throughout a run the panel-bound stream is whole exactly when no tick of the run admits a client
while bytes are queued for the panel. -/
theorem conserved_iff_never_discards (cfg : Config) (listen : Bool) (ticks : List Tick) :
    (∀ ticks', ticks' <+: ticks → (run cfg listen ticks').Conserved) ↔
      ∀ ticks' inp, ticks' ++ [inp] <+: ticks → ¬ (run cfg listen ticks').Discards inp := by
  constructor
  · intro hconserved ticks' inp hpre
    have hbefore := hconserved ticks' ((List.prefix_append _ _).trans hpre)
    have hafter := hconserved _ hpre
    rw [run_concat] at hafter
    exact ((inv_run cfg listen ticks').conserved_loop_iff hbefore inp).mp hafter
  · intro hkeeps ticks'
    induction ticks' using List.reverseRecOn with
    | nil => exact fun _ => ⟨rfl, rfl⟩
    | append_singleton ticks' inp ih =>
      intro hpre
      have hbefore := ih ((List.prefix_append _ _).trans hpre)
      rw [run_concat]
      have hkeep := hkeeps ticks' inp hpre
      exact ((inv_run cfg listen ticks').conserved_loop_iff hbefore inp).mpr hkeep

/-- A client sends a byte and closes in the tick it is accepted in, and another one is accepted in
the next tick: the byte is never handed to the panel. -/
theorem not_conserved : ¬ ∀ (cfg : Config) (listen : Bool) (ticks : List Tick),
    (run cfg listen ticks).Conserved := by
  intro hconserved
  have hlast := hconserved ⟨true, none, .none, 8192⟩ true [.visit 1 0x41, .visit 2 0x42]
  revert hlast
  decide +kernel

end Texecom
end TexecomBridge
