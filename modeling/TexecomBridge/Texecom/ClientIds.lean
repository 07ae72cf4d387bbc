import TexecomBridge.Texecom.Agreement

/-!
# Client ids

Each connection attempt uses up one id, whether the client is admitted or turned away. The counter
skips the id that is reserved for no client when it wraps, so ids come round again after 2 ^ 32 - 1
attempts and not before.
-/

namespace TexecomBridge

/-- How many ids there are, without the reserved one. -/
def kIds : ℕ := 2 ^ 32 - 1

/-- The id that the `n`-th attempt uses. -/
def attemptId (n : ℕ) : ClientId := UInt32.ofNat (n % kIds + 1)

/-- A connection was admitted or turned away. -/
def Obs.isAttempt : Obs → Bool
  | .accepted _ _ _ _ => true
  | .rejected _ => true
  | _ => false

def attempts (io : List Obs) : ℕ := io.countP Obs.isAttempt

/-- The ids of the admitted clients, each with the number of attempts before its own, where `n` were
made before the trace. -/
def admitted (n : ℕ) : List Obs → List (ℕ × ClientId)
  | [] => []
  | .accepted _ id _ _ :: io => (n, id) :: admitted (n + 1) io
  | .rejected _ :: io => admitted (n + 1) io
  | _ :: io => admitted n io

/-! ### The counter -/

lemma toNat_attemptId (n : ℕ) : (attemptId n).toNat = n % kIds + 1 := by
  have hlt : n % kIds < kIds := Nat.mod_lt _ (by decide)
  rw [attemptId, UInt32.toNat_ofNat']
  simp only [kIds] at hlt ⊢
  omega

lemma attemptId_ne (n : ℕ) : attemptId n ≠ kNoClient := by
  intro h
  have hnat := toNat_attemptId n
  rw [h] at hnat
  cases hnat

/-- The counter goes through the ids in turn. -/
lemma idAfter_attemptId (n : ℕ) : Texecom.idAfter (attemptId n) = attemptId (n + 1) := by
  have hn := toNat_attemptId n
  have hsucc := toNat_attemptId (n + 1)
  have hadd : (attemptId n + 1).toNat = ((attemptId n).toNat + 1) % 2 ^ 32 := UInt32.toNat_add _ 1
  apply UInt32.toNat_inj.mp
  unfold Texecom.idAfter
  split_ifs with hwrap
  · have hzero : (attemptId n + 1).toNat = 0 := congrArg UInt32.toNat hwrap
    rw [hsucc, show (1 : ClientId).toNat = 1 from rfl]
    simp only [kIds] at *
    omega
  · have hpos : (attemptId n + 1).toNat ≠ 0 := fun hzero => hwrap (UInt32.toNat_inj.mp hzero)
    simp only [kIds] at *
    omega

/-- Within a round, no id is used twice. -/
lemma attemptId_ne_of_lt {m n : ℕ} (hlt : m < n) (hround : n < m + kIds) :
    attemptId m ≠ attemptId n := by
  intro h
  have hnat := congrArg UInt32.toNat h
  rw [toNat_attemptId, toNat_attemptId] at hnat
  simp only [kIds] at *
  omega

/-! ### The trace -/

lemma attempts_append (io io' : List Obs) : attempts (io ++ io') = attempts io + attempts io' :=
  List.countP_append

lemma attempts_of_quiet {io : List Obs} (h : ∀ o ∈ io, o.isAttempt = false) : attempts io = 0 := by
  rw [attempts, List.countP_eq_zero]
  intro o ho
  rw [h o ho]
  exact Bool.false_ne_true

lemma admitted_append (n : ℕ) (io io' : List Obs) :
    admitted n (io ++ io') = admitted n io ++ admitted (n + attempts io) io' := by
  induction io generalizing n with
  | nil => rfl
  | cons o io ih =>
    have hcount : attempts (o :: io) = attempts [o] + attempts io := attempts_append [o] io
    rw [hcount]
    cases o with
    | accepted transition id conn drops =>
      rw [show attempts [.accepted transition id conn drops] = 1 from rfl, ← Nat.add_assoc]
      exact congrArg _ (ih (n + 1))
    | rejected conn =>
      rw [show attempts [.rejected conn] = 1 from rfl, ← Nat.add_assoc]
      exact ih (n + 1)
    | _ =>
      rw [← Nat.add_assoc]
      exact ih n

lemma admitted_of_quiet (n : ℕ) {io : List Obs} (h : ∀ o ∈ io, o.isAttempt = false) :
    admitted n io = [] := by
  induction io with
  | nil => rfl
  | cons o io ih =>
    obtain ⟨ho, hio⟩ := List.forall_mem_cons.mp h
    cases o with
    | accepted => cases ho
    | rejected => cases ho
    | _ => exact ih hio

/-- Later clients have more attempts before theirs. -/
lemma admitted_increasing (n : ℕ) (io : List Obs) :
    (∀ a ∈ admitted n io, n ≤ a.1) ∧ (admitted n io).Pairwise fun a b => a.1 < b.1 := by
  induction io generalizing n with
  | nil => exact ⟨by simp [admitted], .nil⟩
  | cons o io ih =>
    cases o with
    | accepted transition id conn drops =>
      obtain ⟨hle, hrest⟩ := ih (n + 1)
      refine ⟨?_, .cons (fun a ha => hle a ha) hrest⟩
      intro a ha
      rcases List.mem_cons.mp ha with rfl | ha
      · exact le_rfl
      · exact (Nat.le_succ n).trans (hle a ha)
    | rejected conn =>
      obtain ⟨hle, hrest⟩ := ih (n + 1)
      exact ⟨fun a ha => (Nat.le_succ n).trans (hle a ha), hrest⟩
    | _ => exact ih n

namespace Texecom

/-- The counter stands at the id of the next attempt, and each client got that of its own. -/
structure Counted (t : Texecom) : Prop where
  next : t.nextClientId = attemptId (attempts t.io)
  ids : ∀ a ∈ admitted 0 t.io, a.2 = attemptId a.1

variable {t t' : Texecom}

lemma Counted.of_quiet (h : t.Counted) {io : List Obs} (hio : t'.io = t.io ++ io)
    (hquiet : ∀ o ∈ io, o.isAttempt = false) (hnext : t'.nextClientId = t.nextClientId) :
    t'.Counted := by
  constructor
  · rw [hnext, h.next, hio, attempts_append, attempts_of_quiet hquiet, Nat.add_zero]
  · rw [hio, admitted_append, admitted_of_quiet _ hquiet, List.append_nil]
    exact h.ids

lemma Counted.turnAway (h : t.Counted) (pending : Conn) : (t.turnAway pending).Counted := by
  constructor
  · simp only [Texecom.turnAway, h.next, idAfter_attemptId, attempts_append]
    rfl
  · simp only [Texecom.turnAway, admitted_append]
    exact List.forall_mem_append.mpr ⟨h.ids, by simp [admitted]⟩

lemma Counted.enterBridge (h : t.Counted) (inp : Tick) (pending : Conn) :
    (t.enterBridge inp pending).Counted := by
  constructor
  · simp only [Texecom.enterBridge, h.next, idAfter_attemptId, attempts_append]
    rfl
  · simp only [Texecom.enterBridge, admitted_append, Nat.zero_add]
    refine List.forall_mem_append.mpr ⟨h.ids, ?_⟩
    exact List.forall_mem_singleton.mpr h.next

lemma Counted.pumpStep {inp : Tick} (h : t.Counted) (hstep : PumpStep inp t t') : t'.Counted := by
  cases hstep with
  | receiveFromUart => exact h.of_quiet rfl (by simp [Obs.isAttempt]) rfl
  | send conn hsession hclient =>
    refine h.of_quiet rfl (fun o ho => ?_) rfl
    obtain ⟨offered, answer, rfl⟩ := (sendLoop_spec inp conn 0 t.sendState).1 o ho
    rfl
  | read conn hsession hclient =>
    refine h.of_quiet rfl (fun o ho => ?_) rfl
    obtain ⟨want, answer, rfl⟩ := (readLoop_spec inp conn 0 t.tcpToUart t.capture).1 o ho
    rfl
  | disconnect conn hsession hclient => exact h.of_quiet rfl (by simp [Obs.isAttempt]) rfl
  | sendToUart =>
    refine h.of_quiet rfl (fun o ho => ?_) rfl
    obtain ⟨b, -, rfl⟩ := List.mem_map.mp ho
    rfl
  | captureLoop => exact h.of_quiet (List.append_nil _).symm (by simp) rfl

lemma counted_run (cfg : Config) (listen : Bool) (ticks : List Tick) :
    (run cfg listen ticks).Counted := by
  apply run_induction (P := Counted) cfg listen
  · exact ⟨rfl, by simp [Texecom.setup, constructed, admitted]⟩
  · exact fun t h => h.of_quiet rfl (by simp [Obs.isAttempt]) rfl
  · exact fun t pending _ h => h.turnAway pending
  · exact fun t inp pending _ _ _ _ h => h.enterBridge inp pending
  · exact fun inp t t' _ hstep h => h.pumpStep hstep

/-- The id of a client is given by how many connections were attempted before its own. It is never
the reserved one, and no client gets the id of an earlier one unless 2 ^ 32 - 1 attempts or more lie
between them. -/
theorem client_ids (cfg : Config) (listen : Bool) (ticks : List Tick) :
    let t := run cfg listen ticks
    t.nextClientId = attemptId (attempts t.io) ∧
    (∀ a ∈ admitted 0 t.io, a.2 = attemptId a.1 ∧ a.2 ≠ kNoClient) ∧
    (admitted 0 t.io).Pairwise fun a b => a.1 < b.1 ∧ (b.1 < a.1 + kIds → a.2 ≠ b.2) := by
  intro t
  have h : t.Counted := counted_run cfg listen ticks
  refine ⟨h.next, fun a ha => ?_, ?_⟩
  · rw [h.ids a ha]
    exact ⟨rfl, attemptId_ne _⟩
  · refine (admitted_increasing 0 t.io).2.imp_of_mem fun {a b} ha hb hlt => ⟨hlt, fun hround => ?_⟩
    rw [h.ids a ha, h.ids b hb]
    exact attemptId_ne_of_lt hlt hround

end Texecom
end TexecomBridge
