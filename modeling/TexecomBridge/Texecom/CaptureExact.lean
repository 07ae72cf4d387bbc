import TexecomBridge.Texecom.Fidelity
import TexecomBridge.Library.Lists

/-!
# Which batches are kept

The event ring is empty at the start of every tick and flushed at its end, so of the batches of a
tick the capture keeps as many as the ring holds, and these are the first.
-/

namespace TexecomBridge

/-- What is kept of a trace: how many more batches the tick has room for, whether a session goes on,
and what each session keeps, newest first. -/
structure Keeper where
  room : ℕ
  live : Bool
  kept : List (List (UInt8 × List UInt8))

/-- One observation's effect. Each tick has room for as many batches as the event ring. -/
def keepStep (k : Keeper) : Obs → Keeper
  | .tick => { k with room := kCaptureRingEvents }
  | .accepted _ _ _ _ => { k with live := true, kept := [] :: k.kept }
  | .ended _ _ _ => { k with live := false }
  | o =>
    if k.live then
      { k with
        room := k.room - o.batches.length
        kept := k.kept.modifyHead (· ++ o.batches.take k.room) }
    else k

def keep (io : List Obs) : Keeper := io.foldl keepStep ⟨0, false, []⟩

/-- Neither a tick nor a session begins or ends with this observation. -/
def Obs.plain (o : Obs) : Prop := o.inSession ∧ o ≠ .tick

lemma keep_append (io io' : List Obs) : keep (io ++ io') = io'.foldl keepStep (keep io) :=
  List.foldl_append

lemma keepStep_plain {o : Obs} (ho : o.plain) (k : Keeper) : keepStep k o =
    if k.live then
      { k with
        room := k.room - o.batches.length
        kept := k.kept.modifyHead (· ++ o.batches.take k.room) }
    else k := by
  cases o with
  | tick => exact absurd rfl ho.2
  | accepted => exact ho.1.elim
  | ended => exact ho.1.elim
  | _ => rfl

/-- Outside of sessions nothing is kept. -/
lemma foldl_keepStep_of_not_live {k : Keeper} (hlive : k.live = false) {io : List Obs}
    (hio : ∀ o ∈ io, o.plain) : io.foldl keepStep k = k := by
  induction io with
  | nil => rfl
  | cons o io ih =>
    obtain ⟨ho, hio⟩ := List.forall_mem_cons.mp hio
    rw [List.foldl_cons, keepStep_plain ho, hlive, if_neg Bool.false_ne_true]
    exact ih hio

/-- During a session, the first batches are kept. -/
lemma foldl_keepStep_of_live {k : Keeper} (hlive : k.live = true)
    {bs : List (UInt8 × List UInt8)} {older : List (List (UInt8 × List UInt8))}
    (hkept : k.kept = bs :: older) {io : List Obs} (hio : ∀ o ∈ io, o.plain) :
    io.foldl keepStep k
      = ⟨k.room - (batches io).length, true, (bs ++ (batches io).take k.room) :: older⟩ := by
  induction io generalizing k bs with
  | nil =>
    obtain ⟨room, live, kept⟩ := k
    obtain rfl : live = true := hlive
    obtain rfl : kept = bs :: older := hkept
    simp [batches]
  | cons o io ih =>
    obtain ⟨ho, hio⟩ := List.forall_mem_cons.mp hio
    have hsplit : batches (o :: io) = o.batches ++ batches io := List.flatMap_cons
    have hkept' : k.kept.modifyHead (· ++ o.batches.take k.room)
        = (bs ++ o.batches.take k.room) :: older := by
      rw [hkept]
      rfl
    rw [List.foldl_cons, keepStep_plain ho, hlive, if_pos rfl, ih rfl hkept' hio, hsplit]
    simp only [List.length_append, List.take_append, List.append_assoc, Nat.sub_sub]

/-- Everything that is read during a session is kept, and the session that goes on is the newest. -/
structure Whole (io : List Obs) : Prop where
  kept_eq : (keep io).kept = (sessions io).map Session.batches
  live_eq : (keep io).live = (sessions io).head?.any fun s => s.ended.isNone

lemma keep_concat (io : List Obs) (o : Obs) : keep (io ++ [o]) = keepStep (keep io) o :=
  keep_append io [o]

lemma sessions_concat (io : List Obs) (o : Obs) :
    sessions (io ++ [o]) = sessionStep (sessions io) o :=
  sessions_append io [o]

/-- There is one entry for each session. -/
lemma length_kept (io : List Obs) : (keep io).kept.length = (sessions io).length := by
  induction io using List.reverseRecOn with
  | nil => rfl
  | append_singleton io o ih =>
    rw [keep_concat, sessions_concat]
    cases hss : sessions io with
    | nil =>
      rw [hss, List.length_nil, List.length_eq_zero_iff] at ih
      cases o <;> simp [keepStep, sessionStep, ih] <;> split_ifs <;> simp [ih]
    | cons s past =>
      rw [hss] at ih
      cases o <;> simp [keepStep, sessionStep, ih] <;> split_ifs <;> simp [ih]

/-- Between its first and last observation, a session that goes on takes in what is observed. -/
lemma sessionStep_plain {o : Obs} (ho : o.inSession) (ss : List Session) :
    sessionStep ss o = ss.modifyHead fun s => if s.ended.isNone then s.extend [o] else s := by
  cases ss with
  | nil =>
    cases o with
    | accepted => exact ho.elim
    | _ => rfl
  | cons s past =>
    cases o with
    | accepted => exact ho.elim
    | ended => exact ho.elim
    | _ => rfl

/-- A batch that the tick has room for is kept. -/
lemma Whole.plain {io : List Obs} (h : Whole io) {o : Obs} (ho : o.plain)
    (hroom : o.batches.length ≤ (keep io).room) : Whole (io ++ [o]) := by
  obtain ⟨hkept, hlive⟩ := h
  have hstep : sessions (io ++ [o]) = _ := (sessions_concat io o).trans (sessionStep_plain ho.1 _)
  have hkeep : keep (io ++ [o]) = _ := (keep_concat io o).trans (keepStep_plain ho _)
  cases hss : sessions io with
  | nil =>
    rw [hss] at hkept hlive hstep
    have hidle : (keep io).live = false := hlive
    rw [hidle, if_neg Bool.false_ne_true] at hkeep
    exact ⟨by rw [hkeep, hstep, hkept]; rfl, by rw [hkeep, hstep, hidle]; rfl⟩
  | cons s past =>
    rw [hss] at hkept hlive hstep
    have hlive' : (keep io).live = s.ended.isNone := hlive
    rw [List.modifyHead_cons] at hstep
    cases hs : s.ended.isNone with
    | false =>
      rw [hs] at hlive' hstep
      rw [hlive', if_neg Bool.false_ne_true] at hkeep
      rw [if_neg Bool.false_ne_true] at hstep
      exact ⟨by rw [hkeep, hstep, hkept], by rw [hkeep, hstep, hlive', ← hs]; rfl⟩
    | true =>
      rw [hs] at hlive' hstep
      rw [hlive', if_pos rfl] at hkeep
      rw [if_pos rfl] at hstep
      constructor
      · rw [hkeep, hstep, hkept]
        simp [Session.extend, batches, List.take_of_length_le hroom]
      · rw [hkeep, hstep]
        exact hs.symm

/-- The start of a tick, and the first and last observation of a session. -/
lemma Whole.mark {io : List Obs} (h : Whole io) {o : Obs} (ho : ¬ o.plain) : Whole (io ++ [o]) := by
  obtain ⟨hkept, hlive⟩ := h
  cases o with
  | accepted transition id conn drops =>
    constructor
    · rw [keep_concat, sessions_concat, sessionStep, keepStep, hkept]
      rfl
    · rw [keep_concat, sessions_concat, sessionStep, keepStep]
      rfl
  | tick =>
    have hkeep : keep (io ++ [.tick]) = { keep io with room := kCaptureRingEvents } :=
      keep_concat io .tick
    have hin : Obs.tick.inSession := trivial
    have hstep := (sessions_concat io .tick).trans (sessionStep_plain hin _)
    cases hss : sessions io with
    | nil =>
      rw [hss] at hstep hkept hlive
      exact ⟨by rw [hkeep, hstep]; exact hkept, by rw [hkeep, hstep]; exact hlive⟩
    | cons s past =>
      rw [hss] at hstep hkept hlive
      have hsame : (if s.ended.isNone then s.extend [.tick] else s).batches = s.batches ∧
          (if s.ended.isNone then s.extend [.tick] else s).ended = s.ended := by
        split_ifs
        · exact ⟨List.append_nil _, rfl⟩
        · exact ⟨rfl, rfl⟩
      rw [List.modifyHead_cons] at hstep
      constructor
      · rw [hkeep, hstep, List.map_cons, hsame.1]
        exact hkept
      · rw [hkeep, hstep, List.head?_cons, Option.any_some, hsame.2]
        exact hlive
  | ended transition id drops =>
    have hkeep : keep (io ++ [.ended transition id drops]) = { keep io with live := false } :=
      keep_concat io _
    have hstep := sessions_concat io (.ended transition id drops)
    cases hss : sessions io with
    | nil =>
      rw [hss] at hstep hkept
      exact ⟨by rw [hkeep, hstep]; exact hkept, by rw [hkeep, hstep]; rfl⟩
    | cons s past =>
      rw [hss] at hstep hkept
      have hended :
          (if s.ended.isNone then { s with ended := some drops } else s).batches = s.batches ∧
          (if s.ended.isNone then { s with ended := some drops } else s).ended.isNone = false := by
        cases hs : s.ended <;> simp [hs]
      rw [sessionStep] at hstep
      constructor
      · rw [hkeep, hstep, List.map_cons, hended.1]
        exact hkept
      · rw [hkeep, hstep]
        exact hended.2.symm
  | _ => exact absurd ⟨trivial, by simp⟩ ho

/-- An observation uses up the room for its batches at most. -/
lemma room_concat (io : List Obs) {o : Obs} (ho : o ≠ .tick) :
    (keep io).room - o.batches.length ≤ (keep (io ++ [o])).room := by
  rw [keep_concat]
  by_cases hplain : o.plain
  · rw [keepStep_plain hplain]
    split_ifs
    · exact le_rfl
    · exact Nat.sub_le _ _
  · cases o with
    | tick => exact absurd rfl ho
    | accepted => exact le_rfl
    | ended => exact le_rfl
    | _ => exact absurd ⟨trivial, by simp⟩ hplain

/-- The rest of a tick that has room for all its batches. -/
lemma Whole.append {io rest : List Obs} (h : Whole io) (hrest : Obs.tick ∉ rest)
    (hroom : (batches rest).length ≤ (keep io).room) : Whole (io ++ rest) := by
  induction rest generalizing io with
  | nil => rwa [List.append_nil]
  | cons o rest ih =>
    obtain ⟨ho, hrest⟩ := not_or.mp (List.mem_cons.not.mp hrest)
    have hsplit : batches (o :: rest) = o.batches ++ batches rest := List.flatMap_cons
    have hleft := room_concat io (Ne.symm ho)
    rw [hsplit, List.length_append] at hroom
    have hfirst : Whole (io ++ [o]) := by
      by_cases hplain : o.plain
      · exact h.plain hplain (by omega)
      · exact h.mark hplain
    rw [List.append_cons]
    exact ih hfirst hrest (by omega)

/-! ### The event ring -/

namespace Capture

/-- What is queued of the batches: the first, as many as there is room for. -/
def QueuesFirst (c : Capture) (bs : List (UInt8 × List UInt8)) (c' : Capture) : Prop :=
  c'.queued = c.queued ++ bs.take (kCaptureRingEvents - c.queued.length)

lemma length_queued (c : Capture) : c.queued.length = c.ring.size := by
  rw [queued, List.length_map, EventRing.length_events]

lemma QueuesFirst.trans {c c' c'' : Capture} {bs bs' : List (UInt8 × List UInt8)}
    (h : c.QueuesFirst bs c') (h' : c'.QueuesFirst bs' c'') : c.QueuesFirst (bs ++ bs') c'' := by
  have hroom : kCaptureRingEvents - c'.queued.length
      = kCaptureRingEvents - c.queued.length - bs.length := by
    rw [h, List.length_append, List.length_take]
    omega
  rw [QueuesFirst, h', hroom, h, List.append_assoc, List.take_append]

end Capture

lemma recordIfWanted_queuesFirst {c : Capture} (hc : c.Recording) (p : Platform)
    {direction : UInt8} {bytes : List UInt8} (hb : Recordable direction bytes) :
    c.QueuesFirst [(direction, bytes)] (recordIfWanted p direction bytes c) := by
  obtain ⟨hmode, hactive⟩ := hc
  have hrec : recordIfWanted p direction bytes c = c.enqueueEvent p direction bytes := by
    rw [recordIfWanted, if_pos (Capture.wouldRecord_of_opens hmode hactive),
      Capture.record_of_opens p hmode hactive hb.direction_le hb.ne_nil]
  have hevents := Capture.events_enqueueEvent p direction bytes c
  rw [Capture.chunkEvents_singleton p c.sessionStartUs direction hb.ne_nil hb.length_le 0]
    at hevents
  rw [hrec, Capture.QueuesFirst, Capture.length_queued, Capture.queued, hevents, List.map_append,
    List.map_take]
  rfl

lemma readLoop_queuesFirst (inp : Tick) (conn : Conn) (k : ℕ) (ring : RingBuffer UInt8 kBufferSize)
    {capture : Capture} (hc : capture.Recording) :
    capture.QueuesFirst (batches (readLoop inp conn k ring capture).io)
      (readLoop inp conn k ring capture).capture := by
  induction k, ring, capture using readLoop_induction inp conn with
  | full k ring capture hfull =>
    rw [readLoop_of_full hfull]
    simp [Capture.QueuesFirst, batches]
  | no_data k ring capture hfull hdata =>
    rw [readLoop_of_no_data hfull hdata, (quiet_read hdata conn).2]
    simp [Capture.QueuesFirst]
  | data k ring capture bytes hfull hanswer ih =>
    obtain ⟨hfit, hbytes⟩ := read_fits hanswer
    have hfirst := recordIfWanted_queuesFirst hc (inp.atRead k) hbytes
    have hrest := ih ((recordIfWanted_queues (inp.atRead k) 1 bytes capture).recording hc)
    rw [readLoop_of_data hfull hanswer, (pushAll_spec hfit).2]
    exact hfirst.trans hrest

/-! ### The component -/

/-- A capture's events are the batches `bs`. -/
def CapturePair.Keeps (cc : Capture.Config) (q : CapturePair) (bs : List (UInt8 × List UInt8)) :
    Prop :=
  ∃ es, q.Holds cc es ∧ es.map Event.key = bs

namespace Texecom

/-- Each capture holds what is kept of its session, with what is still queued. While the session
goes on the ring has as much room as the tick has left. -/
inductive Kept (cc : Capture.Config) (t : Texecom) : Prop
  | monitor (client : t.clientSocket = none) (live : (keep t.io).live = false)
    (filed : List.Forall₂ (CapturePair.Keeps cc) (archive t.capture.history) (keep t.io).kept)
  | bridge (client : t.clientSocket.isSome = true) (live : (keep t.io).live = true)
    (q : CapturePair) (archived : List CapturePair) (es : List Event)
    (older : List (List (UInt8 × List UInt8)))
    (archive_eq : archive t.capture.history = q :: archived)
    (holds : q.Holds cc es)
    (kept : (keep t.io).kept = (es.map Event.key ++ t.capture.queued) :: older)
    (room : (keep t.io).room = kCaptureRingEvents - t.capture.queued.length)
    (filed : List.Forall₂ (CapturePair.Keeps cc) archived older)

variable {cc : Capture.Config} {t t' : Texecom}

namespace Kept

/-- Steps that offer each batch they read to the capture sink. -/
lemma of_queuesFirst (h : t.Kept cc) {io : List Obs} (hio : t'.io = t.io ++ io)
    (hplain : ∀ o ∈ io, o.plain) (hclient : t'.clientSocket = t.clientSocket)
    (hqueues : t.capture.Queues t'.capture)
    (hfirst : t.clientSocket.isSome = true → t.capture.QueuesFirst (batches io) t'.capture) :
    t'.Kept cc := by
  have hhistory : t'.capture.history = t.capture.history := by
    obtain ⟨_, _, _, hframe⟩ := hqueues
    rw [hframe]
  cases h with
  | monitor client live filed =>
    have hkeep : keep t'.io = keep t.io := by
      rw [hio, keep_append, foldl_keepStep_of_not_live live hplain]
    refine .monitor (hclient.trans client) (by rwa [hkeep]) ?_
    rwa [hkeep, hhistory]
  | bridge client live q archived es older archive_eq holds kept room filed =>
    have hqueued := hfirst client
    have hkeep := foldl_keepStep_of_live live kept hplain
    rw [← keep_append, ← hio] at hkeep
    refine .bridge (by rwa [hclient]) (by rw [hkeep]) q archived es older (by rwa [hhistory]) holds
      ?_ ?_ filed
    · rw [hkeep, hqueued, ← room, List.append_assoc]
    · rw [hkeep, hqueued, room, List.length_append, List.length_take]
      simp only
      omega

/-- A session starts with nothing kept. -/
lemma enterBridge (h : t.Kept cc) (hinv : t.Inv cc) (hmode : cc.mode.opens)
    (hclient : t.clientSocket = none) (hqueued : t.capture.queued = [])
    (hroom : (keep t.io).room = kCaptureRingEvents) (inp : Tick) (pending : Conn) :
    (t.enterBridge inp pending).Kept cc := by
  have hopens : t.capture.mode.opens := by
    rw [← hinv.config] at hmode
    exact hmode
  cases h with
  | bridge client live q archived es older archive_eq holds kept room filed =>
    rw [hclient] at client
    cases client
  | monitor client live filed =>
    obtain ⟨q, harchive, hq⟩ := Capture.archive_onSessionStart hopens inp.atAccept
    obtain ⟨_, _, _, _, hframe⟩ := Capture.onSessionStart_frame inp.atAccept t.capture
    have hqueued' : (t.enterBridge inp pending).capture.queued = [] := by
      rw [Texecom.enterBridge, hframe]
      exact hqueued
    have hkeep : keep (t.enterBridge inp pending).io
        = { keep t.io with live := true, kept := [] :: (keep t.io).kept } := keep_append _ _
    rw [hinv.config] at hq
    refine .bridge rfl (by rw [hkeep]) q _ [] (keep t.io).kept harchive hq ?_ ?_ filed
    · rw [hkeep, hqueued']
      rfl
    · rw [hkeep, hqueued']
      exact hroom

/-- What is queued when a session ends goes to its capture. -/
lemma disconnect (h : t.Kept cc) (hinv : t.Inv cc) (hmode : cc.mode.opens) {conn : Conn}
    (hclient : t.clientSocket = some conn) (p : Platform) : (t.disconnect p conn).Kept cc := by
  cases h with
  | monitor client live filed =>
    rw [hclient] at client
    cases client
  | bridge client live q archived es older archive_eq holds kept room filed =>
    obtain ⟨-, hlive⟩ := hinv.recording hmode hclient
    obtain ⟨-, harchive⟩ := hinv.capture.flushRing_of_isLive hlive p archive_eq
    have hplain : (Obs.closed conn).plain := ⟨trivial, by simp⟩
    have hclosed : (keepStep (keep t.io) (.closed conn)).kept = (keep t.io).kept := by
      rw [keepStep_plain hplain, live, if_pos rfl, kept]
      simp [Obs.batches]
    have hkeep : keep (t.disconnect p conn).io
        = { keepStep (keep t.io) (.closed conn) with live := false } := keep_append _ _
    refine .monitor rfl (by rw [hkeep]) ?_
    rw [hkeep]
    simp only
    rw [hclosed, kept, Texecom.disconnect, Capture.history_onSessionEnd, harchive]
    exact .cons ⟨_, holds.extendEvents hinv.capture.queued p.millis, List.map_append⟩ filed

/-- The flush at the end of a tick, with the start of the next. -/
lemma captureLoop (h : t.Kept cc) (hinv : t.Inv cc) (hmode : cc.mode.opens) (inp : Tick) :
    (t.captureLoop inp).beginTick.Kept cc := by
  have hkeep : keep (t.captureLoop inp).beginTick.io
      = { keep t.io with room := kCaptureRingEvents } := keep_append _ _
  cases h with
  | monitor client live filed =>
    obtain ⟨_, -, hflush⟩ :=
      hinv.capture.flushRing_of_not_isLive (hinv.not_isLive client) inp.atLoop
    refine .monitor client (by rwa [hkeep]) ?_
    rw [hkeep, beginTick, captureLoop_eq, hflush]
    exact filed
  | bridge client live q archived es older archive_eq holds kept room filed =>
    obtain ⟨conn, hconn⟩ := Option.isSome_iff_exists.mp client
    obtain ⟨-, hlive⟩ := hinv.recording hmode hconn
    obtain ⟨-, harchive⟩ := hinv.capture.flushRing_of_isLive hlive inp.atLoop archive_eq
    obtain ⟨_, _, _, _, _, r, hr, hframe⟩ := hinv.capture.flushRing_frame inp.atLoop
    have hqueued : (t.captureLoop inp).beginTick.capture.queued = [] := by
      rw [beginTick, captureLoop_eq, hframe, Capture.queued, hr]
      rfl
    refine .bridge client (by rwa [hkeep]) _ archived _ older ?_
      (holds.extendEvents hinv.capture.queued inp.atLoop.millis) ?_ ?_ filed
    · rw [beginTick, captureLoop_eq, harchive]
    · rw [hkeep, hqueued, List.append_nil, List.map_append]
      exact kept
    · rw [hkeep, hqueued]
      rfl

lemma receiveFromUart (h : t.Kept cc) (hinv : t.Inv cc) (hmode : cc.mode.opens) (inp : Tick) :
    (t.receiveFromUart inp).Kept cc := by
  have hplain : ∀ o ∈ [Obs.uartRx (t.drained inp).batch (t.drained inp).reads], o.plain := by
    intro o ho
    rw [List.mem_singleton.mp ho]
    exact ⟨trivial, by simp⟩
  obtain ⟨new, d, hbatch, hlength, -⟩ :=
    drainUart_spec inp.uart kBatchSize [] t.uartToTcp t.uartToTcpDrops
  rw [List.nil_append] at hbatch
  by_cases hnew : (t.drained inp).batch = []
  · have hcapture : (t.receiveFromUart inp).capture = t.capture := if_neg (not_not.mpr hnew)
    refine h.of_queuesFirst rfl hplain rfl ?_ ?_
    · rw [hcapture]
      exact .refl _
    · intro _
      rw [hcapture]
      simp [Capture.QueuesFirst, batches, Obs.batches, hnew]
  · have hrecordable : Recordable 0 (t.drained inp).batch := by
      refine ⟨by decide, hnew, ?_⟩
      rw [drained, hbatch]
      exact hlength
    have hbatches : batches [.uartRx (t.drained inp).batch (t.drained inp).reads]
        = [(0, (t.drained inp).batch)] := by
      simp [batches, Obs.batches, hnew]
    have hcapture : (t.receiveFromUart inp).capture
        = recordIfWanted inp.atUart 0 (t.drained inp).batch t.capture := if_pos hnew
    refine h.of_queuesFirst rfl hplain rfl ?_ ?_
    · rw [hcapture]
      exact recordIfWanted_queues _ _ _ _
    · intro hclient
      obtain ⟨conn, hclient⟩ := Option.isSome_iff_exists.mp hclient
      rw [hbatches, hcapture]
      exact recordIfWanted_queuesFirst (hinv.recording hmode hclient).1 inp.atUart hrecordable

/-- Steps that read nothing and leave the capture sink alone. -/
lemma of_quiet (h : t.Kept cc) {io : List Obs} (hio : t'.io = t.io ++ io)
    (hplain : ∀ o ∈ io, o.plain) (hclient : t'.clientSocket = t.clientSocket)
    (hcapture : t'.capture = t.capture) (hbatches : batches io = []) : t'.Kept cc := by
  refine h.of_queuesFirst hio hplain hclient ?_ ?_
  · rw [hcapture]
    exact .refl _
  · intro _
    rw [hcapture, hbatches]
    simp [Capture.QueuesFirst]

lemma sendToClient (h : t.Kept cc) (hinv : t.Inv cc) (hmode : cc.mode.opens) (inp : Tick) :
    (t.sendToClient inp).Kept cc := by
  rcases hinv.client_cases with hclient | ⟨conn, hclient, hsession, hbridge⟩
  · rw [sendToClient_of_no_client hclient]
    exact h
  · obtain ⟨hwrites, -, -⟩ := sendLoop_spec inp conn 0 t.sendState
    obtain ⟨-, -, -, hbatches, -⟩ := quiet_sendLoop inp conn 0 t.sendState
    have hsent : (t.afterSend (sendLoop inp conn 0 t.sendState)).Kept cc := by
      refine h.of_quiet rfl ?_ rfl rfl hbatches
      intro o ho
      obtain ⟨_, _, rfl⟩ := hwrites o ho
      exact ⟨trivial, by simp⟩
    rw [sendToClient_of_client hbridge hclient]
    split_ifs
    · rw [endSession_eq (by exact hsession) (by exact hclient)]
      exact hsent.disconnect (hinv.afterSend hclient inp) hmode hclient inp.atEnd
    · exact hsent

lemma pumpUartToTcp (h : t.Kept cc) (hinv : t.Inv cc) (hmode : cc.mode.opens) (inp : Tick) :
    (t.pumpUartToTcp inp).Kept cc := by
  unfold Texecom.pumpUartToTcp
  split_ifs
  · exact h
  · exact (h.receiveFromUart hinv hmode inp).sendToClient (hinv.receiveFromUart inp) hmode inp

lemma afterRead (h : t.Kept cc) (hinv : t.Inv cc) (hmode : cc.mode.opens) {conn : Conn}
    (hclient : t.clientSocket = some conn) (inp : Tick) :
    (t.afterRead (readLoop inp conn 0 t.tcpToUart t.capture)).Kept cc := by
  obtain ⟨hreads, -, hqueues, -⟩ := readLoop_spec inp conn 0 t.tcpToUart t.capture
  refine h.of_queuesFirst rfl ?_ rfl hqueues fun _ => ?_
  · intro o ho
    obtain ⟨_, _, rfl⟩ := hreads o ho
    exact ⟨trivial, by simp⟩
  · exact readLoop_queuesFirst inp conn 0 t.tcpToUart (hinv.recording hmode hclient).1

lemma sendToUart (h : t.Kept cc) : t.sendToUart.Kept cc := by
  obtain ⟨-, -, -, hbatches, -⟩ := quiet_uartTx (drainToUart t.tcpToUart).1
  refine h.of_quiet rfl ?_ rfl rfl hbatches
  intro o ho
  obtain ⟨b, -, rfl⟩ := List.mem_map.mp ho
  exact ⟨trivial, by simp⟩

lemma pumpTcpToUart (h : t.Kept cc) (hinv : t.Inv cc) (hmode : cc.mode.opens) (inp : Tick) :
    (t.pumpTcpToUart inp).Kept cc := by
  unfold Texecom.pumpTcpToUart
  split_ifs
  · exact h
  · rcases hinv.client_cases with hclient | ⟨conn, hclient, hsession, hbridge⟩
    · rw [receiveFromClient_of_no_client hclient]
      exact h.sendToUart
    · have hread := h.afterRead hinv hmode hclient inp
      rw [receiveFromClient_of_client hbridge hclient]
      cases (readLoop inp conn 0 t.tcpToUart t.capture).ended with
      | true =>
        simp only
        rw [endSession_eq (by exact hsession) (by exact hclient)]
        exact hread.disconnect (hinv.afterRead inp conn) hmode hclient inp.atEnd
      | false => exact hread.sendToUart

/-- One tick, to the start of the next. -/
lemma loop (h : t.beginTick.Kept cc) (hinv : t.Inv cc) (hqueued : t.capture.queued = [])
    (hmode : cc.mode.opens) (inp : Tick) : (t.loop inp).beginTick.Kept cc := by
  have haccepted : (t.beginTick.acceptPendingClient inp).Kept cc := by
    rcases hinv.beginTick.acceptPendingClient_cases inp with
      ⟨-, heq⟩ | ⟨pending, -, -, ⟨-, heq⟩ | ⟨hsession, heq⟩⟩
    · rw [heq]
      exact h
    · rw [heq]
      exact h.of_quiet rfl (by simp [Obs.plain, Obs.inSession]) rfl rfl rfl
    · have hroom : (keep t.beginTick.io).room = kCaptureRingEvents := by
        rw [beginTick, keep_append]
        rfl
      have hclient := hinv.beginTick.client_of_mode_ne hsession
      rw [heq]
      exact h.enterBridge hinv.beginTick hmode hclient hqueued hroom inp pending
  have hinv' := hinv.beginTick.acceptPendingClient inp
  have hpumped := haccepted.pumpUartToTcp hinv' hmode inp
  have hinv'' := hinv'.pumpSteps (hinv'.pumpUartToTcp_steps inp)
  exact (hpumped.pumpTcpToUart hinv'' hmode inp).captureLoop
    (hinv''.pumpSteps (hinv''.pumpTcpToUart_steps inp)) hmode inp

lemma run {cfg : Config} (hmode : cfg.captureMode.opens) (listen : Bool) (ticks : List Tick) :
    (run cfg listen ticks).beginTick.Kept (Capture.configured cfg.capture).config := by
  induction ticks using List.reverseRecOn with
  | nil => exact .monitor rfl rfl .nil
  | append_singleton ticks inp ih =>
    rw [run_concat]
    exact ih.loop (inv_run cfg listen ticks) (queued_run cfg listen ticks) hmode inp

/-- Between ticks nothing is queued, so each capture holds all that is kept. -/
lemma pairs (h : t.beginTick.Kept cc) (hqueued : t.capture.queued = []) :
    List.Forall₂ (fun bs q => q.Keeps cc bs) (keep t.io).kept (archive t.capture.history) := by
  have hkept : (keep t.beginTick.io).kept = (keep t.io).kept := by
    rw [beginTick, keep_concat]
    rfl
  rw [← hkept]
  cases h with
  | monitor client live filed => exact filed.flip
  | bridge client live q archived es older archive_eq holds kept room filed =>
    have hqueued' : t.beginTick.capture.queued = [] := hqueued
    have harchive : archive t.capture.history = q :: archived := archive_eq
    rw [hqueued', List.append_nil] at kept
    rw [kept, harchive]
    exact .cons ⟨es, holds, rfl⟩ filed.flip

end Kept

/-! ### Ticks with room for all batches -/

lemma io_pumpStep {inp : Tick} (h : PumpStep inp t t') :
    ∃ rest, t'.io = t.io ++ rest ∧ Obs.tick ∉ rest := by
  cases h with
  | receiveFromUart => exact ⟨_, rfl, by simp⟩
  | send conn hsession hclient =>
    refine ⟨_, rfl, fun ho => ?_⟩
    obtain ⟨_, _, heq⟩ := (sendLoop_spec inp conn 0 t.sendState).1 _ ho
    cases heq
  | read conn hsession hclient =>
    refine ⟨_, rfl, fun ho => ?_⟩
    obtain ⟨_, _, heq⟩ := (readLoop_spec inp conn 0 t.tcpToUart t.capture).1 _ ho
    cases heq
  | disconnect conn hsession hclient => exact ⟨_, rfl, by simp⟩
  | sendToUart => exact ⟨_, rfl, by simp⟩
  | captureLoop => exact ⟨[], (List.append_nil _).symm, by simp⟩

/-- A tick begins once. -/
lemma Inv.io_loop (h : t.Inv cc) (inp : Tick) :
    ∃ rest, (t.loop inp).io = t.io ++ .tick :: rest ∧ Obs.tick ∉ rest := by
  have haccepted : ∃ rest, (t.beginTick.acceptPendingClient inp).io = t.io ++ .tick :: rest ∧
      Obs.tick ∉ rest := by
    rcases h.beginTick.acceptPendingClient_cases inp with
      ⟨-, heq⟩ | ⟨pending, -, -, ⟨-, heq⟩ | ⟨-, heq⟩⟩
    · rw [heq]
      exact ⟨[], rfl, List.not_mem_nil⟩
    · rw [heq]
      exact ⟨_, List.append_assoc _ _ _, by simp⟩
    · rw [heq]
      exact ⟨_, List.append_assoc _ _ _, by simp⟩
  have hpumps : ∀ t', PumpSteps inp (t.beginTick.acceptPendingClient inp) t' →
      ∃ rest, t'.io = t.io ++ .tick :: rest ∧ Obs.tick ∉ rest := by
    intro t' hsteps
    induction hsteps with
    | refl => exact haccepted
    | tail _ hstep ih =>
      obtain ⟨rest, hio, hrest⟩ := ih
      obtain ⟨rest', hio', hrest'⟩ := io_pumpStep hstep
      refine ⟨rest ++ rest', by rw [hio', hio]; simp, ?_⟩
      simp [hrest, hrest']
  exact hpumps _ (loop_steps (h.beginTick.acceptPendingClient inp))

/-- When no tick reads more batches than the event ring holds, all are kept. -/
lemma whole_run {cfg : Config} {listen : Bool} {ticks : List Tick}
    (hfew : ∀ ticks' inp, ticks' ++ [inp] <+: ticks →
      (batches (run cfg listen (ticks' ++ [inp])).io).length
        ≤ (batches (run cfg listen ticks').io).length + kCaptureRingEvents) :
    Whole (run cfg listen ticks).io := by
  induction ticks using List.reverseRecOn with
  | nil => exact ⟨rfl, rfl⟩
  | append_singleton ticks inp ih =>
    have hbefore := ih fun ticks' inp' hpre =>
      hfew ticks' inp' (hpre.trans (List.prefix_append _ _))
    have hcount := hfew ticks inp (List.prefix_refl _)
    obtain ⟨rest, hio, hrest⟩ := (inv_run cfg listen ticks).io_loop inp
    have hbegun : Whole ((run cfg listen ticks).io ++ [.tick]) := hbefore.mark fun ho => ho.2 rfl
    have hroom : (keep ((run cfg listen ticks).io ++ [.tick])).room = kCaptureRingEvents := by
      rw [keep_concat]
      rfl
    rw [run_concat, hio, List.append_cons] at hcount
    rw [run_concat, hio, List.append_cons]
    refine hbegun.append hrest ?_
    rw [hroom]
    rw [batches_append, batches_append, List.length_append, List.length_append] at hcount
    have hnone : batches [.tick] = [] := rfl
    rw [hnone, List.length_nil] at hcount
    omega

/-! ### What is stored -/

/-- The pair of a session holds what is kept of the session. -/
lemma kept_run {cfg : Config} (hmode : cfg.captureMode.opens) (listen : Bool) (ticks : List Tick) :
    let t := run cfg listen ticks
    List.Forall₂ (fun bs q => q.Keeps (Capture.configured cfg.capture).config bs)
      (keep t.io).kept.reverse (archive t.capture.history).reverse :=
  List.forall₂_reverse_iff.mpr
    ((Kept.run hmode listen ticks).pairs (queued_run cfg listen ticks))

/-- The `.bin` of a session that was not evicted holds what is kept of the session. -/
lemma stored_of_kept {cfg : Config} (hmode : cfg.captureMode.opens) (listen : Bool)
    (ticks : List Tick) {i : ℕ} {bs : List (UInt8 × List UInt8)}
    (hbs : (keep (run cfg listen ticks).io).kept.reverse[i]? = some bs)
    (hstored : evictions (run cfg listen ticks).capture.history ≤ 2 * i) :
    ∃ q : CapturePair, q.Keeps (Capture.configured cfg.capture).config bs ∧
      (run cfg listen ticks).capture.store.captures[
        2 * i - evictions (run cfg listen ticks).capture.history]? = some q.bin := by
  obtain ⟨q, hq, hkeeps⟩ := (kept_run hmode listen ticks).exists_getElem? hbs
  exact ⟨q, hkeeps, (inv_run cfg listen ticks).capture.stored_bin hq hstored⟩

/-- In a mode that gives each session its own pair, the `.bin` of a session that was not evicted
reads back as the first 64 batches of each tick of the session, at every tick boundary, and every
`.bin` that is stored is that of a session. When no tick reads more than 64 batches, these are all
batches of the session. -/
theorem capture_exact {cfg : Config} (hmode : cfg.captureMode.opens) (listen : Bool)
    (ticks : List Tick) :
    let t := run cfg listen ticks
    let evicted := evictions t.capture.history
    (∀ i bs, (keep t.io).kept.reverse[i]? = some bs → evicted ≤ 2 * i →
      ∃ bin hdr es, t.capture.store.captures[2 * i - evicted]? = some bin ∧ bin.isText = false ∧
        parseCapture bin.bytes = some (hdr, es) ∧ es.map Event.key = bs) ∧
    (∀ j bin, t.capture.store.captures[j]? = some bin → bin.isText = false →
      ∃ i bs hdr es, j + evicted = 2 * i ∧ (keep t.io).kept.reverse[i]? = some bs ∧
        parseCapture bin.bytes = some (hdr, es) ∧ es.map Event.key = bs) ∧
    (keep t.io).kept.length = (sessions t.io).length ∧
    ((∀ ticks' inp, ticks' ++ [inp] <+: ticks →
        (batches (run cfg listen (ticks' ++ [inp])).io).length
          ≤ (batches (run cfg listen ticks').io).length + kCaptureRingEvents) →
      (keep t.io).kept = (sessions t.io).map Session.batches) := by
  intro t evicted
  have hlength : (keep t.io).kept.length = (sessions t.io).length := length_kept t.io
  have hread : ∀ i bs, (keep t.io).kept.reverse[i]? = some bs → evicted ≤ 2 * i →
      ∃ bin hdr es, t.capture.store.captures[2 * i - evicted]? = some bin ∧ bin.isText = false ∧
        parseCapture bin.bytes = some (hdr, es) ∧ es.map Event.key = bs := by
    intro i bs hbs hstored
    obtain ⟨q, ⟨es, hes, hkeys⟩, hbin⟩ := stored_of_kept hmode listen ticks hbs hstored
    obtain ⟨hdr, hparse⟩ := hes.parseCapture_eq
    exact ⟨q.bin, hdr, es, hbin, hes.isText.1, hparse, hkeys⟩
  refine ⟨hread, fun j bin hbin hnot => ?_, hlength, fun hfew => (whole_run hfew).kept_eq⟩
  obtain ⟨i, s, hi, hs⟩ := session_of_stored hmode listen ticks hbin hnot
  obtain ⟨hlt, -⟩ := List.getElem?_eq_some_iff.mp hs
  rw [List.length_reverse, ← hlength, ← List.length_reverse] at hlt
  have hbs := List.getElem?_eq_getElem hlt
  obtain ⟨bin', hdr, es, hbin', -, hparse, hkeys⟩ := hread i _ hbs (hi ▸ Nat.le_add_left _ j)
  have hj : 2 * i - evicted = j := by
    rw [← hi]
    exact Nat.add_sub_cancel j _
  rw [hj, hbin, Option.some.injEq] at hbin'
  rw [← hbin'] at hparse
  exact ⟨i, _, hdr, es, hi, hbs, hparse, hkeys⟩

/-- The capture of a client that sends one byte and closes. -/
theorem capture_exact_visit :
    let t := run ⟨true, none, .bridgeOnly, 8192⟩ true [.visit 1 0x41]
    ∃ bin hdr es, t.capture.store.captures[0]? = some bin ∧
      parseCapture bin.bytes = some (hdr, es) ∧ es.map Event.key = [(1, [0x41])] := by
  intro t
  obtain ⟨hstored, -⟩ :=
    @capture_exact ⟨true, none, .bridgeOnly, 8192⟩ (Or.inl rfl) true [.visit 1 0x41]
  have hkept : (keep t.io).kept.reverse[0]? = some [(1, [0x41])] := by decide +kernel
  have hevicted : evictions t.capture.history = 0 := by decide +kernel
  obtain ⟨bin, hdr, es, hbin, -, hparse, hkeys⟩ := hstored 0 _ hkept hevicted.le
  rw [hevicted] at hbin
  exact ⟨bin, hdr, es, hbin, hparse, hkeys⟩

end Texecom
end TexecomBridge
