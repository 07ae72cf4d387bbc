import TexecomBridge.Capture.Lifecycle
import TexecomBridge.Library.Buffers

/-!
# The buffers of the store

Which buffer each stored capture lies in, replayed from what has happened to the store: a capture is
made with a reserve of 4096 bytes, moves when a flush outgrows its buffer, and is released when it is
evicted. The contents are those of the store in every reachable state.
-/

namespace TexecomBridge

open Buffers

/-! ### Replay -/

/-- Append to the vector at `i`, one insertion for each row. -/
def appendRows (v : GrowthPolicy) (i : ℕ) (rows : List (List UInt8)) (s : Buffers UInt8) :
    Buffers UInt8 :=
  rows.foldl (fun s row => s.append v i row) s

/-- What one event does to the buffers. A flushed write is one insertion into the last `.bin` and one
for each row into the last `.txt`. -/
def bufferStep (v : GrowthPolicy) (s : Buffers UInt8) : StoreEvent → Buffers UInt8
  | .opened bin txt =>
    let s := (s.push (v.reserve (kCaptureHeaderSize + 4096))).append v s.owned.length bin.bytes
    (s.push (v.reserve (txt.bytes.length + 4096))).append v s.owned.length txt.bytes
  | .wrote bytes _ =>
    let binIdx := s.owned.length - 2
    let txtIdx := s.owned.length - 1
    let binOffset := (s.contents[binIdx]?.map List.length).getD 0
    appendRows v txtIdx (hexdumpRows binOffset bytes) (s.append v binIdx bytes)
  | .evicted victim _ => s.erase victim
  | .settled _ => s

/-- The buffers after all that has happened. -/
def buffers (v : GrowthPolicy) (h : List StoreEvent) : Buffers UInt8 :=
  h.foldl (bufferStep v) Buffers.empty

lemma buffers_append (v : GrowthPolicy) (h t : List StoreEvent) :
    buffers v (h ++ t) = t.foldl (bufferStep v) (buffers v h) := by
  rw [buffers, List.foldl_append, buffers]

lemma buffers_concat (v : GrowthPolicy) (h : List StoreEvent) (e : StoreEvent) :
    buffers v (h ++ [e]) = bufferStep v (buffers v h) e := by
  rw [buffers_append, List.foldl_cons, List.foldl_nil]

variable {v : GrowthPolicy} {s : Buffers UInt8}

lemma length_contents (s : Buffers UInt8) : s.contents.length = s.owned.length :=
  List.length_map _

@[simp] lemma contents_appendRows (v : GrowthPolicy) (i : ℕ) (rows : List (List UInt8))
    (s : Buffers UInt8) :
    (appendRows v i rows s).contents = s.contents.modify i (· ++ rows.flatten) := by
  induction rows generalizing s with
  | nil =>
    simp only [appendRows, List.foldl_nil, List.flatten_nil, List.append_nil]
    exact (List.modify_id i _).symm
  | cons row rows ih =>
    have hrest := ih (s.append v i row)
    rw [contents_append, List.modify_modify_eq] at hrest
    rw [List.flatten_cons]
    refine hrest.trans ?_
    congr 1
    funext xs
    exact List.append_assoc _ _ _

/-- A vector pushed and filled. -/
lemma contents_push_append (v : GrowthPolicy) (capacity : ℕ) (xs : List UInt8) (s : Buffers UInt8) :
    ((s.push capacity).append v s.owned.length xs).contents = s.contents ++ [xs] := by
  rw [contents_append, contents_push, ← length_contents, List.modify_split, List.nil_append]

lemma contents_opened (v : GrowthPolicy) (s : Buffers UInt8) (bin txt : RamCapture) :
    (bufferStep v s (.opened bin txt)).contents = s.contents ++ [bin.bytes] ++ [txt.bytes] := by
  simp only [bufferStep]
  rw [contents_push_append, contents_push_append]

/-- A flushed write extends the last two vectors as it does the live pair. -/
lemma contents_wrote {old : List (List UInt8)} {x y : List UInt8} (h : s.contents = old ++ [x, y])
    (v : GrowthPolicy) (bytes : List UInt8) (ms : UInt32) :
    (bufferStep v s (.wrote bytes ms)).contents
      = old ++ [x ++ bytes, y ++ (hexdumpRows x.length bytes).flatten] := by
  have hlen : s.owned.length = old.length + 2 := by
    rw [← length_contents, h, List.length_append]
    rfl
  have hoffset : (s.contents[old.length]?.map List.length).getD 0 = x.length := by
    rw [h, List.getElem?_append_right le_rfl, Nat.sub_self]
    rfl
  have htxt : old.length + 2 - 1 = (old ++ [x ++ bytes]).length := by
    rw [List.length_append]
    rfl
  simp only [bufferStep, hlen, Nat.add_sub_cancel, hoffset]
  rw [contents_appendRows, contents_append, h, List.modify_split, htxt, List.append_cons,
    List.modify_split, ← List.append_cons]

/-! ### The contents are those of the store -/

namespace Capture

variable {c : Capture}

/-- Every stored capture lies in its buffer. -/
def Backed (v : GrowthPolicy) (c : Capture) : Prop :=
  (buffers v c.history).contents = c.store.captures.map (·.bytes)

lemma Backed.enforceBudget (h : c.Backed v) : c.enforceBudget.Backed v := by
  fun_induction Capture.enforceBudget c with
  | case1 c hover hv => exact h
  | case2 c hover victim hv ih =>
    apply ih
    rw [Backed, buffers_concat, bufferStep, contents_erase, h]
    exact List.eraseIdx_map _ _ _
  | case3 c hover => exact h

/-- Putting it on record that the budget was enforced moves nothing. -/
lemma Backed.settle (h : c.Backed v) (warn : Bool) : Backed v
    { c with budgetWarnEmitted := warn, history := c.history ++ [.settled c.store] } := by
  rw [Backed, buffers_concat]
  exact h

lemma Backed.openNewCapture (h : c.Backed v) (p : Platform) : (c.openNewCapture p).Backed v := by
  obtain ⟨_, _, hclose⟩ := closeCurrentCapture_frame c
  have hpush : (c.closeCurrentCapture.pushNewPair p).Backed v := by
    rw [hclose, Backed, Capture.pushNewPair, buffers_concat, contents_opened, h, List.map_append,
      List.map_append]
    rfl
  exact hpush.enforceBudget.settle false

lemma Backed.appendToLive (h : c.Backed v) (hinv : c.StoreInv) (hlive : c.isLive) (p : Platform)
    {bytes : List UInt8} (hb : bytes ≠ []) : (c.appendToLive p bytes).Backed v := by
  obtain ⟨q, older, -, -, hq⟩ := hinv.exists_live hlive
  have hq' := (hq.appendTo_bin p.millis hb).writeHexdump p.millis q.bin.bytes.length hb
  have hcontents : (buffers v c.history).contents
      = ((files older).drop (evictions c.history)).map (·.bytes) ++ [q.bin.bytes, q.txt.bytes] := by
    rw [h, hq.captures_eq, List.map_append]
    rfl
  rw [Backed, Capture.appendToLive, buffers_concat, contents_wrote hcontents]
  simp only [hq.sizeAt_bin]
  rw [hq'.captures_eq, List.map_append]
  rfl

lemma Backed.writeBytes (h : c.Backed v) (hinv : c.StoreInv) (hsink : c.testSink = none)
    (p : Platform) {bytes : List UInt8} (hb : bytes ≠ []) : (c.writeBytes p bytes).Backed v := by
  by_cases hlive : c.isLive
  · rw [writeBytes_of_isLive hsink hlive]
    exact (h.appendToLive hinv hlive p hb).enforceBudget.settle _
  · rw [writeBytes_of_not_isLive hsink hlive]
    exact h

lemma Backed.writeEvents (h : c.Backed v) (hinv : c.StoreInv) (hsink : c.testSink = none)
    (p : Platform) {es : List Event} (hes : ∀ e ∈ es, e.Queueable) :
    (c.writeEvents p es).Backed v := by
  induction es generalizing c with
  | nil => exact h
  | cons e es ih =>
    have he := (hes e List.mem_cons_self).serialize_ne
    exact ih (h.writeBytes hinv hsink p he) (hinv.writeBytes hsink p he)
      (testSink_writeBytes hsink p _) fun e' he' => hes e' (List.mem_cons_of_mem _ he')

lemma Backed.flushRing (h : c.Backed v) (hinv : c.Inv) (p : Platform) :
    (c.flushRing p).Backed v := by
  obtain ⟨r, -, hflush⟩ := flushRing_eq p hinv.queued
  rw [hflush]
  exact h.writeEvents hinv.toStoreInv hinv.sink p hinv.queued

lemma Backed.step (h : c.Backed v) (hinv : c.Inv) (op : Op) : (Capture.step c op).Backed v := by
  cases op with
  | sessionStart p =>
    rw [Capture.step]
    by_cases hmode : c.mode.opens
    · have hstarted : (c.started p).Backed v := h
      rw [onSessionStart_of_opens hmode]
      exact hstarted.openNewCapture p
    · rw [onSessionStart_of_not_opens hmode]
      exact h
  | sessionEnd p =>
    have hflush := h.flushRing hinv p
    obtain ⟨_, _, hclose⟩ := closeCurrentCapture_frame (c.flushRing p)
    rw [Capture.step, onSessionEnd, hclose]
    exact hflush
  | record p direction bytes =>
    obtain ⟨_, _, _, hframe⟩ := record_frame p direction bytes c
    rw [Capture.step, hframe]
    exact h
  | loop p =>
    rw [Capture.step, loop_eq_flushRing]
    exact h.flushRing hinv p

/-- In every reachable state the buffers hold what the store holds. -/
lemma backed_run (v : GrowthPolicy) (cfg : Config) (ops : List Op) : (run cfg ops).Backed v := by
  induction ops using List.reverseRecOn with
  | nil => rfl
  | append_singleton ops op ih =>
    rw [run_concat]
    exact ih.step (inv_run cfg ops) op

end Capture

/-! ### Following one capture -/

variable {b : Buffer UInt8} {pos : Option ℕ}

lemma follows_appendRows (h : s.Follows b pos) (v : GrowthPolicy) (i : ℕ)
    (rows : List (List UInt8)) : (appendRows v i rows s).Follows b pos := by
  induction rows generalizing s with
  | nil => exact h
  | cons row rows ih => exact ih (h.append v i row)

/-- Where a capture is after an event: only an eviction moves it. -/
def posAfter (e : StoreEvent) (pos : Option ℕ) : Option ℕ :=
  match e with
  | .evicted victim _ => pos.bind (shift victim)
  | _ => pos

lemma follows_bufferStep (h : s.Follows b pos) (v : GrowthPolicy) (e : StoreEvent) :
    (bufferStep v s e).Follows b (posAfter e pos) := by
  cases e with
  | opened bin txt =>
    have hbin := (h.push (v.reserve (kCaptureHeaderSize + 4096))).append v s.owned.length bin.bytes
    exact (hbin.push _).append v _ txt.bytes
  | wrote bytes ms => exact follows_appendRows (h.append v _ bytes) v _ _
  | evicted victim before => exact h.erase victim
  | settled after => exact h

/-- With the oldest capture evicted each time, the position of a capture drops by the number of
evictions, and one that was at a position below that is gone. -/
lemma follows_foldl {i : ℕ} (h : s.Follows b (some i)) (v : GrowthPolicy) {t : List StoreEvent}
    (hoks : ∀ e ∈ t, ∀ victim before, e = .evicted victim before → victim = 0) :
    (t.foldl (bufferStep v) s).Follows b
      (if evictions t ≤ i then some (i - evictions t) else none) := by
  induction t using List.reverseRecOn with
  | nil => simpa using h
  | append_singleton t e ih =>
    have hrest := follows_bufferStep (ih fun e' he' => hoks e' (List.mem_append_left _ he')) v e
    rw [List.foldl_append, List.foldl_cons, List.foldl_nil]
    convert hrest using 1
    cases e with
    | evicted victim before =>
      obtain rfl := hoks _ (List.mem_append_right _ List.mem_cons_self) victim before rfl
      rw [evictions_concat]
      simp only [StoreEvent.isEviction, posAfter, if_true]
      rcases Nat.lt_trichotomy (evictions t) i with hlt | heq | hgt
      · have hpos : 0 < i - evictions t := Nat.sub_pos_of_lt hlt
        rw [if_pos (Nat.succ_le_of_lt hlt), if_pos hlt.le, Option.bind_some, shift, if_neg hpos.ne', if_pos hpos,
          Nat.sub_sub]
      · rw [if_neg (by omega), if_pos heq.le, heq, Nat.sub_self]
        rfl
      · rw [if_neg (by omega), if_neg (by omega)]
        rfl
    | opened bin txt => simp [StoreEvent.isEviction, posAfter]
    | wrote bytes ms => simp [StoreEvent.isEviction, posAfter]
    | settled after => simp [StoreEvent.isEviction, posAfter]

end TexecomBridge
