import TexecomBridge.Capture.Buffers
import TexecomBridge.Http.Basic

/-!
# Downloads while the bridge runs

The handler runs in a task of its own. It looks a capture up, keeps the pointer to its data and the
size, and sends one chunk after another, with calls into `Capture` in between. The pointer is good
until the capture is evicted or outgrows its buffer. What comes between the lookup and the first
chunk is left out here.
-/

namespace TexecomBridge

/-! ### The send loop -/

/-- The loop between two chunks: the buffer that `src` points into and how far, what has been sent,
and whether a chunk was ever read from a buffer that had been released. -/
structure Download where
  buffer : ℕ
  src : ℕ
  remaining : ℕ
  body : List UInt8
  dangling : Bool

def Download.start (buffer size : ℕ) : Download := ⟨buffer, 0, size, [], false⟩

/-- The pointer to the data and the size of the first capture of this name, both taken at once.
`get_capture_bytes()` returns a pointer to the vector, through which `send_file_` takes them one
after the other: `prepare` has these steps. -/
def lookup (v : GrowthPolicy) (c : Capture) (name : List UInt8) : Option Download :=
  match c.store.captures.findIdx? (·.name = name) with
  | none => none
  | some i => (buffers v c.history).owned[i]?.map fun b => .start b.id b.contents.length

/-- One round of the loop. What is read from a released buffer is not known. -/
def sendChunk (s : Buffers UInt8) (d : Download) : Download :=
  if d.remaining = 0 then d
  else
    let n := if d.remaining < kStreamChunkBytes then d.remaining else kStreamChunkBytes
    let d' := { d with src := d.src + n, remaining := d.remaining - n }
    match s.find d.buffer with
    | none => { d' with dangling := true }
    | some b => { d' with body := d.body ++ (b.contents.drop d.src).take n }

/-- The two tasks take turns: a call into `Capture`, or a chunk. -/
inductive Turn
  | call (op : Capture.Op)
  | chunk

def turnStep (v : GrowthPolicy) (s : Capture × Download) : Turn → Capture × Download
  | .call op => (s.1.step op, s.2)
  | .chunk => (s.1, sendChunk (buffers v s.1.history) s.2)

/-- The loop after some turns. -/
def loopAfter (v : GrowthPolicy) (c : Capture) (d : Download) (turns : List Turn) : Download :=
  (turns.foldl (turnStep v) (c, d)).2

def Turn.isChunk : Turn → Bool
  | .call _ => false
  | .chunk => true

/-- The number of rounds of the loop. -/
def rounds (turns : List Turn) : ℕ := turns.countP Turn.isChunk

/-- What the calls make of the capture sink. -/
def afterCalls (c : Capture) (turns : List Turn) : Capture :=
  turns.foldl (fun c turn => match turn with | .call op => c.step op | .chunk => c) c

/-- No chunk is read from a released buffer, and what is sent are the bytes that the named capture
held at the lookup, from the first on, and all of them after enough rounds. -/
def TrueSnapshot (v : GrowthPolicy) (c : Capture) (name : List UInt8) (turns : List Turn) : Prop :=
  ∀ d bytes, lookup v c name = some d → c.getCaptureBytes name = some bytes →
    (loopAfter v c d turns).dangling = false ∧
      (loopAfter v c d turns).body = bytes.take (kStreamChunkBytes * rounds turns)

/-! ### The condition -/

/-- The capture at `i` in `c` is still stored in `c'`, from which more of the oldest captures may
have been evicted, and it fits in the buffer that it had in `c`. -/
def Readable (v : GrowthPolicy) (c c' : Capture) (i : ℕ) : Prop :=
  let gone := evictions c'.history - evictions c.history
  gone ≤ i ∧ ((c'.store.captures[i - gone]?).map (·.bytes.length)).getD 0
    ≤ (((buffers v c.history).owned[i]?).map (·.capacity)).getD 0

instance (v : GrowthPolicy) (c c' : Capture) (i : ℕ) : Decidable (Readable v c c' i) :=
  inferInstanceAs (Decidable (_ ∧ _))

/-- Before every round that has something to send, the capture can still be read. -/
def Undisturbed (v : GrowthPolicy) (c : Capture) (name : List UInt8) (turns : List Turn) : Prop :=
  ∀ i bytes, c.store.captures.findIdx? (·.name = name) = some i →
    c.getCaptureBytes name = some bytes → ∀ before after, turns = before ++ .chunk :: after →
      kStreamChunkBytes * rounds before < bytes.length → Readable v c (afterCalls c before) i

/-! ### Turns -/

variable {v : GrowthPolicy} {c : Capture} {name : List UInt8} {turns : List Turn}

lemma rounds_concat_call (turns : List Turn) (op : Capture.Op) :
    rounds (turns ++ [.call op]) = rounds turns := by
  simp [rounds, Turn.isChunk]

lemma rounds_concat_chunk (turns : List Turn) : rounds (turns ++ [.chunk]) = rounds turns + 1 := by
  simp [rounds, Turn.isChunk]

lemma fst_foldl_turnStep (v : GrowthPolicy) (turns : List Turn) (c : Capture) (d : Download) :
    (turns.foldl (turnStep v) (c, d)).1 = afterCalls c turns := by
  induction turns generalizing c d with
  | nil => rfl
  | cons turn turns ih =>
    cases turn with
    | call op => exact ih (c.step op) d
    | chunk => exact ih c _

/-- The calls keep the invariants and add to the history. -/
lemma afterCalls_spec (hinv : c.Inv) (hbacked : c.Backed v) (turns : List Turn) :
    (afterCalls c turns).Inv ∧ (afterCalls c turns).Backed v ∧
      c.history <+: (afterCalls c turns).history := by
  induction turns generalizing c with
  | nil => exact ⟨hinv, hbacked, List.prefix_rfl⟩
  | cons turn turns ih =>
    cases turn with
    | call op =>
      obtain ⟨hinv', hbacked', hpre⟩ := ih (hinv.step op) (hbacked.step hinv op)
      exact ⟨hinv', hbacked', (hinv.history_step op).trans hpre⟩
    | chunk => exact ih hinv hbacked

/-! ### The buffer that was looked up -/

/-- A later state still owns the buffer exactly when the capture can be read there. -/
lemma find_after {c' : Capture} (hinv : c'.Inv) (hbacked : c'.Backed v)
    (hpre : c.history <+: c'.history) {i : ℕ} {b : Buffer UInt8}
    (hb : (buffers v c.history).owned[i]? = some b) :
    (Readable v c c' i → ∃ b', (buffers v c'.history).find b.id = some b' ∧
      b.contents <+: b'.contents) ∧
    (¬ Readable v c c' i → (buffers v c'.history).find b.id = none) := by
  obtain ⟨t, ht⟩ := hpre
  have hoks : ∀ e ∈ t, ∀ victim before, e = .evicted victim before → victim = 0 := by
    rintro e he victim before rfl
    have hok := hinv.events (.evicted victim before) (ht ▸ List.mem_append_right _ he)
    exact hok.1
  have hfollows := follows_foldl (Buffers.follows_self hb) v hoks
  have hgone : evictions c'.history - evictions c.history = evictions t := by
    rw [← ht, evictions, List.countP_append]
    exact Nat.add_sub_cancel_left _ _
  rw [← buffers_append, ht] at hfollows
  simp only [Readable, hgone, hb, Option.map_some, Option.getD_some]
  by_cases hle : evictions t ≤ i
  · rw [if_pos hle] at hfollows
    obtain ⟨b', hb', -⟩ := hfollows.stored _ rfl
    have hsize : (c'.store.captures[i - evictions t]?).map (·.bytes.length)
        = some b'.contents.length := by
      have hget := congrArg (fun l => (l[i - evictions t]?).map List.length) hbacked
      simp only [Buffers.contents, List.getElem?_map, hb', Option.map_map] at hget
      exact hget.symm
    rw [hsize, Option.getD_some]
    refine ⟨fun h => ⟨b', hfollows.find_of_le hb' h.2⟩, fun h => hfollows.find_of_lt hb' ?_⟩
    exact not_le.mp fun hfits => h ⟨hle, hfits⟩
  · rw [if_neg hle] at hfollows
    exact ⟨fun h => absurd h.1 hle, fun _ => hfollows.find_of_erased⟩

/-- What a lookup finds: the buffer of the first capture of this name, and all of its bytes. -/
lemma lookup_spec (hbacked : c.Backed v) {d : Download} {bytes : List UInt8}
    (hd : lookup v c name = some d) (hbytes : c.getCaptureBytes name = some bytes) :
    ∃ i b, c.store.captures.findIdx? (·.name = name) = some i ∧
      (buffers v c.history).owned[i]? = some b ∧ b.contents = bytes ∧
      d = .start b.id bytes.length := by
  unfold lookup at hd
  cases hidx : c.store.captures.findIdx? (·.name = name) with
  | none =>
    rw [hidx] at hd
    cases hd
  | some i =>
    rw [hidx] at hd
    obtain ⟨b, hb, rfl⟩ := Option.map_eq_some_iff.mp hd
    have hcontents : b.contents = bytes := by
      have hget := congrArg (·[i]?) hbacked
      simp only [Buffers.contents, List.getElem?_map, hb, Option.map_some] at hget
      rw [Capture.getCaptureBytes, List.find?_eq_bind_findIdx?_getElem?, hidx, Option.bind_some]
        at hbytes
      exact Option.some.inj (hget.trans hbytes)
    refine ⟨i, b, rfl, hb, hcontents, ?_⟩
    rw [hcontents]

/-! ### Rounds of the loop -/

/-- A round advances by a chunk, or by what remains, whether or not it can read. -/
lemma sendChunk_advance (s : Buffers UInt8) (d : Download) : (sendChunk s d).buffer = d.buffer ∧
    (sendChunk s d).src = d.src + min d.remaining kStreamChunkBytes ∧
    (sendChunk s d).remaining = d.remaining - kStreamChunkBytes := by
  unfold sendChunk
  split_ifs with hzero hlt
  · simp [hzero]
  · cases s.find d.buffer <;> exact ⟨rfl, by simp only; omega, by simp only; omega⟩
  · cases s.find d.buffer <;> exact ⟨rfl, by simp only; omega, rfl⟩

lemma sendChunk_of_released {s : Buffers UInt8} {d : Download} (hrest : d.remaining ≠ 0)
    (h : s.find d.buffer = none) : (sendChunk s d).dangling = true := by
  simp only [sendChunk, if_neg hrest, h]

lemma sendChunk_of_owned {s : Buffers UInt8} {d : Download} {b : Buffer UInt8}
    (hrest : d.remaining ≠ 0) (h : s.find d.buffer = some b) :
    (sendChunk s d).dangling = d.dangling ∧ (sendChunk s d).body
      = d.body ++ (b.contents.drop d.src).take (min d.remaining kStreamChunkBytes) := by
  have hn : (if d.remaining < kStreamChunkBytes then d.remaining else kStreamChunkBytes)
      = min d.remaining kStreamChunkBytes := by
    split_ifs <;> omega
  simp only [sendChunk, if_neg hrest, h, hn]
  exact ⟨trivial, trivial⟩

lemma loopAfter_concat_call (v : GrowthPolicy) (c : Capture) (d : Download) (turns : List Turn)
    (op : Capture.Op) : loopAfter v c d (turns ++ [.call op]) = loopAfter v c d turns := by
  rw [loopAfter, List.foldl_append, List.foldl_cons, List.foldl_nil, turnStep, loopAfter]

lemma loopAfter_concat_chunk (v : GrowthPolicy) (c : Capture) (d : Download) (turns : List Turn) :
    loopAfter v c d (turns ++ [.chunk])
      = sendChunk (buffers v (afterCalls c turns).history) (loopAfter v c d turns) := by
  rw [loopAfter, List.foldl_append, List.foldl_cons, List.foldl_nil, turnStep, fst_foldl_turnStep,
    loopAfter]

/-- Whatever happens in between, the loop goes on until all has been sent. -/
lemma loopAfter_advance (v : GrowthPolicy) (c : Capture) (id size : ℕ) (turns : List Turn) :
    let d := loopAfter v c (.start id size) turns
    d.buffer = id ∧ d.src = min (kStreamChunkBytes * rounds turns) size ∧
      d.remaining = size - kStreamChunkBytes * rounds turns := by
  induction turns using List.reverseRecOn with
  | nil => exact ⟨rfl, (Nat.zero_min _).symm, rfl⟩
  | append_singleton turns turn ih =>
    cases turn with
    | call op =>
      rw [loopAfter_concat_call, rounds_concat_call]
      exact ih
    | chunk =>
      obtain ⟨hbuffer, hsrc, hrest⟩ := ih
      obtain ⟨hbuffer', hsrc', hrest'⟩ := sendChunk_advance
        (buffers v (afterCalls c turns).history) (loopAfter v c (.start id size) turns)
      rw [loopAfter_concat_chunk, rounds_concat_chunk, Nat.mul_succ]
      exact ⟨hbuffer'.trans hbuffer, by omega, by omega⟩

/-- Once a released buffer was read, that stays so. -/
lemma dangling_foldl (v : GrowthPolicy) {s : Capture × Download} (h : s.2.dangling = true)
    (turns : List Turn) :
    (turns.foldl (turnStep v) s).2.dangling = true := by
  induction turns generalizing s with
  | nil => exact h
  | cons turn turns ih =>
    apply ih
    cases turn with
    | call op => exact h
    | chunk =>
      rw [turnStep]
      by_cases hrest : s.2.remaining = 0
      · rw [sendChunk, if_pos hrest]
        exact h
      · cases hfind : (buffers v s.1.history).find s.2.buffer with
        | none => exact sendChunk_of_released hrest hfind
        | some b => exact (sendChunk_of_owned hrest hfind).1.trans h

/-! ### Both directions -/

/-- As long as the buffer can be read, the next chunk of what it held goes out. -/
lemma loopAfter_of_readable (hinv : c.Inv) (hbacked : c.Backed v) {i : ℕ} {b : Buffer UInt8}
    (hb : (buffers v c.history).owned[i]? = some b)
    (hreadable : ∀ before after, turns = before ++ .chunk :: after →
      kStreamChunkBytes * rounds before < b.contents.length → Readable v c (afterCalls c before) i) :
    let d := loopAfter v c (.start b.id b.contents.length) turns
    d.dangling = false ∧ d.body = b.contents.take (kStreamChunkBytes * rounds turns) := by
  induction turns using List.reverseRecOn with
  | nil => exact ⟨rfl, rfl⟩
  | append_singleton turns turn ih =>
    have hbefore := ih fun before after heq =>
      hreadable before (after ++ [turn]) (by rw [heq, List.append_assoc]; rfl)
    cases turn with
    | call op =>
      rw [loopAfter_concat_call, rounds_concat_call]
      exact hbefore
    | chunk =>
      obtain ⟨hdangling, hbody⟩ := hbefore
      obtain ⟨hbuffer, hsrc, hrest⟩ := loopAfter_advance v c b.id b.contents.length turns
      rw [loopAfter_concat_chunk, rounds_concat_chunk, Nat.mul_succ]
      by_cases hlt : kStreamChunkBytes * rounds turns < b.contents.length
      · obtain ⟨hinv', hbacked', hpre⟩ := afterCalls_spec hinv hbacked turns
        obtain ⟨b', hfind, hkept⟩ := (find_after hinv' hbacked' hpre hb).1
          (hreadable turns [] rfl hlt)
        rw [← hbuffer] at hfind
        obtain ⟨hdangling', hbody'⟩ := sendChunk_of_owned (by omega) hfind
        refine ⟨hdangling'.trans hdangling, ?_⟩
        obtain ⟨more, hmore⟩ := hkept
        rw [hbody', hbody, hsrc, hrest, ← hmore, min_eq_left hlt.le,
          List.drop_append_of_le_length hlt.le, List.take_append_of_le_length (by simp)]
        rw [List.take_add, ← List.length_drop, min_comm, ← List.take_eq_take_min]
      · have hzero : (loopAfter v c (.start b.id b.contents.length) turns).remaining = 0 := by
          omega
        rw [sendChunk, if_pos hzero, List.take_of_length_le (by omega)]
        rw [List.take_of_length_le (by omega)] at hbody
        exact ⟨hdangling, hbody⟩

/-- If nothing is read from a released buffer, the capture was readable before every round. -/
lemma readable_of_not_dangling (hinv : c.Inv) (hbacked : c.Backed v) {i : ℕ} {b : Buffer UInt8}
    (hb : (buffers v c.history).owned[i]? = some b)
    (h : (loopAfter v c (.start b.id b.contents.length) turns).dangling = false) :
    ∀ before after, turns = before ++ .chunk :: after →
      kStreamChunkBytes * rounds before < b.contents.length →
        Readable v c (afterCalls c before) i := by
  intro before after hturns hlt
  by_contra hnot
  obtain ⟨hinv', hbacked', hpre⟩ := afterCalls_spec hinv hbacked before
  have hreleased := (find_after hinv' hbacked' hpre hb).2 hnot
  obtain ⟨hbuffer, -, hrest⟩ := loopAfter_advance v c b.id b.contents.length before
  have hdangling : (loopAfter v c (.start b.id b.contents.length) (before ++ [.chunk])).dangling
      = true := by
    rw [loopAfter_concat_chunk]
    refine sendChunk_of_released (by omega) ?_
    rw [hbuffer]
    exact hreleased
  have hend := dangling_foldl v hdangling after
  rw [hturns, List.append_cons, loopAfter, List.foldl_append, hend] at h
  cases h

/-- A true snapshot needs the capture to be readable before every round. -/
lemma undisturbed_of_trueSnapshot (hinv : c.Inv) (hbacked : c.Backed v)
    (h : TrueSnapshot v c name turns) : Undisturbed v c name turns := by
  intro i bytes hidx hbytes
  obtain ⟨d, hd⟩ : ∃ d, lookup v c name = some d := by
    have hi : i < (buffers v c.history).owned.length := by
      rw [← length_contents, hbacked, List.length_map]
      exact (List.findIdx?_eq_some_iff_getElem.mp hidx).1
    simp only [lookup, hidx, List.getElem?_eq_getElem hi, Option.map_some]
    exact ⟨_, rfl⟩
  obtain ⟨i', b, hidx', hb, rfl, rfl⟩ := lookup_spec hbacked hd hbytes
  obtain rfl : i = i' := Option.some.inj (hidx.symm.trans hidx')
  exact readable_of_not_dangling hinv hbacked hb (h _ _ hd hbytes).1

/-- A download is a true snapshot exactly when, before every round that has something to send, the
capture is still stored and has not outgrown the buffer that it had at the lookup. -/
theorem trueSnapshot_iff (v : GrowthPolicy) (cfg : Capture.Config) (ops : List Capture.Op)
    (name : List UInt8) (turns : List Turn) :
    TrueSnapshot v (Capture.run cfg ops) name turns
      ↔ Undisturbed v (Capture.run cfg ops) name turns := by
  have hinv := Capture.inv_run cfg ops
  have hbacked := Capture.backed_run v cfg ops
  constructor
  · exact undisturbed_of_trueSnapshot hinv hbacked
  · intro h d bytes hd hbytes
    obtain ⟨i, b, hidx, hb, rfl, rfl⟩ := lookup_spec hbacked hd hbytes
    exact loopAfter_of_readable hinv hbacked hb (h i b.contents hidx hbytes)

/-- The first capture is looked up, and a second session evicts it before the first chunk. -/
theorem not_trueSnapshot : ¬ ∀ (v : GrowthPolicy) (cfg : Capture.Config) (ops : List Capture.Op)
    (name : List UInt8) (turns : List Turn), TrueSnapshot v (Capture.run cfg ops) name turns := by
  intro hall
  let cfg : Capture.Config := ⟨.bridgeOnly, ascii "Premier 24", 100, 19200⟩
  let ops : List Capture.Op := [.sessionStart .quiet, .sessionEnd .quiet]
  let bytes := ((Capture.run cfg ops).store.captures[0]?.map (·.bytes)).getD []
  have h := undisturbed_of_trueSnapshot (Capture.inv_run cfg ops) (Capture.backed_run .doubling cfg ops)
    (hall .doubling cfg ops (ascii "wintex-boot0-001.bin") [.call (.sessionStart .quiet), .chunk])
  have hreadable := h 0 bytes (by decide +kernel) (by decide +kernel)
    [.call (.sessionStart .quiet)] [] rfl (by decide +kernel)
  revert hreadable
  decide +kernel

end TexecomBridge
