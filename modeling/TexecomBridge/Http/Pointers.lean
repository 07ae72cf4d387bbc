import TexecomBridge.Capture.Slots
import TexecomBridge.Http.Snapshot

/-!
# Downloads from the lookup on

`get_capture_bytes()` returns a pointer to a vector in `captures_`, and the handler goes through it
three times before it sends anything: for the announced length, for the data and for the size. Any
call into `Capture` may come in between, and move or erase the capture.
-/

namespace TexecomBridge

/-! ### Before the loop -/

/-- The pointer that `get_capture_bytes()` returns: to the first capture of this name. -/
def capturePointer (v : GrowthPolicy) (c : Capture) (name : List UInt8) : Option Place :=
  (c.store.captures.findIdx? (·.name = name)).map (slots v c.history).place

/-- The vector in the slot that a pointer leads to, unless it dangles. -/
def deref (v : GrowthPolicy) (c : Capture) (p : Place) : Option (Buffer UInt8) :=
  match (slots v c.history).find p with
  | none => none
  | some _ => (buffers v c.history).owned[p.slot]?

/-- The announced length and the start of the loop, with the sink as it is at each of the three uses
of the pointer. -/
def prepare (v : GrowthPolicy) (c₁ c₂ c₃ : Capture) (p : Place) : Option (ℕ × Download) :=
  match deref v c₁ p, deref v c₂ p, deref v c₃ p with
  | some length, some data, some size =>
    some (length.contents.length, .start data.id size.contents.length)
  | _, _, _ => none

/-- In `c'` a pointer that was taken in `c` leads to the capture for which it was taken. -/
def Leads (v : GrowthPolicy) (c c' : Capture) (p : Place) : Prop :=
  (slots v c'.history).find p = (slots v c.history).find p

/-- A download with calls before each use of the pointer and between the chunks. Whenever the
pointer is used it leads to the capture that was looked up, whose length is announced; no chunk is
read from a released buffer; and what is sent are the bytes that the capture held at the lookup, from
the first on, and all of them after enough rounds. -/
def TrueDownload (v : GrowthPolicy) (c : Capture) (name : List UInt8)
    (ops₁ ops₂ ops₃ : List Capture.Op) (turns : List Turn) : Prop :=
  let c₁ := ops₁.foldl Capture.step c
  let c₂ := ops₂.foldl Capture.step c₁
  let c₃ := ops₃.foldl Capture.step c₂
  ∀ p bytes, capturePointer v c name = some p → c.getCaptureBytes name = some bytes →
    (Leads v c c₁ p ∧ Leads v c c₂ p ∧ Leads v c c₃ p) ∧
    ∃ d, prepare v c₁ c₂ c₃ p = some (bytes.length, d) ∧
      (loopAfter v c₃ d turns).dangling = false ∧
      (loopAfter v c₃ d turns).body = bytes.take (kStreamChunkBytes * rounds turns)

/-! ### Finished captures -/

variable {v : GrowthPolicy} {c c' c'' : Capture}

/-- `c'` is reached from `c` by calls. -/
structure Later (v : GrowthPolicy) (c c' : Capture) : Prop where
  inv : c'.Inv
  backed : c'.Backed v
  history : c.history <+: c'.history
  keeps : Capture.Keeps c.finishedPairs c'

lemma later_foldl (hinv : c.Inv) (hbacked : c.Backed v) (ops : List Capture.Op) :
    Later v c (ops.foldl Capture.step c) := by
  induction ops using List.reverseRecOn with
  | nil => exact ⟨hinv, hbacked, List.prefix_rfl, c.keeps_finishedPairs⟩
  | append_singleton ops op ih =>
    obtain ⟨hinv', hbacked', hpre, hkeeps⟩ := ih
    rw [List.foldl_append]
    exact ⟨hinv'.step op, hbacked'.step hinv' op, hpre.trans (hinv'.history_step op),
      hkeeps.step hinv' op⟩

/-- What is finished stays so. -/
lemma Later.finished (h : Later v c c') : c.finishedPairs <:+ c'.finishedPairs := by
  unfold Capture.finishedPairs
  by_cases hlive : 0 ≤ c'.store.currentBinIdx
  · rw [if_pos hlive]
    exact h.keeps.behind hlive
  · rw [if_neg hlive]
    exact h.keeps.suffix

lemma Later.trans (h : Later v c c') (h' : Later v c' c'') : Later v c c'' where
  inv := h'.inv
  backed := h'.backed
  history := h.history.trans h'.history
  keeps := ⟨h.finished.trans h'.keeps.suffix, fun hlive => h.finished.trans (h'.keeps.behind hlive)⟩

variable {i : ℕ} {cap : RamCapture}

/-- As long as a finished capture is in place, its pointer leads to all of its bytes. -/
lemma Later.deref_of_inPlace (h : Later v c c') (hinv : c.Inv) (hbacked : c.Backed v)
    (hcap : c.store.captures[i]? = some cap)
    (hi : evictions c.history + i < (files c.finishedPairs).length) (hplace : c.InPlace v c') :
    ∃ b, deref v c' ((slots v c.history).place i) = some b ∧
      (buffers v c'.history).owned[i]? = some b ∧ b.contents = cap.bytes := by
  obtain ⟨hlt, -⟩ := List.getElem?_eq_some_iff.mp hcap
  have hfind := (Capture.find_place_iff hinv hbacked h.inv h.backed h.history hlt).mpr hplace
  rw [Slots.find_place, List.getElem?_eq_getElem (hbacked.length_slots ▸ hlt)] at hfind
  have hkept := c.keeps_finishedPairs.getElem?_captures h.keeps hinv h.inv hplace.1.ge hi
    (hplace.1.trans_le (Nat.le_add_right _ i))
  rw [hplace.1, Nat.sub_self, Nat.sub_zero, hcap] at hkept
  have hget := congrArg (·[i]?) h.backed
  simp only [Buffers.contents, List.getElem?_map, hkept, Option.map_some] at hget
  obtain ⟨b, hb, hcontents⟩ := Option.map_eq_some_iff.mp hget
  refine ⟨b, ?_, hb, hcontents⟩
  rw [deref, hfind]
  exact hb

/-- A vector that neither moves nor grows stays in its buffer. -/
lemma id_eq_of_no_eviction (hinv' : c'.Inv) (hpre : c.history <+: c'.history)
    (hnone : evictions c'.history = evictions c.history) {b b' : Buffer UInt8}
    (hb : (buffers v c.history).owned[i]? = some b)
    (hb' : (buffers v c'.history).owned[i]? = some b') (hcontents : b'.contents = b.contents) :
    b'.id = b.id := by
  obtain ⟨t, ht, hcount⟩ := Capture.exists_evictions_add hpre
  have hoks : ∀ e ∈ t, ∀ victim before, e = .evicted victim before → victim = 0 := by
    rintro e he victim before rfl
    have hok := hinv'.events (.evicted victim before) (ht ▸ List.mem_append_right _ he)
    exact hok.1
  have hfollows := follows_foldl (Buffers.follows_self hb) v hoks
  rw [← buffers_append, ← ht, if_pos (by omega), show i - evictions t = i by omega] at hfollows
  obtain ⟨b'', hb'', -, hfits, -⟩ := hfollows.stored i rfl
  obtain rfl : b' = b'' := Option.some.inj (hb'.symm.trans hb'')
  exact (hfits (by rw [hcontents]; exact b.fits)).1

/-- In place up to the reading of the size, a finished capture is what the loop starts with. -/
lemma prepare_of_inPlace {c₁ c₂ c₃ : Capture} (hinv : c.Inv) (hbacked : c.Backed v)
    (hcap : c.store.captures[i]? = some cap)
    (hi : evictions c.history + i < (files c.finishedPairs).length) (h₁ : Later v c c₁)
    (h₂ : Later v c₁ c₂) (h₃ : Later v c₂ c₃) (hplace : c.InPlace v c₃) :
    (c.InPlace v c₁ ∧ c.InPlace v c₂) ∧ ∃ b, (buffers v c₃.history).owned[i]? = some b ∧
      b.contents = cap.bytes ∧ prepare v c₁ c₂ c₃ ((slots v c.history).place i)
        = some (cap.bytes.length, .start b.id b.contents.length) := by
  have hlater₂ := h₁.trans h₂
  have hplace₂ := hplace.of_prefix h₂.backed h₃.backed hlater₂.history h₃.history
  have hplace₁ := hplace₂.of_prefix h₁.backed h₂.backed h₁.history h₂.history
  obtain ⟨b₁, hderef₁, -, hbytes₁⟩ := h₁.deref_of_inPlace hinv hbacked hcap hi hplace₁
  obtain ⟨b₂, hderef₂, hb₂, hbytes₂⟩ := hlater₂.deref_of_inPlace hinv hbacked hcap hi hplace₂
  obtain ⟨b₃, hderef₃, hb₃, hbytes₃⟩ :=
    (hlater₂.trans h₃).deref_of_inPlace hinv hbacked hcap hi hplace
  have hid : b₃.id = b₂.id := id_eq_of_no_eviction h₃.inv h₃.history
    (hplace.1.trans hplace₂.1.symm) hb₂ hb₃ (hbytes₃.trans hbytes₂.symm)
  refine ⟨⟨hplace₁, hplace₂⟩, b₃, hb₃, hbytes₃, ?_⟩
  simp only [prepare, hderef₁, hderef₂, hderef₃, hbytes₁, hid]

/-- A download of a capture that is not live, with any calls of the sink between its steps, is a
true one exactly when up to the reading of the size no capture was evicted and all fit the buffer
that `captures_` had at the lookup, and before every round that has something to send at most as many
have been evicted as were stored before the capture. Until the loop begins, a session that starts
may spoil the download without any eviction; from then on only the eviction of the capture can. -/
theorem finished_download_iff (v : GrowthPolicy) (cfg : Capture.Config) (ops : List Capture.Op)
    {name : List UInt8} {i : ℕ} {bytes : List UInt8}
    (hidx : (Capture.run cfg ops).store.captures.findIdx? (·.name = name) = some i)
    (hbytes : (Capture.run cfg ops).getCaptureBytes name = some bytes)
    (hbin : (i : ℤ) ≠ (Capture.run cfg ops).store.currentBinIdx)
    (htxt : (i : ℤ) ≠ (Capture.run cfg ops).store.currentTxtIdx)
    (ops₁ ops₂ ops₃ : List Capture.Op) (turns : List Turn) :
    let c := Capture.run cfg ops
    let c₃ := Capture.run cfg (ops ++ ops₁ ++ ops₂ ++ ops₃)
    TrueDownload v c name ops₁ ops₂ ops₃ turns ↔ c.InPlace v c₃ ∧
      ∀ before after, turns = before ++ .chunk :: after →
        kStreamChunkBytes * rounds before < bytes.length →
        evictions (afterCalls c₃ before).history ≤ evictions c.history + i := by
  intro c c₃
  have hinv : c.Inv := Capture.inv_run cfg ops
  have hbacked : c.Backed v := Capture.backed_run v cfg ops
  have hlt := (List.findIdx?_eq_some_iff_getElem.mp hidx).1
  have hi := hinv.lt_of_not_live hlt hbin htxt
  obtain ⟨cap, hcap, rfl⟩ : ∃ cap, c.store.captures[i]? = some cap ∧ cap.bytes = bytes := by
    rw [Capture.getCaptureBytes, List.find?_eq_bind_findIdx?_getElem?, hidx, Option.bind_some]
      at hbytes
    exact Option.map_eq_some_iff.mp hbytes
  have hpointer : capturePointer v c name = some ((slots v c.history).place i) := by
    rw [capturePointer, hidx, Option.map_some]
  have hrun : c₃
      = ops₃.foldl Capture.step (ops₂.foldl Capture.step (ops₁.foldl Capture.step c)) := by
    simp [c₃, c, Capture.run]
  have h₁ := later_foldl hinv hbacked ops₁
  have h₂ := later_foldl h₁.inv h₁.backed ops₂
  have h₃ := later_foldl h₂.inv h₂.backed ops₃
  have hlater₂ := h₁.trans h₂
  have hlater₃ := hlater₂.trans h₃
  have hleads : ∀ {c'}, Later v c c' →
      (Leads v c c' ((slots v c.history).place i) ↔ c.InPlace v c') := fun h =>
    Capture.find_place_iff hinv hbacked h.inv h.backed h.history hlt
  rw [hrun]
  constructor
  · intro h
    obtain ⟨⟨-, -, hleads₃⟩, d, hprepare, hsent⟩ := h _ _ hpointer hbytes
    have hplace := (hleads hlater₃).mp hleads₃
    obtain ⟨-, b, hb, hcontents, hprepare'⟩ :=
      prepare_of_inPlace hinv hbacked hcap hi h₁ h₂ h₃ hplace
    obtain rfl : d = .start b.id b.contents.length := by
      rw [hprepare] at hprepare'
      exact (Prod.mk.inj (Option.some.inj hprepare')).2
    have hi₃ := hi.trans_le (List.IsPrefix.length_le (prefix_files hlater₃.finished))
    rw [← hplace.1] at hi₃ ⊢
    rw [← hcontents] at hsent ⊢
    exact ⟨hplace, (finished_loop_iff h₃.inv h₃.backed hb hi₃ turns).mp hsent⟩
  · rintro ⟨hplace, hgone⟩ p bytes hp hbytes'
    obtain rfl := Option.some.inj (hpointer.symm.trans hp)
    obtain rfl := Option.some.inj (hbytes.symm.trans hbytes')
    obtain ⟨⟨hplace₁, hplace₂⟩, b, hb, hcontents, hprepare⟩ :=
      prepare_of_inPlace hinv hbacked hcap hi h₁ h₂ h₃ hplace
    refine ⟨⟨(hleads h₁).mpr hplace₁, (hleads hlater₂).mpr hplace₂, (hleads hlater₃).mpr hplace⟩,
      _, hprepare, ?_⟩
    have hi₃ := hi.trans_le (List.IsPrefix.length_le (prefix_files hlater₃.finished))
    rw [← hplace.1] at hi₃ hgone
    rw [← hcontents] at hgone ⊢
    exact (finished_loop_iff h₃.inv h₃.backed hb hi₃ turns).mpr hgone

/-- A finished capture is fetched as the next session starts, with room for both. Nothing is
evicted, but `captures_` moves: before the loop that spoils the download, and later it does not. -/
theorem finished_download_iff_next_session :
    let c := Capture.run ⟨.bridgeOnly, ascii "Premier 24", 131072, 19200⟩
      [.sessionStart .quiet, .sessionEnd .quiet]
    TrueDownload .doubling c (ascii "wintex-boot0-001.bin") [] [] []
      [.call (.sessionStart .quiet), .chunk] ∧
    ¬ TrueDownload .doubling c (ascii "wintex-boot0-001.bin") [.sessionStart .quiet] [] []
      [.chunk] := by
  intro c
  have hstored : (c.getCaptureBytes (ascii "wintex-boot0-001.bin")).isSome = true := by
    decide +kernel
  obtain ⟨bytes, hbytes⟩ := Option.isSome_iff_exists.mp hstored
  have hiff := finished_download_iff .doubling ⟨.bridgeOnly, ascii "Premier 24", 131072, 19200⟩
    [.sessionStart .quiet, .sessionEnd .quiet] (by decide +kernel : _ = some 0) hbytes
    (by decide +kernel) (by decide +kernel)
  constructor
  · refine (hiff [] [] [] _).mpr ⟨by decide +kernel, fun before after hturns _ => ?_⟩
    match before with
    | [] => cases hturns
    | [turn] =>
      obtain rfl : .call (.sessionStart .quiet) = turn := (List.cons.inj hturns).1
      decide +kernel
    | _ :: _ :: before => simp at hturns
  · intro h
    have hplace := ((hiff [.sessionStart .quiet] [] [] _).mp h).1
    revert hplace
    decide +kernel

end TexecomBridge
