import TexecomBridge.Capture.Hexdump
import TexecomBridge.Library.Lists

/-!
# The store and its live pair

What appending, choosing a victim and evicting do to a store whose live indices designate its last
two captures, and to one with nothing live.
-/

namespace TexecomBridge

/-- The `.bin` and `.txt` of one session. -/
structure CapturePair where
  bin : RamCapture
  txt : RamCapture
  deriving DecidableEq

/-- The rows of the hex sidecar for `bytes`, which lie at file offset `off`. -/
def hexdumpRows (off : ℕ) (bytes : List UInt8) : List (List UInt8) :=
  if bytes = [] then []
  else rowText (UInt32.ofNat off) (bytes.take 16) :: hexdumpRows (off + 16) (bytes.drop 16)
termination_by bytes.length
decreasing_by
  rename_i h
  have := List.length_pos_iff.mpr h
  simp only [List.length_drop]
  omega

lemma hexdumpRows_nil (off : ℕ) : hexdumpRows off [] = [] := by
  rw [hexdumpRows, if_pos rfl]

lemma hexdumpRows_of_ne_nil (off : ℕ) {bytes : List UInt8} (h : bytes ≠ []) :
    hexdumpRows off bytes
      = rowText (UInt32.ofNat off) (bytes.take 16) :: hexdumpRows (off + 16) (bytes.drop 16) := by
  rw [hexdumpRows, if_neg h]

/-- The capture after `bytes` were appended to it at time `ms`. -/
def RamCapture.append (bytes : List UInt8) (ms : UInt32) (c : RamCapture) : RamCapture :=
  { c with bytes := c.bytes ++ bytes, mtimeMs := ms }

/-- The pair after a flushed write: the bytes at the end of the `.bin`, their rows at the end of
the `.txt`. -/
def CapturePair.extend (bytes : List UInt8) (ms : UInt32) (p : CapturePair) : CapturePair where
  bin := p.bin.append bytes ms
  txt := p.txt.append (hexdumpRows p.bin.bytes.length bytes).flatten ms

/-- The number of bytes the pair holds. -/
def CapturePair.size (p : CapturePair) : ℕ := p.bin.bytes.length + p.txt.bytes.length

/-- The number of bytes in a list of captures. -/
def totalBytes (cs : List RamCapture) : ℕ := (cs.map (·.bytes.length)).sum

@[simp] lemma totalBytes_nil : totalBytes [] = 0 := rfl

@[simp] lemma totalBytes_cons (c : RamCapture) (cs : List RamCapture) :
    totalBytes (c :: cs) = c.bytes.length + totalBytes cs := by
  simp [totalBytes]

@[simp] lemma totalBytes_append (cs ds : List RamCapture) :
    totalBytes (cs ++ ds) = totalBytes cs + totalBytes ds := by
  simp [totalBytes]

namespace Store

/-- Nothing is live. -/
structure Closed (s : Store) : Prop where
  bin_eq : s.currentBinIdx = -1
  txt_eq : s.currentTxtIdx = -1

/-- The pair `p` is live, in the last two positions behind `old`. -/
structure Live (s : Store) (old : List RamCapture) (p : CapturePair) : Prop where
  captures_eq : s.captures = old ++ [p.bin, p.txt]
  bin_eq : s.currentBinIdx = old.length
  txt_eq : s.currentTxtIdx = old.length + 1

/-- The byte counter is right. -/
def Accounted (s : Store) : Prop := s.totalBytesUsed = totalBytes s.captures

variable {s : Store} {old : List RamCapture} {p : CapturePair}

lemma closed_init : init.Closed := ⟨rfl, rfl⟩

lemma accounted_init : init.Accounted := rfl

lemma Live.bin_nonneg (h : s.Live old p) : ¬ s.currentBinIdx < 0 := by
  rw [h.bin_eq]
  omega

lemma Closed.bin_neg (h : s.Closed) : s.currentBinIdx < 0 := by
  rw [h.bin_eq]
  decide

lemma Live.length_eq (h : s.Live old p) : s.captures.length = old.length + 2 := by
  simp [h.captures_eq]

lemma Live.sizeAt_bin (h : s.Live old p) : s.sizeAt s.currentBinIdx = p.bin.bytes.length := by
  simp [sizeAt, h.bin_eq, h.captures_eq]

/-! ### Appending -/

lemma Live.appendTo_bin (h : s.Live old p) (ms : UInt32) {bytes : List UInt8} (hb : bytes ≠ []) :
    (s.appendTo ms s.currentBinIdx bytes).Live old { p with bin := p.bin.append bytes ms } := by
  have hidx : ¬ (s.currentBinIdx < 0 ∨ (s.captures.length : ℤ) ≤ s.currentBinIdx) := by
    rw [h.bin_eq, h.length_eq]
    push Not
    exact ⟨by omega, by omega⟩
  rw [appendTo, if_neg hidx, if_neg hb]
  refine ⟨?_, h.bin_eq, h.txt_eq⟩
  simp only [h.bin_eq, Int.toNat_natCast, h.captures_eq]
  exact List.modify_split old p.bin [p.txt] _

lemma Live.appendTo_txt (h : s.Live old p) (ms : UInt32) {bytes : List UInt8} (hb : bytes ≠ []) :
    (s.appendTo ms s.currentTxtIdx bytes).Live old { p with txt := p.txt.append bytes ms } := by
  have hidx : ¬ (s.currentTxtIdx < 0 ∨ (s.captures.length : ℤ) ≤ s.currentTxtIdx) := by
    rw [h.txt_eq, h.length_eq]
    push Not
    exact ⟨by omega, by omega⟩
  rw [appendTo, if_neg hidx, if_neg hb]
  refine ⟨?_, h.bin_eq, h.txt_eq⟩
  have hnat : ((old.length : ℤ) + 1).toNat = (old ++ [p.bin]).length := by simp
  have hsplit : old ++ [p.bin, p.txt] = (old ++ [p.bin]) ++ p.txt :: [] := by simp
  simp only [h.txt_eq, h.captures_eq]
  rw [hnat, hsplit, List.modify_split]
  simp [RamCapture.append]

private lemma totalBytes_modify (cs : List RamCapture) {i : ℕ} (hi : i < cs.length)
    (bytes : List UInt8) (ms : UInt32) :
    totalBytes (cs.modify i fun c => { c with bytes := c.bytes ++ bytes, mtimeMs := ms })
      = totalBytes cs + bytes.length := by
  induction cs generalizing i with
  | nil => simp at hi
  | cons c cs ih =>
    cases i with
    | zero => simp; omega
    | succ i =>
      simp only [List.length_cons, Nat.add_lt_add_iff_right] at hi
      simp only [List.modify_succ_cons, totalBytes_cons, ih hi]
      omega

lemma Accounted.appendTo (h : s.Accounted) (ms : UInt32) (idx : ℤ) (bytes : List UInt8) :
    (s.appendTo ms idx bytes).Accounted := by
  unfold Store.appendTo
  split_ifs with hidx hb
  · exact h
  · exact h
  · push Not at hidx
    simp only [Accounted]
    rw [totalBytes_modify _ (by omega), h]

private lemma Accounted.writeHexdumpRows (h : s.Accounted) (ms : UInt32) (off : ℕ)
    (bytes : List UInt8) : (writeHexdumpRows ms off bytes s).Accounted := by
  induction off, bytes, s using writeHexdumpRows.induct ms with
  | case1 off s => rwa [TexecomBridge.writeHexdumpRows, if_pos rfl]
  | case2 off bytes s hb ih =>
    rw [TexecomBridge.writeHexdumpRows, if_neg hb]
    exact ih (h.appendTo ms _ _)

lemma Accounted.writeHexdump (h : s.Accounted) (ms : UInt32) (off : ℕ) (bytes : List UInt8) :
    (writeHexdump ms off bytes s).Accounted := by
  unfold TexecomBridge.writeHexdump
  split_ifs
  · exact h
  · exact h.writeHexdumpRows ms off bytes

private lemma Live.writeHexdumpRows (h : s.Live old p) (ms : UInt32) (off : ℕ)
    {bytes : List UInt8} (hb : bytes ≠ []) :
    (writeHexdumpRows ms off bytes s).Live old
      { p with txt := p.txt.append (hexdumpRows off bytes).flatten ms } := by
  induction off, bytes, s using writeHexdumpRows.induct ms generalizing p with
  | case1 off s => exact absurd rfl hb
  | case2 off bytes s hb ih =>
    have hrow : (hexdumpLine (UInt32.ofNat off) (bytes.take 16)).written
        = rowText (UInt32.ofNat off) (bytes.take 16) := (hexdumpLine_holds _ (by simp)).written
    have hne : rowText (UInt32.ofNat off) (bytes.take 16) ≠ [] := by
      rw [← List.length_pos_iff, length_rowText]
      omega
    have hlive := h.appendTo_txt ms hne
    rw [TexecomBridge.writeHexdumpRows, if_neg hb, hexdumpRows_of_ne_nil off hb]
    rw [hrow] at ih ⊢
    by_cases hrest : bytes.drop 16 = []
    · simp only [hrest, TexecomBridge.writeHexdumpRows, hexdumpRows_nil, List.flatten_cons,
        List.flatten_nil, List.append_nil, ↓reduceIte]
      exact hlive
    · have := ih hlive hrest
      simpa [RamCapture.append, List.append_assoc] using this

/-- The rows of the hex sidecar go to the end of the live `.txt`. -/
lemma Live.writeHexdump (h : s.Live old p) (ms : UInt32) (off : ℕ) {bytes : List UInt8}
    (hb : bytes ≠ []) :
    (writeHexdump ms off bytes s).Live old
      { p with txt := p.txt.append (hexdumpRows off bytes).flatten ms } := by
  have htxt : ¬ s.currentTxtIdx < 0 := by
    rw [h.txt_eq]
    omega
  rw [TexecomBridge.writeHexdump, if_neg htxt]
  exact h.writeHexdumpRows ms off hb

/-! ### Evicting -/

lemma Live.victim_nil (h : s.Live [] p) : s.victim = none := by
  simp [victim, h.length_eq, h.bin_eq, h.txt_eq, List.range_succ]

lemma Live.victim_cons {o : RamCapture} (h : s.Live (o :: old) p) : s.victim = some 0 := by
  have hbin := h.bin_eq
  have htxt := h.txt_eq
  simp only [List.length_cons] at hbin htxt
  rw [victim, h.length_eq, List.range_succ_eq_map, List.find?_cons_of_pos]
  simp only [decide_eq_true_eq]
  omega

lemma Closed.victim_nil (hc : s.captures = []) : s.victim = none := by
  simp [victim, hc]

lemma Closed.victim_cons (h : s.Closed) {o : RamCapture} (hc : s.captures = o :: old) :
    s.victim = some 0 := by
  rw [victim, hc, List.length_cons, List.range_succ_eq_map, List.find?_cons_of_pos]
  simp [h.bin_eq, h.txt_eq]

lemma captures_evict_zero {o : RamCapture} (hc : s.captures = o :: old) :
    (s.evict 0).captures = old := by
  simp [evict, hc]

lemma Live.evict {o : RamCapture} (h : s.Live (o :: old) p) : (s.evict 0).Live old p := by
  refine ⟨by simp [Store.evict, h.captures_eq], ?_, ?_⟩
  · simp only [Store.evict, h.bin_eq, List.length_cons]
    rw [if_pos (by omega)]
    omega
  · simp only [Store.evict, h.txt_eq, List.length_cons]
    rw [if_pos (by omega)]
    omega

lemma Closed.evict (h : s.Closed) (v : ℕ) : (s.evict v).Closed := by
  refine ⟨?_, ?_⟩
  · simp only [Store.evict, h.bin_eq]
    rw [if_neg (by omega)]
  · simp only [Store.evict, h.txt_eq]
    rw [if_neg (by omega)]

lemma Accounted.evict {o : RamCapture} (h : s.Accounted) (hc : s.captures = o :: old) :
    (s.evict 0).Accounted := by
  simp only [Accounted, captures_evict_zero hc]
  simp only [Accounted, hc, totalBytes_cons] at h
  simp only [Store.evict, hc, List.getElem?_cons_zero, Option.map_some, Option.getD_some]
  omega

end Store
end TexecomBridge
