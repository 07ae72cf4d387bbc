import TexecomBridge.Capture.Lifecycle

/-!
# The names of captures

A name is made of a clock, which may show anything, and of the sequence number of its session. The
number alone keeps the names apart until it wraps after 2 ^ 32 sessions.
-/

namespace TexecomBridge

/-! ### One name -/

/-- What comes before the sequence number. -/
def nameStem (nowUnix nowMs : UInt32) : List UInt8 :=
  if nowUnix > 0 then ascii "wintex-" ++ decimal nowUnix else ascii "wintex-boot" ++ decimal nowMs

lemma length_nameStem_le (nowUnix nowMs : UInt32) : (nameStem nowUnix nowMs).length ≤ 21 := by
  have hunix := length_decimal_le nowUnix
  have hms := length_decimal_le nowMs
  have h₁ : (ascii "wintex-").length = 7 := rfl
  have h₂ : (ascii "wintex-boot").length = 11 := rfl
  unfold nameStem
  split_ifs <;> rw [List.length_append] <;> omega

namespace Capture

/-- A name is never cut to its buffer. -/
lemma captureName_eq (nowUnix nowMs seq : UInt32) {ext : List UInt8} (hext : ext.length = 4) :
    captureName nowUnix nowMs seq ext = nameStem nowUnix nowMs ++ 45 :: (decimal3 seq ++ ext) := by
  have htext : (if nowUnix > 0 then
        ascii "wintex-" ++ decimal nowUnix ++ ascii "-" ++ decimal3 seq ++ ext
      else ascii "wintex-boot" ++ decimal nowMs ++ ascii "-" ++ decimal3 seq ++ ext)
      = nameStem nowUnix nowMs ++ 45 :: (decimal3 seq ++ ext) := by
    have hdash : ascii "-" = [45] := rfl
    unfold nameStem
    split_ifs <;> simp [hdash]
  have hstem := length_nameStem_le nowUnix nowMs
  have hseq := length_decimal3_le seq
  rw [captureName, htext, snprintf, List.take_of_length_le]
  simp only [List.length_append, List.length_cons, hext]
  omega

end Capture

/-- What follows the last `c`. -/
def afterLast (c : UInt8) (s : List UInt8) : List UInt8 := (s.reverse.takeWhile (· ≠ c)).reverse

lemma afterLast_append {c : UInt8} (xs : List UInt8) {ys : List UInt8} (h : c ∉ ys) :
    afterLast c (xs ++ c :: ys) = ys := by
  have hys : ∀ y ∈ ys.reverse, decide (y ≠ c) = true := by
    intro y hy
    have hne : y ≠ c := fun heq => h (heq ▸ List.mem_reverse.mp hy)
    exact decide_eq_true hne
  rw [afterLast, List.reverse_append, List.reverse_cons, List.append_assoc,
    List.takeWhile_append_of_pos hys]
  simp

/-- The extension of one of the two captures of a pair. -/
def IsExt (ext : List UInt8) : Prop := ext = ascii ".bin" ∨ ext = ascii ".txt"

lemma IsExt.length_eq {ext : List UInt8} (h : IsExt ext) : ext.length = 4 := by
  obtain rfl | rfl := h <;> rfl

lemma dash_not_mem {ext : List UInt8} (h : IsExt ext) (seq : UInt32) :
    45 ∉ decimal3 seq ++ ext := by
  intro hmem
  rcases List.mem_append.mp hmem with hmem | hmem
  · exact absurd (digit_of_mem_decimal3 hmem).1 (by decide)
  · obtain rfl | rfl := h
    · exact absurd hmem (by decide)
    · exact absurd hmem (by decide)

namespace Capture

/-- Names with different sequence numbers, and names with different extensions, are different. -/
lemma captureName_inj {nowUnix nowMs seq nowUnix' nowMs' seq' : UInt32} {ext ext' : List UInt8}
    (hext : IsExt ext) (hext' : IsExt ext')
    (h : captureName nowUnix nowMs seq ext = captureName nowUnix' nowMs' seq' ext') :
    seq = seq' ∧ ext = ext' := by
  rw [captureName_eq nowUnix nowMs seq hext.length_eq,
    captureName_eq nowUnix' nowMs' seq' hext'.length_eq] at h
  have hlast := congrArg (afterLast 45) h
  rw [afterLast_append _ (dash_not_mem hext seq), afterLast_append _ (dash_not_mem hext' seq')]
    at hlast
  have hlen : ext.length = ext'.length := hext.length_eq.trans hext'.length_eq.symm
  obtain ⟨hseq, hexts⟩ := List.append_inj' hlast hlen
  exact ⟨decimal3_injective hseq, hexts⟩

end Capture

/-! ### The characters of a name -/

/-- Digits, lower-case letters, `-` and `.`. -/
def isNameChar (c : UInt8) : Bool :=
  (48 ≤ c ∧ c ≤ 57) ∨ (97 ≤ c ∧ c ≤ 122) ∨ c = 45 ∨ c = 46

lemma isNameChar_of_digit {c : UInt8} (h : 48 ≤ c ∧ c ≤ 57) : isNameChar c = true :=
  decide_eq_true (Or.inl h)

lemma IsExt.all {ext : List UInt8} (h : IsExt ext) : ext.all isNameChar = true := by
  obtain rfl | rfl := h <;> decide

lemma all_nameStem (nowUnix nowMs : UInt32) : (nameStem nowUnix nowMs).all isNameChar = true := by
  have hdigits : ∀ n : UInt32, (decimal n).all isNameChar = true := fun n =>
    List.all_eq_true.mpr fun c hc => isNameChar_of_digit (digit_of_mem_decimal hc)
  have h₁ : (ascii "wintex-").all isNameChar = true := by decide
  have h₂ : (ascii "wintex-boot").all isNameChar = true := by decide
  unfold nameStem
  split_ifs <;> rw [List.all_append, hdigits] <;> simp [h₁, h₂]

lemma all_captureName (nowUnix nowMs seq : UInt32) {ext : List UInt8} (hext : IsExt ext) :
    (Capture.captureName nowUnix nowMs seq ext).all isNameChar = true := by
  have hseq : (decimal3 seq).all isNameChar = true :=
    List.all_eq_true.mpr fun c hc => isNameChar_of_digit (digit_of_mem_decimal3 hc)
  have hdash : isNameChar 45 = true := by decide
  rw [Capture.captureName_eq nowUnix nowMs seq hext.length_eq, List.all_append, List.all_cons,
    List.all_append, all_nameStem, hdash, hseq, hext.all]
  rfl

lemma drop_captureName (nowUnix nowMs seq : UInt32) {ext : List UInt8} (hext : IsExt ext) :
    let name := Capture.captureName nowUnix nowMs seq ext
    name.drop (name.length - 4) = ext := by
  intro name
  have hname : name = (nameStem nowUnix nowMs ++ 45 :: decimal3 seq) ++ ext := by
    simp [name, Capture.captureName_eq nowUnix nowMs seq hext.length_eq]
  rw [hname, List.length_append, hext.length_eq, Nat.add_sub_cancel, List.drop_left]

lemma exists_nameStem_eq (nowUnix nowMs : UInt32) :
    ∃ rest, nameStem nowUnix nowMs = ascii "wintex" ++ rest := by
  unfold nameStem
  split_ifs
  · exact ⟨ascii "-" ++ decimal nowUnix, rfl⟩
  · exact ⟨ascii "-boot" ++ decimal nowMs, rfl⟩

lemma length_captureName_le (nowUnix nowMs seq : UInt32) {ext : List UInt8} (hext : IsExt ext) :
    (Capture.captureName nowUnix nowMs seq ext).length ≤ 36 := by
  have hstem := length_nameStem_le nowUnix nowMs
  have hseq := length_decimal3_le seq
  rw [Capture.captureName_eq nowUnix nowMs seq hext.length_eq, List.length_append, List.length_cons,
    List.length_append, hext.length_eq]
  omega

/-! ### The names of an archive -/

/-- The pair has the names of the session with this sequence number. -/
def CapturePair.Named (seq : UInt32) (q : CapturePair) : Prop :=
  ∃ nowUnix nowMs, q.bin.name = Capture.captureName nowUnix nowMs seq (ascii ".bin") ∧
    q.txt.name = Capture.captureName nowUnix nowMs seq (ascii ".txt")

/-- The sessions are numbered from 1 on, newest first. -/
def Numbered : List CapturePair → Prop
  | [] => True
  | q :: ps => q.Named (UInt32.ofNat (ps.length + 1)) ∧ Numbered ps

lemma Numbered.exists_named {ps : List CapturePair} (h : Numbered ps) {q : CapturePair}
    (hq : q ∈ ps) : ∃ k, 1 ≤ k ∧ k ≤ ps.length ∧ q.Named (UInt32.ofNat k) := by
  induction ps with
  | nil => cases hq
  | cons p ps ih =>
    rcases List.mem_cons.mp hq with rfl | hq
    · exact ⟨ps.length + 1, Nat.le_add_left 1 _, le_rfl, h.1⟩
    · obtain ⟨k, hk, hle, hnamed⟩ := ih h.2 hq
      exact ⟨k, hk, hle.trans (Nat.le_succ _), hnamed⟩

lemma mem_files {ps : List CapturePair} {cap : RamCapture} (h : cap ∈ files ps) :
    ∃ q ∈ ps, cap = q.bin ∨ cap = q.txt := by
  induction ps with
  | nil => cases h
  | cons p ps ih =>
    rcases List.mem_append.mp h with h | h
    · obtain ⟨q, hq, hcap⟩ := ih h
      exact ⟨q, List.mem_cons_of_mem _ hq, hcap⟩
    · exact ⟨p, List.mem_cons_self, List.mem_pair.mp h⟩

/-- Every capture has the sequence number of its session in its name. -/
lemma Numbered.name_eq {ps : List CapturePair} (h : Numbered ps) {cap : RamCapture}
    (hcap : cap ∈ files ps) : ∃ nowUnix nowMs k ext, 1 ≤ k ∧ k ≤ ps.length ∧ IsExt ext ∧
      cap.name = Capture.captureName nowUnix nowMs (UInt32.ofNat k) ext := by
  obtain ⟨q, hq, hcap⟩ := mem_files hcap
  obtain ⟨k, hk, hle, nowUnix, nowMs, hbin, htxt⟩ := h.exists_named hq
  obtain rfl | rfl := hcap
  · exact ⟨nowUnix, nowMs, k, _, hk, hle, Or.inl rfl, hbin⟩
  · exact ⟨nowUnix, nowMs, k, _, hk, hle, Or.inr rfl, htxt⟩

private lemma ofNat_ne_of_lt {k n : ℕ} (hk : k < n) (hn : n < 2 ^ 32) :
    UInt32.ofNat k ≠ UInt32.ofNat n := by
  intro h
  have hnat := congrArg UInt32.toNat h
  rw [UInt32.toNat_ofNat', UInt32.toNat_ofNat', Nat.mod_eq_of_lt (hk.trans hn),
    Nat.mod_eq_of_lt hn] at hnat
  omega

/-- As long as the numbers have not wrapped, all names are different. -/
lemma Numbered.nodup_names {ps : List CapturePair} (h : Numbered ps) (hfew : ps.length < 2 ^ 32) :
    ((files ps).map (·.name)).Nodup := by
  induction ps with
  | nil => exact List.nodup_nil
  | cons q ps ih =>
    obtain ⟨⟨nowUnix, nowMs, hbin, htxt⟩, hrest⟩ := h
    rw [List.length_cons] at hfew
    have hold : ∀ ext, IsExt ext → Capture.captureName nowUnix nowMs
        (UInt32.ofNat (ps.length + 1)) ext ∉ (files ps).map (·.name) := by
      intro ext hext hmem
      obtain ⟨cap, hcap, hname⟩ := List.mem_map.mp hmem
      obtain ⟨_, _, k, ext', -, hle, hext', hname'⟩ := hrest.name_eq hcap
      have hseq := (Capture.captureName_inj hext' hext (hname'.symm.trans hname)).1
      exact ofNat_ne_of_lt (Nat.lt_succ_of_le hle) hfew hseq
    have hpair : q.bin.name ≠ q.txt.name := by
      rw [hbin, htxt]
      intro heq
      exact absurd (Capture.captureName_inj (Or.inl rfl) (Or.inr rfl) heq).2 (by decide)
    rw [files, List.map_append, List.nodup_append]
    refine ⟨ih hrest ((Nat.lt_succ_self _).trans hfew), ?_, ?_⟩
    · simpa using hpair
    · intro name hname name' hname' heq
      subst heq
      rcases List.mem_pair.mp hname' with rfl | rfl
      · have hmem : q.bin.name ∈ (files ps).map (·.name) := hname
        rw [hbin] at hmem
        exact hold _ (Or.inl rfl) hmem
      · have hmem : q.txt.name ∈ (files ps).map (·.name) := hname
        rw [htxt] at hmem
        exact hold _ (Or.inr rfl) hmem

/-! ### Runs -/

lemma CapturePair.names_extendEvents (es : List Event) (ms : UInt32) (q : CapturePair) :
    (q.extendEvents es ms).bin.name = q.bin.name ∧ (q.extendEvents es ms).txt.name = q.txt.name := by
  induction es generalizing q with
  | nil => exact ⟨rfl, rfl⟩
  | cons e es ih => exact ih (q.extend e.serialize ms)

lemma Numbered.extendEvents {q : CapturePair} {ps : List CapturePair} (h : Numbered (q :: ps))
    (es : List Event) (ms : UInt32) : Numbered (q.extendEvents es ms :: ps) := by
  obtain ⟨⟨nowUnix, nowMs, hbin, htxt⟩, hrest⟩ := h
  obtain ⟨hbin', htxt'⟩ := q.names_extendEvents es ms
  exact ⟨⟨nowUnix, nowMs, hbin'.trans hbin, htxt'.trans htxt⟩, hrest⟩

namespace Capture

def Op.isStart : Op → Bool
  | .sessionStart _ => true
  | _ => false

/-- The number of sessions started. -/
def sessions (ops : List Op) : ℕ := ops.countP Op.isStart

variable {c : Capture}

lemma fileSeq_openNewCapture (p : Platform) (c : Capture) :
    (c.openNewCapture p).fileSeq = c.fileSeq + 1 := by
  obtain ⟨_, _, _, h⟩ := enforceBudget_frame (c.closeCurrentCapture.pushNewPair p)
  obtain ⟨_, _, hclose⟩ := closeCurrentCapture_frame c
  rw [openNewCapture, h, hclose]
  rfl

/-- A flush extends the newest pair or leaves the archive alone. -/
lemma Inv.archive_flushRing (h : c.Inv) (p : Platform) :
    (c.flushRing p).fileSeq = c.fileSeq ∧
      (archive (c.flushRing p).history = archive c.history ∨
        ∃ q older es, archive c.history = q :: older ∧
          archive (c.flushRing p).history = q.extendEvents es p.millis :: older) := by
  obtain ⟨_, _, _, _, _, _, -, hframe⟩ := h.flushRing_frame p
  refine ⟨by rw [hframe], ?_⟩
  by_cases hlive : c.isLive
  · obtain ⟨q, older, harchive, -, -⟩ := h.exists_live hlive
    exact Or.inr ⟨q, older, _, harchive, (h.flushRing_of_isLive hlive p harchive).2⟩
  · obtain ⟨_, -, hflush⟩ := h.flushRing_of_not_isLive hlive p
    exact Or.inl (by rw [hflush])

/-- The sequence number counts the pairs, and each was named after it. -/
structure Sequenced (c : Capture) : Prop where
  seq : c.fileSeq = UInt32.ofNat (archive c.history).length
  numbered : Numbered (archive c.history)

lemma Sequenced.flushRing (h : c.Sequenced) (hc : c.Inv) (p : Platform) :
    (c.flushRing p).Sequenced ∧
      (archive (c.flushRing p).history).length = (archive c.history).length := by
  obtain ⟨hseq, harchive | ⟨q, older, es, hold, harchive⟩⟩ := hc.archive_flushRing p
  · rw [harchive]
    exact ⟨⟨by rw [hseq, harchive, h.seq], by rw [harchive]; exact h.numbered⟩, rfl⟩
  · have hnumbered := h.numbered
    rw [hold] at hnumbered
    refine ⟨⟨?_, ?_⟩, ?_⟩
    · rw [hseq, harchive, h.seq, hold, List.length_cons, List.length_cons]
    · rw [harchive]
      exact hnumbered.extendEvents es p.millis
    · rw [harchive, hold, List.length_cons, List.length_cons]

/-- A new pair gets the next number. -/
lemma Sequenced.openNewCapture (h : c.Sequenced) (p : Platform) :
    (c.openNewCapture p).Sequenced ∧
      (archive (c.openNewCapture p).history).length = (archive c.history).length + 1 := by
  have harchive := archive_openNewCapture p c
  have hnext : c.fileSeq + 1 = UInt32.ofNat ((archive c.history).length + 1) := by
    rw [h.seq, UInt32.ofNat_add]
    rfl
  refine ⟨⟨?_, ?_⟩, ?_⟩
  · rw [fileSeq_openNewCapture, harchive, List.length_cons, hnext]
  · rw [harchive]
    refine ⟨⟨Platform.nowUnix p, p.millis, ?_, ?_⟩, h.numbered⟩
    · rw [← hnext]
      rfl
    · rw [← hnext]
      rfl
  · rw [harchive, List.length_cons]

lemma Sequenced.step (h : c.Sequenced) (hc : c.Inv) (op : Op) :
    (Capture.step c op).Sequenced ∧ (archive (Capture.step c op).history).length
      = (archive c.history).length + if op.isStart = true ∧ c.mode.opens then 1 else 0 := by
  cases op with
  | sessionStart p =>
    have hstarted : (c.started p).Sequenced := ⟨h.seq, h.numbered⟩
    rw [Capture.step]
    by_cases hmode : c.mode.opens
    · obtain ⟨hopen, hlen⟩ := hstarted.openNewCapture p
      rw [onSessionStart_of_opens hmode, if_pos ⟨rfl, hmode⟩]
      exact ⟨hopen, hlen⟩
    · rw [onSessionStart_of_not_opens hmode, if_neg (fun hopens => hmode hopens.2)]
      exact ⟨hstarted, rfl⟩
  | sessionEnd p =>
    obtain ⟨hflush, hlen⟩ := h.flushRing hc p
    obtain ⟨_, _, hclose⟩ := closeCurrentCapture_frame (c.flushRing p)
    rw [Capture.step, onSessionEnd, hclose]
    exact ⟨⟨hflush.seq, hflush.numbered⟩, hlen⟩
  | record p direction bytes =>
    obtain ⟨_, _, _, hframe⟩ := record_frame p direction bytes c
    rw [Capture.step, hframe]
    exact ⟨⟨h.seq, h.numbered⟩, rfl⟩
  | loop p =>
    obtain ⟨hflush, hlen⟩ := h.flushRing hc p
    rw [Capture.step, loop_eq_flushRing]
    exact ⟨hflush, hlen⟩

/-- Sessions are numbered in the order they were started. In a mode that opens captures there is one
pair for each, and otherwise there is none. -/
lemma sequenced_run (cfg : Config) (ops : List Op) : (run cfg ops).Sequenced ∧
    (archive (run cfg ops).history).length = if cfg.mode.opens then sessions ops else 0 := by
  induction ops using List.reverseRecOn with
  | nil => exact ⟨⟨rfl, trivial⟩, (ite_self 0).symm⟩
  | append_singleton ops op ih =>
    obtain ⟨h, hlen⟩ := ih
    obtain ⟨hstep, hlen'⟩ := h.step (inv_run cfg ops) op
    rw [run_concat]
    refine ⟨hstep, ?_⟩
    rw [hlen', hlen, mode_run, sessions, sessions, List.countP_append, List.countP_singleton]
    by_cases hmode : cfg.mode.opens
    · simp only [hmode, and_true, if_true]
    · simp only [hmode, and_false, if_false]

lemma length_archive_le (cfg : Config) (ops : List Op) :
    (archive (run cfg ops).history).length ≤ sessions ops := by
  rw [(sequenced_run cfg ops).2]
  split_ifs
  · exact le_rfl
  · exact Nat.zero_le _

/-- The names of the store are different as long as there were fewer than 2 ^ 32 sessions. -/
lemma nodup_names_run (cfg : Config) {ops : List Op} (hfew : sessions ops < 2 ^ 32) :
    ((run cfg ops).store.captures.map (·.name)).Nodup := by
  have hnumbered := (sequenced_run cfg ops).1.numbered
  have hfew' := (length_archive_le cfg ops).trans_lt hfew
  rw [(inv_run cfg ops).shelves.captures_eq]
  exact (hnumbered.nodup_names hfew').sublist ((List.drop_sublist _ _).map _)

end Capture
end TexecomBridge
