import TexecomBridge.Http.Filenames

/-!
# What the capture route serves

Every name the store can hold is accepted by the validator and different from the others, so the
listing shows each capture once and each can be fetched by its name. Every other tail is not found.
-/

namespace TexecomBridge

/-! ### The names -/

lemma isSafeChar_of_isNameChar {c : UInt8} (h : isNameChar c = true) : isSafeChar c = true := by
  have hall : ∀ n < 256, isNameChar (UInt8.ofNat n) = true → isSafeChar (UInt8.ofNat n) = true := by
    decide +kernel
  have hc := hall c.toNat c.toNat_lt
  rw [UInt8.ofNat_toNat] at hc
  exact hc h

/-- The validator accepts every name that a capture can have. -/
lemma isSafe_captureName (nowUnix nowMs seq : UInt32) {ext : List UInt8} (hext : IsExt ext) :
    isSafeCaptureFilename (Capture.captureName nowUnix nowMs seq ext) = true := by
  obtain ⟨rest, hrest⟩ : ∃ rest, Capture.captureName nowUnix nowMs seq ext
      = [119, 105, 110, 116, 101, 120] ++ rest := by
    obtain ⟨rest, hstem⟩ := exists_nameStem_eq nowUnix nowMs
    rw [Capture.captureName_eq nowUnix nowMs seq hext.length_eq, hstem, List.append_assoc]
    exact ⟨_, rfl⟩
  have hlen := length_captureName_le nowUnix nowMs seq hext
  have hchars := List.all_eq_true.mp (all_captureName nowUnix nowMs seq hext)
  rw [isSafeCaptureFilename_iff]
  refine ⟨by simp [hrest], hlen.trans (by decide), by simp [hrest], ?_, ext, ?_, ?_⟩
  · intro c hc
    exact (isSafeChar_iff c).mp (isSafeChar_of_isNameChar (hchars c hc))
  · have hsuffix := List.drop_suffix ((Capture.captureName nowUnix nowMs seq ext).length - 4)
      (Capture.captureName nowUnix nowMs seq ext)
    rw [drop_captureName nowUnix nowMs seq hext] at hsuffix
    exact hsuffix
  · obtain rfl | rfl := hext
    · exact Or.inl (SameText.refl _)
    · exact Or.inr (SameText.refl _)

namespace CaptureHttpHandler

/-- Only the `.bin` of a pair is sent as binary. -/
lemma isBin_captureName (nowUnix nowMs seq : UInt32) {ext : List UInt8} (hext : IsExt ext) :
    isBin (Capture.captureName nowUnix nowMs seq ext) = true ↔ ext = ascii ".bin" := by
  obtain ⟨rest, hstem⟩ := exists_nameStem_eq nowUnix nowMs
  have hlen : (Capture.captureName nowUnix nowMs seq ext).length ≥ 4 := by
    rw [Capture.captureName_eq nowUnix nowMs seq hext.length_eq]
    simp only [List.length_append, List.length_cons, hext.length_eq]
    omega
  have hdrop := drop_captureName nowUnix nowMs seq hext
  have hcString : cString ext = ext := by
    obtain rfl | rfl := hext <;> decide
  rw [isBin, decide_eq_true_eq, hdrop, hcString]
  exact and_iff_right hlen

/-! ### A download -/

/-- Sent whole, the chunks make up the bytes. -/
lemma flatten_sendChunks {p : HttpPlatform} (hsent : ∀ n, p.sent n = true) (i : ℕ)
    (src : List UInt8) : (sendChunks p i src).flatten = src := by
  induction i, src using sendChunks.induct p with
  | case1 i => simp [sendChunks]
  | case2 i src h hi ih =>
    rw [sendChunks, if_neg h, if_pos hi, List.flatten_cons, ih, List.take_append_drop]
  | case3 i src h hi => exact absurd (hsent i) hi

end CaptureHttpHandler

namespace CaptureHttpHandler

/-! ### The listing -/

/-- The rows of the listing are in the order of the names. -/
lemma sortedEntries_le (c : Capture) :
    ((sortedEntries c).map (·.name)).Pairwise (· ≤ ·) := by
  have hsorted : (sortedEntries c).Pairwise fun a b => decide (a.name ≤ b.name) = true := by
    refine List.pairwise_mergeSort ?_ ?_ c.listCaptures
    · intro a b d hab hbd
      exact decide_eq_true (List.le_trans (of_decide_eq_true hab) (of_decide_eq_true hbd))
    · intro a b
      simpa using List.le_total a.name b.name
  exact List.pairwise_map.mpr (hsorted.imp of_decide_eq_true)

/-! ### Dispatch -/

variable (h : CaptureHttpHandler) (p : HttpPlatform)

/-- The handler claims the prefix and everything below it. -/
lemma canHandle_get_iff (path : List UInt8) : h.canHandle ⟨.get, path⟩ = true ↔
    path = h.pathPrefix ∨ h.pathPrefix ++ ascii "/" <+: path := by
  have hslash : ascii "/" = [47] := rfl
  rw [hslash]
  constructor
  · intro hcan
    simp only [canHandle] at hcan
    split_ifs at hcan with _ heq hlen htake
    · exact Or.inl heq
    · refine Or.inr ⟨path.drop (h.pathPrefix.length + 1), ?_⟩
      have hlt : h.pathPrefix.length < path.length := not_lt.mp hlen
      have hchar : path[h.pathPrefix.length] = 47 := by
        rw [List.getD_eq_getElem?_getD, List.getElem?_eq_getElem hlt, Option.getD_some] at hcan
        exact of_decide_eq_true hcan
      conv_rhs => rw [← List.take_append_drop h.pathPrefix.length path]
      rw [not_not.mp htake, List.drop_eq_getElem_cons hlt, hchar, List.append_assoc]
      rfl
  · rintro (rfl | ⟨tail, rfl⟩)
    · simp [canHandle]
    · simp [canHandle]

lemma handleRequest_base :
    h.handleRequest p ⟨.get, h.pathPrefix⟩ = some (.redirect (h.pathPrefix ++ ascii "/")) := by
  simp [handleRequest]

/-- Below the prefix, the tail decides. -/
lemma handleRequest_tail (tail : List UInt8) :
    h.handleRequest p ⟨.get, h.pathPrefix ++ ascii "/" ++ tail⟩ = some
      (if tail = [] then h.sendListing p
      else if isSafeCaptureFilename tail then h.sendFile p tail else notFound) := by
  have hslash : ascii "/" = [47] := rfl
  have hdrop : (h.pathPrefix ++ [47] ++ tail).drop (h.pathPrefix.length + 1) = tail := by
    rw [List.drop_left' (by simp)]
  have hne : h.pathPrefix ++ [47] ++ tail ≠ h.pathPrefix := by simp
  have hlen : ¬ (h.pathPrefix ++ [47] ++ tail).length < h.pathPrefix.length + 1 := by simp
  rw [hslash]
  simp only [handleRequest, if_neg hne, if_neg hlen, hdrop]
  by_cases htail : tail = []
  · rw [if_pos htail, if_pos htail]
  · cases hsafe : isSafeCaptureFilename tail <;> simp [htail]

end CaptureHttpHandler

namespace Capture

open CaptureHttpHandler

/-- A stored capture is the `.bin` or the `.txt` of a pair in the archive, and named as such. -/
lemma isBin_of_mem_captures (cfg : Config) (ops : List Op) {cap : RamCapture}
    (hcap : cap ∈ (run cfg ops).store.captures) :
    isBin cap.name = true ↔ ∃ q ∈ archive (run cfg ops).history, cap = q.bin := by
  have hnumbered := (sequenced_run cfg ops).1.numbered
  have hbin : ∀ q ∈ archive (run cfg ops).history,
      isBin q.bin.name = true ∧ ¬ isBin q.txt.name = true := by
    intro q hq
    obtain ⟨k, -, -, nowUnix, nowMs, hbin, htxt⟩ := hnumbered.exists_named hq
    rw [hbin, htxt, isBin_captureName nowUnix nowMs _ (Or.inl rfl),
      isBin_captureName nowUnix nowMs _ (Or.inr rfl)]
    exact ⟨rfl, by decide⟩
  rw [(inv_run cfg ops).shelves.captures_eq] at hcap
  obtain ⟨q, hq, rfl | rfl⟩ := mem_files (List.mem_of_mem_drop hcap)
  · exact iff_of_true (hbin q hq).1 ⟨q, hq, rfl⟩
  · refine iff_of_false (hbin q hq).2 ?_
    rintro ⟨q', hq', heq⟩
    exact (hbin q hq).2 (heq ▸ (hbin q' hq').1)

lemma name_of_mem_captures (cfg : Config) (ops : List Op) {cap : RamCapture}
    (hcap : cap ∈ (run cfg ops).store.captures) :
    isSafeCaptureFilename cap.name = true ∧ cap.name.all isNameChar = true := by
  rw [(inv_run cfg ops).shelves.captures_eq] at hcap
  obtain ⟨nowUnix, nowMs, k, ext, -, -, hext, hname⟩ :=
    (sequenced_run cfg ops).1.numbered.name_eq (List.mem_of_mem_drop hcap)
  rw [hname]
  exact ⟨isSafe_captureName nowUnix nowMs _ hext, all_captureName nowUnix nowMs _ hext⟩

end Capture
end TexecomBridge
