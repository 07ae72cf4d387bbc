import TexecomBridge.Capture.Names

/-!
# The text buffers of a new capture

Opening a capture formats two names and a banner. The names always fit their buffers. The banner
carries the panel name, which may have any length, and is copied by the length that `snprintf`
asked for, which is what it stored only as long as the text fits.
-/

namespace TexecomBridge

/-- The name of a capture, before it is cut to its buffer. -/
def nameText (nowUnix nowMs seq : UInt32) (ext : List UInt8) : List UInt8 :=
  if nowUnix > 0 then ascii "wintex-" ++ decimal nowUnix ++ ascii "-" ++ decimal3 seq ++ ext
  else ascii "wintex-boot" ++ decimal nowMs ++ ascii "-" ++ decimal3 seq ++ ext

namespace Capture

/-- No name is cut, whatever the clocks show and however large the number is. -/
lemma captureName_eq_nameText (nowUnix nowMs seq : UInt32) {ext : List UInt8} (hext : IsExt ext) :
    captureName nowUnix nowMs seq ext = nameText nowUnix nowMs seq ext := by
  have hlength := length_captureName_le nowUnix nowMs seq hext
  have hcut : captureName nowUnix nowMs seq ext = (nameText nowUnix nowMs seq ext).take 63 := rfl
  rw [hcut, List.length_take] at hlength
  rw [hcut, List.take_of_length_le (by omega)]

/-! ### The banner buffer -/

variable {text : List UInt8}

lemma length_snprintf (size : ℕ) (text : List UInt8) :
    (snprintf size text).length = min (size - 1) text.length :=
  List.length_take

/-- The reported length is the stored one exactly when the text fits. -/
lemma bannerN_eq_stored_iff : bannerN text = (snprintf 128 text).length ↔ text.length ≤ 127 := by
  rw [bannerN, length_snprintf]
  split_ifs <;> omega

/-! ### Opening -/

/-- The banner of a new session, before it is cut to its buffer. -/
def banner (p : Platform) (c : Capture) : List UInt8 :=
  bannerText c.panelName c.baudRate (Platform.nowUnix p)

/-- `open_new_capture_` up to its call of `enforce_budget_`. -/
def opened (p : Platform) (c : Capture) : Capture := c.closeCurrentCapture.pushNewPair p

/-- Only characters that are in the banner buffer are copied, both names are whole, and the count
grows by the header and the stored banner. -/
structure OpensSafely (p : Platform) (c : Capture) : Prop where
  fits : bannerN (banner p c) ≤ 127
  pushed : ∃ bin txt, (opened p c).store.captures = c.store.captures ++ [bin, txt] ∧
    bin.name = nameText (Platform.nowUnix p) p.millis (c.fileSeq + 1) (ascii ".bin") ∧
    txt.name = nameText (Platform.nowUnix p) p.millis (c.fileSeq + 1) (ascii ".txt") ∧
    txt.bytes <+: snprintf 128 (banner p c)
  grows : (opened p c).store.totalBytesUsed
    = c.store.totalBytesUsed + kCaptureHeaderSize + (snprintf 128 (banner p c)).length

/-- What opening does to the store before anything is evicted. -/
lemma store_opened (p : Platform) (c : Capture) :
    (opened p c).store.captures = c.store.captures ++ [newBin p c, newTxt p c] ∧
      (opened p c).store.totalBytesUsed
        = c.store.totalBytesUsed + kCaptureHeaderSize + bannerN (banner p c) := by
  have hclose : c.closeCurrentCapture.store.captures = c.store.captures ∧
      c.closeCurrentCapture.store.totalBytesUsed = c.store.totalBytesUsed ∧
      newBin p c.closeCurrentCapture = newBin p c ∧ newTxt p c.closeCurrentCapture = newTxt p c ∧
      banner p c.closeCurrentCapture = banner p c := by
    unfold closeCurrentCapture
    split_ifs <;> exact ⟨rfl, rfl, rfl, rfl, rfl⟩
  obtain ⟨hcaptures, htotal, hbin, htxt, hbanner⟩ := hclose
  constructor
  · rw [opened, pushNewPair, hcaptures, hbin, htxt, List.append_assoc]
    rfl
  · rw [← htotal, ← hbanner]
    rfl

/-- Opening is safe as long as the whole banner fits its buffer. -/
lemma OpensSafely.of_fits {p : Platform} {c : Capture} (h : (banner p c).length ≤ 127) :
    OpensSafely p c := by
  obtain ⟨hcaptures, htotal⟩ := store_opened p c
  have hstored := bannerN_eq_stored_iff.mpr h
  refine ⟨?_, ⟨newBin p c, newTxt p c, hcaptures, ?_, ?_, ?_⟩, ?_⟩
  · rw [hstored, length_snprintf]
    omega
  · exact captureName_eq_nameText _ _ _ (Or.inl rfl)
  · exact captureName_eq_nameText _ _ _ (Or.inr rfl)
  · have hwhole : snprintf 128 (banner p c) = banner p c := List.take_of_length_le h
    rw [hwhole, bytes_newTxt, ← banner, bannerBytes_of_fits p (Nat.lt_succ_of_le h)]
  · rw [htotal, hstored]

/-- A safe opening counts what the buffer holds, so the banner fits. -/
lemma OpensSafely.length_banner_le {p : Platform} {c : Capture} (h : OpensSafely p c) :
    (banner p c).length ≤ 127 := by
  obtain ⟨-, htotal⟩ := store_opened p c
  have hgrows := h.grows
  rw [htotal] at hgrows
  exact bannerN_eq_stored_iff.mp (Nat.add_left_cancel hgrows)

/-- Opening a capture is safe exactly when the panel name, the baud rate and the time together have
at most 84 characters. -/
theorem opensSafely_iff (p : Platform) (c : Capture) : OpensSafely p c ↔
    (cString c.panelName).length + (decimal c.baudRate).length
      + (decimal (Platform.nowUnix p)).length ≤ 84 := by
  have hlength := length_bannerText c.panelName c.baudRate (Platform.nowUnix p)
  constructor
  · intro h
    have hle := h.length_banner_le
    rw [banner, hlength] at hle
    omega
  · intro h
    apply OpensSafely.of_fits
    rw [banner, hlength]
    omega

/-- A hundred characters are too many: 149 bytes are copied out of a buffer of 128. -/
theorem not_opensSafely : ¬ ∀ (p : Platform) (c : Capture), OpensSafely p c := by
  intro hall
  let c := init.setPanelName (List.replicate 100 65)
  have hbanner : bannerN (banner .quiet c) = 149 := by decide +kernel
  have hfits := (hall .quiet c).fits
  rw [hbanner] at hfits
  exact absurd hfits (by decide)

end Capture
end TexecomBridge
