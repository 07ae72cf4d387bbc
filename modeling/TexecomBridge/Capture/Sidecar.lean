import TexecomBridge.Capture.Lifecycle

/-!
# The hex sidecar agrees with the binary

What a reader of the `.txt` can get back from its rows, column by column, and that in every
reachable state this is the `.bin` from the end of its header on.
-/

namespace TexecomBridge

/-! ### Reading a row -/

/-- The value of a hex digit, as `%x` prints it. -/
def hexValue (c : UInt8) : Option ℕ :=
  if 48 ≤ c ∧ c ≤ 57 then some (c.toNat - 48)
  else if 97 ≤ c ∧ c ≤ 102 then some (c.toNat - 87)
  else none

/-- The address in the first eight characters of a row. -/
def decodeAddress (line : List UInt8) : Option ℕ :=
  (line.take 8).foldl (fun acc c => acc.bind fun v => (hexValue c).map (16 * v + ·)) (some 0)

/-- The byte in hex column `j` of a row, if the column is not blank. -/
def decodeColumn (line : List UInt8) (j : ℕ) : Option UInt8 :=
  match line.drop (10 + 3 * j) with
  | a :: b :: _ =>
    match hexValue a, hexValue b with
    | some x, some y => some (UInt8.ofNat (16 * x + y))
    | _, _ => none
  | _ => none

/-- The bytes in the sixteen hex columns of a row. -/
def decodeRow (line : List UInt8) : List UInt8 := (List.range 16).filterMap (decodeColumn line)

/-- What stands between the bars of a row. -/
def asciiColumn (line : List UInt8) : List UInt8 := (line.drop 60).dropLast.dropLast

lemma hexValue_hexDigit : ∀ d < 16, hexValue (hexDigit d) = some d := by decide

@[simp] lemma hexValue_hexDigit_mod (n : ℕ) : hexValue (hexDigit (n % 16)) = some (n % 16) :=
  hexValue_hexDigit _ (Nat.mod_lt _ (by decide))

lemma hexDigit_ne_newline : ∀ d < 16, hexDigit d ≠ 10 := by decide

lemma printable_range (c : UInt8) : 0x20 ≤ printable c ∧ printable c < 0x7F := by
  unfold printable
  split_ifs with h
  · exact h
  · decide

/-- One step of reading a number off its hex digits. -/
private lemma hexDigits_step (n k : ℕ) :
    16 * (n / 16 ^ (k + 1)) + n / 16 ^ k % 16 = n / 16 ^ k := by
  rw [Nat.pow_succ, ← Nat.div_div_eq_div_mul]
  exact Nat.div_add_mod _ 16

lemma decodeAddress_rowText (addr : UInt32) (row : List UInt8) :
    decodeAddress (rowText addr row) = some addr.toNat := by
  have htake : (rowText addr row).take 8 = hex8 addr := by
    simp only [rowText, List.append_assoc]
    exact List.take_left' (length_hex8 addr)
  have htop : addr.toNat / 16 ^ 7 % 16 = addr.toNat / 16 ^ 7 :=
    Nat.mod_eq_of_lt (Nat.div_lt_of_lt_mul addr.toNat_lt)
  rw [decodeAddress, htake]
  simp only [hex8, List.range, List.range.loop, List.map_cons, List.map_nil, List.foldl_cons,
    List.foldl_nil, hexValue_hexDigit_mod, Option.map_some, Option.bind_some, Option.some.injEq,
    Nat.reduceSub, Nat.mul_zero, Nat.zero_add]
  rw [htop, hexDigits_step _ 6, hexDigits_step _ 5, hexDigits_step _ 4, hexDigits_step _ 3,
    hexDigits_step _ 2, hexDigits_step _ 1, hexDigits_step _ 0, Nat.pow_zero, Nat.div_one]

/-- Cells of equal width can be counted off. -/
private lemma drop_flatMap {α : Type*} {k : ℕ} {f : α → List UInt8} (hf : ∀ x, (f x).length = k)
    (xs : List α) (j : ℕ) : (xs.flatMap f).drop (k * j) = (xs.drop j).flatMap f := by
  induction xs generalizing j with
  | nil => simp
  | cons x xs ih =>
    cases j with
    | zero => simp
    | succ j =>
      have hsplit : k * (j + 1) = (f x).length + k * j := by rw [hf x]; ring
      rw [List.flatMap_cons, hsplit, List.drop_length_add_append, List.drop_succ_cons, ih]

private lemma drop_rowText (addr : UInt32) (row : List UInt8) {j : ℕ} (hj : j < 16) :
    ∃ rest, (rowText addr row).drop (10 + 3 * j) = hexCell row j ++ rest := by
  have hpre : (hex8 addr ++ ascii "  ").length = 10 := by simp
  have hcells : ((List.range 16).flatMap (hexCell row)).drop (3 * j)
      = hexCell row j ++ ((List.range 16).drop (j + 1)).flatMap (hexCell row) := by
    rw [drop_flatMap (length_hexCell row), List.drop_eq_getElem_cons (by simpa using hj),
      List.getElem_range, List.flatMap_cons]
  have hfit : 3 * j ≤ ((List.range 16).flatMap (hexCell row)).length := by
    rw [length_hexCells]
    omega
  have hrow : rowText addr row = (hex8 addr ++ ascii "  ") ++
      ((List.range 16).flatMap (hexCell row) ++ (ascii " |" ++ row.map printable ++ [124, 10])) := by
    simp only [rowText, List.append_assoc]
  refine ⟨((List.range 16).drop (j + 1)).flatMap (hexCell row) ++
    (ascii " |" ++ row.map printable ++ [124, 10]), ?_⟩
  rw [hrow, ← List.drop_drop, List.drop_left' hpre, List.drop_append_of_le_length hfit, hcells,
    List.append_assoc]

lemma decodeColumn_rowText (addr : UInt32) (row : List UInt8) {j : ℕ} (hj : j < 16) :
    decodeColumn (rowText addr row) j = if j < row.length then some (row.getD j 0) else none := by
  obtain ⟨rest, hdrop⟩ := drop_rowText addr row hj
  unfold decodeColumn
  rw [hdrop]
  unfold hexCell
  split_ifs with hlt
  · generalize row.getD j 0 = b
    have hb := b.toNat_lt
    have hvalue : 16 * (b.toNat / 16) + b.toNat % 16 = b.toNat := by omega
    simp only [hex2, List.cons_append, hexValue_hexDigit (b.toNat / 16) (by omega),
      hexValue_hexDigit_mod, hvalue, UInt8.ofNat_toNat]
  · rfl

/-- The hex columns of a row hold its bytes. -/
lemma decodeRow_rowText (addr : UInt32) {row : List UInt8} (hrow : row.length ≤ 16) :
    decodeRow (rowText addr row) = row := by
  have hcolumns : decodeRow (rowText addr row)
      = (List.range 16).filterMap fun j => if j < row.length then some (row.getD j 0) else none :=
    List.filterMap_congr fun j hj => decodeColumn_rowText addr row (List.mem_range.mp hj)
  have hused : ((List.range row.length).filterMap
      fun j => if j < row.length then some (row.getD j 0) else none) = row := by
    have hmap : ((List.range row.length).filterMap
        fun j => if j < row.length then some (row.getD j 0) else none)
        = (List.range row.length).filterMap fun j => some (row.getD j 0) :=
      List.filterMap_congr fun j hj => if_pos (List.mem_range.mp hj)
    rw [hmap, List.filterMap_eq_map']
    apply List.ext_getElem
    · simp
    · intro i h₁ h₂
      simp [h₂]
  have hsplit : 16 = row.length + (16 - row.length) := by omega
  rw [hcolumns, hsplit, List.range_add, List.filterMap_append, hused]
  simp

lemma asciiColumn_rowText (addr : UInt32) (row : List UInt8) :
    asciiColumn (rowText addr row) = row.map printable := by
  have hpre : (hex8 addr ++ ascii "  " ++ (List.range 16).flatMap (hexCell row)
      ++ ascii " |").length = 60 := by
    simp only [List.length_append, length_hex8, length_ascii_two, length_ascii_bar, length_hexCells]
  rw [asciiColumn, rowText, List.append_assoc _ (row.map printable), List.drop_left' hpre]
  simp

/-- The only newline of a row is its last character. -/
lemma rowText_newline (addr : UInt32) (row : List UInt8) :
    ∃ body, rowText addr row = body ++ [10] ∧ 10 ∉ body := by
  refine ⟨hex8 addr ++ ascii "  " ++ (List.range 16).flatMap (hexCell row) ++ ascii " |" ++
    row.map printable ++ [124], by simp [rowText], ?_⟩
  simp only [List.mem_append, not_or]
  refine ⟨⟨⟨⟨⟨?_, by decide⟩, ?_⟩, by decide⟩, ?_⟩, by decide⟩
  · intro hmem
    obtain ⟨i, -, hi⟩ := List.mem_map.mp hmem
    exact hexDigit_ne_newline _ (Nat.mod_lt _ (by decide)) hi
  · intro hmem
    obtain ⟨j, -, hj⟩ := List.mem_flatMap.mp hmem
    unfold hexCell at hj
    split_ifs at hj
    · have hb := (row.getD j 0).toNat_lt
      rcases List.mem_append.mp hj with hj | hj
      · rcases List.mem_cons.mp hj with hj | hj
        · exact hexDigit_ne_newline _ (by omega) hj.symm
        · exact hexDigit_ne_newline _ (Nat.mod_lt _ (by decide)) (List.mem_singleton.mp hj).symm
      · exact absurd hj (by decide)
    · exact absurd hj (by decide)
  · intro hmem
    obtain ⟨c, -, hc⟩ := List.mem_map.mp hmem
    have := (printable_range c).1
    rw [hc] at this
    exact absurd this (by decide)

/-! ### Rows that show a string -/

/-- `lines` are rows that show `bytes`, which lie at offset `off`. -/
inductive Shows : ℕ → List (List UInt8) → List UInt8 → Prop
  | nil (off : ℕ) : Shows off [] []
  | cons {off : ℕ} {lines : List (List UInt8)} {bytes : List UInt8} (row : List UInt8)
    (hrow : row.length ≤ 16) (hrest : Shows (off + row.length) lines bytes) :
    Shows off (rowText (UInt32.ofNat off) row :: lines) (row ++ bytes)

namespace Shows

variable {off : ℕ} {lines : List (List UInt8)} {bytes : List UInt8}

lemma append (h : Shows off lines bytes) {lines' : List (List UInt8)} {bytes' : List UInt8}
    (h' : Shows (off + bytes.length) lines' bytes') :
    Shows off (lines ++ lines') (bytes ++ bytes') := by
  induction h with
  | nil off => exact h'
  | @cons off lines bytes row hrow hrest ih =>
    rw [List.cons_append, List.append_assoc]
    refine .cons row hrow (ih ?_)
    rwa [List.length_append, ← Nat.add_assoc] at h'

lemma hexdumpRows (off : ℕ) (bytes : List UInt8) : Shows off (hexdumpRows off bytes) bytes := by
  induction off, bytes using TexecomBridge.hexdumpRows.induct with
  | case1 off =>
    rw [hexdumpRows_nil]
    exact .nil off
  | case2 off bytes h ih =>
    rw [hexdumpRows_of_ne_nil off h]
    have hshort : (bytes.take 16).length ≤ 16 := by simp
    have hrest : Shows (off + (bytes.take 16).length)
        (TexecomBridge.hexdumpRows (off + 16) (bytes.drop 16)) (bytes.drop 16) := by
      by_cases hlong : 16 ≤ bytes.length
      · rwa [List.length_take_of_le hlong]
      · rw [List.drop_of_length_le (by omega), hexdumpRows_nil]
        exact .nil _
    have := Shows.cons (bytes.take 16) hshort hrest
    rwa [List.take_append_drop] at this

lemma flatMap_decodeRow (h : Shows off lines bytes) : lines.flatMap decodeRow = bytes := by
  induction h with
  | nil off => rfl
  | cons row hrow hrest ih => rw [List.flatMap_cons, decodeRow_rowText _ hrow, ih]

/-- Each line is the row of its bytes, at the offset the lines before it end. -/
lemma getElem? (h : Shows off lines bytes) {i : ℕ} {line : List UInt8}
    (hi : lines[i]? = some line) :
    (decodeRow line).length ≤ 16 ∧
      off + ((lines.take i).flatMap decodeRow).length ≤ off + bytes.length ∧
      line = rowText (UInt32.ofNat (off + ((lines.take i).flatMap decodeRow).length))
        (decodeRow line) := by
  induction h generalizing i with
  | nil off => simp at hi
  | @cons off lines bytes row hrow hrest ih =>
    cases i with
    | zero =>
      obtain rfl : rowText (UInt32.ofNat off) row = line := by simpa using hi
      rw [decodeRow_rowText _ hrow]
      exact ⟨hrow, by simp, by simp⟩
    | succ i =>
      obtain ⟨hlen, hle, hline⟩ := ih (by simpa using hi)
      simp only [List.take_succ_cons, List.flatMap_cons, decodeRow_rowText _ hrow,
        List.length_append]
      refine ⟨hlen, by omega, ?_⟩
      rwa [Nat.add_assoc] at hline

end Shows

/-! ### The sidecar of a pair -/

/-- The `.txt` is the banner followed by rows that show the `.bin` behind its header. -/
lemma CapturePair.Holds.txt_eq {cfg : Capture.Config} {q : CapturePair} {es : List Event}
    (h : q.Holds cfg es)
    (hbanner : ∀ nowUnix, (Capture.bannerText cfg.panelName cfg.baudRate nowUnix).length < 128) :
    ∃ nowUnix lines, q.txt.bytes =
        Capture.bannerText cfg.panelName cfg.baudRate nowUnix ++ lines.flatten ∧
      kCaptureHeaderSize ≤ q.bin.bytes.length ∧
      Shows kCaptureHeaderSize lines (q.bin.bytes.drop kCaptureHeaderSize) := by
  induction h with
  | opened c hcfg p =>
    subst hcfg
    refine ⟨Capture.Platform.nowUnix p, [], ?_, by simp [Capture.newBin], ?_⟩
    · rw [List.flatten_nil, List.append_nil]
      exact (Capture.bytes_newTxt p c).trans (Capture.bannerBytes_of_fits p (hbanner _))
    · simp only [Capture.newBin]
      rw [List.drop_of_length_le (by simp)]
      exact .nil _
  | @wrote q es e hq he ms ih =>
    obtain ⟨nowUnix, lines, htxt, hheader, hshows⟩ := ih
    refine ⟨nowUnix, lines ++ hexdumpRows q.bin.bytes.length e.serialize, ?_, ?_, ?_⟩
    · simp [CapturePair.extend, RamCapture.append, htxt]
    · simp only [CapturePair.extend, RamCapture.append, List.length_append]
      omega
    · simp only [CapturePair.extend, RamCapture.append]
      rw [List.drop_append_of_le_length hheader]
      apply hshows.append
      rw [List.length_drop, Nat.add_sub_cancel' hheader]
      exact .hexdumpRows _ _

/-- A `.bin` with a `.txt` behind it is a pair. -/
lemma exists_pair_of_files {ps : List CapturePair} (htext : ∀ q ∈ ps, q.txt.isText = true) {j : ℕ}
    {bin txt : RamCapture} (hbin : (files ps)[j]? = some bin) (hnot : bin.isText = false)
    (htxt : (files ps)[j + 1]? = some txt) : ∃ q ∈ ps, q.bin = bin ∧ q.txt = txt := by
  obtain ⟨i, q, rfl, hq, hqbin⟩ := exists_pair_of_bin htext hbin hnot
  rw [(getElem?_files ps i).2, hq, Option.map_some, Option.some.injEq] at htxt
  exact ⟨q, List.mem_reverse.mp (List.mem_of_getElem? hq), hqbin, htxt⟩

namespace Capture

/-- In every reachable state, where a `.bin` and its `.txt` are stored, the `.txt` is the banner
followed by newline-terminated rows. Their hex columns hold the `.bin` from offset 32 on, each
address is the offset of the row's first byte, and each ASCII column shows the row's bytes. Every
row was written whole and inside the line buffer. -/
theorem sidecar_agrees (cfg : Config)
    (hbanner : ∀ nowUnix, (bannerText cfg.panelName cfg.baudRate nowUnix).length < 128)
    (ops : List Op) (j : ℕ) (bin txt : RamCapture)
    (hbin : (run cfg ops).store.captures[j]? = some bin) (hnot : bin.isText = false)
    (htxt : (run cfg ops).store.captures[j + 1]? = some txt) (hlen : bin.bytes.length < 2 ^ 32) :
    ∃ (nowUnix : UInt32) (lines : List (List UInt8)),
      txt.bytes = bannerText cfg.panelName cfg.baudRate nowUnix ++ lines.flatten ∧
      lines.flatMap decodeRow = bin.bytes.drop kCaptureHeaderSize ∧
      ∀ i line, lines[i]? = some line →
        (∃ body, line = body ++ [10] ∧ 10 ∉ body) ∧
        decodeAddress line
          = some (kCaptureHeaderSize + ((lines.take i).flatMap decodeRow).length) ∧
        asciiColumn line = (decodeRow line).map printable ∧
        (∀ c ∈ asciiColumn line, 0x20 ≤ c ∧ c < 0x7F) ∧
        line.length = 62 + (decodeRow line).length ∧
        ∃ addr, (hexdumpLine addr (decodeRow line)).written = line ∧
          (hexdumpLine addr (decodeRow line)).outside = false := by
  have h := inv_run cfg ops
  have hcfg : (run cfg ops).config.panelName = cfg.panelName ∧
      (run cfg ops).config.baudRate = cfg.baudRate := by
    rw [config_run]
    exact ⟨rfl, rfl⟩
  rw [h.shelves.captures_eq, List.getElem?_drop] at hbin htxt
  rw [← Nat.add_assoc] at htxt
  obtain ⟨q, hq, rfl, rfl⟩ := exists_pair_of_files
    (fun q hq => (h.contents q hq).elim fun _ hes => hes.isText.2) hbin hnot htxt
  obtain ⟨es, hes⟩ := h.contents q hq
  obtain ⟨nowUnix, lines, htxt', hheader, hshows⟩ :=
    hes.txt_eq (by rw [hcfg.1, hcfg.2]; exact hbanner)
  rw [hcfg.1, hcfg.2] at htxt'
  refine ⟨nowUnix, lines, htxt', hshows.flatMap_decodeRow, fun i line hi => ?_⟩
  obtain ⟨hrow, hoff, hline⟩ := hshows.getElem? hi
  rw [List.length_drop, Nat.add_sub_cancel' hheader] at hoff
  have hascii := asciiColumn_rowText (UInt32.ofNat (kCaptureHeaderSize
    + ((lines.take i).flatMap decodeRow).length)) (decodeRow line)
  have haddr := decodeAddress_rowText (UInt32.ofNat (kCaptureHeaderSize
    + ((lines.take i).flatMap decodeRow).length)) (decodeRow line)
  rw [UInt32.toNat_ofNat_of_lt' (lt_of_le_of_lt hoff hlen)] at haddr
  rw [← hline] at hascii haddr
  refine ⟨?_, haddr, hascii, ?_, ?_, ?_⟩
  · rw [hline]
    exact rowText_newline _ _
  · rw [hascii]
    intro c hc
    obtain ⟨b, -, rfl⟩ := List.mem_map.mp hc
    exact printable_range b
  · conv_lhs => rw [hline]
    exact length_rowText _ _
  · have hbuffer := hexdumpLine_holds (UInt32.ofNat (kCaptureHeaderSize
      + ((lines.take i).flatMap decodeRow).length)) hrow
    refine ⟨_, ?_, hbuffer.inside⟩
    rw [hbuffer.written, ← hline]

/-- The banner of the shipped panel model fits its buffer. -/
lemma length_bannerText_premier24 (nowUnix : UInt32) :
    (bannerText (ascii "Premier 24") 19200 nowUnix).length < 128 := by
  have hunix := length_decimal_le nowUnix
  have hbaud := length_decimal_le 19200
  have hname : (cString (ascii "Premier 24")).length = 10 := by decide +kernel
  rw [length_bannerText, hname]
  omega

/-- Lines that end with a newline are no more than the newlines. -/
lemma length_le_count_newline {lines : List (List UInt8)}
    (h : ∀ line ∈ lines, ∃ body, line = body ++ [10]) :
    lines.length ≤ lines.flatten.count 10 := by
  rw [List.count_flatten, ← List.length_map (List.count 10)]
  refine List.length_le_sum_of_one_le _ fun n hn => ?_
  obtain ⟨line, hline, rfl⟩ := List.mem_map.mp hn
  obtain ⟨body, rfl⟩ := h line hline
  exact List.one_le_count_iff.mpr (List.mem_append_right _ List.mem_cons_self)

/-- A session in which the panel sent the byte 0x41: one event, shown in one row. -/
theorem sidecar_agrees_premier24 :
    let c := run ⟨.bridgeOnly, ascii "Premier 24", 131072, 19200⟩
      [.sessionStart .quiet, .record .quiet 0 [0x41], .sessionEnd .quiet]
    ∃ bin txt, c.store.captures = [bin, txt] ∧ ∃ (nowUnix : UInt32) (row : List UInt8),
      txt.bytes = bannerText (ascii "Premier 24") 19200 nowUnix ++ row ∧
      decodeRow row = bin.bytes.drop kCaptureHeaderSize ∧
      bin.bytes.drop kCaptureHeaderSize = (Event.mk 0 0 [0x41]).serialize := by
  intro c
  have hvalues : c.store.captures.length = 2 ∧
      c.store.captures[0]?.map (fun bin =>
        (bin.isText, bin.bytes.drop kCaptureHeaderSize, decide (bin.bytes.length < 2 ^ 32)))
        = some (false, (Event.mk 0 0 [0x41]).serialize, true) ∧
      c.store.captures[1]?.map (fun txt => txt.bytes.count 10) = some 2 := by
    decide +kernel
  obtain ⟨hlength, hbin, htxt⟩ := hvalues
  obtain ⟨bin, hbin, hbinValues⟩ := Option.map_eq_some_iff.mp hbin
  obtain ⟨txt, htxt, hnewlines⟩ := Option.map_eq_some_iff.mp htxt
  obtain ⟨hnot, hevent, hlen⟩ : bin.isText = false ∧
      bin.bytes.drop kCaptureHeaderSize = (Event.mk 0 0 [0x41]).serialize ∧
      bin.bytes.length < 2 ^ 32 := by simpa using hbinValues
  obtain ⟨nowUnix, lines, htext, hbytes, hrows⟩ := sidecar_agrees
    ⟨.bridgeOnly, ascii "Premier 24", 131072, 19200⟩ length_bannerText_premier24
    [.sessionStart .quiet, .record .quiet 0 [0x41], .sessionEnd .quiet] 0 bin txt hbin hnot htxt
    hlen
  have hpair : c.store.captures = [bin, txt] := by
    apply List.ext_getElem?
    intro i
    match i with
    | 0 => exact hbin
    | 1 => exact htxt
    | i + 2 => simp [hlength]
  -- The banner has a newline of its own, so there is room for one row.
  have hfew : lines.length ≤ lines.flatten.count 10 := by
    refine length_le_count_newline fun line hline => ?_
    obtain ⟨i, hi⟩ := List.mem_iff_getElem?.mp hline
    obtain ⟨⟨body, hbody, -⟩, -⟩ := hrows i line hi
    exact ⟨body, hbody⟩
  have hbanner : 1 ≤ (bannerText (ascii "Premier 24") 19200 nowUnix).count 10 :=
    List.one_le_count_iff.mpr (List.mem_append_right _ (by decide))
  rw [htext, List.count_append] at hnewlines
  match lines with
  | [] =>
    rw [hevent] at hbytes
    exact absurd hbytes (by decide)
  | [row] =>
    refine ⟨bin, txt, hpair, nowUnix, row, ?_, ?_, hevent⟩
    · simpa using htext
    · simpa using hbytes
  | row :: row' :: rows =>
    simp only [List.length_cons] at hfew hnewlines
    omega

end Capture
end TexecomBridge
