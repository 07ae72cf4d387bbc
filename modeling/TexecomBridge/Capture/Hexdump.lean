import TexecomBridge.Capture.Basic

/-!
# Rows of the hex sidecar

A row of up to sixteen bytes fits the 96-byte line buffer with room to spare, so the guards of
`write_hexdump_` never cut one short, and every row can be decoded from its fixed columns.
-/

namespace TexecomBridge

/-! ### The line buffer -/

namespace LineBuffer

/-- `s` has been written to the line, all of it inside. -/
structure Holds (l : LineBuffer) (s : List UInt8) : Prop where
  length_line : l.line.length = kLineSize
  take_line : l.line.take s.length = s
  pos_eq : l.pos = s.length
  inside : l.outside = false

lemma holds_init : init.Holds [] :=
  ⟨by simp [init], rfl, rfl, rfl⟩

variable {l : LineBuffer} {s : List UInt8}

lemma Holds.written (h : l.Holds s) : l.written = s := by
  rw [LineBuffer.written, h.pos_eq, h.take_line]

/-- Bytes that fit are stored behind what is there. -/
lemma Holds.poke (h : l.Holds s) (bytes : List UInt8) (hfit : s.length + bytes.length ≤ kLineSize) :
    (l.poke bytes).pos = s.length ∧ (l.poke bytes).outside = false ∧
      (l.poke bytes).line.length = kLineSize ∧
      (l.poke bytes).line.take (s.length + bytes.length) = s ++ bytes := by
  have hs : s.length ≤ l.line.length := by rw [h.length_line]; omega
  rw [LineBuffer.poke, h.pos_eq, if_pos hfit, h.take_line]
  refine ⟨rfl, h.inside, ?_, ?_⟩
  · simp only [List.length_append, List.length_drop, h.length_line]
    omega
  · rw [← List.length_append, List.take_left]

lemma Holds.print (h : l.Holds s) (text : List UInt8) (hfit : s.length + text.length < kLineSize) :
    (l.print text).Holds (s ++ text) := by
  have hstored : snprintf (kLineSize - l.pos) text = text := by
    rw [snprintf, h.pos_eq, List.take_of_length_le (by omega)]
  obtain ⟨-, hinside, hline, htake⟩ := h.poke (text ++ [0]) (by simp; omega)
  have hpos : l.pos ≠ kLineSize := by rw [h.pos_eq]; omega
  have hlt : l.pos < kLineSize := by rw [h.pos_eq]; omega
  rw [LineBuffer.print, if_neg hpos, if_pos hlt, hstored]
  refine ⟨hline, ?_, by simp [h.pos_eq], hinside⟩
  -- the terminator lies behind the text
  have := congrArg (List.take (s ++ text).length) htake
  rw [List.take_take, ← List.append_assoc, List.take_left] at this
  simpa [Nat.min_eq_left (Nat.le_succ _), ← Nat.add_assoc] using this

lemma Holds.put (h : l.Holds s) (c : UInt8) (hfit : s.length < kLineSize) :
    (l.put c).Holds (s ++ [c]) := by
  obtain ⟨-, hinside, hline, htake⟩ := h.poke [c] (by simp; omega)
  exact ⟨hline, by simpa [LineBuffer.put] using htake, by simp [LineBuffer.put, h.pos_eq], hinside⟩

end LineBuffer

/-! ### The text of a row -/

/-- The cell of hex column `j`. -/
def hexCell (row : List UInt8) (j : ℕ) : List UInt8 :=
  if j < row.length then hex2 (row.getD j 0) ++ ascii " " else ascii "   "

/-- The characters of a row. -/
def rowText (addr : UInt32) (row : List UInt8) : List UInt8 :=
  hex8 addr ++ ascii "  " ++ (List.range 16).flatMap (hexCell row) ++ ascii " |" ++
    row.map printable ++ [124, 10]

@[simp] lemma length_hex8 (n : UInt32) : (hex8 n).length = 8 := by simp [hex8]

@[simp] lemma length_hexCell (row : List UInt8) (j : ℕ) : (hexCell row j).length = 3 := by
  unfold hexCell
  split_ifs <;> rfl

@[simp] lemma length_ascii_two : (ascii "  ").length = 2 := rfl

@[simp] lemma length_ascii_bar : (ascii " |").length = 2 := rfl

lemma length_hexCells (row : List UInt8) (n : ℕ) :
    ((List.range n).flatMap (hexCell row)).length = 3 * n := by
  simp [List.length_flatMap, Nat.mul_comm]

@[simp] lemma length_rowText (addr : UInt32) (row : List UInt8) :
    (rowText addr row).length = 62 + row.length := by
  simp only [rowText, List.length_append, length_hex8, length_ascii_two, length_ascii_bar,
    length_hexCells, List.length_map, List.length_cons, List.length_nil]
  omega

private lemma holds_hexCells {l : LineBuffer} {s : List UInt8} (h : l.Holds s) (row : List UInt8)
    (js : List ℕ) (hfit : s.length + 3 * js.length < kLineSize) :
    (js.foldl (fun l j => if j < row.length then l.print (hex2 (row.getD j 0) ++ ascii " ")
      else l.print (ascii "   ")) l).Holds (s ++ js.flatMap (hexCell row)) := by
  induction js generalizing l s with
  | nil => simpa using h
  | cons j js ih =>
    have hcell : (l.print (hexCell row j)).Holds (s ++ hexCell row j) :=
      h.print _ (by simp only [length_hexCell, List.length_cons] at hfit ⊢; omega)
    have hnext : (if j < row.length then l.print (hex2 (row.getD j 0) ++ ascii " ")
        else l.print (ascii "   ")) = l.print (hexCell row j) := by
      unfold hexCell
      split_ifs <;> rfl
    rw [List.foldl_cons, List.flatMap_cons, ← List.append_assoc, hnext]
    apply ih hcell
    simp only [List.length_append, length_hexCell, List.length_cons] at hfit ⊢
    omega

private lemma holds_hexdumpColumns {l : LineBuffer} {s : List UInt8} (h : l.Holds s)
    (row : List UInt8) (hfit : s.length + 48 < kLineSize) :
    (hexdumpColumns row l).Holds (s ++ (List.range 16).flatMap (hexCell row)) :=
  holds_hexCells h row (List.range 16) (by simpa using hfit)

private lemma holds_hexdumpAscii {l : LineBuffer} {s : List UInt8} (h : l.Holds s)
    (row : List UInt8) (hfit : s.length + row.length ≤ kLineSize - 4) :
    (hexdumpAscii row l).Holds (s ++ row.map printable) := by
  induction row generalizing l s with
  | nil => simpa [hexdumpAscii] using h
  | cons c cs ih =>
    simp only [List.length_cons, kLineSize] at hfit
    have hguard : l.pos < kLineSize - 4 := by rw [h.pos_eq, kLineSize]; omega
    rw [hexdumpAscii, if_pos hguard, List.map_cons, List.append_cons]
    apply ih (h.put _ (by rw [kLineSize]; omega))
    simp only [List.length_append, List.length_singleton, kLineSize]
    omega

/-- A row of at most sixteen bytes is written whole and inside the line. -/
lemma hexdumpLine_holds (addr : UInt32) {row : List UInt8} (hrow : row.length ≤ 16) :
    (hexdumpLine addr row).Holds (rowText addr row) := by
  have hcells := length_hexCells row 16
  have h₁ := LineBuffer.holds_init.print (hex8 addr ++ ascii "  ") (by simp [kLineSize])
  have h₂ := holds_hexdumpColumns h₁ row (by simp [kLineSize])
  have h₃ := h₂.print (ascii " |") (by simp [hcells, kLineSize])
  have h₄ := holds_hexdumpAscii h₃ row (by simp [hcells, kLineSize]; omega)
  have h₅ := h₄.put 124 (by simp [hcells, kLineSize]; omega)
  have h₆ := h₅.put 10 (by simp [hcells, kLineSize]; omega)
  have hguard := h₄.pos_eq
  simp only [List.nil_append, List.length_append, length_hex8, length_ascii_two, hcells,
    length_ascii_bar, List.length_map] at hguard
  rw [hexdumpLine, if_pos (by rw [hguard, kLineSize]; omega)]
  simpa [rowText] using h₆

end TexecomBridge
