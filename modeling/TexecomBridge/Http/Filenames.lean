import TexecomBridge.Http.Basic
import TexecomBridge.Library.Pathnames

/-!
# Path safety of the filename validator

What the validator accepts, and that a file of such a name, put behind any directory, is a child of
that directory by POSIX and by Windows rules.
-/

namespace TexecomBridge

open Pathname

/-! ### What is accepted -/

/-- The same character, or the same ASCII letter in the other case. -/
def SameLetter (x y : UInt8) : Prop :=
  x = y ∨ (65 ≤ x ∧ x ≤ 90 ∧ y = x + 32) ∨ (65 ≤ y ∧ y ≤ 90 ∧ x = y + 32)

/-- The same text up to ASCII case. -/
def SameText (s t : List UInt8) : Prop := List.Forall₂ SameLetter s t

lemma SameText.refl (s : List UInt8) : SameText s s :=
  List.forall₂_same.mpr fun _ _ => Or.inl rfl

/-- No control character, separator or colon, no dot in front, and one of the two extensions. -/
structure SafeName (s : List UInt8) : Prop where
  length_ge : 5 ≤ s.length
  length_le : s.length ≤ 96
  no_dot : s.head? ≠ some 46
  chars : ∀ c ∈ s, ¬ c < 0x20 ∧ c ≠ 0x7F ∧ c ≠ 47 ∧ c ≠ 92 ∧ c ≠ 58
  ext : ∃ ext, ext <:+ s ∧ (SameText ext (ascii ".bin") ∨ SameText ext (ascii ".txt"))

lemma isSafeChar_iff (c : UInt8) :
    isSafeChar c = true ↔ ¬ c < 0x20 ∧ c ≠ 0x7F ∧ c ≠ 47 ∧ c ≠ 92 ∧ c ≠ 58 := by
  unfold isSafeChar
  constructor
  · intro h
    split_ifs at h with hcontrol hseparator hcolon
    obtain ⟨hlow, hdel⟩ := not_or.mp hcontrol
    obtain ⟨hslash, hbackslash⟩ := not_or.mp hseparator
    exact ⟨hlow, hdel, hslash, hbackslash, hcolon⟩
  · rintro ⟨hlow, hdel, hslash, hbackslash, hcolon⟩
    rw [if_neg (not_or.mpr ⟨hlow, hdel⟩), if_neg (not_or.mpr ⟨hslash, hbackslash⟩), if_neg hcolon]

/-- Lowering a character gives `y`, which is no capital, exactly when it is `y` in either case. -/
lemma toLower_eq_iff {x y : UInt8} (hy : ¬ (65 ≤ y ∧ y ≤ 90)) : toLower x = y ↔ SameLetter x y := by
  unfold toLower SameLetter
  split_ifs with hx
  · constructor
    · intro h
      exact Or.inr (Or.inl ⟨hx.1, hx.2, h.symm⟩)
    · rintro (rfl | ⟨-, -, h⟩ | ⟨hlow, hhigh, -⟩)
      · exact absurd hx hy
      · exact h.symm
      · exact absurd ⟨hlow, hhigh⟩ hy
  · constructor
    · exact Or.inl
    · rintro (h | ⟨hlow, hhigh, -⟩ | ⟨hlow, hhigh, -⟩)
      · exact h
      · exact absurd ⟨hlow, hhigh⟩ hx
      · exact absurd ⟨hlow, hhigh⟩ hy

lemma map_toLower_eq_iff {s t : List UInt8} (ht : t.all (fun y => !(65 ≤ y ∧ y ≤ 90)) = true) :
    s.map toLower = t ↔ SameText s t := by
  induction s generalizing t with
  | nil => cases t <;> simp [SameText]
  | cons x s ih =>
    cases t with
    | nil => simp [SameText]
    | cons y t =>
      rw [List.all_cons, Bool.and_eq_true, Bool.not_eq_true', decide_eq_false_iff_not] at ht
      rw [List.map_cons, List.cons.injEq, toLower_eq_iff ht.1, ih ht.2]
      exact List.forall₂_cons.symm

/-- The extension that is tested is the only suffix that could be one of the two. -/
lemma ext_iff (s : List UInt8) :
    (s.drop (s.length - 4)).map toLower = ascii ".bin" ∨
        (s.drop (s.length - 4)).map toLower = ascii ".txt" ↔
      ∃ ext, ext <:+ s ∧ (SameText ext (ascii ".bin") ∨ SameText ext (ascii ".txt")) := by
  rw [map_toLower_eq_iff (by decide), map_toLower_eq_iff (by decide)]
  constructor
  · exact fun h => ⟨_, List.drop_suffix _ _, h⟩
  · rintro ⟨ext, hsuffix, h⟩
    have hlength : ext.length = 4 := by
      obtain h | h := h
      · exact h.length_eq
      · exact h.length_eq
    rw [List.suffix_iff_eq_drop.mp hsuffix, hlength] at h
    exact h

/-- The scan with its early exits accepts exactly the safe names. -/
lemma isSafeCaptureFilename_iff (s : List UInt8) : isSafeCaptureFilename s = true ↔ SafeName s := by
  have hchars : s.all isSafeChar = true ↔
      ∀ c ∈ s, ¬ c < 0x20 ∧ c ≠ 0x7F ∧ c ≠ 47 ∧ c ≠ 92 ∧ c ≠ 58 := by
    simp only [List.all_eq_true, isSafeChar_iff]
  unfold isSafeCaptureFilename
  dsimp only
  constructor
  · intro h
    split_ifs at h with hnil hlong hdot hbad hshort hext
    refine ⟨not_lt.mp hshort, not_lt.mp hlong, hdot, hchars.mp (by simpa using hbad), ?_⟩
    rw [← ext_iff]
    exact or_iff_not_and_not.mpr hext
  · intro h
    have hne : s ≠ [] := by
      rintro rfl
      exact absurd h.length_ge (by decide)
    have hext := or_iff_not_and_not.mp ((ext_iff s).mpr h.ext)
    rw [if_neg hne, if_neg (not_lt.mpr h.length_le), if_neg h.no_dot, hchars.mpr h.chars,
      if_neg (by decide), if_neg (not_lt.mpr h.length_ge)]
    exact if_neg hext

/-! ### Where it leads -/

/-- A safe name is one name by either platform's rules. -/
lemma SafeName.isName {s : List UInt8} (h : SafeName s) (rules : Rules) : IsName rules s where
  noNul := fun hmem => (h.chars 0 hmem).1 (by decide)
  noSeparator := by
    intro c hc
    obtain ⟨-, -, hslash, hbackslash, -⟩ := h.chars c hc
    cases rules with
    | posix => exact decide_eq_false hslash
    | windows => exact decide_eq_false (not_or.mpr ⟨hslash, hbackslash⟩)
  ne_nil := by
    rintro rfl
    exact absurd h.length_ge (by decide)
  ne_dot := by
    rintro rfl
    exact absurd h.length_ge (by decide)
  ne_dotdot := by
    rintro rfl
    exact absurd h.length_ge (by decide)

/-- The validator accepts exactly the safe names. An accepted name, behind the path of any directory
or from inside it, leads to the child of that name, which lies in the same tree and is neither the
directory nor an ancestor of it. -/
theorem accepted_name_leads_to_child (s : List UInt8) :
    (isSafeCaptureFilename s = true ↔ SafeName s) ∧
    (isSafeCaptureFilename s = true →
      ∀ (rules : Rules) (cwd : WorkingDirs) (root : Directory rules),
        let here := root.place cwd
        resolve rules cwd root.path = some here ∧
        resolve rules cwd (root.path ++ ascii "/" ++ s) = some (here.child s) ∧
        resolve rules (cwd.enter here) s = some (here.child s) ∧
        (here.child s).drive = here.drive ∧ ¬ (here.child s).Above here) := by
  refine ⟨isSafeCaptureFilename_iff s, fun haccepted rules cwd root => ?_⟩
  have hsafe := (isSafeCaptureFilename_iff s).mp haccepted
  have hname := hsafe.isName rules
  have hcolon : 58 ∉ s := fun hmem => (hsafe.chars 58 hmem).2.2.2.2 rfl
  refine ⟨resolve_directory root cwd, ?_, resolve_inside hname hcolon cwd root, rfl,
    Place.not_above_child _ s⟩
  have hslash : root.path ++ ascii "/" ++ s = root.path ++ 47 :: s := by
    rw [List.append_assoc]
    rfl
  rw [hslash]
  exact resolve_child hname cwd root

/-- The first capture after a boot, in a directory of another drive. -/
theorem accepted_name_leads_to_child_boot :
    resolve .windows ⟨67, fun _ => [ascii "temp"]⟩
      (ascii "d:/old/../captures" ++ ascii "/" ++ ascii "wintex-boot0-001.bin")
        = some ⟨some 68, [ascii "captures", ascii "wintex-boot0-001.bin"]⟩ := by
  let root : Directory .windows :=
    ⟨ascii "d:/old/../captures", by decide +kernel, by decide +kernel⟩
  have hplace : root.place ⟨67, fun _ => [ascii "temp"]⟩ = ⟨some 68, [ascii "captures"]⟩ := by
    decide +kernel
  obtain ⟨-, h⟩ := accepted_name_leads_to_child (ascii "wintex-boot0-001.bin")
  obtain ⟨-, h, -⟩ := h (by decide +kernel) .windows ⟨67, fun _ => [ascii "temp"]⟩ root
  rw [hplace] at h
  exact h

end TexecomBridge
