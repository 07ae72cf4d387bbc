import Mathlib.Data.List.Basic
import Mathlib.Data.List.Infix
import Mathlib.Data.List.TakeWhile
import Mathlib.Tactic

/-!
# Path resolution

Where a path text leads, read by POSIX or by Windows rules: it ends at the first NUL, is split at
separators, and is walked from the root of a tree or from a working directory. Empty names and `.`
stay where they are, and `..` goes up, at most to the root.
-/

namespace Pathname

inductive Rules
  | posix
  | windows

/-- `/`, and on Windows `\` too. -/
def Rules.isSeparator : Rules → UInt8 → Bool
  | .posix, c => c = 47
  | .windows, c => c = 47 ∨ c = 92

/-- A letter of either case names a drive; the upper-case one stands for it. -/
def driveOfLetter (c : UInt8) : Option UInt8 :=
  if 65 ≤ c ∧ c ≤ 90 then some c else if 97 ≤ c ∧ c ≤ 122 then some (c - 32) else none

/-- The drive in front of a path text, and the rest. -/
def Rules.splitDrive : Rules → List UInt8 → Option UInt8 × List UInt8
  | .windows, c :: 58 :: rest =>
    match driveOfLetter c with
    | some drive => (some drive, rest)
    | none => (none, c :: 58 :: rest)
  | _, path => (none, path)

/-- A directory or a file: its tree, and the names on the way from the root. POSIX has one tree,
Windows one for each drive. -/
structure Place where
  drive : Option UInt8
  names : List (List UInt8)
  deriving DecidableEq

def Place.child (p : Place) (name : List UInt8) : Place := { p with names := p.names ++ [name] }

/-- `p` is `q` or one of its ancestors. -/
def Place.Above (p q : Place) : Prop := p.drive = q.drive ∧ p.names <+: q.names

/-- What relative paths start from: the current drive and the working directory on each. -/
structure WorkingDirs where
  drive : UInt8
  names : Option UInt8 → List (List UInt8)

/-- Make `p` the working directory. -/
def WorkingDirs.enter (cwd : WorkingDirs) (p : Place) : WorkingDirs where
  drive := p.drive.getD cwd.drive
  names := Function.update cwd.names p.drive p.names

def Rules.currentDrive (rules : Rules) (cwd : WorkingDirs) : Option UInt8 :=
  match rules with
  | .posix => none
  | .windows => some cwd.drive

/-- Follow one name down, or up. -/
def descend (names : List (List UInt8)) (name : List UInt8) : List (List UInt8) :=
  if name = [] then names
  else if name = [46] then names
  else if name = [46, 46] then names.dropLast
  else names ++ [name]

/-- Where a non-empty text without a NUL leads. -/
def locate (rules : Rules) (cwd : WorkingDirs) (path : List UInt8) : Place :=
  let (letter, rest) := rules.splitDrive path
  let drive := letter.or (rules.currentDrive cwd)
  let start := if rest.head?.any rules.isSeparator then [] else cwd.names drive
  ⟨drive, (rest.splitOnP rules.isSeparator).foldl descend start⟩

/-- The text ends at its first NUL. The empty one leads nowhere. -/
def resolve (rules : Rules) (cwd : WorkingDirs) (path : List UInt8) : Option Place :=
  let path := path.takeWhile (· ≠ 0)
  if path = [] then none else some (locate rules cwd path)

/-- The text of a directory's path. It names more than a drive: a separator behind nothing, or
behind `C:` alone, would lead to the root of a tree and not below the directory. -/
structure Directory (rules : Rules) where
  path : List UInt8
  noNul : 0 ∉ path
  named : (rules.splitDrive path).2 ≠ []

def Directory.place {rules : Rules} (root : Directory rules) (cwd : WorkingDirs) : Place :=
  locate rules cwd root.path

/-- One name that leads one step down. -/
structure IsName (rules : Rules) (name : List UInt8) : Prop where
  noNul : 0 ∉ name
  noSeparator : ∀ c ∈ name, rules.isSeparator c = false
  ne_nil : name ≠ []
  ne_dot : name ≠ [46]
  ne_dotdot : name ≠ [46, 46]

variable {rules : Rules} {name : List UInt8}

@[simp] lemma isSeparator_slash (rules : Rules) : rules.isSeparator 47 = true := by
  cases rules <;> rfl

lemma descend_of_isName (h : IsName rules name) (names : List (List UInt8)) :
    descend names name = names ++ [name] := by
  rw [descend, if_neg h.ne_nil, if_neg h.ne_dot, if_neg h.ne_dotdot]

/-- A child is neither its directory nor an ancestor of it. -/
lemma Place.not_above_child (p : Place) (name : List UInt8) : ¬ (p.child name).Above p := by
  rintro ⟨-, hpre⟩
  have hlength := hpre.length_le
  rw [Place.child, List.length_append, List.length_singleton] at hlength
  omega

/-! ### Below a directory -/

/-- A separator and more text do not change the drive of a directory. -/
lemma splitDrive_append {path : List UInt8} (h : (rules.splitDrive path).2 ≠ [])
    (text : List UInt8) : rules.splitDrive (path ++ 47 :: text)
      = ((rules.splitDrive path).1, (rules.splitDrive path).2 ++ 47 :: text) := by
  cases rules with
  | posix => rfl
  | windows =>
    match path with
    | [] => exact absurd rfl h
    | [c] => rfl
    | c :: d :: rest =>
      by_cases hcolon : d = 58
      · subst hcolon
        simp only [List.cons_append, Rules.splitDrive]
        cases driveOfLetter c <;> rfl
      · have hplain : ∀ tail, Rules.windows.splitDrive (c :: d :: tail) = (none, c :: d :: tail) := by
          intro tail
          rw [Rules.splitDrive]
          intro _ _ _ heq
          exact hcolon (List.cons.inj (List.cons.inj heq).2).1
        rw [List.cons_append, List.cons_append, hplain, hplain]
        rfl

lemma resolve_of_noNul {path : List UInt8} (hnul : 0 ∉ path) (hne : path ≠ [])
    (cwd : WorkingDirs) : resolve rules cwd path = some (locate rules cwd path) := by
  have hwhole : path.takeWhile (· ≠ 0) = path := by
    rw [List.takeWhile_eq_self_iff]
    intro c hc
    exact decide_eq_true fun heq => hnul (heq ▸ hc)
  rw [resolve, hwhole]
  exact if_neg hne

/-- The path of a directory leads there. -/
lemma resolve_directory (root : Directory rules) (cwd : WorkingDirs) :
    resolve rules cwd root.path = some (root.place cwd) := by
  refine resolve_of_noNul root.noNul ?_ cwd
  intro hnil
  apply root.named
  rw [hnil]
  cases rules <;> rfl

/-- A name behind a directory and a separator leads to the child of that name. -/
theorem resolve_child (h : IsName rules name) (cwd : WorkingDirs) (root : Directory rules) :
    resolve rules cwd (root.path ++ 47 :: name) = some ((root.place cwd).child name) := by
  have hnul : 0 ∉ root.path ++ 47 :: name := by
    rw [List.mem_append, List.mem_cons]
    rintro (hmem | hzero | hmem)
    · exact root.noNul hmem
    · exact absurd hzero (by decide)
    · exact h.noNul hmem
  have hhead : ((rules.splitDrive root.path).2 ++ 47 :: name).head?
      = (rules.splitDrive root.path).2.head? :=
    List.head?_append_of_ne_nil _ root.named
  have hname : name.splitOnP rules.isSeparator = [name] :=
    List.splitOnP_eq_singleton h.noSeparator
  rw [resolve_of_noNul hnul (by simp), locate, splitDrive_append root.named]
  simp only [hhead, Directory.place, locate, Place.child]
  rw [List.splitOnP_append_cons _ _ (isSeparator_slash rules), hname, List.foldl_append,
    List.foldl_cons, List.foldl_nil, descend_of_isName h]

/-- A name without a colon leads to the same place from inside the directory. -/
theorem resolve_inside (h : IsName rules name) (hcolon : 58 ∉ name) (cwd : WorkingDirs)
    (root : Directory rules) :
    resolve rules (cwd.enter (root.place cwd)) name = some ((root.place cwd).child name) := by
  have hsplit : rules.splitDrive name = (none, name) := by
    cases rules with
    | posix => rfl
    | windows =>
      rw [Rules.splitDrive]
      rintro c rest - rfl
      exact hcolon (by simp)
  have hdrive : rules.currentDrive (cwd.enter (root.place cwd)) = (root.place cwd).drive := by
    cases rules with
    | posix => rfl
    | windows =>
      simp only [Rules.currentDrive, WorkingDirs.enter, Directory.place, locate]
      cases (Rules.windows.splitDrive root.path).1 <;> rfl
  have hstart : name.head?.any rules.isSeparator = false := by
    cases hhead : name.head? with
    | none => rfl
    | some c => exact h.noSeparator c (List.mem_of_head? hhead)
  have hname : name.splitOnP rules.isSeparator = [name] :=
    List.splitOnP_eq_singleton h.noSeparator
  have hcurrent : (cwd.enter (root.place cwd)).names (root.place cwd).drive
      = (root.place cwd).names := Function.update_self ..
  rw [resolve_of_noNul h.noNul h.ne_nil, locate, hsplit]
  simp only [Option.none_or, hdrive, hstart, hname, hcurrent, List.foldl_cons, List.foldl_nil,
    descend_of_isName h, Place.child, Bool.false_eq_true, if_false]

/-! ### Every directory has a text -/

/-- The drives that there can be. -/
def Rules.IsDrive : Rules → Option UInt8 → Prop
  | .posix, drive => drive = none
  | .windows, drive => ∃ c, drive = some c ∧ 65 ≤ c ∧ c ≤ 90

/-- Every name between separators, behind the drive. -/
def Place.text (p : Place) : List UInt8 :=
  (p.drive.map fun c => [c, 58]).getD [] ++ 47 :: p.names.flatMap (· ++ [47])

lemma splitDrive_text {p : Place} (h : rules.IsDrive p.drive) :
    rules.splitDrive p.text = (p.drive, 47 :: p.names.flatMap (· ++ [47])) := by
  cases rules with
  | posix =>
    have hdrive : p.drive = none := h
    rw [Place.text, hdrive]
    rfl
  | windows =>
    obtain ⟨c, hdrive, hletter⟩ := h
    have hself : driveOfLetter c = some c := if_pos hletter
    rw [Place.text, hdrive]
    simp [Rules.splitDrive, hself]

lemma foldl_descend_text {names : List (List UInt8)} (h : ∀ name ∈ names, IsName rules name)
    (start : List (List UInt8)) :
    ((names.flatMap (· ++ [47])).splitOnP rules.isSeparator).foldl descend start
      = start ++ names := by
  induction names generalizing start with
  | nil => simp [descend]
  | cons name names ih =>
    have hname := h name List.mem_cons_self
    rw [List.flatMap_cons, List.append_assoc, List.singleton_append,
      List.splitOnP_append_cons _ _ (isSeparator_slash rules),
      List.splitOnP_eq_singleton hname.noSeparator, List.singleton_append, List.foldl_cons,
      descend_of_isName hname, ih fun n hn => h n (List.mem_cons_of_mem _ hn), List.append_assoc]
    rfl

/-- Whatever the working directories are, the text of a place leads there. -/
theorem exists_directory (p : Place) (hdrive : rules.IsDrive p.drive)
    (hnames : ∀ name ∈ p.names, IsName rules name) :
    ∃ root : Directory rules, root.path = p.text ∧ ∀ cwd, root.place cwd = p := by
  have hsplit := splitDrive_text hdrive
  have hnul : 0 ∉ p.text := by
    rw [Place.text, List.mem_append, List.mem_cons, List.mem_flatMap]
    rintro (hmem | hzero | ⟨name, hname, hmem⟩)
    · cases rules with
      | posix =>
        have hnone : p.drive = none := hdrive
        rw [hnone] at hmem
        cases hmem
      | windows =>
        obtain ⟨c, hsome, hletter, -⟩ := hdrive
        rw [hsome] at hmem
        rcases List.mem_pair.mp hmem with rfl | hcolon
        · exact absurd hletter (by decide)
        · exact absurd hcolon (by decide)
    · exact absurd hzero (by decide)
    · rcases List.mem_append.mp hmem with hmem | hslash
      · exact (hnames name hname).noNul hmem
      · exact absurd (List.mem_singleton.mp hslash) (by decide)
  refine ⟨⟨p.text, hnul, by rw [hsplit]; exact List.cons_ne_nil _ _⟩, rfl, fun cwd => ?_⟩
  have hor : p.drive.or (rules.currentDrive cwd) = p.drive := by
    cases rules with
    | posix => exact Option.or_none
    | windows =>
      obtain ⟨c, hsome, -⟩ := hdrive
      rw [hsome, Option.some_or]
  have hroot : (47 :: p.names.flatMap (· ++ [47])).splitOnP rules.isSeparator
      = [] :: (p.names.flatMap (· ++ [47])).splitOnP rules.isSeparator :=
    List.splitOnP_append_cons [] _ (isSeparator_slash rules)
  simp only [Directory.place, locate, hsplit, hor, hroot, List.head?_cons, Option.any_some,
    isSeparator_slash, if_true, List.foldl_cons]
  rw [foldl_descend_text hnames]
  rfl

end Pathname
