import TexecomBridge.Library.Lists
import Mathlib.Tactic

/-!
# Vectors and the buffers they lie in

A row of vectors, each in a buffer of its own. A buffer has an identity that is never given to
another. A vector stays in its buffer as long as it fits, and otherwise moves to a new one and
releases the old; erasing a vector releases its buffer. Whoever has kept a pointer can go on reading
as long as the buffer is owned, and `Follows` says until when that is.
-/

/-- What an implementation promises about the capacity of a vector: after `reserve`, and after an
insertion of `n` elements that made one of size `size` move. -/
structure GrowthPolicy where
  reserve : ℕ → ℕ
  grow : ℕ → ℕ → ℕ
  le_reserve : ∀ n, n ≤ reserve n
  le_grow : ∀ size n, size + n ≤ grow size n

/-- Reserve what is asked for, and at least double when growing. -/
def GrowthPolicy.doubling : GrowthPolicy where
  reserve n := n
  grow size n := size + max size n
  le_reserve _ := le_rfl
  le_grow _ _ := Nat.add_le_add_left (le_max_right _ _) _

structure Buffer (T : Type*) where
  id : ℕ
  capacity : ℕ
  contents : List T
  fits : contents.length ≤ capacity

/-- The vectors in the order they are stored. Identities below `next` have been given out. -/
structure Buffers (T : Type*) where
  next : ℕ
  owned : List (Buffer T)
  fresh : ∀ b ∈ owned, b.id < next
  distinct : (owned.map (·.id)).Nodup

namespace Buffers

variable {T : Type*}

def empty : Buffers T := ⟨0, [], by simp, by simp⟩

/-- The identities that are owned. -/
def ids (s : Buffers T) : List ℕ := s.owned.map (·.id)

/-- The contents of the vectors. -/
def contents (s : Buffers T) : List (List T) := s.owned.map (·.contents)

/-- The buffer of this identity, unless it has been released. -/
def find (s : Buffers T) (id : ℕ) : Option (Buffer T) := s.owned.find? (·.id = id)

lemma next_not_mem_ids (s : Buffers T) : s.next ∉ s.ids := by
  intro hmem
  obtain ⟨b, hb, hid⟩ := List.mem_map.mp hmem
  exact absurd (s.fresh b hb) (hid ▸ lt_irrefl _)

/-! ### Operations -/

/-- A new vector at the end, empty, with this capacity reserved. -/
def push (capacity : ℕ) (s : Buffers T) : Buffers T where
  next := s.next + 1
  owned := s.owned ++ [⟨s.next, capacity, [], Nat.zero_le _⟩]
  fresh := by
    intro b hb
    rcases List.mem_append.mp hb with hb | hb
    · exact (s.fresh b hb).trans (Nat.lt_succ_self _)
    · rw [List.mem_singleton.mp hb]
      exact Nat.lt_succ_self _
  distinct := by
    rw [List.map_append, List.map_singleton, ← List.concat_eq_append, List.nodup_concat]
    exact ⟨s.next_not_mem_ids, s.distinct⟩

lemma map_id_set_of_eq {s : Buffers T} {i : ℕ} {b b' : Buffer T} (h : s.owned[i]? = some b)
    (hid : b'.id = b.id) : (s.owned.set i b').map (·.id) = s.ids := by
  obtain ⟨front, back, howned, rfl⟩ := List.exists_split h
  rw [ids, howned, List.set_split]
  simp [hid]

/-- Replace the vector at `i` by one in the same buffer. -/
def update (i : ℕ) (b b' : Buffer T) (s : Buffers T) (h : s.owned[i]? = some b)
    (hid : b'.id = b.id) : Buffers T where
  next := s.next
  owned := s.owned.set i b'
  fresh := by
    intro x hx
    rcases List.mem_or_eq_of_mem_set hx with hx | rfl
    · exact s.fresh x hx
    · rw [hid]
      exact s.fresh b (List.mem_of_getElem? h)
  distinct := by
    rw [map_id_set_of_eq h hid]
    exact s.distinct

/-- Replace the vector at `i` by one in a new buffer. -/
def move (i : ℕ) (capacity : ℕ) (xs : List T) (fits : xs.length ≤ capacity) (s : Buffers T) :
    Buffers T where
  next := s.next + 1
  owned := s.owned.set i ⟨s.next, capacity, xs, fits⟩
  fresh := by
    intro x hx
    rcases List.mem_or_eq_of_mem_set hx with hx | rfl
    · exact (s.fresh x hx).trans (Nat.lt_succ_self _)
    · exact Nat.lt_succ_self _
  distinct := by
    cases h : s.owned[i]? with
    | none =>
      rw [List.set_eq_of_length_le (List.getElem?_eq_none_iff.mp h)]
      exact s.distinct
    | some b =>
      obtain ⟨front, back, howned, rfl⟩ := List.exists_split h
      have hdistinct := s.distinct
      have hnext := s.next_not_mem_ids
      rw [ids, howned, List.map_append, List.map_cons] at hnext
      rw [howned, List.map_append, List.map_cons, List.nodup_middle, List.nodup_cons] at hdistinct
      rw [howned, List.set_split, List.map_append, List.map_cons, List.nodup_middle, List.nodup_cons]
      refine ⟨fun hmem => hnext ?_, hdistinct.2⟩
      rw [List.mem_append] at hmem ⊢
      exact hmem.imp_right (List.mem_cons_of_mem _)

/-- Append `xs` to the vector at `i`. -/
def append (v : GrowthPolicy) (i : ℕ) (xs : List T) (s : Buffers T) : Buffers T :=
  match h : s.owned[i]? with
  | none => s
  | some b =>
    if hfits : (b.contents ++ xs).length ≤ b.capacity then
      s.update i b ⟨b.id, b.capacity, b.contents ++ xs, hfits⟩ h rfl
    else
      s.move i (v.grow b.contents.length xs.length) (b.contents ++ xs)
        (List.length_append ▸ v.le_grow _ _)

/-- Erase the vector at `i`; those behind it move up. -/
def erase (i : ℕ) (s : Buffers T) : Buffers T where
  next := s.next
  owned := s.owned.eraseIdx i
  fresh b hb := s.fresh b (List.mem_of_mem_eraseIdx hb)
  distinct := by
    rw [← List.eraseIdx_map]
    exact s.distinct.eraseIdx i

/-- An append leaves the vector in its buffer as long as it fits, and moves it when it does not. -/
lemma append_cases (v : GrowthPolicy) (i : ℕ) (xs : List T) (s : Buffers T) :
    (s.owned[i]? = none ∧ s.append v i xs = s) ∨
      ∃ b b', s.owned[i]? = some b ∧ b'.contents = b.contents ++ xs ∧
        (s.append v i xs).owned = s.owned.set i b' ∧ s.next ≤ (s.append v i xs).next ∧
        (b'.id = b.id ∧ b'.capacity = b.capacity ∨
          b'.id = s.next ∧ b.capacity < b'.contents.length) := by
  unfold append
  split
  · rename_i h
    exact Or.inl ⟨h, rfl⟩
  · rename_i b h
    right
    split_ifs with hfits
    · exact ⟨b, ⟨b.id, b.capacity, b.contents ++ xs, hfits⟩, h, rfl, rfl, le_rfl, Or.inl ⟨rfl, rfl⟩⟩
    · exact ⟨b, ⟨s.next, _, b.contents ++ xs, _⟩, h, rfl, rfl, Nat.le_succ _,
        Or.inr ⟨rfl, not_le.mp hfits⟩⟩

@[simp] lemma contents_push (capacity : ℕ) (s : Buffers T) :
    (s.push capacity).contents = s.contents ++ [[]] := by
  simp [push, contents]

@[simp] lemma contents_append (v : GrowthPolicy) (i : ℕ) (xs : List T) (s : Buffers T) :
    (s.append v i xs).contents = s.contents.modify i (· ++ xs) := by
  rcases append_cases v i xs s with ⟨hnone, heq⟩ | ⟨b, b', hb, hcontents, howned, -, -⟩
  · have hlen : s.contents.length ≤ i := by
      rw [contents, List.length_map]
      exact List.getElem?_eq_none_iff.mp hnone
    rw [heq, List.modify_eq_self hlen]
  · obtain ⟨front, back, hsplit, rfl⟩ := List.exists_split hb
    have hfront : front.length = (front.map (·.contents)).length := (List.length_map _).symm
    rw [contents, howned, contents, hsplit, List.set_split, List.map_append, List.map_append,
      List.map_cons, List.map_cons, hcontents, hfront, List.modify_split]

@[simp] lemma owned_erase (i : ℕ) (s : Buffers T) : (s.erase i).owned = s.owned.eraseIdx i := rfl

@[simp] lemma contents_erase (i : ℕ) (s : Buffers T) :
    (s.erase i).contents = s.contents.eraseIdx i := by
  rw [contents, owned_erase, contents, List.eraseIdx_map]

/-! ### Following one vector -/

/-- Where the vector that had the buffer `b` is now, if it has not been erased, and whether `b` is
still owned: it is as long as the vector has not grown beyond its capacity. -/
structure Follows (s : Buffers T) (b : Buffer T) (pos : Option ℕ) : Prop where
  known : b.id < s.next
  erased : pos = none → b.id ∉ s.ids
  stored : ∀ i, pos = some i → ∃ b', s.owned[i]? = some b' ∧ b.contents <+: b'.contents ∧
    (b'.contents.length ≤ b.capacity → b'.id = b.id ∧ b'.capacity = b.capacity) ∧
    (b.capacity < b'.contents.length → b.id ∉ s.ids)

variable {s : Buffers T} {b : Buffer T} {pos : Option ℕ}

lemma follows_self {i : ℕ} (h : s.owned[i]? = some b) : s.Follows b (some i) := by
  refine ⟨s.fresh b (List.mem_of_getElem? h), fun hpos => absurd hpos (Option.some_ne_none _), ?_⟩
  rintro j ⟨rfl⟩
  exact ⟨b, h, List.prefix_rfl, fun _ => ⟨rfl, rfl⟩, fun hgrown => absurd b.fits (not_le.mpr hgrown)⟩

lemma Follows.push (h : s.Follows b pos) (capacity : ℕ) : (s.push capacity).Follows b pos := by
  have hids : b.id ∉ s.ids → b.id ∉ (s.push capacity).ids := by
    intro hnot hmem
    rw [ids, Buffers.push, List.map_append, List.map_singleton] at hmem
    rcases List.mem_append.mp hmem with hmem | hmem
    · exact hnot hmem
    · exact absurd h.known (List.mem_singleton.mp hmem ▸ lt_irrefl _)
  refine ⟨h.known.trans (Nat.lt_succ_self _), fun hpos => hids (h.erased hpos), ?_⟩
  intro i hpos
  obtain ⟨b', hb', hpre, hfits, hgrown⟩ := h.stored i hpos
  refine ⟨b', ?_, hpre, hfits, fun hlt => hids (hgrown hlt)⟩
  exact (List.getElem?_append_left (List.getElem?_eq_some_iff.mp hb').1).trans hb'

/-- What was released stays released when another vector moves. -/
lemma not_mem_ids_set {s s' : Buffers T} {b b₁ b₂ : Buffer T} {i : ℕ} (hknown : b.id < s.next)
    (h : s.owned[i]? = some b₁) (howned : s'.owned = s.owned.set i b₂)
    (hid : b₂.id = b₁.id ∨ b₂.id = s.next) (hnot : b.id ∉ s.ids) : b.id ∉ s'.ids := by
  intro hmem
  rw [ids, howned] at hmem
  obtain ⟨x, hx, hxid⟩ := List.mem_map.mp hmem
  rcases List.mem_or_eq_of_mem_set hx with hx | rfl
  · exact hnot (List.mem_map.mpr ⟨x, hx, hxid⟩)
  · rcases hid with hid | hid
    · exact hnot (List.mem_map.mpr ⟨b₁, List.mem_of_getElem? h, hid.symm.trans hxid⟩)
    · rw [← hxid, hid] at hknown
      exact lt_irrefl _ hknown

/-- A vector that moves releases its buffer. -/
lemma not_mem_ids_of_moved {s s' : Buffers T} {b b' : Buffer T} {i : ℕ} (h : s.owned[i]? = some b)
    (howned : s'.owned = s.owned.set i b') (hid : b'.id = s.next) : b.id ∉ s'.ids := by
  obtain ⟨front, back, hsplit, rfl⟩ := List.exists_split h
  have hdistinct := s.distinct
  rw [hsplit, List.map_append, List.map_cons, List.nodup_middle, List.nodup_cons] at hdistinct
  have hne : b.id ≠ b'.id := by
    rw [hid]
    exact (s.fresh b (List.mem_of_getElem? h)).ne
  rw [ids, howned, hsplit, List.set_split, List.map_append, List.map_cons, List.mem_append,
    List.mem_cons]
  rintro (hmem | heq | hmem)
  · exact hdistinct.1 (List.mem_append_left _ hmem)
  · exact hne heq
  · exact hdistinct.1 (List.mem_append_right _ hmem)

lemma Follows.append (h : s.Follows b pos) (v : GrowthPolicy) (i : ℕ) (xs : List T) :
    (s.append v i xs).Follows b pos := by
  rcases append_cases v i xs s with ⟨-, heq⟩ | ⟨b₁, b₂, hb₁, hcontents, howned, hnext, hcase⟩
  · rw [heq]
    exact h
  · have hkeep : b.id ∉ s.ids → b.id ∉ (s.append v i xs).ids :=
      not_mem_ids_set h.known hb₁ howned (hcase.imp And.left And.left)
    refine ⟨h.known.trans_le hnext, fun hpos => hkeep (h.erased hpos), ?_⟩
    intro j hpos
    obtain ⟨b', hb', hpre, hfits, hgrown⟩ := h.stored j hpos
    by_cases hij : i = j
    · subst hij
      obtain rfl : b₁ = b' := Option.some.inj (hb₁.symm.trans hb')
      have hlen : b₁.contents.length ≤ b₂.contents.length := by
        rw [hcontents, List.length_append]
        exact Nat.le_add_right _ _
      refine ⟨b₂, ?_, ?_, ?_, ?_⟩
      · rw [howned]
        exact List.getElem?_set_self (List.getElem?_eq_some_iff.mp hb₁).1
      · rw [hcontents]
        exact hpre.trans (List.prefix_append _ _)
      · intro hle
        obtain ⟨hid, hcap⟩ := hfits (hlen.trans hle)
        rcases hcase with ⟨hid', hcap'⟩ | ⟨-, hlt⟩
        · exact ⟨hid'.trans hid, hcap'.trans hcap⟩
        · rw [hcap] at hlt
          exact absurd hle (not_le.mpr hlt)
      · intro hlt
        by_cases hle : b₁.contents.length ≤ b.capacity
        · obtain ⟨hid, hcap⟩ := hfits hle
          rcases hcase with ⟨-, hcap'⟩ | ⟨hid', -⟩
          · have hfull := b₂.fits
            rw [hcap', hcap] at hfull
            exact absurd hfull (not_le.mpr hlt)
          · rw [← hid]
            exact not_mem_ids_of_moved hb₁ howned hid'
        · exact hkeep (hgrown (not_le.mp hle))
    · refine ⟨b', ?_, hpre, hfits, fun hlt => hkeep (hgrown hlt)⟩
      rw [howned, List.getElem?_set_ne hij]
      exact hb'

/-- The position after the vector at `j` was erased. -/
def shift (j i : ℕ) : Option ℕ := if i = j then none else if j < i then some (i - 1) else some i

lemma Follows.erase (h : s.Follows b pos) (j : ℕ) : (s.erase j).Follows b (pos.bind (shift j)) := by
  have hkeep : b.id ∉ s.ids → b.id ∉ (s.erase j).ids := by
    intro hnot hmem
    obtain ⟨x, hx, hxid⟩ := List.mem_map.mp hmem
    exact hnot (List.mem_map.mpr ⟨x, List.mem_of_mem_eraseIdx hx, hxid⟩)
  cases pos with
  | none => exact ⟨h.known, fun _ => hkeep (h.erased rfl), fun i hi => by cases hi⟩
  | some i =>
    obtain ⟨b', hb', hpre, hfits, hgrown⟩ := h.stored i rfl
    rw [Option.bind_some, shift]
    split_ifs with hij hlt
    · subst hij
      refine ⟨h.known, fun _ => ?_, fun k hk => by cases hk⟩
      by_cases hle : b'.contents.length ≤ b.capacity
      · obtain ⟨front, back, hsplit, rfl⟩ := List.exists_split hb'
        have hdistinct := s.distinct
        rw [hsplit, List.map_append, List.map_cons, List.nodup_middle, List.nodup_cons,
          ← List.map_append] at hdistinct
        rw [← (hfits hle).1, ids, owned_erase, hsplit,
          List.eraseIdx_append_of_length_le le_rfl, Nat.sub_self, List.eraseIdx_cons_zero]
        exact hdistinct.1
      · exact hkeep (hgrown (not_le.mp hle))
    · refine ⟨h.known, fun hpos => absurd hpos (Option.some_ne_none _), ?_⟩
      rintro k ⟨rfl⟩
      refine ⟨b', ?_, hpre, hfits, fun hg => hkeep (hgrown hg)⟩
      rw [owned_erase, List.getElem?_eraseIdx_of_ge (Nat.le_sub_one_of_lt hlt),
        Nat.sub_add_cancel (Nat.one_le_of_lt hlt)]
      exact hb'
    · refine ⟨h.known, fun hpos => absurd hpos (Option.some_ne_none _), ?_⟩
      rintro k ⟨rfl⟩
      refine ⟨b', ?_, hpre, hfits, fun hg => hkeep (hgrown hg)⟩
      rw [owned_erase, List.getElem?_eraseIdx_of_lt (lt_of_le_of_ne (not_lt.mp hlt) hij)]
      exact hb'

lemma find_eq_none_iff {id : ℕ} : s.find id = none ↔ id ∉ s.ids := by
  rw [find, List.find?_eq_none]
  constructor
  · intro h hmem
    obtain ⟨x, hx, rfl⟩ := List.mem_map.mp hmem
    exact h x hx (decide_eq_true rfl)
  · intro h x hx heq
    exact h (List.mem_map.mpr ⟨x, hx, of_decide_eq_true heq⟩)

/-- As long as the vector has not outgrown the buffer, what it held can still be read there. -/
lemma Follows.find_of_le {i : ℕ} (h : s.Follows b (some i)) {b' : Buffer T}
    (hb' : s.owned[i]? = some b') (hle : b'.contents.length ≤ b.capacity) :
    s.find b.id = some b' ∧ b.contents <+: b'.contents := by
  obtain ⟨b₁, hb₁, hpre, hfits, -⟩ := h.stored i rfl
  obtain rfl : b₁ = b' := Option.some.inj (hb₁.symm.trans hb')
  refine ⟨?_, hpre⟩
  rw [← (hfits hle).1]
  exact List.find?_key s.distinct (List.mem_of_getElem? hb')

/-- Once it has, the buffer is gone. -/
lemma Follows.find_of_lt {i : ℕ} (h : s.Follows b (some i)) {b' : Buffer T}
    (hb' : s.owned[i]? = some b') (hlt : b.capacity < b'.contents.length) : s.find b.id = none := by
  obtain ⟨b₁, hb₁, -, -, hgrown⟩ := h.stored i rfl
  obtain rfl : b₁ = b' := Option.some.inj (hb₁.symm.trans hb')
  exact find_eq_none_iff.mpr (hgrown hlt)

/-- Once the vector has been erased, so is its buffer. -/
lemma Follows.find_of_erased (h : s.Follows b none) : s.find b.id = none :=
  find_eq_none_iff.mpr (h.erased rfl)

end Buffers
