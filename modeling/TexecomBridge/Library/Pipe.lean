import Mathlib.Data.List.Induction
import Mathlib.Tactic

/-!
# A line that clients share one at a time

A client that opens the line owns it until it closes it. What the owner sends goes to the line and
what the line sends goes to the owner, each in order; on the way to the owner bytes may be lost.
What is on its way to the line stays there when its sender closes, until another client opens the
line. A reset loses what is on its way and cuts the owner off, whose end is closed later.
-/

/-! ### Labelled steps -/

section Steps

variable {σ ε : Type*} {step : σ → ε → σ → Prop} {s s'' : σ}

/-- A run of a labelled step relation, with the labels in order. -/
def Steps (step : σ → ε → σ → Prop) (s : σ) : List ε → σ → Prop
  | [], s' => s = s'
  | e :: es, s'' => ∃ s', step s e s' ∧ Steps step s' es s''

@[simp] lemma steps_nil {s' : σ} : Steps step s [] s' ↔ s = s' := Iff.rfl

@[simp] lemma steps_singleton {e : ε} : Steps step s [e] s'' ↔ step s e s'' := by
  simp [Steps]

lemma steps_append {es es' : List ε} :
    Steps step s (es ++ es') s'' ↔ ∃ s', Steps step s es s' ∧ Steps step s' es' s'' := by
  induction es generalizing s with
  | nil => simp
  | cons e es ih =>
    simp only [List.cons_append, Steps, ih]
    constructor
    · rintro ⟨s₁, hstep, s', hfirst, hrest⟩
      exact ⟨s', ⟨s₁, hstep, hfirst⟩, hrest⟩
    · rintro ⟨s', ⟨s₁, hstep, hfirst⟩, hrest⟩
      exact ⟨s₁, hstep, s', hfirst, hrest⟩

/-- What holds at the start and is kept by each step, given the labels before it, holds of a run. -/
lemma Steps.keeps {P : List ε → σ → Prop} {es : List ε} (h : Steps step s es s'')
    (start : P [] s) (each : ∀ es s e s', P es s → step s e s' → P (es ++ [e]) s') : P es s'' := by
  induction es using List.reverseRecOn generalizing s'' with
  | nil =>
    cases h
    exact start
  | append_singleton es e ih =>
    obtain ⟨s', hfirst, hlast⟩ := steps_append.mp h
    exact each _ _ _ _ (ih hfirst) (steps_singleton.mp hlast)

end Steps

/-! ### The line -/

/-- What happens at the two ends of the line. -/
inductive PipeEvent (κ β : Type*)
  | opened (k : κ)
  | turnedAway (k : κ)
  | closed (k : κ)
  | fromOwner (k : κ) (bs : List β)
  | toOwner (k : κ) (bs : List β)
  | fromLine (bs : List β)
  | toLine (bs : List β)
  | reset

namespace PipeEvent

variable {κ β : Type*}

def sentByOwner : PipeEvent κ β → List β
  | .fromOwner _ bs => bs
  | _ => []

def sentByLine : PipeEvent κ β → List β
  | .fromLine bs => bs
  | _ => []

def reachedOwner : PipeEvent κ β → List β
  | .toOwner _ bs => bs
  | _ => []

def reachedLine : PipeEvent κ β → List β
  | .toLine bs => bs
  | _ => []

/-- The client that sends or is sent to. -/
def client : PipeEvent κ β → Option κ
  | .fromOwner k _ => some k
  | .toOwner k _ => some k
  | _ => none

end PipeEvent

/-- The owner, what is on its way to the line and to the owner, and the client that a reset has cut
off, until its end is closed. -/
structure Pipe (κ β : Type*) where
  owner : Option κ
  lineBound : List β
  ownerBound : List β
  cutOff : Option κ

namespace Pipe

variable {κ β : Type*} {p p' : Pipe κ β} {e : PipeEvent κ β} {es : List (PipeEvent κ β)}

def vacant : Pipe κ β := ⟨none, [], [], none⟩

/-- The client whose end is open: the owner, or else the client that was cut off. -/
def held (p : Pipe κ β) : Option κ := p.owner.or p.cutOff

/-- Without an owner, what the line sends is ignored. -/
inductive Step : Pipe κ β → PipeEvent κ β → Pipe κ β → Prop
  | opened {p : Pipe κ β} (h : p.held = none) (k : κ) : Step p (.opened k) ⟨some k, [], [], none⟩
  | turnedAway {p : Pipe κ β} (h : p.owner.isSome = true) (k : κ) : Step p (.turnedAway k) p
  | closed {p : Pipe κ β} {k : κ} (h : p.held = some k) :
    Step p (.closed k) ⟨none, p.lineBound, [], none⟩
  | fromOwner {p : Pipe κ β} {k : κ} (h : p.owner = some k) (bs : List β) :
    Step p (.fromOwner k bs) { p with lineBound := p.lineBound ++ bs }
  | toOwner {p : Pipe κ β} {k : κ} (h : p.owner = some k) {bs rest : List β}
    (hbound : p.ownerBound = bs ++ rest) : Step p (.toOwner k bs) { p with ownerBound := rest }
  | fromLine {p : Pipe κ β} (h : p.owner.isSome = true) {bs kept : List β}
    (hkept : kept.Sublist (p.ownerBound ++ bs)) :
    Step p (.fromLine bs) { p with ownerBound := kept }
  | ignored {p : Pipe κ β} (h : p.owner = none) (bs : List β) : Step p (.fromLine bs) p
  | toLine {p : Pipe κ β} {bs rest : List β} (hbound : p.lineBound = bs ++ rest) :
    Step p (.toLine bs) { p with lineBound := rest }
  | reset (p : Pipe κ β) : Step p .reset ⟨none, [], [], p.held⟩

/-! ### Who owns the line -/

/-- The owner after an event. -/
def ownerStep (owner : Option κ) : PipeEvent κ β → Option κ
  | .opened k => some k
  | .closed _ => none
  | .reset => none
  | _ => owner

/-- The owner after a run of events. -/
def ownerAfter (es : List (PipeEvent κ β)) : Option κ := es.foldl ownerStep none

/-- The client whose end is open after an event. -/
def heldStep (held : Option κ) : PipeEvent κ β → Option κ
  | .opened k => some k
  | .closed _ => none
  | _ => held

/-- The last client that opened the line, unless its end was closed since. -/
def heldAfter (es : List (PipeEvent κ β)) : Option κ := es.foldl heldStep none

/-- What may happen while the line belongs to `owner` and the end of `held` is open. -/
def Allowed (owner held : Option κ) : PipeEvent κ β → Prop
  | .opened _ => owner = none ∧ held = none
  | .turnedAway _ => owner.isSome = true
  | .closed k => held = some k
  | .fromOwner k _ => owner = some k
  | .toOwner k _ => owner = some k
  | .fromLine _ => True
  | .toLine _ => True
  | .reset => True

lemma Step.owner_eq (h : Step p e p') : p'.owner = ownerStep p.owner e := by
  cases h <;> rfl

lemma Step.held_eq (h : Step p e p') : p'.held = heldStep p.held e := by
  cases h <;> rfl

lemma Step.allowed (h : Step p e p') : Allowed p.owner p.held e := by
  cases h with
  | opened hheld k => exact ⟨(Option.or_eq_none_iff.mp hheld).1, hheld⟩
  | _ => first | assumption | trivial

lemma owner_eq (h : Steps Step vacant es p) : p.owner = ownerAfter es := by
  refine h.keeps (P := fun es p => p.owner = ownerAfter es) rfl fun es p e p' ih hstep => ?_
  rw [hstep.owner_eq, ih, ownerAfter, ownerAfter, List.foldl_append, List.foldl_cons,
    List.foldl_nil]

lemma held_eq (h : Steps Step vacant es p) : p.held = heldAfter es := by
  refine h.keeps (P := fun es p => p.held = heldAfter es) rfl fun es p e p' ih hstep => ?_
  rw [hstep.held_eq, ih, heldAfter, heldAfter, List.foldl_append, List.foldl_cons, List.foldl_nil]

/-- The line has one owner at a time: it is opened when nobody's end is open, whoever comes while it
is owned is turned away, only its owner sends or is sent to, and only an end that is open is
closed. -/
lemma allowed_of_steps {before after : List (PipeEvent κ β)}
    (h : Steps Step vacant (before ++ e :: after) p) :
    Allowed (ownerAfter before) (heldAfter before) e := by
  obtain ⟨p₁, hbefore, p₂, hstep, -⟩ := steps_append.mp h
  rw [← owner_eq hbefore, ← held_eq hbefore]
  exact hstep.allowed

/-- Without a reset, only the owner's end is open. -/
lemma heldAfter_eq_ownerAfter (h : PipeEvent.reset ∉ es) : heldAfter es = ownerAfter es := by
  induction es using List.reverseRecOn with
  | nil => rfl
  | append_singleton es e ih =>
    rw [List.mem_append, not_or, List.mem_singleton] at h
    rw [heldAfter, ownerAfter, List.foldl_append, List.foldl_append, List.foldl_cons,
      List.foldl_cons, List.foldl_nil, List.foldl_nil, ← heldAfter, ← ownerAfter, ih h.1]
    cases e with
    | reset => exact absurd rfl h.2
    | _ => rfl

/-! ### What came through -/

def usageStep (usage : Option κ × List (PipeEvent κ β)) (e : PipeEvent κ β) :
    Option κ × List (PipeEvent κ β) :=
  match e with
  | .opened k => (some k, [])
  | .reset => (none, [])
  | e => (usage.1, usage.2 ++ [e])

/-- The client that opened the line last, unless it was reset since, and what has happened since. -/
def usage (es : List (PipeEvent κ β)) : Option κ × List (PipeEvent κ β) :=
  es.foldl usageStep (none, [])

/-- What the line was handed and what is on its way to it is what the user sent, and what the user
was handed and what is on its way to it is what the line sent, but for losses. No other client
sent anything or was sent anything. -/
structure Balanced (usage : Option κ × List (PipeEvent κ β)) (p : Pipe κ β) : Prop where
  owner : p.owner = none ∨ p.owner = usage.1
  line : usage.2.flatMap PipeEvent.reachedLine ++ p.lineBound
    = usage.2.flatMap PipeEvent.sentByOwner
  toOwner : (usage.2.flatMap PipeEvent.reachedOwner ++ p.ownerBound).Sublist
    (usage.2.flatMap PipeEvent.sentByLine)
  client : ∀ e ∈ usage.2, e.client = none ∨ e.client = usage.1

lemma Balanced.start (user cutOff : Option κ) :
    Balanced (user, ([] : List (PipeEvent κ β))) ⟨user, [], [], cutOff⟩ :=
  ⟨Or.inr rfl, rfl, .slnil, fun _ he => absurd he List.not_mem_nil⟩

/-- What goes in at one end of `p` comes out at the other or is on its way in `p'`. -/
lemma Balanced.extend {user : Option κ} (h : Balanced (user, es) p)
    (howner : p'.owner = none ∨ p'.owner = p.owner)
    (hline : p.lineBound ++ e.sentByOwner = e.reachedLine ++ p'.lineBound)
    (htoOwner : (e.reachedOwner ++ p'.ownerBound).Sublist (p.ownerBound ++ e.sentByLine))
    (hclient : e.client = none ∨ e.client = p.owner) : Balanced (user, es ++ [e]) p' := by
  constructor
  · rcases howner with hnone | hsame
    · exact Or.inl hnone
    · rw [hsame]
      exact h.owner
  · have hbefore := h.line
    simp only [List.flatMap_append, List.flatMap_singleton, List.append_assoc] at hbefore ⊢
    rw [← hline, ← List.append_assoc, hbefore]
  · simp only [List.flatMap_append, List.flatMap_singleton, List.append_assoc]
    refine (htoOwner.append_left _).trans ?_
    rw [← List.append_assoc]
    exact h.toOwner.append_right _
  · intro e' he'
    rcases List.mem_append.mp he' with he' | he'
    · exact h.client e' he'
    · obtain rfl := List.mem_singleton.mp he'
      rcases hclient with hnone | hsame
      · exact Or.inl hnone
      · rw [hsame]
        exact h.owner

lemma Balanced.step {usage : Option κ × List (PipeEvent κ β)} (h : Balanced usage p)
    (hstep : Step p e p') : Balanced (usageStep usage e) p' := by
  cases hstep with
  | opened hvacant k => exact .start (some k) none
  | reset => exact .start none p.held
  | turnedAway howned k =>
    exact h.extend (Or.inr rfl) (List.append_nil _) (List.sublist_append_left _ _) (Or.inl rfl)
  | closed hheld =>
    exact h.extend (Or.inl rfl) (List.append_nil _) (List.nil_sublist _) (Or.inl rfl)
  | fromOwner howner bs =>
    exact h.extend (Or.inr rfl) rfl (List.sublist_append_left _ _) (Or.inr howner.symm)
  | toOwner howner hbound =>
    refine h.extend (Or.inr rfl) (List.append_nil _) ?_ (Or.inr howner.symm)
    rw [hbound]
    exact List.sublist_append_left _ _
  | fromLine howned hkept =>
    exact h.extend (Or.inr rfl) (List.append_nil _) hkept (Or.inl rfl)
  | ignored hvacant bs =>
    exact h.extend (Or.inr rfl) (List.append_nil _) (List.sublist_append_left _ _) (Or.inl rfl)
  | toLine hbound =>
    refine h.extend (Or.inr rfl) ?_ (List.sublist_append_left _ _) (Or.inl rfl)
    rw [hbound]
    exact List.append_nil _

/-- Whatever has happened on the line, it has balanced since it was last opened or reset. -/
lemma balanced_of_steps (h : Steps Step vacant es p) : Balanced (usage es) p := by
  refine h.keeps (P := fun es p => Balanced (usage es) p) (.start none none) ?_
  intro es p e p' ih hstep
  rw [usage, List.foldl_append, List.foldl_cons, List.foldl_nil]
  exact ih.step hstep

end Pipe
