import Mathlib.Data.Nat.Notation

/-!
# Steps that may return nothing

A function of C that returns a pointer may return null, and what it has done to the state by then stays
done.  `Fallible σ α` is such a step.

* `Fallible.All`: what holds of every result, with a rule for each way to compose steps.
* `Fallible.Keeps`: the same, for a step that keeps an invariant of the state.
* `Fallible.Triple`: what a step that returns makes of the state.
* `Fallible.Moves`: what a step changes.
* `Fallible.Returns`: a step that returns something as long as there is room for it.
-/

/-- A step on a state that returns a value or nothing. -/
def Fallible (σ α : Type) : Type := σ → Option α × σ

namespace Fallible

variable {σ τ α β : Type}

instance : Monad (Fallible σ) where
  pure a := fun s => (some a, s)
  bind x f := fun s =>
    match x s with
    | (some a, s) => f a s
    | (none, s) => (none, s)

/-- Return nothing. -/
def fail : Fallible σ α := fun s => (none, s)

/-- Read the state. -/
def read : Fallible σ σ := fun s => (some s, s)

/-- Change the state. -/
def modify (f : σ → σ) : Fallible σ Unit := fun s => (some (), f s)

/-- A step on a part of the state. -/
def within (get : τ → σ) (set : σ → τ → τ) (x : Fallible σ α) : Fallible τ α := fun t =>
  match x (get t) with
  | (result, s) => (result, set s t)

/-- Take both of two steps, also when the first returns nothing; then return both results or nothing. -/
def both (x : Fallible σ α) (y : Fallible σ β) : Fallible σ (α × β) := fun s =>
  let (a, s) := x s
  let (b, s) := y s
  match a, b with
  | some a, some b => (some (a, b), s)
  | _, _ => (none, s)

/-- A step that never fails: nothing is a result as well. -/
def attempt (x : Fallible σ α) : Fallible σ (Option α) := fun s => (some (x s).1, (x s).2)

/-- A result that may be nothing. -/
def ofOption : Option α → Fallible σ α
  | some a => pure a
  | none => fail

/-! ### Results -/

theorem bind_of_none {x : Fallible σ α} {f : α → Fallible σ β} {s t : σ} (h : x s = (none, t)) :
    (x >>= f) s = (none, t) := by
  show (match x s with | (some a, t) => f a t | (none, t) => (none, t)) = _
  rw [h]

theorem bind_of_some {x : Fallible σ α} {f : α → Fallible σ β} {s t : σ} {a : α}
    (h : x s = (some a, t)) : (x >>= f) s = f a t := by
  show (match x s with | (some a, t) => f a t | (none, t) => (none, t)) = _
  rw [h]

/-- A step that returned was a step that returned and then another one. -/
theorem bind_eq_some {x : Fallible σ α} {f : α → Fallible σ β} {s s' : σ} {b : β} :
    (x >>= f) s = (some b, s') ↔ ∃ a t, x s = (some a, t) ∧ f a t = (some b, s') := by
  rcases hx : x s with ⟨_ | a, t⟩
  · rw [bind_of_none hx]
    constructor
    · intro h
      exact absurd h (by simp)
    · rintro ⟨a, t', h, -⟩
      exact absurd h (by simp)
  · rw [bind_of_some hx]
    constructor
    · intro h
      exact ⟨a, t, rfl, h⟩
    · rintro ⟨a', t', h, hf⟩
      cases h
      exact hf

theorem both_eq_some {x : Fallible σ α} {y : Fallible σ β} {s s' : σ} {a : α} {b : β} :
    x.both y s = (some (a, b), s') ↔ ∃ t, x s = (some a, t) ∧ y t = (some b, s') := by
  rw [both]
  dsimp only
  rcases hx : x s with ⟨_ | a', t⟩
  · constructor
    · intro h
      exact absurd h (by simp)
    · rintro ⟨t', h, -⟩
      exact absurd h (by simp)
  · rcases hy : y t with ⟨_ | b', u⟩
    · constructor
      · intro h
        exact absurd h (by simp)
      · rintro ⟨t', h, h'⟩
        cases h
        rw [hy] at h'
        exact absurd h' (by simp)
    · constructor
      · intro h
        cases h
        exact ⟨t, rfl, hy⟩
      · rintro ⟨t', h, h'⟩
        cases h
        rw [hy] at h'
        cases h'
        rfl

@[simp] theorem pure_eq_some {s s' : σ} {a b : α} :
    (pure a : Fallible σ α) s = (some b, s') ↔ a = b ∧ s = s' := by
  show (some a, s) = (some b, s') ↔ _
  simp

@[simp] theorem fail_ne_some {s s' : σ} {b : α} : ¬ (fail : Fallible σ α) s = (some b, s') := by
  simp [fail]

/-- Every result has a property. -/
def All (x : Fallible σ α) (p : α → Prop) : Prop := ∀ s b s', x s = (some b, s') → p b

theorem All.pure {p : α → Prop} {a : α} (h : p a) : (Pure.pure a : Fallible σ α).All p := by
  intro s b s' hs
  rw [pure_eq_some] at hs
  exact hs.1 ▸ h

theorem All.fail {p : α → Prop} : (fail : Fallible σ α).All p := fun _ _ _ h => absurd h fail_ne_some

theorem All.bind {x : Fallible σ α} {f : α → Fallible σ β} {p : α → Prop} {q : β → Prop} (hx : x.All p)
    (hf : ∀ a, p a → (f a).All q) : (x >>= f).All q := by
  intro s b s' h
  obtain ⟨a, t, hxa, hfb⟩ := bind_eq_some.mp h
  exact hf a (hx s a t hxa) t b s' hfb

/-- A step whose result may be anything. -/
theorem All.andThen {x : Fallible σ α} {f : α → Fallible σ β} {q : β → Prop} (hf : ∀ a, (f a).All q) :
    (x >>= f).All q :=
  All.bind (p := fun _ => True) (fun _ _ _ _ => trivial) fun a _ => hf a

theorem All.mono {x : Fallible σ α} {p q : α → Prop} (hx : x.All p) (h : ∀ a, p a → q a) : x.All q :=
  fun s b s' hs => h b (hx s b s' hs)

theorem All.ite {c : Prop} [Decidable c] {x y : Fallible σ α} {p : α → Prop} (hx : c → x.All p)
    (hy : ¬ c → y.All p) : (if c then x else y).All p := by
  by_cases h : c
  · rw [if_pos h]
    exact hx h
  · rw [if_neg h]
    exact hy h

theorem All.both {x : Fallible σ α} {y : Fallible σ β} {p : α → Prop} {q : β → Prop} (hx : x.All p)
    (hy : y.All q) : (x.both y).All fun ab => p ab.1 ∧ q ab.2 := by
  intro s ab s' h
  obtain ⟨t, ha, hb⟩ := both_eq_some.mp h
  exact ⟨hx s ab.1 t ha, hy t ab.2 s' hb⟩

theorem All.attempt {x : Fallible σ α} {p : α → Prop} (hx : x.All p) :
    (attempt x).All fun result => ∀ a, result = some a → p a := by
  intro s result s' h a ha
  cases h
  exact hx s a (x s).2 (Prod.ext ha rfl)

theorem All.ofOption {result : Option α} {p : α → Prop} (h : ∀ a, result = some a → p a) :
    (ofOption result : Fallible σ α).All p := by
  cases result with
  | some a => exact .pure (h a rfl)
  | none => exact .fail

/-! ### Invariants -/

/-- A step keeps an invariant of the state, whether it returns something or not, and every result has a
property. -/
def Keeps (I : σ → Prop) (x : Fallible σ α) (p : α → Prop) : Prop :=
  ∀ s, I s → I (x s).2 ∧ ∀ a, (x s).1 = some a → p a

section Keeps

variable {I : σ → Prop} {p : α → Prop} {q : β → Prop} {x : Fallible σ α}

theorem Keeps.pure {a : α} (h : p a) : Keeps I (Pure.pure a : Fallible σ α) p :=
  fun _ hs => ⟨hs, fun _ hb => Option.some.inj hb ▸ h⟩

theorem Keeps.fail : Keeps I (fail : Fallible σ α) p := fun _ hs => ⟨hs, fun _ hb => nomatch hb⟩

theorem Keeps.bind {f : α → Fallible σ β} (hx : Keeps I x p) (hf : ∀ a, p a → Keeps I (f a) q) :
    Keeps I (x >>= f) q := by
  intro s hs
  obtain ⟨hkept, hresult⟩ := hx s hs
  rcases hx' : x s with ⟨_ | a, t⟩
  · rw [bind_of_none hx']
    rw [hx'] at hkept
    exact ⟨hkept, fun b hb => nomatch hb⟩
  · rw [bind_of_some hx']
    rw [hx'] at hkept hresult
    exact hf a (hresult a rfl) t hkept

theorem Keeps.both {y : Fallible σ β} (hx : Keeps I x p) (hy : Keeps I y q) :
    Keeps I (x.both y) fun ab => p ab.1 ∧ q ab.2 := by
  intro s hs
  obtain ⟨hkept, hresult⟩ := hx s hs
  obtain ⟨hkept', hresult'⟩ := hy (x s).2 hkept
  rw [Fallible.both]
  dsimp only
  cases ha : (x s).1 with
  | none => exact ⟨hkept', fun ab hab => nomatch hab⟩
  | some a =>
    cases hb : (y (x s).2).1 with
    | none => exact ⟨hkept', fun ab hab => nomatch hab⟩
    | some b =>
      refine ⟨hkept', fun ab hab => ?_⟩
      obtain rfl := Option.some.inj hab
      exact ⟨hresult a ha, hresult' b hb⟩

theorem Keeps.mono {p' : α → Prop} (hx : Keeps I x p) (h : ∀ a, p a → p' a) : Keeps I x p' :=
  fun s hs => ⟨(hx s hs).1, fun a ha => h a ((hx s hs).2 a ha)⟩

/-- A step on a part of the state that the invariant does not see. -/
theorem Keeps.within {J : τ → Prop} {get : τ → σ} {set : σ → τ → τ} (hx : x.All p)
    (hset : ∀ t s, J t → J (set s t)) : Keeps J (x.within get set) p := by
  intro t ht
  refine ⟨hset t _ ht, fun a ha => ?_⟩
  exact hx (get t) a (x (get t)).2 (Prod.ext ha rfl)

end Keeps

/-! ### Conditions before and after -/

/-- From a state with `P`, a step that returns leaves a result and a state with `Q`. -/
def Triple (P : σ → Prop) (x : Fallible σ α) (Q : α → σ → Prop) : Prop :=
  ∀ s a t, P s → x s = (some a, t) → Q a t

section Triple

variable {P : σ → Prop} {Q : α → σ → Prop} {R : β → σ → Prop} {x : Fallible σ α}

theorem Triple.pure {a : α} (h : ∀ s, P s → Q a s) : Triple P (Pure.pure a) Q := by
  intro s b t hs hrun
  obtain ⟨rfl, rfl⟩ := pure_eq_some.mp hrun
  exact h s hs

theorem Triple.fail : Triple P (fail : Fallible σ α) Q := fun _ _ _ _ hrun => absurd hrun fail_ne_some

theorem Triple.modify {f : σ → σ} {Q : Unit → σ → Prop} (h : ∀ s, P s → Q () (f s)) :
    Triple P (modify f) Q := by
  intro s _ t hs hrun
  cases hrun
  exact h s hs

theorem Triple.bind {f : α → Fallible σ β} (hx : Triple P x Q) (hf : ∀ a, Triple (Q a) (f a) R) :
    Triple P (x >>= f) R := by
  intro s b u hs hrun
  obtain ⟨a, t, hxa, hfb⟩ := bind_eq_some.mp hrun
  exact hf a t b u (hx s a t hs hxa) hfb

theorem Triple.mono {Q' : α → σ → Prop} (hx : Triple P x Q) (h : ∀ a s, Q a s → Q' a s) :
    Triple P x Q' :=
  fun s a t hs hrun => h a t (hx s a t hs hrun)

theorem Triple.ite {c : Prop} [Decidable c] {y : Fallible σ α} (hx : c → Triple P x Q)
    (hy : ¬ c → Triple P y Q) : Triple P (if c then x else y) Q := by
  by_cases h : c
  · rw [if_pos h]
    exact hx h
  · rw [if_neg h]
    exact hy h

end Triple

/-! ### What changes -/

/-- The state before a step and the one after it are in a relation, whether the step returns something or
not. -/
def Moves (R : σ → σ → Prop) (x : Fallible σ α) : Prop := ∀ s, R s (x s).2

section Moves

variable {R : σ → σ → Prop} {x : Fallible σ α}

theorem Moves.pure (hrefl : ∀ s, R s s) (a : α) : Moves R (Pure.pure a : Fallible σ α) := hrefl

theorem Moves.fail (hrefl : ∀ s, R s s) : Moves R (fail : Fallible σ α) := hrefl

theorem Moves.read (hrefl : ∀ s, R s s) : Moves R (read : Fallible σ σ) := hrefl

theorem Moves.modify {f : σ → σ} (h : ∀ s, R s (f s)) : Moves R (modify f) := h

theorem Moves.bind {f : α → Fallible σ β} (htrans : ∀ {s t u}, R s t → R t u → R s u) (hx : Moves R x)
    (hf : ∀ a, Moves R (f a)) : Moves R (x >>= f) := by
  intro s
  have hstep := hx s
  rcases hx' : x s with ⟨_ | a, t⟩
  · rw [hx'] at hstep
    rw [bind_of_none hx']
    exact hstep
  · rw [hx'] at hstep
    rw [bind_of_some hx']
    exact htrans hstep (hf a t)

theorem Moves.within {Q : τ → τ → Prop} {get : τ → σ} {set : σ → τ → τ} (h : ∀ t s, Q t (set s t))
    (x : Fallible σ α) : Moves Q (x.within get set) :=
  fun t => h t _

end Moves

/-! ### Steps that return -/

/-- With room for `n` more than the rest, a step returns something and leaves the rest. -/
def Returns (room : ℕ → σ → Prop) (n : ℕ) (x : Fallible σ α) (p : α → Prop) : Prop :=
  ∀ rest s, room (n + rest) s → ∃ a t, x s = (some a, t) ∧ p a ∧ room rest t

section Returns

variable {room : ℕ → σ → Prop} {n m k : ℕ} {p : α → Prop} {q : β → Prop} {x : Fallible σ α}

theorem Returns.pure {a : α} (hroom : ∀ {n m s}, n ≤ m → room m s → room n s) (h : p a) :
    Returns room n (Pure.pure a) p :=
  fun _ s hs => ⟨a, s, rfl, h, hroom (Nat.le_add_left _ _) hs⟩

theorem Returns.bind {f : α → Fallible σ β} (hx : Returns room n x p)
    (hf : ∀ a, p a → Returns room m (f a) q) : Returns room (n + m) (x >>= f) q := by
  intro rest s hs
  rw [Nat.add_assoc] at hs
  obtain ⟨a, t, ha, hp, ht⟩ := hx (m + rest) s hs
  obtain ⟨b, u, hb, hq, hu⟩ := hf a hp rest t ht
  exact ⟨b, u, (bind_of_some ha).trans hb, hq, hu⟩

theorem Returns.both {y : Fallible σ β} (hx : Returns room n x p) (hy : Returns room m y q) :
    Returns room (n + m) (x.both y) fun ab => p ab.1 ∧ q ab.2 := by
  intro rest s hs
  rw [Nat.add_assoc] at hs
  obtain ⟨a, t, ha, hp, ht⟩ := hx (m + rest) s hs
  obtain ⟨b, u, hb, hq, hu⟩ := hy rest t ht
  exact ⟨(a, b), u, both_eq_some.mpr ⟨t, ha, hb⟩, ⟨hp, hq⟩, hu⟩

theorem Returns.attempt (hx : Returns room n x p) :
    Returns room n (attempt x) fun result => ∃ a, result = some a ∧ p a := by
  intro rest s hs
  obtain ⟨a, t, ha, hp, ht⟩ := hx rest s hs
  refine ⟨some a, t, ?_, ⟨a, rfl, hp⟩, ht⟩
  rw [Fallible.attempt, ha]

theorem Returns.ofOption {result : Option α} (hroom : ∀ {n m s}, n ≤ m → room m s → room n s)
    (h : ∃ a, result = some a ∧ p a) : Returns room n (ofOption result) p := by
  obtain ⟨a, rfl, ha⟩ := h
  exact .pure hroom ha

/-- It may have more room than it needs. -/
theorem Returns.mono (hx : Returns room n x p) (hroom : ∀ {n m s}, n ≤ m → room m s → room n s)
    (hle : n ≤ m) : Returns room m x p := by
  intro rest s hs
  exact hx rest s (hroom (by omega) hs)

theorem Returns.ite {c : Prop} [Decidable c] {y : Fallible σ α} (hx : c → Returns room n x p)
    (hy : ¬ c → Returns room n y p) : Returns room n (if c then x else y) p := by
  by_cases h : c
  · rw [if_pos h]
    exact hx h
  · rw [if_neg h]
    exact hy h

theorem Returns.imp {p' : α → Prop} (hx : Returns room n x p) (h : ∀ a, p a → p' a) :
    Returns room n x p' := by
  intro rest s hs
  obtain ⟨a, t, ha, hp, ht⟩ := hx rest s hs
  exact ⟨a, t, ha, h a hp, ht⟩

/-- What holds of every result holds of the one that is returned. -/
theorem Returns.of_all (hx : Returns room n x fun _ => True) (hall : x.All p) : Returns room n x p := by
  intro rest s hs
  obtain ⟨a, t, ha, -, ht⟩ := hx rest s hs
  exact ⟨a, t, ha, hall s a t ha, ht⟩

end Returns

end Fallible
