import Mathlib.Logic.Relation
import Mathlib.Data.List.Destutter
import Mathlib.Data.List.Forall2
import Mathlib.Data.List.Induction

/-! # Runs of a step

Two shapes of execution. A loop over a list that stops at the first error and keeps the state it had
reached there; and a step relation from a set of initial states, taken any number of times. For runs over a
list of events there is a rule for events that may change places, and one for events that take the run from
stage to stage; and a log of events can be read for the last one that has something to say, or for all that
its events have to report. For a run that goes on for ever there is a rule for what fairness brings about.
-/

namespace Runs

universe u v w

section Loop

variable {σ : Type u} {α : Type v} {ε : Type w}

def tryFold (step : σ → α → σ × Option ε) : σ → List α → σ × Option ε
  | s, [] => (s, none)
  | s, x :: xs =>
    match step s x with
    | (s', some err) => (s', some err)
    | (s', none) => tryFold step s' xs

variable {step : σ → α → σ × Option ε}

@[simp] theorem tryFold_nil (s : σ) : tryFold step s [] = (s, none) := rfl

theorem tryFold_cons_ok {s s' : σ} {x : α} {xs : List α} (h : step s x = (s', none)) :
    tryFold step s (x :: xs) = tryFold step s' xs := by
  rw [tryFold, h]

theorem tryFold_cons_error {s s' : σ} {x : α} {xs : List α} {err : ε} (h : step s x = (s', some err)) :
    tryFold step s (x :: xs) = (s', some err) := by
  rw [tryFold, h]

theorem tryFold_append_ok {s s' : σ} {xs ys : List α} (h : tryFold step s xs = (s', none)) :
    tryFold step s (xs ++ ys) = tryFold step s' ys := by
  induction xs generalizing s with
  | nil => cases h; rfl
  | cons x xs ih =>
    rw [tryFold] at h
    split at h
    · cases h
    · rename_i hStep
      rw [List.cons_append, tryFold_cons_ok hStep]
      exact ih h

theorem tryFold_append_error {s s' : σ} {xs ys : List α} {err : ε}
    (h : tryFold step s xs = (s', some err)) : tryFold step s (xs ++ ys) = (s', some err) := by
  induction xs generalizing s with
  | nil => cases h
  | cons x xs ih =>
    rw [tryFold] at h
    split at h
    · rename_i hStep
      rw [List.cons_append, tryFold_cons_error hStep]
      exact h
    · rename_i hStep
      rw [List.cons_append, tryFold_cons_ok hStep]
      exact ih h

theorem tryFold_concat_ok {s s' : σ} {xs : List α} {x : α} :
    tryFold step s (xs ++ [x]) = (s', none) ↔
      ∃ m, tryFold step s xs = (m, none) ∧ step m x = (s', none) := by
  rcases hRun : tryFold step s xs with ⟨m, _ | err⟩
  · rw [tryFold_append_ok hRun]
    rcases hStep : step m x with ⟨t, _ | err⟩
    · rw [tryFold_cons_ok hStep]
      simp [hStep]
    · rw [tryFold_cons_error hStep]
      simp [hStep]
  · rw [tryFold_append_error hRun]
    simp

/-- The loop rule: what every step keeps, a failing one included, holds wherever the loop stops. -/
theorem tryFold_invariant (I : σ → Prop) (hStep : ∀ s x, I s → I (step s x).1) {s : σ} (h : I s)
    (xs : List α) : I (tryFold step s xs).1 := by
  induction xs generalizing s with
  | nil => exact h
  | cons x xs ih =>
    have hNext := hStep s x h
    rw [tryFold]
    split
    · rename_i hEq
      rwa [hEq] at hNext
    · rename_i hEq
      rw [hEq] at hNext
      exact ih hNext

/-- A loop fails only with what its steps fail with. -/
theorem tryFold_error {P : ε → Prop} (hStep : ∀ s x s' err, step s x = (s', some err) → P err) {s s' : σ}
    {xs : List α} {err : ε} (h : tryFold step s xs = (s', some err)) : P err := by
  induction xs generalizing s with
  | nil => cases h
  | cons x xs ih =>
    rw [tryFold] at h
    split at h
    · rename_i hFirst
      cases h
      exact hStep s x s' err hFirst
    · exact ih h

/-- A loop whose step decodes an element and folds the result into the state. -/
theorem tryFold_decode {β : Type*} {decode : α → Except ε β} {put : σ → β → σ}
    (hOk : ∀ s x b, decode x = .ok b → step s x = (put s b, none))
    (hError : ∀ s x err, decode x = .error err → step s x = (s, some err)) (s : σ) (xs : List α) :
    (∃ bs, List.Forall₂ (fun x b => decode x = .ok b) xs bs ∧
      tryFold step s xs = (bs.foldl put s, none)) ∨
    ∃ bs err, tryFold step s xs = (bs.foldl put s, some err) ∧
      ∃ done x rest, xs = done ++ x :: rest ∧
        List.Forall₂ (fun x b => decode x = .ok b) done bs ∧ decode x = .error err := by
  induction xs generalizing s with
  | nil => exact Or.inl ⟨[], .nil, rfl⟩
  | cons x xs ih =>
    cases hDecode : decode x with
    | error err =>
      refine Or.inr ⟨[], err, tryFold_cons_error (hError s x err hDecode), [], x, xs, rfl, .nil, hDecode⟩
    | ok b =>
      rw [tryFold_cons_ok (hOk s x b hDecode)]
      rcases ih (put s b) with ⟨bs, hAll, hRun⟩ | ⟨bs, err, hRun, done, y, rest, hSplit, hAll, hLast⟩
      · exact Or.inl ⟨b :: bs, .cons hDecode hAll, hRun⟩
      · refine Or.inr ⟨b :: bs, err, hRun, x :: done, y, rest, ?_, .cons hDecode hAll, hLast⟩
        rw [hSplit, List.cons_append]

end Loop

section Fallible

theorem bind_eq_ok {ε α β : Type*} {x : Except ε α} {f : α → Except ε β} {b : β} :
    x.bind f = .ok b ↔ ∃ a, x = .ok a ∧ f a = .ok b := by
  cases x with
  | error err => simp [Except.bind]
  | ok a => simp [Except.bind]

theorem mapError_eq_ok {ε ε' α : Type*} {x : Except ε α} {f : ε → ε'} {a : α} :
    x.mapError f = .ok a ↔ x = .ok a := by
  cases x <;> simp [Except.mapError]

end Fallible

section Related

theorem map_eq_map_of_forall₂ {α β γ : Type*} {R : α → β → Prop} {f : β → γ} {g : α → γ} {xs : List α}
    {ys : List β} (h : List.Forall₂ R xs ys) (hEq : ∀ x y, R x y → f y = g x) : ys.map f = xs.map g := by
  induction h with
  | nil => rfl
  | cons hHead _ ih => rw [List.map_cons, List.map_cons, ih, hEq _ _ hHead]

theorem exists_of_forall₂_right {α β : Type*} {R : α → β → Prop} {xs : List α} {ys : List β}
    (h : List.Forall₂ R xs ys) {y : β} (hy : y ∈ ys) : ∃ x ∈ xs, R x y := by
  induction h with
  | nil => cases hy
  | cons hHead _ ih =>
    rcases List.mem_cons.mp hy with rfl | hTail
    · exact ⟨_, List.mem_cons_self, hHead⟩
    · obtain ⟨x, hx, hR⟩ := ih hTail
      exact ⟨x, List.mem_cons_of_mem _ hx, hR⟩

theorem rel_getElem? {α β : Type*} {R : α → β → Prop} {xs : List α} {ys : List β} (h : List.Forall₂ R xs ys)
    {i : Nat} {x : α} {y : β} (hx : xs[i]? = some x) (hy : ys[i]? = some y) : R x y := by
  obtain ⟨hi, rfl⟩ := List.getElem?_eq_some_iff.mp hx
  obtain ⟨hi', rfl⟩ := List.getElem?_eq_some_iff.mp hy
  exact h.get hi hi'

theorem rel_find? {α β : Type*} {R : α → β → Prop} {p : α → Bool} {q : β → Bool} {xs : List α} {ys : List β}
    (h : List.Forall₂ R xs ys) (hTest : ∀ x y, R x y → p x = q y) :
    Option.Rel R (xs.find? p) (ys.find? q) := by
  induction h with
  | nil => exact .none
  | cons hHead _ ih =>
    rw [List.find?_cons, List.find?_cons, hTest _ _ hHead]
    split
    · exact .some hHead
    · exact ih

theorem forall₂_filterMap {α β γ : Type*} {R : β → γ → Prop} {f : α → Option β} {g : α → Option γ}
    (h : ∀ x, Option.Rel R (f x) (g x)) (xs : List α) : List.Forall₂ R (xs.filterMap f) (xs.filterMap g) := by
  refine List.rel_filterMap (R := Eq) ?_ (List.forall₂_same.mpr fun _ _ => rfl)
  rintro x _ rfl
  exact h x

end Related

section Trail

variable {α : Type*} {order trail : List α} {n : Nat}

/-- The trail is taken from the first `n` of the order, at positions that never decrease, and ends with
the `n`-th. -/
structure Follows (order trail : List α) (n : Nat) : Prop where
  bound : n ≤ order.length
  last : trail.getLast? = (order.take n).getLast?
  positions : ∃ positions : List Nat, positions.Pairwise (· ≤ ·) ∧ (∀ i ∈ positions, i < n) ∧
    List.Forall₂ (fun i c => order[i]? = some c) positions trail

theorem follows_nil (order : List α) : Follows order [] 0 :=
  ⟨Nat.zero_le _, rfl, [], List.Pairwise.nil, nofun, .nil⟩

theorem Follows.concat (h : Follows order trail n) {j : Nat} (hLe : n ≤ j + 1) {c : α}
    (hAt : order[j]? = some c) : Follows order (trail ++ [c]) (j + 1) := by
  obtain ⟨positions, hSorted, hBound, hAll⟩ := h.positions
  refine ⟨(List.getElem?_eq_some_iff.mp hAt).1, ?_, positions ++ [j], ?_, ?_, ?_⟩
  · rw [List.getLast?_concat, List.take_add_one, hAt]
    exact List.getLast?_concat.symm
  · rw [List.pairwise_append]
    refine ⟨hSorted, List.pairwise_singleton _ _, ?_⟩
    intro i hi _ hj
    rw [List.mem_singleton.mp hj]
    have := hBound i hi
    omega
  · intro i hi
    rcases List.mem_append.mp hi with hOld | hNew
    · exact Nat.lt_of_lt_of_le (hBound i hOld) hLe
    · rw [List.mem_singleton.mp hNew]
      exact Nat.lt_succ_self j
  · exact List.rel_append hAll (.cons hAt .nil)

theorem Follows.extend (h : Follows order trail n) (more : List α) : Follows (order ++ more) trail n := by
  obtain ⟨positions, hSorted, hBound, hAll⟩ := h.positions
  refine ⟨?_, ?_, positions, hSorted, hBound, hAll.imp fun i c hAt => ?_⟩
  · rw [List.length_append]
    exact Nat.le_add_right_of_le h.bound
  · rw [List.take_append_of_le_length h.bound]
    exact h.last
  · rw [List.getElem?_append_left (List.getElem?_eq_some_iff.mp hAt).1]
    exact hAt

/-- A trail that has come to the end of the order ends as the order does. -/
theorem Follows.caught_up (h : Follows order trail n) (hEnd : order.length ≤ n) :
    trail.getLast? = order.getLast? := by
  rw [h.last, List.take_of_length_le hEnd]

end Trail

section Changes

variable {α : Type*} [DecidableEq α]

theorem destutter'_head (a : α) (xs : List α) : ∃ rest, xs.destutter' (· ≠ ·) a = a :: rest := by
  induction xs generalizing a with
  | nil => exact ⟨[], rfl⟩
  | cons b xs ih =>
    by_cases hSame : a = b
    · rw [List.destutter'_cons_neg _ (not_not.mpr hSame)]
      exact ih a
    · rw [List.destutter'_cons_pos _ hSame]
      exact ⟨_, rfl⟩

/-- The changes along two stretches, the second from where the first ended. -/
theorem destutter'_concat {a : α} {xs ys changes changes' : List α}
    (h : a :: changes = xs.destutter' (· ≠ ·) a)
    (h' : xs.getLastD a :: changes' = ys.destutter' (· ≠ ·) (xs.getLastD a)) :
    a :: (changes ++ changes') = (xs ++ ys).destutter' (· ≠ ·) a := by
  induction xs generalizing a changes with
  | nil =>
    cases h
    exact h'
  | cons b xs ih =>
    rw [List.getLastD_cons] at h'
    rw [List.cons_append]
    by_cases hSame : a = b
    · rw [← hSame] at h' ⊢
      rw [← hSame, List.destutter'_cons_neg _ (not_not.mpr rfl)] at h
      rw [List.destutter'_cons_neg _ (not_not.mpr rfl)]
      exact ih h h'
    · rw [List.destutter'_cons_pos _ hSame] at h ⊢
      obtain ⟨rest, hRest⟩ := destutter'_head b xs
      rw [hRest] at h
      cases h
      rw [List.cons_append, ih hRest.symm h']

end Changes

section Relation

/-- Initial states and the steps between states. -/
structure Machine (σ : Type u) where
  init : σ → Prop
  step : σ → σ → Prop

variable {σ : Type u} {τ : Type v}

def Machine.Reachable (M : Machine σ) (s : σ) : Prop :=
  ∃ s₀, M.init s₀ ∧ Relation.ReflTransGen M.step s₀ s

theorem Machine.Reachable.init {M : Machine σ} {s : σ} (h : M.init s) : M.Reachable s :=
  ⟨s, h, .refl⟩

theorem Machine.Reachable.trans {M : Machine σ} {s t : σ} (h : M.Reachable s)
    (hPath : Relation.ReflTransGen M.step s t) : M.Reachable t := by
  obtain ⟨s₀, hInit, hBefore⟩ := h
  exact ⟨s₀, hInit, hBefore.trans hPath⟩

theorem Machine.Reachable.step {M : Machine σ} {s t : σ} (h : M.Reachable s) (hStep : M.step s t) :
    M.Reachable t := h.trans (.single hStep)

/-- The invariant rule: true at the start and kept by every step, hence true wherever a run gets. -/
theorem Machine.Reachable.invariant {M : Machine σ} {I : σ → Prop} (hInit : ∀ s, M.init s → I s)
    (hStep : ∀ s t, I s → M.step s t → I t) {s : σ} (h : M.Reachable s) : I s := by
  obtain ⟨s₀, hStart, hPath⟩ := h
  induction hPath with
  | refl => exact hInit s₀ hStart
  | tail _ hLast ih => exact hStep _ _ ih hLast

/-- Reachable in so many steps. -/
inductive Machine.ReachableIn (M : Machine σ) : Nat → σ → Prop where
  | init {s : σ} (h : M.init s) : ReachableIn M 0 s
  | step {n : Nat} {s t : σ} (h : ReachableIn M n s) (hStep : M.step s t) : ReachableIn M (n + 1) t

/-- A machine that moves another one along, or leaves it where it is, reaches nothing new in it. -/
theorem Machine.Reachable.map {M : Machine σ} {N : Machine τ} (f : σ → τ)
    (hInit : ∀ s, M.init s → N.init (f s))
    (hStep : ∀ s t, M.step s t → N.step (f s) (f t) ∨ f t = f s) {s : σ} (h : M.Reachable s) :
    N.Reachable (f s) := by
  obtain ⟨s₀, hStart, hPath⟩ := h
  induction hPath with
  | refl => exact .init (hInit s₀ hStart)
  | tail _ hLast ih =>
    rcases hStep _ _ hLast with hMove | hStay
    · exact ih.step hMove
    · rwa [hStay]

/-- A sequence that stays at `s` from time `n` on can go on to `t` instead and stay there. -/
theorem exists_run_tail {M : Machine σ} {run : Nat → σ} {n : Nat} {s t : σ}
    (hPath : ∀ k, k < n → M.step (run k) (run (k + 1))) (hEnd : ∀ k, n ≤ k → run k = s) (hStep : M.step s t) :
    ∃ run' : Nat → σ, (∀ k, k ≤ n → run' k = run k) ∧
      (∀ k, k < n + 1 → M.step (run' k) (run' (k + 1))) ∧ ∀ k, n + 1 ≤ k → run' k = t := by
  refine ⟨fun k => if k ≤ n then run k else t, ?_, ?_, ?_⟩
  · intro k hk
    exact if_pos hk
  · intro k hk
    dsimp only
    by_cases hLast : k = n
    · rw [hLast, if_pos le_rfl, if_neg (Nat.not_succ_le_self n), hEnd n le_rfl]
      exact hStep
    · rw [if_pos (by omega), if_pos (by omega)]
      exact hPath k (by omega)
  · intro k hk
    exact if_neg (by omega)

/-- A path from a reachable state is taken at some time of a sequence that stays at its end. -/
theorem Machine.Reachable.exists_run {M : Machine σ} {s t : σ} (h : M.Reachable s)
    (hPath : Relation.ReflTransGen M.step s t) :
    ∃ (run : Nat → σ) (m n : Nat), m ≤ n ∧ M.init (run 0) ∧ run m = s ∧
      (∀ k, k < n → M.step (run k) (run (k + 1))) ∧ ∀ k, n ≤ k → run k = t := by
  have hReach : ∃ (run : Nat → σ) (n : Nat), M.init (run 0) ∧
      (∀ k, k < n → M.step (run k) (run (k + 1))) ∧ ∀ k, n ≤ k → run k = s := by
    refine h.invariant (I := fun s => ∃ (run : Nat → σ) (n : Nat), M.init (run 0) ∧
      (∀ k, k < n → M.step (run k) (run (k + 1))) ∧ ∀ k, n ≤ k → run k = s) ?_ ?_
    · intro s hInit
      exact ⟨fun _ => s, 0, hInit, by simp, by simp⟩
    · rintro s t ⟨run, n, hInit, hSteps, hEnd⟩ hStep
      obtain ⟨run', hSame, hSteps', hEnd'⟩ := exists_run_tail hSteps hEnd hStep
      exact ⟨run', n + 1, by rwa [hSame 0 (Nat.zero_le n)], hSteps', hEnd'⟩
  induction hPath with
  | refl =>
    obtain ⟨run, n, hInit, hSteps, hEnd⟩ := hReach
    exact ⟨run, n, n, le_rfl, hInit, hEnd n le_rfl, hSteps, hEnd⟩
  | tail _ hStep ih =>
    obtain ⟨run, m, n, hm, hInit, hAt, hSteps, hEnd⟩ := ih
    obtain ⟨run', hSame, hSteps', hEnd'⟩ := exists_run_tail hSteps hEnd hStep
    exact ⟨run', m, n + 1, by omega, by rwa [hSame 0 (Nat.zero_le n)], by rw [hSame m hm, hAt], hSteps', hEnd'⟩

/-- A property every step keeps, from states that satisfy an invariant, is never lost again. -/
theorem stable_of_step {M : Machine σ} {I P : σ → Prop} (hInv : ∀ s t, I s → M.step s t → I t)
    (hKeep : ∀ s t, I s → P s → M.step s t → P t) {s t : σ} (hI : I s) (hP : P s)
    (hPath : Relation.ReflTransGen M.step s t) : P t := by
  have hBoth : I t ∧ P t := by
    induction hPath with
    | refl => exact ⟨hI, hP⟩
    | tail _ hLast ih => exact ⟨hInv _ _ ih.1 hLast, hKeep _ _ ih.1 ih.2 hLast⟩
  exact hBoth.2

end Relation

section Order

variable {σ : Type u} {α : Type v}

/-- Neighbours that are independent may change places, any number of times. -/
inductive Reordered (I : α → α → Prop) : List α → List α → Prop where
  | refl (xs : List α) : Reordered I xs xs
  | swap (xs : List α) {x y : α} (ys : List α) (h : I x y) :
      Reordered I (xs ++ x :: y :: ys) (xs ++ y :: x :: ys)
  | trans {xs ys zs : List α} (h : Reordered I xs ys) (h' : Reordered I ys zs) : Reordered I xs zs

/-- The rule for reordered runs. `R` relates the states that count as the same: steps respect it, and two
independent steps can be taken in the other order and end in related states. -/
theorem Reordered.run {I : α → α → Prop} (step : σ → α → σ → Prop) (run : List α → σ → Prop)
    (R : σ → σ → Prop) (hRun : ∀ xs x t, run (xs ++ [x]) t ↔ ∃ s, run xs s ∧ step s x t)
    (hRefl : ∀ s, R s s) (hTrans : ∀ s t u, R s t → R t u → R s u)
    (hStep : ∀ s s' x t, R s s' → step s x t → ∃ t', step s' x t' ∧ R t t')
    (hSwap : ∀ s x m y t, I x y → step s x m → step m y t → ∃ m' t', step s y m' ∧ step m' x t' ∧ R t t')
    {xs ys : List α} (h : Reordered I xs ys) {s : σ} (hs : run xs s) : ∃ s', run ys s' ∧ R s s' := by
  induction h generalizing s with
  | refl xs => exact ⟨s, hs, hRefl s⟩
  | trans _ _ ih ih' =>
    obtain ⟨m, hm, hFirst⟩ := ih hs
    obtain ⟨t, ht, hSecond⟩ := ih' hm
    exact ⟨t, ht, hTrans s m t hFirst hSecond⟩
  | @swap xs x y ys hIndependent =>
    induction ys using List.reverseRecOn generalizing s with
    | nil =>
      have hSplit : xs ++ [x, y] = xs ++ [x] ++ [y] := by simp
      obtain ⟨m, hm, hSecond⟩ := (hRun _ _ _).mp (hSplit ▸ hs)
      obtain ⟨s₀, hStart, hFirst⟩ := (hRun _ _ _).mp hm
      obtain ⟨m', t', hFirst', hSecond', hR⟩ := hSwap s₀ x m y s hIndependent hFirst hSecond
      refine ⟨t', ?_, hR⟩
      have hBoth := (hRun _ _ _).mpr ⟨m', (hRun _ _ _).mpr ⟨s₀, hStart, hFirst'⟩, hSecond'⟩
      rwa [List.append_assoc] at hBoth
    | append_singleton ys z ih =>
      have hSplit : xs ++ x :: y :: (ys ++ [z]) = xs ++ x :: y :: ys ++ [z] := by simp
      obtain ⟨m, hm, hLast⟩ := (hRun _ _ _).mp (hSplit ▸ hs)
      obtain ⟨m', hm', hR⟩ := ih hm
      obtain ⟨t', hLast', hR'⟩ := hStep m m' z s hR hLast
      refine ⟨t', ?_, hR'⟩
      have hAll := (hRun _ _ _).mpr ⟨m', hm', hLast'⟩
      rwa [List.append_assoc] at hAll

end Order

section Stages

variable {σ : Type u} {α : Type v} {κ : Type w}

theorem sublist_concat {xs ys : List κ} {y : κ} (h : xs.Sublist (ys ++ [y])) :
    xs.Sublist ys ∨ ∃ front, xs = front ++ [y] ∧ front.Sublist ys := by
  obtain ⟨front, back, rfl, hFront, hBack⟩ := List.sublist_append_iff.mp h
  rcases List.sublist_singleton.mp hBack with rfl | rfl
  · rw [List.append_nil]
    exact .inl hFront
  · exact .inr ⟨front, rfl, hFront⟩

/-- The rule for runs in stages. No event loses a stage, and an event with the label that a stage waits for
takes it to the next; so a run that has the labels of all stages in this order ends in the last one. -/
theorem stage_of_sublist (step : σ → α → σ → Prop) (run : List α → σ → Prop) (label : α → κ)
    (order : List κ) (P : Nat → σ → Prop) (hRun : ∀ xs x t, run (xs ++ [x]) t → ∃ s, run xs s ∧ step s x t)
    (hStart : ∀ s, run [] s → P 0 s) (hKeep : ∀ k s x t, P k s → step s x t → P k t)
    (hNext : ∀ k s x t, P k s → step s x t → order[k]? = some (label x) → P (k + 1) t)
    {xs : List α} {s : σ} (h : run xs s) (hOrder : order.Sublist (xs.map label)) : P order.length s := by
  have hAll (k : Nat) (hk : (order.take k).Sublist (xs.map label)) (hLe : k ≤ order.length) : P k s := by
    clear hOrder
    induction xs using List.reverseRecOn generalizing s k with
    | nil =>
      have hNil : order.take k = [] := List.sublist_nil.mp hk
      have hZero : k = 0 := by
        have hLength := congrArg List.length hNil
        rw [List.length_take_of_le hLe] at hLength
        exact hLength
      rw [hZero]
      exact hStart s h
    | append_singleton xs x ih =>
      obtain ⟨m, hm, hStep⟩ := hRun xs x s h
      rw [List.map_append, List.map_singleton] at hk
      rcases sublist_concat hk with hEarlier | ⟨front, hFront, hEarlier⟩
      · exact hKeep k m x s (ih hm k hEarlier hLe) hStep
      · -- the last label of the stretch is the one that the stage before `k` waits for
        have hLength := congrArg List.length hFront
        rw [List.length_take_of_le hLe, List.length_append, List.length_singleton] at hLength
        have hTake : order.take front.length = front := by
          have hCut := congrArg (List.take front.length) hFront
          rw [List.take_take, List.take_left, min_eq_left (by omega)] at hCut
          exact hCut
        have hAt : order[front.length]? = some (label x) := by
          have hGet := congrArg (·[front.length]?) hFront
          rw [List.getElem?_take_of_lt (by omega), List.getElem?_concat_length] at hGet
          exact hGet
        rw [hLength]
        refine hNext _ m x s (ih hm front.length ?_ (by omega)) hStep hAt
        rw [hTake]
        exact hEarlier
  refine hAll order.length ?_ le_rfl
  rw [List.take_length]
  exact hOrder

end Stages

section LastWord

variable {α : Type u} {β : Type v}

/-- The word of the last event that has one. What an event has to say may depend on the events before. -/
def lastWord (word : List α → α → Option β) : List α → Option β
  | [] => none
  | x :: xs => (lastWord (fun before => word (x :: before)) xs).or (word [] x)

variable {word : List α → α → Option β} {log : List α}

theorem lastWord_concat (x : α) :
    lastWord word (log ++ [x]) = (word log x).or (lastWord word log) := by
  induction log generalizing word with
  | nil =>
    rw [List.nil_append, lastWord, lastWord, lastWord, Option.none_or, Option.or_none]
  | cons y log ih =>
    rw [List.cons_append, lastWord, ih, lastWord, Option.or_assoc]

theorem lastWord_append_silent {tail : List α} (h : ∀ before, ∀ x ∈ tail, word before x = none) :
    lastWord word (log ++ tail) = lastWord word log := by
  induction tail using List.reverseRecOn with
  | nil => rw [List.append_nil]
  | append_singleton tail x ih =>
    have hSilent : word (log ++ tail) x = none := by
      apply h
      simp
    rw [← List.append_assoc, lastWord_concat, hSilent, Option.none_or]
    apply ih
    intro before y hMem
    exact h before y (List.mem_append_left _ hMem)

end LastWord

section Reports

variable {α : Type u} {β : Type v} {σ : Type w}

/-- All that the events report, in order. What an event reports may depend on the events before. -/
def reports (report : List α → α → List β) : List α → List β
  | [] => []
  | x :: xs => report [] x ++ reports (fun before => report (x :: before)) xs

variable {report : List α → α → List β} {log : List α}

theorem reports_concat (x : α) : reports report (log ++ [x]) = reports report log ++ report log x := by
  induction log generalizing report with
  | nil =>
    rw [List.nil_append, reports, reports, reports, List.append_nil, List.nil_append]
  | cons y log ih =>
    rw [List.cons_append, reports, ih, reports, List.append_assoc]

theorem mem_reports {b : β} :
    b ∈ reports report log ↔ ∃ before x after, log = before ++ x :: after ∧ b ∈ report before x := by
  induction log generalizing report with
  | nil => simp [reports]
  | cons y log ih =>
    rw [reports, List.mem_append, ih]
    constructor
    · rintro (hHead | ⟨before, x, after, hSplit, hMem⟩)
      · exact ⟨[], y, log, rfl, hHead⟩
      · exact ⟨y :: before, x, after, congrArg (y :: ·) hSplit, hMem⟩
    · rintro ⟨before, x, after, hSplit, hMem⟩
      cases before with
      | nil =>
        cases hSplit
        exact .inl hMem
      | cons z before =>
        cases hSplit
        exact .inr ⟨before, x, after, rfl, hMem⟩

/-- A loop that appends to its output what each event reports, and keeps enough of the events before in its
state to do so. -/
theorem foldl_reports (report : List α → α → List β) (out : σ → List β) (Keeps : List α → σ → Prop)
    {step : σ → α → σ} (hStep : ∀ before s x, Keeps before s →
      Keeps (before ++ [x]) (step s x) ∧ out (step s x) = out s ++ report before x)
    {s : σ} (hStart : Keeps [] s) (log : List α) :
    Keeps log (log.foldl step s) ∧ out (log.foldl step s) = out s ++ reports report log := by
  induction log using List.reverseRecOn with
  | nil =>
    rw [reports, List.append_nil]
    exact ⟨hStart, rfl⟩
  | append_singleton log x ih =>
    obtain ⟨hKeeps, hOut⟩ := hStep log _ x ih.1
    rw [List.foldl_concat, reports_concat]
    refine ⟨hKeeps, ?_⟩
    rw [hOut, ih.2, List.append_assoc]

end Reports

section Fairness

variable {σ : Type u} {τ : Type v}

/-- Weak fairness for a part of the state: it does not stay as it is for ever while it has something to do. -/
def WeaklyFair (part : σ → τ) (Busy : σ → Prop) (run : Nat → σ) : Prop :=
  ∀ n, (∀ m, n ≤ m → Busy (run m)) → ∃ m, n ≤ m ∧ part (run (m + 1)) ≠ part (run m)

/-- A phase comes to its end if each move of the part within it takes the rank down. -/
theorem WeaklyFair.phase_ends {part : σ → τ} {Busy Phase : σ → Prop} {run : Nat → σ}
    (h : WeaklyFair part Busy run) (rank : τ → Nat) (hBusy : ∀ s, Phase s → Busy s)
    (hMove : ∀ n, Phase (run n) → part (run (n + 1)) ≠ part (run n) →
      rank (part (run (n + 1))) < rank (part (run n))) (n : Nat) :
    ∃ m, n ≤ m ∧ ¬ Phase (run m) := by
  induction hRank : rank (part (run n)) using Nat.strong_induction_on generalizing n with
  | _ r ih =>
    by_contra hNever
    have hPhase (m : Nat) (hm : n ≤ m) : Phase (run m) := by
      by_contra hNot
      exact hNever ⟨m, hm, hNot⟩
    have hDown (m : Nat) (hm : n ≤ m) : rank (part (run m)) ≤ r := by
      induction m, hm using Nat.le_induction with
      | base => exact hRank.le
      | succ m hm ihm =>
        by_cases hSame : part (run (m + 1)) = part (run m)
        · rw [hSame]
          exact ihm
        · exact (hMove m (hPhase m hm) hSame).le.trans ihm
    obtain ⟨m, hm, hMoves⟩ := h n fun m hm => hBusy _ (hPhase m hm)
    have hLess := hMove m (hPhase m hm) hMoves
    have hLow := hDown m hm
    obtain ⟨k, hk, hEnd⟩ := ih _ (by omega) (m + 1) rfl
    exact hEnd (hPhase k (by omega))

end Fairness

end Runs
