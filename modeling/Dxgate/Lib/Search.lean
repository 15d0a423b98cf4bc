import Mathlib.Data.List.Basic
import Mathlib.Data.Nat.Find

/-! # First matches

The first element that passes a test, compared with the first one that passes a weaker test. The two
searches part only at an element that passes the weaker test alone. The last part compares two tests of
which neither is the weaker one, also on two lists of one length.
-/

namespace Collections

set_option autoImplicit false

variable {α : Type*} {test weak strong : α → Bool} {l : List α}

theorem find?_append_cons (before after : List α) {a : α} (hTest : test a) :
    ∃ first, (before ++ a :: after).find? test = some first ∧ (first ∈ before ∨ first = a) := by
  rw [List.find?_append, List.find?_cons_of_pos hTest]
  cases hBefore : before.find? test with
  | none => exact ⟨a, rfl, .inr rfl⟩
  | some first => exact ⟨first, rfl, .inl (List.mem_of_find?_eq_some hBefore)⟩

theorem not_of_before_first {a b : α} {before after : List α} (hWeaker : ∀ b ∈ l, strong b → weak b)
    (hSplit : l = before ++ a :: after) (hBefore : ∀ b ∈ before, !weak b) (hb : b ∈ before) :
    ¬ strong b := by
  intro hStrong
  have hWeak := hWeaker b (hSplit ▸ List.mem_append_left _ hb) hStrong
  have hNot := hBefore b hb
  rw [hWeak] at hNot
  cases hNot

theorem find?_strong_of_first {a : α} (hWeaker : ∀ b ∈ l, strong b → weak b)
    (hFirst : l.find? weak = some a) (hStrong : strong a) : l.find? strong = some a := by
  obtain ⟨-, before, after, hSplit, hBefore⟩ := List.find?_eq_some_iff_append.mp hFirst
  apply List.find?_eq_some_iff_append.mpr
  refine ⟨hStrong, before, after, hSplit, fun b hb => ?_⟩
  simpa using not_of_before_first hWeaker hSplit hBefore hb

theorem find?_strong_of_none (hWeaker : ∀ b ∈ l, strong b → weak b) (hNone : l.find? weak = none) :
    l.find? strong = none := by
  rw [List.find?_eq_none] at hNone ⊢
  exact fun b hb hStrong => hNone b hb (hWeaker b hb hStrong)

/-- The searches end alike when each element of the weaker test alone stands behind an element of the
stronger one. -/
theorem find?_strong_eq_weak_iff (hWeaker : ∀ b ∈ l, strong b → weak b) :
    l.find? strong = l.find? weak ↔
      ∀ before a after, l = before ++ a :: after → weak a → ¬ strong a → ∃ b ∈ before, strong b := by
  constructor
  · intro hSame before a after hSplit hWeak hNot
    obtain ⟨first, hFirst, hPlace⟩ := find?_append_cons before after hWeak
    rw [← hSplit] at hFirst
    have hStrong : strong first := List.find?_some (hSame.trans hFirst)
    rcases hPlace with hBefore | rfl
    · exact ⟨first, hBefore, hStrong⟩
    · exact absurd hStrong hNot
  · intro hBehind
    cases hFirst : l.find? weak with
    | none => exact find?_strong_of_none hWeaker hFirst
    | some first =>
      obtain ⟨hWeak, before, after, hSplit, hBefore⟩ := List.find?_eq_some_iff_append.mp hFirst
      apply find?_strong_of_first hWeaker hFirst
      by_contra hNot
      obtain ⟨b, hb, hStrong⟩ := hBehind before first after hSplit hWeak hNot
      exact not_of_before_first hWeaker hSplit hBefore hb hStrong

/-- When the first weak match must be a strong one to count, the searches end alike exactly if no weak
match stands in front of the first strong one. -/
theorem find?_strong_eq_filter_iff (hWeaker : ∀ b ∈ l, strong b → weak b) :
    l.find? strong = (l.find? weak).filter strong ↔
      ∀ before a after, l = before ++ a :: after → strong a → (∀ b ∈ before, ¬ strong b) →
        ∀ b ∈ before, ¬ weak b := by
  constructor
  · intro hSame before a after hSplit hStrong hBefore b hb hWeak
    have hFound : l.find? strong = some a :=
      List.find?_eq_some_iff_append.mpr ⟨hStrong, before, after, hSplit, by simpa using hBefore⟩
    rw [hFound] at hSame
    obtain ⟨hFirst, -⟩ := Option.filter_eq_some_iff.mp hSame.symm
    obtain ⟨front, back, rfl⟩ := List.append_of_mem hb
    obtain ⟨first, hFirst', hPlace⟩ :=
      find?_append_cons front (back ++ a :: after) hWeak
    rw [hSplit, List.append_assoc, List.cons_append, hFirst'] at hFirst
    cases hFirst
    have hMem : a ∈ front ++ b :: back := by
      rcases hPlace with hFront | rfl
      · exact List.mem_append_left _ hFront
      · exact List.mem_append_right _ List.mem_cons_self
    exact hBefore a hMem hStrong
  · intro hFree
    cases hFirst : l.find? weak with
    | none => exact find?_strong_of_none hWeaker hFirst
    | some first =>
      by_cases hStrong : strong first
      · rw [Option.filter_some, if_pos hStrong]
        exact find?_strong_of_first hWeaker hFirst hStrong
      · rw [Option.filter_some, if_neg hStrong]
        cases hFound : l.find? strong with
        | none => rfl
        | some found =>
          exfalso
          obtain ⟨hIs, before, after, hSplit, hBefore⟩ := List.find?_eq_some_iff_append.mp hFound
          obtain ⟨first', hFirst', hPlace⟩ := find?_append_cons before after
            (hWeaker found (List.mem_of_find?_eq_some hFound) hIs)
          rw [← hSplit, hFirst] at hFirst'
          cases hFirst'
          rcases hPlace with hMem | rfl
          · exact hFree before found after hSplit hIs (by simpa using hBefore) first hMem
              (List.find?_some hFirst)
          · exact hStrong hIs

/-! ## Two tests -/

section TwoTests

variable {β : Type*} {p : α → Bool} {q : β → Bool} {l' : List β}

/-- Where one of the tests passes for the first time, the other one passes as well. -/
def AgreeAtFirst (p : α → Bool) (q : β → Bool) (l : List α) (l' : List β) : Prop :=
  ∀ (j : Nat) (a : α) (b : β), l[j]? = some a → l'[j]? = some b →
    (∀ i < j, ∀ a' b', l[i]? = some a' → l'[i]? = some b' → ¬ p a' ∧ ¬ q b') → p a ∨ q b → p a ∧ q b

theorem AgreeAtFirst.symm (h : AgreeAtFirst p q l l') : AgreeAtFirst q p l' l := by
  intro j b a hb ha hBefore hEither
  refine (h j a b ha hb ?_ hEither.symm).symm
  intro i hi a' b' ha' hb'
  exact (hBefore i hi b' a' hb' ha').symm

theorem findIdx?_eq_some_iff_getElem? {j : Nat} : l.findIdx? p = some j ↔
    ∃ a, l[j]? = some a ∧ p a ∧ ∀ i < j, ∀ a', l[i]? = some a' → ¬ p a' := by
  rw [List.findIdx?_eq_some_iff_getElem]
  constructor
  · rintro ⟨hLess, hTest, hBefore⟩
    refine ⟨l[j], List.getElem?_eq_getElem hLess, hTest, fun i hi a' ha' => ?_⟩
    obtain ⟨_, rfl⟩ := List.getElem?_eq_some_iff.mp ha'
    exact hBefore i hi
  · rintro ⟨a, ha, hTest, hBefore⟩
    obtain ⟨hLess, rfl⟩ := List.getElem?_eq_some_iff.mp ha
    refine ⟨hLess, hTest, fun i hi => ?_⟩
    exact hBefore i hi _ (List.getElem?_eq_getElem (by omega))

theorem AgreeAtFirst.findIdx?_of_left (h : AgreeAtFirst p q l l') (hLength : l.length = l'.length) {j : Nat}
    (hFound : l.findIdx? p = some j) : l'.findIdx? q = some j := by
  obtain ⟨a, ha, hTest, hBefore⟩ := findIdx?_eq_some_iff_getElem?.mp hFound
  -- the first position at which one of the tests passes is no later, and the left one passes there
  have hSome : ∃ i : Nat, ∃ a' b', l[i]? = some a' ∧ l'[i]? = some b' ∧ (p a' ∨ q b') := by
    have hLess : j < l'.length := hLength ▸ (List.getElem?_eq_some_iff.mp ha).1
    exact ⟨j, a, l'[j], ha, List.getElem?_eq_getElem hLess, .inl hTest⟩
  classical
  obtain ⟨a', b', ha', hb', hEither⟩ := Nat.find_spec hSome
  have hNone : ∀ i < Nat.find hSome, ∀ a b, l[i]? = some a → l'[i]? = some b → ¬ p a ∧ ¬ q b := by
    intro i hi c d hc hd
    refine ⟨fun hp => ?_, fun hq => ?_⟩
    · exact Nat.find_min hSome hi ⟨c, d, hc, hd, .inl hp⟩
    · exact Nat.find_min hSome hi ⟨c, d, hc, hd, .inr hq⟩
  obtain ⟨hLeft, hRight⟩ := h _ a' b' ha' hb' hNone hEither
  have hSame : Nat.find hSome = j := by
    refine Nat.le_antisymm ?_ (Nat.le_of_not_lt fun hEarly => hBefore _ hEarly a' ha' hLeft)
    refine Nat.le_of_not_lt fun hLate => ?_
    have hLess : j < l'.length := hLength ▸ (List.getElem?_eq_some_iff.mp ha).1
    exact (hNone j hLate a l'[j] ha (List.getElem?_eq_getElem hLess)).1 hTest
  rw [← hSame]
  refine findIdx?_eq_some_iff_getElem?.mpr ⟨b', hb', hRight, fun i hi d hd => ?_⟩
  have hLess : i < l.length := by
    have hBound := (List.getElem?_eq_some_iff.mp hd).1
    omega
  exact (hNone i hi l[i] d (List.getElem?_eq_getElem hLess) hd).2

theorem AgreeAtFirst.findIdx?_eq (h : AgreeAtFirst p q l l') (hLength : l.length = l'.length) :
    l.findIdx? p = l'.findIdx? q := by
  ext j
  exact ⟨h.findIdx?_of_left hLength, h.symm.findIdx?_of_left hLength.symm⟩

theorem right_of_findIdx?_eq (hSame : l.findIdx? p = l'.findIdx? q) {j : Nat} {a : α} {b : β}
    (ha : l[j]? = some a) (hb : l'[j]? = some b) (hNone : ∀ i < j, ∀ a', l[i]? = some a' → ¬ p a')
    (hLeft : p a) : q b := by
  have hFound : l.findIdx? p = some j := findIdx?_eq_some_iff_getElem?.mpr ⟨a, ha, hLeft, hNone⟩
  obtain ⟨b', hb', hRight, -⟩ := findIdx?_eq_some_iff_getElem?.mp (hSame.symm.trans hFound)
  cases hb.symm.trans hb'
  exact hRight

theorem findIdx?_eq_findIdx?_iff (hLength : l.length = l'.length) :
    l.findIdx? p = l'.findIdx? q ↔ AgreeAtFirst p q l l' := by
  refine ⟨?_, fun h => h.findIdx?_eq hLength⟩
  intro hSame j a b ha hb hNone hEither
  have hLess := (List.getElem?_eq_some_iff.mp ha).1
  rcases hEither with hLeft | hRight
  · refine ⟨hLeft, right_of_findIdx?_eq hSame ha hb (fun i hi a' ha' => ?_) hLeft⟩
    exact (hNone i hi a' l'[i] ha' (List.getElem?_eq_getElem (by omega))).1
  · refine ⟨right_of_findIdx?_eq hSame.symm hb ha (fun i hi b' hb' => ?_) hRight, hRight⟩
    exact (hNone i hi l[i] b' (List.getElem?_eq_getElem (by omega)) hb').2

theorem find?_eq_bind_findIdx? (l : List α) : l.find? p = (l.findIdx? p).bind (l[·]?) := by
  cases hFound : l.findIdx? p with
  | none => simpa [List.findIdx?_eq_none_iff] using hFound
  | some j =>
    obtain ⟨a, ha, hTest, hBefore⟩ := findIdx?_eq_some_iff_getElem?.mp hFound
    rw [Option.bind_some, ha, List.find?_eq_some_iff_getElem]
    obtain ⟨hLess, hGet⟩ := List.getElem?_eq_some_iff.mp ha
    refine ⟨hTest, j, hLess, hGet, fun i hi => ?_⟩
    simpa using hBefore i hi _ (List.getElem?_eq_getElem (by omega))

theorem find?_eq_of_first {j : Nat} {a : α} (ha : l[j]? = some a) (hTest : p a)
    (hNone : ∀ i < j, ∀ a', l[i]? = some a' → ¬ p a') : l.find? p = some a := by
  rw [find?_eq_bind_findIdx?, findIdx?_eq_some_iff_getElem?.mpr ⟨a, ha, hTest, hNone⟩, Option.bind_some, ha]

/-- On one list equal elements pass equal tests, so it does not matter whether the searches are compared
by position or by what they find. -/
theorem find?_eq_find?_iff {r : α → Bool} : l.find? p = l.find? r ↔ AgreeAtFirst p r l l := by
  constructor
  · intro hSame j a b ha hb hNone hEither
    cases ha.symm.trans hb
    rcases hEither with hLeft | hRight
    · have hFirst := find?_eq_of_first ha hLeft fun i hi a' ha' => (hNone i hi a' a' ha' ha').1
      exact ⟨hLeft, List.find?_some (hSame.symm.trans hFirst)⟩
    · have hFirst := find?_eq_of_first ha hRight fun i hi a' ha' => (hNone i hi a' a' ha' ha').2
      exact ⟨List.find?_some (hSame.trans hFirst), hRight⟩
  · intro hAgree
    rw [find?_eq_bind_findIdx?, find?_eq_bind_findIdx?, hAgree.findIdx?_eq rfl]

end TwoTests

end Collections
