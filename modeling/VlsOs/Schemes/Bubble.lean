import Mathlib

/-! Bubble sort in place, the greatest keys first.

    A pass compares neighbours from the front and lets them change places if the second one has the
    greater key, so that an element with the least key among those compared comes to the end. Each
    pass is one comparison shorter than the one before. Elements with the same key never pass each
    other: the sort is stable.

        a₀ a₁ ⋯ aₙ₋ᵢ₋₁ │ sorted, no key greater than one on the left
        └─── pass ─────▶ least                                          -/

namespace Patterns.Bubble

variable {α κ : Type*} [LinearOrder κ] (key : α → κ)

/-- The elements at `j` and `j + 1` change places if the second one has the greater key. -/
def swapStep (l : List α) (j : ℕ) : List α :=
  match l[j]?, l[j + 1]? with
  | some a, some b => if key a < key b then (l.set j b).set (j + 1) a else l
  | _, _ => l

/-- The comparisons at `0`, …, `k - 1`. -/
def pass (l : List α) (k : ℕ) : List α := (List.range k).foldl (swapStep key) l

/-- The first `i` passes over a list of `n` elements. -/
def passes (n i : ℕ) (l : List α) : List α :=
  (List.range i).foldl (fun l i => pass key l (n - i - 1)) l

def sort (l : List α) : List α := passes key l.length (l.length - 1) l

/-! ### One pass -/

/-- A pass over `a` and the elements after it: of two neighbours the one with the smaller key is taken
    along. -/
def carry (a : α) : List α → List α
  | [] => [a]
  | b :: l => if key a < key b then b :: carry a l else a :: carry b l

theorem swapStep_zero (a b : α) (l : List α) :
    swapStep key (a :: b :: l) 0 = if key a < key b then b :: a :: l else a :: b :: l := by
  simp [swapStep]

theorem swapStep_cons (x : α) (l : List α) (j : ℕ) :
    swapStep key (x :: l) (j + 1) = x :: swapStep key l j := by
  simp only [swapStep, List.getElem?_cons_succ]
  split
  · split <;> simp
  · rfl

theorem foldl_swapStep_cons (x : α) (js : List ℕ) (l : List α) :
    js.foldl (fun l j => swapStep key l (j + 1)) (x :: l) = x :: js.foldl (swapStep key) l := by
  induction js generalizing l with
  | nil => rfl
  | cons j js ih => rw [List.foldl_cons, swapStep_cons, ih, List.foldl_cons]

theorem pass_cons (x y : α) (l : List α) (k : ℕ) :
    pass key (x :: y :: l) (k + 1) =
      if key x < key y then y :: pass key (x :: l) k else x :: pass key (y :: l) k := by
  rw [pass, List.range_succ_eq_map, List.foldl_cons, List.foldl_map, swapStep_zero]
  split <;> exact foldl_swapStep_cons key _ _ _

/-- A pass over the first elements takes one of them along, and leaves the rest alone. -/
theorem pass_eq_carry (a : α) (l rest : List α) :
    pass key (a :: (l ++ rest)) l.length = carry key a l ++ rest := by
  induction l generalizing a with
  | nil => rfl
  | cons b l ih =>
    rw [List.cons_append, List.length_cons, pass_cons, ih, ih, carry]
    split <;> rfl

theorem carry_perm (a : α) (l : List α) : (carry key a l).Perm (a :: l) := by
  induction l generalizing a with
  | nil => exact List.Perm.refl _
  | cons b l ih =>
    rw [carry]
    split
    · exact ((ih a).cons b).trans (List.Perm.swap a b l)
    · exact (ih b).cons a

/-- STABLE: elements with one key stay in order. -/
theorem filter_carry (c : κ) (a : α) (l : List α) :
    (carry key a l).filter (fun x => key x = c) = (a :: l).filter fun x => key x = c := by
  induction l generalizing a with
  | nil => rfl
  | cons b l ih =>
    rw [carry]
    split
    next hlt =>
      -- two elements that change places do not both have the key
      by_cases ha : key a = c
      · have hb : key b ≠ c := fun hb => absurd (ha.trans hb.symm) hlt.ne
        simp [ih, ha, hb]
      · simp [List.filter_cons, ih, ha]
    next => simp only [List.filter_cons, ih]

/-- What comes to the end has the least key. -/
theorem carry_last (a : α) (l : List α) : ∃ front last, carry key a l = front ++ [last] ∧
    key last ≤ key a ∧ ∀ x ∈ front, key last ≤ key x := by
  induction l generalizing a with
  | nil => exact ⟨[], a, rfl, le_rfl, fun x hx => absurd hx List.not_mem_nil⟩
  | cons b l ih =>
    rw [carry]
    split
    next hlt =>
      obtain ⟨front, last, heq, hle, hfront⟩ := ih a
      refine ⟨b :: front, last, by rw [heq, List.cons_append], hle, fun x hx => ?_⟩
      rcases List.mem_cons.mp hx with rfl | hx
      · exact hle.trans hlt.le
      · exact hfront x hx
    next hge =>
      obtain ⟨front, last, heq, hle, hfront⟩ := ih b
      have hlast : key last ≤ key a := hle.trans (not_lt.mp hge)
      refine ⟨a :: front, last, by rw [heq, List.cons_append], hlast, fun x hx => ?_⟩
      rcases List.mem_cons.mp hx with rfl | hx
      · exact hlast
      · exact hfront x hx

/-! ### All passes -/

/-- INVARIANT after `i` passes: the last `i` elements are in order and have no greater keys than those
    before them; and the elements are those of `l`, for each key in the same order. -/
structure SortedFrom (l : List α) (i : ℕ) (m : List α) : Prop where
  perm : m.Perm l
  stable : ∀ c, (m.filter fun x => key x = c) = l.filter fun x => key x = c
  split : ∃ front back, m = front ++ back ∧ back.length = i ∧
    back.Pairwise (fun x y => key y ≤ key x) ∧ ∀ x ∈ front, ∀ y ∈ back, key y ≤ key x

variable {key}

theorem SortedFrom.pass {l m : List α} {i : ℕ} (h : SortedFrom key l i m) (hi : i < l.length) :
    SortedFrom key l (i + 1) (pass key m (l.length - i - 1)) := by
  obtain ⟨front, back, rfl, hback, hsorted, hbelow⟩ := h.split
  have hlength := h.perm.length_eq
  rw [List.length_append] at hlength
  obtain ⟨a, front, rfl⟩ := List.exists_cons_of_ne_nil (List.ne_nil_of_length_pos
    (show 0 < front.length by omega))
  have hcount : l.length - i - 1 = front.length := by
    rw [List.length_cons] at hlength
    omega
  rw [hcount, List.cons_append, pass_eq_carry]
  refine ⟨?_, fun c => ?_, ?_⟩
  · exact ((carry_perm key a front).append_right back).trans h.perm
  · rw [List.filter_append, filter_carry, ← List.filter_append]
    exact h.stable c
  · obtain ⟨front', last, heq, -, hfront⟩ := carry_last key a front
    have hmem : ∀ x ∈ front' ++ [last], x ∈ a :: front := by
      rw [← heq]
      exact fun x hx => (carry_perm key a front).mem_iff.mp hx
    refine ⟨front', last :: back, by rw [heq, List.append_assoc]; rfl, by rw [List.length_cons, hback],
      List.pairwise_cons.mpr ⟨hbelow last (hmem last (by simp)), hsorted⟩, fun x hx y hy => ?_⟩
    rcases List.mem_cons.mp hy with rfl | hy
    · exact hfront x hx
    · exact hbelow x (hmem x (List.mem_append_left _ hx)) y hy

theorem sortedFrom_passes (l : List α) {i : ℕ} (hi : i ≤ l.length) :
    SortedFrom key l i (passes key l.length i l) := by
  induction i with
  | zero =>
    refine ⟨List.Perm.refl l, fun c => rfl, l, [], (List.append_nil l).symm, rfl, List.Pairwise.nil, ?_⟩
    exact fun x _ y hy => absurd hy List.not_mem_nil
  | succ i ih =>
    rw [passes, List.range_succ, List.foldl_append]
    exact (ih (by omega)).pass hi

theorem sortedFrom_sort (l : List α) : SortedFrom key l (l.length - 1) (sort key l) :=
  sortedFrom_passes l (Nat.sub_le ..)

/-- SORTED: no key is greater than one before it. -/
theorem pairwise_sort (l : List α) : (sort key l).Pairwise fun x y => key y ≤ key x := by
  have h : SortedFrom key l (l.length - 1) (sort key l) := sortedFrom_sort l
  obtain ⟨front, back, heq, hback, hsorted, hbelow⟩ := h.split
  have hlength := h.perm.length_eq
  rw [heq, List.length_append, hback] at hlength
  rw [heq, List.pairwise_append]
  refine ⟨?_, hsorted, hbelow⟩
  -- the passes leave one element in front at most
  match front with
  | [] => exact List.Pairwise.nil
  | [x] => exact List.pairwise_singleton _ x
  | x :: y :: front =>
    simp only [List.length_cons] at hlength
    omega

/-- The sort of an image is the image of the sort. -/
theorem sort_map {β : Type*} (f : β → α) (l : List β) :
    sort key (l.map f) = (sort (fun b => key (f b)) l).map f := by
  have hstep (m : List β) (j : ℕ) :
      swapStep key (m.map f) j = (swapStep (fun b => key (f b)) m j).map f := by
    simp only [swapStep, List.getElem?_map]
    cases m[j]? <;> cases m[j + 1]? <;> simp
    split <;> simp
  have hpass (m : List β) (k : ℕ) : pass key (m.map f) k = (pass (fun b => key (f b)) m k).map f :=
    List.foldl_hom (List.map f) (fun m j => (hstep m j))
  rw [sort, sort, List.length_map]
  exact List.foldl_hom (List.map f) (fun m i => hpass m _)

end Patterns.Bubble
