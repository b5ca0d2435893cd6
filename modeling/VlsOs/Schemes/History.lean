import Mathlib

/-! Writes to a map, in the order they came.

    A history is the list of `(key, value)` writes, oldest first. Two things can be read off it: the
    distinct keys in the order of their first writes (`firsts`), and the last value written for a
    key (`latest`). A map with room for `cap` keys that takes new keys while it has room, never drops
    one and lets the last writer win holds `held cap`.

        history   (a,1) (b,2) (a,3) (c,4)      firsts       a b c
        held 2    a ↦ 3, b ↦ 2                 admitted 2   a b -/

namespace Patterns.History

variable {κ ν : Type*} [DecidableEq κ]

/-- The distinct keys, in the order they first came. -/
def firsts (ks : List κ) : List κ :=
  ks.foldl (fun seen k => if k ∈ seen then seen else seen ++ [k]) []

/-- The last value written for a key. -/
def latest (h : List (κ × ν)) (k : κ) : Option ν :=
  h.foldl (fun v e => if e.1 = k then some e.2 else v) none

/-- The keys that get a place: the first `cap` distinct ones. -/
def admitted (cap : ℕ) (h : List (κ × ν)) : List κ := (firsts (h.map Prod.fst)).take cap

/-- What the bounded map holds for a key. -/
def held (cap : ℕ) (h : List (κ × ν)) (k : κ) : Option ν :=
  if k ∈ admitted cap h then latest h k else none

theorem firsts_concat (ks : List κ) (k : κ) :
    firsts (ks ++ [k]) = if k ∈ firsts ks then firsts ks else firsts ks ++ [k] := by
  rw [firsts, List.foldl_append]
  rfl

theorem nodup_firsts (ks : List κ) : (firsts ks).Nodup := by
  induction ks using List.reverseRecOn with
  | nil => exact List.nodup_nil
  | append_singleton ks k ih =>
    rw [firsts_concat]
    split
    · exact ih
    · refine List.nodup_append.mpr ⟨ih, List.nodup_singleton k, ?_⟩
      rintro a ha b hb rfl
      exact absurd (List.mem_singleton.mp hb ▸ ha) ‹_›

@[simp] theorem mem_firsts {ks : List κ} {k : κ} : k ∈ firsts ks ↔ k ∈ ks := by
  induction ks using List.reverseRecOn with
  | nil => rfl
  | append_singleton ks k' ih =>
    rw [firsts_concat, List.mem_append, List.mem_singleton, ← ih]
    split
    · exact ⟨.inl, fun hk => hk.elim id fun heq => heq ▸ ‹_›⟩
    · rw [List.mem_append, List.mem_singleton]

theorem length_firsts (ks : List κ) : (firsts ks).length = ks.toFinset.card := by
  rw [← List.toFinset_card_of_nodup (nodup_firsts ks)]
  congr 1
  ext k
  simp

theorem latest_concat (h : List (κ × ν)) (e : κ × ν) (k : κ) :
    latest (h ++ [e]) k = if e.1 = k then some e.2 else latest h k := by
  rw [latest, List.foldl_append]
  rfl

theorem nodup_admitted (cap : ℕ) (h : List (κ × ν)) : (admitted cap h).Nodup :=
  (nodup_firsts _).sublist (List.take_sublist ..)

theorem length_admitted (cap : ℕ) (h : List (κ × ν)) :
    (admitted cap h).length = min cap (h.map Prod.fst).toFinset.card := by
  rw [admitted, List.length_take, length_firsts]

/-- STEP: one more write gives its key a place if it has none and there is room. -/
theorem admitted_concat (cap : ℕ) (h : List (κ × ν)) (e : κ × ν) :
    admitted cap (h ++ [e]) =
      if e.1 ∈ admitted cap h ∨ cap ≤ (admitted cap h).length then admitted cap h
      else admitted cap h ++ [e.1] := by
  rw [admitted, List.map_append, List.map_singleton, firsts_concat, admitted]
  generalize firsts (h.map Prod.fst) = ks
  rcases Nat.lt_or_ge ks.length cap with hroom | hfull
  · rw [List.take_of_length_le hroom.le]
    by_cases hmem : e.1 ∈ ks
    · rw [if_pos hmem, if_pos (.inl hmem), List.take_of_length_le hroom.le]
    · rw [if_neg hmem, if_neg (not_or.mpr ⟨hmem, hroom.not_ge⟩),
        List.take_of_length_le (by simpa using hroom)]
  · have htake : (ks.take cap).length = cap := by simpa using hfull
    have hconcat : (ks ++ [e.1]).take cap = ks.take cap := List.take_append_of_le_length hfull
    rw [apply_ite (List.take cap), hconcat, ite_self, if_pos (Or.inr htake.ge)]

end Patterns.History
