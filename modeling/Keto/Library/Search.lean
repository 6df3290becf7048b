import Mathlib.Data.List.Infix
import Mathlib.Data.Nat.Notation

/-!
The first place of a pattern in a text, and texts that a separator joins: a
pattern without the separator lies inside one of them.
-/
namespace Keto.Library.Search

variable {α : Type}

def joined (separator : α) : List (List α) → List α
  | [] => []
  | first :: rest => first ++ rest.flatMap (separator :: ·)

theorem flatMap_eq_cons_joined (separator : α) {texts : List (List α)} (h : texts ≠ []) :
    texts.flatMap (separator :: ·) = separator :: joined separator texts := by
  cases texts with
  | nil => exact absurd rfl h
  | cons first rest => rw [List.flatMap_cons, joined, List.cons_append]

theorem joined_append (separator : α) (before : List (List α)) (middle : List α)
    (behind : List (List α)) :
    joined separator (before ++ middle :: behind) =
      before.flatMap (· ++ [separator]) ++ middle ++ behind.flatMap (separator :: ·) := by
  induction before with
  | nil => rfl
  | cons first before ih =>
    have hrest : before ++ middle :: behind ≠ [] := by simp
    rw [List.cons_append, joined, flatMap_eq_cons_joined separator hrest, ih,
      List.flatMap_cons]
    simp only [List.append_assoc, List.cons_append, List.nil_append]

variable [DecidableEq α]

def find (pattern : List α) : List α → Option ℕ
  | [] => if pattern = [] then some 0 else none
  | c :: rest =>
    if pattern <+: c :: rest then some 0 else (find pattern rest).map (· + 1)

def findFrom (pattern text : List α) (start : ℕ) : Option ℕ :=
  (find pattern (text.drop start)).map (· + start)

theorem find_prefix (pattern rest : List α) : find pattern (pattern ++ rest) = some 0 := by
  cases htext : pattern ++ rest with
  | nil => rw [find, if_pos (List.append_eq_nil_iff.mp htext).1]
  | cons c behind => rw [find, if_pos (htext ▸ List.prefix_append pattern rest)]

/-- At the place that is found there is the pattern. -/
theorem drop_of_find {pattern text : List α} {i : ℕ} (h : find pattern text = some i) :
    text.drop i = pattern ++ text.drop (i + pattern.length) := by
  induction text generalizing i with
  | nil =>
    rw [find, Option.ite_none_right_eq_some] at h
    rw [h.1, List.drop_nil, List.drop_nil, List.append_nil]
  | cons c rest ih =>
    rw [find] at h
    split at h
    next hstarts =>
      obtain rfl := Option.some.inj h
      rw [Nat.zero_add, List.drop_zero]
      exact (List.prefix_iff_eq_append.mp hstarts).symm
    next =>
      obtain ⟨j, hfound, rfl⟩ := Option.map_eq_some_iff.mp h
      rw [List.drop_succ_cons, ih hfound, Nat.add_right_comm, List.drop_succ_cons]

theorem append_of_find {pattern text : List α} {i : ℕ} (h : find pattern text = some i) :
    text.take i ++ pattern ++ text.drop (i + pattern.length) = text := by
  rw [List.append_assoc, ← drop_of_find h, List.take_append_drop]

/-- The place that is found has room for the pattern. -/
theorem le_length_of_find {pattern text : List α} {i : ℕ} (h : find pattern text = some i) :
    i + pattern.length ≤ text.length := by
  induction text generalizing i with
  | nil =>
    rw [find, Option.ite_none_right_eq_some] at h
    obtain ⟨rfl, hi⟩ := h
    obtain rfl := Option.some.inj hi
    exact Nat.le_refl 0
  | cons c rest ih =>
    rw [find] at h
    split at h
    next hstarts =>
      obtain rfl := Option.some.inj h
      rw [Nat.zero_add]
      exact hstarts.length_le
    next =>
      obtain ⟨j, hfound, rfl⟩ := Option.map_eq_some_iff.mp h
      rw [List.length_cons, Nat.add_right_comm]
      exact Nat.succ_le_succ (ih hfound)

/-- The pattern does not begin before the place that is found. -/
theorem not_prefix_of_lt_find {pattern text : List α} {i j : ℕ}
    (h : find pattern text = some i) (hj : j < i) : ¬ pattern <+: text.drop j := by
  induction text generalizing i j with
  | nil =>
    rw [find, Option.ite_none_right_eq_some] at h
    obtain rfl := Option.some.inj h.2
    exact absurd hj (Nat.not_lt_zero j)
  | cons c rest ih =>
    rw [find] at h
    split at h
    next =>
      obtain rfl := Option.some.inj h
      exact absurd hj (Nat.not_lt_zero j)
    next hstarts =>
      obtain ⟨k, hfound, rfl⟩ := Option.map_eq_some_iff.mp h
      cases j with
      | zero => exact hstarts
      | succ j => exact ih hfound (Nat.lt_of_succ_lt_succ hj)

/-- A pattern that is not found is nowhere. -/
theorem not_infix_of_find_eq_none {pattern text : List α} (h : find pattern text = none) :
    ¬ pattern <:+: text := by
  induction text with
  | nil =>
    intro hinside
    obtain rfl := List.infix_nil.mp hinside
    exact absurd h (by simp [find])
  | cons c rest ih =>
    rw [find] at h
    split at h
    next => exact absurd h (Option.some_ne_none 0)
    next hstarts =>
      intro hinside
      rcases List.infix_cons_iff.mp hinside with hprefix | hrest
      · exact hstarts hprefix
      · exact ih (Option.map_eq_none_iff.mp h) hrest

/-- The first place is at or before every other. -/
theorem find_le (pattern before behind : List α) :
    ∃ i, find pattern (before ++ pattern ++ behind) = some i ∧ i ≤ before.length := by
  induction before with
  | nil => exact ⟨0, find_prefix pattern behind, Nat.le_refl 0⟩
  | cons c before ih =>
    obtain ⟨i, hfound, hle⟩ := ih
    rw [List.cons_append, List.cons_append, find]
    split
    · exact ⟨0, rfl, Nat.zero_le _⟩
    · exact ⟨i + 1, by rw [hfound]; rfl, Nat.succ_le_succ hle⟩

/-- A pattern that is not in a segment, nor has the separator behind it, is first
found behind both. -/
theorem find_segment {pattern segment : List α} {separator : α} (rest : List α)
    (hseparator : separator ∉ pattern) (hpattern : pattern ≠ [])
    (hnone : ¬pattern <:+: segment) :
    find pattern (segment ++ separator :: rest) =
      (find pattern rest).map (· + (segment.length + 1)) := by
  induction segment with
  | nil =>
    rw [List.nil_append, find, if_neg]
    · rfl
    · intro hstarts
      obtain ⟨first, others, rfl⟩ := List.exists_cons_of_ne_nil hpattern
      obtain ⟨rfl, -⟩ := List.cons_prefix_cons.mp hstarts
      exact hseparator List.mem_cons_self
  | cons c segment ih =>
    have hrest : ¬pattern <:+: segment :=
      fun hinside => hnone (hinside.trans (List.suffix_cons c segment).isInfix)
    rw [List.cons_append, find, if_neg, ih hrest, Option.map_map, List.length_cons]
    · rfl
    · intro hstarts
      rw [← List.cons_append] at hstarts
      rcases List.prefix_or_prefix_of_prefix hstarts (List.prefix_append _ _) with
        hwithin | ⟨more, rfl⟩
      · exact hnone hwithin.isInfix
      · rw [List.prefix_append_right_inj] at hstarts
        cases more with
        | nil => exact hnone (by rw [List.append_nil])
        | cons first more =>
          obtain ⟨rfl, -⟩ := List.cons_prefix_cons.mp hstarts
          exact hseparator (List.mem_append_right _ List.mem_cons_self)

theorem find_singleton_none {c : α} {text : List α} (h : c ∉ text) : find [c] text = none := by
  induction text with
  | nil => rfl
  | cons first rest ih =>
    rw [find, if_neg, ih (List.not_mem_of_not_mem_cons h)]
    · rfl
    · intro hstarts
      obtain ⟨rfl, -⟩ := List.cons_prefix_cons.mp hstarts
      exact h List.mem_cons_self

theorem find_singleton {c : α} {before : List α} (h : c ∉ before) (behind : List α) :
    find [c] (before ++ c :: behind) = some before.length := by
  induction before with
  | nil => exact find_prefix [c] behind
  | cons first before ih =>
    rw [List.cons_append, find, if_neg, ih (List.not_mem_of_not_mem_cons h)]
    · rfl
    · intro hstarts
      obtain ⟨rfl, -⟩ := List.cons_prefix_cons.mp hstarts
      exact h List.mem_cons_self

/-- A text is taken apart at its first separator in one way. -/
theorem append_cons_inj {c : α} {before before' behind behind' : List α} (h : c ∉ before)
    (h' : c ∉ before') (heq : before ++ c :: behind = before' ++ c :: behind') :
    before = before' ∧ behind = behind' := by
  have hfind := find_singleton h behind
  rw [heq, find_singleton h' behind'] at hfind
  obtain ⟨hbefore, hrest⟩ := List.append_inj heq (Option.some.inj hfind).symm
  exact ⟨hbefore, (List.cons.inj hrest).2⟩

end Keto.Library.Search
