import Keto.Library.Search

/-!
A text split at a separator, which is looked for from left to right. What is split
so is determined by the text, has the separator nowhere in it, and gives back the
text with the separator between.
-/
namespace Keto.Library.Splitting

open Search

variable {α : Type} {separator : List α}

/-- A text without the separator is one segment; before a separator, none begins in the
segment, and the rest is split behind it. -/
inductive Splits (separator : List α) : List α → List (List α) → Prop
  | last {text : List α} (hfree : ¬ separator <:+: text) : Splits separator text [text]
  | next {segment rest : List α} {segments : List (List α)}
      (hfirst : ∀ i < segment.length, ¬ separator <+: (segment ++ separator ++ rest).drop i)
      (hrest : Splits separator rest segments) :
      Splits separator (segment ++ separator ++ rest) (segment :: segments)

theorem ne_nil_of_splits {text : List α} {segments : List (List α)}
    (h : Splits separator text segments) : segments ≠ [] := by
  cases h with
  | last hfree => exact List.cons_ne_nil _ _
  | next hfirst hrest => exact List.cons_ne_nil _ _

/-- The segments with the separator between are the text. -/
theorem intercalate_of_splits {text : List α} {segments : List (List α)}
    (h : Splits separator text segments) : separator.intercalate segments = text := by
  induction h with
  | last hfree => exact List.intercalate_singleton
  | next hfirst hrest ih =>
    rw [List.intercalate_cons_of_ne_nil (ne_nil_of_splits hrest), ih]

/-- A separator in a segment would begin there. -/
theorem free_of_first (hseparator : separator ≠ []) {segment behind : List α}
    (h : ∀ i < segment.length, ¬ separator <+: (segment ++ behind).drop i) :
    ¬ separator <:+: segment := by
  rintro ⟨before, after, rfl⟩
  have hlength : before.length < (before ++ separator ++ after).length := by
    have hpos := List.length_pos_iff.mpr hseparator
    simp only [List.length_append]
    omega
  refine h before.length hlength ?_
  rw [List.append_assoc, List.append_assoc, List.drop_left]
  exact List.prefix_append _ _

theorem free_of_splits (hseparator : separator ≠ []) {text : List α} {segments : List (List α)}
    (h : Splits separator text segments) : ∀ segment ∈ segments, ¬ separator <:+: segment := by
  induction h with
  | last hfree =>
    intro segment hmem
    obtain rfl := List.mem_singleton.mp hmem
    exact hfree
  | next hfirst hrest ih =>
    refine List.forall_mem_cons.mpr ⟨?_, ih⟩
    simp only [List.append_assoc] at hfirst
    exact free_of_first hseparator hfirst

/-- Where the same text is cut twice before its first separator, it is cut at the same place. -/
theorem length_le_of_first {segment other rest otherRest : List α}
    (heq : segment ++ separator ++ rest = other ++ separator ++ otherRest)
    (h : ∀ i < segment.length, ¬ separator <+: (segment ++ separator ++ rest).drop i) :
    segment.length ≤ other.length := by
  refine Nat.le_of_not_lt fun hlt => h other.length hlt ?_
  rw [heq, List.append_assoc, List.drop_left]
  exact List.prefix_append _ _

/-- A text is split in one way only. -/
theorem splits_unique {text : List α} {segments others : List (List α)}
    (h : Splits separator text segments) (hother : Splits separator text others) :
    segments = others := by
  induction h generalizing others with
  | last hfree =>
    cases hother with
    | last => rfl
    | @next segment rest others hfirst hrest =>
      exact absurd ⟨segment, rest, rfl⟩ hfree
  | @next segment rest segments hfirst hrest ih =>
    generalize htext : segment ++ separator ++ rest = text at hother
    cases hother with
    | last hfree => exact absurd ⟨segment, rest, htext⟩ hfree
    | @next other otherRest others hotherFirst hotherRest =>
      have hlength := Nat.le_antisymm (length_le_of_first htext hfirst)
        (length_le_of_first htext.symm hotherFirst)
      rw [List.append_assoc, List.append_assoc] at htext
      obtain ⟨rfl, hbehind⟩ := List.append_inj htext hlength
      obtain rfl := List.append_cancel_left hbehind
      rw [ih hotherRest]

variable [DecidableEq α]

/-- A text in which the separator is not found is one segment. -/
theorem splits_of_find_eq_none {text : List α} (h : find separator text = none) :
    Splits separator text [text] :=
  .last (not_infix_of_find_eq_none h)

/-- Where it is found, the rest is split behind it. -/
theorem splits_of_find {text : List α} {i : ℕ} (h : find separator text = some i)
    {segments : List (List α)}
    (hrest : Splits separator (text.drop (i + separator.length)) segments) :
    Splits separator text (text.take i :: segments) := by
  have htext := append_of_find h
  have hsplits : Splits separator
      (text.take i ++ separator ++ text.drop (i + separator.length)) (text.take i :: segments) := by
    refine .next ?_ hrest
    intro j hj
    rw [htext]
    exact not_prefix_of_lt_find h (Nat.lt_of_lt_of_le hj (List.length_take_le i text))
  rw [htext] at hsplits
  exact hsplits

end Keto.Library.Splitting
