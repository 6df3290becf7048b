import Mathlib.Data.List.Basic
import Mathlib.Data.List.Induction

/-!
The last position of a list with a property: where what is said later replaces what
was said before. `LastWord` is the same where it depends on what was said before
whether an element counts.
-/
namespace Keto.Library

variable {α : Type*}

def Latest (p : α → Prop) (l : List α) (i : ℕ) : Prop :=
  (∃ a, l[i]? = some a ∧ p a) ∧ ∀ j b, i < j → l[j]? = some b → ¬p b

namespace Latest

variable {p : α → Prop} {l : List α} {i j : ℕ}

theorem lt_length (h : Latest p l i) : i < l.length := by
  obtain ⟨a, hget, _⟩ := h.1
  exact (List.getElem?_eq_some_iff.mp hget).1

theorem getElem?_concat_eq_some (l : List α) (a : α) (k : ℕ) (b : α) :
    (l ++ [a])[k]? = some b ↔ l[k]? = some b ∨ k = l.length ∧ a = b := by
  rcases Nat.lt_trichotomy k l.length with hlt | heq | hgt
  · rw [List.getElem?_append_left hlt]
    exact ⟨Or.inl, fun h => h.resolve_right fun hk => absurd hk.1 (Nat.ne_of_lt hlt)⟩
  · subst heq
    simp
  · have hlength : (l ++ [a]).length ≤ k := by simpa using Nat.succ_le_of_lt hgt
    rw [List.getElem?_eq_none hlength, List.getElem?_eq_none (Nat.le_of_lt hgt)]
    simp [Nat.ne_of_gt hgt]

/-- The element that is added is the last, or it does not count. -/
theorem concat_iff (p : α → Prop) (l : List α) (a : α) (i : ℕ) :
    Latest p (l ++ [a]) i ↔ p a ∧ i = l.length ∨ ¬p a ∧ Latest p l i := by
  have hbound : ∀ k b, l[k]? = some b → k < l.length := fun k b hk =>
    (List.getElem?_eq_some_iff.mp hk).1
  simp only [Latest, getElem?_concat_eq_some]
  constructor
  · rintro ⟨⟨b, hget | ⟨rfl, rfl⟩, hb⟩, hlater⟩
    · have ha : ¬p a := hlater l.length a (hbound i b hget) (Or.inr ⟨rfl, rfl⟩)
      exact Or.inr ⟨ha, ⟨b, hget, hb⟩, fun k c hk hc => hlater k c hk (Or.inl hc)⟩
    · exact Or.inl ⟨hb, rfl⟩
  · rintro (⟨ha, rfl⟩ | ⟨ha, ⟨b, hget, hb⟩, hlater⟩)
    · refine ⟨⟨a, Or.inr ⟨rfl, rfl⟩, ha⟩, ?_⟩
      rintro k c hk (hc | ⟨rfl, rfl⟩)
      · exact absurd (hbound k c hc) (Nat.not_lt_of_gt hk)
      · exact absurd hk (Nat.lt_irrefl _)
    · refine ⟨⟨b, Or.inl hget, hb⟩, ?_⟩
      rintro k c hk (hc | ⟨rfl, rfl⟩)
      · exact hlater k c hk hc
      · exact ha

@[simp] theorem nil_iff (p : α → Prop) (i : ℕ) : Latest p [] i ↔ False := by
  constructor
  · intro h
    exact absurd h.lt_length (Nat.not_lt_zero i)
  · exact False.elim

theorem exists_iff (p : α → Prop) (l : List α) : (∃ i, Latest p l i) ↔ ∃ a ∈ l, p a := by
  induction l using List.reverseRecOn with
  | nil => simp
  | append_singleton l a ih =>
    simp only [concat_iff]
    by_cases ha : p a
    · simp [ha]
    · simp [ha, ih]

end Latest

/-- The element is the last of the list that speaks, given what stands before it. -/
def LastWord (speaks : List α → α → Prop) (l before : List α) (a : α) : Prop :=
  speaks before a ∧ ∃ behind, l = before ++ a :: behind ∧
    ∀ more b rest, behind = more ++ b :: rest → ¬speaks (before ++ a :: more) b

namespace LastWord

variable {speaks : List α → α → Prop} {l before : List α} {a last : α}

@[simp] theorem nil_iff : LastWord speaks [] before a ↔ False := by
  simp [LastWord]

/-- The element that is added has the last word, or it does not speak. -/
theorem concat_iff :
    LastWord speaks (l ++ [last]) before a ↔
      speaks l last ∧ before = l ∧ a = last ∨ ¬speaks l last ∧ LastWord speaks l before a := by
  constructor
  · rintro ⟨hspeaks, behind, hsplit, hlater⟩
    rcases List.eq_nil_or_concat' behind with rfl | ⟨front, b, rfl⟩
    · obtain ⟨rfl, hlast⟩ := List.append_inj' hsplit rfl
      obtain rfl := List.singleton_inj.mp hlast
      exact Or.inl ⟨hspeaks, rfl, rfl⟩
    · rw [← List.cons_append, ← List.append_assoc] at hsplit
      obtain ⟨rfl, hlast⟩ := List.append_inj' hsplit rfl
      obtain rfl := List.singleton_inj.mp hlast
      refine Or.inr ⟨hlater front last [] rfl, hspeaks, front, rfl, ?_⟩
      intro more b rest hfront
      exact hlater more b (rest ++ [last]) (by simp [hfront])
  · rintro (⟨hspeaks, rfl, rfl⟩ | ⟨hsilent, hspeaks, behind, rfl, hlater⟩)
    · exact ⟨hspeaks, [], rfl, fun more b rest h => by simp at h⟩
    · refine ⟨hspeaks, behind ++ [last], by simp, ?_⟩
      intro more b rest hsplit
      rcases List.eq_nil_or_concat' rest with rfl | ⟨front, c, rfl⟩
      · obtain ⟨rfl, hlast⟩ := List.append_inj' hsplit rfl
        obtain rfl := List.singleton_inj.mp hlast
        exact hsilent
      · rw [← List.cons_append, ← List.append_assoc] at hsplit
        exact hlater more b front (List.append_inj' hsplit rfl).1

end LastWord

end Keto.Library
