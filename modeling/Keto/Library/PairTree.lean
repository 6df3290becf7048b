import Mathlib.Data.Nat.Log
import Mathlib.Logic.Function.Iterate
import Mathlib.Data.List.Basic

/-!
Roots of level-by-level pairing trees over lists of any length.
A level of odd length is padded with a copy of its last element and its
neighbours are combined two by two until one element is left. The results
say what a root can depend on when the combining function looks at its left
argument alone.
-/
namespace Keto.Library.PairTree

variable {α : Type*}

/-- An odd level is padded with a copy of its last element. -/
def pad (level : List α) : List α :=
  if level.length % 2 = 1 then level ++ level.getLast?.toList else level

def pairs (combine : α → α → α) : List α → List α
  | lhs :: rhs :: rest => combine lhs rhs :: pairs combine rest
  | _ => []

def parents (combine : α → α → α) (level : List α) : List α :=
  pairs combine (pad level)

theorem pairs_length (combine : α → α → α) (level : List α) :
    (pairs combine level).length = level.length / 2 := by
  induction level using pairs.induct with
  | case1 lhs rhs rest ih =>
    simp only [pairs, List.length_cons, ih]
    omega
  | case2 level hshort =>
    cases level with
    | nil => simp [pairs]
    | cons a rest =>
      cases rest with
      | nil => simp [pairs]
      | cons b rest => exact absurd rfl (hshort a b rest)

theorem pad_length (level : List α) :
    (pad level).length = level.length + level.length % 2 := by
  unfold pad
  split
  · rename_i hodd
    cases hlast : level.getLast? with
    | none =>
      rw [List.getLast?_eq_none_iff.mp hlast] at hodd
      simp at hodd
    | some last => simp [hodd]
  · omega

theorem parents_length (combine : α → α → α) (level : List α) :
    (parents combine level).length = (level.length + 1) / 2 := by
  rw [parents, pairs_length, pad_length]
  omega

/-- The root of the tree; `none` only for the empty list, on which the
recursion would not end. -/
def root (combine : α → α → α) : List α → Option α
  | [] => none
  | [leaf] => some leaf
  | lhs :: rhs :: rest => root combine (parents combine (lhs :: rhs :: rest))
termination_by level => level.length
decreasing_by
  rw [parents_length]
  simp only [List.length_cons]
  omega

theorem root_singleton (combine : α → α → α) (leaf : α) :
    root combine [leaf] = some leaf := by
  rw [root]

theorem root_of_two_le (combine : α → α → α) (level : List α) (h : 2 ≤ level.length) :
    root combine level = root combine (parents combine level) := by
  cases level with
  | nil => simp at h
  | cons lhs rest =>
    cases rest with
    | nil => simp at h
    | cons rhs rest => rw [root]

/-- Padding keeps the first two elements, so the first parent is made of them. -/
theorem parents_cons_cons (combine : α → α → α) (lhs rhs : α) (rest : List α) :
    ∃ more, parents combine (lhs :: rhs :: rest) = combine lhs rhs :: more := by
  unfold parents pad
  split
  · exact ⟨pairs combine (rest ++ (lhs :: rhs :: rest).getLast?.toList), rfl⟩
  · exact ⟨pairs combine rest, rfl⟩

/-- Two lists that agree after doubling agree. -/
theorem append_self_injective : Function.Injective fun list : List α => list ++ list := by
  intro a b hab
  have hlen : a.length = b.length := by
    have h := congrArg List.length hab
    simp only [List.length_append] at h
    omega
  exact (List.append_inj hab hlen).1

section LeftOnly

variable (f : α → α)

/-- A combining function that ignores its right argument applies `f` to the
first element once a level: the root depends on the head and the length. -/
theorem root_of_left (combine : α → α → α) (hleft : ∀ a b, combine a b = f a)
    (head : α) (tail : List α) :
    root combine (head :: tail) = some (f^[Nat.clog 2 (tail.length + 1)] head) := by
  have aux : ∀ n : ℕ, ∀ (head : α) (tail : List α), tail.length = n →
      root combine (head :: tail) = some (f^[Nat.clog 2 (n + 1)] head) := by
    intro n
    induction n using Nat.strong_induction_on with
    | h n ih =>
      intro head tail hlen
      cases tail with
      | nil =>
        subst hlen
        simp [root_singleton, Nat.clog_one_right]
      | cons rhs rest =>
        obtain ⟨more, hparents⟩ := parents_cons_cons combine head rhs rest
        have hmore : more.length + 1 = (n + 2) / 2 := by
          have h := parents_length combine (head :: rhs :: rest)
          rw [hparents] at h
          simp only [List.length_cons] at h hlen
          omega
        have hn : 1 ≤ n := by
          simp only [List.length_cons] at hlen
          omega
        have hdepth : Nat.clog 2 (n + 1) = Nat.clog 2 (more.length + 1) + 1 := by
          rw [Nat.clog_of_two_le (by omega) (by omega), hmore]
          congr 2
        rw [root_of_two_le combine _ (by simp), hparents, hleft,
          ih more.length (by omega) (f head) more rfl, hdepth,
          Function.iterate_succ_apply]
  exact aux tail.length head tail rfl

/-- Two lists of one length have equal roots exactly when their heads agree. -/
theorem root_eq_iff_of_left (combine : α → α → α) (hleft : ∀ a b, combine a b = f a)
    (hf : Function.Injective f) (a b : α) (as bs : List α) (hlen : as.length = bs.length) :
    root combine (a :: as) = root combine (b :: bs) ↔ a = b := by
  rw [root_of_left f combine hleft, root_of_left f combine hleft, hlen, Option.some.injEq]
  exact (hf.iterate _).eq_iff

end LeftOnly

end Keto.Library.PairTree
