import Keto.Library.Ancestry
import Mathlib.Data.List.Nodup

/-!
What lies below an element in a partial map of parent links. Where every chain
ends, no element lies below itself, the elements below the children of one
element are apart, and a walk down comes to an end at a depth that the ends of
finitely many chains bound.
-/
namespace Keto.Library.Ancestry

variable {α : Type*} {parent : α → Option α}

/-- A chain goes on from where it has come to. -/
theorem ancestor_add_of_some {m : ℕ} {a b : α} (h : ancestor parent m a = some b) (n : ℕ) :
    ancestor parent (m + n) a = ancestor parent n b := by
  induction m generalizing a with
  | zero =>
    obtain rfl := Option.some.inj h
    rw [Nat.zero_add]
  | succ m ih =>
    obtain ⟨c, hc, hrest⟩ := Option.bind_eq_some_iff.mp h
    rw [Nat.succ_add, ancestor_succ_of_some parent (m + n) hc]
    exact ih hrest

theorem ancestor_succ_of_last {n : ℕ} {a b c : α} (h : ancestor parent n a = some b)
    (hlast : parent b = some c) : ancestor parent (n + 1) a = some c := by
  rw [ancestor_add_of_some h 1]
  exact ancestor_succ_of_some parent 0 hlast

/-- A chain that ends does not come back to where it started. -/
theorem Rooted.acyclic {a : α} (h : Rooted parent a) (n : ℕ) :
    ancestor parent (n + 1) a ≠ some a := by
  obtain ⟨length, root, hroot, hend⟩ := h
  intro hcycle
  induction length generalizing a with
  | zero =>
    obtain rfl := Option.some.inj hroot
    rw [ancestor_succ_of_none parent n hend] at hcycle
    exact absurd hcycle (by simp)
  | succ length ih =>
    obtain ⟨b, hb, hrest⟩ := Option.bind_eq_some_iff.mp hroot
    rw [ancestor_succ_of_some parent n hb] at hcycle
    exact ih hrest (ancestor_succ_of_last hcycle hb)

/-- A chain that ends has no element behind its end. -/
theorem Rooted.exists_length {a : α} (h : Rooted parent a) :
    ∃ length, ∀ n b, ancestor parent n a = some b → n ≤ length := by
  obtain ⟨length, root, hroot, hend⟩ := h
  refine ⟨length, ?_⟩
  intro n b hb
  by_contra hlong
  obtain ⟨k, rfl⟩ : ∃ k, n = length + (k + 1) := ⟨n - length - 1, by omega⟩
  rw [ancestor_add_of_some hroot, ancestor_succ_of_none parent k hend] at hb
  exact absurd hb (by simp)

/-- One length bounds finitely many chains that end. -/
theorem exists_length_of_forall {elements : List α} (h : ∀ a ∈ elements, Rooted parent a) :
    ∃ length, ∀ a ∈ elements, ∀ n b, ancestor parent n a = some b → n ≤ length := by
  induction elements with
  | nil => exact ⟨0, fun a ha => absurd ha List.not_mem_nil⟩
  | cons a elements ih =>
    rw [List.forall_mem_cons] at h
    obtain ⟨first, hfirst⟩ := h.1.exists_length
    obtain ⟨rest, hrest⟩ := ih h.2
    refine ⟨max first rest, ?_⟩
    intro other hother n b hb
    rcases List.mem_cons.mp hother with rfl | hmem
    · exact Nat.le_trans (hfirst n b hb) (Nat.le_max_left first rest)
    · exact Nat.le_trans (hrest other hmem n b hb) (Nat.le_max_right first rest)

section NewLink

variable {parent' : α → Option α} {k : α}

/-- A chain that does not come to the element with the new link still ends. -/
theorem rooted_of_avoids (hsame : ∀ a, a ≠ k → parent' a = parent a) {b : α}
    (havoids : ∀ n, ancestor parent n b ≠ some k) (h : Rooted parent b) : Rooted parent' b := by
  obtain ⟨length, root, hroot, hend⟩ := h
  induction length generalizing b with
  | zero =>
    obtain rfl := Option.some.inj hroot
    have hne : b ≠ k := fun heq => havoids 0 (congrArg some heq)
    exact rooted_of_none parent' ((hsame b hne).trans hend)
  | succ length ih =>
    obtain ⟨c, hc, hrest⟩ := Option.bind_eq_some_iff.mp hroot
    have hne : b ≠ k := fun heq => havoids 0 (congrArg some heq)
    have hnext : ∀ n, ancestor parent n c ≠ some k := by
      intro n hn
      exact havoids (n + 1) ((ancestor_succ_of_some parent n hc).trans hn)
    exact rooted_of_some parent' ((hsame b hne).trans hc) (ih hnext hrest)

/-- A new link from an element without one leaves every chain with an end, unless
the chain of the new parent comes to that element. -/
theorem rooted_of_new_link (hsame : ∀ a, a ≠ k → parent' a = parent a)
    (havoids : ∀ b, parent' k = some b → ∀ n, ancestor parent n b ≠ some k)
    (h : ∀ a, Rooted parent a) (a : α) : Rooted parent' a := by
  have hk : Rooted parent' k := by
    cases hlink : parent' k with
    | none => exact rooted_of_none parent' hlink
    | some b => exact rooted_of_some parent' hlink (rooted_of_avoids hsame (havoids b hlink) (h b))
  -- A chain either stops before the element or goes on through its new link.
  obtain ⟨length, root, hroot, hend⟩ := h a
  induction length generalizing a with
  | zero =>
    obtain rfl := Option.some.inj hroot
    by_cases heq : a = k
    · rw [heq]
      exact hk
    · exact rooted_of_none parent' ((hsame a heq).trans hend)
  | succ length ih =>
    obtain ⟨b, hb, hrest⟩ := Option.bind_eq_some_iff.mp hroot
    by_cases heq : a = k
    · rw [heq]
      exact hk
    · exact rooted_of_some parent' ((hsame a heq).trans hb) (ih b hrest)

end NewLink

/-- `b` lies below `a`: its chain comes to `a` after one link or more. -/
def Below (parent : α → Option α) (a b : α) : Prop := ∃ n, ancestor parent (n + 1) b = some a

theorem not_below_self {a : α} (h : Rooted parent a) : ¬ Below parent a a := by
  intro hbelow
  obtain ⟨n, hn⟩ := hbelow
  exact h.acyclic n hn

/-- What lies below an element are its children and what lies below these. -/
theorem below_iff {a b : α} :
    Below parent a b ↔ ∃ c, parent c = some a ∧ (b = c ∨ Below parent c b) := by
  constructor
  · intro hbelow
    obtain ⟨n, hn⟩ := hbelow
    obtain ⟨c, hc, hlast⟩ := ancestor_succ_last hn
    refine ⟨c, hlast, ?_⟩
    cases n with
    | zero => exact Or.inl (Option.some.inj hc)
    | succ n => exact Or.inr ⟨n, hc⟩
  · intro hchild
    obtain ⟨c, hc, rfl | ⟨n, hn⟩⟩ := hchild
    · exact ⟨0, ancestor_succ_of_last rfl hc⟩
    · exact ⟨n + 1, ancestor_succ_of_last hn hc⟩

/-- Of two children of one element that a chain comes to, one would lie below the other. -/
theorem child_eq_of_chain {a b c d : α} (hrooted : Rooted parent a) (hc : parent c = some a)
    (hd : parent d = some a) {m n : ℕ} (hm : ancestor parent m b = some c)
    (hn : ancestor parent n b = some d) (hle : m ≤ n) : c = d := by
  obtain ⟨k, rfl⟩ := Nat.exists_eq_add_of_le hle
  rw [ancestor_add_of_some hm] at hn
  cases k with
  | zero => exact Option.some.inj hn
  | succ k =>
    rw [ancestor_succ_of_some parent k hc] at hn
    exact absurd (ancestor_succ_of_last hn hd) (hrooted.acyclic k)

/-- The links of the elements below `a`, one for each. -/
structure LinksBelow (parent : α → Option α) (a : α) (links : List (α × α)) : Prop where
  nodup : (links.map Prod.fst).Nodup
  below : ∀ b, b ∈ links.map Prod.fst ↔ Below parent a b
  link : ∀ entry ∈ links, parent entry.1 = some entry.2

section Children

variable {ι : Type*} {a : α} {children : List ι} {element : ι → α} {links : ι → List (α × α)}

def childLinks (a : α) (children : List ι) (element : ι → α) (links : ι → List (α × α)) :
    List (α × α) :=
  children.flatMap fun child => (element child, a) :: links child

theorem map_fst_childLinks :
    (childLinks a children element links).map Prod.fst =
      children.flatMap fun child => element child :: (links child).map Prod.fst := by
  rw [childLinks, List.map_flatMap]
  rfl

/-- Different children of one element have nothing at or below them in common. -/
theorem disjoint_children (hrooted : Rooted parent a) {c d : α} (hc : parent c = some a)
    (hd : parent d = some a) (hne : c ≠ d) {b : α} (hbelow : b = c ∨ Below parent c b) :
    ¬ (b = d ∨ Below parent d b) := by
  have hchain : ∀ e, b = e ∨ Below parent e b → ∃ n, ancestor parent n b = some e := by
    intro e hat
    rcases hat with rfl | ⟨n, hn⟩
    · exact ⟨0, rfl⟩
    · exact ⟨n + 1, hn⟩
  intro hother
  obtain ⟨m, hm⟩ := hchain c hbelow
  obtain ⟨n, hn⟩ := hchain d hother
  rcases Nat.le_total m n with hle | hle
  · exact hne (child_eq_of_chain hrooted hc hd hm hn hle)
  · exact hne (child_eq_of_chain hrooted hd hc hn hm hle).symm

/-- The links below an element, put together from those below its children. -/
theorem linksBelow_childLinks (hrooted : ∀ b, Rooted parent b)
    (hnodup : (children.map element).Nodup)
    (hchildren : ∀ b, b ∈ children.map element ↔ parent b = some a)
    (h : ∀ child ∈ children, LinksBelow parent (element child) (links child)) :
    LinksBelow parent a (childLinks a children element links) := by
  have hparent : ∀ child ∈ children, parent (element child) = some a :=
    fun child hchild => (hchildren _).mp (List.mem_map_of_mem hchild)
  have hmem : ∀ child ∈ children, ∀ b,
      b ∈ element child :: (links child).map Prod.fst ↔
        b = element child ∨ Below parent (element child) b := by
    intro child hchild b
    rw [List.mem_cons, (h child hchild).below]
  refine ⟨?_, ?_, ?_⟩
  · rw [map_fst_childLinks, List.nodup_flatMap]
    constructor
    · intro child hchild
      refine List.nodup_cons.mpr ⟨?_, (h child hchild).nodup⟩
      rw [(h child hchild).below]
      exact not_below_self (hrooted _)
    · refine (List.pairwise_map.mp hnodup).imp_of_mem ?_
      intro c d hc hd hne b hfirst hsecond
      exact disjoint_children (hrooted a) (hparent c hc) (hparent d hd) hne
        ((hmem c hc b).mp hfirst) ((hmem d hd b).mp hsecond)
  · intro b
    rw [map_fst_childLinks, List.mem_flatMap, below_iff]
    constructor
    · intro hlisted
      obtain ⟨child, hchild, hb⟩ := hlisted
      exact ⟨element child, hparent child hchild, (hmem child hchild b).mp hb⟩
    · intro hbelow
      obtain ⟨c, hc, hb⟩ := hbelow
      obtain ⟨child, hchild, rfl⟩ := List.mem_map.mp ((hchildren c).mpr hc)
      exact ⟨child, hchild, (hmem child hchild b).mpr hb⟩
  · intro entry hentry
    obtain ⟨child, hchild, hmember⟩ := List.mem_flatMap.mp hentry
    rcases List.mem_cons.mp hmember with rfl | hbelow
    · exact hparent child hchild
    · exact (h child hchild).link entry hbelow

end Children

end Keto.Library.Ancestry
