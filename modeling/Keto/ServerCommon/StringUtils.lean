import Keto.Library.Splitting
import Keto.Rpc.Frames
import Mathlib.Algebra.Ring.Int.Defs
import Mathlib.Algebra.Ring.Nat

/-!
The tokenizer of texts. Its positions are of the type `int`, and those of the text
of the type `size_t`; where the one is given for the other it is converted, modulo
the range of the other. In texts that an `int` can count no position is changed, and
the conversion of the position that stands for nothing asks for all that is left.
-/
namespace Keto.ServerCommon.StringUtils

open Protocol Library.Splitting

def sizeOfInt (i : ℤ) : ℕ := (i % 2 ^ 64).toNat

def intOfSize (n : ℕ) : ℤ :=
  if n % 2 ^ 32 < 2 ^ 31 then (n % 2 ^ 32 : ℕ) else (n % 2 ^ 32 : ℕ) - 2 ^ 32

def npos : ℕ := 2 ^ 64 - 1

inductive Failure
  /-- `std::out_of_range`, of a substring that starts behind the end. -/
  | outOfRange
  /-- The iterations do not suffice. -/
  | unfinished
  deriving DecidableEq, Repr

def find (value token : Bytes) (pos : ℕ) : ℕ :=
  if pos ≤ value.length then (Library.Search.findFrom token value pos).getD npos else npos

def substr (value : Bytes) (pos n : ℕ) : Except Failure Bytes :=
  if value.length < pos then .error .outOfRange else .ok ((value.drop pos).take n)

def tokenizeFrom (value token : Bytes) : ℕ → List Bytes → ℤ → ℤ → Except Failure (List Bytes)
  | 0, _, _, _ => .error .unfinished
  | iterations + 1, result, start, stop => do
    if sizeOfInt stop ≠ npos then
      let segment ← substr value (sizeOfInt start) (sizeOfInt (stop - start))
      let start := intOfSize ((sizeOfInt stop + token.length) % 2 ^ 64)
      let stop := intOfSize (find value token (sizeOfInt start))
      tokenizeFrom value token iterations (result ++ [segment]) start stop
    else
      let segment ← substr value (sizeOfInt start) (sizeOfInt (stop - start))
      return result ++ [segment]

def tokenize (iterations : ℕ) (value token : Bytes) : Except Failure (List Bytes) :=
  tokenizeFrom value token iterations [] 0 (intOfSize (find value token 0))

example : tokenize 9 (text " a  b") (text " ") = .ok [[], text "a", [], text "b"] := by
  decide +kernel

@[simp] theorem sizeOfInt_natCast {n : ℕ} (h : n < 2 ^ 31) : sizeOfInt n = n := by
  unfold sizeOfInt
  omega

theorem intOfSize_of_lt {n : ℕ} (h : n < 2 ^ 31) : intOfSize n = n := by
  have hmod : n % 2 ^ 32 = n := by omega
  rw [intOfSize, hmod, if_pos h]

theorem intOfSize_npos : intOfSize npos = -1 := by
  unfold intOfSize npos
  omega

theorem sizeOfInt_neg_one : sizeOfInt (-1) = npos := by
  unfold sizeOfInt npos
  omega

/-- The length of the last token is more than what is left. -/
theorem le_sizeOfInt_behind {start : ℕ} (h : start < 2 ^ 31) :
    2 ^ 31 ≤ sizeOfInt (-1 - start) := by
  rw [sizeOfInt]
  omega

section Steps

variable {value token : Bytes} {start : ℕ}

/-- From a position within the text, the token is found in what follows. -/
theorem intOfSize_find_of_some (hstart : start ≤ value.length)
    {i : ℕ} (h : Library.Search.find token (value.drop start) = some i)
    (hi : start + i < 2 ^ 31) : intOfSize (find value token start) = (start + i : ℕ) := by
  rw [find, if_pos hstart, Library.Search.findFrom, h, Option.map_some, Option.getD_some,
    Nat.add_comm i start]
  exact intOfSize_of_lt hi

theorem intOfSize_find_of_none (hstart : start ≤ value.length)
    (h : Library.Search.find token (value.drop start) = none) :
    intOfSize (find value token start) = -1 := by
  rw [find, if_pos hstart, Library.Search.findFrom, h, Option.map_none, Option.getD_none]
  exact intOfSize_npos

theorem substr_of_le (h : start ≤ value.length) (n : ℕ) :
    substr value start n = .ok ((value.drop start).take n) :=
  if_neg (Nat.not_lt_of_le h)

/-- Where the token is found, what is before it is a token, and the loop goes on behind. -/
theorem tokenizeFrom_of_some (hlength : value.length < 2 ^ 31) (hstart : start ≤ value.length)
    {i : ℕ} (h : Library.Search.find token (value.drop start) = some i) (iterations : ℕ)
    (result : List Bytes) :
    tokenizeFrom value token (iterations + 1) result start (intOfSize (find value token start)) =
      tokenizeFrom value token iterations (result ++ [(value.drop start).take i])
        (start + i + token.length : ℕ)
        (intOfSize (find value token (start + i + token.length))) := by
  have hroom := Library.Search.le_length_of_find h
  rw [List.length_drop] at hroom
  have hbehind : start + i + token.length < 2 ^ 31 := by omega
  have hstop : start + i < 2 ^ 31 := by omega
  have hsegment : ((start + i : ℕ) : ℤ) - start = (i : ℕ) := by omega
  have hnpos : start + i ≠ npos := by rw [npos]; omega
  have hsum : (start + i + token.length) % 2 ^ 64 = start + i + token.length := by omega
  rw [intOfSize_find_of_some hstart h hstop, tokenizeFrom, sizeOfInt_natCast hstop, if_pos hnpos,
    hsegment, sizeOfInt_natCast (by omega : i < 2 ^ 31),
    sizeOfInt_natCast (by omega : start < 2 ^ 31), substr_of_le hstart, hsum,
    intOfSize_of_lt hbehind]
  change tokenizeFrom value token iterations (result ++ [(value.drop start).take i])
    (start + i + token.length : ℕ)
    (intOfSize (find value token (sizeOfInt (start + i + token.length : ℕ)))) = _
  rw [sizeOfInt_natCast hbehind]

/-- Where it is not, all that is left is the last token. -/
theorem tokenizeFrom_of_none (hlength : value.length < 2 ^ 31) (hstart : start ≤ value.length)
    (h : Library.Search.find token (value.drop start) = none) (iterations : ℕ)
    (result : List Bytes) :
    tokenizeFrom value token (iterations + 1) result start (intOfSize (find value token start)) =
      .ok (result ++ [value.drop start]) := by
  have hstart' : start < 2 ^ 31 := Nat.lt_of_le_of_lt hstart hlength
  have hall : (value.drop start).length ≤ sizeOfInt (-1 - start) := by
    have hbehind := le_sizeOfInt_behind hstart'
    rw [List.length_drop]
    omega
  rw [intOfSize_find_of_none hstart h, tokenizeFrom, sizeOfInt_neg_one,
    if_neg (not_not_intro rfl), sizeOfInt_natCast hstart', substr_of_le hstart,
    List.take_of_length_le hall]
  rfl

end Steps

/-- From every position of the loop the rest of the text is split. -/
theorem tokenizeFrom_splits {value token : Bytes} (hlength : value.length < 2 ^ 31)
    (htoken : token ≠ []) (iterations : ℕ) {start : ℕ} (hstart : start ≤ value.length)
    (hmany : (value.drop start).length < iterations) (result : List Bytes) :
    ∃ tokens, tokenizeFrom value token iterations result start
        (intOfSize (find value token start)) = .ok (result ++ tokens) ∧
      Splits token (value.drop start) tokens := by
  induction iterations generalizing start result with
  | zero => exact absurd hmany (Nat.not_lt_zero _)
  | succ iterations ih =>
    cases hfound : Library.Search.find token (value.drop start) with
    | none =>
      exact ⟨[value.drop start], tokenizeFrom_of_none hlength hstart hfound iterations result,
        splits_of_find_eq_none hfound⟩
    | some i =>
      have hroom := Library.Search.le_length_of_find hfound
      have hpos := List.length_pos_iff.mpr htoken
      rw [List.length_drop] at hroom hmany
      have hbehind : start + i + token.length ≤ value.length := by omega
      have hfewer : (value.drop (start + i + token.length)).length < iterations := by
        rw [List.length_drop]
        omega
      obtain ⟨tokens, hloop, hsplits⟩ :=
        ih hbehind hfewer (result ++ [(value.drop start).take i])
      refine ⟨(value.drop start).take i :: tokens, ?_, ?_⟩
      · rw [tokenizeFrom_of_some hlength hstart hfound, hloop, List.append_assoc]
        rfl
      · refine splits_of_find hfound ?_
        rw [List.drop_drop, ← Nat.add_assoc]
        exact hsplits

/-- A text is tokenized to what it is split into, and to nothing else. -/
theorem tokenize_eq_ok_iff {value token : Bytes} (hlength : value.length < 2 ^ 31)
    (htoken : token ≠ []) {iterations : ℕ} (hmany : value.length < iterations)
    (tokens : List Bytes) :
    tokenize iterations value token = .ok tokens ↔ Splits token value tokens := by
  obtain ⟨found, hloop, hsplits⟩ :=
    tokenizeFrom_splits hlength htoken iterations (Nat.zero_le _) hmany []
  have htokenize : tokenize iterations value token = .ok found := hloop
  rw [List.drop_zero] at hsplits
  rw [htokenize]
  constructor
  · intro heq
    obtain rfl := Except.ok.inj heq
    exact hsplits
  · intro hother
    rw [splits_unique hsplits hother]

/-- A delimiter of one byte splits the text at that byte. -/
theorem tokenize_singleton {value : Bytes} (hlength : value.length < 2 ^ 31) {iterations : ℕ}
    (hmany : value.length < iterations) (delimiter : UInt8) :
    tokenize iterations value [delimiter] = .ok (value.splitOn delimiter) := by
  have htoken : [delimiter] ≠ [] := List.cons_ne_nil _ _
  obtain ⟨tokens, hloop, hsplits⟩ :=
    tokenizeFrom_splits hlength htoken iterations (Nat.zero_le _) hmany []
  rw [List.drop_zero] at hsplits
  have hfree : ∀ segment ∈ tokens, delimiter ∉ segment := by
    intro segment hsegment hmem
    obtain ⟨before, behind, heq⟩ := List.append_of_mem hmem
    refine free_of_splits htoken hsplits segment hsegment ⟨before, behind, ?_⟩
    rw [heq, List.append_assoc, List.singleton_append]
  have hjoined := List.splitOn_intercalate delimiter hfree (ne_nil_of_splits hsplits)
  rw [intercalate_of_splits hsplits] at hjoined
  rw [hjoined]
  exact hloop

/-- The frames of servers and clients are tokenized so. -/
theorem tokenize_frame {data : Bytes} (hlength : data.length < 2 ^ 31) {iterations : ℕ}
    (hmany : data.length < iterations) :
    tokenize iterations data [Rpc.space] = .ok (Rpc.tokenize data) :=
  tokenize_singleton hlength hmany Rpc.space

/-- Texts shorter than 2^31 bytes are tokenized, in fewer iterations than they have bytes
and one, to tokens without the delimiter that are joined by it to the text. -/
theorem tokenize_exact (value token : Bytes) (hlength : value.length < 2 ^ 31)
    (htoken : token ≠ []) :
    ∃ tokens, (∀ iterations > value.length, tokenize iterations value token = .ok tokens) ∧
      token.intercalate tokens = value ∧ Splits token value tokens ∧
      ∀ segment ∈ tokens, ¬ token <:+: segment := by
  obtain ⟨tokens, _, hsplits⟩ :=
    tokenizeFrom_splits hlength htoken (value.length + 1) (Nat.zero_le _) (Nat.lt_succ_self _) []
  rw [List.drop_zero] at hsplits
  refine ⟨tokens, ?_, intercalate_of_splits hsplits, hsplits, free_of_splits htoken hsplits⟩
  intro iterations hmany
  exact (tokenize_eq_ok_iff hlength htoken hmany tokens).mpr hsplits

/-- A delimiter that overlaps itself is found where it begins first. -/
theorem tokenize_exact_overlapping :
    ∃ tokens, (∀ iterations > 5, tokenize iterations [1, 1, 1, 2, 1] [1, 1] = .ok tokens) ∧
      List.intercalate [1, 1] tokens = [1, 1, 1, 2, 1] ∧
      Splits [1, 1] [1, 1, 1, 2, 1] tokens ∧ ∀ segment ∈ tokens, ¬ [1, 1] <:+: segment :=
  tokenize_exact [1, 1, 1, 2, 1] [1, 1] (by decide) (by decide)

end Keto.ServerCommon.StringUtils
