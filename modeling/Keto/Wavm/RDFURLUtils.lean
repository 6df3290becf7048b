import Keto.AccountDb.AccountRDFStatementBuilder
import Keto.Library.Search

/-!
The URLs that a contract's subjects get: behind the URL of their class a slash and
an identifier. The class of a subject is what stands in front of its last slash.
-/
namespace Keto.Wavm

open Protocol AccountDb Library.Search

structure RDFURLUtils where
  modelBaseUrl : Bytes
  modelName : Bytes
  deriving DecidableEq, Repr

namespace RDFURLUtils

def hash : UInt8 := 0x23

/-- The constructor; a URL without a hash sign is both its base and its name. -/
def ofUrl (url : Bytes) : RDFURLUtils :=
  match find [hash] url with
  | some pos => ⟨url.take pos, url.drop (pos + 1)⟩
  | none => ⟨url, url⟩

def buildSubjectUrl (urlUtils : RDFURLUtils) (id : Bytes) : Bytes :=
  urlUtils.modelBaseUrl ++ [hash] ++ urlUtils.modelName ++ [RDFSubjectHelper.slash] ++ id

def buildPredicateUrl (urlUtils : RDFURLUtils) (predicate : Bytes) : Bytes :=
  urlUtils.modelBaseUrl ++ [hash] ++ predicate

/-- The URL of an ontology model, `base#Class`. -/
abbrev ModelUrl := { url : Bytes // hash ∈ url }

def subjectOf (url : ModelUrl) (id : Bytes) : RDFSubject :=
  RDFSubjectHelper.ofString ((ofUrl url.1).buildSubjectUrl id)

/-- A URL is put together again where it was taken apart. -/
theorem buildSubjectUrl_eq (url : ModelUrl) (id : Bytes) :
    (ofUrl url.1).buildSubjectUrl id = url.1 ++ RDFSubjectHelper.slash :: id := by
  obtain ⟨base, name, hurl, hbase⟩ := List.eq_append_cons_of_mem url.2
  have hname : (base ++ hash :: name).drop (base.length + 1) = name := by
    rw [← List.drop_drop, List.drop_left]
    rfl
  rw [ofUrl, buildSubjectUrl, hurl, find_singleton hbase]
  simp only [List.take_left, hname, List.append_assoc, List.cons_append, List.nil_append]

/-- The class ends at the last slash. -/
theorem getOntologyClass_append (front : Bytes) {rear : Bytes}
    (h : RDFSubjectHelper.slash ∉ rear) (predicates : List RDFPredicate) :
    RDFSubjectHelper.getOntologyClass
      ⟨front ++ RDFSubjectHelper.slash :: rear, predicates⟩ = front := by
  have hmem : RDFSubjectHelper.slash ∈ front ++ RDFSubjectHelper.slash :: rear :=
    List.mem_append_right _ List.mem_cons_self
  have hbehind : ∀ c ∈ rear.reverse, decide (c ≠ RDFSubjectHelper.slash) = true := by
    intro c hc
    exact decide_eq_true fun heq => h (heq ▸ List.mem_reverse.mp hc)
  rw [RDFSubjectHelper.getOntologyClass, if_pos hmem]
  simp only [List.reverse_append, List.reverse_cons, List.append_assoc]
  rw [List.dropWhile_append_of_pos hbehind]
  simp

theorem getOntologyClass_of_not_mem (url : ModelUrl) {id : Bytes}
    (h : RDFSubjectHelper.slash ∉ id) :
    RDFSubjectHelper.getOntologyClass (subjectOf url id) = url.1 := by
  rw [subjectOf, RDFSubjectHelper.ofString, RDFObjectHelper.octetString_length,
    buildSubjectUrl_eq, getOntologyClass_append url.1 h]

/-- Of an identifier with a slash all but its end belongs to the class. -/
theorem getOntologyClass_of_mem (url : ModelUrl) {id : Bytes} (h : RDFSubjectHelper.slash ∈ id) :
    ∃ front, RDFSubjectHelper.getOntologyClass (subjectOf url id) =
      url.1 ++ RDFSubjectHelper.slash :: front := by
  obtain ⟨rear, front, hid, hrear⟩ := List.eq_append_cons_of_mem (List.mem_reverse.mpr h)
  have hsplit : id = front.reverse ++ RDFSubjectHelper.slash :: rear.reverse := by
    rw [← List.reverse_reverse id, hid]
    simp
  refine ⟨front.reverse, ?_⟩
  have hurl : url.1 ++ RDFSubjectHelper.slash :: id =
      (url.1 ++ RDFSubjectHelper.slash :: front.reverse) ++
        RDFSubjectHelper.slash :: rear.reverse := by
    rw [hsplit]
    simp only [List.append_assoc, List.cons_append]
  rw [subjectOf, RDFSubjectHelper.ofString, RDFObjectHelper.octetString_length,
    buildSubjectUrl_eq, hurl, getOntologyClass_append _ (mt List.mem_reverse.mp hrear)]

/-- The class of accounts has no slash behind a hash sign. -/
theorem hash_not_mem_of_accountOntologyClass {front rear : Bytes}
    (h : AccountSystemOntologyTypes.accountOntologyClass =
      front ++ RDFSubjectHelper.slash :: rear) : hash ∉ front := by
  have hplaces : ∀ i < AccountSystemOntologyTypes.accountOntologyClass.length,
      AccountSystemOntologyTypes.accountOntologyClass[i]? = some RDFSubjectHelper.slash →
        hash ∉ AccountSystemOntologyTypes.accountOntologyClass.take i := by decide +kernel
  have hplace := hplaces front.length
  rw [h] at hplace
  simpa using hplace

/-- The subject has the class of its model, and is an account exactly when the model is
that of accounts. -/
structure KeepsClass (url : ModelUrl) (id : Bytes) : Prop where
  ontologyClass : RDFSubjectHelper.getOntologyClass (subjectOf url id) = url.1
  account : AccountSystemOntologyTypes.isAccountOntologyClass (subjectOf url id) = true ↔
    url.1 = AccountSystemOntologyTypes.accountOntologyClass

/-- The subject keeps the class of its model exactly when its identifier has no slash, and
no subject of another class ever becomes an account. -/
theorem keepsClass_iff (url : ModelUrl) (id : Bytes) :
    (KeepsClass url id ↔ RDFSubjectHelper.slash ∉ id) ∧
      (url.1 ≠ AccountSystemOntologyTypes.accountOntologyClass →
        AccountSystemOntologyTypes.isAccountOntologyClass (subjectOf url id) = false) := by
  by_cases h : RDFSubjectHelper.slash ∈ id
  · obtain ⟨front, hclass⟩ := getOntologyClass_of_mem url h
    refine ⟨⟨fun hkeeps => ?_, fun hnone => absurd h hnone⟩, fun _ => ?_⟩
    · have hlonger := hclass.symm.trans hkeeps.ontologyClass
      exact absurd hlonger (by simp)
    · refine decide_eq_false fun haccount => ?_
      exact hash_not_mem_of_accountOntologyClass (haccount.symm.trans hclass) url.2
  · have hclass := getOntologyClass_of_not_mem url h
    have haccount : AccountSystemOntologyTypes.isAccountOntologyClass (subjectOf url id) = true ↔
        url.1 = AccountSystemOntologyTypes.accountOntologyClass := by
      rw [AccountSystemOntologyTypes.isAccountOntologyClass, hclass, decide_eq_true_iff]
    refine ⟨⟨fun _ => h, fun _ => ⟨hclass, haccount⟩⟩, fun hother => ?_⟩
    rw [← Bool.not_eq_true, haccount]
    exact hother

def accountUrl : ModelUrl := ⟨AccountSystemOntologyTypes.accountOntologyClass, by decide⟩

/-- The account `a/b` escapes its class. -/
theorem slash_escapes_account_class :
    AccountSystemOntologyTypes.isAccountOntologyClass (subjectOf accountUrl (text "a/b")) =
        false ∧
      ¬KeepsClass accountUrl (text "a/b") := by
  have hescapes : AccountSystemOntologyTypes.isAccountOntologyClass
      (subjectOf accountUrl (text "a/b")) = false := by decide +kernel
  refine ⟨hescapes, fun hkeeps => ?_⟩
  rw [hkeeps.account.mpr rfl] at hescapes
  cases hescapes

end RDFURLUtils

end Keto.Wavm
