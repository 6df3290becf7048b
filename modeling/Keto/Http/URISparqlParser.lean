import Keto.Library.Search
import Keto.ServerCommon.URLUtils

/-!
The parsing of a query's target and body. The end of the query is a position in
the text and is taken for a number of characters; where the body carries the
query, its end is looked for in the target.
-/
namespace Keto.Http

open Protocol ServerCommon.URLUtils Library.FormEncoding Library.Search

/-- What the constructor throws: `std::out_of_range` of a target that is too
short, and the exception for a request without a query. -/
inductive SparqlFailure
  | outOfRange
  | invalidSparqlRequest
  deriving DecidableEq, Repr

structure SparqlRequest where
  accountHash : Bytes
  query : Bytes
  deriving DecidableEq, Repr

namespace URISparqlParser

def dataQuery : Bytes := text "/data/"

def queryParam : Bytes := text "query="

def slash : UInt8 := 0x2f

def questionMark : UInt8 := 0x3f

def ampersand : UInt8 := 0x26

def equalsSign : UInt8 := 0x3d

/-- The text behind the query's name; `substr` takes `queryEnd` characters of it. -/
def queryText (source : Bytes) (queryBegin : ℕ) (queryEnd : Option ℕ) : Bytes :=
  match queryEnd with
  | none => unescape (source.drop (queryBegin + queryParam.length))
  | some queryEnd =>
    unescape ((source.drop (queryBegin + queryParam.length)).take queryEnd)

/-- The query of the target behind the account hash, else that of the body. -/
def queryOf (subUri body : Bytes) : Except SparqlFailure Bytes :=
  match find queryParam subUri with
  | some queryBegin =>
    .ok (queryText subUri queryBegin (findFrom [ampersand] subUri queryBegin))
  | none =>
    match find queryParam body with
    -- the end is looked for in the target, not in the body
    | some queryBegin => .ok (queryText body queryBegin (findFrom [ampersand] subUri queryBegin))
    | none => .error .invalidSparqlRequest

/-- The constructor. A target without a slash is its own account hash and is
searched from its beginning, since the position of its slash is -1. -/
def parse (uri body : Bytes) : Except SparqlFailure SparqlRequest :=
  if uri.length < dataQuery.length then .error .outOfRange
  else
    let subUri := uri.drop dataQuery.length
    match find [slash] subUri with
    | some nextSlash =>
      (queryOf (subUri.drop (nextSlash + 1)) body).map fun query =>
        ⟨subUri.take nextSlash, query⟩
    | none => (queryOf subUri body).map fun query => ⟨subUri, query⟩

structure Parameter where
  name : Bytes
  value : Bytes
  encoding : Bytes
  encodes : FormEncodes value encoding
  name_ne : name ≠ text "query"
  plain_name : ampersand ∉ name ∧ equalsSign ∉ name
  plain_value : ampersand ∉ encoding

def Parameter.text (parameter : Parameter) : Bytes :=
  parameter.name ++ equalsSign :: parameter.encoding

def parameters (before : List Parameter) (encoding : Bytes) (behind : List Parameter) : Bytes :=
  joined ampersand
    (before.map Parameter.text ++ (queryParam ++ encoding) :: behind.map Parameter.text)

/-- Where a request has its parameters: in its target, with any body, or in its
body, behind a target with or without the question mark. -/
inductive Placement
  | inTarget (body : Bytes)
  | inBody (mark : Bool)

def Placement.subUri (parameters : Bytes) : Placement → Bytes
  | .inTarget _ => questionMark :: parameters
  | .inBody true => [questionMark]
  | .inBody false => []

def Placement.uri (placement : Placement) (accountHash parameters : Bytes) : Bytes :=
  dataQuery ++ (accountHash ++ slash :: placement.subUri parameters)

def Placement.body (parameters : Bytes) : Placement → Bytes
  | .inTarget body => body
  | .inBody _ => parameters

example : parse ((Placement.inTarget []).uri (text "AB") (text "query=a%20b")) [] =
    .ok ⟨text "AB", text "a b"⟩ := by decide +kernel

theorem parse_uri (placement : Placement) {accountHash : Bytes} (parameters body : Bytes)
    (h : slash ∉ accountHash) :
    parse (placement.uri accountHash parameters) body =
      (queryOf (placement.subUri parameters) body).map fun query => ⟨accountHash, query⟩ := by
  have hlength : ¬(placement.uri accountHash parameters).length < dataQuery.length := by
    rw [Placement.uri, List.length_append]
    omega
  have hdrop : (placement.uri accountHash parameters).drop dataQuery.length =
      accountHash ++ slash :: placement.subUri parameters := List.drop_left
  have hbehind : (accountHash ++ slash :: placement.subUri parameters).drop
      (accountHash.length + 1) = placement.subUri parameters := by
    rw [← List.drop_drop, List.drop_left]
    rfl
  rw [parse, if_neg hlength, hdrop]
  simp only [find_singleton h, hbehind, List.take_left]

/-- The end of the query, counted from the beginning of the text. -/
theorem findFrom_ampersand {source value behind : Bytes} {i : ℕ}
    (hfind : find queryParam source = some i) (hvalue : ampersand ∉ value)
    (hdrop : source.drop (i + queryParam.length) = value ++ ampersand :: behind) :
    findFrom [ampersand] source i = some (queryParam.length + value.length + i) := by
  have hplain : ampersand ∉ queryParam ++ value :=
    List.not_mem_append (by decide) hvalue
  rw [findFrom, drop_of_find hfind, hdrop, ← List.append_assoc, find_singleton hplain]
  simp

theorem findFrom_ampersand_none {source : Bytes} {i : ℕ}
    (hfind : find queryParam source = some i)
    (h : ampersand ∉ source.drop (i + queryParam.length)) :
    findFrom [ampersand] source i = none := by
  rw [findFrom, drop_of_find hfind, find_singleton_none (List.not_mem_append (by decide) h)]
  rfl

theorem find_questionMark (parameters : Bytes) :
    find queryParam (questionMark :: parameters) = (find queryParam parameters).map (· + 1) := by
  have hpattern : ¬queryParam <+: questionMark :: parameters := by
    intro hstarts
    obtain ⟨hquestion, -⟩ := List.cons_prefix_cons.mp hstarts
    cases hquestion
  rw [find, if_neg hpattern]

/-- The end of the query as it is found: the question mark counts in the target,
and there is none to be found for the body. -/
def Placement.queryEnd (parameters : Bytes) (queryBegin : ℕ) : Placement → Option ℕ
  | .inTarget _ => (findFrom [ampersand] parameters queryBegin).map (· + 1)
  | .inBody _ => none

/-- Only the end of the query depends on where the parameters are. -/
theorem queryOf_placement (placement : Placement) {parameters : Bytes} {i : ℕ}
    (hfind : find queryParam parameters = some i) :
    queryOf (placement.subUri parameters) (placement.body parameters) =
      .ok (queryText parameters i (placement.queryEnd parameters i)) := by
  cases placement with
  | inTarget body =>
    have htarget : find queryParam (questionMark :: parameters) = some (i + 1) := by
      rw [find_questionMark, hfind]
      rfl
    have hend : findFrom [ampersand] (questionMark :: parameters) (i + 1) =
        (findFrom [ampersand] parameters i).map (· + 1) := by
      rw [findFrom, findFrom, List.drop_succ_cons, Option.map_map]
      rfl
    have hdrop : (questionMark :: parameters).drop (i + 1 + queryParam.length) =
        parameters.drop (i + queryParam.length) := by
      rw [Nat.add_right_comm, List.drop_succ_cons]
    rw [queryOf, Placement.subUri, htarget, Placement.queryEnd]
    simp only [hend, queryText, hdrop]
  | inBody mark =>
    have hmark : find queryParam ((Placement.inBody mark).subUri parameters) = none := by
      cases mark with
      | true => exact (by decide : find queryParam [questionMark] = none)
      | false => rfl
    have hplain : ampersand ∉ (Placement.inBody mark).subUri parameters := by
      cases mark with
      | true => exact (by decide : ampersand ∉ [questionMark])
      | false => exact List.not_mem_nil
    have hend : findFrom [ampersand] ((Placement.inBody mark).subUri parameters) i = none := by
      rw [findFrom, find_singleton_none fun hmem => hplain (List.mem_of_mem_drop hmem)]
      rfl
    rw [queryOf, hmark]
    simp only [Placement.body, hfind, hend, Placement.queryEnd]

/-- What is read of a query that no other parameter follows. -/
theorem queryOf_last (placement : Placement) {parameters : Bytes} {i : ℕ}
    (hfind : find queryParam parameters = some i)
    (hlast : ampersand ∉ parameters.drop (i + queryParam.length)) :
    queryOf (placement.subUri parameters) (placement.body parameters) =
      .ok (unescape (parameters.drop (i + queryParam.length))) := by
  have hend : placement.queryEnd parameters i = none := by
    cases placement with
    | inTarget body => rw [Placement.queryEnd, findFrom_ampersand_none hfind hlast]; rfl
    | inBody mark => rfl
  rw [queryOf_placement placement hfind, hend, queryText]

/-- A query that another parameter follows is read with the separator behind it. -/
theorem queryOf_followed (placement : Placement) {parameters value behind : Bytes} {i : ℕ}
    (hfind : find queryParam parameters = some i) (hvalue : ampersand ∉ value)
    (hdrop : parameters.drop (i + queryParam.length) = value ++ ampersand :: behind) :
    ∃ more, queryOf (placement.subUri parameters) (placement.body parameters) =
      .ok (unescape (value ++ ampersand :: more)) := by
  rw [queryOf_placement placement hfind]
  cases placement with
  | inTarget body =>
    have htake : queryParam.length + value.length + i + 1 =
        value.length + (queryParam.length + i + 1) := by omega
    rw [Placement.queryEnd, findFrom_ampersand hfind hvalue hdrop]
    simp only [Option.map_some, queryText, hdrop, htake, List.take_length_add_append,
      List.take_succ_cons]
    exact ⟨_, rfl⟩
  | inBody mark =>
    refine ⟨behind, ?_⟩
    rw [Placement.queryEnd, queryText, hdrop]

def NoneBefore (before : List Parameter) : Prop :=
  ∀ parameter ∈ before, ¬queryParam <:+: parameter.text

def leading (before : List Parameter) : Bytes :=
  before.flatMap fun parameter => parameter.text ++ [ampersand]

theorem parameters_eq (before : List Parameter) (encoding : Bytes) (behind : List Parameter) :
    parameters before encoding behind =
      leading before ++ queryParam ++ (encoding ++ behind.flatMap (ampersand :: ·.text)) := by
  rw [parameters, joined_append, leading]
  simp only [List.flatMap_map, List.append_assoc]

/-- Without the name in an earlier parameter the query is found where it is. -/
theorem find_parameters {before : List Parameter} (h : NoneBefore before) (rest : Bytes) :
    find queryParam (leading before ++ queryParam ++ rest) = some (leading before).length := by
  induction before with
  | nil => exact find_prefix queryParam rest
  | cons parameter before ih =>
    have hrest := ih fun other hother => h other (List.mem_cons_of_mem _ hother)
    rw [leading, List.flatMap_cons, ← leading]
    rw [List.append_assoc, List.append_assoc, List.append_assoc, List.singleton_append,
      ← List.append_assoc, find_segment _ (by decide) (by decide) (h parameter List.mem_cons_self),
      hrest]
    simp only [Option.map_some, List.length_append, List.length_singleton, Nat.add_comm]

theorem drop_parameters (before : List Parameter) (rest : Bytes) :
    (leading before ++ queryParam ++ rest).drop
      ((leading before).length + queryParam.length) = rest := by
  rw [← List.length_append, List.drop_left]

/-- Where no earlier parameter has the query's name in its text, the query is read
as it was sent exactly when no parameter follows it. -/
theorem parse_iff_last (placement : Placement) {before : List Parameter} (hbefore : NoneBefore before)
    (behind : List Parameter) {accountHash query encoding : Bytes} (hslash : slash ∉ accountHash)
    (hencodes : FormEncodes query encoding) (hplain : ampersand ∉ encoding) :
    parse (placement.uri accountHash (parameters before encoding behind))
        (placement.body (parameters before encoding behind)) = .ok ⟨accountHash, query⟩ ↔
      behind = [] := by
  rw [parse_uri placement _ _ hslash, parameters_eq]
  have hfind := find_parameters hbefore (encoding ++ behind.flatMap (ampersand :: ·.text))
  have hdrop := drop_parameters before (encoding ++ behind.flatMap (ampersand :: ·.text))
  cases behind with
  | nil =>
    rw [List.flatMap_nil, List.append_nil] at hfind hdrop ⊢
    rw [queryOf_last placement hfind (by rwa [hdrop]), hdrop, unescape_formEncodes hencodes]
    simp [Except.map]
  | cons next behind =>
    rw [List.flatMap_cons, List.cons_append] at hfind hdrop ⊢
    obtain ⟨more, hmore⟩ := queryOf_followed placement hfind hplain hdrop
    have hlonger : query ++ unescape (ampersand :: more) ≠ query := by
      rw [unescape_literal (by decide) (by decide)]
      simp
    rw [hmore, unescape_append hencodes]
    simp [Except.map, hlonger]

theorem exists_earlier_name {before : List Parameter} (h : ¬NoneBefore before) (rest : Bytes) :
    ∃ front rear, leading before ++ rest = front ++ queryParam ++ rear ∧ ampersand ∈ rear := by
  rw [NoneBefore] at h
  push Not at h
  obtain ⟨parameter, hmem, front, rear, htext⟩ := h
  obtain ⟨earlier, later, rfl⟩ := List.append_of_mem hmem
  refine ⟨leading earlier ++ front, rear ++ ampersand :: (leading later ++ rest), ?_,
    List.mem_append_right _ List.mem_cons_self⟩
  rw [leading, List.flatMap_append, List.flatMap_cons, ← leading, ← leading, ← htext]
  simp only [List.append_assoc, List.cons_append, List.nil_append]

/-- A name that an earlier parameter has in its text is taken for the query's, and
the separator behind it for a part of the query. -/
theorem empty_query_lost (placement : Placement) {before : List Parameter}
    (hbefore : ¬NoneBefore before) (behind : List Parameter) :
    parse (placement.uri [] (parameters before [] behind))
      (placement.body (parameters before [] behind)) ≠ .ok ⟨[], []⟩ := by
  rw [parse_uri placement _ _ List.not_mem_nil]
  obtain ⟨front, rear, hsplit, hrear⟩ := exists_earlier_name hbefore
    (queryParam ++ ([] ++ behind.flatMap (ampersand :: ·.text)))
  have hparameters : parameters before [] behind = front ++ queryParam ++ rear := by
    rw [parameters_eq, List.append_assoc, hsplit]
  obtain ⟨i, hfind, hle⟩ := find_le queryParam front rear
  rw [← hparameters] at hfind
  have hrest : ampersand ∈ (parameters before [] behind).drop (i + queryParam.length) := by
    have hlater : front.length + queryParam.length =
        i + queryParam.length + (front.length - i) := by omega
    apply List.mem_of_mem_drop (i := front.length - i)
    rw [List.drop_drop, ← hlater, hparameters, ← List.length_append, List.drop_left]
    exact hrear
  obtain ⟨value, others, hdrop, hvalue⟩ := List.eq_append_cons_of_mem hrest
  obtain ⟨more, hmore⟩ := queryOf_followed placement hfind hvalue hdrop
  have hread : unescape (value ++ ampersand :: more) ≠ [] := by
    rw [Ne, unescape_eq_nil_iff]
    rintro (hnil | hpercent)
    · simp at hnil
    · have hmem : ampersand ∈ [percent] := hpercent ▸ List.mem_append_right _ List.mem_cons_self
      exact absurd hmem (by decide)
  rw [hmore]
  simp [Except.map, hread]

/-- The account hash and the query come out of every request with these parameters. -/
def ReadsEveryQuery (placement : Placement) (before behind : List Parameter) : Prop :=
  ∀ accountHash query encoding, slash ∉ accountHash → FormEncodes query encoding →
    ampersand ∉ encoding →
    parse (placement.uri accountHash (parameters before encoding behind))
      (placement.body (parameters before encoding behind)) = .ok ⟨accountHash, query⟩

/-- Every query is read as it was sent exactly when its parameter is the last one
and no earlier one has the query's name in its text. -/
theorem readsEveryQuery_iff (placement : Placement) (before behind : List Parameter) :
    ReadsEveryQuery placement before behind ↔ behind = [] ∧ NoneBefore before := by
  constructor
  · intro h
    have hempty := h [] [] [] List.not_mem_nil .nil List.not_mem_nil
    have hbefore : NoneBefore before := by
      by_contra hbefore
      exact empty_query_lost placement hbefore behind hempty
    exact ⟨(parse_iff_last placement hbefore behind List.not_mem_nil .nil
      List.not_mem_nil).mp hempty, hbefore⟩
  · intro ⟨hlast, hbefore⟩ accountHash query encoding hslash hencodes hplain
    exact (parse_iff_last placement hbefore behind hslash hencodes hplain).mpr hlast

def otherParameter : Parameter where
  name := text "a"
  value := text "1"
  encoding := text "1"
  encodes := .literal (by decide) (by decide) .nil
  name_ne := by decide
  plain_name := by decide
  plain_value := by decide

/-- Of the target `/data/AB/?query=x&a=1` the query is `x&a=1`. -/
theorem following_parameter_read :
    parse (text "/data/AB/?query=x&a=1") [] = .ok ⟨text "AB", text "x&a=1"⟩ ∧
      ¬ReadsEveryQuery (.inTarget []) [] [otherParameter] := by
  have hparse : parse (text "/data/AB/?query=x&a=1") [] = .ok ⟨text "AB", text "x&a=1"⟩ := by
    decide +kernel
  have huri : (Placement.inTarget []).uri (text "AB") (parameters [] (text "x") [otherParameter]) =
      text "/data/AB/?query=x&a=1" := by decide +kernel
  refine ⟨hparse, fun hreads => ?_⟩
  have hread := hreads (text "AB") (text "x") (text "x") (by decide)
    (.literal (by decide) (by decide) .nil) (by decide)
  rw [huri] at hread
  exact absurd (hparse.symm.trans hread) (by decide)

end URISparqlParser

end Keto.Http
