import Keto.Library.SparqlTokens

/-!
SPARQL queries `SELECT … WHERE { … }` over one basic graph pattern: how they are read
from a text, and their rows over a graph. Queries of other forms, and prefixed names,
are not read.
-/
namespace Keto.Library.Sparql

inductive LiteralKind
  | plain
  | language (tag : List UInt8)
  | datatype (iri : List UInt8)
  deriving DecidableEq, Repr

inductive Node
  | iri (iri : List UInt8)
  | literal (value : List UInt8) (kind : LiteralKind)
  deriving DecidableEq, Repr

structure Triple where
  subject : Node
  predicate : Node
  object : Node
  deriving DecidableEq, Repr

inductive Term
  | var (name : List UInt8)
  | node (node : Node)
  deriving DecidableEq, Repr

structure TriplePattern where
  subject : Term
  predicate : Term
  object : Term
  deriving DecidableEq, Repr

structure Select where
  selected : List (List UInt8)
  patterns : List TriplePattern
  deriving DecidableEq, Repr

/-- A term with all its tokens, or a token that belongs to none. -/
inductive Item
  | term (term : Term)
  | word (name : List UInt8)
  | dot
  | semicolon
  | comma
  | opening
  | closing
  deriving DecidableEq, Repr

def items : List Token → Option (List Item)
  | [] => some []
  | .string value :: .carets :: .iri iri :: rest =>
    (items rest).map (.term (.node (.literal value (.datatype iri))) :: ·)
  | .string value :: .langTag tag :: rest =>
    (items rest).map (.term (.node (.literal value (.language tag))) :: ·)
  | .string value :: rest => (items rest).map (.term (.node (.literal value .plain)) :: ·)
  | .var name :: rest => (items rest).map (.term (.var name) :: ·)
  | .iri iri :: rest => (items rest).map (.term (.node (.iri iri)) :: ·)
  | .word name :: rest => (items rest).map (.word name :: ·)
  | .dot :: rest => (items rest).map (.dot :: ·)
  | .semicolon :: rest => (items rest).map (.semicolon :: ·)
  | .comma :: rest => (items rest).map (.comma :: ·)
  | .opening :: rest => (items rest).map (.opening :: ·)
  | .closing :: rest => (items rest).map (.closing :: ·)
  | .langTag _ :: _ => none
  | .carets :: _ => none

/-- The patterns up to the closing brace, with the terms of one that is not complete. -/
def patternsFrom : List Term → List Item → Option (List TriplePattern)
  | [], [.closing] => some []
  | [subject, predicate, object], [.closing] => some [⟨subject, predicate, object⟩]
  | [subject, predicate, object], .dot :: rest =>
    (patternsFrom [] rest).map (⟨subject, predicate, object⟩ :: ·)
  | [subject, predicate, object], .semicolon :: rest =>
    (patternsFrom [subject] rest).map (⟨subject, predicate, object⟩ :: ·)
  | [subject, predicate, object], .comma :: rest =>
    (patternsFrom [subject, predicate] rest).map (⟨subject, predicate, object⟩ :: ·)
  | [], .term term :: rest => patternsFrom [term] rest
  | [subject], .term term :: rest => patternsFrom [subject, term] rest
  | [subject, predicate], .term term :: rest => patternsFrom [subject, predicate, term] rest
  | _, _ => none

def isKeyword (keyword : String) (name : List UInt8) : Bool :=
  name.map (fun c => if 0x61 ≤ c && c ≤ 0x7a then c - 0x20 else c) = ascii keyword

def selectFrom (selected : List (List UInt8)) : List Item → Option Select
  | .term (.var name) :: rest => selectFrom (selected ++ [name]) rest
  | .word name :: .opening :: rest =>
    if isKeyword "WHERE" name then (patternsFrom [] rest).map (⟨selected, ·⟩) else none
  | .opening :: rest => (patternsFrom [] rest).map (⟨selected, ·⟩)
  | _ => none

def select : List Item → Option Select
  | .word name :: .term (.var first) :: rest =>
    if isKeyword "SELECT" name then selectFrom [first] rest else none
  | _ => none

def parse (text : List UInt8) : Option Select := do
  let tokens ← tokens text
  let items ← items tokens
  select items

example : parse (ascii "select ?s where \x7b ?s <p> 'a'@en, ?o . \x7d") =
    some ⟨[ascii "s"],
      [⟨.var (ascii "s"), .node (.iri (ascii "p")),
        .node (.literal (ascii "a") (.language (ascii "en")))⟩,
      ⟨.var (ascii "s"), .node (.iri (ascii "p")), .var (ascii "o")⟩]⟩ := by decide +kernel

section Rows

abbrev Solution := List (List UInt8 × Node)

/-- The solution with the term standing for the node. -/
def Term.bind (solution : Solution) (node : Node) : Term → Option Solution
  | .node node' => if node' = node then some solution else none
  | .var name =>
    match solution.lookup name with
    | some bound => if bound = node then some solution else none
    | none => some (solution ++ [(name, node)])

def TriplePattern.bind (pattern : TriplePattern) (solution : Solution) (triple : Triple) :
    Option Solution := do
  let solution ← pattern.subject.bind solution triple.subject
  let solution ← pattern.predicate.bind solution triple.predicate
  pattern.object.bind solution triple.object

/-- The solutions of a basic graph pattern that extend one. -/
def extensions (graph : List Triple) : List TriplePattern → Solution → List Solution
  | [], solution => [solution]
  | pattern :: patterns, solution =>
    (graph.filterMap (pattern.bind solution)).flatMap (extensions graph patterns)

abbrev Row := List (List UInt8 × Option Node)

def Select.rows (query : Select) (graph : List Triple) : List Row :=
  (extensions graph query.patterns []).map fun solution =>
    query.selected.map fun name => (name, solution.lookup name)

end Rows

section Reading

theorem patternsFrom_head {subject predicate object : Term} {rest : List Item}
    {first : TriplePattern} {patterns : List TriplePattern}
    (h : patternsFrom [subject, predicate, object] rest = some (first :: patterns)) :
    first = ⟨subject, predicate, object⟩ := by
  cases rest with
  | nil => cases h
  | cons item rest =>
    cases item with
    | closing =>
      cases rest with
      | nil =>
        cases h
        rfl
      | cons other rest => cases h
    | dot =>
      obtain ⟨others, _, heq⟩ := Option.map_eq_some_iff.mp h
      exact (List.cons.inj heq).1.symm
    | semicolon =>
      obtain ⟨others, _, heq⟩ := Option.map_eq_some_iff.mp h
      exact (List.cons.inj heq).1.symm
    | comma =>
      obtain ⟨others, _, heq⟩ := Option.map_eq_some_iff.mp h
      exact (List.cons.inj heq).1.symm
    | term term => cases h
    | word name => cases h
    | opening => cases h

/-- The object of a pattern is the term after its subject and predicate. -/
theorem object_of_patternsFrom {subject predicate : Term} {rest : List Item}
    {first : TriplePattern} {patterns : List TriplePattern}
    (h : patternsFrom [subject, predicate] rest = some (first :: patterns)) :
    ∃ more, rest = .term first.object :: more := by
  cases rest with
  | nil => cases h
  | cons item rest =>
    cases item with
    | term term =>
      rw [patternsFrom_head h]
      exact ⟨rest, rfl⟩
    | _ => cases h

/-- A term that is a literal starts with its string. -/
theorem string_of_items {tokens : List Token} {value : List UInt8} {kind : LiteralKind}
    {more : List Item}
    (h : items tokens = some (.term (.node (.literal value kind)) :: more)) :
    ∃ rest, tokens = .string value :: rest := by
  unfold items at h
  split at h
  case h_2 | h_3 | h_4 =>
    obtain ⟨others, _, heq⟩ := Option.map_eq_some_iff.mp h
    cases heq
    exact ⟨_, rfl⟩
  case h_1 | h_13 | h_14 => cases h
  all_goals
    obtain ⟨others, _, heq⟩ := Option.map_eq_some_iff.mp h
    cases heq

end Reading

end Keto.Library.Sparql
