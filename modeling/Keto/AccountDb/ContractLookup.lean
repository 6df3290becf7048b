import Keto.AccountDb.StoreSteps
import Keto.Library.SparqlQueries

/-!
The lookup of a contract by its name or by the hash of its account. The name is put
into the text of a query as it is: a quote ends the literal there, a backslash starts an
escape, a line end is not allowed, and the text is handed over as a C string. The query
engine is a parameter; on the texts of queries over a basic graph pattern it gives the
rows of the query over the statements of the graph, in any order.
-/
namespace Keto.AccountDb.ContractLookup

open Protocol Library Library.Fallible Library.Stateful Library.Sparql AccountStore

structure ContractMessage where
  accountHash : Bytes
  contractName : Bytes
  contract : Bytes
  deriving DecidableEq, Repr

/-- `nullLiteral` is no exception of the source: a string is made from the null pointer
that the library returns for the value of a node that is no literal. -/
inductive ContractFailure
  | graphSession (failure : AccountDbFailure)
  | unknownContract
  | nullLiteral
  deriving DecidableEq, Repr

/-- The statements of a graph, and `librdf_model_query_execute`. -/
structure QueryEngine (Graph : Type) where
  statements : Graph → List Statement
  execute : Graph → Bytes → Option (List Row)

def node : AccountDb.Node → Sparql.Node
  | .uri uri => .iri uri
  | .typedLiteral value dataType => .literal value (.datatype dataType)

def triple (statement : Statement) : Triple :=
  ⟨.iri statement.subject, .iri statement.predicate, node statement.object⟩

variable {Graph : Type}

structure QueryEngine.Follows (engine : QueryEngine Graph) : Prop where
  rows : ∀ graph text query, parse text = some query →
    ∃ rows, engine.execute graph text = some rows ∧
      rows.Perm (query.rows ((engine.statements graph).map triple))

def nameIri : Bytes := text "http://keto-coin.io/schema/rdf/1.0/keto/Contract#name"

def hashIri : Bytes := text "http://keto-coin.io/schema/rdf/1.0/keto/Contract#hash"

def valueIri : Bytes := text "http://keto-coin.io/schema/rdf/1.0/keto/Contract#value"

def stringIri : Bytes := text "http://www.w3.org/2001/XMLSchema#string"

def queryText (iri identifier : Bytes) : Bytes :=
  text "SELECT ?code WHERE \x7b ?contract <" ++ iri ++ text "> '" ++
    identifier ++ text "'^^<" ++ stringIri ++ text "> . " ++
    text "?contract <" ++ valueIri ++ text "> ?code . \x7d "

/-- The property that a contract is looked up by, and the value given for it. -/
def identified (contractMessage : ContractMessage) : Bytes × Bytes :=
  if contractMessage.contractName ≠ [] then (nameIri, contractMessage.contractName)
  else (hashIri, contractMessage.accountHash)

def query (contractMessage : ContractMessage) : Bytes :=
  queryText (identified contractMessage).1 (identified contractMessage).2

def literalValue : Option Sparql.Node → Except ContractFailure Bytes
  | some (.literal value _) => .ok value
  | _ => .error .nullLiteral

def resultMap (row : Row) : Except ContractFailure (List (Bytes × Bytes)) :=
  row.mapM fun binding => do
    let value ← literalValue binding.2
    return (binding.1, value)

/-- `AccountGraphSession::executeQuery`: a query that is not executed has no rows. -/
def executeQuery (engine : QueryEngine Graph) (graph : Graph) (queryStr : Bytes) :
    Except ContractFailure (List (List (Bytes × Bytes))) :=
  match engine.execute graph (cString queryStr) with
  | none => .ok []
  | some rows => rows.mapM resultMap

def graphSession (librdf : Librdf Graph) (name : Bytes) :
    EStateM ContractFailure (AccountStore Graph) AccountGraphStore := fun store =>
  match getGraphSession librdf name store with
  | .ok session store' => .ok session store'
  | .error failure store' => .error (.graphSession failure) store'

def getContract (engine : QueryEngine Graph) (librdf : Librdf Graph) (accountInfo : AccountInfo)
    (contractMessage : ContractMessage) :
    EStateM ContractFailure (AccountStore Graph) ContractMessage := do
  let session ← graphSession librdf accountInfo.graphName
  let store ← get
  let result ← fromExcept
    (executeQuery engine (contents librdf store session.dbName) (query contractMessage))
  match result with
  | [row] => return { contractMessage with contract := (row.lookup (text "code")).getD [] }
  | _ => throw .unknownContract

/-- The query that is meant: the code of the contract with the value. -/
def template (iri identifier : Bytes) : Select where
  selected := [text "code"]
  patterns := [
    ⟨.var (text "contract"), .node (.iri iri), .node (.literal identifier (.datatype stringIri))⟩,
    ⟨.var (text "contract"), .node (.iri valueIri), .var (text "code")⟩]

def codes (statements : List Statement) (iri identifier : Bytes) : List AccountDb.Node :=
  (statements.filter fun named =>
    named.predicate = iri ∧ named.object = .typedLiteral identifier stringIri).flatMap fun named =>
      (statements.filter fun statement =>
        statement.subject = named.subject ∧ statement.predicate = valueIri).map Statement.object

def lookup (statements : List Statement) (contractMessage : ContractMessage) :
    Except ContractFailure ContractMessage :=
  match codes statements (identified contractMessage).1 (identified contractMessage).2 with
  | [.typedLiteral code _] => .ok { contractMessage with contract := code }
  | _ => .error .unknownContract

/-- What is looked up does not depend on the syntax of the name: the text is the query
that is meant, and what it finds in the graph of the account is what was looked for. -/
def FindsContract (engine : QueryEngine Graph) (librdf : Librdf Graph) (accountInfo : AccountInfo)
    (contractMessage : ContractMessage) (store : AccountStore Graph) : Prop :=
  parse (cString (query contractMessage)) =
      some (template (identified contractMessage).1 (identified contractMessage).2) ∧
  ∀ session store', getGraphSession librdf accountInfo.graphName store = .ok session store' →
    getContract engine librdf accountInfo contractMessage store =
      fromExcept (lookup (engine.statements (contents librdf store' session.dbName))
        contractMessage) store'

section Text

variable {iri identifier : Bytes}

/-- What may stand in a literal of the query for itself. -/
def isPlainName (c : UInt8) : Bool := c != 0 && isPlain singleQuote c

def queryHead (iri : Bytes) : Bytes :=
  text "SELECT ?code WHERE \x7b ?contract <" ++ iri ++ text "> '"

def queryRest : Bytes :=
  text "^^<" ++ stringIri ++ text "> . ?contract <" ++ valueIri ++ text "> ?code . \x7d "

theorem queryText_eq (iri identifier : Bytes) :
    queryText iri identifier = queryHead iri ++ (identifier ++ singleQuote :: queryRest) := by
  have hquote : text "'^^<" = singleQuote :: text "^^<" := rfl
  have hdot : text "> . ?contract <" = text "> . " ++ text "?contract <" := rfl
  simp only [queryText, queryHead, queryRest, hquote, hdot, List.append_assoc, List.cons_append]

def headTokens (iri : Bytes) : List Token :=
  [.word (text "SELECT"), .var (text "code"), .word (text "WHERE"), .opening,
    .var (text "contract"), .iri iri]

def restTokens : List Token :=
  [.carets, .iri stringIri, .dot, .var (text "contract"), .iri valueIri, .var (text "code"), .dot,
    .closing]

theorem run_queryHead (h : iri = nameIri ∨ iri = hashIri) :
    run .between (queryHead iri) = some (headTokens iri, .quotes singleQuote false) := by
  rcases h with rfl | rfl
  · decide +kernel
  · decide +kernel

theorem tokensFrom_queryRest : tokensFrom .between queryRest = some restTokens := by
  decide +kernel

theorem zero_not_mem_queryHead (h : iri = nameIri ∨ iri = hashIri) : 0 ∉ queryHead iri := by
  rcases h with rfl | rfl
  · decide +kernel
  · decide +kernel

theorem zero_not_mem_queryText (h : iri = nameIri ∨ iri = hashIri) (hzero : 0 ∉ identifier) :
    0 ∉ queryText iri identifier := by
  have hrest : 0 ∉ singleQuote :: queryRest := by decide +kernel
  rw [queryText_eq]
  simp only [List.mem_append, not_or]
  exact ⟨zero_not_mem_queryHead h, hzero, hrest⟩

/-- The query is read token by token, the literal first that the identifier starts. -/
theorem parse_queryHead (h : iri = nameIri ∨ iri = hashIri) (rest : Bytes) :
    parse (queryHead iri ++ rest) = (tokensFrom (.quotes singleQuote false) rest).bind fun more =>
      (items (headTokens iri ++ more)).bind select := by
  have htokens : tokens (queryHead iri ++ rest) =
      (tokensFrom (.quotes singleQuote false) rest).map (headTokens iri ++ ·) :=
    tokensFrom_append (run_queryHead h) rest
  cases hmore : tokensFrom (.quotes singleQuote false) rest with
  | none => simp [parse, htokens, hmore]
  | some more => simp [parse, htokens, hmore]

theorem items_headTokens (more : List Token) :
    items (headTokens iri ++ more) = (items more).map
      ([.word (text "SELECT"), .term (.var (text "code")), .word (text "WHERE"), .opening,
        .term (.var (text "contract")), .term (.node (.iri iri))] ++ ·) := by
  simp only [headTokens, List.cons_append, List.nil_append, items, Option.map_map]
  rfl

/-- A text that is the query that is meant starts with the literal of the identifier. -/
theorem literal_of_parse (h : iri = nameIri ∨ iri = hashIri) {rest : Bytes}
    (hparse : parse (queryHead iri ++ rest) = some (template iri identifier)) :
    ∃ more, tokensFrom (.quotes singleQuote false) rest = some (.string identifier :: more) := by
  rw [parse_queryHead h] at hparse
  obtain ⟨tokens, htokens, hparse⟩ := Option.bind_eq_some_iff.mp hparse
  rw [items_headTokens] at hparse
  obtain ⟨read, hread, hparse⟩ := Option.bind_eq_some_iff.mp hparse
  obtain ⟨more, hmore, rfl⟩ := Option.map_eq_some_iff.mp hread
  have hselect : select ([.word (text "SELECT"), .term (.var (text "code")),
      .word (text "WHERE"), .opening, .term (.var (text "contract")),
      .term (.node (.iri iri))] ++ more) =
      (patternsFrom [.var (text "contract"), .node (.iri iri)] more).map
        (⟨[text "code"], ·⟩) := rfl
  rw [hselect] at hparse
  obtain ⟨patterns, hpatterns, heq⟩ := Option.map_eq_some_iff.mp hparse
  obtain rfl := congrArg Select.patterns heq
  obtain ⟨behind, rfl⟩ := object_of_patternsFrom hpatterns
  obtain ⟨others, rfl⟩ := string_of_items hmore
  exact ⟨others, htokens⟩

/-- With a zero byte in the identifier its literal is not read to the end. -/
theorem zero_not_mem_of_parse (h : iri = nameIri ∨ iri = hashIri)
    (hparse : parse (cString (queryText iri identifier)) = some (template iri identifier)) :
    0 ∉ identifier := by
  intro hzero
  have hcut : cString (queryText iri identifier) = queryHead iri ++ cString identifier := by
    rw [queryText_eq, cString_append, if_neg (zero_not_mem_queryHead h), cString_append,
      if_pos hzero]
  rw [hcut] at hparse
  obtain ⟨more, htokens⟩ := literal_of_parse h hparse
  have hin : InLiteral singleQuote (.quotes singleQuote false) := rfl
  rcases literal_length hin htokens with rfl | ⟨before, behind, hsplit, hlength⟩
  · exact List.not_mem_nil hzero
  · have hshort : (cString identifier).length ≤ identifier.length :=
      (List.takeWhile_prefix _).length_le
    rw [hsplit, List.length_append, List.length_cons] at hshort
    simp only [weight] at hlength
    omega

/-- The text is the query that is meant exactly for a plain identifier. -/
theorem parse_queryText_iff (h : iri = nameIri ∨ iri = hashIri) :
    parse (cString (queryText iri identifier)) = some (template iri identifier) ↔
      ∀ c ∈ identifier, isPlainName c = true := by
  have hread : 0 ∉ identifier → cString (queryText iri identifier) =
      queryHead iri ++ (identifier ++ singleQuote :: queryRest) := by
    intro hzero
    rw [← queryText_eq, cString_eq_self_iff]
    exact zero_not_mem_queryText h hzero
  constructor
  · intro hparse c hc
    have hzero := zero_not_mem_of_parse h hparse
    rw [hread hzero] at hparse
    obtain ⟨more, htokens⟩ := literal_of_parse h hparse
    have hplain := plain_of_quotes (by decide +kernel : singleQuote ∉ queryRest) htokens c hc
    rw [isPlainName, hplain, Bool.and_true, bne_iff_ne]
    exact fun hnull => hzero (hnull ▸ hc)
  · intro hplain
    simp only [isPlainName, Bool.and_eq_true, bne_iff_ne] at hplain
    rw [hread fun hzero => (hplain 0 hzero).1 rfl, parse_queryHead h,
      tokensFrom_quotes_plain (fun c hc => (hplain c hc).2) (by decide +kernel),
      tokensFrom_queryRest]
    rfl

end Text

section Rows

def isLiteral : AccountDb.Node → Bool
  | .uri _ => false
  | .typedLiteral _ _ => true

def codeRow (code : AccountDb.Node) : Row := [(text "code", some (node code))]

theorem node_eq_literal_iff {object : AccountDb.Node} {value dataType : Bytes} :
    .literal value (.datatype dataType) = node object ↔ object = .typedLiteral value dataType := by
  cases object with
  | uri uri => simp [node]
  | typedLiteral value' dataType' => simp [node, eq_comm]

theorem filterMap_ite {α β : Type} (p : α → Bool) (f : α → β) (as : List α) :
    (as.filterMap fun a => if p a then some (f a) else none) = (as.filter p).map f := by
  induction as with
  | nil => rfl
  | cons a as ih =>
    cases h : p a with
    | true => simp [h, ih]
    | false => simp [h, ih]

/-- The first pattern finds the contracts with the value. -/
theorem bind_named (iri identifier : Bytes) (named : Statement) :
    TriplePattern.bind ⟨.var (text "contract"), .node (.iri iri),
        .node (.literal identifier (.datatype stringIri))⟩ [] (triple named) =
      if named.predicate = iri ∧ named.object = .typedLiteral identifier stringIri then
        some [(text "contract", .iri named.subject)]
      else none := by
  by_cases hpredicate : named.predicate = iri
  · by_cases hobject : named.object = .typedLiteral identifier stringIri
    · simp [TriplePattern.bind, Term.bind, triple, hpredicate, hobject, node]
    · simp [TriplePattern.bind, Term.bind, triple, hpredicate, hobject, node_eq_literal_iff]
  · simp [TriplePattern.bind, Term.bind, triple, hpredicate, Ne.symm hpredicate]

/-- The second pattern finds the codes of a contract. -/
theorem bind_code (subject : Bytes) (statement : Statement) :
    TriplePattern.bind ⟨.var (text "contract"), .node (.iri valueIri), .var (text "code")⟩
        [(text "contract", .iri subject)] (triple statement) =
      if statement.subject = subject ∧ statement.predicate = valueIri then
        some [(text "contract", .iri subject), (text "code", node statement.object)]
      else none := by
  have hother : List.lookup (text "code") [(text "contract", Sparql.Node.iri subject)] = none := by
    rfl
  by_cases hsubject : statement.subject = subject
  · by_cases hpredicate : statement.predicate = valueIri
    · simp [TriplePattern.bind, Term.bind, triple, hsubject, hpredicate, hother]
    · simp [TriplePattern.bind, Term.bind, triple, hsubject, hpredicate, Ne.symm hpredicate]
  · simp [TriplePattern.bind, Term.bind, triple, hsubject, Ne.symm hsubject]

/-- The rows of the query that is meant are the codes of the contracts. -/
theorem rows_template (statements : List Statement) (iri identifier : Bytes) :
    (template iri identifier).rows (statements.map triple) =
      (codes statements iri identifier).map codeRow := by
  have hcodes : ∀ subject : Bytes,
      ((statements.map triple).filterMap (TriplePattern.bind
        ⟨.var (text "contract"), .node (.iri valueIri), .var (text "code")⟩
        [(text "contract", .iri subject)])).flatMap (extensions (statements.map triple) []) =
      (statements.filter fun statement =>
        statement.subject = subject ∧ statement.predicate = valueIri).map fun statement =>
          [(text "contract", .iri subject), (text "code", node statement.object)] := by
    intro subject
    rw [← filterMap_ite, List.filterMap_map]
    refine (List.flatMap_singleton' _).trans (List.filterMap_congr fun statement _ => ?_)
    simpa using bind_code subject statement
  have hnamed : (statements.map triple).filterMap (TriplePattern.bind
        ⟨.var (text "contract"), .node (.iri iri),
          .node (.literal identifier (.datatype stringIri))⟩ []) =
      (statements.filter fun named =>
        named.predicate = iri ∧ named.object = .typedLiteral identifier stringIri).map
          fun named => [(text "contract", .iri named.subject)] := by
    rw [← filterMap_ite, List.filterMap_map]
    refine List.filterMap_congr fun named _ => ?_
    simpa using bind_named iri identifier named
  rw [Select.rows, template, extensions, hnamed, List.flatMap_map, codes, List.map_flatMap,
    List.map_flatMap]
  congr 1
  funext named
  rw [extensions, hcodes, List.map_map, List.map_map]
  rfl

variable {engine : QueryEngine Graph} {graph : Graph} {iri identifier : Bytes}

/-- The query that is meant gives a row for each code. -/
theorem executeQuery_template (hengine : engine.Follows) (graph : Graph)
    (hparse : parse (cString (queryText iri identifier)) = some (template iri identifier)) :
    ∃ rows : List Row,
      executeQuery engine graph (queryText iri identifier) = rows.mapM resultMap ∧
      rows.Perm ((codes (engine.statements graph) iri identifier).map codeRow) := by
  obtain ⟨rows, hrows, hperm⟩ := hengine.rows graph _ _ hparse
  rw [rows_template] at hperm
  refine ⟨rows, ?_, hperm⟩
  rw [executeQuery, hrows]

def taken (contractMessage : ContractMessage) (result : List (List (Bytes × Bytes))) :
    Except ContractFailure ContractMessage :=
  match result with
  | [row] => .ok { contractMessage with contract := (row.lookup (text "code")).getD [] }
  | _ => .error .unknownContract

theorem taken_of_length {contractMessage : ContractMessage}
    {result : List (List (Bytes × Bytes))} (h : result.length ≠ 1) :
    taken contractMessage result = .error .unknownContract := by
  unfold taken
  split
  · exact absurd rfl h
  · rfl

theorem lookup_of_length {statements : List Statement} {contractMessage : ContractMessage}
    (h : (codes statements (identified contractMessage).1
      (identified contractMessage).2).length ≠ 1) :
    lookup statements contractMessage = .error .unknownContract := by
  unfold lookup
  split
  · rename_i hcodes
    rw [hcodes] at h
    exact absurd rfl h
  · rfl

theorem lookup_ne_nullLiteral (statements : List Statement) (contractMessage : ContractMessage) :
    lookup statements contractMessage ≠ .error .nullLiteral := by
  unfold lookup
  split
  · simp
  · simp

/-- The row of a literal gives its text, and that of a resource has no literal. -/
theorem resultMap_codeRow (code : AccountDb.Node) :
    resultMap (codeRow code) =
      match code with
      | .uri _ => .error .nullLiteral
      | .typedLiteral value _ => .ok [(text "code", value)] := by
  cases code with
  | uri uri => rfl
  | typedLiteral value dataType => rfl

section Taken

variable {found : List AccountDb.Node} {rows : List Row}

/-- Rows of literals are all read. -/
theorem mapM_rows_of_literals (hperm : rows.Perm (found.map codeRow))
    (hall : ∀ code ∈ found, isLiteral code = true) :
    ∃ result, rows.mapM resultMap = .ok result ∧ result.length = found.length := by
  have hreturns : ∀ row ∈ rows, (resultMap row).toBool = true := by
    intro row hrow
    obtain ⟨code, hcode, rfl⟩ := List.mem_map.mp (hperm.mem_iff.mp hrow)
    have hliteral := hall code hcode
    cases code with
    | uri uri => cases hliteral
    | typedLiteral value dataType => rw [resultMap_codeRow]; rfl
  obtain ⟨result, hresult, hlength⟩ := mapM_ok hreturns
  rw [hperm.length_eq, List.length_map] at hlength
  exact ⟨result, hresult, hlength⟩

/-- The row of a resource fails, wherever it is. -/
theorem mapM_rows_of_uri (hperm : rows.Perm (found.map codeRow)) {code : AccountDb.Node}
    (hcode : code ∈ found) (hnot : ¬ isLiteral code = true) :
    rows.mapM resultMap = .error .nullLiteral := by
  have hnull : resultMap (codeRow code) = .error .nullLiteral := by
    cases code with
    | uri uri => rw [resultMap_codeRow]
    | typedLiteral value dataType => exact absurd rfl hnot
  have hsame : ∀ row ∈ rows, ∀ failure, resultMap row = .error failure →
      failure = .nullLiteral := by
    intro row hmem failure hfailure
    obtain ⟨other, _, rfl⟩ := List.mem_map.mp (hperm.mem_iff.mp hmem)
    rw [resultMap_codeRow] at hfailure
    cases other with
    | uri uri => exact (Except.error.inj hfailure).symm
    | typedLiteral value dataType => cases hfailure
  exact mapM_error hsame (hperm.mem_iff.mpr (List.mem_map_of_mem hcode)) hnull

/-- The row of the only code is taken as the lookup takes the code. -/
theorem taken_row {contractMessage : ContractMessage} {statements : List Statement}
    {code : AccountDb.Node} (hliteral : isLiteral code = true)
    (hcodes : codes statements (identified contractMessage).1 (identified contractMessage).2 =
      [code]) :
    ([codeRow code].mapM resultMap >>= taken contractMessage) =
      lookup statements contractMessage := by
  rw [lookup, hcodes]
  cases code with
  | uri uri => cases hliteral
  | typedLiteral value dataType => rfl

end Taken

/-- One row for each code is taken as the lookup says when all codes are literals. -/
theorem taken_rows {contractMessage : ContractMessage} {statements : List Statement}
    {rows : List Row} (hperm : rows.Perm ((codes statements (identified contractMessage).1
      (identified contractMessage).2).map codeRow)) :
    (rows.mapM resultMap >>= taken contractMessage) = lookup statements contractMessage ↔
      ∀ code ∈ codes statements (identified contractMessage).1 (identified contractMessage).2,
        isLiteral code = true := by
  by_cases hall : ∀ code ∈ codes statements (identified contractMessage).1
      (identified contractMessage).2, isLiteral code = true
  · refine iff_of_true ?_ hall
    by_cases hone : (codes statements (identified contractMessage).1
        (identified contractMessage).2).length = 1
    · obtain ⟨code, hcode⟩ := List.length_eq_one_iff.mp hone
      rw [hcode] at hperm hall
      rw [List.perm_singleton.mp hperm]
      exact taken_row (hall code List.mem_cons_self) hcode
    · obtain ⟨result, hresult, hlength⟩ := mapM_rows_of_literals hperm hall
      have htaken : taken contractMessage result = .error .unknownContract :=
        taken_of_length (hlength ▸ hone)
      rw [hresult, lookup_of_length hone]
      exact htaken
  · refine iff_of_false ?_ hall
    simp only [not_forall] at hall
    obtain ⟨code, hcode, hnot⟩ := hall
    rw [mapM_rows_of_uri hperm hcode hnot]
    exact fun heq => lookup_ne_nullLiteral statements contractMessage heq.symm

end Rows

/-- What `getContract` does once it has the session. -/
theorem getContract_of_session {engine : QueryEngine Graph} {librdf : Librdf Graph}
    {accountInfo : AccountInfo} {contractMessage : ContractMessage}
    {store store' : AccountStore Graph} {session : AccountGraphStore}
    (hsession : getGraphSession librdf accountInfo.graphName store = .ok session store') :
    getContract engine librdf accountInfo contractMessage store =
      fromExcept (executeQuery engine (contents librdf store' session.dbName)
        (query contractMessage) >>= taken contractMessage) store' := by
  have hopened : graphSession librdf accountInfo.graphName store = .ok session store' := by
    rw [graphSession, hsession]
  rw [getContract, bind_ok hopened, get_bind]
  cases executeQuery engine (contents librdf store' session.dbName) (query contractMessage) with
  | error failure => rfl
  | ok result =>
    cases result with
    | nil => rfl
    | cons row more =>
      cases more with
      | nil => rfl
      | cons other more => rfl

/-- A contract is found by its name, or by the hash of its account, whatever syntax is in
the name, exactly when there is none: no quote, no backslash, no line end and no zero
byte; and the codes of the contracts that it names are literals. -/
theorem findsContract_iff {engine : QueryEngine Graph} (hengine : engine.Follows)
    (librdf : Librdf Graph) (accountInfo : AccountInfo) (contractMessage : ContractMessage)
    (store : AccountStore Graph) :
    FindsContract engine librdf accountInfo contractMessage store ↔
      (∀ c ∈ (identified contractMessage).2, isPlainName c = true) ∧
      ∀ session store', getGraphSession librdf accountInfo.graphName store = .ok session store' →
        ∀ code ∈ codes (engine.statements (contents librdf store' session.dbName))
          (identified contractMessage).1 (identified contractMessage).2,
          isLiteral code = true := by
  have hiri : (identified contractMessage).1 = nameIri ∨
      (identified contractMessage).1 = hashIri := by
    unfold identified
    split
    · exact Or.inl rfl
    · exact Or.inr rfl
  rw [FindsContract, query, parse_queryText_iff hiri, and_congr_right_iff]
  intro hplain
  have hparse := (parse_queryText_iff hiri).mpr hplain
  refine forall_congr' fun session => forall_congr' fun store' => forall_congr' fun hsession => ?_
  obtain ⟨rows, hexecute, hperm⟩ :=
    executeQuery_template hengine (contents librdf store' session.dbName) hparse
  rw [← taken_rows hperm, ← hexecute, getContract_of_session hsession, fromExcept_inj]
  rfl

def askedFor (contractName : Bytes) : ContractMessage := ⟨[], contractName, []⟩

def languageEngine : QueryEngine (List Statement) where
  statements := id
  execute graph text := (parse text).map fun query => query.rows (graph.map triple)

theorem follows_languageEngine : languageEngine.Follows where
  rows := by
    intro graph text query hparse
    refine ⟨query.rows (graph.map triple), ?_, List.Perm.refl _⟩
    exact congrArg (Option.map fun query : Select => query.rows (graph.map triple)) hparse

def baseContract : List Statement :=
  [⟨text "c", nameIri, .typedLiteral (text "base") stringIri⟩,
    ⟨text "c", valueIri, .typedLiteral (text "code") stringIri⟩]

def contractStore : AccountStore (List Statement) :=
  ⟨⟨fun _ => none, []⟩,
    ⟨fun _ => none, Function.update (fun _ => none) baseGraph (some baseContract), 0⟩,
    fun _ => none⟩

def baseAccount : AccountInfo := ⟨protocolVersion, [0xab], [], text "master", baseGraph⟩

theorem findsContract_base : FindsContract languageEngine .statementList baseAccount
    (askedFor (text "base")) contractStore := by
  refine (findsContract_iff follows_languageEngine .statementList baseAccount _ _).mpr
    ⟨by decide +kernel, ?_⟩
  intro session store' hsession
  have hcontents :=
    ((ends_of_ok hsession).mp (ends_getGraphSession .statementList _ contractStore)).2.2
  rw [hcontents]
  by_cases hbase : session.dbName = baseGraph
  · rw [hbase]
    decide +kernel
  · have hempty : contents .statementList contractStore session.dbName = [] := by
      simp [contents, AccountGraphStoreManager.content, contractStore, hbase,
        Librdf.statementList]
    rw [hempty]
    exact fun code hcode => absurd hcode List.not_mem_nil

/-- A name that ends its literal, completes the query and makes a comment of the rest. -/
def injectingName : Bytes :=
  text "base'^^<" ++ stringIri ++ text "> . ?contract <" ++ valueIri ++ text "> ?code . \x7d #"

/-- No contract has that name, and the code of another one is found. -/
theorem injected_name_finds :
    codes baseContract nameIri injectingName = [] ∧
    (∃ store', getContract languageEngine .statementList baseAccount (askedFor injectingName)
      contractStore = .ok ⟨[], injectingName, text "code"⟩ store') ∧
    ¬ FindsContract languageEngine .statementList baseAccount (askedFor injectingName)
      contractStore := by
  have hnone : codes baseContract nameIri injectingName = [] := by decide +kernel
  have hexecuted : executeQuery languageEngine baseContract (query (askedFor injectingName)) =
      .ok [[(text "code", text "code")]] := by decide +kernel
  have hother : parse (cString (query (askedFor injectingName))) ≠
      some (template nameIri injectingName) := by decide +kernel
  refine ⟨hnone, ?_, fun hfinds => hother hfinds.1⟩
  obtain ⟨store', hsession, hcontents⟩ : ∃ store',
      getGraphSession .statementList baseGraph contractStore = .ok ⟨0, baseGraph⟩ store' ∧
      contents .statementList store' baseGraph = baseContract := ⟨_, rfl, rfl⟩
  refine ⟨store', ?_⟩
  rw [getContract_of_session hsession, hcontents, hexecuted]
  rfl

end Keto.AccountDb.ContractLookup
