import Keto.AccountDb.StoreSteps

/-!
What a transaction with malformed changes ends with. The builder goes through the
changes in order: what it refuses it refuses with an exception, but for bytes that are
no model, which it works on. Then the entries of the models are written in order: an
object of an unknown type throws when its turn comes, and an entry that is no subject is
taken for one.
-/
namespace Keto.AccountDb.MalformedChanges

open Protocol Library Library.Fallible Library.Stateful AccountSystemOntologyTypes
open AccountRDFStatementBuilder AccountStore AccountGraphSession

def isException : AccountDbFailure → Bool
  | .nullModel => false
  | .otherVariantAsSubject => false
  | .nullGraphStore => false
  | _ => true

section Refusals

variable (hex : HexCodec) (message : TransactionMessage) (existing : Bool)

def describable (subject : RDFSubject) : Bool :=
  (RDFSubjectHelper.get subject statusPredicate).toBool &&
    (hashLiteral hex subject idPredicate).toBool && (parentOf hex subject []).toBool &&
    (RDFSubjectHelper.get subject typePredicate).toBool

def subjectAccepted (model : RDFModel) (name : Bytes) : Bool :=
  match RDFModelHelper.get model name with
  | .error _ => false
  | .ok subject =>
    match validateClassOperation hex (phaseAccount message) existing subject with
    | .ok true => !isAccountOntologyClass subject || describable hex subject
    | _ => false

def changeAccepted : ChangeData → Bool
  | .binaryChange _ => false
  | .asn1Change none => false
  | .asn1Change (some model) =>
    (RDFModelHelper.subjects model).all (subjectAccepted hex message existing model)

variable {hex message existing}

theorem throwsOnly_get (subject : RDFSubject) (predicate : Bytes) :
    ThrowsOnly isException (RDFSubjectHelper.get subject predicate) := by
  rw [RDFSubjectHelper.get]
  split
  · exact throwsOnly_ok _
  · exact throwsOnly_error rfl

theorem throwsOnly_hashLiteral (subject : RDFSubject) (predicate : Bytes) :
    ThrowsOnly isException (hashLiteral hex subject predicate) := by
  refine throwsOnly_bind (throwsOnly_get subject predicate) fun entry => ?_
  split
  · exact throwsOnly_ok _
  · exact throwsOnly_error rfl

theorem throwsOnly_parentOf (subject : RDFSubject) (parent : Bytes) :
    ThrowsOnly isException (parentOf hex subject parent) :=
  throwsOnly_ite (throwsOnly_hashLiteral subject parentPredicate) (throwsOnly_ok parent)

theorem throwsOnly_validateClassOperation (accountHash : Hash) (subject : RDFSubject) :
    ThrowsOnly isException (validateClassOperation hex accountHash existing subject) := by
  refine throwsOnly_ite (throwsOnly_ok true) (throwsOnly_ite ?_ (throwsOnly_ok true))
  refine throwsOnly_bind (throwsOnly_get subject statusPredicate) fun status => ?_
  refine throwsOnly_ite (throwsOnly_ok false) ?_
  exact throwsOnly_bind (throwsOnly_get subject idPredicate) fun id => throwsOnly_ok _

theorem throwsOnly_describeAccount (subject : RDFSubject)
    (builder : AccountRDFStatementBuilder) :
    ThrowsOnly isException (describeAccount hex subject builder) := by
  refine throwsOnly_bind (throwsOnly_get subject statusPredicate) fun status => ?_
  refine throwsOnly_bind (throwsOnly_hashLiteral subject idPredicate) fun hash => ?_
  refine throwsOnly_bind (throwsOnly_parentOf subject _) fun parent => ?_
  exact throwsOnly_bind (throwsOnly_get subject typePredicate) fun type => throwsOnly_ok _

theorem throwsOnly_addSubject (model : RDFModel) (builder : AccountRDFStatementBuilder)
    (name : Bytes) : ThrowsOnly isException (addSubject hex message existing model builder name) := by
  have hsubject : ThrowsOnly isException (RDFModelHelper.get model name) := by
    rw [RDFModelHelper.get]
    split
    · exact throwsOnly_ok _
    · exact throwsOnly_error rfl
  refine throwsOnly_bind hsubject fun subject => ?_
  refine throwsOnly_bind (throwsOnly_validateClassOperation _ subject) fun valid => ?_
  refine throwsOnly_ite (throwsOnly_error rfl) ?_
  exact throwsOnly_ite (throwsOnly_describeAccount subject builder) (throwsOnly_ok builder)

theorem toBool_parentOf (subject : RDFSubject) (parent : Bytes) :
    (parentOf hex subject parent).toBool = (parentOf hex subject []).toBool := by
  rw [parentOf, parentOf]
  split
  · rfl
  · rfl

/-- Whether a subject is accepted does not depend on what was read before it. -/
theorem toBool_describeAccount (subject : RDFSubject) (builder : AccountRDFStatementBuilder) :
    (describeAccount hex subject builder).toBool = describable hex subject := by
  have hparent := @toBool_parentOf hex subject builder.accountInfo.parentAccountHash
  rw [describeAccount, describable, ← hparent, toBool_bind]
  cases RDFSubjectHelper.get subject statusPredicate with
  | error e => rfl
  | ok status =>
    simp only [toBool_bind]
    cases hashLiteral hex subject idPredicate with
    | error e => rfl
    | ok accountHash =>
      simp only []
      cases parentOf hex subject builder.accountInfo.parentAccountHash with
      | error e => rfl
      | ok parent =>
        cases RDFSubjectHelper.get subject typePredicate <;> rfl

theorem toBool_addSubject (model : RDFModel) (builder : AccountRDFStatementBuilder)
    (name : Bytes) :
    (addSubject hex message existing model builder name).toBool =
      subjectAccepted hex message existing model name := by
  rw [addSubject, subjectAccepted, toBool_bind]
  cases RDFModelHelper.get model name with
  | error e => rfl
  | ok subject =>
    simp only [toBool_bind]
    cases validateClassOperation hex (phaseAccount message) existing subject with
    | error e => rfl
    | ok valid =>
      cases valid with
      | false => rfl
      | true =>
        cases haccount : isAccountOntologyClass subject with
        | false => rfl
        | true => exact toBool_describeAccount subject builder

def changeKind (hex : HexCodec) (message : TransactionMessage) (existing : Bool) :
    ChangeData → Option Bool
  | .asn1Change none => some false
  | change => if changeAccepted hex message existing change then none else some true

theorem kind_addSubject (model : RDFModel) (builder : AccountRDFStatementBuilder)
    (name : Bytes) :
    (errorOf (addSubject hex message existing model builder name)).map isException =
      if subjectAccepted hex message existing model name then none else some true := by
  rw [(throwsOnly_addSubject model builder name).errorOf, toBool_addSubject]

theorem kind_addChange (builder : AccountRDFStatementBuilder) (change : ChangeData) :
    (errorOf (addChange hex message existing builder change)).map isException =
      changeKind hex message existing change := by
  cases change with
  | binaryChange data => rfl
  | asn1Change content =>
    cases content with
    | none => rfl
    | some model =>
      have hloop := errorOf_foldlM (@kind_addSubject hex message existing model)
        (RDFModelHelper.subjects model) builder
      rw [findSome?_refused] at hloop
      have hchange := errorOf_bind_pure
        ((RDFModelHelper.subjects model).foldlM (addSubject hex message existing model) builder)
        fun described => { described with statements := described.statements ++ [model] }
      rw [changeKind, changeAccepted, ← hloop, ← hchange]
      · rfl
      · intro hnone
        cases hnone

theorem kind_create :
    (errorOf (create hex message existing)).map isException =
      (changes message).findSome? (changeKind hex message existing) :=
  errorOf_foldlM kind_addChange _ _

def NullsRefused (hex : HexCodec) (message : TransactionMessage) (existing : Bool) : Prop :=
  ∀ before behind, changes message = before ++ .asn1Change none :: behind →
    ∃ change ∈ before, changeAccepted hex message existing change = false

theorem changeKind_eq_none_iff {change : ChangeData} :
    changeKind hex message existing change = none ↔
      changeAccepted hex message existing change = true := by
  cases change with
  | binaryChange data => exact iff_of_false (fun h => nomatch h) (fun h => nomatch h)
  | asn1Change content =>
    cases content with
    | none => exact iff_of_false (fun h => nomatch h) (fun h => nomatch h)
    | some model =>
      rw [changeKind]
      · split
        · exact iff_of_true rfl ‹_›
        · exact iff_of_false (fun h => nomatch h) ‹_›
      · intro hnone
        cases hnone

theorem changeKind_eq_false_iff {change : ChangeData} :
    changeKind hex message existing change = some false ↔ change = .asn1Change none := by
  constructor
  · intro h
    unfold changeKind at h
    split at h
    · rfl
    · split at h
      · cases h
      · cases h
  · intro h
    rw [h]
    rfl

/-- The changes are gone through without work on a null model. -/
theorem nullsRefused_iff :
    NullsRefused hex message existing ↔
      (errorOf (create hex message existing)).map isException ≠ some false := by
  rw [kind_create, NullsRefused]
  constructor
  · intro hrefused hfound
    obtain ⟨before, change, behind, hsplit, hkind, hnone⟩ :=
      List.findSome?_eq_some_iff.mp hfound
    obtain rfl := changeKind_eq_false_iff.mp hkind
    obtain ⟨refused, hmem, hnot⟩ := hrefused before behind hsplit
    rw [changeKind_eq_none_iff.mp (hnone refused hmem)] at hnot
    cases hnot
  · intro hfound before behind hsplit
    by_contra hall
    have hnone : ∀ change ∈ before, changeKind hex message existing change = none := by
      intro change hmem
      rw [changeKind_eq_none_iff, ← Bool.not_eq_false]
      exact fun hnot => hall ⟨change, hmem, hnot⟩
    exact hfound (List.findSome?_eq_some_iff.mpr ⟨before, _, behind, hsplit, rfl, hnone⟩)

end Refusals

section Writes

variable {Graph : Type} {hex : HexCodec} {librdf : Librdf Graph}

/-- What the session does for an entry: the statements of its objects in order, and
what it throws at an object that has none. -/
def outcomes : RDFDataFormat → List (Except AccountDbFailure Statement)
  | .rdfNtGroup => [.error .otherVariantAsSubject]
  | .rdfSubject subject =>
    subject.rdfPredicates.flatMap fun predicate =>
      (RDFPredicateHelper.listObjects predicate).map (statement subject predicate)

def modelOutcomes (model : RDFModel) : List (Except AccountDbFailure GraphWrite) :=
  (model.rdfDataFormat.flatMap outcomes).map
    (Except.map (if model.action = .persist then GraphWrite.add else GraphWrite.remove))

def messageOutcomes (message : TransactionMessage) : List (Except AccountDbFailure GraphWrite) :=
  (models message).flatMap modelOutcomes

theorem attempts_eq (entry : RDFDataFormat) :
    attempts entry = (outcomes entry).map Except.toOption := by
  cases entry with
  | rdfNtGroup => rfl
  | rdfSubject subject =>
    rw [attempts, outcomes, List.map_flatMap]
    congr 1
    funext predicate
    rw [List.map_map]
    rfl

theorem modelAttempts_eq (model : RDFModel) :
    modelAttempts model = (modelOutcomes model).map Except.toOption := by
  rw [modelAttempts, modelOutcomes, List.map_map, funext attempts_eq, ← List.map_flatMap,
    List.map_map]
  congr 1
  funext outcome
  exact (toOption_map _ outcome).symm

theorem messageAttempts_eq (message : TransactionMessage) :
    (models message).flatMap modelAttempts = (messageOutcomes message).map Except.toOption := by
  rw [messageOutcomes, List.map_flatMap, funext modelAttempts_eq]

theorem thrown_writeSubject (write : Statement → Graph → Graph) (session : AccountGraphStore)
    (entry : RDFDataFormat) (store : AccountStore Graph) :
    thrown (writeSubject librdf write session entry) store =
      (outcomes entry).findSome? errorOf := by
  cases entry with
  | rdfNtGroup => rfl
  | rdfSubject subject =>
    refine thrown_forM (fun predicate store => ?_) _ _
    rw [List.map_eq_flatMap]
    refine thrown_forM (fun object store => ?_) _ _
    cases hstatement : statement subject predicate object with
    | ok entry => rfl
    | error e => rfl

theorem thrown_applyStatement (session : AccountGraphStore) (model : RDFModel)
    (store : AccountStore Graph) :
    thrown (applyStatement librdf session model) store =
      (modelOutcomes model).findSome? errorOf := by
  have hmap := funext (errorOf_map (ε := AccountDbFailure)
    (if model.action = .persist then GraphWrite.add else GraphWrite.remove))
  rw [modelOutcomes, List.findSome?_map, Function.comp_def, hmap]
  refine thrown_forM (fun entry store => ?_) _ _
  by_cases hpersist : model.action = .persist
  · rw [if_pos hpersist]
    exact thrown_writeSubject librdf.addStatement session entry store
  · rw [if_neg hpersist]
    exact thrown_writeSubject librdf.removeStatement session entry store

theorem thrown_applyStatements (session : AccountGraphStore) (message : TransactionMessage)
    (store : AccountStore Graph) :
    thrown ((models message).forM (applyStatement librdf session)) store =
      (messageOutcomes message).findSome? errorOf :=
  thrown_forM (thrown_applyStatement session) _ _

def known (message : TransactionMessage) (store : AccountStore Graph) : Bool :=
  (store.getAccountInfo (phaseAccount message)).isSome

def Resolves (hex : HexCodec) (message : TransactionMessage) (store : AccountStore Graph) : Prop :=
  (create hex message (known message store)).toBool = true ∧
    (known message store = true ∨
      (createdAccount hex message store.getAccountInfo).isSome = true)

/-- An account that is not created is refused with an exception. -/
theorem ends_createAccount (accountHash : Hash) (builder : AccountRDFStatementBuilder)
    (store : AccountStore Graph) :
    Ends (createAccount hex librdf accountHash builder) (fun _ _ => True)
      (fun e _ => isException e = true) store := by
  unfold createAccount
  by_cases haction : builder.action = accountCreateObjectStatus
  · rw [if_neg (not_not_intro haction)]
    by_cases htype : builder.accountInfo.accountType = masterType
    · simp only [if_pos htype]
      have hgraph := masterGraph_eq_ok hex librdf accountHash htype rfl store
      rw [Ends, bind_ok hgraph]
      trivial
    · simp only [if_neg htype, inheritedGraph, ends_bind, ends_get]
      cases store.getAccountInfo builder.accountInfo.parentAccountHash with
      | some parent => trivial
      | none => rfl
  · rw [if_pos haction]
    rfl

/-- The account is missing because the builder threw, or with an exception. -/
theorem resolveAccount_error {message : TransactionMessage} {store store₁ : AccountStore Graph}
    {e : AccountDbFailure} (h : resolveAccount hex librdf message store = .error e store₁) :
    create hex message (known message store) = .error e ∨
      (create hex message (known message store)).toBool = true ∧ isException e = true := by
  rw [resolveAccount, get_bind] at h
  rw [known]
  cases hknown : store.getAccountInfo (phaseAccount message) with
  | some accountInfo =>
    rw [hknown] at h
    cases hbuilder : create hex message true with
    | error e' =>
      rw [hbuilder] at h
      injection h with he
      exact Or.inl (he ▸ hbuilder)
    | ok builder =>
      rw [hbuilder] at h
      injection h
  | none =>
    rw [hknown] at h
    cases hbuilder : create hex message false with
    | error e' =>
      rw [hbuilder] at h
      injection h with he
      exact Or.inl (he ▸ hbuilder)
    | ok builder =>
      right
      have hends := @ends_createAccount Graph hex librdf (phaseAccount message) builder store
      cases hcreate : createAccount hex librdf (phaseAccount message) builder store with
      | ok accountInfo store₂ =>
        rw [hbuilder] at h
        have hok := (bind_ok hcreate _).symm.trans h
        injection hok
      | error e' store₂ =>
        rw [hbuilder] at h
        have herror := (bind_error hcreate _).symm.trans h
        injection herror with he
        rw [ends_of_error hcreate, he] at hends
        exact ⟨congrArg Except.toBool hbuilder, hends⟩

theorem resolves_iff {message : TransactionMessage} {store : AccountStore Graph} :
    (∃ resolved store₁, resolveAccount hex librdf message store = .ok resolved store₁) ↔
      Resolves hex message store := by
  rw [Resolves, known, createdAccount]
  cases hknown : store.getAccountInfo (phaseAccount message) with
  | some accountInfo =>
    have hresolve : resolveAccount hex librdf message store =
        (fromExcept (create hex message true) >>= fun builder =>
          pure (accountInfo, builder)) store := by
      rw [resolveAccount, get_bind, hknown]
    rw [hresolve]
    cases hbuilder : create hex message true with
    | error e => exact iff_of_false (not_ok_of_error rfl) (by simp [hbuilder, Except.toBool])
    | ok builder => exact iff_of_true ⟨_, _, rfl⟩ (by simp [hbuilder, Except.toBool])
  | none =>
    have hresolve : resolveAccount hex librdf message store =
        (fromExcept (create hex message false) >>= fun builder =>
          createAccount hex librdf (phaseAccount message) builder >>= fun accountInfo =>
            pure (accountInfo, builder)) store := by
      rw [resolveAccount, get_bind, hknown]
    rw [hresolve]
    cases hbuilder : create hex message false with
    | error e => exact iff_of_false (not_ok_of_error rfl) (by simp [hbuilder, Except.toBool])
    | ok builder =>
      rcases createAccount_cases hex librdf (phaseAccount message) builder store with
        ⟨accountInfo, hnew, hcreate⟩ | ⟨hnew, e, he⟩
      · exact iff_of_true ⟨_, _, bind_ok hcreate _⟩ (by simp [hbuilder, hnew, Except.toBool])
      · exact iff_of_false (not_ok_of_error (bind_error he _)) (by simp [hnew])

theorem getGraphSession_error {name : Bytes} {store store₁ : AccountStore Graph}
    {e : AccountDbFailure} (h : getGraphSession librdf name store = .error e store₁) :
    e = .nullGraphStore := by
  rw [getGraphSession, get_bind] at h
  cases hsession : store.sessions name with
  | some session =>
    rw [hsession] at h
    injection h
  | none =>
    rw [hsession] at h
    cases hfound : (store.graphStores.get librdf name).1 with
    | some session =>
      simp only [hfound] at h
      injection h
    | none =>
      simp only [hfound] at h
      injection h with he
      exact he.symm

end Writes

section Rejection

variable {hex : HexCodec}

def recorder : Librdf (List GraphWrite) where
  newModel := []
  addStatement statement calls := calls ++ [.add statement]
  removeStatement statement calls := calls ++ [.remove statement]

/-- A call on malformed changes ends with an exception, before anything is persisted. -/
def RejectsMalformed (hex : HexCodec) (message : TransactionMessage)
    (store : AccountStore (List GraphWrite)) : Prop :=
  ∀ failure, thrown (applyTransaction hex recorder message) store = some failure →
    isException failure = true ∧
    ∀ dbName, ∃ written,
      contents recorder (after (applyTransaction hex recorder message) store) dbName =
        contents recorder store dbName ++ written ∧
      ∀ statement, GraphWrite.add statement ∉ written

/-- The first entry or object that cannot be written comes before everything that is
persisted, and is an object of an unknown type. -/
def WritesCleanly (message : TransactionMessage) : Prop :=
  ∀ (before : List GraphWrite) (failure : AccountDbFailure)
    (behind : List (Except AccountDbFailure GraphWrite)),
    messageOutcomes message = before.map .ok ++ .error failure :: behind →
    isException failure = true ∧ ∀ statement, GraphWrite.add statement ∉ before

theorem applyAll_recorder (writes before : List GraphWrite) :
    Overlay.applyAll (GraphWrite.apply recorder) writes before = before ++ writes := by
  induction writes generalizing before with
  | nil => exact (List.append_nil before).symm
  | cons write writes ih =>
    have hwrite : write.apply recorder before = before ++ [write] := by
      cases write with
      | add statement => rfl
      | remove statement => rfl
    calc Overlay.applyAll (GraphWrite.apply recorder) (write :: writes) before
      _ = Overlay.applyAll (GraphWrite.apply recorder) writes (write.apply recorder before) := rfl
      _ = before ++ [write] ++ writes := by rw [hwrite, ih]
      _ = before ++ write :: writes := List.append_assoc before [write] writes

/-- What the writes of a message leave in the graphs. -/
theorem contents_applyStatements (session : AccountGraphStore) (message : TransactionMessage)
    (store : AccountStore (List GraphWrite)) :
    contents recorder (after ((models message).forM (applyStatement recorder session)) store) =
      Function.update (contents recorder store) session.dbName
        (contents recorder store session.dbName ++
          performed ((messageOutcomes message).map Except.toOption)) := by
  rw [(performs_applyStatements recorder session (models message) store).1, messageAttempts_eq,
    ← applyAll_recorder]
  exact Overlay.applyAll_update _ session.dbName _ _

/-- A call that has the session rejects what is malformed when it writes cleanly. -/
theorem rejects_of_session {message : TransactionMessage}
    {store store' : AccountStore (List GraphWrite)} {session : AccountGraphStore}
    (hrun : applyTransaction hex recorder message store =
      (models message).forM (applyStatement recorder session) store')
    (hbefore : contents recorder store' = contents recorder store) :
    RejectsMalformed hex message store ↔ WritesCleanly message := by
  have hthrown : thrown (applyTransaction hex recorder message) store =
      (messageOutcomes message).findSome? errorOf := by
    rw [thrown, hrun, ← thrown, thrown_applyStatements]
  have hafter := contents_applyStatements session message store'
  rw [after, ← hrun, ← after, hbefore] at hafter
  constructor
  · intro hrejects before failure behind hsplit
    obtain ⟨hfirst, hdone⟩ := performed_of_split before failure behind
    rw [hsplit] at hthrown hafter
    obtain ⟨hexception, hwritten⟩ := hrejects failure (hthrown.trans hfirst)
    obtain ⟨written, hcontents, hnone⟩ := hwritten session.dbName
    rw [hafter, Function.update_self, hdone] at hcontents
    rw [List.append_cancel_left hcontents]
    exact ⟨hexception, hnone⟩
  · intro hclean failure hfailure
    obtain ⟨behind, hsplit⟩ := performed_of_findSome (hthrown.symm.trans hfailure)
    obtain ⟨hexception, hnone⟩ := hclean _ failure behind hsplit
    refine ⟨hexception, fun dbName => ?_⟩
    rw [hafter]
    by_cases hname : dbName = session.dbName
    · rw [hname, Function.update_self]
      exact ⟨_, rfl, hnone⟩
    · rw [Function.update_of_ne hname]
      exact ⟨[], (List.append_nil _).symm, fun statement => List.not_mem_nil⟩

/-- A call that throws before the session has one to open throws nothing else than it
should, and has persisted nothing. -/
theorem rejects_of_error {message : TransactionMessage}
    {store store' : AccountStore (List GraphWrite)} {e : AccountDbFailure}
    (he : applyTransaction hex recorder message store = .error e store')
    (hbefore : contents recorder store' = contents recorder store) :
    RejectsMalformed hex message store ↔ isException e = true := by
  constructor
  · exact fun hrejects => (hrejects e (thrown_of_error he)).1
  · intro hexception failure hfailure
    obtain rfl := Option.some.inj ((thrown_of_error he).symm.trans hfailure)
    refine ⟨hexception, fun dbName => ⟨[], ?_, fun statement => List.not_mem_nil⟩⟩
    rw [after_of_error he, hbefore, List.append_nil]

theorem nullsRefused_of_toBool {message : TransactionMessage} {existing : Bool}
    (h : (create hex message existing).toBool = true) : NullsRefused hex message existing := by
  rw [nullsRefused_iff]
  cases hbuilder : create hex message existing with
  | ok builder => exact fun hnone => nomatch hnone
  | error e =>
    rw [hbuilder] at h
    cases h

/-- What the builder throws when the account is not resolved decides whether it is an exception. -/
theorem nullsRefused_of_error {message : TransactionMessage}
    {store store₁ : AccountStore (List GraphWrite)} {e : AccountDbFailure}
    (he : resolveAccount hex recorder message store = .error e store₁) :
    NullsRefused hex message (known message store) ↔ isException e = true := by
  rcases resolveAccount_error he with hbuilder | ⟨hbuilder, hexception⟩
  · rw [nullsRefused_iff, hbuilder]
    cases hkind : isException e with
    | true => exact iff_of_true (fun h => by simp [errorOf, hkind] at h) rfl
    | false => exact iff_of_false (fun h => h (congrArg some hkind)) (by simp)
  · exact iff_of_true (nullsRefused_of_toBool hbuilder) hexception

/-- A call on malformed changes ends with an exception and before anything is persisted
exactly when every change that is no model comes behind one that is refused; the graph
of an account that is found or created has a store; and the entries are written cleanly. -/
theorem rejectsMalformed_iff (hex : HexCodec) (message : TransactionMessage)
    (store : AccountStore (List GraphWrite)) :
    RejectsMalformed hex message store ↔
      NullsRefused hex message (known message store) ∧
      (Resolves hex message store → StartsWriting hex message store) ∧
      (StartsWriting hex message store → WritesCleanly message) := by
  rw [← @resolves_iff _ hex recorder, ← startsWriting_iff hex recorder]
  rcases resolveAccount_cases hex recorder message store with
    ⟨accountInfo, builder, hresolve, _, hstatements⟩ | ⟨_, e, he⟩
  · have hnulls := nullsRefused_of_toBool (resolves_iff.mp ⟨_, _, hresolve⟩).1
    have hfirst : applyTransaction hex recorder message store =
        (getGraphSession recorder accountInfo.graphName >>= fun session =>
          builder.statements.forM (applyStatement recorder session))
            (withCreation hex recorder message store) := bind_ok hresolve _
    have hbefore := contents_withCreation hex recorder message store
    have hends := ends_getGraphSession recorder accountInfo.graphName
      (withCreation hex recorder message store)
    cases hsession : getGraphSession recorder accountInfo.graphName
        (withCreation hex recorder message store) with
    | ok session store' =>
      rw [bind_ok hsession, hstatements] at hfirst
      have hwrites : ∃ session, WritesOn hex recorder message store session :=
        ⟨session, _, _, store', hresolve, hsession⟩
      rw [rejects_of_session hfirst (((ends_of_ok hsession).mp hends).2.2.trans hbefore)]
      exact ⟨fun hclean => ⟨hnulls, fun _ => hwrites, fun _ => hclean⟩, fun h => h.2.2 hwrites⟩
    | error e store' =>
      rw [bind_error hsession] at hfirst
      rw [rejects_of_error hfirst (((ends_of_error hsession).mp hends).2.trans hbefore),
        getGraphSession_error hsession]
      refine iff_of_false (by decide) fun ⟨_, hstarts, _⟩ => ?_
      obtain ⟨session, store'', hok⟩ := (getGraphSession_ok_iff recorder _ _).mpr
        ((writesOn_iff_of_ok hresolve).mp (hstarts ⟨_, _, hresolve⟩))
      exact absurd (hsession.symm.trans hok) (by simp)
  · have hnot := not_writesOn_of_error he
    have herror : applyTransaction hex recorder message store = .error e store := bind_error he _
    rw [rejects_of_error herror rfl, ← nullsRefused_of_error he]
    refine ⟨fun hnulls => ⟨hnulls, fun ⟨_, _, hok⟩ => ?_,
      fun ⟨session, h⟩ => absurd h (hnot session)⟩, And.left⟩
    exact absurd (he.symm.trans hok) (by simp)

def nullModelMessage : TransactionMessage where
  sourceAccount := [0xab]
  targetAccount := []
  feeAccount := []
  transactionHash := [0x01]
  signature := []
  signedTransaction := ⟨[0x01], []⟩
  currentStatus := .init
  changeSet := [⟨⟨[0x01], [0xab], .init, [.asn1Change none]⟩, [], []⟩]

/-- The builder goes on with a null model. -/
theorem null_model_worked_on :
    thrown (applyTransaction .botan recorder nullModelMessage) .empty = some .nullModel ∧
    ¬ RejectsMalformed .botan nullModelMessage .empty := by
  have hthrown : thrown (applyTransaction .botan recorder nullModelMessage) .empty =
      some .nullModel := rfl
  refine ⟨hthrown, fun hrejects => ?_⟩
  exact absurd (hrejects .nullModel hthrown).1 (by decide)

end Rejection

end Keto.AccountDb.MalformedChanges
