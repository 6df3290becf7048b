import Keto.AccountDb.StoreSteps
import Keto.Library.Traced

/-!
Which entries of a message are validated and which are written. The functions
of the account store are given here with notes of what they validate and of what
they pass to a session, and are the store's functions without the notes. The
builder looks each name of a model up and finds the first entry that has it; the
store passes on every entry.
-/
namespace Keto.AccountDb.ValidatedEntries

open Protocol Library.Stateful Library.Traced
open AccountSystemOntologyTypes AccountRDFStatementBuilder AccountStore AccountGraphSession

/-- A call for the entry at a position of a model of the message: its validation
with the result, and its being passed to `persist` or `remove`. -/
inductive Call
  | validated (model entry : ℕ) (subject : RDFSubject) (valid : Bool)
  | passed (model entry : ℕ) (format : RDFDataFormat)
  deriving DecidableEq, Repr

abbrev CallM (Graph α : Type) := TracedM Call AccountDbFailure (AccountStore Graph) α

variable {Graph : Type} (hex : HexCodec) (librdf : Librdf Graph)

def isNamed (name : Bytes) (format : RDFDataFormat) : Bool :=
  (rdfSubject? format).any fun subject => subject.subject = name

def position (model : RDFModel) (name : Bytes) : ℕ := model.rdfDataFormat.findIdx (isNamed name)

def tracedAddSubject (message : TransactionMessage) (existingAccount : Bool) (model : RDFModel)
    (builder : AccountRDFStatementBuilder) (name : Bytes) :
    CallM Graph AccountRDFStatementBuilder := do
  let subject ← silent (fromExcept (RDFModelHelper.get model name))
  let valid ← silent (fromExcept
    (validateClassOperation hex (phaseAccount message) existingAccount subject))
  note (.validated builder.statements.length (position model name) subject valid)
  silent (fromExcept do
    if !valid then
      throw (.invalidAccountOperation (text "The operation on the account is invalid."))
    if isAccountOntologyClass subject then
      describeAccount hex subject builder
    else
      return builder)

def tracedAddChange (message : TransactionMessage) (existingAccount : Bool)
    (builder : AccountRDFStatementBuilder) (change : ChangeData) :
    CallM Graph AccountRDFStatementBuilder := do
  let statement ← silent (fromExcept (AccountRDFStatement.create change))
  let model ← silent (fromExcept (AccountRDFStatement.getModel statement))
  let described ← (RDFModelHelper.subjects model).foldlM
    (tracedAddSubject hex message existingAccount model) builder
  return { described with statements := described.statements ++ [model] }

def tracedCreate (message : TransactionMessage) (existingAccount : Bool) :
    CallM Graph AccountRDFStatementBuilder :=
  (changes message).foldlM (tracedAddChange hex message existingAccount) .empty

def tracedResolveAccount (message : TransactionMessage) :
    CallM Graph (AccountInfo × AccountRDFStatementBuilder) := do
  let store ← silent get
  match store.getAccountInfo (phaseAccount message) with
  | none =>
    let builder ← tracedCreate hex message false
    let accountInfo ← silent (createAccount hex librdf (phaseAccount message) builder)
    return (accountInfo, builder)
  | some accountInfo =>
    let builder ← tracedCreate hex message true
    return (accountInfo, builder)

def tracedApplyStatement (session : AccountGraphStore) (model : RDFModel × ℕ) :
    CallM Graph PUnit :=
  (RDFModelHelper.getSubjects model.1).zipIdx.forM fun subject => do
    note (.passed model.2 subject.2 subject.1)
    silent (if model.1.action = .persist then persist librdf session subject.1
      else remove librdf session subject.1)

def tracedApplyTransaction (message : TransactionMessage) : CallM Graph PUnit := do
  let (accountInfo, builder) ← tracedResolveAccount hex librdf message
  let session ← silent (getGraphSession librdf accountInfo.graphName)
  builder.statements.zipIdx.forM (tracedApplyStatement librdf session)

section Erasure

variable {hex librdf}

theorem erases_addSubject (message : TransactionMessage) (existing : Bool) (model : RDFModel)
    (builder : AccountRDFStatementBuilder) (name : Bytes) :
    Erases (tracedAddSubject hex message existing model builder name : CallM Graph _)
      (fromExcept (addSubject hex message existing model builder name)) := by
  rw [addSubject, fromExcept_bind]
  refine erases_bind (erases_silent _) fun subject => ?_
  rw [fromExcept_bind]
  exact erases_bind (erases_silent _) fun valid => erases_note _ (erases_silent _)

theorem erases_addChange (message : TransactionMessage) (existing : Bool)
    (builder : AccountRDFStatementBuilder) (change : ChangeData) :
    Erases (tracedAddChange hex message existing builder change : CallM Graph _)
      (fromExcept (addChange hex message existing builder change)) := by
  rw [addChange, fromExcept_bind]
  refine erases_bind (erases_silent _) fun statement => ?_
  rw [fromExcept_bind]
  refine erases_bind (erases_silent _) fun model => ?_
  rw [fromExcept_bind, fromExcept_foldlM]
  exact erases_bind (erases_foldlM (erases_addSubject message existing model) _ builder)
    fun described => erases_pure _

theorem erases_create (message : TransactionMessage) (existing : Bool) :
    Erases (tracedCreate hex message existing : CallM Graph _)
      (fromExcept (create hex message existing)) := by
  rw [create, fromExcept_foldlM]
  exact erases_foldlM (erases_addChange message existing) _ _

theorem erases_resolveAccount (message : TransactionMessage) :
    Erases (tracedResolveAccount hex librdf message) (resolveAccount hex librdf message) := by
  refine erases_bind (erases_silent _) fun store => ?_
  cases store.getAccountInfo (phaseAccount message) with
  | none =>
    refine erases_bind (erases_create message false) fun builder => ?_
    exact erases_bind (erases_silent _) fun accountInfo => erases_pure _
  | some accountInfo => exact erases_bind (erases_create message true) fun builder => erases_pure _

theorem erases_applyStatement (session : AccountGraphStore) (model : RDFModel) (index : ℕ) :
    Erases (tracedApplyStatement librdf session (model, index))
      (applyStatement librdf session model) := by
  refine erases_forM_zipIdx (fun subject position => ?_) _ 0
  exact erases_note _ (erases_silent _)

/-- The traced store is the store. -/
theorem erases_applyTransaction (message : TransactionMessage) :
    Erases (tracedApplyTransaction hex librdf message) (applyTransaction hex librdf message) := by
  refine erases_bind (erases_resolveAccount message) fun resolved => ?_
  refine erases_bind (erases_silent _) fun session => ?_
  exact erases_forM_zipIdx (erases_applyStatement session) _ 0

end Erasure

def calls (message : TransactionMessage) (store : AccountStore Graph) : List Call :=
  (after (tracedApplyTransaction hex librdf message) (store, [])).2

def OnlyValidated (calls : List Call) : Prop :=
  ∀ model entry format, .passed model entry format ∈ calls →
    ∃ subject, format = .rdfSubject subject ∧ .validated model entry subject true ∈ calls

section Builder

def validation (model : RDFModel) (index : ℕ) (name : Bytes) : Option Call :=
  (RDFModelHelper.get model name).toOption.map fun subject =>
    .validated index (position model name) subject true

def modelValidations (model : RDFModel) (index : ℕ) : List Call :=
  (RDFModelHelper.subjects model).filterMap (validation model index)

def validations (models : List RDFModel) : List Call :=
  models.zipIdx.flatMap fun model => modelValidations model.1 model.2

theorem validations_snoc (models : List RDFModel) (model : RDFModel) :
    validations (models ++ [model]) =
      validations models ++ modelValidations model models.length := by
  rw [validations, List.zipIdx_append, List.flatMap_append]
  simp [validations]

def NonePassed (calls : List Call) : Prop :=
  ∀ model entry format, Call.passed model entry format ∉ calls

theorem NonePassed.append {calls more : List Call} (h : NonePassed calls)
    (hmore : NonePassed more) : NonePassed (calls ++ more) := by
  intro model entry format hmem
  rcases List.mem_append.mp hmem with hbefore | hlast
  · exact h model entry format hbefore
  · exact hmore model entry format hlast

theorem nonePassed_validated (model entry : ℕ) (subject : RDFSubject) (valid : Bool) :
    NonePassed [.validated model entry subject valid] := by
  intro model' entry' format hmem
  exact absurd (List.mem_singleton.mp hmem) (by simp)

theorem nonePassed_filterMap (model : RDFModel) (index : ℕ) (names : List Bytes) :
    NonePassed (names.filterMap (validation model index)) := by
  intro model' entry format hmem
  obtain ⟨name, _, hcall⟩ := List.mem_filterMap.mp hmem
  obtain ⟨subject, _, heq⟩ := Option.map_eq_some_iff.mp hcall
  exact absurd heq (by simp)

theorem nonePassed_validations (models : List RDFModel) : NonePassed (validations models) := by
  intro model entry format hmem
  obtain ⟨found, _, hcall⟩ := List.mem_flatMap.mp hmem
  exact nonePassed_filterMap found.1 found.2 _ model entry format hcall

variable {hex} {message : TransactionMessage} {existing : Bool}

theorem describeAccount_statements {subject : RDFSubject}
    {builder described : AccountRDFStatementBuilder}
    (h : describeAccount hex subject builder = .ok described) :
    described.statements = builder.statements := by
  obtain ⟨status, _, hrest⟩ := Library.Fallible.bind_eq_ok.mp h
  obtain ⟨accountHash, _, hrest⟩ := Library.Fallible.bind_eq_ok.mp hrest
  obtain ⟨parent, _, hrest⟩ := Library.Fallible.bind_eq_ok.mp hrest
  obtain ⟨type, _, hrest⟩ := Library.Fallible.bind_eq_ok.mp hrest
  obtain rfl := Except.ok.inj hrest
  rfl

/-- A name that is added has had its entry validated. -/
theorem ends_addSubject (model : RDFModel) (builder : AccountRDFStatementBuilder) (name : Bytes)
    {s : AccountStore Graph × List Call} (hnone : NonePassed s.2) :
    Ends (tracedAddSubject hex message existing model builder name)
      (fun added s' => added.statements = builder.statements ∧
        s'.2 = s.2 ++ (validation model builder.statements.length name).toList)
      (fun _ s' => NonePassed s'.2) s := by
  simp only [tracedAddSubject, ends_bind, ends_silent, ends_fromExcept, ends_note]
  refine ⟨fun subject hsubject => ⟨fun valid hvalid => ?_, fun _ _ => hnone⟩, fun _ _ => hnone⟩
  refine ⟨fun added hadded => ?_, fun _ _ => hnone.append (nonePassed_validated _ _ _ _)⟩
  cases valid with
  | false => exact absurd hadded (by simp [throw, throwThe, MonadExceptOf.throw, bind, Except.bind])
  | true =>
    refine ⟨?_, by simp [validation, hsubject, Except.toOption]⟩
    cases hclass : isAccountOntologyClass subject with
    | true =>
      rw [hclass] at hadded
      exact describeAccount_statements hadded
    | false =>
      rw [hclass] at hadded
      rw [← Except.ok.inj hadded]

theorem ends_addSubjects (model : RDFModel) (builder : AccountRDFStatementBuilder)
    {s : AccountStore Graph × List Call} (hnone : NonePassed s.2) :
    Ends ((RDFModelHelper.subjects model).foldlM (tracedAddSubject hex message existing model)
        builder)
      (fun described s' => described.statements = builder.statements ∧
        s'.2 = s.2 ++ modelValidations model builder.statements.length)
      (fun _ s' => NonePassed s'.2) s := by
  refine ends_foldlM (fun names (b : AccountRDFStatementBuilder)
      (s' : AccountStore Graph × List Call) => b.statements = builder.statements ∧
    s'.2 = s.2 ++ names.filterMap (validation model builder.statements.length)) ?_ ?_
  · rintro names b name s' ⟨hstatements, hnotes⟩
    have hstill : NonePassed s'.2 := hnotes ▸ hnone.append (nonePassed_filterMap model _ names)
    refine (ends_addSubject model b name hstill).mono ?_ fun _ _ hraised => hraised
    rintro added s'' ⟨hadded, hnotes'⟩
    refine ⟨hadded.trans hstatements, ?_⟩
    rw [hnotes', hnotes, hstatements, filterMap_snoc, List.append_assoc]
  · exact ⟨rfl, (List.append_nil s.2).symm⟩

/-- A change that is added has had all names of its model validated. -/
theorem ends_addChange (builder : AccountRDFStatementBuilder) (change : ChangeData)
    {s : AccountStore Graph × List Call} (hnone : NonePassed s.2) :
    Ends (tracedAddChange hex message existing builder change)
      (fun added s' => ∃ model, added.statements = builder.statements ++ [model] ∧
        s'.2 = s.2 ++ modelValidations model builder.statements.length)
      (fun _ s' => NonePassed s'.2) s := by
  simp only [tracedAddChange, ends_bind, ends_silent, ends_fromExcept]
  refine ⟨fun statement _ => ⟨fun model _ => ?_, fun _ _ => hnone⟩, fun _ _ => hnone⟩
  refine (ends_addSubjects model builder hnone).mono ?_ fun _ _ hraised => hraised
  rintro described s' ⟨hstatements, hnotes⟩
  exact ⟨model, by rw [hstatements], hnotes⟩

/-- A builder that is constructed has had all names of its models validated. -/
theorem ends_create {s : AccountStore Graph × List Call} (hnotes : s.2 = []) :
    Ends (tracedCreate hex message existing)
      (fun builder s' => s'.2 = validations builder.statements)
      (fun _ s' => NonePassed s'.2) s := by
  refine ends_foldlM (fun _ (builder : AccountRDFStatementBuilder)
      (s' : AccountStore Graph × List Call) => s'.2 = validations builder.statements) ?_ hnotes
  intro done builder change s' hs'
  have hnone : NonePassed s'.2 := hs' ▸ nonePassed_validations builder.statements
  refine (ends_addChange builder change hnone).mono ?_ fun _ _ hraised => hraised
  rintro added s'' ⟨model, hstatements, hnotes'⟩
  rw [hnotes', hs', hstatements, validations_snoc]

end Builder

section Lookup

variable {model : RDFModel}

/-- A name is looked up at its position, and a subject is there. -/
theorem get_eq_ok_iff {name : Bytes} {subject : RDFSubject} :
    RDFModelHelper.get model name = .ok subject ↔
      model.rdfDataFormat[position model name]? = some (.rdfSubject subject) := by
  have hfind : (model.rdfDataFormat.filterMap rdfSubject?).find?
      (fun entry => entry.subject = name) =
        (model.rdfDataFormat[position model name]?).bind rdfSubject? := by
    rw [List.find?_filterMap, position, ← List.find?_eq_getElem?_findIdx]
    rfl
  rw [RDFModelHelper.get, hfind]
  cases hentry : model.rdfDataFormat[position model name]? with
  | none => simp
  | some format =>
    cases format with
    | rdfNtGroup =>
      have hnamed := List.findIdx_of_getElem?_eq_some hentry
      exact absurd hnamed (by simp [isNamed, rdfSubject?])
    | rdfSubject found => simp [rdfSubject?]

theorem name_of_get {name : Bytes} {subject : RDFSubject}
    (h : RDFModelHelper.get model name = .ok subject) : subject.subject = name := by
  have hnamed := List.findIdx_of_getElem?_eq_some (get_eq_ok_iff.mp h)
  simpa [isNamed, rdfSubject?] using hnamed

def FirstOfName (model : RDFModel) (format : RDFDataFormat) (entry : ℕ) : Prop :=
  ∃ subject, format = .rdfSubject subject ∧ position model subject.subject = entry

/-- Of the entries of a model those are validated that are the first of their name. -/
theorem mem_modelValidations {index entry : ℕ} {subject : RDFSubject} {i : ℕ} :
    Call.validated i entry subject true ∈ modelValidations model index ↔
      i = index ∧ model.rdfDataFormat[entry]? = some (.rdfSubject subject) ∧
        position model subject.subject = entry := by
  rw [modelValidations, List.mem_filterMap]
  constructor
  · rintro ⟨name, _, hcall⟩
    obtain ⟨found, hfound, heq⟩ := Option.map_eq_some_iff.mp hcall
    obtain ⟨rfl, rfl, rfl, _⟩ := Call.validated.inj heq
    have hget : RDFModelHelper.get model name = .ok found := by
      cases hlookup : RDFModelHelper.get model name with
      | ok other =>
        rw [hlookup] at hfound
        exact congrArg Except.ok (Option.some.inj hfound)
      | error e =>
        rw [hlookup] at hfound
        exact absurd hfound (by simp [Except.toOption])
    exact ⟨rfl, get_eq_ok_iff.mp hget, by rw [name_of_get hget]⟩
  · rintro ⟨rfl, hentry, rfl⟩
    have hget := get_eq_ok_iff.mpr hentry
    refine ⟨subject.subject, ?_, ?_⟩
    · have hmem : RDFDataFormat.rdfSubject subject ∈ model.rdfDataFormat :=
        List.mem_of_getElem? hentry
      exact List.mem_map.mpr ⟨subject, List.mem_filterMap.mpr ⟨_, hmem, rfl⟩, rfl⟩
    · rw [validation, hget]
      rfl

theorem mem_validations {models : List RDFModel} {i entry : ℕ} {subject : RDFSubject}
    (hmodel : models[i]? = some model) :
    Call.validated i entry subject true ∈ validations models ↔
      model.rdfDataFormat[entry]? = some (.rdfSubject subject) ∧
        position model subject.subject = entry := by
  rw [validations, List.mem_flatMap]
  constructor
  · rintro ⟨found, hfound, hcall⟩
    obtain ⟨rfl, hentry, hposition⟩ := mem_modelValidations.mp hcall
    obtain rfl := Option.some.inj ((List.mem_zipIdx_iff_getElem?.mp hfound).symm.trans hmodel)
    exact ⟨hentry, hposition⟩
  · intro hentry
    have hfound : (model, i) ∈ models.zipIdx := List.mem_zipIdx_iff_getElem?.mpr hmodel
    exact ⟨(model, i), hfound, mem_modelValidations.mpr ⟨rfl, hentry⟩⟩

end Lookup

section Loop

variable {librdf}

def supported (object : RDFObject) : Bool :=
  object.type = RDFObjectHelper.literal ∨ object.type = RDFObjectHelper.uri

def writable : RDFDataFormat → Bool
  | .rdfNtGroup => false
  | .rdfSubject subject =>
    subject.rdfPredicates.all fun predicate =>
      (RDFPredicateHelper.listObjects predicate).all supported

theorem isSome_statement (subject : RDFSubject) (predicate : RDFPredicate) (object : RDFObject) :
    (statement subject predicate object).toOption.isSome = supported object := by
  rw [statement]
  by_cases hliteral : object.type = RDFObjectHelper.literal
  · rw [if_pos hliteral, supported, decide_eq_true (Or.inl hliteral)]
    rfl
  · rw [if_neg hliteral]
    by_cases huri : object.type = RDFObjectHelper.uri
    · rw [if_pos huri, supported, decide_eq_true (Or.inr huri)]
      rfl
    · rw [if_neg huri, supported, decide_eq_false (not_or.mpr ⟨hliteral, huri⟩)]
      rfl

theorem all_attempts (entry : RDFDataFormat) :
    (attempts entry).all Option.isSome = writable entry := by
  cases entry with
  | rdfNtGroup => rfl
  | rdfSubject subject =>
    rw [attempts, List.all_flatMap, writable]
    congr 1
    funext predicate
    rw [List.all_map]
    congr 1
    funext object
    exact isSome_statement subject predicate object

theorem returns_writeSubject (write : Statement → Graph → Graph) (session : AccountGraphStore)
    (entry : RDFDataFormat) (store : AccountStore Graph) :
    returns (writeSubject librdf write session entry) store = writable entry := by
  rw [(performs_writeSubject write session entry store).2, all_attempts]

def allWritable (model : RDFModel × ℕ) : Bool :=
  model.1.rdfDataFormat.zipIdx.all fun subject => writable subject.1

/-- The entries of a model that a session is passed: all up to the first that
cannot be written. -/
def modelPasses (model : RDFModel × ℕ) : List Call :=
  (upTo (fun subject => writable subject.1) model.1.rdfDataFormat.zipIdx).flatMap fun subject =>
    [.passed model.2 subject.2 subject.1]

def passes (models : List RDFModel) : List Call :=
  (upTo allWritable models.zipIdx).flatMap modelPasses

theorem notes_applyStatement (session : AccountGraphStore) (model : RDFModel × ℕ) :
    Notes (tracedApplyStatement librdf session model) (modelPasses model) (allWritable model) := by
  refine notes_forM (fun subject => notes_note _ (notes_silent fun store => ?_)) _
  by_cases hpersist : model.1.action = .persist
  · rw [if_pos hpersist]
    exact returns_writeSubject librdf.addStatement session subject.1 store
  · rw [if_neg hpersist]
    exact returns_writeSubject librdf.removeStatement session subject.1 store

theorem notes_applyStatements (session : AccountGraphStore) (models : List RDFModel) :
    Notes (models.zipIdx.forM (tracedApplyStatement librdf session)) (passes models)
      (models.zipIdx.all allWritable) :=
  notes_forM (notes_applyStatement session) models.zipIdx

end Loop

/-- Of the entries that are written, up to the first that cannot be, each is an
RDF subject and the first of its name in its model. -/
def FirstEntriesOnly (message : TransactionMessage) (store : AccountStore Graph) : Prop :=
  StartsWriting hex message store →
    ∀ model ∈ upTo allWritable (models message).zipIdx,
      ∀ entry ∈ upTo (fun entry => writable entry.1) model.1.rdfDataFormat.zipIdx,
        FirstOfName model.1 entry.1 entry.2

section Calls

variable {hex librdf} {message : TransactionMessage} {store : AccountStore Graph}

theorem ends_resolveAccount (message : TransactionMessage) (store : AccountStore Graph) :
    Ends (tracedResolveAccount hex librdf message)
      (fun resolved s' => s'.2 = validations resolved.2.statements)
      (fun _ s' => NonePassed s'.2) (store, []) := by
  have hcreate : ∀ existing, Ends (tracedCreate hex message existing : CallM Graph _)
      (fun builder s' => s'.2 = validations builder.statements)
      (fun _ s' => NonePassed s'.2) (store, []) := fun existing => ends_create rfl
  simp only [tracedResolveAccount, ends_bind, ends_silent, ends_get]
  cases store.getAccountInfo (phaseAccount message) with
  | none =>
    simp only [ends_bind]
    refine (hcreate false).mono ?_ fun _ _ hraised => hraised
    intro builder s' hnotes
    have hnone : NonePassed s'.2 := hnotes ▸ nonePassed_validations builder.statements
    rw [ends_bind, ends_silent]
    cases hcreated : createAccount hex librdf (phaseAccount message) builder s'.1 with
    | ok accountInfo store' => exact (ends_of_ok hcreated).mpr hnotes
    | error e store' => exact (ends_of_error hcreated).mpr hnone
  | some accountInfo =>
    simp only [ends_bind]
    exact (hcreate true).mono (fun _ _ hnotes => hnotes) fun _ _ hraised => hraised

theorem resolved_statements {accountInfo : AccountInfo} {builder : AccountRDFStatementBuilder}
    {store' : AccountStore Graph}
    (h : resolveAccount hex librdf message store = .ok (accountInfo, builder) store') :
    builder.statements = models message := by
  rcases resolveAccount_cases hex librdf message store with
    ⟨found, built, hresolve, _, hstatements⟩ | ⟨_, e, he⟩
  · rw [hresolve] at h
    injection h with hpair _
    rw [← (Prod.mk.inj hpair).2]
    exact hstatements
  · rw [he] at h
    exact absurd h (by simp)

/-- A call that gets to write has validated every name, and has passed on every
entry up to the first that cannot be written; any other passes nothing on. -/
theorem calls_cases (hex : HexCodec) (librdf : Librdf Graph) (message : TransactionMessage)
    (store : AccountStore Graph) :
    (StartsWriting hex message store ∧ calls hex librdf message store =
      validations (models message) ++ passes (models message)) ∨
    (¬ StartsWriting hex message store ∧ NonePassed (calls hex librdf message store)) := by
  rw [← startsWriting_iff hex librdf]
  have hends := @ends_resolveAccount Graph hex librdf message store
  have herases := @erases_resolveAccount Graph hex librdf message store []
  cases hresolve : tracedResolveAccount hex librdf message (store, []) with
  | error e s₁ =>
    have hthrown : tracedApplyTransaction hex librdf message (store, []) = .error e s₁ :=
      bind_error hresolve _
    have hcalls : calls hex librdf message store = s₁.2 := by rw [calls, after_of_error hthrown]
    rw [hresolve, forget] at herases
    rw [ends_of_error hresolve] at hends
    refine Or.inr ⟨?_, hcalls ▸ hends⟩
    rintro ⟨session, hwrites⟩
    exact not_writesOn_of_error herases.symm session hwrites
  | ok resolved s₁ =>
    obtain ⟨accountInfo, builder⟩ := resolved
    rw [hresolve, forget] at herases
    rw [ends_of_ok hresolve] at hends
    have hstatements := resolved_statements herases.symm
    have hrun : calls hex librdf message store = (after (silent (getGraphSession librdf
        accountInfo.graphName) >>= fun session =>
          builder.statements.zipIdx.forM (tracedApplyStatement librdf session)) s₁).2 := by
      rw [calls, after, tracedApplyTransaction, bind_ok hresolve]
      rfl
    cases hsession : getGraphSession librdf accountInfo.graphName s₁.1 with
    | error e store₂ =>
      have hthrown : (silent (getGraphSession librdf accountInfo.graphName) : CallM Graph _) s₁ =
          .error e (store₂, s₁.2) := by simp [silent, hsession]
      rw [after_of_error (bind_error hthrown _), hends] at hrun
      refine Or.inr ⟨?_, hrun ▸ nonePassed_validations builder.statements⟩
      rw [writesOn_iff_of_ok herases.symm, ← getGraphSession_ok_iff librdf]
      rintro ⟨session, store', hok⟩
      exact absurd (hsession.symm.trans hok) (by simp)
    | ok session store₂ =>
      have hfound : (silent (getGraphSession librdf accountInfo.graphName) : CallM Graph _) s₁ =
          .ok session (store₂, s₁.2) := by simp [silent, hsession]
      have hloop :=
        (@notes_applyStatements Graph librdf session builder.statements (store₂, s₁.2)).1
      refine Or.inl ⟨⟨session, _, _, store₂, herases.symm, hsession⟩, ?_⟩
      rw [hrun, after, bind_ok hfound, ← after, hloop, hends, hstatements]

theorem mem_passes {models : List RDFModel} {call : Call} :
    call ∈ passes models ↔ ∃ model ∈ upTo allWritable models.zipIdx,
      ∃ entry ∈ upTo (fun entry => writable entry.1) model.1.rdfDataFormat.zipIdx,
        call = .passed model.2 entry.2 entry.1 := by
  simp [passes, modelPasses, List.mem_flatMap]

/-- Only validated entries are passed on exactly when the entries that are
reached are the first of their names. -/
theorem onlyValidated_calls_iff (hex : HexCodec) (librdf : Librdf Graph)
    (message : TransactionMessage) (store : AccountStore Graph) :
    OnlyValidated (calls hex librdf message store) ↔
      FirstEntriesOnly hex message store := by
  rcases calls_cases hex librdf message store with ⟨hstarts, hcalls⟩ | ⟨hnot, hnone⟩
  · rw [hcalls]
    constructor
    · intro honly _ model hmodel entry hentry
      have hpassed := mem_passes.mpr ⟨model, hmodel, entry, hentry, rfl⟩
      obtain ⟨subject, hformat, hvalidated⟩ :=
        honly model.2 entry.2 entry.1 (List.mem_append_right _ hpassed)
      rcases List.mem_append.mp hvalidated with hvalid | hother
      · have hindex := List.mem_zipIdx_iff_getElem?.mp (mem_of_mem_upTo hmodel)
        exact ⟨subject, hformat, ((mem_validations hindex).mp hvalid).2⟩
      · obtain ⟨_, _, _, _, heq⟩ := mem_passes.mp hother
        exact absurd heq (by simp)
    · intro hfirst index position format hmem
      rcases List.mem_append.mp hmem with hvalidated | hpassed
      · exact absurd hvalidated (nonePassed_validations _ index position format)
      · obtain ⟨model, hmodel, entry, hentry, heq⟩ := mem_passes.mp hpassed
        obtain ⟨rfl, rfl, rfl⟩ := Call.passed.inj heq
        obtain ⟨subject, hformat, hposition⟩ := hfirst hstarts model hmodel entry hentry
        have hindex := List.mem_zipIdx_iff_getElem?.mp (mem_of_mem_upTo hmodel)
        have hfound := List.mem_zipIdx_iff_getElem?.mp (mem_of_mem_upTo hentry)
        rw [hformat] at hfound
        refine ⟨subject, hformat, List.mem_append_left _ ?_⟩
        exact (mem_validations hindex).mpr ⟨hfound, hposition⟩
  · constructor
    · intro _ hstarts
      exact absurd hstarts hnot
    · intro _ model entry format hmem
      exact absurd hmem (hnone model entry format)

end Calls

/-- What the store passes to its sessions are validated RDF subjects exactly when
each entry that it gets to is an RDF subject and the first of its name; the notes
that say so are of a store that does what the store does. -/
theorem validated_before_written (hex : HexCodec) (librdf : Librdf Graph)
    (message : TransactionMessage) :
    Erases (tracedApplyTransaction hex librdf message) (applyTransaction hex librdf message) ∧
      ∀ store, OnlyValidated (calls hex librdf message store) ↔
        FirstEntriesOnly hex message store :=
  ⟨erases_applyTransaction message, onlyValidated_calls_iff hex librdf message⟩

def repeatedMessage : TransactionMessage where
  sourceAccount := [0xab]
  targetAccount := []
  feeAccount := []
  transactionHash := [0x01]
  signature := []
  signedTransaction := ⟨[0x01], []⟩
  currentStatus := .init
  changeSet := [⟨⟨[0x01], [0xab], .init,
    [.asn1Change (some ⟨.persist, [.rdfSubject created, .rdfSubject repeated]⟩)]⟩, [], []⟩]
where
  created : RDFSubject := genesisSubject (text "AB") [(statusPredicate, text "create"),
    (idPredicate, text "AB"), (typePredicate, text "master")]
  repeated : RDFSubject := genesisSubject (text "AB") [(statusPredicate, text "delete")]

/-- The first entry is validated twice and the second never; both are persisted. -/
theorem repeated_entry_not_validated :
    calls .botan .statementList repeatedMessage .empty =
      [.validated 0 0 repeatedMessage.created true, .validated 0 0 repeatedMessage.created true,
        .passed 0 0 (.rdfSubject repeatedMessage.created),
        .passed 0 1 (.rdfSubject repeatedMessage.repeated)] ∧
    validateClassOperation .botan [0xab] false repeatedMessage.repeated = .ok false ∧
    ¬ OnlyValidated (calls .botan .statementList repeatedMessage .empty) := by
  have hcalls : calls .botan .statementList repeatedMessage .empty =
      [.validated 0 0 repeatedMessage.created true, .validated 0 0 repeatedMessage.created true,
        .passed 0 0 (.rdfSubject repeatedMessage.created),
        .passed 0 1 (.rdfSubject repeatedMessage.repeated)] := by decide +kernel
  refine ⟨hcalls, by decide, ?_⟩
  intro honly
  obtain ⟨subject, hformat, hvalidated⟩ :=
    honly 0 1 (.rdfSubject repeatedMessage.repeated) (by simp [hcalls])
  rw [hcalls] at hvalidated
  exact absurd hvalidated (by simp)

end Keto.AccountDb.ValidatedEntries
