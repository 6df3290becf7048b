import Keto.AccountDb.RDFModelCopies
import Keto.AccountDb.StoreSteps
import Keto.TransactionCommon
import Keto.Wavm.RDFURLUtils
import Keto.Wavm.WavmSession

/-!
The calls of a contract on its session: its answers, and the entries of a debit or a
credit, which are five answers under one subject. A call asks for triples; what the
model of the change set holds in the end are those of all calls.
-/
namespace Keto.Wavm

open Protocol AccountDb TransactionCommon Library.Fallible Library.KeyedList
open Library.Search (append_cons_inj)

namespace RDFConstants

def float : Bytes := text "http://www.w3.org/2001/XMLSchema#float"

def id : Bytes := text "id"

def accountHash : Bytes := text "accountHash"

def type : Bytes := text "type"

def transactionDateTime : Bytes := text "dateTime"

def value : Bytes := text "value"

def debit : Bytes := text "debit"

def credit : Bytes := text "credit"

end RDFConstants

/-- What the broken-down times of `addDateTimeModelEntry` and `setDateTimeValue` are
printed as; nobody has set either. -/
structure UnsetTimes where
  model : GuestText
  memory : GuestText

inductive ContractCall
  | respond (call : ResponseCall)
  /-- `setResponseFloatValue`, with what a stream prints the value as. -/
  | respondFloat (subject predicate printed : GuestText)
  | createDebitEntry (transactionValueModel : GuestText) (value : Int64) (times : UnsetTimes)
  | createCreditEntry (transactionValueModel : GuestText) (value : Int64) (times : UnsetTimes)

namespace WavmSession

variable {Graph : Type} (librdf : Librdf Graph) (hex : HexCodec)

def getTransaction (message : TransactionMessage) : Bytes :=
  hex.hexEncode message.signedTransaction.transactionHash

def getAccount (message : TransactionMessage) : Except TransactionException Bytes :=
  (TransactionMessageHelper.getCurrentAccount message).map hex.hexEncode

def setResponseFloatValue (subjectUrl predicateUrl printed : Bytes)
    (session : WavmSession Graph) : WavmSession Graph where
  modelHelper :=
    addEntry subjectUrl predicateUrl (objectOf printed RDFConstants.float) session.modelHelper
  rdfSession :=
    RDFMemorySession.addStatement librdf subjectUrl predicateUrl printed RDFConstants.float
      session.rdfSession

def addDateTimeModelEntry (subjectUrl predicateUrl : Bytes) (times : UnsetTimes)
    (session : WavmSession Graph) : WavmSession Graph where
  modelHelper :=
    addEntry subjectUrl predicateUrl (objectOf times.model.1 RDFConstants.dateTime)
      session.modelHelper
  rdfSession :=
    RDFMemorySession.addStatement librdf subjectUrl predicateUrl times.memory.1
      RDFConstants.dateTime session.rdfSession

/-- The name of an entry: its kind, the account and the transaction. -/
def entryName (kind account transaction : Bytes) : Bytes :=
  kind ++ text "_" ++ account ++ text "_" ++ transaction

def createEntry (kind : Bytes) (transactionUrl : RDFURLUtils) (account transaction : Bytes)
    (value : Int64) (times : UnsetTimes) (session : WavmSession Graph) : WavmSession Graph :=
  let subjectUrl := transactionUrl.buildSubjectUrl (entryName kind account transaction)
  let predicateUrl := transactionUrl.buildPredicateUrl
  let session :=
    session.setResponseStringValue librdf subjectUrl (predicateUrl RDFConstants.id) transaction
  let session := session.addDateTimeModelEntry librdf subjectUrl
    (predicateUrl RDFConstants.transactionDateTime) times
  let session :=
    session.setResponseStringValue librdf subjectUrl (predicateUrl RDFConstants.type) kind
  let session := session.setResponseStringValue librdf subjectUrl
    (predicateUrl RDFConstants.accountHash) account
  session.setResponseLongValue librdf subjectUrl (predicateUrl RDFConstants.value) value

def createDebitEntry (message : TransactionMessage) (transactionValueModel : Bytes)
    (value : Int64) (times : UnsetTimes) (session : WavmSession Graph) :
    Except TransactionException (WavmSession Graph) := do
  let account ← getAccount hex message
  return createEntry librdf RDFConstants.debit (.ofUrl transactionValueModel) account
    (getTransaction hex message) value times session

def createCreditEntry (message : TransactionMessage) (transactionValueModel : Bytes)
    (value : Int64) (times : UnsetTimes) (session : WavmSession Graph) :
    Except TransactionException (WavmSession Graph) := do
  let account ← getAccount hex message
  return createEntry librdf RDFConstants.credit (.ofUrl transactionValueModel) account
    (getTransaction hex message) value times session

def perform (message : TransactionMessage) (call : ContractCall) (session : WavmSession Graph) :
    Except TransactionException (WavmSession Graph) :=
  match call with
  | .respond call => .ok (apply librdf call session)
  | .respondFloat subject predicate printed =>
    .ok (session.setResponseFloatValue librdf subject.1 predicate.1 printed.1)
  | .createDebitEntry model value times =>
    session.createDebitEntry librdf hex message model.1 value times
  | .createCreditEntry model value times =>
    session.createCreditEntry librdf hex message model.1 value times

/-- The calls of a contract, up to the first that throws. -/
def execute (message : TransactionMessage) (calls : List ContractCall) :
    Except TransactionException (WavmSession Graph) :=
  calls.foldlM (fun session call => perform librdf hex message call session) (start librdf)

end WavmSession

def entryTriples (kind : Bytes) (transactionUrl : RDFURLUtils) (account transaction : Bytes)
    (value : Int64) (times : UnsetTimes) : List Statement :=
  let subjectUrl := transactionUrl.buildSubjectUrl (WavmSession.entryName kind account transaction)
  let triple := fun predicate object =>
    (⟨subjectUrl, transactionUrl.buildPredicateUrl predicate, object⟩ : Statement)
  [triple RDFConstants.id (.typedLiteral transaction RDFConstants.string),
   triple RDFConstants.transactionDateTime (.typedLiteral times.model.1 RDFConstants.dateTime),
   triple RDFConstants.type (.typedLiteral kind RDFConstants.string),
   triple RDFConstants.accountHash (.typedLiteral account RDFConstants.string),
   triple RDFConstants.value
     (.typedLiteral (Library.Decimal.signed value.toInt) RDFConstants.long)]

/-- The triples that a call asks for; a message without a current account has no entries. -/
def ContractCall.triples (hex : HexCodec) (message : TransactionMessage) :
    ContractCall → List Statement
  | .respond call => [call.entry]
  | .respondFloat subject predicate printed =>
    [⟨subject.1, predicate.1, .typedLiteral printed.1 RDFConstants.float⟩]
  | .createDebitEntry model value times =>
    match WavmSession.getAccount hex message with
    | .ok account => entryTriples RDFConstants.debit (.ofUrl model.1) account
        (WavmSession.getTransaction hex message) value times
    | .error _ => []
  | .createCreditEntry model value times =>
    match WavmSession.getAccount hex message with
    | .ok account => entryTriples RDFConstants.credit (.ofUrl model.1) account
        (WavmSession.getTransaction hex message) value times
    | .error _ => []

namespace WavmSession

variable {Graph : Type} {librdf : Librdf Graph}

open RDFModelCopies (PlainObject ofObject_eq_self_iff)

def LiteralObject (object : RDFObject) : Prop :=
  object.type = RDFConstants.literal ∧ PlainObject object

def PlainPredicate (predicate : RDFPredicate) : Prop :=
  0 ∉ predicate.predicate ∧ ∀ object ∈ predicate.rdfObjects, LiteralObject object

def PlainSubject (subject : RDFSubject) : Prop :=
  0 ∉ subject.subject ∧ ∀ predicate ∈ subject.rdfPredicates, PlainPredicate predicate

def PlainFormat : RDFDataFormat → Prop
  | .rdfSubject subject => PlainSubject subject
  | .rdfNtGroup => False

/-- A model of literals without zero bytes, which the store is to persist. -/
structure PlainModel (model : RDFModel) : Prop where
  action : model.action = .persist
  formats : ∀ format ∈ model.rdfDataFormat, PlainFormat format

theorem plainModel_start : PlainModel (start librdf).modelHelper :=
  ⟨rfl, fun _ h => absurd h List.not_mem_nil⟩

theorem statements_eq_entries {subject : RDFSubject} (h : PlainSubject subject) :
    AccountGraphSession.statements subject = subjectEntries subject := by
  rw [AccountGraphSession.statements, subjectEntries]
  refine List.flatMap_congr ?_
  intro predicate hpredicate
  obtain ⟨hname, hobjects⟩ := h.2 predicate hpredicate
  have hlist : RDFPredicateHelper.listObjects predicate = predicate.rdfObjects := by
    rw [RDFPredicateHelper.listObjects, RDFModelCopies.map_eq_self_iff]
    exact fun object hobject => (ofObject_eq_self_iff object).mpr (hobjects object hobject).2
  rw [hlist, predicateEntries, List.map_eq_flatMap]
  refine List.flatMap_congr ?_
  intro object hobject
  have htype : object.type = RDFObjectHelper.literal := (hobjects object hobject).1
  have hstatement : AccountGraphSession.statement subject predicate object =
      .ok ⟨subject.subject, predicate.predicate,
        .typedLiteral object.value object.dataType⟩ := by
    rw [AccountGraphSession.statement, if_pos htype,
      cString_eq_self_iff.mpr h.1, cString_eq_self_iff.mpr hname]
  rw [hstatement]
  rfl

/-- What the store writes for a plain model are its entries. -/
theorem modelStatements_eq_entries {model : RDFModel} (h : PlainModel model) :
    modelStatements model = modelEntries model := by
  rw [modelStatements, modelEntries]
  refine List.flatMap_congr ?_
  intro format hformat
  have hplain := h.formats format hformat
  cases format with
  | rdfSubject subject =>
    rw [rdfSubject?, Option.toList_some, List.flatMap_singleton, formatEntries]
    exact statements_eq_entries hplain
  | rdfNtGroup => exact hplain.elim

theorem plainSubject_addObject {predicateUrl : Bytes} {object : RDFObject} {subject : RDFSubject}
    (h : PlainSubject subject) (hpredicate : 0 ∉ predicateUrl) (hobject : LiteralObject object) :
    PlainSubject (addObject predicateUrl object (getPredicate predicateUrl subject)) := by
  obtain ⟨hpredicates, hname⟩ := getPredicate_eq predicateUrl subject
  have hnew : PlainPredicate (RDFPredicateHelper.ofString predicateUrl) := by
    rw [RDFPredicateHelper.ofString, RDFObjectHelper.octetString_length]
    exact ⟨hpredicate, fun _ hmem => absurd hmem List.not_mem_nil⟩
  refine ⟨?_, ?_⟩
  · rw [addObject, hname]
    exact h.1
  · rw [addObject, hpredicates]
    refine forall_updateFirst ?_ (forall_findOrAdd hnew h.2)
    intro predicate hplain
    refine ⟨hplain.1, ?_⟩
    intro other hother
    rw [RDFPredicateHelper.addObject, RDFObjectHelper.toObject_eq] at hother
    rcases List.mem_append.mp hother with hold | hadded
    · exact hplain.2 other hold
    · rw [List.mem_singleton.mp hadded]
      exact hobject

theorem plainModel_addEntry {subjectUrl predicateUrl : Bytes} {object : RDFObject}
    {model : RDFModel} (h : PlainModel model) (hsubject : 0 ∉ subjectUrl)
    (hpredicate : 0 ∉ predicateUrl) (hobject : LiteralObject object) :
    PlainModel (addEntry subjectUrl predicateUrl object model) := by
  have hnew : PlainFormat (newSubject subjectUrl) := by
    rw [newSubject, RDFSubjectHelper.ofString, RDFObjectHelper.octetString_length]
    exact ⟨hsubject, fun _ hmem => absurd hmem List.not_mem_nil⟩
  refine ⟨?_, ?_⟩
  · rw [addEntry, getSubject]
    split
    · exact h.action
    · exact h.action
  · rw [addEntry, getSubject_eq]
    refine forall_updateFirst ?_ (forall_findOrAdd hnew h.formats)
    intro format hplain
    cases format with
    | rdfSubject subject => exact plainSubject_addObject hplain hpredicate hobject
    | rdfNtGroup => exact hplain.elim

structure Adds (triples : List Statement) (session session' : WavmSession Graph) : Prop where
  plain : PlainModel session.modelHelper → PlainModel session'.modelHelper
  entries : ∀ entry, entry ∈ modelEntries session'.modelHelper ↔
    entry ∈ modelEntries session.modelHelper ∨ entry ∈ triples

theorem Adds.trans {triples more : List Statement} {session session₁ session₂ : WavmSession Graph}
    (h : Adds triples session session₁) (hmore : Adds more session₁ session₂) :
    Adds (triples ++ more) session session₂ where
  plain hplain := hmore.plain (h.plain hplain)
  entries entry := by rw [hmore.entries, h.entries, List.mem_append, or_assoc]

theorem adds_addEntry {subjectUrl predicateUrl value dataType : Bytes}
    (hsubject : 0 ∉ subjectUrl) (hpredicate : 0 ∉ predicateUrl) (hvalue : 0 ∉ value)
    (hdataType : 0 ∉ dataType) (session : WavmSession Graph) (rdfSession : Graph) :
    Adds [⟨subjectUrl, predicateUrl, .typedLiteral value dataType⟩] session
      ⟨addEntry subjectUrl predicateUrl (objectOf value dataType) session.modelHelper,
        rdfSession⟩ where
  plain hplain := by
    have htype : 0 ∉ RDFConstants.literal := by decide
    have hlang : (0 : UInt8) ∉ text "en" := by decide
    exact plainModel_addEntry hplain hsubject hpredicate ⟨rfl, hvalue, htype, hlang, hdataType⟩
  entries entry := by
    rw [mem_modelEntries_addEntry, List.mem_singleton]
    rfl

theorem buildSubjectUrl_plain {url id : Bytes} (hurl : 0 ∉ url) (hid : 0 ∉ id) :
    0 ∉ (RDFURLUtils.ofUrl url).buildSubjectUrl id := by
  have hbase : 0 ∉ (RDFURLUtils.ofUrl url).modelBaseUrl ∧
      0 ∉ (RDFURLUtils.ofUrl url).modelName := by
    rw [RDFURLUtils.ofUrl]
    split
    · exact ⟨fun hmem => hurl (List.mem_of_mem_take hmem),
        fun hmem => hurl (List.mem_of_mem_drop hmem)⟩
    · exact ⟨hurl, hurl⟩
  simp [RDFURLUtils.buildSubjectUrl, RDFURLUtils.hash, RDFSubjectHelper.slash, hbase.1, hbase.2,
    hid]

theorem buildPredicateUrl_plain {url predicate : Bytes} (hurl : 0 ∉ url)
    (hpredicate : 0 ∉ predicate) : 0 ∉ (RDFURLUtils.ofUrl url).buildPredicateUrl predicate := by
  have hbase : 0 ∉ (RDFURLUtils.ofUrl url).modelBaseUrl := by
    rw [RDFURLUtils.ofUrl]
    split
    · exact fun hmem => hurl (List.mem_of_mem_take hmem)
    · exact hurl
  simp [RDFURLUtils.buildPredicateUrl, RDFURLUtils.hash, hbase, hpredicate]

/-- An entry adds its five triples. -/
theorem adds_createEntry {kind url account transaction : Bytes} (hkind : 0 ∉ kind) (hurl : 0 ∉ url)
    (haccount : 0 ∉ account) (htransaction : 0 ∉ transaction) (value : Int64) (times : UnsetTimes)
    (session : WavmSession Graph) :
    Adds (entryTriples kind (.ofUrl url) account transaction value times) session
      (createEntry librdf kind (.ofUrl url) account transaction value times session) := by
  have hname : 0 ∉ entryName kind account transaction := by
    have hunderscore : (0 : UInt8) ∉ text "_" := by decide
    simp [entryName, hkind, haccount, htransaction, hunderscore]
  have hsubject := buildSubjectUrl_plain hurl hname
  have hadd : ∀ {predicate text dataType : Bytes}, 0 ∉ predicate → 0 ∉ text → 0 ∉ dataType →
      ∀ (session : WavmSession Graph) (rdfSession : Graph),
        Adds [⟨_, (RDFURLUtils.ofUrl url).buildPredicateUrl predicate,
          .typedLiteral text dataType⟩] session ⟨addEntry _ _ _ session.modelHelper, rdfSession⟩ :=
    fun hpredicate htext hdataType => adds_addEntry hsubject
      (buildPredicateUrl_plain hurl hpredicate) htext hdataType
  have hvalue : 0 ∉ Library.Decimal.signed value.toInt :=
    cString_eq_self_iff.mp (MemorySession.cString_signed value.toInt)
  have hstring : 0 ∉ RDFConstants.string := by decide
  have hdateTime : 0 ∉ RDFConstants.dateTime := by decide
  have hdecimal : 0 ∉ RDFConstants.long := by decide
  have hid := hadd (by decide : 0 ∉ RDFConstants.id) htransaction hstring
  have htime := hadd (by decide : 0 ∉ RDFConstants.transactionDateTime) times.model.2 hdateTime
  have htype := hadd (by decide : 0 ∉ RDFConstants.type) hkind hstring
  have hhash := hadd (by decide : 0 ∉ RDFConstants.accountHash) haccount hstring
  have hlong := hadd (by decide : 0 ∉ RDFConstants.value) hvalue hdecimal
  exact ((((hid session _).trans (htime _ _)).trans (htype _ _)).trans (hhash _ _)).trans
    (hlong _ _)

theorem adds_apply (call : ResponseCall) (session : WavmSession Graph) :
    Adds [call.entry] session (apply librdf call session) := by
  obtain ⟨subject, predicate, value⟩ := call
  cases value with
  | string value => exact adds_addEntry subject.2 predicate.2 value.2 (by decide) session _
  | long value =>
    have hvalue := cString_eq_self_iff.mp (MemorySession.cString_signed value.toInt)
    exact adds_addEntry subject.2 predicate.2 hvalue (by decide) session _
  | boolean value =>
    have hvalue := cString_eq_self_iff.mp (MemorySession.cString_spelling value)
    exact adds_addEntry subject.2 predicate.2 hvalue (by decide) session _

/-- What is relied on of the digits: they are read back, and none of them is a zero byte,
a slash or an underscore. -/
structure HexDigits (hex : HexCodec) : Prop where
  decode_encode : ∀ bytes, hex.hexDecode (hex.hexEncode bytes) = some bytes
  digits : ∀ bytes, ∀ c ∈ hex.hexEncode bytes, c ∉ ([0, 0x2f, 0x5f] : Bytes)

theorem hexDigit_not_special : ∀ n : Fin 16,
    HexCodec.hexDigit (UInt8.ofNat n) ∉ ([0, 0x2f, 0x5f] : Bytes) := by decide

theorem hexDigits_botan : HexDigits .botan where
  decode_encode := HexCodec.botan_decode_encode
  digits bytes c hc := by
    have hdigit : ∀ n : UInt8, n.toNat < 16 →
        HexCodec.hexDigit n ∉ ([0, 0x2f, 0x5f] : Bytes) := by
      intro n hn
      simpa using hexDigit_not_special ⟨n.toNat, hn⟩
    obtain ⟨byte, _, hmem⟩ := List.mem_flatMap.mp hc
    rcases List.mem_cons.mp hmem with rfl | hlow
    · exact hdigit _ (HexCodec.high_lt byte)
    · rw [List.mem_singleton.mp hlow]
      exact hdigit _ (HexCodec.low_lt byte)

theorem HexDigits.zero_not_mem {hex : HexCodec} (h : HexDigits hex) (bytes : Bytes) :
    0 ∉ hex.hexEncode bytes :=
  fun hmem => h.digits bytes 0 hmem (by decide)

variable {hex : HexCodec}

theorem getAccount_plain (hhex : HexDigits hex) {message : TransactionMessage}
    {account : Bytes} (h : getAccount hex message = .ok account) : 0 ∉ account := by
  rw [getAccount] at h
  cases hcurrent : TransactionMessageHelper.getCurrentAccount message with
  | error exception => simp [hcurrent, Except.map] at h
  | ok accountHash =>
    rw [hcurrent] at h
    obtain rfl := Except.ok.inj h
    exact hhex.zero_not_mem accountHash

/-- A call that returns adds its triples. -/
theorem adds_perform (hhex : HexDigits hex) {message : TransactionMessage}
    {call : ContractCall} {session session' : WavmSession Graph}
    (h : perform librdf hex message call session = .ok session') :
    Adds (call.triples hex message) session session' := by
  cases call with
  | respond call =>
    obtain rfl := Except.ok.inj h
    exact adds_apply call session
  | respondFloat subject predicate printed =>
    obtain rfl := Except.ok.inj h
    exact adds_addEntry subject.2 predicate.2 printed.2 (by decide) session _
  | createDebitEntry model value times =>
    obtain ⟨account, haccount, hrest⟩ := bind_eq_ok.mp h
    obtain rfl := Except.ok.inj hrest
    rw [ContractCall.triples, haccount]
    exact adds_createEntry (by decide) model.2 (getAccount_plain hhex haccount)
      (hhex.zero_not_mem _) value times session
  | createCreditEntry model value times =>
    obtain ⟨account, haccount, hrest⟩ := bind_eq_ok.mp h
    obtain rfl := Except.ok.inj hrest
    rw [ContractCall.triples, haccount]
    exact adds_createEntry (by decide) model.2 (getAccount_plain hhex haccount)
      (hhex.zero_not_mem _) value times session

/-- What a contract's calls leave in the model of its change set: the triples of all of
them and no others, literals without zero bytes that are to be persisted. -/
theorem execute_eq_ok (hhex : HexDigits hex) {message : TransactionMessage}
    {calls : List ContractCall} {session : WavmSession Graph}
    (h : execute librdf hex message calls = .ok session) :
    PlainModel session.modelHelper ∧ ∀ entry, entry ∈ modelEntries session.modelHelper ↔
      ∃ call ∈ calls, entry ∈ call.triples hex message := by
  have hadds : ∀ (calls : List ContractCall) (session session' : WavmSession Graph),
      calls.foldlM (fun session call => perform librdf hex message call session) session =
        .ok session' →
      Adds (calls.flatMap (ContractCall.triples hex message)) session session' := by
    intro calls
    induction calls with
    | nil =>
      intro session session' hrun
      obtain rfl := Except.ok.inj hrun
      exact ⟨fun hplain => hplain, fun entry => by simp⟩
    | cons call calls ih =>
      intro session session' hrun
      rw [List.foldlM_cons] at hrun
      obtain ⟨next, hnext, hrest⟩ := bind_eq_ok.mp hrun
      exact (adds_perform hhex hnext).trans (ih next session' hrest)
  obtain ⟨hplain, hentries⟩ := hadds calls (start librdf) session h
  refine ⟨hplain plainModel_start, ?_⟩
  intro entry
  rw [hentries, List.mem_flatMap]
  exact or_iff_right List.not_mem_nil

theorem entryName_eq (kind account transaction : Bytes) :
    entryName kind account transaction = kind ++ 0x5f :: (account ++ 0x5f :: transaction) := by
  have hunderscore : text "_" = [0x5f] := by decide
  simp [entryName, hunderscore]

/-- The names of entries are told apart: an underscore stands behind the kind and the
account, and in neither of them. -/
theorem entryName_unique {kind kind' account account' transaction transaction' : Bytes}
    (hkind : 0x5f ∉ kind) (hkind' : 0x5f ∉ kind') (haccount : 0x5f ∉ account)
    (haccount' : 0x5f ∉ account')
    (h : entryName kind account transaction = entryName kind' account' transaction') :
    kind = kind' ∧ account = account' ∧ transaction = transaction' := by
  rw [entryName_eq, entryName_eq] at h
  obtain ⟨hkinds, hrest⟩ := append_cons_inj hkind hkind' h
  exact ⟨hkinds, append_cons_inj haccount haccount' hrest⟩

/-- The two kinds of entry have neither a slash nor an underscore. -/
theorem kind_not_special {kind : Bytes}
    (h : kind = RDFConstants.debit ∨ kind = RDFConstants.credit) :
    0x2f ∉ kind ∧ 0x5f ∉ kind := by
  rcases h with rfl | rfl
  · decide
  · decide

theorem slash_not_mem_entryName {hex : HexCodec} (hhex : HexDigits hex) {kind : Bytes}
    (hkind : kind = RDFConstants.debit ∨ kind = RDFConstants.credit) (account transaction : Hash) :
    RDFSubjectHelper.slash ∉
      entryName kind (hex.hexEncode account) (hex.hexEncode transaction) := by
  have hdigit : ∀ bytes, RDFSubjectHelper.slash ∉ hex.hexEncode bytes :=
    fun bytes hmem => hhex.digits bytes _ hmem (by decide)
  have hne : RDFSubjectHelper.slash ≠ 0x5f := by decide
  have hfirst : RDFSubjectHelper.slash ∉ kind := (kind_not_special hkind).1
  simp [entryName_eq, hdigit, hne, hfirst]

/-- The subject of an entry tells its model, its kind, its account and its transaction:
the entries of two of any of them never meet under one subject. -/
theorem entry_subject_unique (hhex : HexDigits hex) {url url' : RDFURLUtils.ModelUrl}
    {kind kind' : Bytes} (hkind : kind = RDFConstants.debit ∨ kind = RDFConstants.credit)
    (hkind' : kind' = RDFConstants.debit ∨ kind' = RDFConstants.credit)
    {account account' transaction transaction' : Hash}
    (h : (RDFURLUtils.ofUrl url.1).buildSubjectUrl
        (entryName kind (hex.hexEncode account) (hex.hexEncode transaction)) =
      (RDFURLUtils.ofUrl url'.1).buildSubjectUrl
        (entryName kind' (hex.hexEncode account') (hex.hexEncode transaction'))) :
    url = url' ∧ kind = kind' ∧ account = account' ∧ transaction = transaction' := by
  have hslash := slash_not_mem_entryName hhex hkind account transaction
  have hslash' := slash_not_mem_entryName hhex hkind' account' transaction'
  have hurl : url = url' := by
    have hclass := RDFURLUtils.getOntologyClass_of_not_mem url hslash
    rw [RDFURLUtils.subjectOf, h] at hclass
    exact Subtype.ext
      (hclass.symm.trans (RDFURLUtils.getOntologyClass_of_not_mem url' hslash'))
  subst hurl
  rw [RDFURLUtils.buildSubjectUrl_eq, RDFURLUtils.buildSubjectUrl_eq] at h
  have hname := (List.cons_inj_right _).mp (List.append_cancel_left h)
  have hdigit : ∀ bytes, 0x5f ∉ hex.hexEncode bytes :=
    fun bytes hmem => hhex.digits bytes _ hmem (by decide)
  have hinjective : ∀ {first second : Hash}, hex.hexEncode first = hex.hexEncode second →
      first = second := by
    intro first second heq
    have hdecode := hhex.decode_encode first
    rw [heq, hhex.decode_encode] at hdecode
    exact (Option.some.inj hdecode).symm
  obtain ⟨hkinds, haccounts, htransactions⟩ := entryName_unique (kind_not_special hkind).2
    (kind_not_special hkind').2 (hdigit account) (hdigit account') hname
  exact ⟨rfl, hkinds, hinjective haccounts, hinjective htransactions⟩

def valueUrl : RDFURLUtils.ModelUrl :=
  ⟨text "http://keto-coin.io/schema/rdf/1.0/keto/AccountTransaction#AccountTransaction", by decide⟩

/-- The debit of a transaction is never under the subject of its credit. -/
theorem entry_subject_unique_debit :
    (RDFURLUtils.ofUrl valueUrl.1).buildSubjectUrl
        (entryName RDFConstants.debit (HexCodec.botan.hexEncode [0xab])
          (HexCodec.botan.hexEncode [0x01])) ≠
      (RDFURLUtils.ofUrl valueUrl.1).buildSubjectUrl
        (entryName RDFConstants.credit (HexCodec.botan.hexEncode [0xab])
          (HexCodec.botan.hexEncode [0x01])) := by
  intro hsame
  obtain ⟨-, hkinds, -⟩ := entry_subject_unique hexDigits_botan (Or.inl rfl) (Or.inr rfl) hsame
  exact absurd hkinds (by decide)

end WavmSession

end Keto.Wavm
