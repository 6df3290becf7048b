import Keto.Crypto.SignatureGenerator
import Keto.Library.Runs
import Keto.Protocol

/-!
The builder of a signed change set. The change set is hashed wherever it is set;
the key loader is that of the constructor, since its setter assigns the member to
itself and not the parameter.
-/
namespace Keto.TransactionCommon

open Protocol Crypto Library.Fallible Library.Runs

inductive BuilderException
  | serialization
  | crypto (e : CryptoException)
  deriving DecidableEq, Repr

/-- There is no change set until one is set: the record is cleared. -/
structure SignedChangeSetBuilder where
  keyLoader : KeyLoader
  changeSet : Option ChangeSet
  changeSetHash : Hash
  signature : Bytes
  deriving DecidableEq, Repr

namespace SignedChangeSetBuilder

variable {PrivateKey : Type} (signing : Signing PrivateKey)
  (encodeChangeSet : ChangeSet → Option Bytes)

/-- The hash of the serialized change set, made before anything is stored. -/
def hashChangeSet (changeSet : ChangeSet) : Except BuilderException Hash :=
  match encodeChangeSet changeSet with
  | some bytes => .ok (signing.generateHash bytes)
  | none => .error .serialization

def setChangeSet (changeSet : ChangeSet) (builder : SignedChangeSetBuilder) :
    Except BuilderException SignedChangeSetBuilder := do
  let changeSetHash ← hashChangeSet signing encodeChangeSet changeSet
  return { builder with changeSet := some changeSet, changeSetHash := changeSetHash }

/-- `this->keyLoader = keyLoader`, where the parameter is spelled `keyloader`. -/
def setKeyLoader (_keyloader : KeyLoader) (builder : SignedChangeSetBuilder) :
    SignedChangeSetBuilder :=
  { builder with keyLoader := builder.keyLoader }

def sign (builder : SignedChangeSetBuilder) : Except BuilderException SignedChangeSetBuilder := do
  let signature ← ((SignatureGenerator.ofLoader builder.keyLoader).sign signing
    builder.changeSetHash).mapError .crypto
  return { builder with signature := signature }

def toSignedChangeSet (builder : SignedChangeSetBuilder) : SignedChangeSet :=
  ⟨builder.changeSet.getD ⟨[], [], .init, []⟩, builder.changeSetHash, builder.signature⟩

inductive Construction
  | default
  | changeSet (changeSet : ChangeSet)
  | changeSetAndKeyLoader (changeSet : ChangeSet) (keyLoader : KeyLoader)
  deriving DecidableEq, Repr

def Construction.keyLoader : Construction → KeyLoader
  | .changeSetAndKeyLoader _ keyLoader => keyLoader
  | _ => KeyLoader.new

def construct : Construction → Except BuilderException SignedChangeSetBuilder
  | .default => .ok ⟨KeyLoader.new, none, [], []⟩
  | .changeSet changeSet => do
    let changeSetHash ← hashChangeSet signing encodeChangeSet changeSet
    return ⟨KeyLoader.new, some changeSet, changeSetHash, []⟩
  | .changeSetAndKeyLoader changeSet keyLoader => do
    let changeSetHash ← hashChangeSet signing encodeChangeSet changeSet
    return ⟨keyLoader, some changeSet, changeSetHash, []⟩

inductive Call
  | setChangeSet (changeSet : ChangeSet)
  | setKeyLoader (keyloader : KeyLoader)
  | sign
  deriving DecidableEq, Repr

def perform : Call → SignedChangeSetBuilder → Except BuilderException SignedChangeSetBuilder
  | .setChangeSet changeSet, builder => builder.setChangeSet signing encodeChangeSet changeSet
  | .setKeyLoader keyloader, builder => .ok (builder.setKeyLoader keyloader)
  | .sign, builder => builder.sign signing

def step (call : Call) (builder : SignedChangeSetBuilder) : SignedChangeSetBuilder :=
  match perform signing encodeChangeSet call builder with
  | .ok next => next
  | .error _ => builder

def Changes : Call → Prop
  | .setChangeSet changeSet => encodeChangeSet changeSet ≠ none
  | .setKeyLoader _ => True
  | .sign => False

/-- The key loader supplied last, by the constructor if by no call. -/
def suppliedLast (keyLoader : KeyLoader) : List Call → KeyLoader
  | [] => keyLoader
  | .setKeyLoader keyloader :: calls => suppliedLast keyloader calls
  | _ :: calls => suppliedLast keyLoader calls

def Construction.suppliesChangeSet : Construction → Prop
  | .default => False
  | _ => True

def SuppliesChangeSet (construction : Construction) (calls : List Call) : Prop :=
  construction.suppliesChangeSet ∨
    ∃ changeSet, .setChangeSet changeSet ∈ calls ∧ encodeChangeSet changeSet ≠ none

/-- The hash is that of the change set handed out, and the signature over it is made with
the key loader. -/
structure Consistent (keyLoader : KeyLoader) (signed : SignedChangeSet) : Prop where
  hash : (encodeChangeSet signed.changeSet).map signing.generateHash = some signed.changeSetHash
  signed : (SignatureGenerator.ofLoader keyLoader).sign signing signed.changeSetHash =
    .ok signed.signature

def Loads (keyLoader : KeyLoader) (privateKey : PrivateKey) : Prop :=
  (SignatureGenerator.ofLoader keyLoader).privateKey signing = .ok privateKey

/-- The key loader is the one of the constructor and the hash that of the change set; what
is not made yet, the hash or a signature, is empty. -/
structure Sound (keyLoader : KeyLoader) (builder : SignedChangeSetBuilder) : Prop where
  loader : builder.keyLoader = keyLoader
  hash : ∀ changeSet, builder.changeSet = some changeSet →
    (encodeChangeSet changeSet).map signing.generateHash = some builder.changeSetHash
  noHash : builder.changeSet = none → builder.changeSetHash = []
  signature : builder.signature = [] ∨ ∃ privateKey, Loads signing keyLoader privateKey

def Signed (builder : SignedChangeSetBuilder) : Prop :=
  (SignatureGenerator.ofLoader builder.keyLoader).sign signing builder.changeSetHash =
    .ok builder.signature

inductive Step (call : Call) (builder : SignedChangeSetBuilder) : SignedChangeSetBuilder → Prop
  | kept (hcall : ∀ changeSet, call = .setChangeSet changeSet → encodeChangeSet changeSet = none) :
      Step call builder builder
  | changeSet (changeSet : ChangeSet) (bytes : Bytes) (hcall : call = .setChangeSet changeSet)
      (hbytes : encodeChangeSet changeSet = some bytes) :
      Step call builder
        { builder with changeSet := some changeSet, changeSetHash := signing.generateHash bytes }
  | signed (signature : Bytes) (hcall : call = .sign)
      (hsign : (SignatureGenerator.ofLoader builder.keyLoader).sign signing builder.changeSetHash =
        .ok signature) :
      Step call builder { builder with signature := signature }

variable {signing encodeChangeSet}

theorem hashChangeSet_eq_ok {changeSet : ChangeSet} {hash : Hash}
    (h : hashChangeSet signing encodeChangeSet changeSet = .ok hash) :
    ∃ bytes, encodeChangeSet changeSet = some bytes ∧ hash = signing.generateHash bytes := by
  rw [hashChangeSet] at h
  split at h
  · rename_i bytes hbytes
    exact ⟨bytes, hbytes, (Except.ok.inj h).symm⟩
  · cases h

theorem sign_of_loads {keyLoader : KeyLoader} {privateKey : PrivateKey}
    (h : Loads signing keyLoader privateKey) (value : Bytes) :
    (SignatureGenerator.ofLoader keyLoader).sign signing value =
      .ok (signing.signMessage privateKey value) := by
  rw [SignatureGenerator.sign, bind_ok h]
  rfl

theorem loads_of_sign {keyLoader : KeyLoader} {value signature : Bytes}
    (h : (SignatureGenerator.ofLoader keyLoader).sign signing value = .ok signature) :
    ∃ privateKey, Loads signing keyLoader privateKey ∧
      signature = signing.signMessage privateKey value := by
  obtain ⟨privateKey, hkey, hresult⟩ := bind_eq_ok.mp h
  exact ⟨privateKey, hkey, (Except.ok.inj hresult).symm⟩

theorem step_spec (call : Call) (builder : SignedChangeSetBuilder) :
    Step signing encodeChangeSet call builder (step signing encodeChangeSet call builder) := by
  cases call with
  | setChangeSet changeSet =>
    cases hbytes : encodeChangeSet changeSet with
    | none =>
      have hstep : step signing encodeChangeSet (.setChangeSet changeSet) builder = builder := by
        simp [step, perform, setChangeSet, hashChangeSet, hbytes, bind, Except.bind]
      rw [hstep]
      refine .kept ?_
      intro other hother
      rwa [← Call.setChangeSet.inj hother]
    | some bytes =>
      have hstep : step signing encodeChangeSet (.setChangeSet changeSet) builder =
          { builder with
            changeSet := some changeSet
            changeSetHash := signing.generateHash bytes } := by
        simp [step, perform, setChangeSet, hashChangeSet, hbytes, bind, Except.bind, pure,
          Except.pure]
      rw [hstep]
      exact .changeSet changeSet bytes rfl hbytes
  | setKeyLoader keyloader => exact .kept (fun _ h => nomatch h)
  | sign =>
    cases hsign : builder.sign signing with
    | error e =>
      have hstep : step signing encodeChangeSet .sign builder = builder := by
        rw [step, perform, hsign]
      rw [hstep]
      exact .kept (fun _ h => nomatch h)
    | ok signed =>
      have hstep : step signing encodeChangeSet .sign builder = signed := by
        rw [step, perform, hsign]
      obtain ⟨signature, hsignature, hresult⟩ := bind_eq_ok.mp hsign
      obtain rfl := Except.ok.inj hresult
      rw [hstep]
      exact .signed signature rfl (mapError_eq_ok.mp hsignature)

/-- A builder that is constructed with a change set. -/
theorem sound_hashed {changeSet : ChangeSet} {hash : Hash} (keyLoader : KeyLoader)
    (h : hashChangeSet signing encodeChangeSet changeSet = .ok hash) :
    Sound signing encodeChangeSet keyLoader ⟨keyLoader, some changeSet, hash, []⟩ := by
  obtain ⟨bytes, hbytes, rfl⟩ := hashChangeSet_eq_ok h
  refine ⟨rfl, ?_, fun hnone => (nomatch hnone), Or.inl rfl⟩
  intro stored hstored
  rw [← Option.some.inj hstored, hbytes]
  rfl

theorem sound_construct {construction : Construction} {builder : SignedChangeSetBuilder}
    (h : construct signing encodeChangeSet construction = .ok builder) :
    Sound signing encodeChangeSet construction.keyLoader builder := by
  cases construction with
  | default =>
    obtain rfl := Except.ok.inj h
    exact ⟨rfl, fun _ hsome => (nomatch hsome), fun _ => rfl, Or.inl rfl⟩
  | changeSet changeSet =>
    obtain ⟨hash, hhash, hresult⟩ := bind_eq_ok.mp h
    obtain rfl := Except.ok.inj hresult
    exact sound_hashed KeyLoader.new hhash
  | changeSetAndKeyLoader changeSet keyLoader =>
    obtain ⟨hash, hhash, hresult⟩ := bind_eq_ok.mp h
    obtain rfl := Except.ok.inj hresult
    exact sound_hashed keyLoader hhash

theorem sound_step {keyLoader : KeyLoader} (call : Call) (builder : SignedChangeSetBuilder)
    (h : Sound signing encodeChangeSet keyLoader builder) :
    Sound signing encodeChangeSet keyLoader (step signing encodeChangeSet call builder) := by
  have hstep := @step_spec _ signing encodeChangeSet call builder
  generalize step signing encodeChangeSet call builder = next at hstep
  cases hstep with
  | kept _ => exact h
  | changeSet changeSet bytes _ hbytes =>
    refine ⟨h.loader, ?_, fun hnone => (nomatch hnone), h.signature⟩
    intro stored hstored
    rw [← Option.some.inj hstored, hbytes]
    rfl
  | signed signature _ hsign =>
    rw [h.loader] at hsign
    obtain ⟨privateKey, hkey, _⟩ := loads_of_sign hsign
    exact ⟨h.loader, h.hash, h.noHash, Or.inr ⟨privateKey, hkey⟩⟩

theorem sound_run {construction : Construction} {builder : SignedChangeSetBuilder}
    (h : construct signing encodeChangeSet construction = .ok builder) (calls : List Call) :
    Sound signing encodeChangeSet construction.keyLoader
      (run (step signing encodeChangeSet) builder calls) :=
  run_keeps _ sound_step (sound_construct h) calls

/-- With a key to sign with, a `sign` leaves the signature over the hash. -/
theorem signed_sign {keyLoader : KeyLoader} {privateKey : PrivateKey}
    {builder : SignedChangeSetBuilder} (h : Sound signing encodeChangeSet keyLoader builder)
    (hkey : Loads signing keyLoader privateKey) :
    Signed signing (step signing encodeChangeSet .sign builder) := by
  have hsign := sign_of_loads hkey builder.changeSetHash
  rw [← h.loader] at hsign
  have hperform : builder.sign signing = .ok
      { builder with signature := signing.signMessage privateKey builder.changeSetHash } := by
    rw [SignedChangeSetBuilder.sign, bind_ok (mapError_eq_ok.mpr hsign)]
    rfl
  rw [step, perform, hperform]
  exact hsign

theorem signed_step {call : Call} {builder : SignedChangeSetBuilder}
    (h : Signed signing builder) (hcall : ¬ Changes encodeChangeSet call) :
    Signed signing (step signing encodeChangeSet call builder) := by
  have hstep := @step_spec _ signing encodeChangeSet call builder
  generalize step signing encodeChangeSet call builder = next at hstep
  cases hstep with
  | kept _ => exact h
  | changeSet changeSet bytes hchange hbytes =>
    subst hchange
    refine absurd ?_ hcall
    rw [Changes, hbytes]
    exact Option.some_ne_none bytes
  | signed signature _ hsign => exact hsign

theorem signed_run {calls : List Call} {builder : SignedChangeSetBuilder}
    (h : Signed signing builder) (hcalls : ∀ call ∈ calls, ¬ Changes encodeChangeSet call) :
    Signed signing (run (step signing encodeChangeSet) builder calls) := by
  induction calls generalizing builder with
  | nil => exact h
  | cons call calls ih =>
    have hnext := signed_step h (hcalls call List.mem_cons_self)
    exact ih hnext (fun other hother => hcalls other (List.mem_cons_of_mem call hother))

/-- There is a change set after a call if there was one, or if the call sets one. -/
theorem changeSet_step (call : Call) (builder : SignedChangeSetBuilder) :
    (step signing encodeChangeSet call builder).changeSet ≠ none ↔
      builder.changeSet ≠ none ∨
        ∃ changeSet, call = .setChangeSet changeSet ∧ encodeChangeSet changeSet ≠ none := by
  have hstep := @step_spec _ signing encodeChangeSet call builder
  generalize step signing encodeChangeSet call builder = next at hstep
  cases hstep with
  | kept hcall =>
    refine (or_iff_left ?_).symm
    intro hset
    obtain ⟨changeSet, heq, hbytes⟩ := hset
    exact hbytes (hcall changeSet heq)
  | changeSet changeSet bytes hcall hbytes =>
    refine iff_of_true (Option.some_ne_none changeSet) (Or.inr ⟨changeSet, hcall, ?_⟩)
    rw [hbytes]
    exact Option.some_ne_none bytes
  | signed signature hcall _ =>
    subst hcall
    exact (or_iff_left (fun hset => nomatch hset)).symm

theorem changeSet_run (calls : List Call) (builder : SignedChangeSetBuilder) :
    (run (step signing encodeChangeSet) builder calls).changeSet ≠ none ↔
      builder.changeSet ≠ none ∨
        ∃ changeSet, .setChangeSet changeSet ∈ calls ∧ encodeChangeSet changeSet ≠ none := by
  induction calls generalizing builder with
  | nil => simp [run]
  | cons call calls ih =>
    rw [run_cons, ih, changeSet_step, or_assoc]
    refine or_congr_right ?_
    constructor
    · intro h
      rcases h with ⟨changeSet, hcall, hbytes⟩ | ⟨changeSet, hmem, hbytes⟩
      · exact ⟨changeSet, hcall ▸ List.mem_cons_self, hbytes⟩
      · exact ⟨changeSet, List.mem_cons_of_mem call hmem, hbytes⟩
    · intro h
      obtain ⟨changeSet, hmem, hbytes⟩ := h
      rcases List.mem_cons.mp hmem with hcall | hmem
      · exact Or.inl ⟨changeSet, hcall.symm, hbytes⟩
      · exact Or.inr ⟨changeSet, hmem, hbytes⟩

theorem changeSet_construct {construction : Construction} {builder : SignedChangeSetBuilder}
    (h : construct signing encodeChangeSet construction = .ok builder) :
    builder.changeSet ≠ none ↔ construction.suppliesChangeSet := by
  cases construction with
  | default =>
    obtain rfl := Except.ok.inj h
    exact iff_of_false (fun hset => hset rfl) id
  | changeSet changeSet =>
    obtain ⟨hash, _, hresult⟩ := bind_eq_ok.mp h
    obtain rfl := Except.ok.inj hresult
    exact iff_of_true (Option.some_ne_none changeSet) trivial
  | changeSetAndKeyLoader changeSet keyLoader =>
    obtain ⟨hash, _, hresult⟩ := bind_eq_ok.mp h
    obtain rfl := Except.ok.inj hresult
    exact iff_of_true (Option.some_ne_none changeSet) trivial

/-- The builder carries a change set when one is supplied. -/
theorem supplied {construction : Construction} {builder : SignedChangeSetBuilder}
    (h : construct signing encodeChangeSet construction = .ok builder) (calls : List Call) :
    (run (step signing encodeChangeSet) builder calls).changeSet ≠ none ↔
      SuppliesChangeSet encodeChangeSet construction calls := by
  rw [changeSet_run, changeSet_construct h]
  exact Iff.rfl

/-- Behind the last `sign` the signature is that of the hash with the key of the
constructor's loader, if it loads one. -/
theorem signature_run {construction : Construction} {builder : SignedChangeSetBuilder}
    (h : construct signing encodeChangeSet construction = .ok builder) {own : PrivateKey}
    (hown : Loads signing construction.keyLoader own) (before rest : List Call)
    (hrest : ∀ call ∈ rest, ¬ Changes encodeChangeSet call) :
    signing.signMessage own
        (run (step signing encodeChangeSet) builder (before ++ .sign :: rest)).changeSetHash =
      (run (step signing encodeChangeSet) builder (before ++ .sign :: rest)).signature := by
  have hloader := (sound_run h (before ++ .sign :: rest)).loader
  have hsigned := signed_run (signed_sign (sound_run h before) hown) hrest
  rw [← run_cons, ← run_append, Signed, hloader, sign_of_loads hown] at hsigned
  exact Except.ok.inj hsigned

/-- When a `sign` follows the last change of content or key and the key loader supplied
last loads a key, what is handed out is consistent if a change set is supplied and the
loader of the constructor loads the same key. It is not otherwise, if hashes and
signatures are never empty and signatures tell keys apart. -/
theorem supplied_key_exact (signing : Signing PrivateKey)
    (encodeChangeSet : ChangeSet → Option Bytes) (construction : Construction)
    (builder : SignedChangeSetBuilder)
    (hconstruct : construct signing encodeChangeSet construction = .ok builder)
    (before rest : List Call) (hrest : ∀ call ∈ rest, ¬ Changes encodeChangeSet call)
    (privateKey : PrivateKey)
    (hkey : Loads signing (suppliedLast construction.keyLoader (before ++ .sign :: rest))
      privateKey) :
    (SuppliesChangeSet encodeChangeSet construction (before ++ .sign :: rest) ∧
        Loads signing construction.keyLoader privateKey →
      Consistent signing encodeChangeSet
        (suppliedLast construction.keyLoader (before ++ .sign :: rest))
        (run (step signing encodeChangeSet) builder
          (before ++ .sign :: rest)).toSignedChangeSet) ∧
    ((∀ bytes, signing.generateHash bytes ≠ []) →
      (∀ key value, signing.signMessage key value ≠ []) →
      (∀ key other value, signing.signMessage key value = signing.signMessage other value →
        key = other) →
      Consistent signing encodeChangeSet
        (suppliedLast construction.keyLoader (before ++ .sign :: rest))
        (run (step signing encodeChangeSet) builder
          (before ++ .sign :: rest)).toSignedChangeSet →
      SuppliesChangeSet encodeChangeSet construction (before ++ .sign :: rest) ∧
        Loads signing construction.keyLoader privateKey) := by
  have hsound := sound_run hconstruct (before ++ .sign :: rest)
  have hsupplied := supplied hconstruct (before ++ .sign :: rest)
  constructor
  · intro ⟨hset, hown⟩
    obtain ⟨changeSet, hchangeSet⟩ := Option.ne_none_iff_exists'.mp (hsupplied.mpr hset)
    refine ⟨?_, ?_⟩
    · rw [toSignedChangeSet, hchangeSet]
      exact hsound.hash changeSet hchangeSet
    · rw [sign_of_loads hkey]
      exact congrArg Except.ok (signature_run hconstruct hown before rest hrest)
  · intro hhash hsign hkeys hconsistent
    constructor
    · -- without a change set the hash is the empty one of the cleared record
      refine hsupplied.mp ?_
      intro hnone
      obtain ⟨bytes, _, hbytes⟩ := Option.map_eq_some_iff.mp hconsistent.hash
      exact hhash bytes (hbytes.trans (hsound.noHash hnone))
    · have hmade := hconsistent.signed
      rw [sign_of_loads hkey] at hmade
      have hsignature := Except.ok.inj hmade
      rcases hsound.signature with hempty | ⟨own, hown⟩
      · exact absurd (hsignature.trans hempty) (hsign _ _)
      · have hsame := (signature_run hconstruct hown before rest hrest).trans hsignature.symm
        rwa [← hkeys _ _ _ hsame]

/-- The builder is constructed with a key loader for a change set and given another one,
with which it does not sign. -/
theorem supplied_key_not_used :
    let changeSet : ChangeSet := ⟨[], [], .init, []⟩
    let calls : List Call := [.setKeyLoader (.ofPaths [2] [2]), .sign]
    ∃ builder, construct .plain (fun _ => some [5])
        (.changeSetAndKeyLoader changeSet (.ofPaths [1] [1])) = .ok builder ∧
      suppliedLast (.ofPaths [1] [1]) calls = .ofPaths [2] [2] ∧
      (run (step .plain fun _ => some [5]) builder calls).toSignedChangeSet =
        ⟨changeSet, [5], [1, 5]⟩ ∧
      ¬ Consistent .plain (fun _ => some [5]) (suppliedLast (.ofPaths [1] [1]) calls)
        (run (step .plain fun _ => some [5]) builder calls).toSignedChangeSet := by
  refine ⟨⟨.ofPaths [1] [1], some ⟨[], [], .init, []⟩, [5], []⟩, rfl, rfl, rfl, ?_⟩
  intro h
  have hsigned : SignatureGenerator.sign .plain (.ofLoader (.ofPaths [2] [2])) [5] = .ok [1, 5] :=
    h.signed
  revert hsigned
  decide

def tagged : Signing Bytes :=
  ⟨some, some, fun privateKey value => 1 :: (privateKey ++ value), fun bytes => 0 :: bytes⟩

/-- Another change set is set after the constructor, and signed with its key loader. -/
theorem supplied_key_exact_tagged :
    Consistent tagged (fun changeSet => some changeSet.accountHash) (.ofPaths [1] [1])
        ⟨⟨[], [8], .init, []⟩, [0, 8], [1, 1, 0, 8]⟩ ∧
      Loads tagged (.ofPaths [1] [1]) [1] := by
  have h := supplied_key_exact tagged (fun changeSet => some changeSet.accountHash)
    (.changeSetAndKeyLoader ⟨[], [7], .init, []⟩ (.ofPaths [1] [1]))
    ⟨.ofPaths [1] [1], some ⟨[], [7], .init, []⟩, [0, 7], []⟩ rfl
    [.setChangeSet ⟨[], [8], .init, []⟩] [] (fun _ h => nomatch h) [1] rfl
  have hconsistent := h.1 ⟨Or.inl trivial, rfl⟩
  refine ⟨hconsistent, (h.2 ?_ ?_ ?_ hconsistent).2⟩
  · exact fun bytes => List.cons_ne_nil 0 bytes
  · exact fun key value => List.cons_ne_nil 1 (key ++ value)
  · intro key other value hsame
    exact List.append_cancel_right (List.cons.inj hsame).2

end SignedChangeSetBuilder

end Keto.TransactionCommon
