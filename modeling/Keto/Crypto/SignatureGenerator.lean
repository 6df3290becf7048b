import Keto.Library.Fallible
import Keto.Protocol

/-!
Signatures, made with the key of a key loader or with a key given by its bytes,
and what the loading of private keys and the signing take from the crypto library.
-/
namespace Keto.Crypto

open Protocol Library.Fallible

inductive CryptoException
  | privateKeyNotConfigured
  | keyNotLoaded
  deriving DecidableEq, Repr

/-- A loader without paths is not initialized; the paths are those found below the
install directory. -/
structure KeyLoader where
  initialized : Bool
  privateKeyPath : Bytes
  publicKeyPath : Bytes
  deriving DecidableEq, Repr

structure Signing (PrivateKey : Type) where
  loadKeyFile : Bytes → Option PrivateKey
  loadKey : Bytes → Option PrivateKey
  signMessage : PrivateKey → Bytes → Bytes
  generateHash : Bytes → Hash

def Signing.plain : Signing Bytes := ⟨some, some, fun privateKey value => privateKey ++ value, id⟩

variable {PrivateKey : Type} (signing : Signing PrivateKey)

namespace KeyLoader

def new : KeyLoader := ⟨false, [], []⟩

def ofPaths (privateKeyPath publicKeyPath : Bytes) : KeyLoader :=
  ⟨true, privateKeyPath, publicKeyPath⟩

def getPrivateKey (loader : KeyLoader) : Except CryptoException PrivateKey :=
  if loader.privateKeyPath.isEmpty then .error .privateKeyNotConfigured
  else match signing.loadKeyFile loader.privateKeyPath with
    | some privateKey => .ok privateKey
    | none => .error .keyNotLoaded

end KeyLoader

structure SignatureGenerator where
  key : Bytes
  loader : KeyLoader
  deriving DecidableEq, Repr

namespace SignatureGenerator

def ofKey (key : Bytes) : SignatureGenerator := ⟨key, KeyLoader.new⟩

def ofLoader (loader : KeyLoader) : SignatureGenerator := ⟨[], loader⟩

def privateKey (generator : SignatureGenerator) : Except CryptoException PrivateKey :=
  if generator.loader.initialized then generator.loader.getPrivateKey signing
  else match signing.loadKey generator.key with
    | some privateKey => .ok privateKey
    | none => .error .keyNotLoaded

def sign (generator : SignatureGenerator) (value : Bytes) : Except CryptoException Bytes := do
  let privateKey ← generator.privateKey signing
  return signing.signMessage privateKey value

end SignatureGenerator

end Keto.Crypto
