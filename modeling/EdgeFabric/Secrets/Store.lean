/-
Encrypted secrets (`internal/crypto`, `internal/secrets`). A text is a nonce and what is
sealed under it, in base64. A store with a ring of keys puts a byte in front that says
which key it was; a store without one does not, and both kinds of text are about.

Plaintexts are bytes and encrypted values are characters. What `rand.Reader` gives for a
nonce is a parameter; it may fail.
-/
import EdgeFabric.Lib.Base64
import EdgeFabric.Lib.Gcm

namespace EdgeFabric

namespace Crypto
variable (g : Gcm)

def newCipher (key : List UInt8) : Except String Unit :=
  if key.length = 16 ∨ key.length = 24 ∨ key.length = 32 then .ok ()
  else .error ("create cipher: crypto/aes: invalid key size " ++ toString key.length)

/-- `gcm.Seal` under a fresh nonce, which comes first. -/
def sealFresh (rand : Except String Nonce) (key plaintext : List UInt8) : Except String (List UInt8) := do
  newCipher key
  let nonce ← rand.mapError ("generate nonce: " ++ ·)
  return g.made key nonce plaintext

def encryptAESGCM (rand : Except String Nonce) (key plaintext : List UInt8) : Except String (List Char) :=
  (sealFresh g rand key plaintext).map Base64.encodeStd

def versionedEncryptAESGCM (rand : Except String Nonce) (keyVersion : UInt8) (key plaintext : List UInt8) :
    Except String (List Char) :=
  (sealFresh g rand key plaintext).map fun ciphertext => Base64.encodeStd (keyVersion :: ciphertext)

def decodeText (encoded : List Char) : Except String (List UInt8) :=
  match Base64.decodeStd encoded with
  | some bs => .ok bs
  | none => .error "decode ciphertext: illegal base64 data"

def decryptAESGCM (key : List UInt8) (encoded : List Char) : Except String (List UInt8) := do
  let ciphertext ← decodeText encoded
  newCipher key
  if ciphertext.length < 12 then .error "ciphertext too short"
  else
    match g.openText key ciphertext with
    | some plaintext => return plaintext
    | none => .error "decrypt: cipher: message authentication failed"

/-- `ExtractKeyVersion`: the first byte, unless it is zero. -/
def extractKeyVersion (encoded : List Char) : Option UInt8 :=
  match Base64.decodeStd encoded with
  | some (b :: _) => if b = 0 then none else some b
  | _ => none

def decryptVersionedAESGCM (key : List UInt8) (encoded : List Char) : Except String (List UInt8) := do
  let ciphertext ← decodeText encoded
  if ciphertext.length < 2 then .error "versioned ciphertext too short"
  else decryptAESGCM g key (Base64.encodeStd ciphertext.tail)

end Crypto

namespace Secrets

structure VersionedKey where
  version : UInt8
  key : List UInt8
  deriving DecidableEq, Repr

/-- `secrets.Store`. Version 0 and an empty ring are the store without versions. -/
structure Store where
  key : List UInt8
  version : UInt8
  ring : List VersionedKey
  deriving DecidableEq, Repr

def newStore (encodedKey : List Char) : Except String Store :=
  match Base64.decodeStd encodedKey with
  | none => .error "decode encryption key: illegal base64 data"
  | some key =>
    if key.length = 32 then .ok { key, version := 0, ring := [] }
    else .error ("encryption key must be 32 bytes, got " ++ toString key.length)

/-- The checks on the keys of a ring, from number `i` on. -/
def checkKeys : Nat → List VersionedKey → Except String Unit
  | _, [] => .ok ()
  | i, k :: ks =>
    if k.key.length ≠ 32 then .error ("key " ++ toString i ++ ": must be 32 bytes, got " ++ toString k.key.length)
    else if k.version = 0 then .error ("key " ++ toString i ++ ": version must be >= 1")
    else checkKeys (i + 1) ks

/-- `NewVersionedStore`. The first key is the primary one. -/
def newVersionedStore : List VersionedKey → Except String Store
  | [] => .error "at least one key is required"
  | primary :: others => do
    checkKeys 0 (primary :: others)
    return { key := primary.key, version := primary.version, ring := primary :: others }

namespace Store
variable (g : Gcm) (s : Store)

def encrypt (rand : Except String Nonce) (plaintext : List UInt8) : Except String (List Char) :=
  if 0 < s.version then Crypto.versionedEncryptAESGCM g rand s.version s.key plaintext
  else Crypto.encryptAESGCM g rand s.key plaintext

/-- The attempt with the first key of the ring that has the version of the text. -/
def decryptVersioned (encrypted : List Char) : Option (List UInt8) := do
  let version ← Crypto.extractKeyVersion encrypted
  let k ← s.ring.find? (·.version = version)
  (Crypto.decryptVersionedAESGCM g k.key encrypted).toOption

/-- `Decrypt`. Text without a version is tried with the primary key only. -/
def decrypt (encrypted : List Char) : Except String (List UInt8) :=
  match s.decryptVersioned g encrypted with
  | some plaintext => .ok plaintext
  | none => Crypto.decryptAESGCM g s.key encrypted

/-- `ReEncrypt`: the new text, and whether there is one. -/
def reEncrypt (rand : Except String Nonce) (encrypted : List Char) : Except String (List Char × Bool) :=
  if 0 < s.version ∧ Crypto.extractKeyVersion encrypted = some s.version then .ok (encrypted, false)
  else do
    let plaintext ← (s.decrypt g encrypted).mapError ("decrypt for re-encryption: " ++ ·)
    let newCiphertext ← (s.encrypt g rand plaintext).mapError ("re-encrypt: " ++ ·)
    return (newCiphertext, true)

end Store

/-! ## The stores that can be made -/

theorem checkKeys_ok {i : Nat} {keys : List VersionedKey} :
    checkKeys i keys = .ok () ↔ ∀ k ∈ keys, k.key.length = 32 ∧ k.version ≠ 0 := by
  induction keys generalizing i with
  | nil => simp [checkKeys]
  | cons k ks ih =>
    rw [checkKeys]
    split
    · next hlen => simp [hlen]
    · next hlen =>
      split
      · next hversion => simp [hversion]
      · next hversion => simp [ih, not_not.mp hlen, hversion]

theorem newVersionedStore_ok {keys : List VersionedKey} {s : Store} :
    newVersionedStore keys = .ok s ↔ (∃ primary, keys.head? = some primary ∧ s.key = primary.key ∧
      s.version = primary.version) ∧ s.ring = keys ∧ ∀ k ∈ keys, k.key.length = 32 ∧ k.version ≠ 0 := by
  cases keys with
  | nil => simp [newVersionedStore]
  | cons primary others =>
    rw [newVersionedStore]
    constructor
    · intro h
      cases hc : checkKeys 0 (primary :: others) with
      | error e =>
        rw [hc] at h
        cases h
      | ok u =>
        rw [hc] at h
        cases h
        exact ⟨⟨primary, rfl, rfl, rfl⟩, rfl, checkKeys_ok.mp hc⟩
    · rintro ⟨⟨k, hk, hkey, hversion⟩, hring, hall⟩
      cases hk
      rw [checkKeys_ok.mpr hall]
      cases s
      cases hkey
      cases hversion
      cases hring
      rfl

theorem newStore_ok {encodedKey : List Char} {s : Store} (h : newStore encodedKey = .ok s) :
    s.key.length = 32 ∧ s.version = 0 ∧ s.ring = [] := by
  unfold newStore at h
  split at h
  · cases h
  · split at h
    · next hlen =>
      cases h
      exact ⟨hlen, rfl, rfl⟩
    · cases h

end Secrets

end EdgeFabric
