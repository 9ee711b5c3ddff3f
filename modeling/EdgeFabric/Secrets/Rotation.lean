/-
What a rotation of keys does to secrets that are stored already.

* `legacy_readable_iff`: text without a version is readable with the primary key only, so
  that it is lost when its key is rotated out of that place, though it stays in the ring
  (`rotated_legacy_unreadable`).
* `versioned_survives`: text with a version is readable as long as its key is in the ring.
* `reEncrypt_completes`: re-encryption leaves text under the primary key, but for text
  without a version whose nonce begins with the primary version, which is taken for new
  (`legacy_taken_for_new`).
-/
import EdgeFabric.Secrets.Store
import Mathlib.Data.List.Nodup

namespace EdgeFabric
namespace Secrets

section
variable (g : Gcm)

def legacyText (key : List UInt8) (nonce : Nonce) (plaintext : List UInt8) : List Char :=
  Base64.encodeStd (g.made key nonce plaintext)

def versionedText (version : UInt8) (key : List UInt8) (nonce : Nonce) (plaintext : List UInt8) : List Char :=
  Base64.encodeStd (version :: g.made key nonce plaintext)

end

/-! ## What the functions make of a text -/

section
variable {g : Gcm} {version : UInt8} {key key' p p' : List UInt8} {n : Nonce} {text : List Char}
    {rand : Except String Nonce}

open Crypto

theorem newCipher_ok (h : key.length = 32) : newCipher key = .ok () := if_pos (.inr (.inr h))

theorem sealFresh_eq (h : key.length = 32) :
    sealFresh g rand key p = (rand.mapError ("generate nonce: " ++ ·)).map fun n => g.made key n p := by
  rw [sealFresh, newCipher_ok h]
  cases rand with
  | error e => rfl
  | ok n => rfl

theorem encryptAESGCM_ok (hkey : key.length = 32) (h : encryptAESGCM g rand key p = .ok text) :
    ∃ n, text = legacyText g key n p := by
  rw [encryptAESGCM, sealFresh_eq hkey] at h
  cases rand with
  | error e => cases h
  | ok n =>
    cases h
    exact ⟨n, rfl⟩

theorem versionedEncryptAESGCM_ok (hkey : key.length = 32)
    (h : versionedEncryptAESGCM g rand version key p = .ok text) : ∃ n, text = versionedText g version key n p := by
  rw [versionedEncryptAESGCM, sealFresh_eq hkey] at h
  cases rand with
  | error e => cases h
  | ok n =>
    cases h
    exact ⟨n, rfl⟩

theorem decodeText_encodeStd (bs : List UInt8) : decodeText (Base64.encodeStd bs) = .ok bs := by
  rw [decodeText, Base64.decodeStd_encodeStd]

theorem decryptAESGCM_encodeStd {T : List UInt8} (hkey : key.length = 32) :
    (decryptAESGCM g key (Base64.encodeStd T)).toOption = g.openText key T := by
  rw [decryptAESGCM, decodeText_encodeStd, newCipher_ok hkey]
  dsimp only [bind, Except.bind]
  split
  · next hshort =>
    rw [Gcm.openText, dif_neg (by omega)]
    rfl
  · cases g.openText key T with
    | none => rfl
    | some p => rfl

theorem decryptVersionedAESGCM_encodeStd {b : UInt8} {T : List UInt8} (hkey : key.length = 32) (hT : T ≠ []) :
    (decryptVersionedAESGCM g key (Base64.encodeStd (b :: T))).toOption = g.openText key T := by
  have hlen : ¬ (b :: T).length < 2 := by
    have := List.length_pos_iff.mpr hT
    rw [List.length_cons]
    omega
  rw [decryptVersionedAESGCM, decodeText_encodeStd]
  dsimp only [bind, Except.bind]
  rw [if_neg hlen]
  exact decryptAESGCM_encodeStd hkey

theorem extractKeyVersion_encodeStd {b : UInt8} {T : List UInt8} :
    extractKeyVersion (Base64.encodeStd (b :: T)) = if b = 0 then none else some b := by
  rw [extractKeyVersion, Base64.decodeStd_encodeStd]

end

theorem versionedText_ne_legacyText {g : Gcm} (hg : g.Ideal) {version : UInt8} {key key' p p' : List UInt8}
    {n n' : Nonce} : versionedText g version key n p ≠ legacyText g key' n' p' := by
  intro h
  have hbytes := congrArg Base64.decodeStd h
  rw [versionedText, legacyText, Base64.decodeStd_encodeStd, Base64.decodeStd_encodeStd] at hbytes
  exact hg.not_shifted (Option.some.inj hbytes).symm

/-! ## What a store makes of a text -/

section
variable {g : Gcm} (hg : g.Ideal) {keys : List VersionedKey} {s : Store} (hs : newVersionedStore keys = .ok s)
  {version : UInt8} {key p : List UInt8} {n : Nonce}

open Crypto

include hs in
theorem key_length : s.key.length = 32 := by
  obtain ⟨⟨primary, hhead, hkey, -⟩, -, hall⟩ := newVersionedStore_ok.mp hs
  rw [hkey]
  exact (hall primary (List.mem_of_mem_head? hhead)).1

include hs in
theorem version_pos : s.version ≠ 0 := by
  obtain ⟨⟨primary, hhead, -, hversion⟩, -, hall⟩ := newVersionedStore_ok.mp hs
  rw [hversion]
  exact (hall primary (List.mem_of_mem_head? hhead)).2

theorem made_ne_nil (key : List UInt8) (n : Nonce) (p : List UInt8) : g.made key n p ≠ [] := by
  intro h
  have hlen := congrArg List.length h
  rw [Gcm.made, List.length_append, n.2, List.length_nil] at hlen
  omega

theorem decryptVersioned_encodeStd (hs : newVersionedStore keys = .ok s) {b : UInt8} {T : List UInt8} (hT : T ≠ []) :
    s.decryptVersioned g (Base64.encodeStd (b :: T)) =
      if b = 0 then none else (keys.find? (·.version = b)).bind fun k => g.openText k.key T := by
  obtain ⟨-, hring, hall⟩ := newVersionedStore_ok.mp hs
  rw [Store.decryptVersioned, extractKeyVersion_encodeStd, hring]
  split
  · rfl
  · show (keys.find? (·.version = b)).bind (fun k => (decryptVersionedAESGCM g k.key _).toOption) = _
    cases hk : keys.find? (·.version = b) with
    | none => rfl
    | some k => exact decryptVersionedAESGCM_encodeStd (hall k (List.mem_of_find?_eq_some hk)).1 hT

include hg hs

theorem decryptVersioned_legacyText : s.decryptVersioned g (legacyText g key n p) = none := by
  cases hm : g.made key n p with
  | nil => exact absurd hm (made_ne_nil key n p)
  | cons b T =>
    have htail : ∀ k, g.openText k T = none := by
      intro k
      have hnone : g.openText k (g.made key n p).tail = none := hg.openText_tail
      rwa [hm] at hnone
    have hT : T ≠ [] := by
      rintro rfl
      have hlen := congrArg List.length hm
      rw [Gcm.made, List.length_append, n.2, List.length_singleton] at hlen
      omega
    rw [legacyText, hm, decryptVersioned_encodeStd hs hT]
    split
    · rfl
    · simp [htail]

theorem decrypt_legacyText : (s.decrypt g (legacyText g key n p)).toOption = if key = s.key then some p else none := by
  rw [Store.decrypt, decryptVersioned_legacyText hg hs]
  show (decryptAESGCM g s.key (legacyText g key n p)).toOption = _
  rw [legacyText, decryptAESGCM_encodeStd (key_length hs)]
  split
  · next hkey =>
    subst hkey
    exact Gcm.openText_made
  · next hkey =>
    cases h : g.openText s.key (g.made key n p) with
    | none => rfl
    | some q => exact absurd (hg.openText_made_eq_some h).1.symm hkey

theorem decrypt_versionedText (hversion : version ≠ 0) :
    (s.decrypt g (versionedText g version key n p)).toOption =
      if (keys.find? (·.version = version)).any (·.key = key) then some p else none := by
  have hlegacy : (decryptAESGCM g s.key (versionedText g version key n p)).toOption = none := by
    rw [versionedText, decryptAESGCM_encodeStd (key_length hs), hg.openText_cons]
  have hattempt : s.decryptVersioned g (versionedText g version key n p) =
      if (keys.find? (·.version = version)).any (·.key = key) then some p else none := by
    rw [versionedText, decryptVersioned_encodeStd hs (made_ne_nil key n p), if_neg hversion]
    cases keys.find? (·.version = version) with
    | none => rfl
    | some k =>
      rw [Option.bind_some, Option.any_some]
      split
      · next hkey =>
        rw [of_decide_eq_true hkey]
        exact Gcm.openText_made
      · next hkey =>
        cases h : g.openText k.key (g.made key n p) with
        | none => rfl
        | some q => exact absurd (decide_eq_true (hg.openText_made_eq_some h).1) hkey
  rw [Store.decrypt, hattempt]
  split
  · next q hq => exact hq.symm
  · next hnone => exact hlegacy.trans hnone.symm

end

/-! ## After a rotation -/

section
variable {g : Gcm} {rand : Except String Nonce} {p : List UInt8} {text : List Char}

theorem Store.encrypt_legacy {encodedKey : List Char} {s : Store} (hs : newStore encodedKey = .ok s)
    (h : s.encrypt g rand p = .ok text) : ∃ n, text = legacyText g s.key n p := by
  obtain ⟨hlen, hversion, -⟩ := newStore_ok hs
  rw [Store.encrypt, hversion, if_neg (by decide)] at h
  exact encryptAESGCM_ok hlen h

theorem Store.encrypt_versioned {keys : List VersionedKey} {s : Store} (hs : newVersionedStore keys = .ok s)
    (h : s.encrypt g rand p = .ok text) : ∃ n, text = versionedText g s.version s.key n p := by
  rw [Store.encrypt, if_pos (UInt8.pos_iff_ne_zero.mpr (version_pos hs))] at h
  exact versionedEncryptAESGCM_ok (key_length hs) h

theorem toOption_eq_some {r : Except String (List UInt8)} : r.toOption = some p ↔ r = .ok p := by
  cases r <;> simp [Except.toOption]

end

/-! ## Samples -/

namespace Sample

def double (bs : List UInt8) : List UInt8 := bs.flatMap fun b => [b, b]

def halve : List UInt8 → List UInt8
  | b :: _ :: rest => b :: halve rest
  | _ => []

theorem halve_double (bs : List UInt8) : halve (double bs) = bs := by
  induction bs with
  | nil => rfl
  | cons b bs ih => exact congrArg (b :: ·) ih

theorem length_double (bs : List UInt8) : (double bs).length = 2 * bs.length := by
  induction bs with
  | nil => rfl
  | cons b bs ih =>
    show (double bs).length + 2 = _
    rw [ih, List.length_cons]
    omega

def payload (key p : List UInt8) : List UInt8 := List.replicate key.length 1 ++ 0 :: (key ++ p)

theorem drop_payload (key p : List UInt8) : (payload key p).drop (2 * key.length + 1) = p := by
  have hlen : (List.replicate key.length (1 : UInt8) ++ 0 :: key).length = 2 * key.length + 1 := by
    simp only [List.length_append, List.length_replicate, List.length_cons]
    omega
  rw [payload, ← List.cons_append, ← List.append_assoc, ← hlen]
  exact List.drop_left

theorem payload_key {key key' p p' : List UInt8} (h : payload key p = payload key' p') : key = key' := by
  have hlen : ∀ {a b : Nat} {x y : List UInt8}, List.replicate a 1 ++ 0 :: x = List.replicate b 1 ++ 0 :: y →
    a = b ∧ x = y := by
    intro a
    induction a with
    | zero =>
      intro b x y h
      cases b with
      | zero => exact ⟨rfl, (List.cons.inj h).2⟩
      | succ b => exact absurd (List.cons.inj h).1 (by decide)
    | succ a ih =>
      intro b x y h
      cases b with
      | zero => exact absurd (List.cons.inj h).1 (by decide)
      | succ b =>
        obtain ⟨rfl, hxy⟩ := ih (List.cons.inj h).2
        exact ⟨rfl, hxy⟩
  obtain ⟨hl, htail⟩ := hlen h
  exact (List.append_inj htail hl).1

/-- Sealing that hides nothing, but says which key it was. -/
def gcm : Gcm where
  encipher key _ p := double (payload key p)
  decipher key _ c :=
    let p := (halve c).drop (2 * key.length + 1)
    if c = double (payload key p) then some p else none
  decipher_encipher key _ p := by
    simp only [halve_double, drop_payload, if_true]

theorem gcm_ideal : gcm.Ideal where
  decipher_eq_some {key n c p} h := by
    simp only [gcm] at h
    split at h
    · next hc =>
      cases h
      exact hc
    · cases h
  key_eq {key key' n p p'} h := by
    have := congrArg halve h
    simp only [gcm, halve_double] at this
    exact payload_key this
  -- texts have an even number of bytes
  not_shifted {b key key' n n' p p'} h := by
    have hlen := congrArg List.length h
    simp only [Gcm.made, gcm, List.length_append, List.length_cons, length_double, n.2, n'.2] at hlen
    omega

def oldKey : List UInt8 := List.replicate 32 1
def newKey : List UInt8 := List.replicate 32 2
def nonce : Nonce := ⟨List.replicate 12 7, rfl⟩

def legacyStore : Store := { key := oldKey, version := 0, ring := [] }

theorem newStore_legacyStore : newStore (Base64.encodeStd oldKey) = .ok legacyStore := by
  rw [newStore, Base64.decodeStd_encodeStd]
  rfl

/-- The ring before the new key, with it, and after it has become the primary one. -/
def first : Store := { key := oldKey, version := 1, ring := [⟨1, oldKey⟩] }
def added : Store := { key := oldKey, version := 1, ring := [⟨1, oldKey⟩, ⟨7, newKey⟩] }
def rotated : Store := { key := newKey, version := 7, ring := [⟨7, newKey⟩, ⟨1, oldKey⟩] }

theorem newVersionedStore_first : newVersionedStore [⟨1, oldKey⟩] = .ok first := rfl
theorem newVersionedStore_added : newVersionedStore [⟨1, oldKey⟩, ⟨7, newKey⟩] = .ok added := rfl
theorem newVersionedStore_rotated : newVersionedStore [⟨7, newKey⟩, ⟨1, oldKey⟩] = .ok rotated := rfl

theorem legacyStore_encrypt (p : List UInt8) :
    legacyStore.encrypt gcm (.ok nonce) p = .ok (legacyText gcm oldKey nonce p) :=
  rfl

theorem first_encrypt (p : List UInt8) :
    first.encrypt gcm (.ok nonce) p = .ok (versionedText gcm 1 oldKey nonce p) := rfl

end Sample

/-- Text that a store without versions made is read by a store with versions, whatever its
nonce, if and only if its key is the primary one. -/
theorem legacy_readable_iff {g : Gcm} (hg : g.Ideal) {encodedKey : List Char} {old : Store}
    (hold : newStore encodedKey = .ok old) {rand : Except String Nonce} {p : List UInt8} {text : List Char}
    (htext : old.encrypt g rand p = .ok text) {keys : List VersionedKey} {s : Store}
    (hs : newVersionedStore keys = .ok s) : s.decrypt g text = .ok p ↔ old.key = s.key := by
  obtain ⟨n, rfl⟩ := Store.encrypt_legacy hold htext
  rw [← toOption_eq_some, decrypt_legacyText hg hs]
  split
  · next hkey => simp [hkey]
  · next hkey => simp [hkey]

theorem legacy_readable_iff_added :
    Sample.legacyStore.encrypt Sample.gcm (.ok Sample.nonce)
      [42] = .ok (legacyText Sample.gcm Sample.oldKey Sample.nonce [42]) ∧
      Sample.added.decrypt Sample.gcm (legacyText Sample.gcm Sample.oldKey Sample.nonce [42]) = .ok [42] :=
  ⟨rfl, (legacy_readable_iff Sample.gcm_ideal Sample.newStore_legacyStore (Sample.legacyStore_encrypt [42])
    Sample.newVersionedStore_added).mpr rfl⟩

/-- The key of the text is still in the ring, but not the primary one any more. -/
theorem rotated_legacy_unreadable :
    newVersionedStore [⟨7, Sample.newKey⟩, ⟨1, Sample.oldKey⟩] = .ok Sample.rotated ∧
      newStore (Base64.encodeStd Sample.oldKey) = .ok Sample.legacyStore ∧
      Sample.legacyStore.encrypt Sample.gcm (.ok Sample.nonce) [42] =
        .ok (legacyText Sample.gcm Sample.oldKey Sample.nonce [42]) ∧
      ∀ p, Sample.rotated.decrypt Sample.gcm (legacyText Sample.gcm Sample.oldKey Sample.nonce [42]) ≠ .ok p := by
  refine ⟨rfl, Sample.newStore_legacyStore, rfl, fun p h => ?_⟩
  rw [← toOption_eq_some, decrypt_legacyText Sample.gcm_ideal Sample.newVersionedStore_rotated, if_neg (by decide)] at h
  cases h

/-- Text that was made with the primary key of one store is read by every store that has the
key under that version, if its versions are distinct, and by no store as something else. -/
theorem versioned_survives {g : Gcm} (hg : g.Ideal) {keys₁ keys₂ : List VersionedKey} {s₁ s₂ : Store}
    (h₁ : newVersionedStore keys₁ = .ok s₁) (h₂ : newVersionedStore keys₂ = .ok s₂) {k : VersionedKey}
    (hprimary : keys₁.head? = some k) (hk : k ∈ keys₂) (hdistinct : (keys₂.map VersionedKey.version).Nodup)
    {rand : Except String Nonce} {p : List UInt8} {text : List Char} (htext : s₁.encrypt g rand p = .ok text) :
    s₂.decrypt g text = .ok p ∧
      ∀ keys s, newVersionedStore keys = .ok s → ∀ q, s.decrypt g text = .ok q → q = p := by
  obtain ⟨n, rfl⟩ := Store.encrypt_versioned h₁ htext
  have hversion := version_pos h₁
  obtain ⟨⟨primary, hhead, hkey, hver⟩, -, -⟩ := newVersionedStore_ok.mp h₁
  obtain rfl : primary = k := Option.some.inj (hhead.symm.trans hprimary)
  constructor
  · have hfind : keys₂.find? (·.version = s₁.version) = some primary := by
      cases hf : keys₂.find? (·.version = s₁.version) with
      | none =>
        have := List.find?_eq_none.mp hf primary hk
        exact absurd (decide_eq_true hver.symm) this
      | some k' =>
        have hk' : k'.version = s₁.version := by simpa using List.find?_some hf
        exact congrArg some (List.inj_on_of_nodup_map hdistinct (List.mem_of_find?_eq_some hf) hk (hk'.trans hver))
    rw [← toOption_eq_some, decrypt_versionedText hg h₂ hversion, hfind]
    simp [hkey]
  · intro keys s hs q hq
    rw [← toOption_eq_some, decrypt_versionedText hg hs hversion] at hq
    split at hq
    · exact (Option.some.inj hq).symm
    · cases hq

theorem versioned_survives_rotated :
    Sample.first.encrypt Sample.gcm (.ok Sample.nonce)
      [42] = .ok (versionedText Sample.gcm 1 Sample.oldKey Sample.nonce [42]) ∧
      Sample.rotated.decrypt Sample.gcm (versionedText Sample.gcm 1 Sample.oldKey Sample.nonce [42]) = .ok [42] :=
  ⟨rfl, (versioned_survives Sample.gcm_ideal Sample.newVersionedStore_first Sample.newVersionedStore_rotated rfl
    (by decide) (by decide) (Sample.first_encrypt [42])).1⟩

/-- The texts that a store may be asked to re-encrypt: with a version of its ring, or without
one under the primary key. -/
inductive Stored (g : Gcm) (s : Store) (p : List UInt8) : List Char → Prop where
  | versioned (k : VersionedKey) (n : Nonce) : k ∈ s.ring → Stored g s p (versionedText g k.version k.key n p)
  | legacy (n : Nonce) : Stored g s p (legacyText g s.key n p)

/-- Text without a version whose nonce begins with the primary version. -/
def TakenForNew (g : Gcm) (s : Store) (text : List Char) : Prop :=
  ∃ n p, text = legacyText g s.key n p ∧ n.1.head? = some s.version

section
variable {g : Gcm} {keys : List VersionedKey} {s : Store} (hs : newVersionedStore keys = .ok s)
    {p : List UInt8} {n : Nonce}

include hs

theorem find_primary : keys.find? (·.version = s.version) = some ⟨s.version, s.key⟩ := by
  obtain ⟨⟨primary, hhead, hkey, hversion⟩, -, -⟩ := newVersionedStore_ok.mp hs
  cases keys with
  | nil => cases hhead
  | cons k ks =>
    cases hhead
    rw [hkey, hversion, List.find?_cons_of_pos (by simp)]

theorem reEncrypt_primary (rand : Except String Nonce) :
    s.reEncrypt g rand (versionedText g s.version s.key n p) = .ok (versionedText g s.version s.key n p, false) := by
  have hpos := version_pos hs
  rw [Store.reEncrypt, versionedText, extractKeyVersion_encodeStd, if_neg hpos]
  exact if_pos ⟨UInt8.pos_iff_ne_zero.mpr hpos, rfl⟩

theorem newVersionedStore_alone :
    newVersionedStore [⟨s.version, s.key⟩] =
      .ok { key := s.key, version := s.version, ring := [⟨s.version, s.key⟩] } := by
  refine newVersionedStore_ok.mpr ⟨⟨_, rfl, rfl, rfl⟩, rfl, fun k hk => ?_⟩
  rw [List.mem_singleton.mp hk]
  exact ⟨key_length hs, version_pos hs⟩

theorem extractKeyVersion_legacyText {key : List UInt8} :
    Crypto.extractKeyVersion (legacyText g key n p) = some s.version ↔ n.1.head? = some s.version := by
  have hpos := version_pos hs
  obtain ⟨bs, hbs⟩ := n
  cases bs with
  | nil => cases hbs
  | cons b rest =>
    rw [legacyText, Gcm.made, List.cons_append, extractKeyVersion_encodeStd]
    by_cases hb : b = 0 <;> simp [hb, hpos.symm]

theorem reEncrypt_taken {text : List Char} (h : TakenForNew g s text) (rand : Except String Nonce) :
    s.reEncrypt g rand text = .ok (text, false) := by
  obtain ⟨n, p, rfl, hhead⟩ := h
  exact if_pos ⟨UInt8.pos_iff_ne_zero.mpr (version_pos hs), (extractKeyVersion_legacyText hs).mpr hhead⟩

theorem decrypt_stored (hg : g.Ideal) {text : List Char} (hstored : Stored g s p text) {q : List UInt8}
    (hread : s.decrypt g text = .ok q) : q = p := by
  rw [← toOption_eq_some] at hread
  cases hstored with
  | versioned k n hk =>
    have hring := (newVersionedStore_ok.mp hs).2.1
    rw [decrypt_versionedText hg hs ((newVersionedStore_ok.mp hs).2.2 k (hring ▸ hk)).2] at hread
    split at hread
    · exact (Option.some.inj hread).symm
    · cases hread
  | legacy n =>
    rw [decrypt_legacyText hg hs, if_pos rfl] at hread
    exact (Option.some.inj hread).symm

theorem reEncrypt_made (hg : g.Ideal) {text : List Char} (hstored : Stored g s p text) (hnew : ¬ TakenForNew g s text)
    (hread : s.decrypt g text = .ok p) {rand : Except String Nonce} {text' : List Char} {changed : Bool}
    (hre : s.reEncrypt g rand text = .ok (text', changed)) : ∃ n, text' = versionedText g s.version s.key n p := by
  unfold Store.reEncrypt at hre
  split at hre
  · next hcurrent =>
    cases hre
    obtain ⟨-, hversion⟩ := hcurrent
    cases hstored with
    | versioned k n hk =>
      -- the first key of the ring with the primary version is the primary one
      have hring := (newVersionedStore_ok.mp hs).2.1
      have hkpos := ((newVersionedStore_ok.mp hs).2.2 k (hring ▸ hk)).2
      rw [versionedText, extractKeyVersion_encodeStd, if_neg hkpos] at hversion
      have hkv : k.version = s.version := Option.some.inj hversion
      rw [← toOption_eq_some, decrypt_versionedText hg hs hkpos, hkv, find_primary hs, Option.any_some] at hread
      split at hread
      · next hkey =>
        rw [hkv, ← of_decide_eq_true hkey]
        exact ⟨n, rfl⟩
      · cases hread
    | legacy n => exact absurd ⟨n, p, rfl, (extractKeyVersion_legacyText hs).mp hversion⟩ hnew
  · rw [hread] at hre
    cases henc : s.encrypt g rand p with
    | error e =>
      rw [show (Except.ok p : Except String _).mapError ("decrypt for re-encryption: " ++ ·) = .ok p from rfl] at hre
      simp only [bind, Except.bind, henc, Except.mapError] at hre
      cases hre
    | ok new =>
      simp only [bind, Except.bind, henc, Except.mapError] at hre
      cases hre
      exact Store.encrypt_versioned hs henc

end

/-- Re-encryption completes a rotation: what it returns is text with the primary version under the primary key, of the
same plaintext, a store with the primary key alone reads it, and another re-encryption leaves it as it is; precisely
if the text is not one without a version that begins with the primary version. -/
theorem reEncrypt_completes {g : Gcm} (hg : g.Ideal) {keys : List VersionedKey} {s : Store}
    (hs : newVersionedStore keys = .ok s) {p : List UInt8} {text : List Char} (hstored : Stored g s p text)
    {q : List UInt8}
    (hread : s.decrypt g text = .ok q) {rand : Except String Nonce} {text' : List Char} {changed : Bool}
    (hre : s.reEncrypt g rand text = .ok (text', changed)) :
    q = p ∧ ((∃ n, text' = versionedText g s.version s.key n p) ∧
      (∃ alone, newVersionedStore [⟨s.version, s.key⟩] = .ok alone ∧ alone.decrypt g text' = .ok p) ∧
      (∀ rand', s.reEncrypt g rand' text' = .ok (text', false)) ↔ ¬ TakenForNew g s text) := by
  obtain rfl := decrypt_stored hs hg hstored hread
  refine ⟨rfl, ?_, fun hnew => ?_⟩
  · rintro ⟨⟨n, hmade⟩, -⟩ htaken
    obtain rfl : text = text' := congrArg Prod.fst (Except.ok.inj ((reEncrypt_taken hs htaken rand).symm.trans hre))
    obtain ⟨n', p', hlegacy, -⟩ := htaken
    exact versionedText_ne_legacyText hg (hmade.symm.trans hlegacy)
  · obtain ⟨n, rfl⟩ := reEncrypt_made hs hg hstored hnew hread hre
    refine ⟨⟨n, rfl⟩, ⟨_, newVersionedStore_alone hs, ?_⟩, fun rand' => reEncrypt_primary hs rand'⟩
    rw [← toOption_eq_some, decrypt_versionedText hg (newVersionedStore_alone hs) (version_pos hs)]
    simp

theorem reEncrypt_completes_rotated :
    ∃ text', Sample.rotated.reEncrypt Sample.gcm (.ok Sample.nonce)
        (versionedText Sample.gcm 1 Sample.oldKey Sample.nonce [42]) = .ok (text', true) ∧
      (∃ alone, newVersionedStore [⟨7, Sample.newKey⟩] = .ok alone ∧ alone.decrypt Sample.gcm text' = .ok [42]) ∧
      ∀ rand, Sample.rotated.reEncrypt Sample.gcm rand text' = .ok (text', false) := by
  have hread : Sample.rotated.decrypt Sample.gcm (versionedText Sample.gcm 1 Sample.oldKey Sample.nonce [42]) =
    .ok [42] := by
    rw [← toOption_eq_some, decrypt_versionedText Sample.gcm_ideal Sample.newVersionedStore_rotated (by decide)]
    rfl
  have hre : Sample.rotated.reEncrypt Sample.gcm (.ok Sample.nonce)
      (versionedText Sample.gcm 1 Sample.oldKey Sample.nonce [42]) =
        .ok (versionedText Sample.gcm 7 Sample.newKey Sample.nonce [42], true) := by
    have hold : Crypto.extractKeyVersion (versionedText Sample.gcm 1 Sample.oldKey Sample.nonce [42]) = some 1 :=
      extractKeyVersion_encodeStd
    rw [Store.reEncrypt, hold, if_neg (by decide), hread]
    rfl
  have hnew : ¬ TakenForNew Sample.gcm Sample.rotated (versionedText Sample.gcm 1 Sample.oldKey Sample.nonce [42]) := by
    rintro ⟨n, p, htext, -⟩
    exact versionedText_ne_legacyText Sample.gcm_ideal htext
  have hdone := (reEncrypt_completes Sample.gcm_ideal Sample.newVersionedStore_rotated
    (.versioned ⟨1, Sample.oldKey⟩ Sample.nonce (by decide)) hread hre).2.mpr hnew
  exact ⟨_, hre, hdone.2⟩

/-- The nonce of the text begins with the primary version, and the text is returned as it is. -/
theorem legacy_taken_for_new :
    newVersionedStore [⟨7, Sample.newKey⟩, ⟨1, Sample.oldKey⟩] = .ok Sample.rotated ∧
      Sample.rotated.decrypt Sample.gcm (legacyText Sample.gcm Sample.newKey Sample.nonce [42]) = .ok [42] ∧
      Sample.rotated.reEncrypt Sample.gcm (.ok Sample.nonce) (legacyText Sample.gcm Sample.newKey Sample.nonce [42]) =
        .ok (legacyText Sample.gcm Sample.newKey Sample.nonce [42], false) ∧
      ∀ n p, legacyText Sample.gcm Sample.newKey Sample.nonce [42] ≠ versionedText Sample.gcm 7 Sample.newKey n p := by
  have hversion : Crypto.extractKeyVersion (legacyText Sample.gcm Sample.newKey Sample.nonce [42]) = some 7 :=
    extractKeyVersion_encodeStd
  refine ⟨rfl, ?_, ?_, fun n p h => versionedText_ne_legacyText Sample.gcm_ideal h.symm⟩
  · rw [← toOption_eq_some, decrypt_legacyText Sample.gcm_ideal Sample.newVersionedStore_rotated]
    exact if_pos rfl
  · rw [Store.reEncrypt, hversion]
    exact if_pos ⟨by decide, rfl⟩

end Secrets
end EdgeFabric
