/-
Authenticated encryption with a nonce of twelve bytes, as texts that begin with their
nonce. `Gcm.Ideal` is what one assumes of it: a text that opens was sealed with that key,
a text opens with the key it was sealed with only, and a text that was sealed is not
another one with a byte in front of it.
-/
import Mathlib.Data.List.Basic

abbrev Nonce := { bs : List UInt8 // bs.length = 12 }

/-- `Seal` and `Open`, without the nonce in the text. -/
structure Gcm where
  encipher : (key : List UInt8) → (nonce : Nonce) → (plaintext : List UInt8) → List UInt8
  decipher : (key : List UInt8) → (nonce : Nonce) → (ciphertext : List UInt8) → Option (List UInt8)
  decipher_encipher : ∀ key nonce plaintext, decipher key nonce (encipher key nonce plaintext) = some plaintext

namespace Gcm
variable {g : Gcm} {key key' p p' T : List UInt8} {n n' : Nonce}

/-- The text that sealing makes: the nonce and what is sealed under it. -/
def made (g : Gcm) (key : List UInt8) (nonce : Nonce) (plaintext : List UInt8) : List UInt8 :=
  nonce.1 ++ g.encipher key nonce plaintext

/-- What a text opens to. -/
def openText (g : Gcm) (key T : List UInt8) : Option (List UInt8) :=
  if h : 12 ≤ T.length then g.decipher key ⟨T.take 12, List.length_take_of_le h⟩ (T.drop 12) else none

structure Ideal (g : Gcm) : Prop where
  decipher_eq_some : ∀ {key n c p}, g.decipher key n c = some p → c = g.encipher key n p
  key_eq : ∀ {key key' n p p'}, g.encipher key n p = g.encipher key' n p' → key = key'
  not_shifted : ∀ {b key key' n n' p p'}, g.made key n p ≠ b :: g.made key' n' p'

theorem openText_made : g.openText key (g.made key n p) = some p := by
  have hlen : 12 ≤ (g.made key n p).length := by
    rw [made, List.length_append, n.2]
    omega
  have htake : (⟨(g.made key n p).take 12, List.length_take_of_le hlen⟩ : Nonce) = n :=
    Subtype.ext (List.take_left' n.2)
  rw [openText, dif_pos hlen, htake, made, List.drop_left' n.2, g.decipher_encipher]

theorem Ideal.made_of_openText (hg : g.Ideal) (h : g.openText key T = some p) : ∃ n, T = g.made key n p := by
  unfold openText at h
  split at h
  · next hlen =>
    refine ⟨⟨T.take 12, List.length_take_of_le hlen⟩, ?_⟩
    rw [made, ← hg.decipher_eq_some h, List.take_append_drop]
  · cases h

theorem Ideal.openText_made_eq_some (hg : g.Ideal) (h : g.openText key' (g.made key n p) = some p') :
    key' = key ∧ p' = p := by
  obtain ⟨n', hT⟩ := hg.made_of_openText h
  obtain ⟨hn, htext⟩ := List.append_inj hT (n.2.trans n'.2.symm)
  obtain rfl : n = n' := Subtype.ext hn
  obtain rfl := hg.key_eq htext
  rw [openText_made] at h
  exact ⟨rfl, (Option.some.inj h).symm⟩

theorem Ideal.openText_cons (hg : g.Ideal) {b : UInt8} : g.openText key' (b :: g.made key n p) = none := by
  cases h : g.openText key' (b :: g.made key n p) with
  | none => rfl
  | some p' =>
    obtain ⟨n', hT⟩ := hg.made_of_openText h
    exact absurd hT.symm hg.not_shifted

theorem Ideal.openText_tail (hg : g.Ideal) : g.openText key' (g.made key n p).tail = none := by
  cases h : g.openText key' (g.made key n p).tail with
  | none => rfl
  | some p' =>
    obtain ⟨n', hT⟩ := hg.made_of_openText h
    cases hm : g.made key n p with
    | nil =>
      have hlen := congrArg List.length hm
      rw [made, List.length_append, n.2, List.length_nil] at hlen
      omega
    | cons b rest =>
      rw [hm, List.tail_cons] at hT
      rw [hT] at hm
      exact absurd hm hg.not_shifted

end Gcm
