/-
Base64 with the URL-safe alphabet and without padding: three bytes are four
characters, and a last group of one or two bytes is two or three characters.
The decoder ignores line breaks and the unused bits of the last character. The
standard encoding has two other characters, and padding to groups of four.

* `decode_encode`, `decodeStd_encodeStd`: what was encoded is decoded to the same bytes.
* `ne_of_mem_encode`: an encoded text has no character outside the alphabet.
-/
import Mathlib.Data.List.Basic
import Mathlib.Data.List.DropRight

namespace Base64

def alphabet : List Char := "ABCDEFGHIJKLMNOPQRSTUVWXYZabcdefghijklmnopqrstuvwxyz0123456789-_".toList

def digit (n : Nat) : Char := alphabet.getD n 'A'

def value (c : Char) : Option Nat := alphabet.findIdx? (· = c)

/-- The characters of a group of three bytes, read as one number. -/
def group (n : Nat) : List Char := [digit (n / 262144), digit (n / 4096 % 64), digit (n / 64 % 64), digit (n % 64)]

def encode : List UInt8 → List Char
  | a :: b :: c :: rest => group (a.toNat * 65536 + b.toNat * 256 + c.toNat) ++ encode rest
  | [a, b] => (group (a.toNat * 65536 + b.toNat * 256)).take 3
  | [a] => (group (a.toNat * 65536)).take 2
  | [] => []

/-- The three bytes of a number below `2 ^ 24`. -/
def ungroup (n : Nat) : List UInt8 := [(n / 65536).toUInt8, (n / 256 % 256).toUInt8, (n % 256).toUInt8]

def decodeChars : List Char → Option (List UInt8)
  | w :: x :: y :: z :: rest => do
    let n := (← value w) * 262144 + (← value x) * 4096 + (← value y) * 64 + (← value z)
    return ungroup n ++ (← decodeChars rest)
  | [w, x, y] => do return (ungroup ((← value w) * 262144 + (← value x) * 4096 + (← value y) * 64)).take 2
  | [w, x] => do return (ungroup ((← value w) * 262144 + (← value x) * 4096)).take 1
  | [_] => none
  | [] => some []

def decode (cs : List Char) : Option (List UInt8) := decodeChars (cs.filter fun c => c ≠ '\n' ∧ c ≠ '\r')

/-! ## The alphabet -/

theorem value_digit {n : Nat} (h : n < 64) : value (digit n) = some n := by
  have : ∀ m : Fin 64, value (digit m) = some m.val := by decide +kernel
  exact this ⟨n, h⟩

theorem digit_mem (n : Nat) : digit n ∈ alphabet := by
  rw [digit, List.getD_eq_getElem?_getD]
  cases h : alphabet[n]? with
  | some c => exact List.mem_of_getElem? h
  | none => decide

theorem mem_group {n : Nat} {c : Char} (h : c ∈ group n) : c ∈ alphabet := by
  simp only [group, List.mem_cons, List.not_mem_nil, or_false] at h
  rcases h with rfl | rfl | rfl | rfl <;> exact digit_mem _

theorem mem_encode {bs : List UInt8} {c : Char} (h : c ∈ encode bs) : c ∈ alphabet := by
  fun_induction encode bs with
  | case1 a b d rest ih =>
    rcases List.mem_append.mp h with h | h
    · exact mem_group h
    · exact ih h
  | case2 a b => exact mem_group (List.mem_of_mem_take h)
  | case3 a => exact mem_group (List.mem_of_mem_take h)
  | case4 => cases h

theorem ne_of_mem_encode {bs : List UInt8} {c d : Char} (h : c ∈ encode bs) (hd : d ∉ alphabet) : c ≠ d :=
  fun he => hd (he ▸ mem_encode h)

theorem encode_head (a : UInt8) (bs : List UInt8) : ∃ cs, encode (a :: bs) = digit (a.toNat / 4) :: cs := by
  have ha := a.toNat_lt
  rcases bs with _ | ⟨b, _ | ⟨c, rest⟩⟩
  · refine ⟨_, congrArg (digit · :: _) ?_⟩
    omega
  · have hb := b.toNat_lt
    refine ⟨_, congrArg (digit · :: _) ?_⟩
    omega
  · have hb := b.toNat_lt
    have hc := c.toNat_lt
    refine ⟨_, congrArg (digit · :: _) ?_⟩
    omega

/-! ## The round trip -/

theorem ungroup_bytes (a b c : UInt8) : ungroup (a.toNat * 65536 + b.toNat * 256 + c.toNat) = [a, b, c] := by
  have hb := b.toNat_lt
  have hc := c.toNat_lt
  have h₁ : (a.toNat * 65536 + b.toNat * 256 + c.toNat) / 65536 = a.toNat := by omega
  have h₂ : (a.toNat * 65536 + b.toNat * 256 + c.toNat) / 256 % 256 = b.toNat := by omega
  have h₃ : (a.toNat * 65536 + b.toNat * 256 + c.toNat) % 256 = c.toNat := by omega
  simp [ungroup, h₁, h₂, h₃]

theorem decodeChars_encode (bs : List UInt8) : decodeChars (encode bs) = some bs := by
  fun_induction encode bs with
  | case1 a b c rest ih =>
    have ha := a.toNat_lt
    have hb := b.toNat_lt
    have hc := c.toNat_lt
    have hn : ∀ n < 16777216, n / 262144 * 262144 + n / 4096 % 64 * 4096 + n / 64 % 64 * 64 + n % 64 = n := by omega
    simp only [group, List.cons_append, List.nil_append, decodeChars]
    rw [value_digit (by omega), value_digit (by omega), value_digit (by omega), value_digit (by omega), ih]
    simp only [bind, Option.bind, pure, hn _ (by omega : a.toNat * 65536 + b.toNat * 256 + c.toNat < 16777216),
      ungroup_bytes, List.cons_append, List.nil_append]
  | case2 a b =>
    have ha := a.toNat_lt
    have hb := b.toNat_lt
    have hg := ungroup_bytes a b 0
    have h : (a.toNat * 65536 + b.toNat * 256) / 262144 * 262144 + (a.toNat * 65536 + b.toNat * 256) / 4096
        % 64 * 4096 + (a.toNat * 65536 + b.toNat * 256) / 64 % 64 * 64 = a.toNat * 65536 + b.toNat * 256 := by omega
    simp only [group, List.take, decodeChars]
    rw [value_digit (by omega), value_digit (by omega), value_digit (by omega)]
    simp only [bind, Option.bind, pure, h]
    simp only [UInt8.toNat_zero, Nat.add_zero] at hg
    rw [hg]
    rfl
  | case3 a =>
    have ha := a.toNat_lt
    have hg := ungroup_bytes a 0 0
    simp only [group, List.take, decodeChars]
    rw [value_digit (by omega), value_digit (by omega)]
    have h : a.toNat * 65536 / 262144 * 262144 + a.toNat * 65536 / 4096 % 64 * 4096 = a.toNat * 65536 := by omega
    simp only [bind, Option.bind, pure, h]
    simp only [UInt8.toNat_zero, Nat.add_zero, Nat.zero_mul] at hg
    rw [hg]
    rfl
  | case4 => rfl

theorem decode_encode (bs : List UInt8) : decode (encode bs) = some bs := by
  unfold decode
  have hkeep : (encode bs).filter (fun c => decide (c ≠ '\n' ∧ c ≠ '\r')) = encode bs := by
    refine List.filter_eq_self.mpr fun c hc => ?_
    have hn := ne_of_mem_encode hc (d := '\n') (by decide)
    have hr := ne_of_mem_encode hc (d := '\r') (by decide)
    simp [hn, hr]
  rw [hkeep, decodeChars_encode]

/-! ## The standard encoding -/

def toStd (c : Char) : Char := if c = '-' then '+' else if c = '_' then '/' else c

def ofStd (c : Char) : Option Char :=
  if c = '+' then some '-' else if c = '/' then some '_' else if c = '-' ∨ c = '_' then none else some c

def encodeStd (bs : List UInt8) : List Char :=
  (encode bs).map toStd ++ List.replicate ((4 - (encode bs).length % 4) % 4) '='

def decodeStd (cs : List Char) : Option (List UInt8) :=
  let cs := cs.filter fun c => c ≠ '\n' ∧ c ≠ '\r'
  let body := cs.rdropWhile (· = '=')
  if cs.length % 4 = 0 ∧ cs.length ≤ body.length + 2 then (body.mapM ofStd).bind decodeChars else none

theorem mem_alphabet_std {c : Char} (h : c ∈ alphabet) :
    ofStd (toStd c) = some c ∧ toStd c ≠ '=' ∧ toStd c ≠ '\n' ∧ toStd c ≠ '\r' := by
  have hall : alphabet.all fun c => ofStd (toStd c) = some c ∧ toStd c ≠ '=' ∧ toStd c ≠ '\n' ∧ toStd c ≠ '\r' := by
    decide +kernel
  exact of_decide_eq_true (List.all_eq_true.mp hall c h)

theorem mapM_ofStd {cs : List Char} (h : ∀ c ∈ cs, c ∈ alphabet) : (cs.map toStd).mapM ofStd = some cs := by
  induction cs with
  | nil => rfl
  | cons c cs ih =>
    rw [List.map_cons, List.mapM_cons, (mem_alphabet_std (h c List.mem_cons_self)).1,
      ih fun d hd => h d (List.mem_cons_of_mem _ hd)]
    rfl

theorem rdropWhile_padding {cs : List Char} (h : '=' ∉ cs) (k : Nat) :
    (cs ++ List.replicate k '=').rdropWhile (· = '=') = cs := by
  induction k with
  | zero =>
    rw [List.replicate_zero, List.append_nil, List.rdropWhile_eq_self_iff]
    intro hne hlast
    exact h (of_decide_eq_true hlast ▸ List.getLast_mem hne)
  | succ k ih => rw [List.replicate_succ', ← List.append_assoc, List.rdropWhile_concat_pos _ _ _ (by decide), ih]

theorem length_encode_mod (bs : List UInt8) : (encode bs).length % 4 ≠ 1 := by
  fun_induction encode bs with
  | case1 a b c rest ih =>
    rw [List.length_append]
    show (4 + (encode rest).length) % 4 ≠ 1
    omega
  | case2 a b => simp [group]
  | case3 a => simp [group]
  | case4 => decide

theorem decodeStd_encodeStd (bs : List UInt8) : decodeStd (encodeStd bs) = some bs := by
  have halphabet : ∀ c ∈ encode bs, c ∈ alphabet := fun c hc => mem_encode hc
  have hmem : ∀ c ∈ (encode bs).map toStd, c ≠ '=' ∧ c ≠ '\n' ∧ c ≠ '\r' := by
    intro c hc
    obtain ⟨d, hd, rfl⟩ := List.mem_map.mp hc
    exact (mem_alphabet_std (halphabet d hd)).2
  have hkeep : (encodeStd bs).filter (fun c => decide (c ≠ '\n' ∧ c ≠ '\r')) = encodeStd bs := by
    refine List.filter_eq_self.mpr fun c hc => ?_
    rcases List.mem_append.mp hc with hc | hc
    · simpa using (hmem c hc).2
    · rw [List.eq_of_mem_replicate hc]
      decide
  have hbody : (encodeStd bs).rdropWhile (· = '=') = (encode bs).map toStd :=
    rdropWhile_padding (fun hc => (hmem _ hc).1 rfl) _
  have hmod := length_encode_mod bs
  have hlen : (encodeStd bs).length % 4 = 0 ∧ (encodeStd bs).length ≤ ((encode bs).map toStd).length + 2 := by
    simp only [encodeStd, List.length_append, List.length_replicate, List.length_map]
    omega
  simp only [decodeStd, hkeep, hbody]
  rw [if_pos hlen, mapM_ofStd halphabet, Option.bind_some, decodeChars_encode]

end Base64
