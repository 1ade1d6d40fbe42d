import Mathlib

/-! SHA-256 as FIPS 180-4 defines it, for messages of whole bytes. -/

namespace Sha256

/-- A byte of a message. -/
abbrev Octet := BitVec 8

/-- A word of 32 bits. -/
abbrev Word := BitVec 32

/-! ### Functions and constants (sections 4.1.2, 4.2.2 and 5.3.3) -/

/-- The choice function. -/
def ch (x y z : Word) : Word := (x &&& y) ^^^ (~~~x &&& z)

/-- The majority function. -/
def maj (x y z : Word) : Word := (x &&& y) ^^^ (x &&& z) ^^^ (y &&& z)

/-- The large sigma of the working variable `a`. -/
def upperSigma0 (x : Word) : Word := x.rotateRight 2 ^^^ x.rotateRight 13 ^^^ x.rotateRight 22

/-- The large sigma of the working variable `e`. -/
def upperSigma1 (x : Word) : Word := x.rotateRight 6 ^^^ x.rotateRight 11 ^^^ x.rotateRight 25

/-- The small sigma of the older schedule word. -/
def lowerSigma0 (x : Word) : Word := x.rotateRight 7 ^^^ x.rotateRight 18 ^^^ x >>> 3

/-- The small sigma of the younger schedule word. -/
def lowerSigma1 (x : Word) : Word := x.rotateRight 17 ^^^ x.rotateRight 19 ^^^ x >>> 10

/-- The first 32 bits of the fractional part of the cube root of a prime, the first one being 2. -/
noncomputable def constant (t : Nat) : Word :=
  BitVec.ofNat 32 (Nat.nthRoot 3 (Nat.nth Nat.Prime t * 2 ^ 96))

/-- The initial hash value: the same of the square roots of the first eight primes. -/
noncomputable def initial : Vector Word 8 :=
  Vector.ofFn fun i => BitVec.ofNat 32 (Nat.sqrt (Nat.nth Nat.Prime i * 2 ^ 64))

/-! ### Preprocessing (sections 5.1.1 and 5.2.1) -/

/-- So many bytes of a number, the most significant one first. -/
def bigEndian (count n : Nat) : List Octet :=
  (List.range count).map fun i => BitVec.ofNat 8 (n / 256 ^ (count - 1 - i))

/-- The zero bytes between the one bit and the length. -/
def zeros (length : Nat) : Nat := (119 - length % 64) % 64

/-- The message, a one bit, zeros and the length in bits. -/
def pad (message : List Octet) : List Octet :=
  message ++ 0x80#8 :: (List.replicate (zeros message.length) 0#8 ++
    bigEndian 8 (8 * message.length))

/-- A block of 64 bytes. -/
def block (bytes : List Octet) (n : Nat) : List Octet := (bytes.drop (64 * n)).take 64

/-- A word of a block, read from four bytes. -/
def word (bytes : List Octet) (t : Nat) : Word :=
  BitVec.ofNat 32 ((bytes.getD (4 * t) 0#8).toNat * 2 ^ 24 +
    (bytes.getD (4 * t + 1) 0#8).toNat * 2 ^ 16 + (bytes.getD (4 * t + 2) 0#8).toNat * 2 ^ 8 +
    (bytes.getD (4 * t + 3) 0#8).toNat)

/-! ### Hash computation (section 6.2.2) -/

/-- The message schedule. -/
def schedule (bytes : List Octet) (t : Nat) : Word :=
  if t < 16 then word bytes t
  else
    lowerSigma1 (schedule bytes (t - 2)) + schedule bytes (t - 7) +
      lowerSigma0 (schedule bytes (t - 15)) + schedule bytes (t - 16)

/-- The eight working variables. -/
structure Working where
  a : Word
  b : Word
  c : Word
  d : Word
  e : Word
  f : Word
  g : Word
  h : Word

/-- One round, with its constant and its word of the schedule. -/
def round (constant word : Word) (v : Working) : Working :=
  let t1 := v.h + upperSigma1 v.e + ch v.e v.f v.g + constant + word
  let t2 := upperSigma0 v.a + maj v.a v.b v.c
  ⟨t1 + t2, v.a, v.b, v.c, v.d + t1, v.e, v.f, v.g⟩

/-- The working variables of a hash value. -/
def Working.of (hash : Vector Word 8) : Working :=
  ⟨hash.get 0, hash.get 1, hash.get 2, hash.get 3, hash.get 4, hash.get 5, hash.get 6,
    hash.get 7⟩

/-- The intermediate hash value: the one before it with the working variables added. -/
def Working.add (v : Working) (hash : Vector Word 8) : Vector Word 8 :=
  #v[v.a + hash.get 0, v.b + hash.get 1, v.c + hash.get 2, v.d + hash.get 3, v.e + hash.get 4,
    v.f + hash.get 5, v.g + hash.get 6, v.h + hash.get 7]

/-- The hash value after one more block. -/
noncomputable def compress (hash : Vector Word 8) (bytes : List Octet) : Vector Word 8 :=
  (Fin.foldl 64 (fun v t => round (constant t) (schedule bytes t) v) (Working.of hash)).add hash

/-- The hash value after so many blocks. -/
noncomputable def chain (bytes : List Octet) : Nat → Vector Word 8
  | 0 => initial
  | n + 1 => compress (chain bytes n) (block bytes n)

/-- The digest of a message. -/
noncomputable def digest (message : List Octet) : List Octet :=
  (chain (pad message) ((pad message).length / 64)).toList.flatMap fun w => bigEndian 4 w.toNat

/-- Bytes in lowercase hexadecimal digits. -/
def lowerHex (bytes : List Octet) : List Char :=
  bytes.flatMap fun b => [Nat.digitChar (b.toNat / 16), Nat.digitChar (b.toNat % 16)]

/-! ### Blocks -/

/-- A number is written with as many bytes as are asked for. -/
theorem bigEndian_length (count n : Nat) : (bigEndian count n).length = count := by
  rw [bigEndian, List.length_map, List.length_range]

/-- A hash value depends on nothing behind its last block. -/
theorem chain_append {bytes : List Octet} {n : Nat} (inside : 64 * n ≤ bytes.length)
    (more : List Octet) : chain (bytes ++ more) n = chain bytes n := by
  induction n with
  | zero => rfl
  | succ n ih =>
    rw [chain, chain, ih (by omega), block, block, List.drop_append_of_le_length (by omega),
      List.take_append_of_le_length (by rw [List.length_drop]; omega)]

/-- The next hash value, once a block of bytes is complete. -/
theorem chain_succ {bytes last : List Octet} {n : Nat} (whole : bytes.drop (64 * n) = last)
    (size : last.length = 64) : chain bytes (n + 1) = compress (chain bytes n) last := by
  rw [chain, block, whole, List.take_of_length_le size.le]

/-- The bytes of a word are those of its number. -/
theorem word_toNat (bytes : List Octet) (t : Nat) :
    (word bytes t).toNat = (bytes.getD (4 * t) 0#8).toNat * 2 ^ 24 +
      (bytes.getD (4 * t + 1) 0#8).toNat * 2 ^ 16 + (bytes.getD (4 * t + 2) 0#8).toNat * 2 ^ 8 +
      (bytes.getD (4 * t + 3) 0#8).toNat := by
  have first := (bytes.getD (4 * t) 0#8).isLt
  have second := (bytes.getD (4 * t + 1) 0#8).isLt
  have third := (bytes.getD (4 * t + 2) 0#8).isLt
  have fourth := (bytes.getD (4 * t + 3) 0#8).isLt
  rw [word, BitVec.toNat_ofNat, Nat.mod_eq_of_lt (by omega)]

/-! ### Constants -/

/-- The first 64 primes. -/
def primes : Vector Nat 64 :=
  #v[2, 3, 5, 7, 11, 13, 17, 19, 23, 29, 31, 37, 41, 43, 47, 53, 59, 61, 67, 71, 73, 79, 83, 89, 97,
    101, 103, 107, 109, 113, 127, 131, 137, 139, 149, 151, 157, 163, 167, 173, 179, 181, 191, 193,
    197, 199, 211, 223, 227, 229, 233, 239, 241, 251, 257, 263, 269, 271, 277, 281, 283, 293, 307,
    311]

/-- Trial division by the primes below 19 finds the primes below its square. -/
theorem prime_iff {n : Nat} (small : n < 361) :
    n.Prime ↔ 1 < n ∧ ∀ d ∈ [2, 3, 5, 7, 11, 13, 17], d ∣ n → d = n := by
  constructor
  · intro prime
    refine ⟨prime.one_lt, fun d listed divides => ?_⟩
    refine (prime.eq_one_or_self_of_dvd d divides).resolve_left fun one => ?_
    exact absurd (one ▸ listed) (by decide)
  · -- A composite number below 361 has a divisor below 19, which is one of the list.
    rintro ⟨one, all⟩
    by_contra composite
    have least := Nat.minFac_prime (by omega : n ≠ 1)
    have square := Nat.minFac_sq_le_self (by omega) composite
    have few : n.minFac < 19 := by
      by_contra many
      have wide := Nat.pow_le_pow_left (Nat.le_of_not_lt many) 2
      omega
    have listed : n.minFac ∈ [2, 3, 5, 7, 11, 13, 17] := by
      generalize n.minFac = p at least few
      have known : ∀ p < 19, p.Prime → p ∈ [2, 3, 5, 7, 11, 13, 17] := by decide
      exact known p few least
    have same := all _ listed n.minFac_dvd
    exact composite (same ▸ least)

/-- All numbers of the list are prime. -/
theorem primes_prime (t : Fin 64) : Nat.Prime (primes.get t) := by
  have divided : ∀ t : Fin 64, primes[t] < 361 ∧ 1 < primes[t] ∧
      ∀ d ∈ [2, 3, 5, 7, 11, 13, 17], d ∣ primes[t] → d = primes[t] := by
    decide +kernel
  exact (prime_iff (divided t).1).mpr (divided t).2

/-- No prime is left out. -/
theorem primes_next (t : Fin 63) :
    primes[t.val] < primes[t.val + 1] ∧ ∀ n < primes[t.val + 1], primes[t.val] < n → ¬n.Prime := by
  -- Between two of the list every number has one of the seven divisors.
  have divided : ∀ t : Fin 63, primes[t.val + 1] < 361 ∧ primes[t.val] < primes[t.val + 1] ∧
      ∀ k < primes[t.val + 1] - (primes[t.val] + 1), ¬(1 < primes[t.val] + 1 + k ∧
        ∀ d ∈ [2, 3, 5, 7, 11, 13, 17], d ∣ primes[t.val] + 1 + k → d = primes[t.val] + 1 + k) := by
    decide +kernel
  obtain ⟨small, less, between⟩ := divided t
  refine ⟨less, fun n below above prime => ?_⟩
  obtain ⟨k, rfl⟩ := Nat.exists_eq_add_of_le above
  exact between k (by omega) ((prime_iff (Nat.lt_trans below small)).mp prime)

/-- What lies between two primes that follow each other counts for nothing. -/
theorem count_next {p q : Nat} (prime : p.Prime) (less : p < q)
    (between : ∀ n < q, p < n → ¬n.Prime) :
    Nat.count Nat.Prime q = Nat.count Nat.Prime p + 1 := by
  induction q, less using Nat.le_induction with
  | base => rw [Nat.count_succ, if_pos prime]
  | succ q above ih =>
    rw [Nat.count_succ, if_neg (between q (Nat.lt_succ_self q) above), Nat.add_zero]
    exact ih fun n below => between n (Nat.lt_succ_of_lt below)

/-- And they are the first ones, none left out. -/
theorem primes_counted (t : Fin 64) :
    Nat.Prime (primes.get t) ∧ Nat.count Nat.Prime (primes.get t) = t := by
  refine ⟨primes_prime t, ?_⟩
  obtain ⟨t, small⟩ := t
  -- By induction on the place in the list, one prime more each time.
  induction t with
  | zero => exact (by decide : Nat.count Nat.Prime 2 = 0)
  | succ t ih =>
    obtain ⟨less, between⟩ := primes_next ⟨t, by omega⟩
    have counted := count_next (primes_prime ⟨t, by omega⟩) less between
    exact counted.trans (congrArg (· + 1) (ih (by omega)))

/-- So the list is the sequence of primes. -/
theorem nth_prime (t : Fin 64) : Nat.nth Nat.Prime t = primes.get t := by
  obtain ⟨prime, count⟩ := primes_counted t
  have found := Nat.nth_count prime
  rwa [count] at found

end Sha256
