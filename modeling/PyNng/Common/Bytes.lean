import Mathlib.Data.Nat.Bitwise
import Mathlib.Tactic.Ring
/-!
# Common — bytes as numbers

`beNat` reads a list of bytes as one number, the first byte highest, and
`netBytes` writes a number so. Two lists of a length agree in their first
`len` bits when the numbers agree after the rest is shifted out.
`shiftRight_beNat` cuts a number at any bit of any byte, and `firstBits_iff`
says what the agreement comes to byte by byte: the whole bytes are equal,
and so are the high bits of the next one.
-/

namespace PyNng

/-- The number the bytes spell, the first byte highest. -/
def beNat (bs : List UInt8) : ℕ := bs.foldl (fun acc b => acc * 256 + b.toNat) 0

variable {as bs : List UInt8} {a b : UInt8} {r : ℕ}

theorem foldl_beNat (acc : ℕ) (bs : List UInt8) :
    bs.foldl (fun acc b => acc * 256 + b.toNat) acc = acc * 256 ^ bs.length + beNat bs := by
  induction bs generalizing acc with
  | nil => simp [beNat]
  | cons b bs ih =>
    have hb : beNat (b :: bs) = b.toNat * 256 ^ bs.length + beNat bs := by
      rw [beNat, List.foldl_cons, ih]
      simp
    rw [List.foldl_cons, ih, hb, List.length_cons, pow_succ]
    ring

theorem beNat_append (as bs : List UInt8) :
    beNat (as ++ bs) = beNat as * 256 ^ bs.length + beNat bs := by
  rw [beNat, List.foldl_append, foldl_beNat, ← beNat]

theorem beNat_cons (b : UInt8) (bs : List UInt8) :
    beNat (b :: bs) = b.toNat * 256 ^ bs.length + beNat bs := by
  have := beNat_append [b] bs
  simpa [beNat] using this

theorem beNat_lt (bs : List UInt8) : beNat bs < 256 ^ bs.length := by
  induction bs with
  | nil => exact Nat.one_pos
  | cons b bs ih =>
    have hb : b.toNat + 1 ≤ 256 := b.toNat_lt
    calc beNat (b :: bs) = b.toNat * 256 ^ bs.length + beNat bs := beNat_cons b bs
      _ < b.toNat * 256 ^ bs.length + 256 ^ bs.length := by omega
      _ = (b.toNat + 1) * 256 ^ bs.length := by ring
      _ ≤ 256 * 256 ^ bs.length := Nat.mul_le_mul_right _ hb
      _ = 256 ^ (b :: bs).length := by rw [List.length_cons, pow_succ]; ring

/-- Lists of one length spell different numbers. -/
theorem beNat_inj (hlen : as.length = bs.length) : beNat as = beNat bs ↔ as = bs := by
  refine ⟨fun h => ?_, fun h => by rw [h]⟩
  induction as generalizing bs with
  | nil => exact (List.length_eq_zero_iff.mp hlen.symm).symm
  | cons a as ih =>
    cases bs with
    | nil => cases hlen
    | cons b bs =>
      have hlen' : as.length = bs.length := by simpa using hlen
      have ha := beNat_lt as
      have hb := beNat_lt bs
      rw [beNat_cons, beNat_cons, hlen'] at h
      rw [hlen'] at ha
      have hpos : 0 < 256 ^ bs.length := Nat.pow_pos (by omega)
      -- the head is the quotient, the tail the remainder
      have hdiv := congrArg (· / 256 ^ bs.length) h
      simp only [Nat.mul_comm _ (256 ^ bs.length), Nat.mul_add_div hpos, Nat.div_eq_of_lt ha,
        Nat.div_eq_of_lt hb, Nat.add_zero] at hdiv
      obtain rfl : a = b := UInt8.toNat_inj.mp hdiv
      rw [ih hlen' (by omega)]

theorem pow_bytes (n : ℕ) : (256 : ℕ) ^ n = 2 ^ (8 * n) := by
  rw [pow_mul]
  norm_num

/-! ## Numbers as bytes -/

/-- The low `n` bytes of a number, the highest first. -/
def netBytes (v : ℕ) : ℕ → List UInt8
  | 0 => []
  | n + 1 => UInt8.ofNat (v >>> (8 * n)) :: netBytes v n

theorem length_netBytes (v n : ℕ) : (netBytes v n).length = n := by
  induction n with
  | zero => rfl
  | succ n ih => rw [netBytes, List.length_cons, ih]

theorem beNat_netBytes (v n : ℕ) : beNat (netBytes v n) = v % 256 ^ n := by
  induction n with
  | zero => exact (Nat.mod_one v).symm
  | succ n ih =>
    have hbyte : (UInt8.ofNat (v >>> (8 * n))).toNat = v / 256 ^ n % 256 := by
      rw [UInt8.toNat_ofNat', Nat.shiftRight_eq_div_pow, ← pow_bytes]
    rw [netBytes, beNat_cons, ih, length_netBytes, hbyte, Nat.mod_pow_succ, Nat.mul_comm,
      Nat.add_comm]

theorem netBytes_beNat (bs : List UInt8) : netBytes (beNat bs) bs.length = bs := by
  refine (beNat_inj (length_netBytes _ _)).mp ?_
  rw [beNat_netBytes, Nat.mod_eq_of_lt (beNat_lt bs)]

/-! ## The first bits -/

/-- **A cut inside a byte**: `r` bits of the byte after `as` are kept. -/
theorem shiftRight_beNat (hr : r ≤ 8) (as : List UInt8) (b : UInt8) (bs : List UInt8) :
    beNat (as ++ b :: bs) >>> (8 * bs.length + (8 - r)) =
      beNat as * 2 ^ r + b.toNat >>> (8 - r) := by
  have hsplit : (256 : ℕ) = 2 ^ r * 2 ^ (8 - r) := by
    rw [← pow_add, Nat.add_sub_cancel' hr]
    rfl
  have hbytes := pow_bytes bs.length
  have hrest : beNat (as ++ b :: bs) / 2 ^ (8 * bs.length) = beNat as * 256 + b.toNat := by
    rw [beNat_append, beNat_cons, List.length_cons, pow_succ, ← hbytes,
      show beNat as * (256 ^ bs.length * 256) + (b.toNat * 256 ^ bs.length + beNat bs) =
        256 ^ bs.length * (beNat as * 256 + b.toNat) + beNat bs by ring,
      Nat.mul_add_div (Nat.pow_pos (by omega)), Nat.div_eq_of_lt (beNat_lt bs), Nat.add_zero]
  rw [Nat.shiftRight_add, Nat.shiftRight_eq_div_pow _ (8 * bs.length), hrest,
    Nat.shiftRight_eq_div_pow, Nat.shiftRight_eq_div_pow, hsplit,
    show beNat as * (2 ^ r * 2 ^ (8 - r)) + b.toNat =
      2 ^ (8 - r) * (beNat as * 2 ^ r) + b.toNat by ring,
    Nat.mul_add_div (Nat.pow_pos (by omega))]

/-- A cut between two bytes. -/
theorem shiftRight_beNat_append (as bs : List UInt8) :
    beNat (as ++ bs) >>> (8 * bs.length) = beNat as := by
  rw [Nat.shiftRight_eq_div_pow, ← pow_bytes, beNat_append, Nat.mul_comm (beNat as),
    Nat.mul_add_div (Nat.pow_pos (by omega)), Nat.div_eq_of_lt (beNat_lt bs), Nat.add_zero]

/-- A high part of a byte, put under what came before it, is told apart from it. -/
theorem mul_add_shiftRight_inj (hr : r ≤ 8) {m n : ℕ} :
    m * 2 ^ r + a.toNat >>> (8 - r) = n * 2 ^ r + b.toNat >>> (8 - r) ↔
      m = n ∧ a.toNat >>> (8 - r) = b.toNat >>> (8 - r) := by
  have hlt : ∀ c : UInt8, c.toNat >>> (8 - r) < 2 ^ r := by
    intro c
    rw [Nat.shiftRight_eq_div_pow]
    refine Nat.div_lt_of_lt_mul ?_
    rw [← pow_add, Nat.sub_add_cancel hr]
    exact c.toNat_lt
  refine ⟨fun h => ?_, fun ⟨h1, h2⟩ => by rw [h1, h2]⟩
  have hpos : 0 < 2 ^ r := Nat.pow_pos (by omega)
  have hdiv := congrArg (· / 2 ^ r) h
  simp only [Nat.mul_comm _ (2 ^ r), Nat.mul_add_div hpos, Nat.div_eq_of_lt (hlt _),
    Nat.add_zero] at hdiv
  subst hdiv
  exact ⟨rfl, by omega⟩

/-- **Agreement in the first `8 * k + r` bits**, byte by byte. -/
theorem firstBits_iff {n k : ℕ} (has : as.length = n) (hbs : bs.length = n)
    (ha : as[k]? = some a) (hb : bs[k]? = some b) (hr : r ≤ 8) :
    beNat as >>> (8 * n - (8 * k + r)) = beNat bs >>> (8 * n - (8 * k + r)) ↔
      as.take k = bs.take k ∧ a.toNat >>> (8 - r) = b.toNat >>> (8 - r) := by
  have hcut : ∀ (cs : List UInt8) (c : UInt8), cs.length = n → cs[k]? = some c →
      beNat cs >>> (8 * n - (8 * k + r)) = beNat (cs.take k) * 2 ^ r + c.toNat >>> (8 - r) := by
    intro cs c hcs hc
    obtain ⟨hk, rfl⟩ := List.getElem?_eq_some_iff.mp hc
    have hdrop : (cs.drop (k + 1)).length = n - (k + 1) := by rw [List.length_drop, hcs]
    have hshift : 8 * n - (8 * k + r) = 8 * (cs.drop (k + 1)).length + (8 - r) := by omega
    rw [hshift, ← shiftRight_beNat hr, List.getElem_cons_drop, List.take_append_drop]
  rw [hcut as a has ha, hcut bs b hbs hb, mul_add_shiftRight_inj hr, beNat_inj]
  rw [List.length_take, List.length_take, has, hbs]

/-- Agreement in the first `k` bytes. -/
theorem firstBytes_iff {n k : ℕ} (has : as.length = n) (hbs : bs.length = n) (hk : k ≤ n) :
    beNat as >>> (8 * n - 8 * k) = beNat bs >>> (8 * n - 8 * k) ↔ as.take k = bs.take k := by
  have hcut : ∀ cs : List UInt8, cs.length = n →
      beNat cs >>> (8 * n - 8 * k) = beNat (cs.take k) := by
    intro cs h
    have hshift : 8 * n - 8 * k = 8 * (cs.drop k).length := by rw [List.length_drop]; omega
    rw [hshift, ← shiftRight_beNat_append (cs.take k) (cs.drop k), List.take_append_drop]
  rw [hcut as has, hcut bs hbs, beNat_inj]
  rw [List.length_take, List.length_take, has, hbs]

/-! ## Masks -/

/-- The high bits of a byte, `s` bits from the low end on. -/
theorem and_highMask (s : ℕ) (b : UInt8) :
    (b &&& UInt8.ofNat (0xFF <<< s)).toNat = (b.toNat >>> s) <<< s := by
  have hmask : (UInt8.ofNat (0xFF <<< s)).toNat = (2 ^ 8 - 1) <<< s % 2 ^ 8 := rfl
  rw [UInt8.toNat_and, hmask]
  refine Nat.eq_of_testBit_eq fun i => ?_
  rw [Nat.testBit_and, Nat.testBit_mod_two_pow, Nat.testBit_shiftLeft, Nat.testBit_shiftLeft,
    Nat.testBit_two_pow_sub_one, Nat.testBit_shiftRight]
  by_cases hi : i < 8
  · by_cases hsi : s ≤ i
    · have hlt : i - s < 8 := by omega
      simp [hi, hsi, hlt]
    · simp [hsi]
  · -- above the byte there is nothing on either side
    have hb : b.toNat.testBit i = false :=
      Nat.testBit_lt_two_pow (Nat.lt_of_lt_of_le b.toNat_lt (Nat.pow_le_pow_right (by omega)
        (Nat.not_lt.mp hi)))
    by_cases hsi : s ≤ i
    · simp [hi, hb, Nat.add_sub_cancel' hsi]
    · simp [hsi, hi]

/-- **Bytes agree under the mask** when their high bits do. -/
theorem and_highMask_inj (s : ℕ) (a b : UInt8) :
    a &&& UInt8.ofNat (0xFF <<< s) = b &&& UInt8.ofNat (0xFF <<< s) ↔
      a.toNat >>> s = b.toNat >>> s := by
  rw [← UInt8.toNat_inj, and_highMask, and_highMask, Nat.shiftLeft_eq, Nat.shiftLeft_eq,
    Nat.mul_left_inj (Nat.pos_iff_ne_zero.mp (Nat.pow_pos (by omega)))]

end PyNng
