import Bindery.Text.Vlq

/-!
# Variable-length numbers are read back

Numbers that are written one behind the other are read one after the other, since a group tells
whether it is the last one of its number.

* `Text.Vlq.numbers?` : the numbers that a text stands for.
* `Text.Vlq.numbers?_encode` : reading a written number.
* `Text.Vlq.mem_alphabet_of_mem_encode` : the characters of a written number.
-/

namespace Bindery.Text.Vlq

/-- The value of a character. -/
def value? (c : Char) : Option Nat := alphabet.findIdx? (· == c)

/-- The number with this magnitude and sign; the sign is the lowest bit. -/
def unsigned (n : Nat) : Int := if n % 2 = 1 then -(n / 2 : Nat) else (n / 2 : Nat)

/-- The numbers that a text stands for. `sum` holds the groups of the first of them that have been
read, and `weight` is what the next one counts. -/
def numbers? (weight sum : Nat) : List Char → Option (List Int)
  | [] => if weight = 1 then some [] else none
  | c :: r =>
    match value? c with
    | none => none
    | some v =>
      if v < 32 then (numbers? 1 0 r).map (unsigned (sum + weight * v) :: ·)
      else numbers? (32 * weight) (sum + weight * (v - 32)) r

theorem value?_digit : ∀ n < 64, value? (digit n) = some n := by decide

theorem digit_mem_alphabet : ∀ n < 64, digit n ∈ alphabet := by decide

theorem unsigned_signed (i : Int) : unsigned (signed i) = i := by
  unfold unsigned signed
  split
  · rw [if_pos (by omega)]
    omega
  · rw [if_neg (by omega)]
    omega

theorem lt_of_mem_groups {n v : Nat} (h : v ∈ groups n) : v < 64 := by
  induction n using groups.induct with
  | case1 n hlast =>
    rw [groups, if_pos hlast, List.mem_singleton] at h
    omega
  | case2 n hmore ih =>
    rw [groups, if_neg hmore, List.mem_cons] at h
    rcases h with rfl | h
    · omega
    · exact ih h

/-- The groups of a number are put together again, whatever was read before and whatever follows. -/
theorem numbers?_groups (n weight sum : Nat) (r : List Char) :
    numbers? weight sum ((groups n).map digit ++ r) =
      (numbers? 1 0 r).map (unsigned (sum + weight * n) :: ·) := by
  induction n using groups.induct generalizing weight sum with
  | case1 n hlast =>
    rw [groups, if_pos hlast, List.map_singleton, List.singleton_append, numbers?,
      value?_digit n (by omega)]
    exact if_pos hlast
  | case2 n hmore ih =>
    have hlarge : ¬ n % 32 + 32 < 32 := by omega
    have hsum : sum + weight * (n % 32) + 32 * weight * (n / 32) = sum + weight * n := by
      rw [Nat.mul_comm 32 weight, Nat.mul_assoc, Nat.add_assoc, ← Nat.mul_add, Nat.mod_add_div]
    rw [groups, if_neg hmore, List.map_cons, List.cons_append, numbers?,
      value?_digit _ (by omega)]
    simp only [if_neg hlarge, Nat.add_sub_cancel, ih, hsum]

/-- A written number is read, and then what follows it. -/
theorem numbers?_encode (i : Int) (r : List Char) :
    numbers? 1 0 (encode i ++ r) = (numbers? 1 0 r).map (i :: ·) := by
  rw [encode, numbers?_groups, Nat.zero_add, Nat.one_mul, unsigned_signed]

theorem mem_alphabet_of_mem_encode {i : Int} {c : Char} (h : c ∈ encode i) : c ∈ alphabet := by
  obtain ⟨v, hv, rfl⟩ := List.mem_map.1 h
  exact digit_mem_alphabet v (lt_of_mem_groups hv)

end Bindery.Text.Vlq
