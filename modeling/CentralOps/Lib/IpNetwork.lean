import Mathlib.Data.Nat.Bitwise
import Mathlib.Data.List.Range

namespace Ip
set_option autoImplicit true

inductive Version where
  | v4 | v6
  deriving DecidableEq

/-- `max_prefixlen`. -/
def Version.bits : Version → Nat
  | .v4 => 32
  | .v6 => 128

structure Address where
  version : Version
  value : Nat
  fits : value < 2 ^ version.bits
  deriving DecidableEq

def masked (version : Version) (prefixlen value : Nat) : Nat :=
  (value >>> (version.bits - prefixlen)) <<< (version.bits - prefixlen)

structure Network where
  version : Version
  address : Nat
  prefixlen : Nat
  short : prefixlen ≤ version.bits
  fits : address < 2 ^ version.bits
  noHostBits : masked version prefixlen address = address
  deriving DecidableEq

/-- `ip in network`. -/
def Network.contains (n : Network) (ip : Address) : Bool :=
  ip.version = n.version && masked n.version n.prefixlen ip.value = n.address

/-- The parsers of addresses and of networks, the latter with `strict=False`. -/
structure Library where
  address : String → Option Address
  network : String → Option Network

/-- The first bits of an integer of some width, from the most significant one. -/
def leadingBits (width value n : Nat) : List Bool :=
  (List.range n).map fun i => value.testBit (width - 1 - i)

def Address.bits (ip : Address) : List Bool := leadingBits ip.version.bits ip.value ip.version.bits

def Network.bits (n : Network) : List Bool := leadingBits n.version.bits n.address n.prefixlen

@[simp] theorem length_leadingBits (width value n : Nat) :
    (leadingBits width value n).length = n := by
  rw [leadingBits, List.length_map, List.length_range]

theorem getElem?_leadingBits (width value : Nat) (h : i < n) :
    (leadingBits width value n)[i]? = some (value.testBit (width - 1 - i)) := by
  rw [leadingBits, List.getElem?_map, List.getElem?_range h]
  rfl

theorem testBit_masked (version : Version) (prefixlen value i : Nat) :
    (masked version prefixlen value).testBit i =
      (decide (version.bits - prefixlen ≤ i) && value.testBit i) := by
  rw [masked, Nat.testBit_shiftLeft, Nat.testBit_shiftRight]
  by_cases h : version.bits - prefixlen ≤ i
  · rw [Nat.add_sub_cancel' h]
  · simp [h]

/-- Two integers have one prefix when they agree in their first bits. -/
theorem masked_eq_iff {version : Version} {a b : Nat} (ha : a < 2 ^ version.bits)
    (hb : b < 2 ^ version.bits) (hn : n ≤ version.bits) :
    masked version n a = masked version n b ↔
      leadingBits version.bits a n = leadingBits version.bits b n := by
  constructor
  · intro h
    apply List.map_congr_left
    intro i hi
    have hi := List.mem_range.1 hi
    have hbit := congrArg (fun m => Nat.testBit m (version.bits - 1 - i)) h
    simp only [testBit_masked] at hbit
    have hle : version.bits - n ≤ version.bits - 1 - i := by omega
    simpa only [hle, decide_true, Bool.true_and] using hbit
  · intro h
    apply Nat.eq_of_testBit_eq
    intro j
    rw [testBit_masked, testBit_masked]
    by_cases hj : version.bits - n ≤ j
    · by_cases hlt : j < version.bits
      · have hi : version.bits - 1 - j < n := by omega
        have hat := congrArg (fun l : List Bool => l[version.bits - 1 - j]?) h
        simp only [getElem?_leadingBits _ _ hi, Option.some.injEq] at hat
        have hback : version.bits - 1 - (version.bits - 1 - j) = j := by omega
        rw [hback] at hat
        rw [hat]
      · have hpow : 2 ^ version.bits ≤ 2 ^ j := Nat.pow_le_pow_right (by decide) (by omega)
        rw [Nat.testBit_lt_two_pow (Nat.lt_of_lt_of_le ha hpow),
          Nat.testBit_lt_two_pow (Nat.lt_of_lt_of_le hb hpow)]
    · simp [hj]

theorem leadingBits_prefix (width value : Nat) (h : n ≤ m) :
    leadingBits width value n <+: leadingBits width value m := by
  refine ⟨(List.range' n (m - n)).map fun i => value.testBit (width - 1 - i), ?_⟩
  rw [leadingBits, leadingBits, ← List.map_append]
  congr 1
  rw [List.range_eq_range', List.range_eq_range', ← Nat.add_sub_of_le h]
  simpa using List.range'_append_1 (s := 0) (m := n) (n := m - n)

theorem contains_iff (n : Network) (ip : Address) :
    n.contains ip = true ↔ ip.version = n.version ∧ n.bits <+: ip.bits := by
  rw [Network.contains, Bool.and_eq_true, decide_eq_true_iff, decide_eq_true_iff]
  apply and_congr_right
  intro hv
  have hfits : ip.value < 2 ^ n.version.bits := hv ▸ ip.fits
  have hpre : leadingBits n.version.bits ip.value n.prefixlen <+: ip.bits := by
    rw [Address.bits, hv]
    exact leadingBits_prefix _ _ n.short
  rw [← n.noHostBits, masked_eq_iff hfits n.fits n.short, Network.bits]
  constructor
  · intro h
    rw [← h]
    exact hpre
  · intro h
    apply (List.prefix_of_prefix_length_le hpre h (by simp)).eq_of_length
    simp

theorem eq_of_contains {n m : Network} {ip : Address} (hn : n.contains ip = true)
    (hm : m.contains ip = true) (hlen : n.prefixlen = m.prefixlen) : n = m := by
  rw [Network.contains, Bool.and_eq_true, decide_eq_true_iff, decide_eq_true_iff] at hn hm
  obtain ⟨nv, na, np, _, _, _⟩ := n
  obtain ⟨mv, ma, mp, _, _, _⟩ := m
  dsimp only at hn hm hlen
  obtain rfl : nv = mv := hn.1.symm.trans hm.1
  subst hlen
  obtain rfl : na = ma := hn.2.symm.trans hm.2
  rfl

theorem eq_of_bits {n m : Network} (hv : n.version = m.version) (hbits : n.bits = m.bits) :
    n = m := by
  have hlen : n.prefixlen = m.prefixlen := by
    simpa only [Network.bits, length_leadingBits] using congrArg List.length hbits
  obtain ⟨nv, na, np, hshort, hnfits, hnhost⟩ := n
  obtain ⟨mv, ma, mp, _, hmfits, hmhost⟩ := m
  dsimp only at hv hlen
  subst hv
  subst hlen
  have heq := (masked_eq_iff hnfits hmfits hshort).2 hbits
  rw [hnhost, hmhost] at heq
  subst heq
  rfl

end Ip
