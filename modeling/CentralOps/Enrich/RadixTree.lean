import CentralOps.Lib.BitTrie
import CentralOps.Lib.IpNetwork
import CentralOps.Json

namespace CentralOps
set_option autoImplicit true

structure RadixTree (β : Type) where
  root4 : BitTrie β := .empty
  root6 : BitTrie β := .empty
  count : Nat := 0
  bytes : Nat := 0

namespace RadixTree

def parseNetwork (lib : Ip.Library) (text : String) : Option Ip.Network :=
  lib.network (String.ofList (pyStrip text.toList))

def ipToBits (lib : Ip.Library) (text : String) : Option Ip.Address :=
  lib.address (String.ofList (pyStrip text.toList))

def root (t : RadixTree β) : Ip.Version → BitTrie β
  | .v4 => t.root4
  | .v6 => t.root6

def setRoot (t : RadixTree β) (r : BitTrie β) : Ip.Version → RadixTree β
  | .v4 => { t with root4 := r }
  | .v6 => { t with root6 := r }

/-- What `insert` does with a network. -/
def insertNetwork (t : RadixTree β) (net : Ip.Network) (size : Nat) (value : β) : RadixTree β :=
  let node := (t.root net.version).get net.bits
  let grown := t.setRoot ((t.root net.version).insert value net.bits) net.version
  { grown with
    count := if node.isNone then t.count + 1 else t.count
    bytes := t.bytes + (size + 120 * max net.prefixlen 1 / 8 + 64) }

def insert (lib : Ip.Library) (t : RadixTree β) (cidr : String) (value : β) : RadixTree β × Bool :=
  match parseNetwork lib cidr with
  | none => (t, false)
  | some net => (t.insertNetwork net cidr.length value, true)

def search (lib : Ip.Library) (t : RadixTree β) (ip : String) : Option β :=
  match ipToBits lib ip with
  | none => none
  | some addr => (t.root addr.version).search addr.bits

def entryCount (t : RadixTree β) : Nat := t.count

/-- The calls of `insert`, in their order. -/
def insertRows (lib : Ip.Library) (t : RadixTree β) (rows : List (String × β)) : RadixTree β :=
  rows.foldl (fun t row => (t.insert lib row.1 row.2).1) t

/-- One turn of the loop of `from_rows`, with the invalid rows counted. -/
def fromRow (lib : Ip.Library) (acc : RadixTree β × Nat) (row : String × β) : RadixTree β × Nat :=
  let (t, inserted) := acc.1.insert lib row.1 row.2
  (t, if inserted then acc.2 else acc.2 + 1)

def fromRows (lib : Ip.Library) (rows : List (String × β)) : RadixTree β × Nat :=
  rows.foldl (fromRow lib) ({}, 0)

/-- The rows that name a network, with the network. -/
def inserted (lib : Ip.Library) (rows : List (String × β)) : List (Ip.Network × β) :=
  rows.filterMap fun row => (parseNetwork lib row.1).map fun net => (net, row.2)

/-- The last inserted among the longest networks that contain an address. -/
def LongestMatch (entries : List (Ip.Network × β)) (ip : Ip.Address) (v : β) : Prop :=
  ∃ before net after, entries = before ++ (net, v) :: after ∧ net.contains ip = true ∧
    (∀ e ∈ before, e.1.contains ip = true → e.1.prefixlen ≤ net.prefixlen) ∧
    ∀ e ∈ after, e.1.contains ip = true → e.1.prefixlen < net.prefixlen

/-- What an entry puts into the trie of a version. -/
def pathOf (version : Ip.Version) (e : Ip.Network × β) : Option (List Bool × β) :=
  if e.1.version = version then some (e.1.bits, e.2) else none

theorem pathOf_eq_some_iff (version : Ip.Version) (e : Ip.Network × β) :
    pathOf version e = some (p, v) ↔ e.1.version = version ∧ e.1.bits = p ∧ e.2 = v := by
  rw [pathOf]
  by_cases h : e.1.version = version
  · simp [h]
  · simp [h]

section Roots

@[simp] theorem root_insertNetwork (t : RadixTree β) (net : Ip.Network) (size : Nat) (value : β)
    (version : Ip.Version) :
    (t.insertNetwork net size value).root version =
      if net.version = version then (t.root version).insert value net.bits
      else t.root version := by
  cases hv : net.version <;> cases version <;> simp [insertNetwork, root, setRoot, hv]

theorem insertRows_append (lib : Ip.Library) (t : RadixTree β) (rows : List (String × β))
    (row : String × β) :
    t.insertRows lib (rows ++ [row]) = ((t.insertRows lib rows).insert lib row.1 row.2).1 := by
  rw [insertRows, insertRows, List.foldl_append]
  rfl

theorem inserted_append (lib : Ip.Library) (rows : List (String × β)) (row : String × β) :
    inserted lib (rows ++ [row]) =
      inserted lib rows ++ ((parseNetwork lib row.1).map fun net => (net, row.2)).toList := by
  rw [inserted, List.filterMap_append]
  cases h : parseNetwork lib row.1 <;> simp [inserted, h]

theorem root_insertRows (lib : Ip.Library) (rows : List (String × β)) (version : Ip.Version) :
    (insertRows lib {} rows).root version =
      BitTrie.empty.insertAll ((inserted lib rows).filterMap (pathOf version)) := by
  induction rows using List.reverseRecOn with
  | nil => cases version <;> rfl
  | append_singleton rows row ih =>
    rw [insertRows_append, inserted_append, insert]
    cases parseNetwork lib row.1 with
    | none => simpa using ih
    | some net =>
      rw [root_insertNetwork, ih, Option.map_some, Option.toList_some, List.filterMap_append,
        BitTrie.insertAll, BitTrie.insertAll, List.foldl_append]
      by_cases hv : net.version = version <;> simp [pathOf, hv]

theorem isNone_get_insertRows (lib : Ip.Library) (rows : List (String × β)) (net : Ip.Network) :
    (((insertRows lib {} rows).root net.version).get net.bits).isNone = true ↔
      net ∉ (inserted lib rows).map Prod.fst := by
  rw [Option.isNone_iff_eq_none, root_insertRows, BitTrie.get_insertAll_eq_none_iff]
  constructor
  · intro h hmem
    obtain ⟨e, he, rfl⟩ := List.mem_map.1 hmem
    exact h (e.1.bits, e.2)
      (List.mem_filterMap.2 ⟨e, he, (pathOf_eq_some_iff _ e).2 ⟨rfl, rfl, rfl⟩⟩) rfl
  · intro h p hp hbits
    obtain ⟨e, he, hpath⟩ := List.mem_filterMap.1 hp
    obtain ⟨hversion, hpathbits, _⟩ := (pathOf_eq_some_iff _ e).1 hpath
    have hnet : e.1 = net := Ip.eq_of_bits hversion (hpathbits.trans hbits)
    exact h (List.mem_map.2 ⟨e, he, hnet⟩)

/-- The counter is the number of distinct networks. -/
theorem entryCount_insertRows (lib : Ip.Library) (rows : List (String × β)) :
    (insertRows lib {} rows).entryCount =
      ((inserted lib rows).map Prod.fst).toFinset.card := by
  induction rows using List.reverseRecOn with
  | nil => rfl
  | append_singleton rows row ih =>
    rw [insertRows_append, inserted_append, insert]
    cases parseNetwork lib row.1 with
    | none => simpa using ih
    | some net =>
      have hnew := isNone_get_insertRows lib rows net
      rw [Option.map_some, Option.toList_some, List.map_append, List.toFinset_append,
        Finset.union_comm]
      change (if _ then (insertRows lib {} rows).entryCount + 1
        else (insertRows lib {} rows).entryCount) = _
      rw [ih]
      by_cases hmem : net ∈ (inserted lib rows).map Prod.fst
      · rw [if_neg fun h => hnew.1 h hmem]
        exact congrArg Finset.card
          (Finset.insert_eq_of_mem (List.mem_toFinset.2 hmem)).symm
      · rw [if_pos (hnew.2 hmem)]
        exact (Finset.card_insert_of_notMem fun h => hmem (List.mem_toFinset.1 h)).symm

end Roots

section Longest

theorem contains_iff_path {e : Ip.Network × β} {ip : Ip.Address}
    (h : pathOf ip.version e = some (p, v)) : e.1.contains ip = true ↔ p <+: ip.bits := by
  obtain ⟨hversion, rfl, _⟩ := (pathOf_eq_some_iff _ e).1 h
  rw [Ip.contains_iff]
  exact ⟨fun h => h.2, fun h => ⟨hversion.symm, h⟩⟩

theorem pathOf_of_contains {e : Ip.Network × β} {ip : Ip.Address} (h : e.1.contains ip = true) :
    pathOf ip.version e = some (e.1.bits, e.2) :=
  (pathOf_eq_some_iff _ e).2 ⟨((Ip.contains_iff _ _).1 h).1.symm, rfl, rfl⟩

theorem length_bits (net : Ip.Network) : net.bits.length = net.prefixlen :=
  Ip.length_leadingBits _ _ _

/-- The networks of the other version play no part. -/
theorem longestPrefix_iff (entries : List (Ip.Network × β)) (ip : Ip.Address) (v : β) :
    BitTrie.LongestPrefix (entries.filterMap (pathOf ip.version)) ip.bits v ↔
      LongestMatch entries ip v := by
  constructor
  · intro h
    obtain ⟨before, p, after, heq, hp, hbefore, hafter⟩ := h
    obtain ⟨before', rest, rfl, hbefore', hrest⟩ := List.filterMap_eq_append_iff.1 heq
    obtain ⟨skipped, e, after', rfl, hskipped, he, hafter'⟩ := List.filterMap_eq_cons_iff.1 hrest
    obtain ⟨_, hbits, hv⟩ := (pathOf_eq_some_iff _ e).1 he
    have hlen : p.length = e.1.prefixlen := by rw [← hbits, length_bits]
    refine ⟨before' ++ skipped, e.1, after', ?_, (contains_iff_path he).2 hp, ?_, ?_⟩
    · rw [← hv, List.append_assoc]
    · intro e' he' hcontains
      have hpath := pathOf_of_contains hcontains
      rw [← length_bits, ← hlen]
      rcases List.mem_append.1 he' with he' | he'
      · exact hbefore (e'.1.bits, e'.2) (hbefore' ▸ List.mem_filterMap.2 ⟨e', he', hpath⟩)
          ((contains_iff_path hpath).1 hcontains)
      · rw [hskipped e' he'] at hpath
        cases hpath
    · intro e' he' hcontains
      have hpath := pathOf_of_contains hcontains
      rw [← length_bits, ← hlen]
      exact hafter (e'.1.bits, e'.2) (hafter' ▸ List.mem_filterMap.2 ⟨e', he', hpath⟩)
        ((contains_iff_path hpath).1 hcontains)
  · intro h
    obtain ⟨before, net, after, rfl, hcontains, hbefore, hafter⟩ := h
    have hpath := pathOf_of_contains (e := (net, v)) hcontains
    refine ⟨before.filterMap (pathOf ip.version), net.bits, after.filterMap (pathOf ip.version),
      ?_, (contains_iff_path hpath).1 hcontains, ?_, ?_⟩
    · rw [List.filterMap_append, List.filterMap_cons_some hpath]
    · intro q hq hprefix
      obtain ⟨e, he, hqpath⟩ := List.mem_filterMap.1 hq
      have hle := hbefore e he ((contains_iff_path hqpath).2 hprefix)
      rw [← ((pathOf_eq_some_iff _ e).1 hqpath).2.1, length_bits, length_bits]
      exact hle
    · intro q hq hprefix
      obtain ⟨e, he, hqpath⟩ := List.mem_filterMap.1 hq
      have hlt := hafter e he ((contains_iff_path hqpath).2 hprefix)
      rw [← ((pathOf_eq_some_iff _ e).1 hqpath).2.1, length_bits, length_bits]
      exact hlt

theorem search_of_address {lib : Ip.Library} {ip : String} {addr : Ip.Address}
    (h : ipToBits lib ip = some addr) (rows : List (String × β)) :
    (insertRows lib {} rows).search lib ip =
      BitTrie.search addr.bits
        (BitTrie.empty.insertAll ((inserted lib rows).filterMap (pathOf addr.version))) := by
  rw [search, h, ← root_insertRows]

theorem search_of_no_address {lib : Ip.Library} {ip : String} (h : ipToBits lib ip = none)
    (t : RadixTree β) : t.search lib ip = none := by
  rw [search, h]

theorem fromRows_eq (lib : Ip.Library) (rows : List (String × β)) :
    (fromRows lib rows).1 = insertRows lib {} rows ∧
      (fromRows lib rows).2 + (inserted lib rows).length = rows.length := by
  induction rows using List.reverseRecOn with
  | nil => exact ⟨rfl, rfl⟩
  | append_singleton rows row ih =>
    obtain ⟨htree, hskipped⟩ := ih
    rw [fromRows, List.foldl_append]
    change (fromRow lib (fromRows lib rows) row).1 = _ ∧
      (fromRow lib (fromRows lib rows) row).2 + _ = _
    rw [insertRows_append, inserted_append, ← htree, fromRow, insert, List.length_append,
      List.length_append, ← hskipped]
    cases parseNetwork lib row.1 with
    | none => exact ⟨rfl, Nat.add_right_comm _ 1 _⟩
    | some net => exact ⟨rfl, (Nat.add_assoc _ _ 1).symm⟩

/-- Where no network comes twice, the longest match does not depend on the order. -/
theorem longestMatch_iff {entries : List (Ip.Network × β)} {ip : Ip.Address} {v : β}
    (h : (entries.map Prod.fst).Nodup) : LongestMatch entries ip v ↔
      ∃ net, (net, v) ∈ entries ∧ net.contains ip = true ∧
        ∀ e ∈ entries, e.1.contains ip = true → e.1.prefixlen ≤ net.prefixlen := by
  constructor
  · rintro ⟨before, net, after, rfl, hcontains, hbefore, hafter⟩
    refine ⟨net, by simp, hcontains, ?_⟩
    intro e he hin
    obtain he | he := List.mem_append.1 he
    · exact hbefore e he hin
    · obtain rfl | he := List.mem_cons.1 he
      · exact le_rfl
      · exact (hafter e he hin).le
  · rintro ⟨net, hmem, hcontains, hlongest⟩
    obtain ⟨before, after, rfl⟩ := List.append_of_mem hmem
    refine ⟨before, net, after, rfl, hcontains, ?_, ?_⟩
    · intro e he
      exact hlongest e (List.mem_append_left _ he)
    · intro e he hin
      have hle := hlongest e (List.mem_append_right _ (List.mem_cons_of_mem _ he)) hin
      refine lt_of_le_of_ne hle fun heq => ?_
      obtain rfl := Ip.eq_of_contains hin hcontains heq
      simp only [List.map_append, List.map_cons, List.nodup_append, List.nodup_cons] at h
      exact h.2.1.1 (List.mem_map_of_mem he)

end Longest

end RadixTree

def twoNetworks : Ip.Library where
  address text := if text = "172.16.0.1" then some ⟨.v4, 0xac100001, by decide⟩ else none
  network text :=
    if text = "0.0.0.0/0" then some ⟨.v4, 0, 0, by decide, by decide, by decide⟩
    else if text = "172.16.0.0/12" then some ⟨.v4, 0xac100000, 12, by decide, by decide, by decide⟩
    else none

end CentralOps
