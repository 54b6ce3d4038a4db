import Mathlib.Order.Lex
import CentralOps.Lib.IpNetwork
import CentralOps.Lib.KeySort
import CentralOps.Ingest.Classifier

namespace CentralOps
set_option autoImplicit true

inductive Transport where
  | any | udp | tcp | tls
  deriving DecidableEq

structure SourceTable.SourceMatch (ε : Type) where
  sourceId : Int
  integrationId : Int
  organizationId : Int
  platform : String
  classifier : Classifier ε
  name : String

structure SourceEntry (ε : Type) where
  network : Ip.Network
  listenPort : Option Int
  transport : Transport
  sourceMatch : SourceTable.SourceMatch ε

def SourceEntry.sortKey (e : SourceEntry ε) : Int ×ₗ Bool ×ₗ Bool :=
  toLex (-(e.network.prefixlen : Int), toLex (e.listenPort.isNone, decide (e.transport = .any)))

/-- The tests of the loop of `resolve`. -/
def SourceEntry.serves (e : SourceEntry ε) (ip : Ip.Address) (port : Int) (transport : Transport) :
    Bool :=
  e.network.contains ip && (e.listenPort.isNone || e.listenPort = some port) &&
    (e.transport = .any || e.transport = transport)

def sortedEntries (entries : List (SourceEntry ε)) : List (SourceEntry ε) :=
  (Assoc.byKey (entries.map fun e => (e.sortKey, e))).map Prod.snd

def BySortKey (e f : SourceEntry ε) : Prop := e.sortKey ≤ f.sortKey

instance reflBySortKey : Std.Refl (BySortKey (ε := ε)) := ⟨fun _ => le_rfl⟩

theorem sortedEntries_perm (entries : List (SourceEntry ε)) :
    (sortedEntries entries).Perm entries := by
  have h := (Assoc.byKey_perm (entries.map fun e => (e.sortKey, e))).map Prod.snd
  rw [List.map_map] at h
  simpa [sortedEntries, Function.comp_def] using h

theorem sortedEntries_sorted (entries : List (SourceEntry ε)) :
    (sortedEntries entries).Pairwise BySortKey := by
  rw [sortedEntries, List.pairwise_map]
  have hkey : ∀ q ∈ Assoc.byKey (entries.map fun e => (e.sortKey, e)), q.1 = q.2.sortKey := by
    intro q hq
    obtain ⟨e, _, rfl⟩ := List.mem_map.1 ((Assoc.byKey_perm _).mem_iff.1 hq)
    rfl
  apply (Assoc.byKey_sorted _).imp_of_mem
  intro q q' hq hq' hle
  rw [BySortKey, ← hkey q hq, ← hkey q' hq']
  exact hle

structure SourceTable (ε : Type) where
  entries : List (SourceEntry ε)
  sorted : entries.Pairwise BySortKey

def SourceTable.ofEntries (entries : List (SourceEntry ε)) : SourceTable ε :=
  ⟨sortedEntries entries, sortedEntries_sorted entries⟩

def SourceTable.resolve (t : SourceTable ε) (lib : Ip.Library) (peerIp : String) (port : Int)
    (transport : Transport) : Option (SourceTable.SourceMatch ε) :=
  match lib.address peerIp with
  | none => none
  | some ip => (t.entries.find? fun e => e.serves ip port transport).map (·.sourceMatch)

/-- How specific an entry is: prefix length, port and transport. -/
def SourceEntry.rank (e : SourceEntry ε) : Nat ×ₗ Bool ×ₗ Bool :=
  toLex (e.network.prefixlen, toLex (e.listenPort.isSome, decide (e.transport ≠ .any)))

theorem bySortKey_iff (e f : SourceEntry ε) : BySortKey e f ↔ f.rank ≤ e.rank := by
  rw [BySortKey, SourceEntry.sortKey, SourceEntry.sortKey, SourceEntry.rank, SourceEntry.rank]
  simp only [Prod.Lex.toLex_le_toLex, ← Option.not_isSome, decide_not]
  have hflip : ∀ p q p' q' : Bool,
      ((!p) < (!q) ∨ (!p) = (!q) ∧ p' ≤ q') ↔ (q < p ∨ q = p ∧ (!q') ≤ (!p')) := by decide
  rw [hflip]
  constructor
  · intro h
    rcases h with h | ⟨h, hrest⟩
    · exact .inl (by omega)
    · exact .inr ⟨by omega, hrest⟩
  · intro h
    rcases h with h | ⟨h, hrest⟩
    · exact .inl (by omega)
    · exact .inr ⟨by omega, hrest⟩

/-- What no two sources have in common. -/
def SourceEntry.listens (e : SourceEntry ε) : Ip.Network × Option Int × Transport :=
  (e.network, e.listenPort, e.transport)

theorem listens_eq {e f : SourceEntry ε} (he : e.serves ip port transport = true)
    (hf : f.serves ip port transport = true) (hrank : e.rank = f.rank) : e.listens = f.listens := by
  simp only [SourceEntry.serves, Bool.and_eq_true, Bool.or_eq_true, decide_eq_true_iff] at he hf
  obtain ⟨⟨henet, heport⟩, hetrans⟩ := he
  obtain ⟨⟨hfnet, hfport⟩, hftrans⟩ := hf
  simp only [SourceEntry.rank, EmbeddingLike.apply_eq_iff_eq, Prod.mk.injEq] at hrank
  obtain ⟨hlen, hport, htrans⟩ := hrank
  have hnet := Ip.eq_of_contains henet hfnet hlen
  have hports : e.listenPort = f.listenPort := by
    cases he : e.listenPort <;> cases hf : f.listenPort <;> simp_all
  have htransports : e.transport = f.transport := by
    by_cases ht : e.transport = .any <;> by_cases ht' : f.transport = .any <;> simp_all
  rw [SourceEntry.listens, SourceEntry.listens, hnet, hports, htransports]

theorem eq_of_listens {entries : List (SourceEntry ε)}
    (hdistinct : entries.Pairwise fun e f => e.listens ≠ f.listens) (he : e ∈ entries)
    (hf : f ∈ entries) (h : e.listens = f.listens) : e = f := by
  induction entries with
  | nil => cases he
  | cons a entries ih =>
    obtain ⟨ha, hrest⟩ := List.pairwise_cons.1 hdistinct
    rcases List.mem_cons.1 he with rfl | he' <;> rcases List.mem_cons.1 hf with rfl | hf'
    · rfl
    · exact absurd h (ha f hf')
    · exact absurd h.symm (ha e he')
    · exact ih hrest he' hf'

/-- An entry matches a message whose peer is an address of its network. -/
def SourceEntry.Matches (e : SourceEntry ε) (lib : Ip.Library) (peerIp : String) (port : Int)
    (transport : Transport) : Prop :=
  ∃ ip, lib.address peerIp = some ip ∧ e.serves ip port transport = true

section Resolve
variable (lib : Ip.Library) (entries : List (SourceEntry ε)) (peerIp : String) (port : Int)
  (transport : Transport)

theorem resolve_eq_none_iff :
    (SourceTable.ofEntries entries).resolve lib peerIp port transport = none ↔
      ∀ e ∈ entries, ¬ e.Matches lib peerIp port transport := by
  rw [SourceTable.resolve]
  cases hip : lib.address peerIp with
  | none => simp [SourceEntry.Matches, hip]
  | some ip =>
    simp only [Option.map_eq_none_iff, List.find?_eq_none, SourceEntry.Matches, hip,
      Option.some.injEq, exists_eq_left']
    exact forall_congr' fun e => by rw [SourceTable.ofEntries, (sortedEntries_perm entries).mem_iff]

theorem resolve_spec
    (h : (SourceTable.ofEntries entries).resolve lib peerIp port transport = some m) :
    ∃ e ∈ entries, e.Matches lib peerIp port transport ∧ m = e.sourceMatch ∧
      ∀ f ∈ entries, f.Matches lib peerIp port transport → f.rank ≤ e.rank := by
  rw [SourceTable.resolve] at h
  cases hip : lib.address peerIp with
  | none =>
    rw [hip] at h
    cases h
  | some ip =>
    rw [hip] at h
    obtain ⟨e, he, hm⟩ := Option.map_eq_some_iff.1 h
    have hmem := List.mem_of_find?_eq_some he
    have hserves := List.find?_some he
    refine ⟨e, (sortedEntries_perm entries).mem_iff.1 hmem, ⟨ip, hip, hserves⟩, hm.symm, ?_⟩
    intro f hf hmatches
    obtain ⟨ip', hip', hf'⟩ := hmatches
    obtain rfl : ip = ip' := Option.some.inj (hip.symm.trans hip')
    exact (bySortKey_iff e f).1 (FirstMatch.find?_le (sortedEntries_sorted entries) he f
      ((sortedEntries_perm entries).mem_iff.2 hf) hf')

theorem resolve_perm (hdistinct : entries.Pairwise fun e f => e.listens ≠ f.listens)
    (hperm : entries.Perm entries') :
    (SourceTable.ofEntries entries).resolve lib peerIp port transport =
      (SourceTable.ofEntries entries').resolve lib peerIp port transport := by
  rw [SourceTable.resolve, SourceTable.resolve]
  cases lib.address peerIp with
  | none => rfl
  | some ip =>
    have hsorted : (sortedEntries entries).Perm (sortedEntries entries') :=
      (sortedEntries_perm entries).trans (hperm.trans (sortedEntries_perm entries').symm)
    have hfind : (sortedEntries entries).find? (fun e => e.serves ip port transport) =
        (sortedEntries entries').find? (fun e => e.serves ip port transport) := by
      apply FirstMatch.find?_eq_of_perm hsorted (sortedEntries_sorted entries)
        (sortedEntries_sorted entries')
      intro e he f hf hes hfs hef hfe
      have hrank := le_antisymm ((bySortKey_iff f e).1 hfe) ((bySortKey_iff e f).1 hef)
      exact eq_of_listens hdistinct ((sortedEntries_perm entries).mem_iff.1 he)
        ((sortedEntries_perm entries).mem_iff.1 hf) (listens_eq hes hfs hrank)
    exact congrArg (Option.map (·.sourceMatch)) hfind

end Resolve

/-- The parser on one address. -/
def oneAddress : Ip.Library where
  address s := if s = "10.0.5.7" then some ⟨.v4, 167773447, by decide⟩ else none
  network _ := none

def sourceNumbered (i : Int) : SourceTable.SourceMatch String :=
  ⟨i, i, 1, "generic", ⟨[], none⟩, "source"⟩

/-- `10.0.0.0/8` and `10.0.5.0/24`. -/
def nestedSources : List (SourceEntry String) :=
  [⟨⟨.v4, 167772160, 8, by decide, by decide, by decide⟩, none, .any, sourceNumbered 1⟩,
    ⟨⟨.v4, 167773440, 24, by decide, by decide, by decide⟩, none, .any, sourceNumbered 2⟩]

end CentralOps
