import CentralOps.Lib.Calendar
import Mathlib.Data.List.Dedup
import Mathlib.Data.List.Lex
import Mathlib.Data.List.Sort
import Mathlib.Data.Prod.Lex
import Mathlib.Logic.Relation

namespace CentralOps
set_option autoImplicit true

open Py

inductive When where
  | str (s : Text)
  | datetime (dt : DateTime)
  | none
  deriving DecidableEq

/-- `_parse_iso_utc_naive`. A time that leaves the years 1 to 9999 in UTC raises there and has no
instant here. -/
def parseIsoUtcNaive (raw : Text) : Option Nat :=
  let s := strip isSpace raw
  let len := s.length
  let s :=
    if s.getLast? = some (ch 'Z') ∨ s.getLast? = some (ch 'z') then s.dropLast ++ text "+00:00"
    else if 5 ≤ len ∧ (s[len - 5]? = some (ch '+') ∨ s[len - 5]? = some (ch '-')) ∧
        s[len - 3]? ≠ some (ch ':') then
      s.take (len - 2) ++ text ":" ++ s.drop (len - 2)
    else s
  (fromIsoFormat s).bind DateTime.utcWall

/-- `_instant`, as microseconds since year 1. -/
def instant : When → Option Nat
  | .str s => if strip isSpace s = [] then none else parseIsoUtcNaive s
  | .datetime dt => dt.utcWall
  | .none => none

/-- `is_later`. -/
def isLater (candidate current : When) : Bool :=
  match instant candidate, instant current with
  | none, _ => false
  | some _, none => true
  | some cand, some cur => cur < cand

/-- `MAX_KEYS`. -/
def maxKeys : Nat := 500

structure BoundaryMemory where
  start : Text
  keys : List Text
  deriving DecidableEq

/-- An instant and a key, in the order in which Python sorts them. -/
abbrev Seen := Nat ×ₗ Text

structure BoundaryKeys where
  windowStart : Option Text
  previous : List Text
  recent : List Seen := []
  skipped : Nat := 0

/-- `self._recent.sort()` and `del self._recent[:-MAX_KEYS]`. -/
def prune (recent : List Seen) : List Seen :=
  let sorted := recent.insertionSort (· ≤ ·)
  sorted.drop (sorted.length - maxKeys)

/-- What `observe` makes of the recent events. -/
def remember (recent : List Seen) (at? : Option Nat) (key : Text) : List Seen :=
  match at? with
  | none => recent
  | some t =>
    if key = [] then recent
    else
      let recent := recent ++ [toLex (t, key)]
      if 2 * maxKeys < recent.length then prune recent else recent

/-- The loop of `dump` over the keys of the boundary. -/
def pick (keys : List Text) : List Text → List Text
  | [] => keys
  | key :: rest =>
    if key ∈ keys then pick keys rest
    else if maxKeys ≤ keys.length then keys
    else pick (keys ++ [key]) rest

def reaches (bound : Nat) (s : Seen) : Bool := bound ≤ (ofLex s).1

namespace BoundaryKeys

def load (memory : Option BoundaryMemory) (window : Option Text) : BoundaryKeys :=
  match memory, window with
  | some m, some start =>
    if start ≠ [] ∧ m.start = start then ⟨window, (m.keys.filter (· ≠ [])).dedup, [], 0⟩
    else ⟨window, [], [], 0⟩
  | _, _ => ⟨window, [], [], 0⟩

def observe (b : BoundaryKeys) (at? : When) (key : Text) : BoundaryKeys :=
  { b with recent := remember b.recent (instant at?) key }

def seen (b : BoundaryKeys) (at? : When) (key : Text) : Bool × BoundaryKeys :=
  let b := b.observe at? key
  if key ≠ [] ∧ key ∈ b.previous then (true, { b with skipped := b.skipped + 1 }) else (false, b)

def carry (b : BoundaryKeys) : Option BoundaryMemory :=
  match b.windowStart with
  | none => none
  | some start =>
    if b.previous = [] ∨ start = [] then none
    else some ⟨start, b.previous.insertionSort (· ≤ ·)⟩

def dump (b : BoundaryKeys) (next : Text) : Option BoundaryMemory :=
  match instant (.str next) with
  | none => none
  | some bound =>
    let atOrAfter := (b.recent.filter (reaches bound)).insertionSort (· ≥ ·)
    let keys := pick [] (atOrAfter.map (fun s => (ofLex s).2))
    if keys = [] then if b.windowStart = some next then b.carry else none
    else some ⟨next, keys.insertionSort (· ≤ ·)⟩

end BoundaryKeys

structure VendorEvent where
  stamp : When
  key : Text
  deriving DecidableEq

/-- The events of a vendor: each has an instant and a key of its own. -/
structure VendorStore where
  events : List VendorEvent
  placed : ∀ e ∈ events, ∃ t, instant e.stamp = some t
  named : ∀ e ∈ events, e.key ≠ []
  keyed : ∀ e ∈ events, ∀ e' ∈ events, e.key = e'.key → e = e'

structure Collected where
  boundary : BoundaryKeys
  emitted : List VendorEvent := []
  passed : List VendorEvent := []

def Collected.next (c : Collected) (e : VendorEvent) : Collected :=
  match c.boundary.seen e.stamp e.key with
  | (true, b) => { c with boundary := b, passed := c.passed ++ [e] }
  | (false, b) => { c with boundary := b, emitted := c.emitted ++ [e] }

def readEvents (b : BoundaryKeys) (events : List VendorEvent) : Collected :=
  events.foldl Collected.next ⟨b, [], []⟩

structure BoundaryCursor where
  window : Text
  memory : Option BoundaryMemory

def BoundaryCursor.loaded (c : BoundaryCursor) : BoundaryKeys := .load c.memory (some c.window)

/-- A cycle that has run: what the vendor answered, what was emitted and what was skipped, the
instant of the next window, and whether the cycle succeeded. -/
structure BoundaryCycle where
  returned : List VendorEvent
  emitted : List VendorEvent
  passed : List VendorEvent
  bound : Nat
  succeeded : Bool

structure BoundaryWorld where
  store : VendorStore
  cursor : BoundaryCursor
  cycles : List BoundaryCycle

def BoundaryWorld.run (w : BoundaryWorld) (returned : List VendorEvent) : Collected :=
  readEvents w.cursor.loaded returned

def BoundaryWorld.record (w : BoundaryWorld) (returned : List VendorEvent) (bound : Nat)
    (succeeded : Bool) : List BoundaryCycle :=
  w.cycles ++ [⟨returned, (w.run returned).emitted, (w.run returned).passed, bound, succeeded⟩]

/-- The vendor indexes events, or a cycle runs. A cycle that succeeds has read every event from its
window on, and its next window begins no earlier than its own and no later than the latest of
them; a cycle that fails has read some of them and keeps the cursor. -/
inductive BoundaryStep : BoundaryWorld → BoundaryWorld → Prop
  | index (store : VendorStore) : w.store.events ⊆ store.events →
      BoundaryStep w { w with store := store }
  | success (returned : List VendorEvent) (next : Text) :
      instant (.str w.cursor.window) = some start →
      (∀ e, e ∈ returned ↔ e ∈ w.store.events ∧ ∃ t, instant e.stamp = some t ∧ start ≤ t) →
      instant (.str next) = some bound → start ≤ bound →
      ((∃ e ∈ returned, ∃ t, instant e.stamp = some t ∧ bound ≤ t) ∨
        returned = [] ∧ next = w.cursor.window) →
      BoundaryStep w
        { w with
          cursor := ⟨next, (w.run returned).boundary.dump next⟩
          cycles := w.record returned bound true }
  | failure (returned : List VendorEvent) : (∀ e ∈ returned, e ∈ w.store.events) →
      BoundaryStep w { w with cycles := w.record returned bound false }

/-- The vendor's events before the first cycle, whose window is given. -/
def BoundaryWorld.initial (store : VendorStore) (window : Text) : BoundaryWorld :=
  ⟨store, ⟨window, none⟩, []⟩

abbrev BoundaryReaches := Relation.ReflTransGen BoundaryStep

def VendorEvent.reaches (bound : Nat) (e : VendorEvent) : Bool :=
  ((instant e.stamp).map (fun t => decide (bound ≤ t))).getD false

/-- At most `MAX_KEYS` of the events that a successful cycle read lie in its next window. -/
def BoundaryCycle.Fits (c : BoundaryCycle) : Prop :=
  c.succeeded = true → (c.returned.filter (·.reaches c.bound)).length ≤ maxKeys

/-- What a cycle skips, an earlier successful one has emitted. -/
def PassedAfterEmitted (cycles : List BoundaryCycle) : Prop :=
  ∀ before c after, cycles = before ++ c :: after →
    ∀ e ∈ c.passed, ∃ c' ∈ before, c'.succeeded = true ∧ e ∈ c'.emitted

/-- No two successful cycles emit one event. -/
def EmittedOnce (cycles : List BoundaryCycle) : Prop :=
  cycles.Pairwise (fun c c' => c.succeeded = true → c'.succeeded = true →
    ∀ e ∈ c.emitted, e ∉ c'.emitted)

theorem perm_prune_filter (recent : List Seen) (bound : Nat)
    (hcap : (recent.filter (reaches bound)).length ≤ maxKeys) :
    ((prune recent).filter (reaches bound)).Perm (recent.filter (reaches bound)) := by
  have hperm := List.perm_insertionSort (· ≤ ·) recent
  have hsorted := List.pairwise_insertionSort (r := (· ≤ ·)) recent
  have hfilter := hperm.filter (reaches bound)
  simp only [prune]
  generalize recent.insertionSort (· ≤ ·) = sorted at hperm hsorted hfilter
  have hsplit := List.take_append_drop (sorted.length - maxKeys) sorted
  have hnone : (sorted.take (sorted.length - maxKeys)).filter (reaches bound) = [] := by
    rw [List.filter_eq_nil_iff]
    intro x hx hreach
    rw [← hsplit, List.pairwise_append] at hsorted
    have hall : (sorted.drop (sorted.length - maxKeys)).filter (reaches bound)
        = sorted.drop (sorted.length - maxKeys) := by
      rw [List.filter_eq_self]
      intro y hy
      have hle : (ofLex x).1 ≤ (ofLex y).1 := Prod.Lex.monotone_fst _ _ (hsorted.2.2 x hx y hy)
      simp only [reaches, decide_eq_true_eq] at hreach ⊢
      omega
    have hpos : 0 < ((sorted.take (sorted.length - maxKeys)).filter (reaches bound)).length :=
      List.length_pos_of_mem (List.mem_filter.mpr ⟨hx, hreach⟩)
    have hlen := hfilter.length_eq
    rw [← hsplit, List.filter_append, List.length_append, hall, List.length_drop] at hlen
    have hmem := List.length_pos_of_mem hx
    rw [List.length_take] at hmem
    omega
  rw [← hsplit, List.filter_append, hnone, List.nil_append] at hfilter
  exact hfilter

/-- What one event adds to the recent ones before they are pruned. -/
def placedAt (at? : Option Nat) (key : Text) : List Seen :=
  match at? with
  | none => []
  | some t => if key = [] then [] else [toLex (t, key)]

theorem perm_remember_filter (recent : List Seen) (at? : Option Nat) (key : Text) (bound : Nat)
    (hcap : ((recent ++ placedAt at? key).filter (reaches bound)).length ≤ maxKeys) :
    ((remember recent at? key).filter (reaches bound)).Perm
      ((recent ++ placedAt at? key).filter (reaches bound)) := by
  cases at? with
  | none => simp [remember, placedAt]
  | some t =>
    by_cases hkey : key = []
    · simp [remember, placedAt, hkey]
    · simp only [placedAt, hkey, if_false] at hcap ⊢
      simp only [remember, hkey, if_false]
      split
      · exact perm_prune_filter _ bound hcap
      · exact List.Perm.refl _

def rememberAll (recent : List Seen) (events : List VendorEvent) : List Seen :=
  events.foldl (fun r e => remember r (instant e.stamp) e.key) recent

def placedAll (events : List VendorEvent) : List Seen :=
  events.flatMap (fun e => placedAt (instant e.stamp) e.key)

theorem perm_rememberAll_filter (recent : List Seen) (events : List VendorEvent) (bound : Nat)
    (hcap : ((recent ++ placedAll events).filter (reaches bound)).length ≤ maxKeys) :
    ((rememberAll recent events).filter (reaches bound)).Perm
      ((recent ++ placedAll events).filter (reaches bound)) := by
  induction events generalizing recent with
  | nil => simp [rememberAll, placedAll]
  | cons e events ih =>
    have hsplit : recent ++ placedAll (e :: events)
        = (recent ++ placedAt (instant e.stamp) e.key) ++ placedAll events := by
      simp [placedAll]
    rw [hsplit] at hcap ⊢
    have hone := perm_remember_filter recent (instant e.stamp) e.key bound (by
      rw [List.filter_append, List.length_append] at hcap
      omega)
    have hboth : ((remember recent (instant e.stamp) e.key ++ placedAll events).filter
        (reaches bound)).Perm
        (((recent ++ placedAt (instant e.stamp) e.key) ++ placedAll events).filter
          (reaches bound)) := by
      have happ := hone.append_right ((placedAll events).filter (reaches bound))
      rwa [← List.filter_append, ← List.filter_append] at happ
    have hrest := ih (remember recent (instant e.stamp) e.key) (by rw [hboth.length_eq]; exact hcap)
    exact hrest.trans hboth

theorem mem_prune (h : s ∈ prune recent) : s ∈ recent :=
  (List.mem_insertionSort _).mp (List.mem_of_mem_drop h)

theorem mem_remember (h : s ∈ remember recent at? key) :
    s ∈ recent ∨ s ∈ placedAt at? key := by
  cases at? with
  | none => exact .inl h
  | some t =>
    by_cases hkey : key = []
    · left
      simpa [remember, hkey] using h
    · rw [← List.mem_append]
      simp only [remember, hkey, if_false, placedAt] at h ⊢
      split at h
      · exact mem_prune h
      · exact h

theorem mem_rememberAll (h : s ∈ rememberAll recent events) :
    s ∈ recent ∨ ∃ e ∈ events, s ∈ placedAt (instant e.stamp) e.key := by
  induction events generalizing recent with
  | nil => exact .inl h
  | cons e events ih =>
    rcases ih h with hin | ⟨e', he', hs⟩
    · rcases mem_remember hin with hin | hs
      · exact .inl hin
      · exact .inr ⟨e, List.mem_cons_self, hs⟩
    · exact .inr ⟨e', List.mem_cons_of_mem _ he', hs⟩

theorem mem_pick (h : key ∈ pick keys rest) : key ∈ keys ∨ key ∈ rest := by
  induction rest generalizing keys with
  | nil => exact .inl h
  | cons k rest ih =>
    simp only [pick] at h
    split at h
    · rcases ih h with hk | hk
      · exact .inl hk
      · exact .inr (List.mem_cons_of_mem _ hk)
    · split at h
      · exact .inl h
      · rcases ih h with hk | hk
        · rcases List.mem_append.mp hk with hk | hk
          · exact .inl hk
          · exact .inr (List.mem_singleton.mp hk ▸ List.mem_cons_self)
        · exact .inr (List.mem_cons_of_mem _ hk)

/-- The cap leaves out no key where it is not reached. -/
theorem pick_keeps (hcap : keys.length + rest.length ≤ maxKeys) (h : key ∈ keys ∨ key ∈ rest) :
    key ∈ pick keys rest := by
  induction rest generalizing keys with
  | nil => exact h.resolve_right List.not_mem_nil
  | cons k rest ih =>
    simp only [List.length_cons] at hcap
    simp only [pick]
    split
    · rename_i hk
      refine ih (by omega) ?_
      rcases h with h | h
      · exact .inl h
      · rcases List.mem_cons.mp h with rfl | h
        · exact .inl hk
        · exact .inr h
    · rw [if_neg (by omega)]
      refine ih (by simp only [List.length_append, List.length_singleton]; omega) ?_
      rcases h with h | h
      · exact .inl (List.mem_append_left _ h)
      · rcases List.mem_cons.mp h with rfl | h
        · exact .inl (List.mem_append_right _ (List.mem_singleton.mpr rfl))
        · exact .inr h

namespace BoundaryKeys

theorem mem_load_previous (h : key ∈ (load memory (some start)).previous) :
    ∃ m, memory = some m ∧ m.start = start ∧ key ∈ m.keys := by
  cases memory with
  | none => simp [load] at h
  | some m =>
    simp only [load] at h
    split at h
    · rename_i hstart
      exact ⟨m, rfl, hstart.2, (List.mem_filter.mp (List.mem_dedup.mp h)).1⟩
    · simp at h

theorem load_previous (hstart : start ≠ []) (hm : m.start = start) (hkey : key ∈ m.keys)
    (hne : key ≠ []) : key ∈ (load (some m) (some start)).previous := by
  simp only [load, hstart, hm, ne_eq, not_false_eq_true, and_self, if_true, List.mem_dedup]
  exact List.mem_filter.mpr ⟨hkey, by simpa using hne⟩

theorem load_frame (memory : Option BoundaryMemory) (window : Option Text) :
    (load memory window).windowStart = window ∧ (load memory window).recent = [] := by
  cases memory with
  | none => exact ⟨rfl, rfl⟩
  | some m =>
    cases window with
    | none => exact ⟨rfl, rfl⟩
    | some start =>
      simp only [load]
      split
      · exact ⟨rfl, rfl⟩
      · exact ⟨rfl, rfl⟩

/-- A memory speaks for the window it is stored with, and of keys that were seen or remembered. -/
theorem dump_sound (h : dump b next = some m) :
    m.start = next ∧ ∀ key ∈ m.keys, key ∈ b.previous ∨ ∃ s ∈ b.recent, (ofLex s).2 = key := by
  simp only [dump] at h
  split at h
  · cases h
  · rename_i bound _
    split at h
    · split at h
      · rename_i hwindow
        simp only [carry, hwindow] at h
        split at h
        · cases h
        · cases h
          exact ⟨rfl, fun key hkey => .inl ((List.mem_insertionSort _).mp hkey)⟩
      · cases h
    · cases h
      refine ⟨rfl, fun key hkey => ?_⟩
      rcases mem_pick ((List.mem_insertionSort _).mp hkey) with hkey | hkey
      · exact absurd hkey List.not_mem_nil
      · obtain ⟨s, hs, rfl⟩ := List.mem_map.mp hkey
        exact .inr ⟨s, (List.mem_filter.mp ((List.mem_insertionSort _).mp hs)).1, rfl⟩

theorem dump_keeps (hbound : instant (.str next) = some bound)
    (hcap : (b.recent.filter (reaches bound)).length ≤ maxKeys) (hs : s ∈ b.recent)
    (hreach : reaches bound s = true) :
    ∃ m, dump b next = some m ∧ m.start = next ∧ (ofLex s).2 ∈ m.keys := by
  have hpick : (ofLex s).2 ∈ pick [] (((b.recent.filter (reaches bound)).insertionSort
      (· ≥ ·)).map (fun s => (ofLex s).2)) := by
    refine pick_keeps ?_ (.inr ?_)
    · simp only [List.length_nil, List.length_map, List.length_insertionSort, Nat.zero_add]
      exact hcap
    · exact List.mem_map.mpr ⟨s, (List.mem_insertionSort _).mpr (List.mem_filter.mpr
        ⟨hs, hreach⟩), rfl⟩
  simp only [dump, hbound]
  rw [if_neg (List.ne_nil_of_mem hpick)]
  exact ⟨_, rfl, rfl, (List.mem_insertionSort _).mpr hpick⟩

end BoundaryKeys

theorem foldl_next (c : Collected) (events : List VendorEvent) :
    (events.foldl Collected.next c).boundary.previous = c.boundary.previous ∧
      (events.foldl Collected.next c).boundary.windowStart = c.boundary.windowStart ∧
      (events.foldl Collected.next c).boundary.recent = rememberAll c.boundary.recent events ∧
      (events.foldl Collected.next c).emitted = c.emitted ++
        events.filter (fun e => !decide (e.key ≠ [] ∧ e.key ∈ c.boundary.previous)) ∧
      (events.foldl Collected.next c).passed = c.passed ++
        events.filter (fun e => decide (e.key ≠ [] ∧ e.key ∈ c.boundary.previous)) := by
  induction events generalizing c with
  | nil => simp [rememberAll]
  | cons e events ih =>
    obtain ⟨hprevious, hwindow, hrecent, hemitted, hpassed⟩ := ih (c.next e)
    rw [List.foldl_cons, hprevious, hwindow, hrecent, hemitted, hpassed]
    by_cases hseen : e.key ≠ [] ∧ e.key ∈ c.boundary.previous
    · have hnext : c.next e = ⟨{ c.boundary.observe e.stamp e.key with
          skipped := c.boundary.skipped + 1 }, c.emitted, c.passed ++ [e]⟩ := by
        simp only [Collected.next, BoundaryKeys.seen, BoundaryKeys.observe, hseen, ne_eq,
          not_false_eq_true, and_self, if_true]
      simp [hnext, BoundaryKeys.observe, rememberAll, hseen]
    · have hnext : c.next e = ⟨c.boundary.observe e.stamp e.key, c.emitted ++ [e], c.passed⟩ := by
        simp only [Collected.next, BoundaryKeys.seen, BoundaryKeys.observe, hseen, if_false]
      have hfalse : decide (e.key ≠ [] ∧ e.key ∈ c.boundary.previous) = false := by
        simpa using hseen
      simp only [hnext, BoundaryKeys.observe, rememberAll, List.foldl_cons, List.filter_cons,
        hfalse, Bool.not_false, if_true, Bool.false_eq_true, if_false, List.append_assoc,
        List.singleton_append, and_self]

theorem mem_placedAt {e : VendorEvent} (h : s ∈ placedAt (instant e.stamp) e.key) :
    instant e.stamp = some (ofLex s).1 ∧ e.key = (ofLex s).2 := by
  cases hat : instant e.stamp with
  | none => simp [placedAt, hat] at h
  | some t =>
    by_cases hkey : e.key = []
    · simp [placedAt, hat, hkey] at h
    · simp only [placedAt, hat, hkey, if_false, List.mem_singleton] at h
      subst h
      exact ⟨rfl, rfl⟩

namespace BoundaryWorld

theorem run_passed : e ∈ (run w returned).passed ↔
    e ∈ returned ∧ e.key ≠ [] ∧ e.key ∈ w.cursor.loaded.previous := by
  obtain ⟨-, -, -, -, hpassed⟩ := foldl_next ⟨w.cursor.loaded, [], []⟩ returned
  simp only [run, readEvents, hpassed, List.nil_append, List.mem_filter, decide_eq_true_eq]

theorem run_emitted : e ∈ (run w returned).emitted ↔
    e ∈ returned ∧ ¬ (e.key ≠ [] ∧ e.key ∈ w.cursor.loaded.previous) := by
  obtain ⟨-, -, -, hemitted, -⟩ := foldl_next ⟨w.cursor.loaded, [], []⟩ returned
  simp only [run, readEvents, hemitted, List.nil_append, List.mem_filter, Bool.not_eq_true',
    decide_eq_false_iff_not]

theorem run_boundary (w : BoundaryWorld) (returned : List VendorEvent) :
    (w.run returned).boundary.previous = w.cursor.loaded.previous ∧
      (w.run returned).boundary.recent = rememberAll [] returned := by
  obtain ⟨hprevious, -, hrecent, -, -⟩ := foldl_next ⟨w.cursor.loaded, [], []⟩ returned
  have hload := (BoundaryKeys.load_frame w.cursor.memory (some w.cursor.window)).2
  exact ⟨hprevious, hrecent.trans (congrArg (rememberAll · returned) hload)⟩

end BoundaryWorld

/-- Every key of the memory was emitted by a successful cycle, and what is emitted is an event of
the vendor. -/
structure Remembered (w : BoundaryWorld) : Prop where
  known : ∀ m, w.cursor.memory = some m → ∀ key ∈ m.keys,
    ∃ c ∈ w.cycles, c.succeeded = true ∧ ∃ e ∈ c.emitted, e.key = key
  stored : ∀ c ∈ w.cycles, ∀ e ∈ c.emitted, e ∈ w.store.events
  passed : PassedAfterEmitted w.cycles

structure Covered (w : BoundaryWorld) : Prop where
  kept : ∀ c ∈ w.cycles, c.succeeded = true → ∀ e ∈ c.emitted, ∀ start t,
    instant (.str w.cursor.window) = some start → instant e.stamp = some t → start ≤ t →
    ∃ m, w.cursor.memory = some m ∧ m.start = w.cursor.window ∧ e.key ∈ m.keys
  once : EmittedOnce w.cycles

theorem PassedAfterEmitted.concat (h : PassedAfterEmitted cycles)
    (hc : ∀ e ∈ c.passed, ∃ c' ∈ cycles, c'.succeeded = true ∧ e ∈ c'.emitted) :
    PassedAfterEmitted (cycles ++ [c]) := by
  intro before d after heq e he
  rcases List.eq_nil_or_concat' after with rfl | ⟨after, last, rfl⟩
  · obtain ⟨rfl, hd⟩ := List.append_inj' heq rfl
    cases hd
    exact hc e he
  · have hsplit : cycles ++ [c] = (before ++ d :: after) ++ [last] := by simpa using heq
    obtain ⟨rfl, -⟩ := List.append_inj' hsplit rfl
    exact h before d after rfl e he

theorem Remembered.passed_emitted (h : Remembered w) (hreturned : ∀ e ∈ returned,
    e ∈ w.store.events) (he : e ∈ (w.run returned).passed) :
    ∃ c ∈ w.cycles, c.succeeded = true ∧ e ∈ c.emitted := by
  obtain ⟨hin, -, hprevious⟩ := BoundaryWorld.run_passed.mp he
  obtain ⟨m, hm, -, hkey⟩ := BoundaryKeys.mem_load_previous hprevious
  obtain ⟨c, hc, hsucceeded, e', he', hsame⟩ := h.known m hm e.key hkey
  have heq := w.store.keyed e' (h.stored c hc e' he') e (hreturned e hin) hsame
  exact ⟨c, hc, hsucceeded, heq ▸ he'⟩

theorem Remembered.step (h : Remembered w) (hstep : BoundaryStep w w') : Remembered w' := by
  cases hstep with
  | index store hmore =>
    exact ⟨h.known, fun c hc e he => hmore (h.stored c hc e he), h.passed⟩
  | failure returned hreturned =>
    refine ⟨fun m hm key hkey => ?_, fun c hc e he => ?_, ?_⟩
    · obtain ⟨c, hc, hrest⟩ := h.known m hm key hkey
      exact ⟨c, List.mem_append_left _ hc, hrest⟩
    · rcases List.mem_append.mp hc with hc | hc
      · exact h.stored c hc e he
      · cases List.mem_singleton.mp hc
        exact hreturned e (BoundaryWorld.run_emitted.mp he).1
    · exact h.passed.concat (fun e he => h.passed_emitted hreturned he)
  | success returned next hstart hanswer hbound hfrom hupto =>
    rename_i start bound
    have hreturned : ∀ e ∈ returned, e ∈ w.store.events := fun e he => ((hanswer e).mp he).1
    refine ⟨fun m hm key hkey => ?_, fun c hc e he => ?_, ?_⟩
    · obtain ⟨hprevious, hrecent⟩ := w.run_boundary returned
      have hold : key ∈ w.cursor.loaded.previous → ∃ c ∈ w.record returned bound true,
          c.succeeded = true ∧ ∃ e ∈ c.emitted, e.key = key := by
        intro hin
        obtain ⟨m', hm', -, hkey'⟩ := BoundaryKeys.mem_load_previous hin
        obtain ⟨c, hc, hrest⟩ := h.known m' hm' key hkey'
        exact ⟨c, List.mem_append_left _ hc, hrest⟩
      rcases (BoundaryKeys.dump_sound hm).2 key hkey with hin | ⟨s, hs, rfl⟩
      · exact hold (hprevious ▸ hin)
      · rw [hrecent] at hs
        obtain ⟨e, he, hplaced⟩ := (mem_rememberAll hs).resolve_left List.not_mem_nil
        obtain ⟨-, hsame⟩ := mem_placedAt hplaced
        by_cases hin : e.key ≠ [] ∧ e.key ∈ w.cursor.loaded.previous
        · exact hold (hsame ▸ hin.2)
        · exact ⟨_, List.mem_append_right _ (List.mem_singleton.mpr rfl), rfl, e,
            BoundaryWorld.run_emitted.mpr ⟨he, hin⟩, hsame⟩
    · rcases List.mem_append.mp hc with hc | hc
      · exact h.stored c hc e he
      · cases List.mem_singleton.mp hc
        exact hreturned e (BoundaryWorld.run_emitted.mp he).1
    · exact h.passed.concat (fun e he => h.passed_emitted hreturned he)

theorem window_ne_nil (h : instant (.str window) = some start) : window ≠ [] := by
  intro hnil
  subst hnil
  cases h

/-- What a successful cycle reads at or after its next window, its memory keeps. -/
theorem keeps_returned (w : BoundaryWorld) (hnamed : e.key ≠ []) (he : e ∈ returned)
    (hbound : instant (.str next) = some bound) (hat : instant e.stamp = some t) (hle : bound ≤ t)
    (hfits : (returned.filter (·.reaches bound)).length ≤ maxKeys) :
    ∃ m, (w.run returned).boundary.dump next = some m ∧ m.start = next ∧ e.key ∈ m.keys := by
  have hplaced : ∀ e : VendorEvent, ((placedAt (instant e.stamp) e.key).filter
      (reaches bound)).length ≤ ([e].filter (·.reaches bound)).length := by
    intro e
    cases hat : instant e.stamp with
    | none => simp [placedAt]
    | some t =>
      by_cases hkey : e.key = []
      · simp [placedAt, hkey]
      · by_cases hle : bound ≤ t
        · simp [placedAt, hkey, reaches, VendorEvent.reaches, hat, hle]
        · simp [placedAt, hkey, reaches, hle]
  have hcount : ((placedAll returned).filter (reaches bound)).length
      ≤ (returned.filter (·.reaches bound)).length := by
    clear he hfits
    induction returned with
    | nil => simp [placedAll]
    | cons e returned ih =>
      have hone := hplaced e
      have hsplit : placedAll (e :: returned)
          = placedAt (instant e.stamp) e.key ++ placedAll returned := rfl
      rw [hsplit, List.filter_append, List.length_append, ← List.singleton_append,
        List.filter_append, List.length_append]
      omega
  have hperm := perm_rememberAll_filter [] returned bound (by
    rw [List.nil_append]
    omega)
  rw [List.nil_append] at hperm
  have hrecent := (w.run_boundary returned).2
  have hs : toLex (t, e.key) ∈ (placedAll returned).filter (reaches bound) := by
    refine List.mem_filter.mpr ⟨?_, decide_eq_true hle⟩
    refine List.mem_flatMap.mpr ⟨e, he, ?_⟩
    simp [placedAt, hat, hnamed]
  have hin := List.mem_filter.mp (hperm.mem_iff.mpr hs)
  rw [← hrecent] at hin hperm
  exact BoundaryKeys.dump_keeps (s := toLex (t, e.key)) hbound
    (by rw [hperm.length_eq]; omega) hin.1 hin.2

theorem Covered.step (h : Covered w) (hr : Remembered w) (hstep : BoundaryStep w w')
    (hfits : ∀ c ∈ w'.cycles, c.Fits) : Covered w' := by
  cases hstep with
  | index store hmore => exact ⟨h.kept, h.once⟩
  | failure returned hreturned =>
    refine ⟨fun c hc hsucceeded => ?_, ?_⟩
    · rcases List.mem_append.mp hc with hc | hc
      · exact h.kept c hc hsucceeded
      · cases List.mem_singleton.mp hc
        cases hsucceeded
    · refine List.pairwise_append.mpr ⟨h.once, List.pairwise_singleton _ _, fun c hc d hd => ?_⟩
      cases List.mem_singleton.mp hd
      intro _ hsucceeded
      cases hsucceeded
  | success returned next hstart hanswer hbound hfrom hupto =>
    rename_i start bound
    have hfits' : (returned.filter (·.reaches bound)).length ≤ maxKeys :=
      hfits _ (List.mem_append_right _ (List.mem_singleton.mpr rfl)) rfl
    refine ⟨fun c hc hsucceeded e he start' t hstart' hat hle => ?_, ?_⟩
    · cases hbound.symm.trans hstart'
      have hin : e ∈ w.store.events := by
        rcases List.mem_append.mp hc with hc | hc
        · exact hr.stored c hc e he
        · cases List.mem_singleton.mp hc
          exact ((hanswer e).mp (BoundaryWorld.run_emitted.mp he).1).1
      have hreturned := (hanswer e).mpr ⟨hin, t, hat, Nat.le_trans hfrom hle⟩
      exact keeps_returned w (w.store.named e hin) hreturned hbound hat hle hfits'
    · refine List.pairwise_append.mpr ⟨h.once, List.pairwise_singleton _ _, fun c hc d hd => ?_⟩
      cases List.mem_singleton.mp hd
      intro hsucceeded _ e he hagain
      obtain ⟨hreturned, hnew⟩ := BoundaryWorld.run_emitted.mp hagain
      obtain ⟨hin, t, hat, hle⟩ := (hanswer e).mp hreturned
      obtain ⟨m, hm, hwindow, hkey⟩ := h.kept c hc hsucceeded e he start t hstart hat hle
      have hnamed := w.store.named e hin
      have hloaded : e.key ∈ w.cursor.loaded.previous := by
        rw [BoundaryCursor.loaded, hm]
        exact BoundaryKeys.load_previous (window_ne_nil hstart) hwindow hkey hnamed
      exact hnew ⟨hnamed, hloaded⟩

theorem remembered_initial (store : VendorStore) (window : Text) :
    Remembered (.initial store window) := by
  refine ⟨(fun m hm => nomatch hm), (fun c hc => nomatch hc), ?_⟩
  intro before c after heq
  simp [BoundaryWorld.initial] at heq

theorem covered_initial (store : VendorStore) (window : Text) :
    Covered (.initial store window) :=
  ⟨(fun _ hc => nomatch hc), List.Pairwise.nil⟩

theorem remembered_of_reaches (h : BoundaryReaches (.initial store window) w) : Remembered w := by
  induction h with
  | refl => exact remembered_initial store window
  | tail _ hstep ih => exact ih.step hstep

theorem cycles_grow (h : BoundaryStep w w') : w.cycles <+: w'.cycles := by
  cases h with
  | index => exact List.prefix_rfl
  | success => exact List.prefix_append _ _
  | failure => exact List.prefix_append _ _

theorem covered_of_reaches (h : BoundaryReaches (.initial store window) w)
    (hfits : ∀ c ∈ w.cycles, c.Fits) : Covered w := by
  induction h with
  | refl => exact covered_initial store window
  | tail hreach hstep ih =>
    have hbefore := ih (fun c hc => hfits c ((cycles_grow hstep).subset hc))
    exact hbefore.step (remembered_of_reaches hreach) hstep hfits

/-- In every run, what the memory skips an earlier successful cycle has emitted; and where no cycle
overflows the memory, no event is emitted by two successful cycles. -/
theorem boundary_exactly_once (h : BoundaryReaches (.initial store window) w) :
    PassedAfterEmitted w.cycles ∧ ((∀ c ∈ w.cycles, c.Fits) → EmittedOnce w.cycles) :=
  ⟨(remembered_of_reaches h).passed, fun hfits => (covered_of_reaches h hfits).once⟩

/-- A case of the last second of its window, which the next cycle gets back. -/
def lastCase : VendorEvent := ⟨.str (text "2026-10-15T17:06:39.978Z"), text "case-1"⟩

def lastStore : VendorStore where
  events := [lastCase]
  placed := by
    intro e he
    cases List.mem_singleton.mp he
    exact ⟨63927680799978000, by decide +kernel⟩
  named := by
    intro e he
    cases List.mem_singleton.mp he
    decide
  keyed := by
    intro e he e' he' _
    cases List.mem_singleton.mp he
    cases List.mem_singleton.mp he'
    rfl

/-- The boundary case is emitted by the first cycle and skipped by the second. -/
theorem boundary_exactly_once_twice :
    ∃ w, BoundaryReaches (.initial lastStore (text "2026-10-15T17:00:00Z")) w ∧
      w.cycles.map (fun c => (c.emitted, c.passed)) = [([lastCase], []), ([], [lastCase])] ∧
      PassedAfterEmitted w.cycles ∧ EmittedOnce w.cycles := by
  have hat : instant lastCase.stamp = some 63927680799978000 := by decide +kernel
  have hnext : instant (.str (text "2026-10-15T17:06:39Z")) = some 63927680799000000 := by
    decide +kernel
  have hstart : instant (.str (text "2026-10-15T17:00:00Z")) = some 63927680400000000 := by
    decide +kernel
  have hanswer : ∀ start ≤ 63927680799978000, ∀ e, e ∈ [lastCase] ↔
      e ∈ lastStore.events ∧ ∃ t, instant e.stamp = some t ∧ start ≤ t := by
    intro start hstart e
    constructor
    · intro he
      cases List.mem_singleton.mp he
      exact ⟨List.mem_singleton.mpr rfl, _, hat, hstart⟩
    · intro he
      exact he.1
  have hfirst := BoundaryStep.success (w := .initial lastStore (text "2026-10-15T17:00:00Z"))
    [lastCase] (text "2026-10-15T17:06:39Z") hstart
    (hanswer _ (by decide)) hnext (by decide)
    (.inl ⟨lastCase, List.mem_singleton.mpr rfl, _, hat, by decide⟩)
  have hsecond := BoundaryStep.success (w := {
      (BoundaryWorld.initial lastStore (text "2026-10-15T17:00:00Z")) with
      cursor := ⟨text "2026-10-15T17:06:39Z", ((BoundaryWorld.initial lastStore
        (text "2026-10-15T17:00:00Z")).run [lastCase]).boundary.dump (text "2026-10-15T17:06:39Z")⟩
      cycles := (BoundaryWorld.initial lastStore (text "2026-10-15T17:00:00Z")).record [lastCase]
        63927680799000000 true })
    [lastCase] (text "2026-10-15T17:06:39Z") hnext (hanswer _ (by decide)) hnext (Nat.le_refl _)
    (.inl ⟨lastCase, List.mem_singleton.mpr rfl, _, hat, by decide⟩)
  have hrun := (Relation.ReflTransGen.single hfirst).tail hsecond
  obtain ⟨hpassed, honce⟩ := boundary_exactly_once hrun
  refine ⟨_, hrun, by decide +kernel, hpassed, honce ?_⟩
  intro c hc _
  have hlen : (c.returned.filter (·.reaches c.bound)).length ≤ c.returned.length :=
    List.length_filter_le _ _
  have hone : c.returned.length = 1 := by
    rcases List.mem_append.mp hc with hc | hc
    · cases List.mem_singleton.mp hc
      rfl
    · cases List.mem_singleton.mp hc
      rfl
  have hmax : maxKeys = 500 := rfl
  omega

end CentralOps
