import CentralOps.Lib.SortedStore

namespace CentralOps
set_option autoImplicit true

abbrev LimitStore := SortedStore String String

/-- The script of the rate limiter and of both concurrency limiters: evict by score, count, add
where there is room. `server` is the clock of Redis, `now` the reading that the caller sends. -/
def admitScript (s : LimitStore) (server : Nat) (key : String) (now width : Nat) (limit : Int)
    (token : String) : Bool × LimitStore :=
  let evicted := s.zremrangebyscore server key 0 (now - width)
  if (evicted.members server key).length < limit then
    (true, (evicted.zadd server key now token).pexpire server key width)
  else (false, evicted)

/-- The members of a key that the script counts. -/
def counted (s : LimitStore) (server : Nat) (key : String) (now width : Nat) :
    List (String × Nat) :=
  (s.members server key).filter (fun p => decide (now < p.2 + width))

section Script
variable {s : LimitStore} {server now width : Nat} {key token : String} {limit : Int}

theorem members_evicted : (s.zremrangebyscore server key 0 (now - width)).members server key =
    counted s server key now width := by
  rw [SortedStore.zremrangebyscore, SortedStore.members_keep, counted]
  apply List.filter_congr
  intro p _
  rw [Bool.not_eq_eq_eq_not, ← decide_not, decide_eq_decide]
  omega

theorem admitScript_fst : (admitScript s server key now width limit token).1 = true ↔
    ((counted s server key now width).length : Int) < limit := by
  rw [admitScript, members_evicted]
  by_cases h : ((counted s server key now width).length : Int) < limit
  · rw [if_pos h]
    exact ⟨fun _ => h, fun _ => rfl⟩
  · rw [if_neg h]
    exact ⟨fun hc => absurd hc Bool.false_ne_true, fun hc => absurd hc h⟩

theorem admitScript_refused (h : (admitScript s server key now width limit token).1 = false) :
    (admitScript s server key now width limit token).2 =
      s.zremrangebyscore server key 0 (now - width) := by
  rw [admitScript] at h ⊢
  split
  · next hroom =>
    rw [if_pos hroom] at h
    cases h
  · rfl

theorem admitScript_self (h : (admitScript s server key now width limit token).1 = true) :
    (admitScript s server key now width limit token).2 key =
      some ⟨Assoc.set token now (counted s server key now width), some (server + width)⟩ := by
  have hroom := admitScript_fst.1 h
  rw [admitScript, members_evicted, if_pos hroom, ← members_evicted]
  exact SortedStore.zadd_pexpire_self _ server key now width token

theorem admitScript_members (h : (admitScript s server key now width limit token).1 = true) :
    (admitScript s server key now width limit token).2.members server key =
      Assoc.set token now (counted s server key now width) := by
  have hdec : decide (server ≤ server + width) = true := decide_eq_true (Nat.le_add_right _ _)
  rw [SortedStore.members, SortedStore.live, admitScript_self h, Option.filter_some,
    Option.all_some, if_pos hdec]

theorem admitScript_ne (h : j ≠ key) : (admitScript s server key now width limit token).2 j = s j := by
  have hkeep : s.zremrangebyscore server key 0 (now - width) j = s j := SortedStore.keep_ne h _
  rw [admitScript]
  split
  · exact (SortedStore.pexpire_ne h _).trans ((SortedStore.zadd_ne h _ _).trans hkeep)
  · exact hkeep

theorem counted_subset : counted s server key now width ⊆ s.members server key :=
  fun _ hp => (List.mem_filter.1 hp).1

theorem nodup_counted {widths : String → Nat} (h : s.Covered widths) :
    ((counted s server key now width).map Prod.fst).Nodup :=
  h.nodup_members.sublist (List.filter_sublist.map Prod.fst)

theorem members_admitScript (h : p ∈ (admitScript s server key now width limit token).2.members server j) :
    p ∈ s.members server j ∨
      (admitScript s server key now width limit token).1 = true ∧ j = key ∧ p = (token, now) := by
  by_cases hj : j = key
  · subst hj
    cases hr : (admitScript s server j now width limit token).1 with
    | false =>
      rw [admitScript_refused hr, members_evicted] at h
      exact .inl (counted_subset h)
    | true =>
      have hp := SortedStore.mem_stored_of_mem_members h
      rw [SortedStore.stored, admitScript_self hr] at hp
      obtain hp | hp := Assoc.mem_of_mem_set hp
      · exact .inr ⟨rfl, rfl, hp⟩
      · exact .inl (counted_subset hp)
  · rw [SortedStore.members_congr (admitScript_ne hj)] at h
    exact .inl h

theorem mem_members_admitScript (hp : p ∈ s.members server j) (hnow : now < p.2 + width)
    (hother : p.1 ≠ token) :
    p ∈ (admitScript s server key now width limit token).2.members server j := by
  by_cases hj : j = key
  · subst hj
    have hcounted : p ∈ counted s server j now width :=
      List.mem_filter.2 ⟨hp, decide_eq_true hnow⟩
    cases hr : (admitScript s server j now width limit token).1 with
    | false =>
      rw [admitScript_refused hr, members_evicted]
      exact hcounted
    | true =>
      rw [admitScript_members hr]
      exact Assoc.mem_set_of_ne hother hcounted
  · rw [SortedStore.members_congr (admitScript_ne hj)]
    exact hp

/-- Where no reading runs ahead of Redis, the new expiry covers every member. -/
theorem covered_admitScript {widths : String → Nat} (h : s.Covered widths)
    (hwidth : width = widths key) (hnow : now ≤ server)
    (hpast : ∀ p ∈ s.members server key, p.2 ≤ server) :
    SortedStore.Covered widths (admitScript s server key now width limit token).2 := by
  cases hr : (admitScript s server key now width limit token).1 with
  | false =>
    rw [admitScript_refused hr]
    exact h.keep _ _ _
  | true =>
    intro j z hz
    by_cases hj : j = key
    · subst hj
      rw [admitScript_self hr, Option.some.injEq] at hz
      subst hz
      refine ⟨Assoc.nodup_set _ _ (nodup_counted h), fun p hp => ⟨_, rfl, ?_⟩⟩
      have hscore : p.2 ≤ server := by
        obtain rfl | hp := Assoc.mem_of_mem_set hp
        · exact hnow
        · exact hpast p (counted_subset hp)
      exact Nat.add_le_add hscore (Nat.le_of_eq hwidth.symm)
    · rw [admitScript_ne hj] at hz
      exact h j z hz

end Script

end CentralOps
