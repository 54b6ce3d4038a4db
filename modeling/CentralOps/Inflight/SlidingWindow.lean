import CentralOps.Inflight.Fates
import CentralOps.Lib.Buckets
import CentralOps.Lib.Decimal
import CentralOps.Lib.Volatile
import CentralOps.Lib.Words

namespace CentralOps
set_option autoImplicit true

/-! The totals of `apply_windows`, over the calls of a run. -/

/-- `_key`. -/
def windowKey (dedupKey : String) (bucket : Int) : String :=
  "inflight:win:" ++ dedupKey ++ ":" ++ bucket.repr

/-- The counters of the buckets in Redis. -/
structure WindowStore where
  now : Rat
  keys : String → Option (Volatile Nat)

/-- `INCRBY`, and then `EXPIRE`, of a counter. -/
def raiseCounter (now : Rat) (hits : Nat) (ttl : Int) (k : Option (Volatile Nat)) :
    Option (Volatile Nat) :=
  Volatile.expire now ttl (some
    (match Volatile.read now k with
    | none => ⟨hits, none⟩
    | some v => { v with value := v.value + hits }))

def WindowStore.bump (w : WindowStore) (b : WindowBump) : WindowStore :=
  let key := windowKey b.key b.bucket
  { w with keys := Function.update w.keys key (raiseCounter w.now b.hits b.ttl (w.keys key)) }

def windowReply (other : (q : InflightAsk) → InflightReply q) (w : WindowStore) :
    (q : InflightAsk) → InflightReply q × WindowStore
  | .clock => (w.now, w)
  | .bumpWindows bumps => (some (), bumps.foldl WindowStore.bump w)
  | .readWindows _ =>
    (some (fun key bucket =>
      (Volatile.read w.now (w.keys (windowKey key bucket))).map Volatile.value), w)
  | q => (other q, w)

/-- A call of `apply_windows` at an integer time. -/
structure WindowCall where
  now : Int
  items : List (String × PendingItem)

namespace WindowCall

def run (other : (q : InflightAsk) → InflightReply q) (keys : String → Option (Volatile Nat))
    (c : WindowCall) : Option (String → Nat) × WindowStore :=
  (InflightAccumulator.applyWindows c.items).play (windowReply other) ⟨c.now, keys⟩

/-- The hits that a call brings for a key. -/
def marks (key : String) (c : WindowCall) : List (Int × Nat) :=
  (c.items.lookup key).toList.map (fun item => (c.now, item.hits))

/-- The items have a key each, and that of this key has hits and this window. -/
structure Counts (key : String) (windowSeconds : Int) (c : WindowCall) : Prop where
  distinct : (c.items.map Prod.fst).Nodup
  window : ∀ item, (key, item) ∈ c.items → item.rule.windowSeconds = windowSeconds
  hits : ∀ item, (key, item) ∈ c.items → 0 < item.hits

end WindowCall

def marksOf (key : String) (calls : List WindowCall) : List (Int × Nat) :=
  calls.flatMap (WindowCall.marks key)

/-- The counters that a run leaves. -/
def keysAfter (other : (q : InflightAsk) → InflightReply q) (calls : List WindowCall) :
    String → Option (Volatile Nat) :=
  calls.foldl (fun keys c => (c.run other keys).2.keys) (fun _ => none)

/-- The instant from which `bucket_ids` reads. -/
def windowStart (windowSeconds now : Int) : Int :=
  (now / bucketSeconds windowSeconds - windowSeconds / bucketSeconds windowSeconds) *
    bucketSeconds windowSeconds

/-- The total of a call counts the window, up to one bucket more, and no bucket that is read has
expired. -/
structure CountsWindow (other : (q : InflightAsk) → InflightReply q) (key : String)
    (windowSeconds : Int) (before : List WindowCall) (c : WindowCall) (totals : String → Nat) :
    Prop where
  least : Buckets.weight (fun t => decide (c.now - windowSeconds ≤ t ∧ t ≤ c.now))
    (marksOf key (before ++ [c])) ≤ totals key
  most : totals key ≤ Buckets.weight
    (fun t => decide (c.now - windowSeconds - bucketSeconds windowSeconds < t ∧ t ≤ c.now))
    (marksOf key (before ++ [c]))
  lives : ∀ b ∈ bucketIds windowSeconds c.now,
    (∃ m ∈ marksOf key (before ++ [c]), m.1 / bucketSeconds windowSeconds = b) →
      Volatile.read c.now ((c.run other (keysAfter other before)).2.keys (windowKey key b)) ≠ none

section Slices
variable {W T t b : Int}

theorem bucketSeconds_pos (W : Int) : 0 < bucketSeconds W :=
  Int.lt_of_lt_of_le Int.one_pos (Int.le_max_left 1 _)

theorem bucketSeconds_le (hW : 1 ≤ W) : bucketSeconds W ≤ W := by
  rw [bucketSeconds, windowBuckets]
  omega

theorem buckets_pos (hW : 1 ≤ W) : 1 ≤ W / bucketSeconds W := by
  rw [Int.le_ediv_iff_mul_le (bucketSeconds_pos W), one_mul]
  exact bucketSeconds_le hW

theorem mem_bucketIds (hW : 1 ≤ W) : b ∈ bucketIds W (T : Rat) ↔
    T / bucketSeconds W - W / bucketSeconds W ≤ b ∧ b ≤ T / bucketSeconds W := by
  have hn := buckets_pos hW
  simp only [bucketIds, Rat.floor_intCast, List.mem_map, List.mem_range, max_eq_right hn]
  constructor
  · rintro ⟨i, hi, rfl⟩
    omega
  · rintro ⟨hle, hge⟩
    refine ⟨(b - (T / bucketSeconds W - W / bucketSeconds W)).toNat, ?_, ?_⟩
    · omega
    · omega

theorem nodup_bucketIds (W : Int) (now : Rat) : (bucketIds W now).Nodup := by
  apply List.Nodup.map _ List.nodup_range
  intro i j h
  exact Int.ofNat.inj (Int.add_left_cancel h)

theorem mul_ediv_le (b t : Int) : t / bucketSeconds b * bucketSeconds b ≤ t :=
  Int.ediv_mul_le t (ne_of_gt (bucketSeconds_pos b))

theorem lt_next_bucket (W t : Int) : t < (t / bucketSeconds W + 1) * bucketSeconds W := by
  rw [add_mul, one_mul]
  exact Int.lt_ediv_add_one_mul_self t (bucketSeconds_pos W) |>.trans_eq (by ring)

theorem start_le_iff : T / bucketSeconds W - W / bucketSeconds W ≤ t / bucketSeconds W ↔
    windowStart W T ≤ t := by
  rw [windowStart, Int.le_ediv_iff_mul_le (bucketSeconds_pos W)]

theorem start_recent (h : windowStart W T ≤ t) : T - W - bucketSeconds W < t := by
  have hnow := lt_next_bucket W T
  have hwindow := mul_ediv_le W W
  rw [windowStart] at h
  linarith

theorem alive_of_read (h : T / bucketSeconds W - W / bucketSeconds W ≤ t / bucketSeconds W) :
    T ≤ t + (W + bucketSeconds W + 5) := by
  have hrecent := start_recent (start_le_iff.1 h)
  linarith

end Slices

section Keys

theorem windowKey_inj {k k' : String} {b b' : Int} (h : windowKey k b = windowKey k' b') :
    k = k' ∧ b = b' := by
  have hlist := congrArg String.toList h
  simp only [windowKey, String.toList_append, List.append_assoc] at hlist
  have htail := List.append_cancel_left hlist
  have hcolon : ":".toList = [':'] := rfl
  rw [hcolon, List.singleton_append, List.singleton_append] at htail
  obtain ⟨hkey, hbucket⟩ := Words.cut_last (Decimal.colon_notMem_repr b)
    (Decimal.colon_notMem_repr b') htail
  exact ⟨String.toList_inj.1 hkey, Decimal.intRepr_injective (String.toList_inj.1 hbucket)⟩

theorem bump_other (w : WindowStore) {x : WindowBump} {key : String} {b : Int}
    (h : x.key = key → x.bucket ≠ b) :
    (w.bump x).keys (windowKey key b) = w.keys (windowKey key b) := by
  apply Function.update_of_ne
  intro heq
  obtain ⟨hkey, hbucket⟩ := windowKey_inj heq
  exact h hkey.symm hbucket.symm

theorem bump_self (w : WindowStore) (x : WindowBump) :
    (w.bump x).keys (windowKey x.key x.bucket) =
      raiseCounter w.now x.hits x.ttl (w.keys (windowKey x.key x.bucket)) :=
  Function.update_self ..

theorem foldl_bump_now (bumps : List WindowBump) (w : WindowStore) :
    (bumps.foldl WindowStore.bump w).now = w.now := by
  induction bumps generalizing w with
  | nil => rfl
  | cons x bumps ih => exact ih (w.bump x)

theorem foldl_bump_other {bumps : List WindowBump} {key : String} {b : Int}
    (h : ∀ x ∈ bumps, x.key = key → x.bucket ≠ b) (w : WindowStore) :
    (bumps.foldl WindowStore.bump w).keys (windowKey key b) = w.keys (windowKey key b) := by
  induction bumps generalizing w with
  | nil => rfl
  | cons x bumps ih =>
    rw [List.foldl_cons, ih fun x' hx' => h x' (List.mem_cons_of_mem x hx')]
    exact bump_other w (h x List.mem_cons_self)

theorem foldl_bump_of_mem {bumps : List WindowBump} (hnodup : (bumps.map WindowBump.key).Nodup)
    {x : WindowBump} (hx : x ∈ bumps) (w : WindowStore) (b : Int) :
    (bumps.foldl WindowStore.bump w).keys (windowKey x.key b) = (w.bump x).keys (windowKey x.key b) := by
  induction bumps generalizing w with
  | nil => cases hx
  | cons y bumps ih =>
    obtain ⟨hnew, hnodup⟩ := List.nodup_cons.1 hnodup
    obtain rfl | hx := List.mem_cons.1 hx
    · rw [List.foldl_cons, foldl_bump_other]
      intro z hz hkey
      exact absurd (List.mem_map.2 ⟨z, hz, hkey⟩) hnew
    · have hne : y.key ≠ x.key := fun heq => hnew (heq ▸ List.mem_map_of_mem hx)
      rw [List.foldl_cons, ih hnodup hx]
      have hsame : ∀ b, (w.bump y).keys (windowKey x.key b) = w.keys (windowKey x.key b) :=
        fun b => bump_other w fun heq => absurd heq hne
      by_cases hb : x.bucket = b
      · rw [← hb, bump_self, bump_self, hsame]
        rfl
      · rw [bump_other _ fun _ => hb, bump_other _ fun _ => hb, hsame]

end Keys

section Calls
variable (other : (q : InflightAsk) → InflightReply q) {key : String} {W : Int}

def WindowCall.bumps (c : WindowCall) : List WindowBump :=
  c.items.map (fun e =>
    ⟨e.1, currentBucket e.2.rule.windowSeconds c.now, e.2.hits,
      e.2.rule.windowSeconds + bucketSeconds e.2.rule.windowSeconds + 5⟩)

theorem run_store (keys : String → Option (Volatile Nat)) (c : WindowCall) :
    (c.run other keys).2 = c.bumps.foldl WindowStore.bump ⟨c.now, keys⟩ := rfl

theorem run_totals (keys : String → Option (Volatile Nat)) {c : WindowCall}
    (hcounts : c.Counts key W) {item : PendingItem} (hitem : (key, item) ∈ c.items) :
    ∃ totals, (c.run other keys).1 = some totals ∧
      totals key = ((bucketIds W c.now).map (fun b =>
        ((Volatile.read c.now ((c.run other keys).2.keys (windowKey key b))).map
          Volatile.value).getD 0)).sum := by
  have hrun : (c.run other keys).1 = some (fun k =>
      ((((c.items.map (fun e => (e.1, bucketIds e.2.rule.windowSeconds c.now))).lookup k).getD
        []).map (fun b => ((Volatile.read (c.bumps.foldl WindowStore.bump ⟨c.now, keys⟩).now
          ((c.bumps.foldl WindowStore.bump ⟨c.now, keys⟩).keys (windowKey k b))).map
            Volatile.value).getD 0)).sum) := rfl
  have hlookup : (c.items.map (fun e => (e.1, bucketIds e.2.rule.windowSeconds c.now))).lookup key =
      some (bucketIds W c.now) := by
    rw [← hcounts.window item hitem]
    apply Assoc.lookup_of_mem
    · rw [List.map_map]
      exact hcounts.distinct
    · exact List.mem_map.2 ⟨(key, item), hitem, rfl⟩
  refine ⟨_, hrun, ?_⟩
  rw [hlookup, Option.getD_some, foldl_bump_now, run_store]

end Calls

section Runs
variable (other : (q : InflightAsk) → InflightReply q) {key : String} {W : Int}
  {marks : List (Int × Nat)} {b T : Int}

structure CounterHolds (W : Int) (marks : List (Int × Nat)) (b : Int) (k : Option (Volatile Nat)) :
    Prop where
  gone : k = none → ∀ m ∈ marks, m.1 / bucketSeconds W ≠ b
  value : ∀ v, k = some v →
    v.value = Buckets.weight (fun t => decide (t / bucketSeconds W = b)) marks
  expiry : ∀ v, k = some v → ∃ t : Int, t / bucketSeconds W = b ∧
    v.expiry = some ((t : Rat) + ((W + bucketSeconds W + 5 : Int) : Rat))

theorem CounterHolds.read {k : Option (Volatile Nat)} (h : CounterHolds W marks b k)
    (hread : T / bucketSeconds W - W / bucketSeconds W ≤ b) : Volatile.read (T : Rat) k = k := by
  cases k with
  | none => rfl
  | some v =>
    obtain ⟨t, rfl, hexpiry⟩ := h.expiry v rfl
    have halive : (T : Rat) ≤ (t : Rat) + ((W + bucketSeconds W + 5 : Int) : Rat) := by
      exact_mod_cast alive_of_read hread
    rw [Volatile.read, Option.filter_some, hexpiry, Option.all_some, if_pos (decide_eq_true halive)]

theorem CounterHolds.count {k : Option (Volatile Nat)} (h : CounterHolds W marks b k) :
    (k.map Volatile.value).getD 0 =
      Buckets.weight (fun t => decide (t / bucketSeconds W = b)) marks := by
  cases k with
  | some v => exact h.value v rfl
  | none =>
    have hnone : marks.filter (fun m => decide (m.1 / bucketSeconds W = b)) = [] := by
      rw [List.filter_eq_nil_iff]
      intro m hm heq
      exact h.gone rfl m hm (of_decide_eq_true heq)
    rw [Buckets.weight, hnone]
    rfl

theorem CounterHolds.none : CounterHolds W [] b none where
  gone _ := nofun
  value := nofun
  expiry := nofun

theorem CounterHolds.raise {k : Option (Volatile Nat)} {hits : Nat} (hW : 1 ≤ W)
    (h : CounterHolds W marks (T / bucketSeconds W) k) :
    CounterHolds W (marks ++ [(T, hits)]) (T / bucketSeconds W)
      (raiseCounter (T : Rat) hits (W + bucketSeconds W + 5) k) := by
  have hpositive := buckets_pos hW
  have hslice := bucketSeconds_pos W
  have hweight : Buckets.weight (fun t => decide (t / bucketSeconds W = T / bucketSeconds W))
      (marks ++ [(T, hits)]) =
      Buckets.weight (fun t => decide (t / bucketSeconds W = T / bucketSeconds W)) marks + hits := by
    rw [Buckets.weight_append, Buckets.weight_cons, if_pos (decide_eq_true rfl)]
    rfl
  have hcounter : raiseCounter (T : Rat) hits (W + bucketSeconds W + 5) k =
      some ⟨(k.map Volatile.value).getD 0 + hits,
        some ((T : Rat) + ((W + bucketSeconds W + 5 : Int) : Rat))⟩ := by
    rw [raiseCounter, h.read (by omega), Volatile.expire, if_neg (by omega)]
    cases hk : k with
    | none => simp [Volatile.read]
    | some v =>
      have hread := h.read (T := T) (by omega)
      rw [hk] at hread
      have hlives : v.expiry.all (fun t => decide ((T : Rat) ≤ t)) = true := by
        by_contra hdead
        rw [Volatile.read, Option.filter_some, if_neg hdead] at hread
        cases hread
      simp [Volatile.read, hlives]
  rw [hcounter]
  constructor
  · intro hnone
    cases hnone
  · intro v hv
    rw [← Option.some.inj hv, hweight, h.count]
  · intro v hv
    rw [← Option.some.inj hv]
    exact ⟨T, rfl, rfl⟩

theorem CounterHolds.keep {k : Option (Volatile Nat)} {hits : Nat}
    (h : CounterHolds W marks b k) (hne : T / bucketSeconds W ≠ b) :
    CounterHolds W (marks ++ [(T, hits)]) b k where
  gone hk m hm := by
    obtain hm | hm := List.mem_append.1 hm
    · exact h.gone hk m hm
    · rw [List.mem_singleton.1 hm]
      exact hne
  value v hv := by
    rw [h.value v hv, Buckets.weight_append, Buckets.weight_cons, if_neg (by simpa using hne)]
    rfl
  expiry := h.expiry

theorem marks_of_mem {c : WindowCall} (hcounts : c.Counts key W) {item : PendingItem}
    (hitem : (key, item) ∈ c.items) : c.marks key = [(c.now, item.hits)] := by
  rw [WindowCall.marks, Assoc.lookup_of_mem hcounts.distinct hitem]
  rfl

theorem marks_of_notMem {c : WindowCall} (hitem : ∀ item, (key, item) ∉ c.items) :
    c.marks key = [] := by
  rw [WindowCall.marks]
  cases hlookup : c.items.lookup key with
  | none => rfl
  | some item => exact absurd (Assoc.mem_of_lookup hlookup) (hitem item)

theorem holds_run (hW : 1 ≤ W) {c : WindowCall} (hcounts : c.Counts key W)
    {keys : String → Option (Volatile Nat)}
    (h : ∀ b, CounterHolds W marks b (keys (windowKey key b))) (b : Int) :
    CounterHolds W (marks ++ c.marks key) b ((c.run other keys).2.keys (windowKey key b)) := by
  rw [run_store]
  by_cases hin : ∃ item, (key, item) ∈ c.items
  · obtain ⟨item, hitem⟩ := hin
    have hbump : (⟨key, currentBucket W c.now, item.hits, W + bucketSeconds W + 5⟩ : WindowBump) ∈
        c.bumps := by
      rw [← hcounts.window item hitem]
      exact List.mem_map.2 ⟨(key, item), hitem, rfl⟩
    have hnodup : (c.bumps.map WindowBump.key).Nodup := by
      rw [WindowCall.bumps, List.map_map]
      exact hcounts.distinct
    have hcurrent : currentBucket W (c.now : Rat) = c.now / bucketSeconds W := by
      rw [currentBucket, Rat.floor_intCast]
    have hafter := foldl_bump_of_mem hnodup hbump ⟨c.now, keys⟩ b
    rw [hafter, marks_of_mem hcounts hitem]
    by_cases hb : c.now / bucketSeconds W = b
    · rw [← hb]
      have hself := bump_self ⟨c.now, keys⟩
        ⟨key, currentBucket W c.now, item.hits, W + bucketSeconds W + 5⟩
      rw [hcurrent] at hself ⊢
      rw [hself]
      exact (h _).raise hW
    · rw [bump_other _ fun _ => by rw [hcurrent]; exact hb]
      exact (h b).keep hb
  · have hnone : ∀ item, (key, item) ∉ c.items := fun item hitem => hin ⟨item, hitem⟩
    rw [marks_of_notMem hnone, List.append_nil, foldl_bump_other]
    · exact h b
    · intro x hx hkey
      obtain ⟨e, he, rfl⟩ := List.mem_map.1 hx
      obtain ⟨k, item⟩ := e
      obtain rfl : k = key := hkey
      exact absurd he (hnone item)

theorem holds_keysAfter (hW : 1 ≤ W) {calls : List WindowCall}
    (hcalls : ∀ c ∈ calls, c.Counts key W) (b : Int) :
    CounterHolds W (marksOf key calls) b (keysAfter other calls (windowKey key b)) := by
  induction calls using List.reverseRecOn generalizing b with
  | nil => exact .none
  | append_singleton calls c ih =>
    have hbefore := fun b => ih (fun c' hc' => hcalls c' (List.mem_append_left _ hc')) b
    have hc := hcalls c (List.mem_append_right _ (List.mem_singleton_self c))
    have hrun := holds_run other hW hc hbefore b
    rw [keysAfter, List.foldl_append, List.foldl_cons, List.foldl_nil, marksOf, List.flatMap_append,
      List.flatMap_cons, List.flatMap_nil, List.append_nil]
    exact hrun

end Runs

section Law
variable (other : (q : InflightAsk) → InflightReply q) {key : String} {W : Int}

theorem now_of_mem_marks {c : WindowCall} {m : Int × Nat} (h : m ∈ c.marks key) : m.1 = c.now := by
  obtain ⟨item, -, rfl⟩ := List.mem_map.1 h
  rfl

theorem hits_of_mem_marks {c : WindowCall} (hcounts : c.Counts key W) {m : Int × Nat}
    (h : m ∈ c.marks key) : 0 < m.2 := by
  obtain ⟨item, hitem, rfl⟩ := List.mem_map.1 h
  exact hcounts.hits item (Assoc.mem_of_lookup (Option.mem_toList.1 hitem))

theorem past_of_mem_marks {before : List WindowCall} {c : WindowCall}
    (hsorted : (before ++ [c]).Pairwise (fun a b => a.now ≤ b.now)) {m : Int × Nat}
    (hm : m ∈ marksOf key (before ++ [c])) : m.1 ≤ c.now := by
  obtain ⟨c', hc', hm⟩ := List.mem_flatMap.1 hm
  rw [now_of_mem_marks hm]
  obtain hc' | hc' := List.mem_append.1 hc'
  · exact (List.pairwise_append.1 hsorted).2.2 c' hc' c (List.mem_singleton_self c)
  · rw [List.mem_singleton.1 hc']

theorem total_eq (hW : 1 ≤ W) {before : List WindowCall} {c : WindowCall}
    (hsorted : (before ++ [c]).Pairwise (fun a b => a.now ≤ b.now))
    (hcalls : ∀ c' ∈ before ++ [c], c'.Counts key W) {item : PendingItem}
    (hitem : (key, item) ∈ c.items) :
    ∃ totals, (c.run other (keysAfter other before)).1 = some totals ∧
      totals key = Buckets.weight (fun t => decide (windowStart W c.now ≤ t))
        (marksOf key (before ++ [c])) := by
  obtain ⟨totals, hrun, htotal⟩ := run_totals other (keysAfter other before)
    (hcalls c (List.mem_append_right _ (List.mem_singleton_self c))) hitem
  refine ⟨totals, hrun, ?_⟩
  have hholds := holds_keysAfter other hW hcalls
  rw [keysAfter, List.foldl_append, List.foldl_cons, List.foldl_nil] at hholds
  have hread : ∀ b ∈ bucketIds W c.now,
      ((Volatile.read c.now ((c.run other (keysAfter other before)).2.keys (windowKey key b))).map
        Volatile.value).getD 0 = Buckets.weight (fun t => decide (t / bucketSeconds W = b))
          (marksOf key (before ++ [c])) := by
    intro b hb
    have h := hholds b
    rw [← keysAfter] at h
    rw [h.read ((mem_bucketIds hW).1 hb).1, h.count]
  rw [htotal, List.map_congr_left hread, Buckets.sum_buckets _ (nodup_bucketIds W _)]
  apply Buckets.weight_congr
  intro m hm
  have hpast := past_of_mem_marks hsorted hm
  rw [decide_eq_decide, mem_bucketIds hW, start_le_iff]
  constructor
  · exact fun h => h.1
  · exact fun h => ⟨h, Int.ediv_le_ediv (bucketSeconds_pos W) hpast⟩

theorem covered_of_counts (hW : 1 ≤ W) {before : List WindowCall} {c : WindowCall}
    (hsorted : (before ++ [c]).Pairwise (fun a b => a.now ≤ b.now))
    (hcalls : ∀ c' ∈ before ++ [c], c'.Counts key W) {item : PendingItem}
    (hitem : (key, item) ∈ c.items) {totals : String → Nat}
    (hrun : (c.run other (keysAfter other before)).1 = some totals)
    (hcounts : CountsWindow other key W before c totals) :
    ∀ m ∈ marksOf key (before ++ [c]), c.now - W ≤ m.1 → windowStart W c.now ≤ m.1 := by
  intro m hm hin
  obtain ⟨totals', hrun', htotal⟩ := total_eq other hW hsorted hcalls hitem
  have hpos : ∀ m ∈ marksOf key (before ++ [c]), 0 < m.2 := by
    intro m hm
    obtain ⟨c', hc', hm⟩ := List.mem_flatMap.1 hm
    exact hits_of_mem_marks (hcalls c' hc') hm
  by_contra hout
  have hleast := hcounts.least
  rw [← Option.some.inj (hrun'.symm.trans hrun), htotal, Buckets.weight_le_iff hpos] at hleast
  · have hcounted := hleast m hm (decide_eq_true ⟨hin, past_of_mem_marks hsorted hm⟩)
    exact hout (of_decide_eq_true hcounted)
  · intro m' hm' hcounted
    rw [decide_eq_true_eq] at hcounted ⊢
    exact ⟨by omega, past_of_mem_marks hsorted hm'⟩

theorem counts_of_covered (hW : 1 ≤ W) {before : List WindowCall} {c : WindowCall}
    (hsorted : (before ++ [c]).Pairwise (fun a b => a.now ≤ b.now))
    (hcalls : ∀ c' ∈ before ++ [c], c'.Counts key W) {item : PendingItem}
    (hitem : (key, item) ∈ c.items)
    (h : ∀ m ∈ marksOf key (before ++ [c]), c.now - W ≤ m.1 → windowStart W c.now ≤ m.1) :
    ∃ totals, (c.run other (keysAfter other before)).1 = some totals ∧
      CountsWindow other key W before c totals := by
  obtain ⟨totals, hrun, htotal⟩ := total_eq other hW hsorted hcalls hitem
  refine ⟨totals, hrun, ?_, ?_, ?_⟩
  · rw [htotal]
    apply Buckets.weight_mono
    intro m hm hin
    rw [decide_eq_true_eq] at hin ⊢
    exact h m hm hin.1
  · rw [htotal]
    apply Buckets.weight_mono
    intro m hm hcounted
    rw [decide_eq_true_eq] at hcounted ⊢
    exact ⟨start_recent hcounted, past_of_mem_marks hsorted hm⟩
  · rintro b hb ⟨m, hm, hbucket⟩ hnone
    have hholds := holds_keysAfter other hW hcalls b
    rw [keysAfter, List.foldl_append, List.foldl_cons, List.foldl_nil, ← keysAfter] at hholds
    rw [hholds.read ((mem_bucketIds hW).1 hb).1] at hnone
    exact hholds.gone hnone m hm hbucket

end Law

/-- The window is counted in a call just where no hit lies in it before its first bucket. -/
theorem sliding_window_counts_iff (other : (q : InflightAsk) → InflightReply q) (key : String)
    (W : Int) (hW : 1 ≤ W) (before : List WindowCall) (c : WindowCall)
    (hsorted : (before ++ [c]).Pairwise (fun a b => a.now ≤ b.now))
    (hcalls : ∀ c' ∈ before ++ [c], c'.Counts key W) (item : PendingItem)
    (hitem : (key, item) ∈ c.items) :
    (∃ totals, (c.run other (keysAfter other before)).1 = some totals ∧
        CountsWindow other key W before c totals) ↔
      ∀ m ∈ marksOf key (before ++ [c]), c.now - W ≤ m.1 → windowStart W c.now ≤ m.1 := by
  constructor
  · rintro ⟨totals, hrun, hcounts⟩
    exact covered_of_counts other hW hsorted hcalls hitem hrun hcounts
  · exact counts_of_covered other hW hsorted hcalls hitem

section Example

/-- A rule with a window, whose key has one hit. -/
def windowItem (windowSeconds : Int) : PendingItem where
  rule := {
    ruleId := 7, name := "user", severityId := 4, suppressionWindowSeconds := 3600
    groupByPath := some ["raw", "user"], clauses := [], minCount := 2
    windowSeconds := windowSeconds }
  integrationId := none
  source := []
  token := "root"

def oneHit (windowSeconds now : Int) : WindowCall := ⟨now, [("inflight:1:7:root", windowItem windowSeconds)]⟩

theorem oneHit_counts (windowSeconds now : Int) :
    (oneHit windowSeconds now).Counts "inflight:1:7:root" windowSeconds where
  distinct := List.nodup_singleton _
  window item hitem := by
    obtain ⟨-, rfl⟩ := Prod.mk.inj (List.mem_singleton.1 hitem)
    rfl
  hits item hitem := by
    obtain ⟨-, rfl⟩ := Prod.mk.inj (List.mem_singleton.1 hitem)
    exact Nat.one_pos

theorem twoHits_counts (windowSeconds now later : Int) :
    ∀ c ∈ [oneHit windowSeconds now] ++ [oneHit windowSeconds later],
      c.Counts "inflight:1:7:root" windowSeconds := by
  intro c hc
  obtain rfl | hc := List.mem_cons.1 hc
  · exact oneHit_counts windowSeconds now
  · rw [List.mem_singleton.1 hc]
    exact oneHit_counts windowSeconds later

/-- A window of a minute counts a hit that is a minute old. -/
theorem minute_counts :
    ∃ totals, ((oneHit 60 130).run quietRedis (keysAfter quietRedis [oneHit 60 70])).1 = some totals ∧
      CountsWindow quietRedis "inflight:1:7:root" 60 [oneHit 60 70] (oneHit 60 130) totals :=
  (sliding_window_counts_iff quietRedis "inflight:1:7:root" 60 (by decide) [oneHit 60 70] (oneHit 60 130)
    (by decide) (twoHits_counts 60 70 130) (windowItem 60) (List.mem_singleton_self _)).2
    (by decide)

/-- A window of 25 seconds has buckets of two, and reads no more than twelve of them back. -/
theorem hit_left_out :
    ¬ ∃ other totals, ((oneHit 25 100).run other (keysAfter other [oneHit 25 75])).1 = some totals ∧
      CountsWindow other "inflight:1:7:root" 25 [oneHit 25 75] (oneHit 25 100) totals := by
  rintro ⟨other, totals, hrun, hcounts⟩
  have hcovered := covered_of_counts other (by decide) (by decide) (twoHits_counts 25 75 100)
    (List.mem_singleton_self _) hrun hcounts
  have hout : ¬ ∀ m ∈ marksOf "inflight:1:7:root" ([oneHit 25 75] ++ [oneHit 25 100]),
      (100 : Int) - 25 ≤ m.1 → windowStart 25 100 ≤ m.1 := by decide
  exact hout hcovered

end Example

end CentralOps
