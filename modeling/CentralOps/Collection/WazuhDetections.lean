import CentralOps.Collection.CursorBoundary
import CentralOps.Lib.Windows

namespace CentralOps
set_option autoImplicit true

open Py

/-- `_PAGE_SIZE`. -/
def pageSize : Nat := 200

/-- `_MAX_RESULT_WINDOW`. -/
def maxResultWindow : Nat := 10000

/-- `_MAX_PAGES_PER_CYCLE`. -/
def maxPagesPerCycle : Nat := 50

/-- A document of the indexer: its `_id`, and what the collector reads of its `_source`. -/
structure WazuhAlert where
  docId : Text
  id : Text
  stamp : Text
  level : Option Int
  deriving DecidableEq

namespace WazuhAlert

/-- `extract_message_id`, after `_id` has stepped in for a missing id. -/
def key (a : WazuhAlert) : Text := if a.id = [] then a.docId else a.id

/-- The instant by which the indexer sorts and compares. -/
def time (a : WazuhAlert) : Nat := (instant (.str a.stamp)).getD 0

/-- The clause on `rule.level`, where there is one. -/
def meets (level : Option Int) (a : WazuhAlert) : Bool :=
  match level with
  | none => true
  | some low => (a.level.map (fun v => decide (low ≤ v))).getD false

end WazuhAlert

structure AlertIndex where
  alerts : List WazuhAlert
  placed : ∀ a ∈ alerts, instant (.str a.stamp) = some a.time
  sorted : alerts.Pairwise (fun a b => a.time ≤ b.time)
  nodup : alerts.Nodup

/-- The cursor of the collector. -/
structure WazuhCursor where
  fromTs : Option Text
  memory : Option BoundaryMemory

/-- `cursor.get("from_ts") or _default_lookback_iso()`. -/
def WazuhCursor.window (c : WazuhCursor) (lookback : Text) : Text :=
  match c.fromTs with
  | none => lookback
  | some t => if t = [] then lookback else t

/-- What the loop over the hits has made of them. -/
structure WazuhRead where
  boundary : BoundaryKeys
  latestSeen : Text
  emitted : List WazuhAlert := []
  passed : List WazuhAlert := []

def WazuhRead.next (r : WazuhRead) (a : WazuhAlert) : WazuhRead :=
  let latestSeen := if isLater (.str a.stamp) (.str r.latestSeen) then a.stamp else r.latestSeen
  match r.boundary.seen (.str a.stamp) a.key with
  | (true, b) => ⟨b, latestSeen, r.emitted, r.passed ++ [a]⟩
  | (false, b) => ⟨b, latestSeen, r.emitted ++ [a], r.passed⟩

structure WazuhState where
  fromTs : Text
  offset : Nat
  pageCount : Nat
  read : WazuhRead
  cursor : WazuhCursor

structure WazuhCycle where
  cursor : WazuhCursor
  capped : Bool
  emitted : List WazuhAlert
  passed : List WazuhAlert

inductive WazuhExit where
  | raised
  | returned (cycle : WazuhCycle)

section Collect
variable (index : AlertIndex) (level : Option Int) (bounded : Bool) (windowStart : Text)

/-- `_search`; `none` is the error the indexer answers to a time it cannot read. -/
def search (fromTs : Text) (offset : Nat) : Option (List WazuhAlert) :=
  (instant (.str fromTs)).map (fun start =>
    ((index.alerts.filter (fun a => a.meets level && decide (start ≤ a.time))).drop offset).take
      pageSize)

/-- The cursor at the end of a cycle. -/
def WazuhRead.finish (r : WazuhRead) (capped : Bool) : WazuhExit :=
  .returned ⟨⟨some r.latestSeen, r.boundary.dump r.latestSeen⟩, capped, r.emitted, r.passed⟩

def WazuhRead.between (r : WazuhRead) (fromTs : Text) : WazuhCursor :=
  ⟨some fromTs, if fromTs = windowStart then r.boundary.carry else r.boundary.dump fromTs⟩

/-- One turn of the loop of `collect`. -/
def wazuhPage (s : WazuhState) : WazuhExit ⊕ WazuhState :=
  let pageCount := s.pageCount + 1
  if bounded && decide (maxPagesPerCycle < pageCount) then .inl (s.read.finish true)
  else
    match search index level s.fromTs s.offset with
    | none => .inl .raised
    | some hits =>
      if hits = [] then .inl (s.read.finish false)
      else
        let read := hits.foldl WazuhRead.next s.read
        let offset := s.offset + hits.length
        if hits.length < pageSize then .inl (read.finish false)
        else if maxResultWindow ≤ offset then
          -- the window moves to the last time that was seen
          .inr ⟨read.latestSeen, 0, pageCount, read, read.between windowStart read.latestSeen⟩
        else .inr ⟨s.fromTs, offset, pageCount, read, read.between windowStart s.fromTs⟩

/-- So many turns; `none` while the loop goes on. -/
def collectLoop : Nat → WazuhState → Option WazuhExit
  | 0, _ => none
  | fuel + 1, s =>
    match wazuhPage index level bounded windowStart s with
    | .inl exit => some exit
    | .inr s => collectLoop fuel s

end Collect

section Cycles
variable (index : AlertIndex) (level : Option Int) (lookback : Text)

/-- `collect`, for so many turns of its loop. -/
def wazuhCollect (bounded : Bool) (cursor : WazuhCursor) (fuel : Nat) : Option WazuhExit :=
  let fromTs := cursor.window lookback
  collectLoop index level bounded fromTs fuel
    ⟨fromTs, 0, 0, ⟨.load cursor.memory (some fromTs), fromTs, [], []⟩, cursor⟩

/-- So many bounded cycles, each from the cursor that the one before it stored. -/
def wazuhCycles : Nat → WazuhCursor → Option (List WazuhCycle)
  | 0, _ => some []
  | n + 1, cursor =>
    match wazuhCollect index level lookback true cursor (maxPagesPerCycle + 1) with
    | some (.returned cycle) => (cycle :: ·) <$> wazuhCycles n cycle.cursor
    | _ => none

end Cycles

/-- The documents that meet the filter. -/
def AlertIndex.matching (index : AlertIndex) (level : Option Int) : List WazuhAlert :=
  index.alerts.filter (·.meets level)

section Reading

theorem matching_sorted (index : AlertIndex) (level : Option Int) :
    Windows.Sorted WazuhAlert.time (index.matching level) :=
  index.sorted.filter _

theorem matching_nodup (index : AlertIndex) (level : Option Int) :
    (index.matching level).Nodup :=
  index.nodup.filter _

theorem search_eq (index : AlertIndex) (level : Option Int) {fromTs : Text} {w : Nat}
    (h : instant (.str fromTs) = some w) (offset : Nat) :
    search index level fromTs offset =
      some (((Windows.since WazuhAlert.time (index.matching level) w).drop offset).take pageSize) := by
  rw [search, h, Option.map_some, Windows.since, AlertIndex.matching, List.filter_filter]
  simp only [Bool.and_comm]

def skips (b : BoundaryKeys) (a : WazuhAlert) : Bool := decide (a.key ≠ [] ∧ a.key ∈ b.previous)

theorem next_eq (r : WazuhRead) (a : WazuhAlert) :
    (r.next a).boundary.previous = r.boundary.previous ∧
      (r.next a).boundary.windowStart = r.boundary.windowStart ∧
      (r.next a).boundary.recent = remember r.boundary.recent (instant (.str a.stamp)) a.key ∧
      (r.next a).latestSeen =
        (if isLater (.str a.stamp) (.str r.latestSeen) then a.stamp else r.latestSeen) ∧
      (r.next a).emitted = r.emitted ++ [a].filter (fun a => !skips r.boundary a) ∧
      (r.next a).passed = r.passed ++ [a].filter (skips r.boundary) := by
  by_cases hseen : a.key ≠ [] ∧ a.key ∈ r.boundary.previous
  · simp [WazuhRead.next, BoundaryKeys.seen, BoundaryKeys.observe, skips, hseen]
  · simp only [WazuhRead.next, BoundaryKeys.seen, BoundaryKeys.observe, skips, hseen, if_false,
      List.filter_cons, List.filter_nil, decide_false, Bool.not_false, if_true,
      Bool.false_eq_true, List.append_nil, and_self]

theorem foldl_next_eq (hits : List WazuhAlert) (r : WazuhRead) :
    (hits.foldl WazuhRead.next r).boundary.previous = r.boundary.previous ∧
      (hits.foldl WazuhRead.next r).emitted =
        r.emitted ++ hits.filter (fun a => !skips r.boundary a) ∧
      (hits.foldl WazuhRead.next r).passed = r.passed ++ hits.filter (skips r.boundary) := by
  induction hits generalizing r with
  | nil => simp
  | cons a hits ih =>
    obtain ⟨hprevious, -, -, -, hemitted, hpassed⟩ := next_eq r a
    obtain ⟨hprevious', hemitted', hpassed'⟩ := ih (r.next a)
    have hskips : skips (r.next a).boundary = skips r.boundary := by
      funext x
      rw [skips, skips, hprevious]
    rw [List.foldl_cons, hprevious', hemitted', hpassed', hprevious, hemitted, hpassed, hskips,
      List.append_assoc, List.append_assoc, ← List.filter_append, ← List.filter_append]
    exact ⟨rfl, rfl, rfl⟩

def latestOf (w : Nat) (hits : List WazuhAlert) : Nat := hits.foldl (fun t a => max t a.time) w

theorem latestOf_cons (w : Nat) (a : WazuhAlert) (hits : List WazuhAlert) :
    latestOf w (a :: hits) = latestOf (max w a.time) hits := rfl

theorem latestSeen_foldl {hits : List WazuhAlert}
    (hplaced : ∀ a ∈ hits, instant (.str a.stamp) = some a.time) {r : WazuhRead} {w : Nat}
    (h : instant (.str r.latestSeen) = some w) :
    instant (.str (hits.foldl WazuhRead.next r).latestSeen) = some (latestOf w hits) := by
  induction hits generalizing r w with
  | nil => exact h
  | cons a hits ih =>
    have ha := hplaced a List.mem_cons_self
    obtain ⟨-, -, -, hlatest, -, -⟩ := next_eq r a
    rw [latestOf_cons]
    apply ih fun b hb => hplaced b (List.mem_cons_of_mem a hb)
    have hcompare : isLater (.str a.stamp) (.str r.latestSeen) = decide (w < a.time) := by
      rw [isLater, ha, h]
    rw [hlatest, hcompare]
    by_cases hlater : w < a.time
    · rw [decide_eq_true hlater, if_pos rfl, ha, max_eq_right hlater.le]
    · rw [decide_eq_false hlater, if_neg Bool.false_ne_true, h, max_eq_left (not_lt.1 hlater)]

theorem latestOf_eq {hits : List WazuhAlert} (hsorted : Windows.Sorted WazuhAlert.time hits)
    {w : Nat} (hfrom : ∀ a ∈ hits, w ≤ a.time) :
    latestOf w hits = (hits.getLast?.map WazuhAlert.time).getD w := by
  induction hits generalizing w with
  | nil => rfl
  | cons a hits ih =>
    obtain ⟨hfirst, hrest⟩ := List.pairwise_cons.1 hsorted
    rw [latestOf_cons, max_eq_right (hfrom a List.mem_cons_self), ih hrest hfirst]
    cases hits with
    | nil => rfl
    | cons b hits => rw [List.getLast?_cons_cons, List.getLast?_cons, Option.map_some]; rfl

theorem latestOf_page (index : AlertIndex) (level : Option Int) (w : Nat) :
    latestOf w (Windows.page WazuhAlert.time (index.matching level) maxResultWindow w) =
      Windows.advance WazuhAlert.time (index.matching level) maxResultWindow w := by
  apply latestOf_eq
  · exact ((matching_sorted index level).since_sorted w).take
  · intro a ha
    exact (Windows.mem_since.1 (Windows.page_subset ha)).2

theorem matching_placed (index : AlertIndex) (level : Option Int) :
    ∀ a ∈ index.matching level, instant (.str a.stamp) = some a.time :=
  fun a ha => index.placed a (List.mem_of_mem_filter ha)

end Reading

def behind (index : AlertIndex) (level : Option Int) (w offset : Nat) : List WazuhAlert :=
  (Windows.since WazuhAlert.time (index.matching level) w).drop offset

section Turns
variable (index : AlertIndex) (level : Option Int) (bounded : Bool) (windowStart : Text)
  {s : WazuhState} {w : Nat}

theorem wazuhPage_short (hw : instant (.str s.fromTs) = some w)
    (hpages : bounded = true → s.pageCount + 1 ≤ maxPagesPerCycle)
    (hshort : (behind index level w s.offset).length < pageSize) :
    wazuhPage index level bounded windowStart s =
      .inl (((behind index level w s.offset).foldl WazuhRead.next s.read).finish false) := by
  have hopen : (bounded && decide (maxPagesPerCycle < s.pageCount + 1)) = false := by
    cases bounded with
    | false => rfl
    | true => exact decide_eq_false (not_lt.2 (hpages rfl))
  have htake : (behind index level w s.offset).take pageSize = behind index level w s.offset :=
    List.take_of_length_le hshort.le
  rw [wazuhPage, search_eq index level hw, hopen, if_neg Bool.false_ne_true]
  rw [behind] at htake hshort ⊢
  rw [htake]
  by_cases hnone : (Windows.since WazuhAlert.time (index.matching level) w).drop s.offset = []
  · rw [hnone]
    rfl
  · simp only [hnone, if_false, hshort, if_true]

theorem wazuhPage_full (hw : instant (.str s.fromTs) = some w)
    (hpages : bounded = true → s.pageCount + 1 ≤ maxPagesPerCycle)
    (hfull : pageSize ≤ (behind index level w s.offset).length) :
    ∃ c, wazuhPage index level bounded windowStart s = .inr
      (let read := ((behind index level w s.offset).take pageSize).foldl WazuhRead.next s.read
       if maxResultWindow ≤ s.offset + pageSize then ⟨read.latestSeen, 0, s.pageCount + 1, read, c⟩
       else ⟨s.fromTs, s.offset + pageSize, s.pageCount + 1, read, c⟩) := by
  have hopen : (bounded && decide (maxPagesPerCycle < s.pageCount + 1)) = false := by
    cases bounded with
    | false => rfl
    | true => exact decide_eq_false (not_lt.2 (hpages rfl))
  have hlen : ((behind index level w s.offset).take pageSize).length = pageSize := by
    rw [List.length_take, Nat.min_eq_left hfull]
  have hsome : (behind index level w s.offset).take pageSize ≠ [] := by
    intro hnil
    rw [hnil] at hlen
    cases hlen
  rw [wazuhPage, search_eq index level hw, hopen, if_neg Bool.false_ne_true]
  rw [behind] at hlen hsome ⊢
  simp only [hsome, if_false, hlen, lt_irrefl]
  split
  · exact ⟨_, rfl⟩
  · exact ⟨_, rfl⟩

/-- The pages that are left of a window: it ends among them, or they are read to the last and the
window moves. -/
theorem collectLoop_window (m : Nat) (hw : instant (.str s.fromTs) = some w)
    (hoffset : s.offset + pageSize * (m + 1) = maxResultWindow)
    (hpages : bounded = true → s.pageCount + (m + 1) ≤ maxPagesPerCycle) :
    ((behind index level w s.offset).length < pageSize * (m + 1) → ∀ fuel,
      collectLoop index level bounded windowStart (fuel + (m + 1)) s =
        some (((behind index level w s.offset).foldl WazuhRead.next s.read).finish false)) ∧
    (pageSize * (m + 1) ≤ (behind index level w s.offset).length → ∃ c, ∀ fuel,
      collectLoop index level bounded windowStart (fuel + (m + 1)) s =
        collectLoop index level bounded windowStart fuel
          (let read := ((behind index level w s.offset).take (pageSize * (m + 1))).foldl
            WazuhRead.next s.read
           ⟨read.latestSeen, 0, s.pageCount + (m + 1), read, c⟩)) := by
  induction m generalizing s with
  | zero =>
    constructor
    · intro hshort fuel
      rw [collectLoop, wazuhPage_short index level bounded windowStart hw hpages hshort]
    · intro hfull
      obtain ⟨c, hpage⟩ := wazuhPage_full index level bounded windowStart hw hpages hfull
      have hlast : maxResultWindow ≤ s.offset + pageSize := hoffset.symm.le
      rw [if_pos hlast] at hpage
      refine ⟨c, fun fuel => ?_⟩
      rw [collectLoop, hpage]
      rfl
  | succ m ih =>
    have hone : bounded = true → s.pageCount + 1 ≤ maxPagesPerCycle := by
      intro hbounded
      have hmost := hpages hbounded
      omega
    by_cases hshort : (behind index level w s.offset).length < pageSize
    · constructor
      · intro _ fuel
        rw [← Nat.add_assoc, collectLoop, wazuhPage_short index level bounded windowStart hw hone hshort]
      · intro hfull
        rw [Nat.mul_succ] at hfull
        omega
    · obtain ⟨c, hpage⟩ := wazuhPage_full index level bounded windowStart hw hone (not_lt.1 hshort)
      have hmore : ¬ maxResultWindow ≤ s.offset + pageSize := by
        rw [Nat.mul_succ, Nat.mul_succ] at hoffset
        have hsome : 0 < pageSize := by decide
        omega
      rw [if_neg hmore] at hpage
      have hrest : behind index level w (s.offset + pageSize) =
          (behind index level w s.offset).drop pageSize := by
        rw [behind, behind, List.drop_drop]
      have hlen : ((behind index level w s.offset).drop pageSize).length =
          (behind index level w s.offset).length - pageSize := List.length_drop
      have hfold : ∀ l : List WazuhAlert, (l.drop pageSize).foldl WazuhRead.next
          ((l.take pageSize).foldl WazuhRead.next s.read) = l.foldl WazuhRead.next s.read := by
        intro l
        rw [← List.foldl_append, List.take_append_drop]
      obtain ⟨hends, hmoves⟩ := ih (s := ⟨s.fromTs, s.offset + pageSize, s.pageCount + 1,
        ((behind index level w s.offset).take pageSize).foldl WazuhRead.next s.read, c⟩) hw
        (by simp only; rw [Nat.mul_succ] at hoffset; omega)
        (fun hbounded => by have hmost := hpages hbounded; simp only; omega)
      simp only [hrest, hlen, hfold] at hends hmoves
      rw [Nat.mul_succ pageSize (m + 1)]
      constructor
      · intro hfew fuel
        rw [← Nat.add_assoc, collectLoop, hpage]
        exact hends (by omega) fuel
      · intro hfull
        obtain ⟨c', hmoved⟩ := hmoves (by omega)
        refine ⟨c', fun fuel => ?_⟩
        rw [← Nat.add_assoc, collectLoop, hpage]
        refine (hmoved fuel).trans ?_
        rw [Nat.add_comm (pageSize * (m + 1)), List.take_add, List.foldl_append, Nat.add_assoc,
          Nat.add_comm 1]

theorem collectLoop_short (hw : instant (.str s.fromTs) = some w) (hstart : s.offset = 0)
    (hpages : bounded = true → s.pageCount = 0)
    (hshort : (Windows.since WazuhAlert.time (index.matching level) w).length < maxResultWindow)
    (fuel : Nat) :
    collectLoop index level bounded windowStart (fuel + maxPagesPerCycle) s =
      some (((Windows.page WazuhAlert.time (index.matching level) maxResultWindow w).foldl
        WazuhRead.next s.read).finish false) := by
  obtain ⟨hends, -⟩ := collectLoop_window index level bounded windowStart 49 hw
    (by rw [hstart]; rfl)
    (fun hbounded => by rw [hpages hbounded]; decide)
  rw [Windows.page_eq_since hshort.le]
  rw [hstart, behind, List.drop_zero] at hends
  exact hends hshort fuel

theorem collectLoop_full (hw : instant (.str s.fromTs) = some w) (hstart : s.offset = 0)
    (hpages : bounded = true → s.pageCount = 0)
    (hfull : maxResultWindow ≤ (Windows.since WazuhAlert.time (index.matching level) w).length) :
    ∃ c, ∀ fuel, collectLoop index level bounded windowStart (fuel + maxPagesPerCycle) s =
      collectLoop index level bounded windowStart fuel
        (let read := (Windows.page WazuhAlert.time (index.matching level) maxResultWindow w).foldl
          WazuhRead.next s.read
         ⟨read.latestSeen, 0, s.pageCount + maxPagesPerCycle, read, c⟩) := by
  obtain ⟨-, hmoves⟩ := collectLoop_window index level bounded windowStart 49 hw
    (by rw [hstart]; rfl)
    (fun hbounded => by rw [hpages hbounded]; decide)
  rw [hstart, behind, List.drop_zero] at hmoves
  exact hmoves hfull

theorem collectLoop_more {exit : WazuhExit} {fuel : Nat} (extra : Nat)
    (h : collectLoop index level bounded windowStart fuel s = some exit) :
    collectLoop index level bounded windowStart (fuel + extra) s = some exit := by
  induction fuel generalizing s with
  | zero => cases h
  | succ fuel ih =>
    rw [Nat.succ_add, collectLoop]
    rw [collectLoop] at h
    cases hpage : wazuhPage index level bounded windowStart s with
    | inl other =>
      rw [hpage] at h
      exact h
    | inr next =>
      rw [hpage] at h
      exact ih h

theorem latestSeen_page {r : WazuhRead} (h : instant (.str r.latestSeen) = some w) :
    instant (.str ((Windows.page WazuhAlert.time (index.matching level) maxResultWindow w).foldl
      WazuhRead.next r).latestSeen) =
        some (Windows.advance WazuhAlert.time (index.matching level) maxResultWindow w) := by
  rw [← latestOf_page]
  apply latestSeen_foldl _ h
  intro a ha
  exact matching_placed index level a (List.mem_of_mem_filter (Windows.page_subset ha))

end Turns

/-- What a cycle begins with. -/
def WazuhCursor.opened (c : WazuhCursor) (lookback : Text) : WazuhRead :=
  ⟨.load c.memory (some (c.window lookback)), c.window lookback, [], []⟩

section Unbounded
variable (index : AlertIndex) (level : Option Int) (windowStart : Text) {s : WazuhState} {w : Nat}

/-- An unbounded loop that returns has come to the last window. -/
theorem ends_of_collectLoop {exit : WazuhExit} {fuel : Nat} (hw : instant (.str s.fromTs) = some w)
    (hstart : s.offset = 0) (hlatest : s.read.latestSeen = s.fromTs)
    (h : collectLoop index level false windowStart fuel s = some exit) :
    Windows.Ends WazuhAlert.time (index.matching level) maxResultWindow w := by
  induction fuel using Nat.strong_induction_on generalizing s w with
  | _ fuel ih =>
    by_cases hfull :
        maxResultWindow ≤ (Windows.since WazuhAlert.time (index.matching level) w).length
    · obtain ⟨c, hmoved⟩ := collectLoop_full index level false windowStart hw hstart nofun hfull
      by_cases hfew : fuel ≤ maxPagesPerCycle
      · have hnone := collectLoop_more index level false windowStart (maxPagesPerCycle - fuel) h
        rw [Nat.add_sub_cancel' hfew, ← Nat.zero_add maxPagesPerCycle, hmoved] at hnone
        cases hnone
      · obtain ⟨rest, rfl⟩ := Nat.exists_eq_add_of_lt (not_le.1 hfew)
        have hrest : maxPagesPerCycle + rest + 1 = rest + 1 + maxPagesPerCycle := by omega
        rw [hrest, hmoved] at h
        have hpos : 0 < maxPagesPerCycle := by decide
        obtain ⟨k, hk⟩ := ih (rest + 1) (by omega)
          (latestSeen_page index level (hlatest ▸ hw)) rfl rfl h
        exact ⟨k + 1, hk⟩
    · exact ⟨0, not_le.1 hfull⟩

def ReadsFrom (s : WazuhState) (w : Nat) : Prop :=
  ∃ (fuel : Nat) (hits : List WazuhAlert), collectLoop index level false windowStart fuel s =
      some ((hits.foldl WazuhRead.next s.read).finish false) ∧
    ∀ a ∈ Windows.since WazuhAlert.time (index.matching level) w, a ∈ hits

theorem readsFrom_short (hw : instant (.str s.fromTs) = some w) (hstart : s.offset = 0)
    (hshort : (Windows.since WazuhAlert.time (index.matching level) w).length < maxResultWindow) :
    ReadsFrom index level windowStart s w := by
  refine ⟨_, _, collectLoop_short index level false windowStart hw hstart nofun hshort 0, ?_⟩
  intro a ha
  rw [Windows.page_eq_since hshort.le]
  exact ha

/-- Where there is a last window the loop comes to it. -/
theorem readsFrom_of_ends (hw : instant (.str s.fromTs) = some w) (hstart : s.offset = 0)
    (hlatest : s.read.latestSeen = s.fromTs)
    (hends : Windows.Ends WazuhAlert.time (index.matching level) maxResultWindow w) :
    ReadsFrom index level windowStart s w := by
  obtain ⟨k, hk⟩ := hends
  induction k generalizing s w with
  | zero => exact readsFrom_short index level windowStart hw hstart hk
  | succ k ih =>
    by_cases hfull :
        maxResultWindow ≤ (Windows.since WazuhAlert.time (index.matching level) w).length
    · obtain ⟨c, hmoved⟩ := collectLoop_full index level false windowStart hw hstart nofun hfull
      obtain ⟨fuel, hits, hreturns, hall⟩ := ih (s := ⟨_, 0, _, _, c⟩)
        (latestSeen_page index level (hlatest ▸ hw)) rfl rfl hk
      refine ⟨fuel + maxPagesPerCycle,
        Windows.page WazuhAlert.time (index.matching level) maxResultWindow w ++ hits, ?_, ?_⟩
      · rw [hmoved, hreturns, List.foldl_append]
      · intro a ha
        by_cases hnext :
            Windows.advance WazuhAlert.time (index.matching level) maxResultWindow w ≤ a.time
        · exact List.mem_append_right _ (hall a
            (Windows.mem_since.2 ⟨(Windows.mem_since.1 ha).1, hnext⟩))
        · exact List.mem_append_left _
            ((matching_sorted index level).mem_page ha (not_le.1 hnext))
    · exact readsFrom_short index level windowStart hw hstart (not_le.1 hfull)

end Unbounded

section Bounded
variable (index : AlertIndex) (level : Option Int) (lookback : Text) {cursor : WazuhCursor}
  {w : Nat}

theorem wazuhCollect_bounded (hw : instant (.str (cursor.window lookback)) = some w) :
    ∃ capped, wazuhCollect index level lookback true cursor (maxPagesPerCycle + 1) =
      some (((Windows.page WazuhAlert.time (index.matching level) maxResultWindow w).foldl
        WazuhRead.next (cursor.opened lookback)).finish capped) := by
  rw [Nat.add_comm, wazuhCollect]
  by_cases hfull :
      maxResultWindow ≤ (Windows.since WazuhAlert.time (index.matching level) w).length
  · obtain ⟨c, hmoved⟩ := collectLoop_full index level true (cursor.window lookback)
      (s := ⟨cursor.window lookback, 0, 0, cursor.opened lookback, cursor⟩) hw rfl (fun _ => rfl)
      hfull
    exact ⟨true, hmoved 1⟩
  · exact ⟨false, collectLoop_short index level true (cursor.window lookback)
      (s := ⟨cursor.window lookback, 0, 0, cursor.opened lookback, cursor⟩) hw rfl (fun _ => rfl)
      (not_le.1 hfull) 1⟩

/-- The cycle that a bounded run of `collect` is. -/
structure ReadsPage (cursor : WazuhCursor) (w : Nat) (cycle : WazuhCycle) : Prop where
  collected : wazuhCollect index level lookback true cursor (maxPagesPerCycle + 1) =
    some (.returned cycle)
  moves : instant (.str (cycle.cursor.window lookback)) =
    some (Windows.advance WazuhAlert.time (index.matching level) maxResultWindow w)
  reads : ∀ a, a ∈ cycle.emitted ∨ a ∈ cycle.passed ↔
    a ∈ Windows.page WazuhAlert.time (index.matching level) maxResultWindow w
  passes : ∀ a ∈ cycle.passed, ∃ m, cursor.memory = some m ∧ a.key ∈ m.keys
  remembers : ∀ m, cycle.cursor.memory = some m → ∀ key ∈ m.keys,
    (∃ m, cursor.memory = some m ∧ key ∈ m.keys) ∨ ∃ a ∈ cycle.emitted, a.key = key

theorem foldl_next_recent {seen : Seen} (hits : List WazuhAlert) {r : WazuhRead}
    (h : seen ∈ (hits.foldl WazuhRead.next r).boundary.recent) :
    seen ∈ r.boundary.recent ∨ ∃ a ∈ hits, a.key = (ofLex seen).2 := by
  induction hits generalizing r with
  | nil => exact .inl h
  | cons a hits ih =>
    obtain hin | ⟨b, hb, hkey⟩ := ih h
    · rw [(next_eq r a).2.2.1] at hin
      obtain hin | hnew := mem_remember hin
      · exact .inl hin
      · have hkey := (mem_placedAt (e := ⟨.str a.stamp, a.key⟩) hnew).2
        exact .inr ⟨a, List.mem_cons_self, hkey⟩
    · exact .inr ⟨b, List.mem_cons_of_mem a hb, hkey⟩

theorem readsPage (hw : instant (.str (cursor.window lookback)) = some w) :
    ∃ cycle, ReadsPage index level lookback cursor w cycle := by
  obtain ⟨capped, hcollect⟩ := wazuhCollect_bounded index level lookback hw
  have hlatest := latestSeen_page index level (r := cursor.opened lookback) hw
  obtain ⟨hprevious, hemitted, hpassed⟩ := foldl_next_eq
    (Windows.page WazuhAlert.time (index.matching level) maxResultWindow w)
    (cursor.opened lookback)
  have hold : ∀ key ∈ (cursor.opened lookback).boundary.previous,
      ∃ m, cursor.memory = some m ∧ key ∈ m.keys := by
    intro key hkey
    obtain ⟨m, hm, -, hin⟩ := BoundaryKeys.mem_load_previous hkey
    exact ⟨m, hm, hin⟩
  have hcases : ∀ a, a ∈ Windows.page WazuhAlert.time (index.matching level) maxResultWindow w →
      a ∈ ((Windows.page WazuhAlert.time (index.matching level) maxResultWindow w).foldl
        WazuhRead.next (cursor.opened lookback)).emitted ∨ skips (cursor.opened lookback).boundary a
          = true := by
    intro a ha
    rw [hemitted]
    by_cases hskips : skips (cursor.opened lookback).boundary a = true
    · exact .inr hskips
    · exact .inl (List.mem_append_right _ (List.mem_filter.2 ⟨ha, by simpa using hskips⟩))
  refine ⟨_, hcollect, ?_, ?_, ?_, ?_⟩
  · have hnonempty := window_ne_nil hlatest
    rw [WazuhCursor.window]
    simp only [hnonempty, if_false, hlatest]
  · intro a
    constructor
    · rintro (ha | ha)
      · exact List.mem_of_mem_filter (hemitted ▸ ha)
      · exact List.mem_of_mem_filter (hpassed ▸ ha)
    · intro ha
      obtain ha' | hskips := hcases a ha
      · exact .inl ha'
      · right
        change a ∈ (List.foldl WazuhRead.next (cursor.opened lookback) _).passed
        rw [hpassed]
        exact List.mem_append_right _ (List.mem_filter.2 ⟨ha, hskips⟩)
  · intro a ha
    have hskips := (List.mem_filter.1 (hpassed ▸ ha)).2
    exact hold a.key (of_decide_eq_true hskips).2
  · intro m hm key hkey
    obtain hin | ⟨seen, hseen, rfl⟩ := (BoundaryKeys.dump_sound hm).2 key hkey
    · rw [hprevious] at hin
      exact .inl (hold key hin)
    · obtain hin | ⟨a, ha, hsame⟩ := foldl_next_recent _ hseen
      · rw [WazuhCursor.opened, (BoundaryKeys.load_frame _ _).2] at hin
        cases hin
      · rw [← hsame]
        obtain ha' | hskips := hcases a ha
        · exact .inr ⟨a, ha', rfl⟩
        · exact .inl (hold a.key (of_decide_eq_true hskips).2)

/-- What a cycle skips was in the first memory, or an earlier cycle has yielded its key. -/
def SkippedKnown (memory : Option BoundaryMemory) (cycles : List WazuhCycle) : Prop :=
  ∀ before cycle after, cycles = before ++ cycle :: after → ∀ a ∈ cycle.passed,
    (∃ m, memory = some m ∧ a.key ∈ m.keys) ∨ ∃ c ∈ before, ∃ b ∈ c.emitted, b.key = a.key

theorem ReadsPage.skippedKnown {cycle : WazuhCycle} {cycles : List WazuhCycle}
    (h : ReadsPage index level lookback cursor w cycle)
    (hrest : SkippedKnown cycle.cursor.memory cycles) :
    SkippedKnown cursor.memory (cycle :: cycles) := by
  intro before c after heq a ha
  cases before with
  | nil =>
    obtain ⟨rfl, -⟩ := List.cons.inj heq
    exact .inl (h.passes a ha)
  | cons first before =>
    obtain ⟨rfl, htail⟩ := List.cons.inj heq
    obtain ⟨m, hm, hkey⟩ | ⟨c', hc', hyielded⟩ := hrest before c after htail a ha
    · obtain hold | hyielded := h.remembers m hm a.key hkey
      · exact .inl hold
      · exact .inr ⟨cycle, List.mem_cons_self, hyielded⟩
    · exact .inr ⟨c', List.mem_cons_of_mem cycle hc', hyielded⟩

theorem wazuhCycles_reads (n : Nat) (hw : instant (.str (cursor.window lookback)) = some w) :
    ∃ cycles, wazuhCycles index level lookback n cursor = some cycles ∧
      SkippedKnown cursor.memory cycles ∧
      ∀ a, (∃ c ∈ cycles, a ∈ c.emitted ∨ a ∈ c.passed) ↔
        ∃ k < n, a ∈ Windows.page WazuhAlert.time (index.matching level) maxResultWindow
          (Windows.windowAt WazuhAlert.time (index.matching level) maxResultWindow w k) := by
  induction n generalizing cursor w with
  | zero => exact ⟨[], rfl, by simp [SkippedKnown], by simp⟩
  | succ n ih =>
    obtain ⟨cycle, hcycle⟩ := readsPage index level lookback hw
    obtain ⟨cycles, hcycles, hskipped, hreads⟩ := ih hcycle.moves
    refine ⟨cycle :: cycles, ?_, hcycle.skippedKnown index level lookback hskipped, ?_⟩
    · rw [wazuhCycles, hcycle.collected]
      simp only [hcycles]
      rfl
    · intro a
      constructor
      · rintro ⟨c, hc, ha⟩
        obtain rfl | hc := List.mem_cons.1 hc
        · exact ⟨0, Nat.succ_pos n, (hcycle.reads a).1 ha⟩
        · obtain ⟨k, hk, hpage⟩ := (hreads a).1 ⟨c, hc, ha⟩
          exact ⟨k + 1, Nat.succ_lt_succ hk, hpage⟩
      · rintro ⟨k, hk, hpage⟩
        cases k with
        | zero => exact ⟨cycle, List.mem_cons_self, (hcycle.reads a).2 hpage⟩
        | succ k =>
          obtain ⟨c, hc, ha⟩ := (hreads a).2 ⟨k, Nat.lt_of_succ_lt_succ hk, hpage⟩
          exact ⟨c, List.mem_cons_of_mem cycle hc, ha⟩

end Bounded

section Progress
variable (index : AlertIndex) (level : Option Int) (lookback : Text) (cursor : WazuhCursor)
  (start : Nat)

/-- `collect` without a bound returns, and has yielded every alert from the start on that the
memory does not skip. -/
def DrainsAtOnce : Prop :=
  ∃ fuel cycle, wazuhCollect index level lookback false cursor fuel = some (.returned cycle) ∧
    ∀ a ∈ Windows.since WazuhAlert.time (index.matching level) start,
      skips (cursor.opened lookback).boundary a = true ∨ a ∈ cycle.emitted

/-- After so many bounded cycles every alert from the start on has been yielded, or the memory has
skipped it. -/
def DrainsInCycles : Prop :=
  ∃ n cycles, wazuhCycles index level lookback n cursor = some cycles ∧
    ∀ a ∈ Windows.since WazuhAlert.time (index.matching level) start,
      ∃ c ∈ cycles, a ∈ c.emitted ∨ a ∈ c.passed

variable {lookback cursor start} (hstart : instant (.str (cursor.window lookback)) = some start)
include hstart

theorem drainsAtOnce_iff : DrainsAtOnce index level lookback cursor start ↔
    ∀ t, start ≤ t →
      (Windows.at_ WazuhAlert.time (index.matching level) t).length < maxResultWindow := by
  rw [← (matching_sorted index level).ends_iff]
  constructor
  · rintro ⟨fuel, cycle, hcollect, -⟩
    exact ends_of_collectLoop index level _ hstart rfl rfl hcollect
  · intro hends
    obtain ⟨fuel, hits, hreturns, hall⟩ := readsFrom_of_ends index level (cursor.window lookback)
      (s := ⟨cursor.window lookback, 0, 0, cursor.opened lookback, cursor⟩) hstart rfl rfl hends
    refine ⟨fuel, _, hreturns, fun a ha => ?_⟩
    obtain ⟨-, hemitted, -⟩ := foldl_next_eq hits (cursor.opened lookback)
    by_cases hskips : skips (cursor.opened lookback).boundary a = true
    · exact .inl hskips
    · right
      rw [hemitted]
      exact List.mem_append_right _ (List.mem_filter.2 ⟨hall a ha, by simpa using hskips⟩)

theorem drainsInCycles_iff : DrainsInCycles index level lookback cursor start ↔
    ∀ t, start ≤ t →
      (Windows.at_ WazuhAlert.time (index.matching level) t).length < maxResultWindow ∨
        (Windows.since WazuhAlert.time (index.matching level) t).length ≤ maxResultWindow := by
  rw [← (matching_sorted index level).covers_iff (matching_nodup index level)]
  apply exists_congr
  intro n
  obtain ⟨cycles, hcycles, -, hreads⟩ := wazuhCycles_reads index level lookback n hstart
  constructor
  · rintro ⟨cycles', hcycles', hall⟩ a ha
    cases hcycles.symm.trans hcycles'
    exact (hreads a).1 (hall a ha)
  · intro hcovers
    exact ⟨cycles, hcycles, fun a ha => (hreads a).2 (hcovers a ha)⟩

/-- A collection without a bound comes to its end and yields all if and only if no instant has as
many alerts as the server gives of one window; with a bound the cycles yield all if and only if
no instant has so many with more to come, and always succeed. -/
theorem wazuh_collection_progress :
    (DrainsAtOnce index level lookback cursor start ↔ ∀ t, start ≤ t →
      (Windows.at_ WazuhAlert.time (index.matching level) t).length < maxResultWindow) ∧
    (DrainsInCycles index level lookback cursor start ↔ ∀ t, start ≤ t →
      (Windows.at_ WazuhAlert.time (index.matching level) t).length < maxResultWindow ∨
        (Windows.since WazuhAlert.time (index.matching level) t).length ≤ maxResultWindow) ∧
    ∀ n, ∃ cycles, wazuhCycles index level lookback n cursor = some cycles ∧
      SkippedKnown cursor.memory cycles := by
  refine ⟨drainsAtOnce_iff index level hstart, drainsInCycles_iff index level hstart, ?_⟩
  intro n
  obtain ⟨cycles, hcycles, hskipped, -⟩ := wazuhCycles_reads index level lookback n hstart
  exact ⟨cycles, hcycles, hskipped⟩

end Progress

def noon : Text := text "2026-10-15T12:00:00Z"

theorem noon_placed : instant (.str noon) = some 63927662400000000 := by decide +kernel

theorem noon_start : instant (.str ((⟨none, none⟩ : WazuhCursor).window noon)) =
    some 63927662400000000 := noon_placed

def noonAlert (docId : Text) : WazuhAlert := ⟨docId, [], noon, some 3⟩

theorem noonAlert_time (docId : Text) : (noonAlert docId).time = 63927662400000000 := by
  rw [WazuhAlert.time, noonAlert, noon_placed, Option.getD_some]

/-- Alerts of noon whose documents have the names `a`, `aa` and so on. -/
def noonAlerts (n : Nat) : List WazuhAlert :=
  (List.range n).map (fun i => noonAlert (List.replicate i (ch 'a')))

def noonIndex (n : Nat) : AlertIndex where
  alerts := noonAlerts n
  placed := by
    intro a ha
    obtain ⟨i, -, rfl⟩ := List.mem_map.1 ha
    rw [noonAlert_time]
    exact noon_placed
  sorted := by
    apply List.pairwise_of_forall_mem_list
    intro a ha b hb
    obtain ⟨i, -, rfl⟩ := List.mem_map.1 ha
    obtain ⟨j, -, rfl⟩ := List.mem_map.1 hb
    rw [noonAlert_time, noonAlert_time]
  nodup := by
    apply List.nodup_range.map
    intro i j h
    have hlen := congrArg (fun a => a.docId.length) h
    simpa [noonAlert] using hlen

theorem noonIndex_matching (n : Nat) : (noonIndex n).matching none = noonAlerts n :=
  List.filter_eq_self.2 fun _ _ => rfl

theorem noonAlerts_since (n : Nat) :
    Windows.since WazuhAlert.time (noonAlerts n) 63927662400000000 = noonAlerts n := by
  apply List.filter_eq_self.2
  intro a ha
  obtain ⟨i, -, rfl⟩ := List.mem_map.1 ha
  exact decide_eq_true (noonAlert_time _).symm.le

theorem noonAlerts_at (n : Nat) :
    Windows.at_ WazuhAlert.time (noonAlerts n) 63927662400000000 = noonAlerts n := by
  apply List.filter_eq_self.2
  intro a ha
  obtain ⟨i, -, rfl⟩ := List.mem_map.1 ha
  exact decide_eq_true (noonAlert_time _)

theorem noonAlerts_length (n : Nat) : (noonAlerts n).length = n := by
  rw [noonAlerts, List.length_map, List.length_range]

/-- Three alerts of one instant are collected. -/
theorem three_alerts_collected :
    DrainsAtOnce (noonIndex 3) none noon ⟨none, none⟩ 63927662400000000 ∧
      DrainsInCycles (noonIndex 3) none noon ⟨none, none⟩ 63927662400000000 := by
  obtain ⟨honce, hcycles, -⟩ := wazuh_collection_progress (noonIndex 3) none noon_start
  have hfew : ∀ t, (Windows.at_ WazuhAlert.time ((noonIndex 3).matching none) t).length <
      maxResultWindow := by
    intro t
    have hlen : (Windows.at_ WazuhAlert.time ((noonIndex 3).matching none) t).length ≤
        ((noonIndex 3).matching none).length := List.length_filter_le _ _
    rw [noonIndex_matching, noonAlerts_length] at hlen
    exact Nat.lt_of_le_of_lt hlen (by decide)
  exact ⟨honce.2 fun t _ => hfew t, hcycles.2 fun t _ => .inl (hfew t)⟩

/-- Of one instant with 10001 alerts the last is never collected. -/
theorem crowded_instant_stalls :
    instant (.str ((⟨none, none⟩ : WazuhCursor).window noon)) = some 63927662400000000 ∧
      ¬ DrainsAtOnce (noonIndex 10001) none noon ⟨none, none⟩ 63927662400000000 ∧
      ¬ DrainsInCycles (noonIndex 10001) none noon ⟨none, none⟩ 63927662400000000 := by
  refine ⟨noon_start, ?_, ?_⟩
  · intro hdrains
    have hlen := (drainsAtOnce_iff _ _ noon_start).1 hdrains 63927662400000000 (Nat.le_refl _)
    rw [noonIndex_matching, noonAlerts_at, noonAlerts_length] at hlen
    exact absurd hlen (by decide)
  · intro hdrains
    have hlen := (drainsInCycles_iff _ _ noon_start).1 hdrains 63927662400000000 (Nat.le_refl _)
    rw [noonIndex_matching, noonAlerts_at, noonAlerts_since, noonAlerts_length] at hlen
    exact absurd hlen (by decide)

end CentralOps
