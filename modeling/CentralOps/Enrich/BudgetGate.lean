import CentralOps.Enrich.Applier
import CentralOps.Enrich.Provenance
import Mathlib.Tactic.Linarith

namespace CentralOps
set_option autoImplicit true

/-- What a call has met at its awaits: the readings of its clock, whether a provider was cut off by
the timeout, and whether the cache, a peer or a provider has answered a key. -/
structure RemoteTape where
  clock : List Rat
  cutOff : Bool
  answered : Bool

namespace RemoteTape

def blank : RemoteTape := ⟨[], false, false⟩

def note (s : RemoteTape) : (q : EnrichAsk) → EnrichReply q → RemoteTape
  | .clock, now => { s with clock := s.clock ++ [now] }
  | .getMany _, cached => { s with answered := s.answered || !cached.1.isEmpty }
  | .lock _, _ => s
  | .wait _ _, a => { s with answered := s.answered || a.isSome }
  | .unlock _, _ => s
  | .breaker _, _ => s
  | .source _, _ => s
  | .resolve _ _ keys, reply =>
    match reply with
    | .timeout => { s with cutOff := true }
    | .raised => s
    | .ok resolved => { s with answered := s.answered || keys.any (resolved.lookup · |>.isSome) }
  | .putMany _ _ _, _ => s

/-- The clock, the cache, the peers and the providers answer as they please. -/
def Answers (s : RemoteTape) (q : EnrichAsk) (r : EnrichReply q) (s' : RemoteTape) : Prop :=
  s' = s.note q r

/-- A reading after the one that fixed the deadline found no time left. -/
def Exhausted (s : RemoteTape) (budget : Rat) : Prop :=
  ∃ start later, s.clock = start :: later ∧ ∃ now ∈ later, start + budget - now ≤ 0

/-- The budget kept a rule of the batch from its answers: the gate closed before the rule, or the
timeout ended its provider. -/
def OutOfBudget (s : RemoteTape) (budget : Rat) : Prop :=
  s.Exhausted budget ∨ s.cutOff = true

end RemoteTape

section Told
variable {lib : EnrichLibrary} {registry : String → Option EnricherCaps} {call : RemoteCall}
  {rule : CompiledEnrichRule}

def Told (rows : Rows) (s : RemoteTape) : Prop := rows = [] ↔ s.answered = false

def Turn.Told (s : RemoteTape) : Turn → Prop
  | .next st => CentralOps.Told st.rows s
  | .stop st => CentralOps.Told st.rows s
  | .raised => True

theorem Told.add (h : Told rows s) (hrows : rows' = [] ↔ rows = [] ∧ b = false) :
    Told rows' { s with answered := s.answered || b } := by
  rw [Told, hrows, Bool.or_eq_false_iff]
  exact and_congr_left fun _ => h

theorem acquire_told {acc : Rows × List String}
    (h : Dialog.Runs RemoteTape.Answers (acquire lib call rule acc key) s acc' s')
    (htold : Told acc.1 s) : Told acc'.1 s' := by
  rw [acquire, EnrichTask.lock, Dialog.runs_query_iff] at h
  obtain ⟨got, t, rfl, h⟩ := h
  cases got with
  | true =>
    obtain ⟨rfl, rfl⟩ := Dialog.runs_pure_iff.1 h
    exact htold
  | false =>
    rw [if_neg Bool.false_ne_true, EnrichTask.wait, Dialog.runs_query_iff] at h
    obtain ⟨a, t, rfl, h⟩ := h
    cases a with
    | none =>
      obtain ⟨rfl, rfl⟩ := Dialog.runs_pure_iff.1 h
      exact htold.add (by simp)
    | some a =>
      obtain ⟨rfl, rfl⟩ := Dialog.runs_pure_iff.1 h
      exact htold.add (by simp [Assoc.set_ne_nil])

theorem acquireAll_told {acc : Rows × List String} {missing : List String}
    (h : Dialog.Runs RemoteTape.Answers (Dialog.fold (acquire lib call rule) acc missing) s acc' s')
    (htold : Told acc.1 s) : Told acc'.1 s' := by
  induction missing generalizing acc s with
  | nil =>
    obtain ⟨rfl, rfl⟩ := Dialog.runs_pure_iff.1 h
    exact htold
  | cons key missing ih =>
    obtain ⟨acc₁, s₁, hpass, hrest⟩ := Dialog.runs_bind_iff.1 h
    exact ih hrest (acquire_told hpass htold)

theorem releaseAll_tape {owned : List String}
    (h : Dialog.Runs RemoteTape.Answers (releaseAll lib call rule owned) s a s') : s' = s := by
  induction owned generalizing s with
  | nil =>
    obtain ⟨-, rfl⟩ := Dialog.runs_pure_iff.1 h
    rfl
  | cons key owned ih =>
    obtain ⟨_, v, hunlock, hrest⟩ := Dialog.runs_bind_iff.1 h
    obtain ⟨_, u, hu, hdone⟩ := Dialog.runs_ask_iff.1 hunlock
    obtain ⟨-, hv⟩ := Dialog.runs_pure_iff.1 hdone
    have hvs : v = s := hv.trans hu
    rw [hvs] at hrest
    exact ih hrest

theorem addRows_eq_nil_iff {owned : List String} {resolved : List (String × Answer)} :
    addRows ruleId owned resolved rows = [] ↔
      rows = [] ∧ owned.any (resolved.lookup · |>.isSome) = false := by
  rw [addRows, Assoc.collect_eq_nil_iff]
  simp only [Option.map_eq_none_iff, List.any_eq_false, Bool.not_eq_true,
    Option.isSome_eq_false_iff, Option.isNone_iff_eq_none]

theorem resolveOwned_told {caps : EnricherCaps} {owned : List String} {st : RemoteState}
    (h : Dialog.Runs RemoteTape.Answers (resolveOwned lib call caps rule owned st) s turn s')
    (htold : Told st.rows s) : turn.Told s' := by
  rw [resolveOwned, EnrichTask.breaker, Dialog.runs_query_iff] at h
  obtain ⟨opened, t, rfl, h⟩ := h
  cases opened with
  | true =>
    rw [if_pos rfl] at h
    obtain ⟨_, u, hrelease, h⟩ := Dialog.runs_bind_iff.1 h
    obtain ⟨rfl, rfl⟩ := Dialog.runs_pure_iff.1 h
    rw [releaseAll_tape hrelease]
    exact htold
  | false =>
    rw [if_neg Bool.false_ne_true, EnrichTask.source, Dialog.runs_query_iff] at h
    obtain ⟨found, t, rfl, h⟩ := h
    cases found with
    | lookupError =>
      obtain ⟨rfl, rfl⟩ := Dialog.runs_pure_iff.1 h
      exact htold
    | raised =>
      obtain ⟨rfl, rfl⟩ := Dialog.runs_pure_iff.1 h
      exact trivial
    | ok =>
      simp only [EnrichTask.resolve] at h
      rw [Dialog.runs_query_iff] at h
      obtain ⟨reply, t, rfl, h⟩ := h
      obtain ⟨_, u, hrelease, h⟩ := Dialog.runs_bind_iff.1 h
      have hu := releaseAll_tape hrelease
      cases reply with
      | timeout =>
        obtain ⟨rfl, rfl⟩ := Dialog.runs_pure_iff.1 h
        rw [hu]
        exact htold
      | raised =>
        obtain ⟨rfl, rfl⟩ := Dialog.runs_pure_iff.1 h
        rw [hu]
        exact htold
      | ok resolved =>
        simp only [EnrichTask.putMany] at h
        rw [Dialog.runs_query_iff] at h
        obtain ⟨_, v, rfl, h⟩ := h
        obtain ⟨rfl, rfl⟩ := Dialog.runs_pure_iff.1 h
        rw [hu]
        exact htold.add addRows_eq_nil_iff

/-- A rule whose gate is closed keeps the rows that the cache has given it. -/
theorem resolveKeys_told {caps : EnricherCaps} {keys : List String} {st : RemoteState}
    (h : Dialog.Runs RemoteTape.Answers (resolveKeys lib call deadline caps rule keys st) s turn s')
    (htold : Told st.rows s) : turn.Told s' := by
  simp only [resolveKeys, EnrichTask.getMany] at h
  rw [Dialog.runs_query_iff] at h
  obtain ⟨cached, t, rfl, h⟩ := h
  have hcached : Told (Assoc.collect (fun p => some ((rule.ruleId,
      keyOfCache (call.cacheKey lib rule) keys p.1), p.2)) st.rows cached.1)
      (s.note (.getMany _) cached) := by
    apply htold.add
    rw [Assoc.collect_eq_nil_iff]
    simp [List.eq_nil_iff_forall_not_mem]
  by_cases hmissing : cached.2.map (keyOfCache (call.cacheKey lib rule) keys) = []
  · rw [if_pos hmissing] at h
    obtain ⟨rfl, rfl⟩ := Dialog.runs_pure_iff.1 h
    exact hcached
  · rw [if_neg hmissing, EnrichTask.clock, Dialog.runs_query_iff] at h
    obtain ⟨now, t, rfl, h⟩ := h
    by_cases hnow : deadline - now ≤ 0
    · rw [if_pos hnow] at h
      obtain ⟨rfl, rfl⟩ := Dialog.runs_pure_iff.1 h
      exact hcached
    · rw [if_neg hnow] at h
      obtain ⟨acc, u, hacquire, h⟩ := Dialog.runs_bind_iff.1 h
      have hacc : Told acc.1 u := acquireAll_told hacquire hcached
      by_cases howned : acc.2 = []
      · rw [if_pos howned] at h
        obtain ⟨rfl, rfl⟩ := Dialog.runs_pure_iff.1 h
        exact hacc
      · rw [if_neg howned] at h
        exact resolveOwned_told h hacc

theorem resolveRemoteRule_told {st : RemoteState}
    (h : Dialog.Runs RemoteTape.Answers (resolveRemoteRule lib registry call deadline st rule)
      s turn s') (htold : Told st.rows s) : turn.Told s' := by
  have hnext : ∀ {turn s'}, Dialog.Runs RemoteTape.Answers (pure (Turn.next st)) s turn s' →
      turn.Told s' := by
    intro turn s' h
    obtain ⟨rfl, rfl⟩ := Dialog.runs_pure_iff.1 h
    exact htold
  rw [resolveRemoteRule] at h
  by_cases hoff : rule.enricher ∈ st.disabled
  · rw [if_pos hoff] at h
    exact hnext h
  · rw [if_neg hoff] at h
    cases hreg : registry rule.enricher with
    | none =>
      rw [hreg] at h
      exact hnext h
    | some caps =>
      rw [hreg] at h
      cases hkeys : distinctKeys lib call.batch rule with
      | error e =>
        simp only [hkeys] at h
        obtain ⟨rfl, rfl⟩ := Dialog.runs_pure_iff.1 h
        exact trivial
      | ok keys =>
        simp only [hkeys] at h
        by_cases hempty : keys = []
        · rw [if_pos hempty] at h
          exact hnext h
        · rw [if_neg hempty] at h
          exact resolveKeys_told h htold

theorem resolveRemoteRules_told {rules : List CompiledEnrichRule} {st out : RemoteState}
    (h : Dialog.Runs RemoteTape.Answers (resolveRemoteRules lib registry call deadline rules st)
      s (some out) s') (htold : Told st.rows s) : Told out.rows s' := by
  induction rules generalizing st s with
  | nil =>
    obtain ⟨hout, rfl⟩ := Dialog.runs_pure_iff.1 h
    cases hout
    exact htold
  | cons rule rules ih =>
    obtain ⟨turn, u, hrule, h⟩ := Dialog.runs_bind_iff.1 h
    have hturn := resolveRemoteRule_told hrule htold
    cases turn with
    | next st' => exact ih h hturn
    | stop st' =>
      obtain ⟨hout, rfl⟩ := Dialog.runs_pure_iff.1 h
      cases hout
      exact hturn
    | raised =>
      obtain ⟨hout, -⟩ := Dialog.runs_pure_iff.1 h
      cases hout

theorem resolveRemote_told {out : RemoteState}
    (h : Dialog.Runs RemoteTape.Answers (resolveRemote lib registry call) .blank (some out) s) :
    Told out.rows s := by
  have hblank : Told [] RemoteTape.blank := iff_of_true rfl rfl
  simp only [resolveRemote] at h
  by_cases hidle : call.policy.remoteRules = [] ∨ call.batch = [] ∨ call.hasCache = false
  · rw [if_pos hidle] at h
    obtain ⟨hout, rfl⟩ := Dialog.runs_pure_iff.1 h
    cases hout
    exact hblank
  · rw [if_neg hidle, EnrichTask.clock, Dialog.runs_query_iff] at h
    obtain ⟨now, t, rfl, h⟩ := h
    exact resolveRemoteRules_told h hblank

/-- The budget gate is all or nothing exactly when nothing has answered before it closes. -/
theorem budget_gate_iff {out : RemoteState}
    (h : Dialog.Runs RemoteTape.Answers (resolveRemote lib registry call) .blank (some out) s) :
    (s.OutOfBudget call.budget → ∀ ruleId key, out.rows.lookup (ruleId, key) = none) ↔
      (s.OutOfBudget call.budget → s.answered = false) := by
  have htold : out.rows = [] ↔ s.answered = false := resolveRemote_told h
  have hrows : (∀ ruleId key, out.rows.lookup (ruleId, key) = none) ↔ out.rows = [] := by
    constructor
    · intro hnone
      rw [List.eq_nil_iff_forall_not_mem]
      rintro ⟨⟨ruleId, key⟩, a⟩ hmem
      have hkey := List.lookup_eq_none_iff.1 (hnone ruleId key) _ hmem
      simp at hkey
    · intro hnil ruleId key
      rw [hnil, List.lookup_nil]
  rw [hrows, htold]

end Told

section Untouched
variable {lib : EnrichLibrary} {rows : Rows}

end Untouched

/-- The caches are cold and the locks free, every provider answers, and the second rule has its turn
a tenth of a second after the budget of one second. -/
def slowCache (s : RemoteTape) : (q : EnrichAsk) → EnrichReply q × RemoteTape
  | .clock =>
    let now : Rat := if s.clock.length < 2 then 0 else 11 / 10
    (now, s.note .clock now)
  | .getMany asked => (([], asked.map Prod.fst), s.note (.getMany asked) ([], asked.map Prod.fst))
  | .lock key => (true, s.note (.lock key) true)
  | .wait key question => (none, s.note (.wait key question) none)
  | .unlock key => ((), s.note (.unlock key) ())
  | .breaker rule => (false, s.note (.breaker rule) false)
  | .source rule => (.ok, s.note (.source rule) .ok)
  | .resolve ruleId origin keys =>
    let reply := ResolveReply.ok (keys.map (fun k => (k, feedAnswer origin k)))
    (reply, s.note (.resolve ruleId origin keys) reply)
  | .putMany stored ttl negativeTtl => ((), s.note (.putMany stored ttl negativeTtl) ())

theorem slowCache_answers (s : RemoteTape) (q : EnrichAsk) :
    s.Answers q (slowCache s q).1 (slowCache s q).2 := by
  cases q with
  | _ => exact rfl

def slowRun (call : RemoteCall) : Option RemoteState × RemoteTape :=
  (resolveRemote dnsLibrary feedRegistry call).play slowCache .blank

theorem slowRun_runs {call : RemoteCall} (h : slowRun call = (some out, s)) :
    Dialog.Runs RemoteTape.Answers (resolveRemote dnsLibrary feedRegistry call) .blank
      (some out) s := by
  have hrun : Dialog.Runs RemoteTape.Answers (resolveRemote dnsLibrary feedRegistry call) .blank
      (slowRun call).1 (slowRun call).2 := Dialog.runs_play_self slowCache_answers _ _
  rw [h] at hrun
  exact hrun

/-- A call with two feeds of two enrichers. -/
def paidFeeds : RemoteCall :=
  feedCall [feedRule "feed-a", { feedRule "feed-b" with enricher := "paid" }] (by decide)

def firstFeed : RemoteState :=
  ⟨[(("ask-feed-a", "8.8.8.8"), some (.obj [("label", .str "feed-a")]))], []⟩

theorem paidFeeds_run : slowRun paidFeeds = (some firstFeed, ⟨[0, 0, 11 / 10], false, true⟩) := by
  have hout : (slowRun paidFeeds).1 = some firstFeed := by decide +kernel
  have hclock : (slowRun paidFeeds).2.clock = [0, 0, 11 / 10] := by decide +kernel
  have hcut : (slowRun paidFeeds).2.cutOff = false := by decide +kernel
  have hanswered : (slowRun paidFeeds).2.answered = true := by decide +kernel
  rw [← hout, ← hclock, ← hcut, ← hanswered]

theorem paidFeeds_outOfBudget :
    RemoteTape.OutOfBudget ⟨[0, 0, 11 / 10], false, true⟩ paidFeeds.budget := by
  refine .inl ⟨0, [0, 11 / 10], rfl, 11 / 10, by simp, ?_⟩
  change (0 : Rat) + 1 - 11 / 10 ≤ 0
  norm_num

theorem budget_gate_iff_paidFeeds :
    (RemoteTape.OutOfBudget ⟨[0, 0, 11 / 10], false, true⟩ paidFeeds.budget →
        ∀ ruleId key, firstFeed.rows.lookup (ruleId, key) = none) ↔
      (RemoteTape.OutOfBudget ⟨[0, 0, 11 / 10], false, true⟩ paidFeeds.budget → true = false) :=
  budget_gate_iff (slowRun_runs paidFeeds_run)

/-- The gate closes before the second feed, and the answer of the first stays in the batch. -/
theorem first_feed_passes_gate :
    ∃ out s, Dialog.Runs RemoteTape.Answers (resolveRemote dnsLibrary feedRegistry paidFeeds) .blank
        (some out) s ∧
      s.Exhausted paidFeeds.budget ∧
      out.rows.lookup ("ask-feed-a", "8.8.8.8") ≠ none ∧
      out.rows.lookup ("ask-feed-b", "8.8.8.8") = none := by
  refine ⟨firstFeed, _, slowRun_runs paidFeeds_run, ?_, by decide, by decide⟩
  rcases paidFeeds_outOfBudget with hclosed | hcut
  · exact hclosed
  · cases hcut

end CentralOps
