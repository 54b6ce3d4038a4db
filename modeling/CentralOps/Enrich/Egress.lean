import CentralOps.Enrich.Applier
import CentralOps.Enrich.Provenance
import Mathlib.Tactic.Linarith

namespace CentralOps
set_option autoImplicit true

section Asked
variable (lib : EnrichLibrary)

def askedKey (rule : CompiledEnrichRule) (envelope : Obj) : Option String :=
  if gateOpen lib rule (.obj envelope) then
    match extractKey lib (.obj envelope) rule with
    | .ok key => key
    | .error _ => none
  else none

/-- The keys of a rule on the batch as it arrives. Of the keys with one digest the last counts. -/
def gatedKeys (call : RemoteCall) (rule : CompiledEnrichRule) : Set String :=
  { k | ∃ keys, distinctKeys lib call.batch rule = .ok keys ∧ k ∈ keys ∧
    keyOfCache (call.cacheKey lib rule) keys (call.cacheKey lib rule k) = k }

def beforeRule (call : RemoteCall) (rows : Rows) (rule : CompiledEnrichRule) (envelope : Obj) :
    Except PyError Obj :=
  (applyEnrichRules lib (call.policy.remoteRules.takeWhile (fun r => r.ruleId ≠ rule.ruleId)) rows
    ⟨envelope, false, .empty⟩).map EnrichedEvent.envelope

/-- The keys of a rule on the events as it meets them in the batch. An exception of `apply` ends
the batch at its event. -/
def appliedKeys (call : RemoteCall) (rows : Rows) (rule : CompiledEnrichRule) : Set String :=
  { k | ∃ earlier envelope later met, call.batch = earlier ++ envelope :: later ∧
    (∀ x ∈ earlier, ∃ done,
      applyEvent lib x call.policy.remoteRules rows .empty = .ok done) ∧
    beforeRule lib call rows rule envelope = .ok met ∧ askedKey lib rule met = some k }

end Asked

/-- The keys sent to the provider of a rule. -/
def sentKeys (s : EnrichState) (rule : CompiledEnrichRule) : Set String :=
  { k | ∃ c ∈ s.calls, c.1 = rule.ruleId ∧ k ∈ c.2.2 }

/-- The enricher of the rule was not switched off before or during the call. -/
def inService (call : RemoteCall) (s : EnrichState) (rule : CompiledEnrichRule) : Prop :=
  rule.enricher ∉ call.disabled ∧ rule.enricher ∉ s.outages

/-- The awaits of a call whose caches are cold and whose clock stays below a limit. Time passes
between them. -/
def coldAnswers (maxEntries : Nat) (limit : Rat) (s : EnrichState) (q : EnrichAsk)
    (r : EnrichReply q) (s' : EnrichState) : Prop :=
  ∃ t, s.Moves t ∧ t.now < limit ∧ findsNothing t q = true ∧ enrichAnswers maxEntries 0 t q r s'

section Distinct
variable {lib : EnrichLibrary} {rule : CompiledEnrichRule}

end Distinct

theorem collect_none {f : γ → Option (String × Answer)} {as : List γ} (l : List (String × Answer))
    (h : ∀ a ∈ as, f a = none) : Assoc.collect f l as = l := by
  induction as with
  | nil => rfl
  | cons a as ih =>
    rw [Assoc.collect, List.foldl_cons, h a List.mem_cons_self]
    exact ih (fun b hb => h b (List.mem_cons_of_mem a hb))

/-- Against cold caches every key is left to ask for. -/
theorem getMany_cold {l1 : L1} {keys : List String} (hl1 : ∀ k ∈ keys, l1.live now k = none)
    (hl2 : ∀ l2, m = some l2 → ∀ k ∈ keys, l2.lookup k = none) :
    (getMany now l1 m keys).1 = [] ∧ (getMany now l1 m keys).2.1 = keys := by
  have hfirst : Assoc.collect (fun k => (l1.live now k).map (fun e => (k, e.answer))) [] keys =
      [] := by
    apply collect_none
    intro k hk
    rw [hl1 k hk]
    rfl
  have hpending : keys.filter (fun k => (l1.live now k).isNone) = keys := by
    apply List.filter_eq_self.2
    intro k hk
    rw [hl1 k hk]
    rfl
  cases m with
  | none => exact ⟨hfirst, hpending⟩
  | some l2 =>
    have hrest : keys.filter (fun k => (l2.lookup k).isNone) = keys := by
      apply List.filter_eq_self.2
      intro k hk
      rw [hl2 l2 rfl k hk]
      rfl
    constructor
    · rw [getMany]
      dsimp only
      rw [hfirst, hpending]
      apply collect_none
      intro k hk
      rw [hl2 l2 rfl k hk]
      rfl
    · rw [getMany]
      dsimp only
      rw [hpending]
      exact hrest

section Cold
variable {lib : EnrichLibrary} {registry : String → Option EnricherCaps} {maxEntries : Nat}
  {limit : Rat} {call : RemoteCall} {rule : CompiledEnrichRule}

/-- What the turn of a rule does: it sends keys for this rule, those in `asked` while its enricher
is in service, and the enrichers it switches off are out of service. -/
structure RuleTurn (rule : CompiledEnrichRule) (asked : Set String) (st st' : RemoteState)
    (s s' : EnrichState) : Prop where
  disabled : ∀ e ∈ st'.disabled, e ∈ st.disabled ∨ e ∈ s'.outages
  outages : s.outages ⊆ s'.outages
  calls : ∃ new, s'.calls = s.calls ++ new ∧ (∀ c ∈ new, c.1 = rule.ruleId) ∧
    (rule.enricher ∉ st.disabled → rule.enricher ∉ s'.outages →
      ∀ k, (∃ c ∈ new, k ∈ c.2.2) ↔ k ∈ asked)

theorem RuleTurn.silent (hdisabled : ∀ e ∈ st'.disabled, e ∈ st.disabled ∨ e ∈ s'.outages)
    (hout : s.outages ⊆ s'.outages) (hcalls : s'.calls = s.calls)
    (hasked : rule.enricher ∉ st.disabled → rule.enricher ∉ s'.outages → asked = ∅) :
    RuleTurn rule asked st st' s s' where
  disabled := hdisabled
  outages := hout
  calls := by
    refine ⟨[], by rw [List.append_nil]; exact hcalls, fun c hc => absurd hc List.not_mem_nil, ?_⟩
    intro hst hs' k
    rw [hasked hst hs']
    simp

theorem RuleTurn.since (h : RuleTurn rule asked st st' t s') (hcalls : t.calls = s.calls)
    (hout : t.outages = s.outages) : RuleTurn rule asked st st' s s' := by
  obtain ⟨new, hnew, hids, hasked⟩ := h.calls
  exact ⟨h.disabled, hout ▸ h.outages, new, hcalls ▸ hnew, hids, hasked⟩

theorem acquire_cold {acc : Rows × List String}
    (h : Dialog.Runs (coldAnswers maxEntries limit) (acquire lib call rule acc key) s acc' s') :
    acc' = (acc.1, acc.2 ++ [key]) ∧ s'.calls = s.calls ∧ s'.outages = s.outages := by
  rw [acquire, EnrichTask.lock, Dialog.runs_query_iff] at h
  obtain ⟨got, u, ⟨t, hm, -, -, hu⟩, h⟩ := h
  cases hu
  cases got with
  | true =>
    obtain ⟨rfl, rfl⟩ := Dialog.runs_pure_iff.1 h
    exact ⟨rfl, hm.calls, hm.outages⟩
  | false =>
    rw [if_neg Bool.false_ne_true, EnrichTask.wait, Dialog.runs_query_iff] at h
    obtain ⟨a, v, ⟨t', hm', -, hcold, ha, rfl⟩, h⟩ := h
    obtain rfl | ⟨e, he, -⟩ := ha
    · obtain ⟨rfl, rfl⟩ := Dialog.runs_pure_iff.1 h
      exact ⟨rfl, hm'.calls.trans hm.calls, hm'.outages.trans hm.outages⟩
    · rw [findsNothing, he] at hcold
      cases hcold

theorem acquireAll_cold {acc : Rows × List String} {missing : List String}
    (h : Dialog.Runs (coldAnswers maxEntries limit)
      (Dialog.fold (acquire lib call rule) acc missing) s acc' s') :
    acc' = (acc.1, acc.2 ++ missing) ∧ s'.calls = s.calls ∧ s'.outages = s.outages := by
  induction missing generalizing acc s with
  | nil =>
    obtain ⟨rfl, rfl⟩ := Dialog.runs_pure_iff.1 h
    exact ⟨by rw [List.append_nil], rfl, rfl⟩
  | cons key missing ih =>
    obtain ⟨acc₁, s₁, h₁, hrest⟩ := Dialog.runs_bind_iff.1 h
    obtain ⟨rfl, hcalls₁, hout₁⟩ := acquire_cold h₁
    obtain ⟨rfl, hcalls, hout⟩ := ih hrest
    exact ⟨by simp, hcalls.trans hcalls₁, hout.trans hout₁⟩

theorem releaseAll_cold {owned : List String}
    (h : Dialog.Runs (coldAnswers maxEntries limit) (releaseAll lib call rule owned) s a s') :
    s'.calls = s.calls ∧ s'.outages = s.outages := by
  induction owned generalizing s with
  | nil =>
    obtain ⟨-, rfl⟩ := Dialog.runs_pure_iff.1 h
    exact ⟨rfl, rfl⟩
  | cons key owned ih =>
    obtain ⟨_, v, hunlock, h⟩ := Dialog.runs_bind_iff.1 h
    obtain ⟨_, u, ⟨t, hm, -, -, hu⟩, hdone⟩ := Dialog.runs_ask_iff.1 hunlock
    obtain ⟨-, rfl⟩ := Dialog.runs_pure_iff.1 hdone
    cases hu
    obtain ⟨hcalls, hout⟩ := ih h
    exact ⟨hcalls.trans hm.calls, hout.trans hm.outages⟩

theorem resolveOwned_cold {caps : EnricherCaps} {owned : List String} {st : RemoteState}
    (h : Dialog.Runs (coldAnswers maxEntries limit) (resolveOwned lib call caps rule owned st)
      s turn s') :
    turn = .raised ∨
      ∃ st', turn = .next st' ∧ RuleTurn rule { k | k ∈ owned } st st' s s' := by
  have hswitch : ∀ e ∈ rule.enricher :: st.disabled, ∀ out : List String, rule.enricher ∈ out →
      e ∈ st.disabled ∨ e ∈ out := by
    intro e he out hout
    obtain rfl | he := List.mem_cons.1 he
    · exact .inr hout
    · exact .inl he
  rw [resolveOwned, EnrichTask.breaker, Dialog.runs_query_iff] at h
  obtain ⟨opened, u₁, ⟨t₁, hm₁, -, -, hu₁⟩, h⟩ := h
  cases opened with
  | true =>
    rw [if_pos rfl] at h
    obtain ⟨_, v, hrelease, h⟩ := Dialog.runs_bind_iff.1 h
    obtain ⟨rfl, rfl⟩ := Dialog.runs_pure_iff.1 h
    obtain ⟨hcalls, houts⟩ := releaseAll_cold hrelease
    have hout : rule.enricher ∈ s'.outages := by
      rw [houts, hu₁]
      exact List.mem_append_right _ (List.mem_singleton_self _)
    refine .inr ⟨_, rfl, RuleTurn.silent (fun e he => hswitch e he _ hout) ?_ ?_ ?_⟩
    · rw [houts, hu₁, ← hm₁.outages]
      exact List.subset_append_left _ _
    · rw [hcalls, hu₁, ← hm₁.calls]
      rfl
    · exact fun _ hno => absurd hout hno
  | false =>
    cases hu₁
    rw [if_neg Bool.false_ne_true, EnrichTask.source, Dialog.runs_query_iff] at h
    obtain ⟨found, u₂, ⟨t₂, hm₂, -, -, hu₂⟩, h⟩ := h
    have hout₂ : t₂.outages = s.outages := hm₂.outages.trans hm₁.outages
    have hcalls₂ : t₂.calls = s.calls := hm₂.calls.trans hm₁.calls
    cases found with
    | lookupError =>
      obtain ⟨rfl, rfl⟩ := Dialog.runs_pure_iff.1 h
      have hout : rule.enricher ∈ s'.outages := by
        rw [hu₂]
        exact List.mem_append_right _ (List.mem_singleton_self _)
      refine .inr ⟨_, rfl, RuleTurn.silent (fun e he => hswitch e he _ hout) ?_ ?_ ?_⟩
      · rw [hu₂, ← hout₂]
        exact List.subset_append_left _ _
      · rw [hu₂, ← hcalls₂]
        rfl
      · exact fun _ hno => absurd hout hno
    | raised =>
      obtain ⟨rfl, -⟩ := Dialog.runs_pure_iff.1 h
      exact .inl rfl
    | ok =>
      cases hu₂
      simp only [EnrichTask.resolve] at h
      rw [Dialog.runs_query_iff] at h
      obtain ⟨reply, u₃, ⟨t₃, hm₃, -, -, hu₃⟩, h⟩ := h
      have hout₃ : t₃.outages = s.outages := hm₃.outages.trans hout₂
      have hcalls₃ : t₃.calls = s.calls := hm₃.calls.trans hcalls₂
      obtain ⟨_, v, hrelease, h⟩ := Dialog.runs_bind_iff.1 h
      obtain ⟨hcallsᵥ, houtᵥ⟩ := releaseAll_cold hrelease
      have hsent : ∀ {w st'}, w.calls = s.calls ++ [(rule.ruleId,
          rule.origin call.organization, owned)] → s.outages ⊆ w.outages →
          (∀ e ∈ st'.disabled, e ∈ st.disabled ∨ e ∈ w.outages) →
          RuleTurn rule { k | k ∈ owned } st st' s w := by
        intro w st' hcalls hout hdisabled
        exact ⟨hdisabled, hout, _, hcalls, by simp, by simp⟩
      cases reply with
      | timeout =>
        obtain ⟨rfl, rfl⟩ := Dialog.runs_pure_iff.1 h
        have hout : rule.enricher ∈ s'.outages := by
          rw [houtᵥ, hu₃]
          exact List.mem_append_right _ (List.mem_singleton_self _)
        refine .inr ⟨_, rfl, hsent ?_ ?_ (fun e he => hswitch e he _ hout)⟩
        · rw [hcallsᵥ, hu₃, ← hcalls₃]
          rfl
        · rw [houtᵥ, hu₃, ← hout₃]
          exact List.subset_append_left _ _
      | raised =>
        obtain ⟨rfl, rfl⟩ := Dialog.runs_pure_iff.1 h
        refine .inr ⟨_, rfl, hsent ?_ ?_ (fun e he => .inl he)⟩
        · rw [hcallsᵥ, hu₃, ← hcalls₃]
          rfl
        · rw [houtᵥ, hu₃, ← hout₃]
          exact List.Subset.refl _
      | ok resolved =>
        simp only [EnrichTask.putMany] at h
        rw [Dialog.runs_query_iff] at h
        obtain ⟨-, u₄, ⟨t₄, hm₄, -, -, up, hu₄⟩, h⟩ := h
        obtain ⟨rfl, rfl⟩ := Dialog.runs_pure_iff.1 h
        refine .inr ⟨_, rfl, hsent ?_ ?_ (fun e he => .inl he)⟩
        · rw [hu₄]
          change t₄.calls = _
          rw [hm₄.calls, hcallsᵥ, hu₃, ← hcalls₃]
          rfl
        · rw [hu₄]
          change s.outages ⊆ t₄.outages
          rw [hm₄.outages, houtᵥ, hu₃, ← hout₃]
          exact List.Subset.refl _

/-- The keys that the caches leave, when they know none, are those that `inv` keeps. -/
theorem mem_missing {ck : String → String} {keys : List String} (k : String) :
    k ∈ (keys.map ck).map (keyOfCache ck keys) ↔ k ∈ keys ∧ keyOfCache ck keys (ck k) = k := by
  constructor
  · intro h
    obtain ⟨c, hc, rfl⟩ := List.mem_map.1 h
    refine ⟨keyOfCache_mem hc, ?_⟩
    rw [cacheKey_keyOfCache hc]
  · rintro ⟨hk, hback⟩
    exact List.mem_map.2 ⟨ck k, List.mem_map_of_mem hk, hback⟩

theorem resolveKeys_cold {caps : EnricherCaps} {keys : List String} {st : RemoteState}
    (hkeys : distinctKeys lib call.batch rule = .ok keys) (hlimit : limit ≤ deadline)
    (h : Dialog.Runs (coldAnswers maxEntries limit)
      (resolveKeys lib call deadline caps rule keys st) s turn s') :
    turn = .raised ∨
      ∃ st', turn = .next st' ∧ RuleTurn rule (gatedKeys lib call rule) st st' s s' := by
  have hgated : gatedKeys lib call rule = { k | k ∈ (keys.map (call.cacheKey lib rule)).map
      (keyOfCache (call.cacheKey lib rule) keys) } := by
    ext k
    rw [Set.mem_ofPred_eq, mem_missing]
    constructor
    · rintro ⟨keys', hkeys', hk⟩
      cases hkeys.symm.trans hkeys'
      exact hk
    · exact fun hk => ⟨keys, hkeys, hk⟩
  rw [resolveKeys, EnrichTask.getMany, Dialog.runs_query_iff] at h
  obtain ⟨cached, u₁, ⟨t₁, hm₁, -, hcold, up, rfl, hu₁⟩, h⟩ := h
  have hcalls₁ : u₁.calls = s.calls := by
    rw [hu₁]
    exact hm₁.calls
  have hout₁ : u₁.outages = s.outages := by
    rw [hu₁]
    exact hm₁.outages
  have hnone : ∀ k ∈ keys.map (call.cacheKey lib rule), t₁.entryFor 0 k = none := by
    intro c hc
    obtain ⟨k, hk, rfl⟩ := List.mem_map.1 hc
    have hasked := List.all_eq_true.1 hcold _ (List.mem_map_of_mem hk)
    exact Option.isNone_iff_eq_none.1 hasked
  have hfound := getMany_cold (m := if up then some t₁.l2 else none)
    (fun k hk => (Option.or_eq_none_iff.1 (hnone k hk)).1) (by
      intro l2 hl2 k hk
      cases up with
      | true =>
        cases hl2
        exact (Option.or_eq_none_iff.1 (hnone k hk)).2
      | false => cases hl2)
  have hfst : (keys.map (fun k => (call.cacheKey lib rule k, call.question rule
      (keyOfCache (call.cacheKey lib rule) keys (call.cacheKey lib rule k))))).map Prod.fst =
      keys.map (call.cacheKey lib rule) := by
    rw [List.map_map]
    rfl
  dsimp only at h
  rw [hfst, hfound.2] at h
  by_cases hmissing : (keys.map (call.cacheKey lib rule)).map
      (keyOfCache (call.cacheKey lib rule) keys) = []
  · rw [if_pos hmissing] at h
    obtain ⟨rfl, rfl⟩ := Dialog.runs_pure_iff.1 h
    refine .inr ⟨_, rfl, RuleTurn.silent (fun e he => .inl he) ?_ hcalls₁ ?_⟩
    · rw [hout₁]
      exact List.Subset.refl _
    · intro _ _
      rw [hgated, hmissing]
      simp
  · rw [if_neg hmissing, EnrichTask.clock, Dialog.runs_query_iff] at h
    obtain ⟨now, u₂, ⟨t₂, hm₂, hnow, -, rfl, rfl⟩, h⟩ := h
    have hbudget : ¬ deadline - u₂.now ≤ 0 := by linarith
    rw [if_neg hbudget, Dialog.runs_bind_iff] at h
    obtain ⟨acc, u₃, hacc, h⟩ := h
    obtain ⟨rfl, hcalls₃, hout₃⟩ := acquireAll_cold hacc
    rw [List.nil_append] at h
    rw [if_neg hmissing] at h
    obtain hraised | ⟨st', hnext, hturn⟩ := resolveOwned_cold h
    · exact .inl hraised
    · refine .inr ⟨st', hnext, ?_⟩
      rw [hgated]
      have hsince := hturn.since (hcalls₃.trans (hm₂.calls.trans hcalls₁))
        (hout₃.trans (hm₂.outages.trans hout₁))
      exact ⟨hsince.disabled, hsince.outages, hsince.calls⟩

theorem resolveRemoteRule_cold {st : RemoteState} (hreg : registry rule.enricher ≠ none)
    (hlimit : limit ≤ deadline)
    (h : Dialog.Runs (coldAnswers maxEntries limit)
      (resolveRemoteRule lib registry call deadline st rule) s turn s') :
    turn = .raised ∨
      ∃ st', turn = .next st' ∧ RuleTurn rule (gatedKeys lib call rule) st st' s s' := by
  rw [resolveRemoteRule] at h
  by_cases hoff : rule.enricher ∈ st.disabled
  · rw [if_pos hoff] at h
    obtain ⟨rfl, rfl⟩ := Dialog.runs_pure_iff.1 h
    exact .inr ⟨st, rfl, RuleTurn.silent (fun e he => .inl he) (List.Subset.refl _) rfl
      (fun hno _ => absurd hoff hno)⟩
  · rw [if_neg hoff] at h
    obtain ⟨caps, hcaps⟩ := Option.ne_none_iff_exists'.1 hreg
    rw [hcaps] at h
    cases hkeys : distinctKeys lib call.batch rule with
    | error e =>
      simp only [hkeys] at h
      obtain ⟨rfl, -⟩ := Dialog.runs_pure_iff.1 h
      exact .inl rfl
    | ok keys =>
      simp only [hkeys] at h
      by_cases hnil : keys = []
      · rw [if_pos hnil] at h
        obtain ⟨rfl, rfl⟩ := Dialog.runs_pure_iff.1 h
        refine .inr ⟨st, rfl, RuleTurn.silent (fun e he => .inl he) (List.Subset.refl _) rfl ?_⟩
        intro _ _
        ext k
        simp [gatedKeys, hkeys, hnil]
      · rw [if_neg hnil] at h
        exact resolveKeys_cold hkeys hlimit h

theorem resolveRemoteRules_cold {rules : List CompiledEnrichRule} {st : RemoteState}
    (hreg : ∀ r ∈ rules, registry r.enricher ≠ none)
    (hids : (rules.map CompiledEnrichRule.ruleId).Nodup) (hlimit : limit ≤ deadline)
    (h : Dialog.Runs (coldAnswers maxEntries limit)
      (resolveRemoteRules lib registry call deadline rules st) s (some st') s') :
    s.outages ⊆ s'.outages ∧
    ∃ new, s'.calls = s.calls ++ new ∧ (∀ c ∈ new, c.1 ∈ rules.map CompiledEnrichRule.ruleId) ∧
      ∀ r ∈ rules, r.enricher ∉ st.disabled → r.enricher ∉ s'.outages →
        ∀ k, (∃ c ∈ new, c.1 = r.ruleId ∧ k ∈ c.2.2) ↔ k ∈ gatedKeys lib call r := by
  induction rules generalizing st s with
  | nil =>
    obtain ⟨-, rfl⟩ := Dialog.runs_pure_iff.1 h
    exact ⟨List.Subset.refl _, [], by simp, by simp, by simp⟩
  | cons rule rules ih =>
    rw [List.map_cons, List.nodup_cons] at hids
    rw [resolveRemoteRules] at h
    obtain ⟨turn, u, hturn, h⟩ := Dialog.runs_bind_iff.1 h
    obtain rfl | ⟨st₁, rfl, hrule⟩ :=
      resolveRemoteRule_cold (hreg rule List.mem_cons_self) hlimit hturn
    · cases (Dialog.runs_pure_iff.1 h).1
    · obtain ⟨hout, later, hlater, hlaterIds, hgated⟩ :=
        ih (fun r hr => hreg r (List.mem_cons_of_mem rule hr)) hids.2 h
      obtain ⟨own, hown, hownIds, hownGated⟩ := hrule.calls
      refine ⟨List.Subset.trans hrule.outages hout, own ++ later, ?_, ?_, ?_⟩
      · rw [hlater, hown, List.append_assoc]
      · intro c hc
        rw [List.map_cons, List.mem_cons]
        obtain hc | hc := List.mem_append.1 hc
        · exact .inl (hownIds c hc)
        · exact .inr (hlaterIds c hc)
      · intro r hr hst hs' k
        obtain rfl | hr := List.mem_cons.1 hr
        · rw [← hownGated hst (fun hu => hs' (hout hu)) k]
          constructor
          · rintro ⟨c, hc, hid, hk⟩
            obtain hc | hc := List.mem_append.1 hc
            · exact ⟨c, hc, hk⟩
            · exact absurd (hid ▸ hlaterIds c hc) hids.1
          · rintro ⟨c, hc, hk⟩
            exact ⟨c, List.mem_append_left later hc, hownIds c hc, hk⟩
        · have hst₁ : r.enricher ∉ st₁.disabled := by
            intro hd
            obtain hd | hd := hrule.disabled _ hd
            · exact hst hd
            · exact hs' (hout hd)
          rw [← hgated r hr hst₁ hs' k]
          constructor
          · rintro ⟨c, hc, hid, hk⟩
            obtain hc | hc := List.mem_append.1 hc
            · have hsame : rule.ruleId = r.ruleId := (hownIds c hc).symm.trans hid
              exact absurd (hsame ▸ List.mem_map_of_mem hr) hids.1
            · exact ⟨c, hc, hid, hk⟩
          · rintro ⟨c, hc, hid, hk⟩
            exact ⟨c, List.mem_append_right own hc, hid, hk⟩

end Cold

section Egress
variable {lib : EnrichLibrary} {registry : String → Option EnricherCaps} {maxEntries : Nat}
  {call : RemoteCall} {st : RemoteState} {s : EnrichState}

/-- Against cold caches and within the budget, a rule in service sends the keys that it has on the
batch as it arrives. -/
theorem sentKeys_eq_gatedKeys
    (hreg : ∀ r ∈ call.policy.remoteRules, registry r.enricher ≠ none)
    (hcache : call.hasCache = true)
    (h : Dialog.Runs (coldAnswers maxEntries call.budget) (resolveRemote lib registry call) .empty
      (some st) s) {rule : CompiledEnrichRule} (hrule : rule ∈ call.policy.remoteRules)
    (hserved : inService call s rule) : sentKeys s rule = gatedKeys lib call rule := by
  have hrules : call.policy.remoteRules ≠ [] := List.ne_nil_of_mem hrule
  rw [resolveRemote] at h
  by_cases hbatch : call.batch = []
  · rw [if_pos (.inr (.inl hbatch))] at h
    obtain ⟨-, rfl⟩ := Dialog.runs_pure_iff.1 h
    have hkeys : distinctKeys lib call.batch rule = .ok [] := by
      rw [hbatch]
      rfl
    ext k
    simp [sentKeys, gatedKeys, EnrichState.empty, hkeys]
  · have hon : ¬ (call.policy.remoteRules = [] ∨ call.batch = [] ∨ call.hasCache = false) := by
      simp [hrules, hbatch, hcache]
    rw [if_neg hon, EnrichTask.clock, Dialog.runs_query_iff] at h
    obtain ⟨now, u, ⟨t, hm, -, -, rfl, rfl⟩, h⟩ := h
    have hlimit : call.budget ≤ u.now + call.budget := by
      have hnow : (0 : Rat) ≤ u.now := hm.now
      linarith
    obtain ⟨-, new, hnew, -, hgated⟩ :=
      resolveRemoteRules_cold hreg call.policy.remote_ids hlimit h
    have hcalls : s.calls = new := by
      rw [hnew, hm.calls]
      rfl
    ext k
    rw [← hgated rule hrule hserved.1 hserved.2 k, ← hcalls]
    rfl

/-- What leaves the platform is what the policy allows at application exactly when no rule's keys
change between the arrival of the batch and the rule's turn with its events. -/
theorem egress_follows_gates_iff
    (hreg : ∀ r ∈ call.policy.remoteRules, registry r.enricher ≠ none)
    (hcache : call.hasCache = true)
    (h : Dialog.Runs (coldAnswers maxEntries call.budget) (resolveRemote lib registry call) .empty
      (some st) s) :
    (∀ rule ∈ call.policy.remoteRules, inService call s rule →
        sentKeys s rule = appliedKeys lib call st.rows rule) ↔
      ∀ rule ∈ call.policy.remoteRules, inService call s rule →
        gatedKeys lib call rule = appliedKeys lib call st.rows rule := by
  constructor
  · intro hall rule hrule hserved
    rw [← sentKeys_eq_gatedKeys hreg hcache h hrule hserved]
    exact hall rule hrule hserved
  · intro hall rule hrule hserved
    rw [sentKeys_eq_gatedKeys hreg hcache h hrule hserved]
    exact hall rule hrule hserved

end Egress

def knownRule : CompiledEnrichRule := { feedRule "feed-a" with tags := ["known"] }

def unknownRule : CompiledEnrichRule :=
  { feedRule "feed-b" with enricher := "paid", when := some ⟨none, [], ["known"]⟩ }

def paidCall : RemoteCall := feedCall [knownRule, unknownRule] (by decide)

theorem paidCall_runs (call : RemoteCall)
    (h : (resolveRemote dnsLibrary feedRegistry call).passes (redisUp 10000 0 feedAnswer)
      (fun s q => findsNothing s q && decide (s.now < call.budget)) .empty = true) :
    Dialog.Runs (coldAnswers 10000 call.budget) (resolveRemote dnsLibrary feedRegistry call) .empty
      (feedRun call).1 (feedRun call).2 := by
  apply Dialog.runs_play _ h
  intro s q hq
  rw [Bool.and_eq_true, decide_eq_true_eq] at hq
  exact ⟨s, ⟨le_rfl, List.Sublist.refl _, fun _ => .inl rfl, rfl, rfl, rfl⟩, hq.2, hq.1,
    redisUp_answers 10000 0 feedAnswer s q⟩

def paidRows : RemoteState :=
  ⟨[(("ask-feed-a", "8.8.8.8"), some (.obj [("label", .str "feed-a")])),
    (("ask-feed-b", "8.8.8.8"), some (.obj [("label", .str "feed-b")]))], []⟩

theorem paidCall_ends :
    Dialog.Runs (coldAnswers 10000 1) (resolveRemote dnsLibrary feedRegistry paidCall) .empty
      (some paidRows) (feedRun paidCall).2 := by
  have hrun := paidCall_runs paidCall (by decide +kernel)
  have hend : (feedRun paidCall).1 = some paidRows := by decide +kernel
  rw [hend] at hrun
  exact hrun

theorem egress_follows_gates_paid :
    (∀ rule ∈ paidCall.policy.remoteRules, inService paidCall (feedRun paidCall).2 rule →
        sentKeys (feedRun paidCall).2 rule = appliedKeys dnsLibrary paidCall paidRows.rows rule) ↔
      ∀ rule ∈ paidCall.policy.remoteRules, inService paidCall (feedRun paidCall).2 rule →
        gatedKeys dnsLibrary paidCall rule =
          appliedKeys dnsLibrary paidCall paidRows.rows rule :=
  egress_follows_gates_iff (fun _ _ h => by cases h) rfl paidCall_ends

/-- The first rule marks the address, and yet the second has sent it to the paid feed. -/
theorem marked_address_leaves :
    Dialog.Runs (coldAnswers 10000 paidCall.budget) (resolveRemote dnsLibrary feedRegistry paidCall)
        .empty (some paidRows) (feedRun paidCall).2 ∧
      ¬ ∀ rule ∈ paidCall.policy.remoteRules, inService paidCall (feedRun paidCall).2 rule →
        sentKeys (feedRun paidCall).2 rule =
          appliedKeys dnsLibrary paidCall paidRows.rows rule := by
  apply And.intro paidCall_ends
  intro h
  have hrule : unknownRule ∈ paidCall.policy.remoteRules :=
    List.mem_filter.2 ⟨List.mem_cons_of_mem _ (List.mem_singleton_self _), rfl⟩
  have hserved : inService paidCall (feedRun paidCall).2 unknownRule := by
    constructor
    · exact List.not_mem_nil
    · decide +kernel
  have hsent : "8.8.8.8" ∈ sentKeys (feedRun paidCall).2 unknownRule := by
    refine ⟨("ask-feed-b", ⟨7, "paid", some "feed-b", none⟩, ["8.8.8.8"]), ?_, rfl,
      List.mem_singleton_self _⟩
    decide +kernel
  rw [h unknownRule hrule hserved] at hsent
  obtain ⟨earlier, envelope, later, met, hbatch, -, hmet, hkey⟩ := hsent
  have hmem : envelope ∈ paidCall.batch := by
    rw [hbatch]
    exact List.mem_append_right _ List.mem_cons_self
  rw [List.mem_singleton.1 hmem] at hmet
  have hnone : ((beforeRule dnsLibrary paidCall paidRows.rows unknownRule
      [("ip", .str "8.8.8.8")]).toOption.bind (askedKey dnsLibrary unknownRule)) = none := by
    decide +kernel
  rw [hmet] at hnone
  exact absurd (hkey.symm.trans hnone) (by decide)

end CentralOps
