import CentralOps.Enrich.Remote

namespace CentralOps
set_option autoImplicit true

def EnrichState.entryFor (s : EnrichState) (worker : Nat) (key : String) : Option CacheEntry :=
  ((s.l1 worker).live s.now key).or (s.l2.lookup key)

structure SameSource (q q' : Question) : Prop where
  source : q.origin.source = q'.origin.source
  table : q.origin.table = q'.origin.table
  key : q.key = q'.key

/-- A read finds nothing, or an entry stored for the same source, table and key. -/
def readsOwnSource (worker : Nat) (s : EnrichState) : EnrichAsk → Prop
  | .getMany asked =>
    ∀ p ∈ asked, ∀ e, s.entryFor worker p.1 = some e → SameSource e.question p.2
  | .wait key question => ∀ e, s.l2.lookup key = some e → SameSource e.question question
  | _ => True

structure Sourced (rt : Runtime) (s : EnrichState) (k : String) (e : CacheEntry) : Prop where
  key : ∃ version, k = e.question.cacheKey rt version
  answered : (e.question, e.answer) ∈ s.answered

structure CachesSound (rt : Runtime) (s : EnrichState) : Prop where
  l1 : ∀ worker, ∀ p ∈ s.l1 worker, Sourced rt s p.1 p.2.2
  l2 : ∀ p ∈ s.l2, Sourced rt s p.1 p.2

def AnswersKept (s s' : EnrichState) : Prop := s.answered ⊆ s'.answered

section Caches
variable {rt : Runtime} {s s' : EnrichState}

theorem Sourced.mono (h : Sourced rt s k e) (hle : AnswersKept s s') : Sourced rt s' k e :=
  ⟨h.key, hle h.answered⟩

theorem Sourced.question_eq {q : Question} (h : Sourced rt s (q.cacheKey rt version) e)
    (hsame : SameSource e.question q) : e.question = q := by
  obtain ⟨version', hkey⟩ := h.key
  obtain ⟨horg, henricher⟩ := Question.cacheKey_origin hkey
  exact Question.ext (Origin.ext horg.symm henricher.symm hsame.source hsame.table) hsame.key

theorem L1.mem_of_live {l1 : L1} (h : l1.live now key = some e) :
    ∃ expires, now < expires ∧ (key, expires, e) ∈ l1 := by
  rw [L1.live, Option.bind_eq_some_iff] at h
  obtain ⟨p, hp, he⟩ := h
  by_cases hexp : p.1 ≤ now
  · rw [if_pos hexp] at he
    cases he
  · rw [if_neg hexp, Option.some.injEq] at he
    exact ⟨p.1, Rat.not_le.1 hexp, he ▸ Assoc.mem_of_lookup hp⟩

theorem CachesSound.entryFor (h : CachesSound rt s) (he : s.entryFor worker key = some e) :
    Sourced rt s key e := by
  rw [EnrichState.entryFor, Option.or_eq_some_iff] at he
  obtain he | ⟨-, he⟩ := he
  · obtain ⟨expires, -, hmem⟩ := L1.mem_of_live he
    exact h.l1 worker _ hmem
  · exact h.l2 _ (Assoc.mem_of_lookup he)

theorem L1.mem_touch {l1 : L1} (h : p ∈ L1.touch now l1 key) : p ∈ l1 := by
  rw [L1.touch] at h
  cases hl : l1.lookup key with
  | none =>
    rw [hl] at h
    exact h
  | some q =>
    rw [hl] at h
    by_cases hexp : q.1 ≤ now
    · simp only [hexp, if_true] at h
      exact (List.mem_filter.1 h).1
    · simp only [hexp, if_false, List.mem_append, List.mem_singleton] at h
      obtain h | rfl := h
      · exact (List.mem_filter.1 h).1
      · exact Assoc.mem_of_lookup hl

theorem L1.mem_foldl_touch {l1 : L1} {keys : List String} (h : p ∈ keys.foldl (L1.touch now) l1) : p ∈ l1 := by
  induction keys generalizing l1 with
  | nil => exact h
  | cons k keys ih => exact L1.mem_touch (ih h)

theorem L1.mem_put {l1 : L1} (h : p ∈ l1.put maxEntries now ttl key e) :
    p ∈ l1 ∨ p = (key, now + ttl, e) := by
  rw [L1.put] at h
  by_cases httl : ttl = 0
  · rw [if_pos httl] at h
    exact .inl h
  · rw [if_neg httl] at h
    have hmem := List.mem_of_mem_drop h
    rw [List.mem_append, List.mem_singleton] at hmem
    obtain hmem | rfl := hmem
    · exact .inl (List.mem_filter.1 hmem).1
    · exact .inr rfl

theorem mem_putL1 {l1 : L1} (h : p ∈ putL1 maxEntries now ttl negativeTtl stored l1) :
    p ∈ l1 ∨ ∃ x ∈ stored, p = (x.1, now + (if x.2.2 = none then negativeTtl else ttl : Nat),
      ⟨x.2.1, x.2.2⟩) := by
  induction stored generalizing l1 with
  | nil => exact .inl h
  | cons x stored ih =>
    rw [putL1, List.foldl_cons] at h
    obtain h | ⟨y, hy, hp⟩ := ih h
    · obtain h | hp := L1.mem_put h
      · exact .inl h
      · exact .inr ⟨x, List.mem_cons_self, hp⟩
    · exact .inr ⟨y, List.mem_cons_of_mem x hy, hp⟩

theorem mem_putL2 {l2 : L2} (h : p ∈ putL2 stored l2) :
    p ∈ l2 ∨ ∃ x ∈ stored, p.1 = x.1 ∧ p.2 = ⟨x.2.1, x.2.2⟩ := by
  obtain h | ⟨x, hx, hp⟩ := Assoc.mem_collect h
  · exact .inl h
  · rw [Option.some.injEq] at hp
    exact .inr ⟨x, hx, hp ▸ rfl, hp ▸ rfl⟩

/-- What the caches answer is the entry under a key that was asked. -/
theorem getMany_found {found : String × Answer}
    (h : found ∈ (getMany now l1 mget keys).1) :
    found.1 ∈ keys ∧ ∃ e, found.2 = e.answer ∧
      (l1.live now found.1).or (mget.bind (·.lookup found.1)) = some e := by
  have hfirst : ∀ p ∈ Assoc.collect
      (fun k => (l1.live now k).map (fun e => (k, e.answer))) [] keys,
      p.1 ∈ keys ∧ ∃ e, p.2 = e.answer ∧ l1.live now p.1 = some e := by
    intro p hp
    obtain hp | ⟨k, hk, hp⟩ := Assoc.mem_collect hp
    · cases hp
    · obtain ⟨e, he, rfl⟩ := Option.map_eq_some_iff.1 hp
      exact ⟨hk, e, rfl, he⟩
  cases mget with
  | none =>
    obtain ⟨hk, e, ha, he⟩ := hfirst found h
    exact ⟨hk, e, ha, by rw [he, Option.some_or]⟩
  | some l2 =>
    obtain h | ⟨k, hk, h⟩ := Assoc.mem_collect h
    · obtain ⟨hk, e, ha, he⟩ := hfirst found h
      exact ⟨hk, e, ha, by rw [he, Option.some_or]⟩
    · obtain ⟨e, he, rfl⟩ := Option.map_eq_some_iff.1 h
      obtain ⟨hkeys, hnone⟩ := List.mem_filter.1 hk
      rw [Option.isNone_iff_eq_none] at hnone
      exact ⟨hkeys, e, rfl, by rw [hnone, Option.none_or, Option.bind_some, he]⟩

theorem getMany_missing (h : k ∈ (getMany now l1 mget keys).2.1) : k ∈ keys := by
  cases mget with
  | none => exact (List.mem_filter.1 h).1
  | some l2 => exact (List.mem_filter.1 (List.mem_filter.1 h).1).1

theorem getMany_l1 (h : p ∈ (getMany now l1 mget keys).2.2) : p ∈ l1 := by
  cases mget with
  | none => exact L1.mem_foldl_touch h
  | some l2 => exact L1.mem_foldl_touch h

theorem CachesSound.same (h : CachesSound rt s) (hl1 : ∀ worker, s'.l1 worker ⊆ s.l1 worker)
    (hl2 : s'.l2 ⊆ s.l2) (hle : AnswersKept s s') : CachesSound rt s' where
  l1 worker p hp := (h.l1 worker p (hl1 worker hp)).mono hle
  l2 p hp := (h.l2 p (hl2 hp)).mono hle

theorem L1.mem_update {f : Nat → L1} (h : p ∈ Function.update f worker l other) :
    other = worker ∧ p ∈ l ∨ p ∈ f other := by
  by_cases ho : other = worker
  · rw [ho, Function.update_self] at h
    exact .inl ⟨ho, h⟩
  · rw [Function.update_of_ne ho] at h
    exact .inr h

theorem CachesSound.put (h : CachesSound rt s)
    (hstored : ∀ x ∈ stored, Sourced rt s x.1 ⟨x.2.1, x.2.2⟩) (up : Bool) :
    CachesSound rt { s with
      l1 := Function.update s.l1 worker
        (putL1 maxEntries s.now ttl negativeTtl stored (s.l1 worker))
      l2 := if up then putL2 stored s.l2 else s.l2 } where
  l1 other p hp := by
    have hmem : p ∈ s.l1 other ∨ ∃ x ∈ stored, p.1 = x.1 ∧ p.2.2 = ⟨x.2.1, x.2.2⟩ := by
      obtain ⟨rfl, hp⟩ | hp := L1.mem_update hp
      · obtain hp | ⟨x, hx, rfl⟩ := mem_putL1 hp
        · exact .inl hp
        · exact .inr ⟨x, hx, rfl, rfl⟩
      · exact .inl hp
    obtain hmem | ⟨x, hx, hk, he⟩ := hmem
    · exact ⟨(h.l1 other p hmem).key, (h.l1 other p hmem).answered⟩
    · rw [hk, he]
      exact ⟨(hstored x hx).key, (hstored x hx).answered⟩
  l2 p hp := by
    have hmem : p ∈ s.l2 ∨ ∃ x ∈ stored, p.1 = x.1 ∧ p.2 = ⟨x.2.1, x.2.2⟩ := by
      cases up with
      | false => exact .inl hp
      | true => exact mem_putL2 hp
    obtain hmem | ⟨x, hx, hk, he⟩ := hmem
    · exact ⟨(h.l2 p hmem).key, (h.l2 p hmem).answered⟩
    · rw [hk, he]
      exact ⟨(hstored x hx).key, (hstored x hx).answered⟩

end Caches

theorem AnswersKept.trans (h : AnswersKept s t) (h' : AnswersKept t u) : AnswersKept s u :=
  List.Subset.trans h h'

section Await
variable {rt : Runtime} {s s' : EnrichState}

/-- The one await that adds to the caches is `put_many`, and it must store sourced answers. -/
def storesSourced (rt : Runtime) (s : EnrichState) : EnrichAsk → Prop
  | .putMany stored _ _ => ∀ x ∈ stored, Sourced rt s x.1 ⟨x.2.1, x.2.2⟩
  | _ => True

theorem enrichAnswers_keeps (h : CachesSound rt s) (hq : storesSourced rt s q)
    (ha : enrichAnswers maxEntries worker s q r s') : CachesSound rt s' ∧ AnswersKept s s' := by
  have hrefl : AnswersKept s s := List.Subset.refl _
  cases q with
  | clock =>
    obtain ⟨-, rfl⟩ := ha
    exact ⟨h, hrefl⟩
  | getMany asked =>
    obtain ⟨up, -, rfl⟩ := ha
    refine ⟨h.same (fun other p hp => ?_) (List.Subset.refl _) hrefl, hrefl⟩
    obtain ⟨rfl, hp⟩ | hp := L1.mem_update hp
    · exact getMany_l1 hp
    · exact hp
  | lock key =>
    cases ha
    exact ⟨h, hrefl⟩
  | wait key question =>
    obtain ⟨-, rfl⟩ := ha
    exact ⟨h, hrefl⟩
  | unlock key =>
    cases ha
    exact ⟨h, hrefl⟩
  | breaker rule =>
    cases ha
    cases r with
    | true => exact ⟨h.same (fun _ => List.Subset.refl _) (List.Subset.refl _) hrefl, hrefl⟩
    | false => exact ⟨h, hrefl⟩
  | source rule =>
    cases ha
    cases r with
    | lookupError => exact ⟨h.same (fun _ => List.Subset.refl _) (List.Subset.refl _) hrefl, hrefl⟩
    | raised => exact ⟨h, hrefl⟩
    | ok => exact ⟨h, hrefl⟩
  | resolve ruleId origin keys =>
    cases ha
    cases r with
    | timeout => exact ⟨h.same (fun _ => List.Subset.refl _) (List.Subset.refl _) hrefl, hrefl⟩
    | raised => exact ⟨h.same (fun _ => List.Subset.refl _) (List.Subset.refl _) hrefl, hrefl⟩
    | ok resolved =>
      have hext : AnswersKept s ((s.send ruleId origin keys).answer origin resolved) :=
        List.subset_append_left _ _
      exact ⟨h.same (fun _ => List.Subset.refl _) (List.Subset.refl _) hext, hext⟩
  | putMany stored ttl negativeTtl =>
    obtain ⟨up, rfl⟩ := ha
    exact ⟨h.put hq up, hrefl⟩

end Await

def RowsSourced (call : RemoteCall) (rows : Rows) (s : EnrichState) : Prop :=
  ∀ p ∈ rows, ∃ rule ∈ call.policy.remoteRules, p.1.1 = rule.ruleId ∧
    (⟨rule.origin call.organization, p.1.2⟩, p.2) ∈ s.answered

theorem RowsSourced.mono (h : RowsSourced call rows s) (hle : AnswersKept s s') :
    RowsSourced call rows s' := by
  intro p hp
  obtain ⟨rule, hrule, hid, ha⟩ := h p hp
  exact ⟨rule, hrule, hid, hle ha⟩

theorem RowsSourced.set (h : RowsSourced call rows s) (hrule : rule ∈ call.policy.remoteRules)
    (ha : (⟨rule.origin call.organization, key⟩, a) ∈ s.answered) :
    RowsSourced call (Assoc.set (rule.ruleId, key) a rows) s := by
  intro p hp
  obtain rfl | hp := Assoc.mem_of_mem_set hp
  · exact ⟨rule, hrule, rfl, ha⟩
  · exact h p hp

theorem RowsSourced.collect {f : γ → Option ((String × String) × Answer)} {as : List γ}
    (h : RowsSourced call rows s) (hrule : rule ∈ call.policy.remoteRules)
    (hf : ∀ x ∈ as, ∀ p, f x = some p → p.1.1 = rule.ruleId ∧
      (⟨rule.origin call.organization, p.1.2⟩, p.2) ∈ s.answered) :
    RowsSourced call (Assoc.collect f rows as) s := by
  intro p hp
  obtain hp | ⟨x, hx, hp⟩ := Assoc.mem_collect hp
  · exact h p hp
  · obtain ⟨hid, ha⟩ := hf x hx p hp
    exact ⟨rule, hrule, hid, ha⟩

def Turn.Sourced (call : RemoteCall) (turn : Turn) (s : EnrichState) : Prop :=
  match turn with
  | .next st | .stop st => RowsSourced call st.rows s
  | .raised => True

def ResultSourced (call : RemoteCall) (result : Option RemoteState) (s : EnrichState) : Prop :=
  ∀ st, result = some st → RowsSourced call st.rows s

section Program
variable (lib : EnrichLibrary) (registry : String → Option EnricherCaps)
  (maxEntries worker : Nat)

def ownAnswers (s : EnrichState) (q : EnrichAsk) (r : EnrichReply q) (s' : EnrichState) : Prop :=
  readsOwnSource worker s q ∧ enrichAnswers maxEntries worker s q r s'

abbrev OwnSat (post : α → EnrichState → Prop) (t : EnrichTask α) (s : EnrichState) : Prop :=
  Dialog.Sat (ownAnswers maxEntries worker) AnswersKept (CachesSound lib.rt.toRuntime) post t s

variable {lib maxEntries worker}

theorem OwnSat.ask {f : EnrichReply q → EnrichTask β} {post : β → EnrichState → Prop}
    (hstore : ∀ t, AnswersKept s t → storesSourced lib.rt.toRuntime t q)
    (h : ∀ t, AnswersKept s t → CachesSound lib.rt.toRuntime t → ∀ r u, readsOwnSource worker t q →
      enrichAnswers maxEntries worker t q r u → AnswersKept t u →
      OwnSat lib maxEntries worker post (f r) u) :
    OwnSat lib maxEntries worker post (Dialog.query q >>= f) s := by
  apply Dialog.Sat.query
  rintro t ht hI r u ⟨hown, hr⟩
  obtain ⟨hu, hle⟩ := enrichAnswers_keeps hI (hstore t ht) hr
  exact ⟨hu, hle, h t ht hI r u hown hr hle⟩

variable {call : RemoteCall} {rule : CompiledEnrichRule}

theorem acquire_sat (hrule : rule ∈ call.policy.remoteRules) {acc : Rows × List String}
    (hrows : RowsSourced call acc.1 s) (key : String) :
    OwnSat lib maxEntries worker (fun acc s => RowsSourced call acc.1 s)
      (acquire lib call rule acc key) s := by
  rw [acquire, EnrichTask.lock]
  apply OwnSat.ask
  · exact fun _ _ => trivial
  intro t ht _ got u _ _ hu
  have hrows' := hrows.mono (ht.trans hu)
  cases got with
  | true => exact hrows'
  | false =>
    rw [if_neg Bool.false_ne_true, EnrichTask.wait]
    apply OwnSat.ask
    · exact fun _ _ => trivial
    intro t' ht' hI a v hown hr hv
    obtain ⟨ha, rfl⟩ := hr
    obtain rfl | ⟨e, he, rfl⟩ := ha
    · exact hrows'.mono ht'
    · have hsourced := hI.l2 _ (Assoc.mem_of_lookup he)
      have hanswered := hsourced.answered
      rw [hsourced.question_eq (hown e he)] at hanswered
      exact (hrows'.mono ht').set hrule hanswered

theorem releaseAll_sat (owned : List String) :
    OwnSat lib maxEntries worker (fun _ u => AnswersKept s u) (releaseAll lib call rule owned) s := by
  induction owned generalizing s with
  | nil => exact List.Subset.refl _
  | cons key owned ih =>
    rintro t ht hI r u ⟨-, hr⟩
    have hstore : storesSourced lib.rt.toRuntime t (.unlock (call.cacheKey lib rule key)) := trivial
    obtain ⟨hu, hle⟩ := enrichAnswers_keeps hI hstore hr
    exact ⟨hu, hle, ih.weaken (fun _ v hv => (ht.trans hle).trans hv)⟩

theorem resolveOwned_sat (hrule : rule ∈ call.policy.remoteRules) {st : RemoteState}
    (hrows : RowsSourced call st.rows s) (caps : EnricherCaps) (owned : List String) :
    OwnSat lib maxEntries worker (Turn.Sourced call) (resolveOwned lib call caps rule owned st)
      s := by
  rw [resolveOwned, EnrichTask.breaker]
  apply OwnSat.ask
  · exact fun _ _ => trivial
  intro t₁ h₁ _ opened u₁ _ _ h₁'
  have hrows₁ := hrows.mono (h₁.trans h₁')
  cases opened with
  | true =>
    apply Dialog.Sat.bind
    exact (releaseAll_sat owned).weaken (fun _ _ h => hrows₁.mono h)
  | false =>
    rw [if_neg Bool.false_ne_true, EnrichTask.source]
    apply OwnSat.ask
    · exact fun _ _ => trivial
    intro t₂ h₂ _ found u₂ _ _ h₂'
    have hrows₂ := hrows₁.mono (h₂.trans h₂')
    cases found with
    | lookupError => exact hrows₂
    | raised => exact trivial
    | ok =>
      simp only [EnrichTask.resolve]
      apply OwnSat.ask
      · exact fun _ _ => trivial
      intro t₃ h₃ _ reply u₃ _ hreply h₃'
      have hrows₃ := hrows₂.mono (h₃.trans h₃')
      have hanswered : ∀ resolved, reply = .ok resolved → ∀ k a, resolved.lookup k = some a →
          (call.question rule k, a) ∈ u₃.answered := by
        rintro resolved rfl k a hk
        rw [hreply]
        apply List.mem_append_right
        exact List.mem_map.2 ⟨(k, a), Assoc.mem_of_lookup hk, rfl⟩
      apply Dialog.Sat.bind
      apply (releaseAll_sat owned).weaken
      intro _ u₄ h₄
      have hrows₄ := hrows₃.mono h₄
      cases reply with
      | timeout => exact hrows₄
      | raised => exact hrows₄
      | ok resolved =>
        simp only [EnrichTask.putMany]
        apply OwnSat.ask
        · intro t h x hx
          obtain hx | ⟨k, -, hx⟩ := Assoc.mem_collect hx
          · cases hx
          · obtain ⟨a, ha, rfl⟩ := Option.map_eq_some_iff.1 hx
            exact ⟨⟨call.policy.version, rfl⟩, h (h₄ (hanswered resolved rfl k a ha))⟩
        intro t₅ h₅ _ _ u₅ _ _ h₅'
        apply RowsSourced.collect (hrows₄.mono (h₅.trans h₅')) hrule
        intro k _ p hp
        obtain ⟨a, ha, rfl⟩ := Option.map_eq_some_iff.1 hp
        exact ⟨rfl, h₅' (h₅ (h₄ (hanswered resolved rfl k a ha)))⟩

theorem cacheKey_keyOfCache {ck : String → String} {keys : List String} (h : c ∈ keys.map ck) :
    ck (keyOfCache ck keys c) = c := by
  obtain ⟨k, hk, rfl⟩ := List.mem_map.1 h
  have hsome := Assoc.lookup_collect_isSome (f := fun k => some (ck k, k)) (l := []) hk rfl
  obtain ⟨k', hk'⟩ := Option.isSome_iff_exists.1 hsome
  rw [keyOfCache, hk', Option.getD_some]
  obtain hmem | ⟨j, -, hj⟩ := Assoc.mem_collect (Assoc.mem_of_lookup hk')
  · cases hmem
  · rw [Option.some.injEq, Prod.mk.injEq] at hj
    rw [← hj.2, hj.1]

theorem keyOfCache_mem {ck : String → String} {keys : List String} (h : c ∈ keys.map ck) :
    keyOfCache ck keys c ∈ keys := by
  obtain ⟨k, hk, rfl⟩ := List.mem_map.1 h
  have hsome := Assoc.lookup_collect_isSome (f := fun k => some (ck k, k)) (l := []) hk rfl
  obtain ⟨k', hk'⟩ := Option.isSome_iff_exists.1 hsome
  rw [keyOfCache, hk', Option.getD_some]
  obtain hmem | ⟨j, hj, he⟩ := Assoc.mem_collect (Assoc.mem_of_lookup hk')
  · cases hmem
  · rw [Option.some.injEq, Prod.mk.injEq] at he
    exact he.2 ▸ hj

theorem getMany_rows (hI : CachesSound lib.rt.toRuntime t) {asked : List (String × Question)}
    (hasked : ∀ p ∈ asked, p.1 = p.2.cacheKey lib.rt.toRuntime call.policy.version)
    (hown : readsOwnSource worker t (.getMany asked))
    (hr : enrichAnswers maxEntries worker t (.getMany asked) cached u)
    {found : String × Answer} (hf : found ∈ cached.1) :
    ∃ q, (found.1, q) ∈ asked ∧ (q, found.2) ∈ t.answered := by
  obtain ⟨up, rfl, -⟩ := hr
  obtain ⟨hk, e, ha, he⟩ := getMany_found hf
  obtain ⟨p, hmem, hp⟩ := List.mem_map.1 hk
  have hentry : t.entryFor worker p.1 = some e := by
    rw [hp, EnrichState.entryFor]
    cases up with
    | true => exact he
    | false =>
      obtain he | ⟨-, he⟩ := Option.or_eq_some_iff.1 he
      · rw [he, Option.some_or]
      · cases he
  have hsourced := hI.entryFor hentry
  rw [hasked p hmem] at hsourced
  have hanswered := hsourced.answered
  rw [hsourced.question_eq (hown p hmem e hentry), ← ha] at hanswered
  exact ⟨p.2, hp ▸ hmem, hanswered⟩

theorem resolveKeys_sat (hrule : rule ∈ call.policy.remoteRules) {st : RemoteState}
    (hrows : RowsSourced call st.rows s) (deadline : Rat) (caps : EnricherCaps)
    (keys : List String) :
    OwnSat lib maxEntries worker (Turn.Sourced call)
      (resolveKeys lib call deadline caps rule keys st) s := by
  rw [resolveKeys, EnrichTask.getMany]
  have hasked : ∀ p ∈ keys.map (fun k => (call.cacheKey lib rule k, call.question rule
      (keyOfCache (call.cacheKey lib rule) keys (call.cacheKey lib rule k)))),
      p.1 = p.2.cacheKey lib.rt.toRuntime call.policy.version := by
    intro p hp
    obtain ⟨k, hk, rfl⟩ := List.mem_map.1 hp
    exact (cacheKey_keyOfCache (List.mem_map_of_mem (f := call.cacheKey lib rule) hk)).symm
  apply OwnSat.ask
  · exact fun _ _ => trivial
  intro t₁ h₁ hI cached u₁ hown hr h₁'
  have hrows₁ : RowsSourced call (Assoc.collect (fun p => some ((rule.ruleId,
      keyOfCache (call.cacheKey lib rule) keys p.1), p.2)) st.rows cached.1) u₁ := by
    apply RowsSourced.collect (hrows.mono (h₁.trans h₁')) hrule
    intro found hf p hp
    rw [Option.some.injEq] at hp
    subst hp
    obtain ⟨q, hq, ha⟩ := getMany_rows hI hasked hown hr hf
    obtain ⟨k, -, hk⟩ := List.mem_map.1 hq
    rw [Prod.mk.injEq] at hk
    rw [← hk.2, hk.1] at ha
    exact ⟨rfl, h₁' ha⟩
  dsimp only
  split
  · exact hrows₁
  · simp only [EnrichTask.clock]
    apply OwnSat.ask
    · exact fun _ _ => trivial
    intro t₂ h₂ _ now u₂ _ _ h₂'
    have hrows₂ := hrows₁.mono (h₂.trans h₂')
    split
    · exact hrows₂
    · apply Dialog.Sat.bind
      apply Dialog.Sat.weaken
        (Dialog.Sat.fold (fun acc k s' _ hacc => acquire_sat hrule hacc k) hrows₂)
      intro acc s' hacc
      split
      · exact hacc
      · exact resolveOwned_sat hrule hacc caps acc.2

theorem resolveRemoteRule_sat (hrule : rule ∈ call.policy.remoteRules) {st : RemoteState}
    (hrows : RowsSourced call st.rows s) (deadline : Rat) :
    OwnSat lib maxEntries worker (Turn.Sourced call)
      (resolveRemoteRule lib registry call deadline st rule) s := by
  rw [resolveRemoteRule]
  split
  · exact hrows
  · cases registry rule.enricher with
    | none => exact hrows
    | some caps =>
      cases distinctKeys lib call.batch rule with
      | error e => exact trivial
      | ok keys =>
        dsimp only
        split
        · exact hrows
        · exact resolveKeys_sat hrule hrows deadline caps keys

theorem resolveRemoteRules_sat {rules : List CompiledEnrichRule}
    (hrules : rules ⊆ call.policy.remoteRules) {st : RemoteState}
    (hrows : RowsSourced call st.rows s) (deadline : Rat) :
    OwnSat lib maxEntries worker (ResultSourced call)
      (resolveRemoteRules lib registry call deadline rules st) s := by
  induction rules generalizing st s with
  | nil =>
    intro st' hst
    cases hst
    exact hrows
  | cons rule rules ih =>
    obtain ⟨hrule, hrest⟩ := List.cons_subset.1 hrules
    rw [resolveRemoteRules]
    apply Dialog.Sat.bind
    apply (resolveRemoteRule_sat registry hrule hrows deadline).weaken
    intro turn s' hturn
    cases turn with
    | next st' => exact ih hrest hturn
    | stop st' =>
      intro st'' hst
      cases hst
      exact hturn
    | raised =>
      intro st'' hst
      cases hst

theorem resolveRemote_sat (call : RemoteCall) :
    OwnSat lib maxEntries worker (ResultSourced call) (resolveRemote lib registry call) s := by
  have hnil : ∀ t, RowsSourced call [] t := fun t p hp => absurd hp List.not_mem_nil
  rw [resolveRemote]
  split
  · intro st hst
    cases hst
    exact hnil s
  · simp only [EnrichTask.clock]
    apply OwnSat.ask
    · exact fun _ _ => trivial
    intro t _ _ now u _ _ _
    exact resolveRemoteRules_sat registry (List.Subset.refl _) (hnil u) _

end Program

section Crew
variable (lib : EnrichLibrary) (registry : String → Option EnricherCaps) (maxEntries : Nat)

theorem initial_sound (R : CrewRules EnrichState Nat RemoteCall EnrichAsk EnrichReply
    (Option RemoteState)) : Crew.Sound R AnswersKept (CachesSound rt) ResultSourced
      EnrichCrew.initial := by
  constructor
  · constructor
    · intro worker p hp
      cases hp
    · intro p hp
      cases hp
  · intro i c t h
    cases h

theorem ownSource_sound {y : EnrichCrew}
    (h : Crew.Reaches (enrichCrew lib registry maxEntries readsOwnSource)
      EnrichCrew.initial y) :
    Crew.Sound (enrichCrew lib registry maxEntries readsOwnSource) AnswersKept
      (CachesSound lib.rt.toRuntime) ResultSourced y := by
  refine Crew.Reaches.sound ?_ ?_ ?_ ?_ ?_ h (initial_sound _)
  · exact fun _ _ _ => AnswersKept.trans
  · intro call result s t hresult hle st hst
    exact (hresult st hst).mono hle
  · exact fun s => List.Subset.refl _
  · exact fun s worker call _ _ => resolveRemote_sat registry call
  · intro s u hI hmove
    have hle : AnswersKept s u := by
      rw [AnswersKept, hmove.answered]
      exact List.Subset.refl _
    refine ⟨hI.same (fun worker => ?_) hmove.l2.subset hle, hle⟩
    obtain hl | hl := hmove.l1 worker
    · rw [hl]
      exact List.Subset.refl _
    · rw [hl]
      exact List.nil_subset _

/-- A row of a finished call was answered for its key by the provider that the source and the
table of its own rule configure. -/
theorem remote_rows_own_source {y : EnrichCrew} {call : RemoteCall} {st : RemoteState}
    {rule : CompiledEnrichRule} {key : String} {a : Answer}
    (h : Crew.Reaches (enrichCrew lib registry maxEntries readsOwnSource)
      EnrichCrew.initial y)
    (hdone : y.running worker = some (call, .done (some st)))
    (hrule : rule ∈ call.policy.remoteRules)
    (hrow : ((rule.ruleId, key), a) ∈ st.rows) :
    (call.question rule key, a) ∈ y.shared.answered := by
  have hresult := (ownSource_sound lib registry maxEntries h).2 worker call _ hdone
  obtain ⟨rule', hrule', hid, ha⟩ := hresult st rfl _ hrow
  have hsame : rule' = rule := call.policy.remote_unique hrule' hrule hid.symm
  rw [hsame] at ha
  exact ha

end Crew

/-- A library without expressions beyond dot paths, with the digest of one address. -/
def dnsLibrary : EnrichLibrary where
  rt := { MappingRuntime.ascii with
    sha1 := fun s => if s = "8.8.8.8" then 0x53a636befcd6e3049a0eae5fbc44016512229221#160 else 0 }
  search _ _ := .error ""

/-- A rule that asks a configured feed about the address of an event. -/
def feedRule (source : String) : CompiledEnrichRule where
  ruleId := "ask-" ++ source
  enricher := "taxii"
  table := none
  source := some source
  keySource := .dotPath ["ip"]
  keyNormalizers := []
  when := none
  outputs := [⟨"label", ["_centralops", "enrichment", source], .null, false⟩]
  tags := []
  onMiss := .skip
  onMulti := .first
  onError := .skip
  overwrite := false
  mode := .remote
  ttl := none
  negativeTtl := none

def feedCall (rules : List CompiledEnrichRule)
    (ids : (rules.map CompiledEnrichRule.ruleId).Nodup) : RemoteCall where
  policy := ⟨rules, 1, ids⟩
  batch := [[("ip", .str "8.8.8.8")]]
  organization := 7
  budget := 1
  hasCache := true
  disabled := []

/-- Every feed labels an address with its own name. -/
def feedAnswer (origin : Origin) (_ : String) : Answer :=
  some (.obj [("label", .str (origin.source.getD ""))])

def feedRegistry : String → Option EnricherCaps := fun _ => some ⟨3600, 300⟩

def feedRun (call : RemoteCall) : Option RemoteState × EnrichState :=
  (resolveRemote dnsLibrary feedRegistry call).play (redisUp 10000 0 feedAnswer) .empty

def feedEnd (call : RemoteCall) : EnrichCrew :=
  { EnrichCrew.initial.put 0 (some (call, .done (feedRun call).1)) with
    shared := (feedRun call).2 }

def findsNothing (s : EnrichState) : EnrichAsk → Bool
  | .getMany asked => asked.all (fun p => (s.entryFor 0 p.1).isNone)
  | .wait key _ => (s.l2.lookup key).isNone
  | _ => true

theorem readsOwnSource_of_findsNothing {q : EnrichAsk} (h : findsNothing s q = true) :
    readsOwnSource 0 s q := by
  cases q with
  | getMany asked =>
    intro p hp e he
    have hnone := List.all_eq_true.1 h p hp
    rw [he] at hnone
    cases hnone
  | wait key question =>
    intro e he
    rw [findsNothing, he] at h
    cases h
  | _ => exact trivial

theorem feedEnd_reaches (call : RemoteCall)
    (h : (resolveRemote dnsLibrary feedRegistry call).passes (redisUp 10000 0 feedAnswer)
      findsNothing .empty = true) :
    Crew.Reaches (enrichCrew dnsLibrary feedRegistry 10000 readsOwnSource) EnrichCrew.initial
      (feedEnd call) := by
  apply Crew.reaches_of_call rfl trivial
  apply Dialog.runs_play _ h
  exact fun s q hq => ⟨readsOwnSource_of_findsNothing hq, redisUp_answers 10000 0 feedAnswer s q⟩

theorem feedEnd_running {call : RemoteCall} (h : (feedRun call).1 = result) :
    (feedEnd call).running 0 = some (call, .done result) := by
  rw [← h]
  exact Crew.put_running_self EnrichCrew.initial 0 (some (call, .done (feedRun call).1))

def oneFeed : RemoteCall := feedCall [feedRule "feed-a"] (by decide)

theorem remote_rows_own_source_feed :
    (oneFeed.question (feedRule "feed-a") "8.8.8.8", some (.obj [("label", .str "feed-a")])) ∈
      (feedEnd oneFeed).shared.answered := by
  have hrun : (feedRun oneFeed).1 =
      some ⟨[(("ask-feed-a", "8.8.8.8"), some (.obj [("label", .str "feed-a")]))], []⟩ := by
    decide +kernel
  exact remote_rows_own_source dnsLibrary feedRegistry 10000
    (feedEnd_reaches oneFeed (by decide +kernel)) (feedEnd_running hrun)
    (List.mem_filter.2 ⟨List.mem_singleton_self _, rfl⟩) List.mem_cons_self

def twoFeeds : RemoteCall := feedCall [feedRule "feed-a", feedRule "feed-b"] (by decide)

/-- The second feed is never asked, and its rule has the answer of the first. -/
theorem second_feed_reads_first :
    ∃ y : EnrichCrew,
      Crew.Reaches (enrichCrew dnsLibrary feedRegistry 10000 (fun _ _ _ => True))
        EnrichCrew.initial y ∧
      ∃ call st rule key a, y.running 0 = some (call, .done (some st)) ∧
        rule ∈ call.policy.remoteRules ∧ ((rule.ruleId, key), a) ∈ st.rows ∧
        (call.question rule key, a) ∉ y.shared.answered := by
  have hrun : (feedRun twoFeeds).1 =
      some ⟨[(("ask-feed-a", "8.8.8.8"), some (.obj [("label", .str "feed-a")])),
        (("ask-feed-b", "8.8.8.8"), some (.obj [("label", .str "feed-a")]))], []⟩ := by
    decide +kernel
  refine ⟨feedEnd twoFeeds, ?_, twoFeeds, _, feedRule "feed-b", "8.8.8.8", _,
    feedEnd_running hrun, ?_, List.mem_cons_of_mem _ List.mem_cons_self, ?_⟩
  · apply Crew.reaches_of_call rfl trivial
    apply Dialog.runs_play (p := fun _ _ => true)
    · exact fun s q _ => ⟨trivial, redisUp_answers 10000 0 feedAnswer s q⟩
    · decide +kernel
  · exact List.mem_filter.2 ⟨List.mem_cons_of_mem _ (List.mem_singleton_self _), rfl⟩
  · change _ ∉ (feedRun twoFeeds).2.answered
    decide +kernel

end CentralOps
