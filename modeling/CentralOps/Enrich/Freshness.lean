import CentralOps.Enrich.Provenance
import Mathlib.Data.Nat.Cast.Order.Ring
import Mathlib.Algebra.Order.Ring.Rat

namespace CentralOps
set_option autoImplicit true

structure Answered where
  question : Question
  answer : Answer
  time : Rat

/-- An answer that `put_many` stored. -/
structure Stored where
  question : Question
  answer : Answer
  time : Rat

structure Use where
  worker : Nat
  question : Question
  answer : Answer
  time : Rat

structure TimedWorld where
  now : Rat := 0
  l1 : Nat → L1 := fun _ => []
  l2 : L1 := []
  answered : List Answered := []
  stored : List Stored := []
  uses : List Use := []

namespace TimedWorld

/-- What Redis answers: an entry is there through the last instant of its TTL. -/
def visible (w : TimedWorld) : L2 :=
  (w.l2.filter (fun p => decide (w.now ≤ p.2.1))).map (fun p => (p.1, p.2.2))

/-- `SET EX` of every answer; the TTL is at least one second. -/
def putTimed (now : Rat) (ttl negativeTtl : Nat) (stored : List (String × Question × Answer))
    (l2 : L1) : L1 :=
  Assoc.collect (fun p => some (p.1,
    now + (max (if p.2.2 = none then negativeTtl else ttl) 1 : Nat), ⟨p.2.1, p.2.2⟩)) l2 stored

def use (w : TimedWorld) (used : List (Question × Answer)) (worker : Nat) : TimedWorld :=
  { w with uses := w.uses ++ used.map (fun p => ⟨worker, p.1, p.2, w.now⟩) }

def found (asked : List (String × Question)) (hits : List (String × Answer)) :
    List (Question × Answer) :=
  hits.filterMap (fun p => (asked.lookup p.1).map (fun q => (q, p.2)))

/-- `get_many` at one instant, with a Redis that is up or down. -/
def look (w : TimedWorld) (worker : Nat) (asked : List (String × Question)) (up : Bool) :
    List (String × Answer) × List String × L1 :=
  getMany w.now (w.l1 worker) (if up then some w.visible else none) (asked.map Prod.fst)

def read (w : TimedWorld) (worker : Nat) (asked : List (String × Question)) (up : Bool) :
    TimedWorld :=
  { (w.use (found asked (w.look worker asked up).1) worker) with
    l1 := Function.update w.l1 worker (w.look worker asked up).2.2 }

def hear (w : TimedWorld) (worker : Nat) (origin : Origin) (resolved : List (String × Answer)) :
    TimedWorld :=
  { (w.use (resolved.map (fun p => (⟨origin, p.1⟩, p.2))) worker) with
    answered := w.answered ++ resolved.map (fun p => ⟨⟨origin, p.1⟩, p.2, w.now⟩) }

def put (maxEntries worker : Nat) (w : TimedWorld) (stored : List (String × Question × Answer))
    (ttl negativeTtl : Nat) (up : Bool) : TimedWorld :=
  { w with
    l1 := Function.update w.l1 worker
      (putL1 maxEntries w.now ttl negativeTtl stored (w.l1 worker))
    l2 := if up then putTimed w.now ttl negativeTtl stored w.l2 else w.l2
    stored := w.stored ++ stored.map (fun p => ⟨p.2.1, p.2.2, w.now⟩) }

/-- What each await of one worker may return, and what it leaves. Redis may be down at any of
them; locks, breakers, sources and providers answer as they please. -/
def Answers (maxEntries worker : Nat) (w : TimedWorld) :
    (q : EnrichAsk) → EnrichReply q → TimedWorld → Prop
  | .clock, now, w' => now = w.now ∧ w' = w
  | .getMany asked, cached, w' =>
    ∃ up, cached = ((w.look worker asked up).1, (w.look worker asked up).2.1) ∧
      w' = w.read worker asked up
  | .lock _, _, w' => w' = w
  | .unlock _, _, w' => w' = w
  | .wait key question, a, w' =>
    a = none ∧ w' = w ∨
      ∃ e, w.visible.lookup key = some e ∧ a = some e.answer ∧
        w' = w.use [(question, e.answer)] worker
  | .breaker _, _, w' => w' = w
  | .source _, _, w' => w' = w
  | .resolve _ origin _, reply, w' =>
    w' = match reply with
      | .ok resolved => w.hear worker origin resolved
      | _ => w
  | .putMany stored ttl negativeTtl, _, w' =>
    ∃ up, w' = w.put maxEntries worker stored ttl negativeTtl up

structure Moves (w w' : TimedWorld) : Prop where
  now : w.now ≤ w'.now
  l2 : w'.l2.Sublist w.l2
  l1 : ∀ worker, w'.l1 worker = w.l1 worker ∨ w'.l1 worker = []
  answered : w'.answered = w.answered
  stored : w'.stored = w.stored
  uses : w'.uses = w.uses

end TimedWorld

section Policies
variable (registry : String → Option EnricherCaps)

def CompiledPolicy.OneSource (policy : CompiledPolicy) : Prop :=
  ∀ rule ∈ policy.remoteRules, ∀ rule' ∈ policy.remoteRules, rule.enricher = rule'.enricher →
    rule.source = rule'.source ∧ rule.table = rule'.table

/-- The TTL that a rule stores an answer with. -/
def CompiledEnrichRule.ttlFor (rule : CompiledEnrichRule) (caps : EnricherCaps) (a : Answer) : Nat :=
  if a = none then rule.negativeTtl.getD caps.suggestedNegativeTtl
  else rule.ttl.getD caps.suggestedTtl

/-- An answer to a question stored at one instant may be used at another: a rule of the policy
asks this question, and its TTL has not passed. -/
def CompiledPolicy.Keeps (policy : CompiledPolicy) (q : Question) (a : Answer) (stored used : Rat) :
    Prop :=
  ∃ rule ∈ policy.remoteRules, ∃ caps, registry rule.enricher = some caps ∧
    rule.origin q.origin.organization = q.origin ∧ used ≤ stored + (max (rule.ttlFor caps a) 1 : Nat)

/-- The provider said so, at the moment of the use, or some time before it was stored; and since
it was stored its TTL has not passed. -/
def TimedWorld.Backed (policy : CompiledPolicy) (w : TimedWorld) (u : Use) : Prop :=
  (∃ a ∈ w.answered, a.question = u.question ∧ a.answer = u.answer ∧ a.time = u.time) ∨
    ∃ s ∈ w.stored, s.question = u.question ∧ s.answer = u.answer ∧ s.time ≤ u.time ∧
      policy.Keeps registry u.question u.answer s.time u.time ∧
      ∃ a ∈ w.answered, a.question = s.question ∧ a.answer = s.answer ∧ a.time ≤ s.time

end Policies

/-- A call of `resolve_remote`, with its worker and the instant at which it begins. -/
structure TimedCall where
  call : RemoteCall
  worker : Nat
  start : Rat

abbrev TimedCrew := Crew TimedWorld Nat TimedCall EnrichAsk EnrichReply (Option RemoteState)

def TimedCrew.initial : TimedCrew := ⟨{}, fun _ => none⟩

/-- What the workers share beside the caches: each version of the policy of an organisation, in
which rules with one enricher use one source and one table, and keys that have different digests. -/
structure RemoteSetup where
  lib : EnrichLibrary
  registry : String → Option EnricherCaps
  maxEntries : Nat
  policies : Int → Int → CompiledPolicy
  oneSource : ∀ organization version, (policies organization version).OneSource
  keys : Set String
  digest : Set.InjOn (keyDigest lib.rt.toRuntime) keys

namespace RemoteSetup

structure Conforms (d : RemoteSetup) (call : RemoteCall) : Prop where
  policy : d.policies call.organization call.policy.version = call.policy
  keys : ∀ rule ∈ call.policy.remoteRules, ∀ ks, distinctKeys d.lib call.batch rule = .ok ks →
    ∀ k ∈ ks, k ∈ d.keys

/-- Workers that call `resolve_remote` at any time and in any order. -/
def rules (d : RemoteSetup) :
    CrewRules TimedWorld Nat TimedCall EnrichAsk EnrichReply (Option RemoteState) where
  program c := resolveRemote d.lib d.registry c.call
  starts w i c := c.worker = i ∧ c.start = w.now ∧ d.Conforms c.call
  answers := TimedWorld.Answers d.maxEntries
  moves := TimedWorld.Moves

end RemoteSetup

structure TimedWorld.Later (w w' : TimedWorld) : Prop where
  now : w.now ≤ w'.now
  answered : w.answered ⊆ w'.answered
  stored : w.stored ⊆ w'.stored
  uses : w.uses ⊆ w'.uses

theorem TimedWorld.Later.refl (w : TimedWorld) : w.Later w where
  now := le_refl w.now
  answered := List.Subset.refl _
  stored := List.Subset.refl _
  uses := List.Subset.refl _

theorem TimedWorld.Later.trans (h : TimedWorld.Later w t) (h' : TimedWorld.Later t u) :
    TimedWorld.Later w u where
  now := le_trans h.now h'.now
  answered := List.Subset.trans h.answered h'.answered
  stored := List.Subset.trans h.stored h'.stored
  uses := List.Subset.trans h.uses h'.uses

theorem TimedWorld.Backed.mono (h : TimedWorld.Backed registry policy w u)
    (hle : TimedWorld.Later w w') : TimedWorld.Backed registry policy w' u := by
  obtain ⟨a, ha, hanswer⟩ | ⟨s, hs, hq, ha, hbefore, hkeeps, b, hb, hanswer⟩ := h
  · exact .inl ⟨a, hle.answered ha, hanswer⟩
  · exact .inr ⟨s, hle.stored hs, hq, ha, hbefore, hkeeps, b, hle.answered hb, hanswer⟩

section Entries
variable (d : RemoteSetup)

structure Question.Admits (version : Int) (q : Question) : Prop where
  origin : ∃ rule ∈ (d.policies q.origin.organization version).remoteRules,
    rule.origin q.origin.organization = q.origin
  key : q.key ∈ d.keys

def EntryFrom (w : TimedWorld) (k : String) (expires : Rat) (e : CacheEntry) : Prop :=
  ∃ version, k = e.question.cacheKey d.lib.rt.toRuntime version ∧ e.question.Admits d version ∧
    ∃ s ∈ w.stored, s.question = e.question ∧ s.answer = e.answer ∧
      (d.policies e.question.origin.organization version).Keeps d.registry e.question e.answer
        s.time expires

structure TimedWorld.Fresh (w : TimedWorld) : Prop where
  l1 : ∀ worker, ∀ p ∈ w.l1 worker, EntryFrom d w p.1 p.2.1 p.2.2
  l2 : ∀ p ∈ w.l2, EntryFrom d w p.1 p.2.1 p.2.2
  answered : ∀ a ∈ w.answered, a.time ≤ w.now
  stored : ∀ s ∈ w.stored, s.time ≤ w.now ∧
    ∃ a ∈ w.answered, a.question = s.question ∧ a.answer = s.answer ∧ a.time ≤ s.time

variable {d}

theorem EntryFrom.mono (h : EntryFrom d w k expires e) (hle : TimedWorld.Later w w') :
    EntryFrom d w' k expires e := by
  obtain ⟨version, hkey, hadmits, s, hs, hstored⟩ := h
  exact ⟨version, hkey, hadmits, s, hle.stored hs, hstored⟩

theorem Question.Admits.unique {q q' : Question} {version version' : Int}
    (h : q.Admits d version) (h' : q'.Admits d version')
    (hkey : q.cacheKey d.lib.rt.toRuntime version = q'.cacheKey d.lib.rt.toRuntime version') :
    q = q' ∧ version = version' := by
  obtain ⟨horg, henricher, hversion, hsum⟩ := Question.cacheKey_parts hkey
  obtain ⟨rule, hrule, horigin⟩ := h.origin
  obtain ⟨rule', hrule', horigin'⟩ := h'.origin
  rw [← horg, ← hversion] at hrule'
  have hname : rule.enricher = rule'.enricher := by
    have hr := congrArg Origin.enricher horigin
    have hr' := congrArg Origin.enricher horigin'
    exact hr.trans (henricher.trans hr'.symm)
  obtain ⟨hsource, htable⟩ := d.oneSource _ version rule hrule rule' hrule' hname
  refine ⟨Question.ext ?_ (d.digest h.key h'.key hsum), hversion⟩
  rw [← horigin, ← horigin', CompiledEnrichRule.origin, CompiledEnrichRule.origin, horg, hname,
    hsource, htable]

theorem EntryFrom.backed {q : Question} {version : Int} (hq : q.Admits d version)
    (h : EntryFrom d w (q.cacheKey d.lib.rt.toRuntime version) expires e) (hw : w.Fresh d)
    (hlive : w.now ≤ expires) (worker : Nat) :
    w.Backed d.registry (d.policies q.origin.organization version)
      ⟨worker, q, e.answer, w.now⟩ := by
  obtain ⟨version', hkey, hadmits, s, hs, hsame, ha, rule, hrule, caps, hcaps, horigin, httl⟩ := h
  obtain ⟨rfl, rfl⟩ := hq.unique hadmits hkey
  obtain ⟨hnow, hanswered⟩ := hw.stored s hs
  exact .inr ⟨s, hs, hsame, ha, hnow, ⟨rule, hrule, caps, hcaps, horigin, le_trans hlive httl⟩,
    hanswered⟩

theorem TimedWorld.Fresh.same (h : w.Fresh d) (hle : TimedWorld.Later w w')
    (hl1 : ∀ worker, w'.l1 worker ⊆ w.l1 worker) (hl2 : w'.l2 ⊆ w.l2)
    (hstored : w'.stored = w.stored)
    (hanswered : ∀ a ∈ w'.answered, a ∈ w.answered ∨ a.time ≤ w'.now) :
    w'.Fresh d where
  l1 worker p hp := (h.l1 worker p (hl1 worker hp)).mono hle
  l2 p hp := (h.l2 p (hl2 hp)).mono hle
  answered a ha := by
    obtain ha | ha := hanswered a ha
    · exact le_trans (h.answered a ha) hle.now
    · exact ha
  stored s hs := by
    rw [hstored] at hs
    obtain ⟨hnow, a, ha, hbefore⟩ := h.stored s hs
    exact ⟨le_trans hnow hle.now, a, hle.answered ha, hbefore⟩

theorem mem_putTimed {l2 : L1} {instant : Rat} {stored : List (String × Question × Answer)}
    (h : p ∈ TimedWorld.putTimed instant ttl negativeTtl stored l2) :
    p ∈ l2 ∨ ∃ x ∈ stored, p = (x.1,
      instant + (max (if x.2.2 = none then negativeTtl else ttl) 1 : Nat), ⟨x.2.1, x.2.2⟩) := by
  obtain h | ⟨x, hx, hp⟩ := Assoc.mem_collect h
  · exact .inl h
  · rw [Option.some.injEq] at hp
    exact .inr ⟨x, hx, hp.symm⟩

/-- What `put_many` is given: answers of a provider under the keys of admitted questions, with the
TTLs of a rule that asks them. -/
def StoresAnswered (d : RemoteSetup) (w : TimedWorld)
    (stored : List (String × Question × Answer)) (ttl negativeTtl : Nat) : Prop :=
  ∀ x ∈ stored, (∃ version, x.1 = x.2.1.cacheKey d.lib.rt.toRuntime version ∧
    x.2.1.Admits d version ∧
      ∃ rule ∈ (d.policies x.2.1.origin.organization version).remoteRules, ∃ caps,
        d.registry rule.enricher = some caps ∧
          rule.origin x.2.1.origin.organization = x.2.1.origin ∧
            rule.ttlFor caps x.2.2 = if x.2.2 = none then negativeTtl else ttl) ∧
    ∃ a ∈ w.answered, a.question = x.2.1 ∧ a.answer = x.2.2

theorem TimedWorld.put_later (w : TimedWorld) (maxEntries worker ttl negativeTtl : Nat)
    (stored : List (String × Question × Answer)) (up : Bool) :
    w.Later (w.put maxEntries worker stored ttl negativeTtl up) where
  now := le_refl w.now
  answered := List.Subset.refl _
  stored := List.subset_append_left _ _
  uses := List.Subset.refl _

/-- An entry made by `put_many` expires with the answer that it stores. -/
theorem EntryFrom.of_put {stored : List (String × Question × Answer)}
    (hstored : StoresAnswered d w stored ttl negativeTtl) (hx : x ∈ stored)
    (hexpires : expires ≤ w.now + (max (if x.2.2 = none then negativeTtl else ttl) 1 : Nat)) :
    EntryFrom d (w.put maxEntries worker stored ttl negativeTtl up) x.1 expires
      ⟨x.2.1, x.2.2⟩ := by
  obtain ⟨⟨version, hkey, hadmits, rule, hrule, caps, hcaps, horigin, httl⟩, -⟩ := hstored x hx
  refine ⟨version, hkey, hadmits, ⟨x.2.1, x.2.2, w.now⟩, ?_, rfl, rfl, rule, hrule, caps, hcaps,
    horigin, ?_⟩
  · exact List.mem_append_right _ (List.mem_map.2 ⟨x, hx, rfl⟩)
  · rw [httl]
    exact hexpires

theorem TimedWorld.Fresh.put {stored : List (String × Question × Answer)}
    (h : w.Fresh d)
    (hstored : StoresAnswered d w stored ttl negativeTtl) (maxEntries worker : Nat) (up : Bool) :
    (w.put maxEntries worker stored ttl negativeTtl up).Fresh d where
  l1 other p hp := by
    have hle := w.put_later maxEntries worker ttl negativeTtl stored up
    obtain ⟨rfl, hp⟩ | hp := L1.mem_update hp
    · obtain hp | ⟨x, hx, rfl⟩ := mem_putL1 hp
      · exact (h.l1 other p hp).mono hle
      · apply EntryFrom.of_put hstored hx
        have hmax := Nat.le_max_left (if x.2.2 = none then negativeTtl else ttl) 1
        exact add_le_add (le_refl _) (Nat.cast_le.2 hmax)
    · exact (h.l1 other p hp).mono hle
  l2 p hp := by
    have hle := w.put_later maxEntries worker ttl negativeTtl stored up
    cases up with
    | false => exact (h.l2 p hp).mono hle
    | true =>
      obtain hp | ⟨x, hx, rfl⟩ := mem_putTimed hp
      · exact (h.l2 p hp).mono hle
      · exact EntryFrom.of_put hstored hx (le_refl _)
  answered := h.answered
  stored s hs := by
    obtain hs | hs := List.mem_append.1 hs
    · exact h.stored s hs
    · obtain ⟨x, hx, rfl⟩ := List.mem_map.1 hs
      obtain ⟨-, a, ha, hq, hanswer⟩ := hstored x hx
      exact ⟨le_refl _, a, ha, hq, hanswer, h.answered a ha⟩

theorem StoresAnswered.mono {stored : List (String × Question × Answer)}
    (h : StoresAnswered d w stored ttl negativeTtl) (hle : TimedWorld.Later w w') :
    StoresAnswered d w' stored ttl negativeTtl := by
  intro x hx
  obtain ⟨hkey, a, ha, hanswer⟩ := h x hx
  exact ⟨hkey, a, hle.answered ha, hanswer⟩

/-- The one await that adds to the caches is `put_many`, and it must store what was answered. -/
def TimedWorld.storesAnswered (d : RemoteSetup) (w : TimedWorld) : EnrichAsk → Prop
  | .putMany stored ttl negativeTtl => StoresAnswered d w stored ttl negativeTtl
  | _ => True

theorem TimedWorld.use_later (w : TimedWorld) (used : List (Question × Answer)) (worker : Nat) :
    w.Later (w.use used worker) where
  now := le_refl w.now
  answered := List.Subset.refl _
  stored := List.Subset.refl _
  uses := List.subset_append_left _ _

theorem TimedWorld.read_later (w : TimedWorld) (worker : Nat) (asked : List (String × Question))
    (up : Bool) : w.Later (w.read worker asked up) where
  now := le_refl w.now
  answered := List.Subset.refl _
  stored := List.Subset.refl _
  uses := List.subset_append_left _ _

theorem TimedWorld.hear_later (w : TimedWorld) (worker : Nat) (origin : Origin)
    (resolved : List (String × Answer)) : w.Later (w.hear worker origin resolved) where
  now := le_refl w.now
  answered := List.subset_append_left _ _
  stored := List.Subset.refl _
  uses := List.subset_append_left _ _

/-- What an await leaves: fresh caches, and all that was recorded. -/
theorem TimedWorld.answers_keeps (h : w.Fresh d)
    (hq : storesAnswered d w q)
    (ha : Answers maxEntries worker w q r u) : u.Fresh d ∧ w.Later u := by
  have hrefl := Later.refl w
  cases q with
  | clock =>
    obtain ⟨-, rfl⟩ := ha
    exact ⟨h, hrefl⟩
  | getMany asked =>
    obtain ⟨up, -, rfl⟩ := ha
    have hle := w.read_later worker asked up
    refine ⟨h.same hle (fun other p hp => ?_) (List.Subset.refl _) rfl (fun a ha => .inl ha), hle⟩
    obtain ⟨rfl, hp⟩ | hp := L1.mem_update hp
    · exact getMany_l1 hp
    · exact hp
  | lock key =>
    cases ha
    exact ⟨h, hrefl⟩
  | unlock key =>
    cases ha
    exact ⟨h, hrefl⟩
  | wait key question =>
    obtain ⟨-, rfl⟩ | ⟨e, -, -, rfl⟩ := ha
    · exact ⟨h, hrefl⟩
    · have hle := w.use_later [(question, e.answer)] worker
      exact ⟨h.same hle (fun _ => List.Subset.refl _) (List.Subset.refl _) rfl
        (fun a ha => .inl ha), hle⟩
  | breaker rule =>
    cases ha
    exact ⟨h, hrefl⟩
  | source rule =>
    cases ha
    exact ⟨h, hrefl⟩
  | resolve ruleId origin asked =>
    cases ha
    cases r with
    | timeout => exact ⟨h, hrefl⟩
    | raised => exact ⟨h, hrefl⟩
    | ok resolved =>
      have hle := w.hear_later worker origin resolved
      refine ⟨h.same hle (fun _ => List.Subset.refl _) (List.Subset.refl _) rfl
        (fun a ha => ?_), hle⟩
      obtain ha | ha := List.mem_append.1 ha
      · exact .inl ha
      · obtain ⟨p, -, rfl⟩ := List.mem_map.1 ha
        exact .inr (le_refl w.now)
  | putMany stored ttl negativeTtl =>
    obtain ⟨up, rfl⟩ := ha
    exact ⟨h.put hq maxEntries worker up,
      w.put_later maxEntries worker ttl negativeTtl stored up⟩

theorem TimedWorld.Moves.later (h : TimedWorld.Moves w u) : w.Later u where
  now := h.now
  answered := h.answered.symm ▸ List.Subset.refl _
  stored := h.stored.symm ▸ List.Subset.refl _
  uses := h.uses.symm ▸ List.Subset.refl _

theorem TimedWorld.Moves.fresh (h : w.Fresh d) (hmove : TimedWorld.Moves w u) :
    u.Fresh d := by
  apply h.same hmove.later _ hmove.l2.subset hmove.stored
  · intro a ha
    rw [hmove.answered] at ha
    exact .inl ha
  · intro worker
    obtain hl | hl := hmove.l1 worker
    · rw [hl]
      exact List.Subset.refl _
    · rw [hl]
      exact List.nil_subset _

end Entries

section Taken
variable {d : RemoteSetup}

/-- A worker took this answer over after its call began, and it is backed. -/
def TimedWorld.Took (d : RemoteSetup) (w : TimedWorld) (c : TimedCall) (question : Question)
    (a : Answer) : Prop :=
  ∃ u ∈ w.uses, u.worker = c.worker ∧ c.start ≤ u.time ∧ u.question = question ∧ u.answer = a ∧
    w.Backed d.registry c.call.policy u

theorem TimedWorld.Took.mono (h : TimedWorld.Took d w c question a)
    (hle : TimedWorld.Later w w') : TimedWorld.Took d w' c question a := by
  obtain ⟨u, hu, hworker, hstart, hquestion, ha, hbacked⟩ := h
  exact ⟨u, hle.uses hu, hworker, hstart, hquestion, ha, hbacked.mono hle⟩

structure RowsTook (d : RemoteSetup) (c : TimedCall) (rows : Rows) (w : TimedWorld) : Prop where
  start : c.start ≤ w.now
  took : ∀ p ∈ rows, ∃ rule ∈ c.call.policy.remoteRules, p.1.1 = rule.ruleId ∧
    w.Took d c (c.call.question rule p.1.2) p.2

theorem RowsTook.mono (h : RowsTook d c rows w) (hle : TimedWorld.Later w w') :
    RowsTook d c rows w' where
  start := le_trans h.start hle.now
  took p hp := by
    obtain ⟨rule, hrule, hid, htook⟩ := h.took p hp
    exact ⟨rule, hrule, hid, htook.mono hle⟩

theorem RowsTook.set (h : RowsTook d c rows w) (hrule : rule ∈ c.call.policy.remoteRules)
    (htook : w.Took d c (c.call.question rule key) a) :
    RowsTook d c (Assoc.set (rule.ruleId, key) a rows) w where
  start := h.start
  took p hp := by
    obtain rfl | hp := Assoc.mem_of_mem_set hp
    · exact ⟨rule, hrule, rfl, htook⟩
    · exact h.took p hp

theorem RowsTook.collect {f : γ → Option ((String × String) × Answer)} {as : List γ}
    (h : RowsTook d c rows w) (hrule : rule ∈ c.call.policy.remoteRules)
    (hf : ∀ x ∈ as, ∀ p, f x = some p → p.1.1 = rule.ruleId ∧
      w.Took d c (c.call.question rule p.1.2) p.2) :
    RowsTook d c (Assoc.collect f rows as) w where
  start := h.start
  took p hp := by
    obtain hp | ⟨x, hx, hp⟩ := Assoc.mem_collect hp
    · exact h.took p hp
    · obtain ⟨hid, htook⟩ := hf x hx p hp
      exact ⟨rule, hrule, hid, htook⟩

def Turn.Took (d : RemoteSetup) (c : TimedCall) (turn : Turn) (w : TimedWorld) : Prop :=
  match turn with
  | .next st | .stop st => RowsTook d c st.rows w
  | .raised => True

def ResultTook (d : RemoteSetup) (c : TimedCall) (result : Option RemoteState) (w : TimedWorld) : Prop :=
  ∀ st, result = some st → RowsTook d c st.rows w

end Taken

section Program
variable {d : RemoteSetup} {c : TimedCall} {rule : CompiledEnrichRule}

theorem RemoteSetup.Conforms.admits (h : d.Conforms c.call)
    (hrule : rule ∈ c.call.policy.remoteRules) (hkey : key ∈ d.keys) :
    (c.call.question rule key).Admits d c.call.policy.version where
  origin := ⟨rule, h.policy.symm ▸ hrule, rfl⟩
  key := hkey

theorem RemoteSetup.Conforms.backed (h : d.Conforms c.call)
    (hrule : rule ∈ c.call.policy.remoteRules) (hkey : key ∈ d.keys) (hw : w.Fresh d)
    (hentry : EntryFrom d w (c.call.cacheKey d.lib rule key) expires e)
    (hlive : w.now ≤ expires) :
    w.Backed d.registry c.call.policy ⟨c.worker, c.call.question rule key, e.answer, w.now⟩ := by
  have hbacked := EntryFrom.backed (h.admits hrule hkey) hentry hw hlive c.worker
  rw [RemoteCall.question, CompiledEnrichRule.origin, h.policy] at hbacked
  exact hbacked

theorem TimedWorld.mem_of_visible {w : TimedWorld} (h : w.visible.lookup key = some e) :
    ∃ expires, w.now ≤ expires ∧ (key, expires, e) ∈ w.l2 := by
  obtain ⟨p, hp, hkey⟩ := List.mem_map.1 (Assoc.mem_of_lookup h)
  obtain ⟨hmem, hlive⟩ := List.mem_filter.1 hp
  rw [Prod.mk.injEq] at hkey
  obtain ⟨rfl, rfl⟩ := hkey
  exact ⟨p.2.1, of_decide_eq_true hlive, hmem⟩

theorem TimedWorld.Fresh.look {w : TimedWorld} (h : w.Fresh d)
    {hit : String × Answer} (hhit : hit ∈ (w.look worker asked up).1) :
    hit.1 ∈ asked.map Prod.fst ∧ ∃ expires e, hit.2 = e.answer ∧ w.now ≤ expires ∧
      EntryFrom d w hit.1 expires e := by
  obtain ⟨hk, e, ha, he⟩ := getMany_found hhit
  obtain he | ⟨-, he⟩ := Option.or_eq_some_iff.1 he
  · obtain ⟨expires, hlive, hmem⟩ := L1.mem_of_live he
    exact ⟨hk, expires, e, ha, le_of_lt hlive, h.l1 worker _ hmem⟩
  · cases up with
    | false => cases he
    | true =>
      obtain ⟨expires, hlive, hmem⟩ := mem_of_visible he
      exact ⟨hk, expires, e, ha, hlive, h.l2 _ hmem⟩

abbrev TimedSat (d : RemoteSetup) (c : TimedCall) (post : α → TimedWorld → Prop)
    (t : EnrichTask α) (w : TimedWorld) : Prop :=
  Dialog.Sat (TimedWorld.Answers d.maxEntries c.worker) TimedWorld.Later (TimedWorld.Fresh d)
    post t w

theorem TimedSat.ask {f : EnrichReply q → EnrichTask β} {post : β → TimedWorld → Prop}
    (hstore : ∀ t, TimedWorld.Later w t → t.storesAnswered d q)
    (h : ∀ t, TimedWorld.Later w t → t.Fresh d → ∀ r u,
      TimedWorld.Answers d.maxEntries c.worker t q r u → TimedWorld.Later t u →
      TimedSat d c post (f r) u) :
    TimedSat d c post (Dialog.query q >>= f) w := by
  apply Dialog.Sat.query
  intro t ht hI r u hr
  obtain ⟨hu, hle⟩ := TimedWorld.answers_keeps hI (hstore t ht) hr
  exact ⟨hu, hle, h t ht hI r u hr hle⟩

def OwnedTook (d : RemoteSetup) (c : TimedCall) (acc : Rows × List String) (w : TimedWorld) :
    Prop :=
  RowsTook d c acc.1 w ∧ ∀ k ∈ acc.2, k ∈ d.keys

theorem acquire_took (hc : d.Conforms c.call) (hrule : rule ∈ c.call.policy.remoteRules)
    {acc : Rows × List String} (hacc : OwnedTook d c acc w) (hkey : key ∈ d.keys) :
    TimedSat d c (OwnedTook d c) (acquire d.lib c.call rule acc key)
      w := by
  obtain ⟨hrows, howned⟩ := hacc
  have hmore : ∀ k ∈ acc.2 ++ [key], k ∈ d.keys := by
    intro k hk
    obtain hk | hk := List.mem_append.1 hk
    · exact howned k hk
    · exact List.mem_singleton.1 hk ▸ hkey
  rw [acquire, EnrichTask.lock]
  apply TimedSat.ask
  · exact fun _ _ => trivial
  intro t ht _ got u _ hu
  have hrows' := hrows.mono (ht.trans hu)
  cases got with
  | true => exact ⟨hrows', hmore⟩
  | false =>
    rw [if_neg Bool.false_ne_true, EnrichTask.wait]
    apply TimedSat.ask
    · exact fun _ _ => trivial
    intro t' ht' hI a v hr hv
    have hrows'' := hrows'.mono (ht'.trans hv)
    obtain ⟨rfl, rfl⟩ | ⟨e, he, rfl, rfl⟩ := hr
    · exact ⟨hrows'', hmore⟩
    · obtain ⟨expires, hlive, hmem⟩ := TimedWorld.mem_of_visible he
      have hentry := hI.l2 _ hmem
      have hbacked := (hc.backed hrule hkey hI hentry hlive).mono hv
      exact ⟨hrows''.set hrule ⟨_, List.mem_append_right _ (List.mem_singleton_self _), rfl,
        (hrows'.mono ht').start, rfl, rfl, hbacked⟩, howned⟩

theorem releaseAll_took (owned : List String) :
    TimedSat d c (fun _ u => TimedWorld.Later w u)
      (releaseAll d.lib c.call rule owned) w := by
  induction owned generalizing w with
  | nil => exact TimedWorld.Later.refl w
  | cons key owned ih =>
    rw [releaseAll, Dialog.fold, EnrichTask.unlock]
    apply TimedSat.ask
    · exact fun _ _ => trivial
    intro t ht _ r u _ hu
    exact Dialog.Sat.weaken ih (fun _ v hv => (ht.trans hu).trans hv)

theorem resolveOwned_took (hc : d.Conforms c.call)
    (hrule : rule ∈ c.call.policy.remoteRules) {st : RemoteState}
    (hrows : OwnedTook d c (st.rows, owned) w) (hcaps : d.registry rule.enricher = some caps) :
    TimedSat d c (Turn.Took d c)
      (resolveOwned d.lib c.call caps rule owned st) w := by
  obtain ⟨hrows, howned⟩ := hrows
  rw [resolveOwned, EnrichTask.breaker]
  apply TimedSat.ask
  · exact fun _ _ => trivial
  intro t₁ h₁ _ opened u₁ _ h₁'
  have hrows₁ := hrows.mono (h₁.trans h₁')
  cases opened with
  | true =>
    apply Dialog.Sat.bind
    exact (releaseAll_took owned).weaken (fun _ _ h => hrows₁.mono h)
  | false =>
    rw [if_neg Bool.false_ne_true, EnrichTask.source]
    apply TimedSat.ask
    · exact fun _ _ => trivial
    intro t₂ h₂ _ reply₂ u₂ _ h₂'
    have hrows₂ := hrows₁.mono (h₂.trans h₂')
    cases reply₂ with
    | lookupError => exact hrows₂
    | raised => exact trivial
    | ok =>
      simp only [EnrichTask.resolve]
      apply TimedSat.ask
      · exact fun _ _ => trivial
      intro t₃ h₃ _ reply u₃ hreply h₃'
      have hrows₃ := hrows₂.mono (h₃.trans h₃')
      have hheard : ∀ resolved, reply = .ok resolved → ∀ k a, resolved.lookup k = some a →
          (∃ b ∈ u₃.answered, b.question = c.call.question rule k ∧ b.answer = a) ∧
            u₃.Took d c (c.call.question rule k) a := by
        rintro resolved rfl k a hk
        have hmem := Assoc.mem_of_lookup hk
        have hanswered : (⟨c.call.question rule k, a, t₃.now⟩ : Answered) ∈ u₃.answered := by
          rw [hreply]
          exact List.mem_append_right _ (List.mem_map.2 ⟨(k, a), hmem, rfl⟩)
        have hused : (⟨c.worker, c.call.question rule k, a, t₃.now⟩ : Use) ∈ u₃.uses := by
          rw [hreply]
          apply List.mem_append_right
          exact List.mem_map.2 ⟨_, List.mem_map.2 ⟨(k, a), hmem, rfl⟩, rfl⟩
        exact ⟨⟨_, hanswered, rfl, rfl⟩, _, hused, rfl, (hrows₂.mono h₃).start, rfl, rfl,
          .inl ⟨_, hanswered, rfl, rfl, rfl⟩⟩
      apply Dialog.Sat.bind
      apply (releaseAll_took owned).weaken
      intro _ u₄ h₄
      have hrows₄ := hrows₃.mono h₄
      cases reply with
      | timeout => exact hrows₄
      | raised => exact hrows₄
      | ok resolved =>
        simp only [EnrichTask.putMany]
        apply TimedSat.ask
        · intro t ht
          refine StoresAnswered.mono (w := u₄) (fun x hx => ?_) ht
          obtain hx | ⟨k, hk, hx⟩ := Assoc.mem_collect hx
          · cases hx
          · obtain ⟨a, ha, rfl⟩ := Option.map_eq_some_iff.1 hx
            obtain ⟨⟨b, hb, hanswer⟩, -⟩ := hheard resolved rfl k a ha
            exact ⟨⟨c.call.policy.version, rfl, hc.admits hrule (howned k hk), rule,
              hc.policy.symm ▸ hrule, caps, hcaps, rfl, rfl⟩, b, h₄.answered hb, hanswer⟩
        intro t₅ h₅ _ _ u₅ _ h₅'
        have hle := (h₄.trans h₅).trans h₅'
        apply RowsTook.collect (hrows₃.mono hle) hrule
        intro k _ p hp
        obtain ⟨a, ha, rfl⟩ := Option.map_eq_some_iff.1 hp
        exact ⟨rfl, (hheard resolved rfl k a ha).2.mono hle⟩

theorem resolveKeys_took (hc : d.Conforms c.call) (hrule : rule ∈ c.call.policy.remoteRules)
    {ks : List String} (hks : ∀ k ∈ ks, k ∈ d.keys) {st : RemoteState}
    (hrows : RowsTook d c st.rows w) (deadline : Rat)
    (hcaps : d.registry rule.enricher = some caps) :
    TimedSat d c (Turn.Took d c)
      (resolveKeys d.lib c.call deadline caps rule ks st) w := by
  rw [resolveKeys, EnrichTask.getMany]
  have hback : ∀ k ∈ ks.map (c.call.cacheKey d.lib rule),
      keyOfCache (c.call.cacheKey d.lib rule) ks k ∈ d.keys ∧
        c.call.cacheKey d.lib rule (keyOfCache (c.call.cacheKey d.lib rule) ks k) = k := by
    intro k hk
    exact ⟨hks _ (keyOfCache_mem hk), cacheKey_keyOfCache hk⟩
  generalize hasked : ks.map (fun k => (c.call.cacheKey d.lib rule k, c.call.question rule
      (keyOfCache (c.call.cacheKey d.lib rule) ks (c.call.cacheKey d.lib rule k)))) = asked
  have hfst : asked.map Prod.fst = ks.map (c.call.cacheKey d.lib rule) := by
    rw [← hasked, List.map_map]
    rfl
  have hlookup : ∀ k ∈ ks.map (c.call.cacheKey d.lib rule), asked.lookup k =
      some (c.call.question rule (keyOfCache (c.call.cacheKey d.lib rule) ks k)) := by
    intro k hk
    have hgraph : asked = (ks.map (c.call.cacheKey d.lib rule)).map (fun k =>
        (k, c.call.question rule (keyOfCache (c.call.cacheKey d.lib rule) ks k))) := by
      rw [← hasked, List.map_map]
      rfl
    rw [hgraph]
    exact List.lookup_graph _ hk
  apply TimedSat.ask
  · exact fun _ _ => trivial
  intro t₁ h₁ hI cached u₁ hr h₁'
  obtain ⟨up, rfl, rfl⟩ := hr
  have hrows₁ : RowsTook d c (Assoc.collect (fun p => some ((rule.ruleId,
      keyOfCache (c.call.cacheKey d.lib rule) ks p.1), p.2)) st.rows
        (t₁.look c.worker asked up).1) (t₁.read c.worker asked up) := by
    apply RowsTook.collect (hrows.mono (h₁.trans h₁')) hrule
    intro hit hhit p hp
    rw [Option.some.injEq] at hp
    subst hp
    obtain ⟨hk, expires, e, ha, hlive, hentry⟩ := hI.look hhit
    rw [hfst] at hk
    obtain ⟨hin, hkey⟩ := hback hit.1 hk
    rw [← hkey] at hentry
    have hbacked := (hc.backed hrule hin hI hentry hlive).mono h₁'
    rw [← ha] at hbacked
    have hfound : (c.call.question rule (keyOfCache (c.call.cacheKey d.lib rule) ks hit.1), hit.2) ∈
        TimedWorld.found asked (t₁.look c.worker asked up).1 :=
      List.mem_filterMap.2 ⟨hit, hhit, by rw [hlookup hit.1 hk, Option.map_some]⟩
    refine ⟨rfl, _, ?_, rfl, (hrows.mono h₁).start, rfl, rfl, hbacked⟩
    exact List.mem_append_right _ (List.mem_map.2 ⟨_, hfound, rfl⟩)
  have hmissing : ∀ k ∈ (t₁.look c.worker asked up).2.1.map
      (keyOfCache (c.call.cacheKey d.lib rule) ks), k ∈ d.keys := by
    intro k hk
    obtain ⟨j, hj, rfl⟩ := List.mem_map.1 hk
    have hj := getMany_missing hj
    rw [hfst] at hj
    exact (hback j hj).1
  dsimp only
  split
  · exact hrows₁
  · simp only [EnrichTask.clock]
    apply TimedSat.ask
    · exact fun _ _ => trivial
    intro t₂ h₂ _ now u₂ _ h₂'
    have hrows₂ := hrows₁.mono (h₂.trans h₂')
    split
    · exact hrows₂
    · apply Dialog.Sat.bind
      have hinit : OwnedTook d c (Assoc.collect (fun p => some ((rule.ruleId,
          keyOfCache (c.call.cacheKey d.lib rule) ks p.1), p.2)) st.rows
            (t₁.look c.worker asked up).1, []) u₂ :=
        ⟨hrows₂, fun k hk => absurd hk List.not_mem_nil⟩
      apply Dialog.Sat.weaken
        (Dialog.Sat.fold (fun acc k s' hk hacc => acquire_took hc hrule hacc
          (hmissing k hk)) hinit)
      intro acc s' hacc
      split
      · exact hacc.1
      · exact resolveOwned_took hc hrule hacc hcaps

theorem resolveRemoteRule_took (hc : d.Conforms c.call) (hrule : rule ∈ c.call.policy.remoteRules)
    {st : RemoteState} (hrows : RowsTook d c st.rows w) (deadline : Rat) :
    TimedSat d c (Turn.Took d c)
      (resolveRemoteRule d.lib d.registry c.call deadline st rule) w := by
  rw [resolveRemoteRule]
  split
  · exact hrows
  · cases hcaps : d.registry rule.enricher with
    | none => exact hrows
    | some caps =>
      cases hkeys : distinctKeys d.lib c.call.batch rule with
      | error e => exact trivial
      | ok ks =>
        dsimp only
        split
        · exact hrows
        · exact resolveKeys_took hc hrule (hc.keys rule hrule ks hkeys) hrows deadline hcaps

theorem resolveRemoteRules_took (hc : d.Conforms c.call) {rules : List CompiledEnrichRule}
    (hrules : rules ⊆ c.call.policy.remoteRules) {st : RemoteState}
    (hrows : RowsTook d c st.rows w) (deadline : Rat) :
    TimedSat d c (ResultTook d c)
      (resolveRemoteRules d.lib d.registry c.call deadline rules st) w := by
  induction rules generalizing st w with
  | nil =>
    intro st' hst
    cases hst
    exact hrows
  | cons rule rules ih =>
    obtain ⟨hrule, hrest⟩ := List.cons_subset.1 hrules
    rw [resolveRemoteRules]
    apply Dialog.Sat.bind
    apply (resolveRemoteRule_took hc hrule hrows deadline).weaken
    intro turn s' hturn
    cases turn with
    | next st' => exact ih hrest hturn
    | stop st' =>
      intro st'' hst
      cases hst
      exact hturn
    | raised =>
      intro st'' hst
      cases hst

theorem resolveRemote_took (hc : d.Conforms c.call) (hstart : c.start ≤ w.now) :
    TimedSat d c (ResultTook d c) (resolveRemote d.lib d.registry c.call)
      w := by
  have hnil : RowsTook d c [] w := ⟨hstart, fun p hp => absurd hp List.not_mem_nil⟩
  rw [resolveRemote]
  split
  · intro st hst
    cases hst
    exact hnil
  · simp only [EnrichTask.clock]
    apply TimedSat.ask
    · exact fun _ _ => trivial
    intro t ht _ now u _ hu
    exact resolveRemoteRules_took hc (List.Subset.refl _) (hnil.mono (ht.trans hu)) _

end Program

section Runs
variable (d : RemoteSetup)

theorem initial_fresh : TimedWorld.Fresh d {} where
  l1 _ _ hp := nomatch hp
  l2 _ hp := nomatch hp
  answered _ ha := nomatch ha
  stored _ hs := nomatch hs

theorem timed_sound {x : TimedCrew} (h : Crew.Reaches d.rules TimedCrew.initial x) :
    Crew.Sound d.rules TimedWorld.Later (TimedWorld.Fresh d) (ResultTook d) x := by
  refine Crew.Reaches.sound ?_ ?_ ?_ ?_ ?_ h ⟨initial_fresh d, fun i c t hi => nomatch hi⟩
  · exact fun _ _ _ => TimedWorld.Later.trans
  · intro c result s t hresult hle st hst
    exact (hresult st hst).mono hle
  · exact TimedWorld.Later.refl
  · rintro w i c _ ⟨rfl, hstart, hc⟩
    exact resolveRemote_took hc (le_of_eq hstart)
  · exact fun w u hw hmove => ⟨TimedWorld.Moves.fresh hw hmove, hmove.later⟩

/-- A row of a finished call is an answer that its provider gave for the key in that call, or
gave some time before it was stored; and since then its TTL has not passed. -/
theorem rows_fresh {x : TimedCrew} (h : Crew.Reaches d.rules TimedCrew.initial x)
    {c : TimedCall} {st : RemoteState} (hdone : x.running i = some (c, .done (some st)))
    {rule : CompiledEnrichRule} (hrule : rule ∈ c.call.policy.remoteRules)
    (hrow : ((rule.ruleId, key), a) ∈ st.rows) :
    x.shared.Took d c (c.call.question rule key) a := by
  have hresult := (timed_sound d h).2 i c _ hdone
  obtain ⟨rule', hrule', hid, htook⟩ := (hresult st rfl).took _ hrow
  rw [c.call.policy.remote_unique hrule' hrule hid.symm] at htook
  exact htook

end Runs

def timedReply (worker : Nat) (w : TimedWorld) : (q : EnrichAsk) → EnrichReply q × TimedWorld
  | .clock => (w.now, w)
  | .getMany asked =>
    (((w.look worker asked true).1, (w.look worker asked true).2.1), w.read worker asked true)
  | .lock _ => (true, w)
  | .wait _ _ => (none, w)
  | .unlock _ => ((), w)
  | .breaker _ => (false, w)
  | .source _ => (.ok, w)
  | .resolve _ origin asked =>
    let resolved := asked.map (fun k => (k, feedAnswer origin k))
    (.ok resolved, w.hear worker origin resolved)
  | .putMany stored ttl negativeTtl => ((), w.put 10000 worker stored ttl negativeTtl true)

theorem timedReply_answers (worker : Nat) (w : TimedWorld) (q : EnrichAsk) :
    TimedWorld.Answers 10000 worker w q (timedReply worker w q).1 (timedReply worker w q).2 := by
  cases q with
  | clock => exact ⟨rfl, rfl⟩
  | getMany asked => exact ⟨true, rfl, rfl⟩
  | wait key question => exact .inl ⟨rfl, rfl⟩
  | putMany stored ttl negativeTtl => exact ⟨true, rfl⟩
  | _ => rfl

/-- A rule whose answers are kept for two seconds. -/
def briefRule : CompiledEnrichRule := { feedRule "feed-a" with ttl := some 2 }

def briefFeed : RemoteCall := feedCall [briefRule] (by decide)

def briefSetup : RemoteSetup where
  lib := dnsLibrary
  registry := feedRegistry
  maxEntries := 10000
  policies _ _ := briefFeed.policy
  oneSource _ _ rule hrule rule' hrule' _ := by
    have honly : ∀ r ∈ briefFeed.policy.remoteRules, r = briefRule :=
      fun r hr => List.mem_singleton.1 (List.mem_filter.1 hr).1
    rw [honly rule hrule, honly rule' hrule']
    exact ⟨rfl, rfl⟩
  keys := {"8.8.8.8"}
  digest := Set.injOn_singleton _ _

theorem briefFeed_conforms : briefSetup.Conforms briefFeed where
  policy := rfl
  keys rule hrule ks hks k hk := by
    have honly := List.mem_singleton.1 (List.mem_filter.1 hrule).1
    have hdistinct : distinctKeys dnsLibrary briefFeed.batch briefRule = .ok ["8.8.8.8"] := by
      decide +kernel
    rw [honly] at hks
    have hsame := Except.ok.inj (hks.symm.trans hdistinct)
    rw [hsame] at hk
    exact List.mem_singleton.1 hk

namespace TimedCrew

def begin (x : TimedCrew) : TimedCrew :=
  Crew.cue briefSetup.rules timedReply (fun _ _ => true) x (.call 0 ⟨briefFeed, 0, x.shared.now⟩)

def goes (n : Nat) (x : TimedCrew) : TimedCrew :=
  Crew.goes briefSetup.rules timedReply (fun _ _ => true) 0 n x

def pass (seconds : Nat) (x : TimedCrew) : TimedCrew :=
  { x with shared := { x.shared with now := x.shared.now + seconds } }

theorem reaches_begin (x : TimedCrew) : Crew.Reaches briefSetup.rules x x.begin := by
  apply Crew.reaches_cue
  · intro i c h
    cases h
    exact ⟨rfl, rfl, briefFeed_conforms⟩
  · exact fun i s q _ => timedReply_answers i s q

theorem reaches_goes (n : Nat) (x : TimedCrew) : Crew.Reaches briefSetup.rules x (x.goes n) :=
  Crew.reaches_goes (fun i s q _ => timedReply_answers i s q) 0 n x

theorem reaches_pass (seconds : Nat) (x : TimedCrew) :
    Crew.Reaches briefSetup.rules x (x.pass seconds) := by
  apply Relation.ReflTransGen.single
  apply Crew.Step.move
  constructor
  · exact le_add_of_nonneg_right (Nat.cast_nonneg seconds)
  · exact List.Sublist.refl _
  · exact fun worker => .inl rfl
  · rfl
  · rfl
  · rfl

end TimedCrew

/-- A call whose provider answers at once, `gap` seconds before the answer is stored, and a second
call that begins `later` seconds after that. -/
def briefRun (gap later : Nat) : TimedCrew :=
  ((((TimedCrew.initial.begin.goes 7).pass gap).goes 3).pass later).begin.goes 2

theorem briefRun_reaches (gap later : Nat) :
    Crew.Reaches briefSetup.rules TimedCrew.initial (briefRun gap later) :=
  (TimedCrew.reaches_begin _).trans <| (TimedCrew.reaches_goes 7 _).trans <|
    (TimedCrew.reaches_pass gap _).trans <| (TimedCrew.reaches_goes 3 _).trans <|
      (TimedCrew.reaches_pass later _).trans <| (TimedCrew.reaches_begin _).trans <|
        TimedCrew.reaches_goes 2 _

/-- Worker 0 has returned, and a row of it and the rule of the row pass a test. -/
def TimedCrew.returned (x : TimedCrew)
    (p : TimedCall → CompiledEnrichRule → (String × String) × Answer → Bool) : Bool :=
  match x.running 0 with
  | some (c, .done (some st)) =>
    c.call.policy.remoteRules.any (fun rule =>
      st.rows.any (fun row => row.1.1 == rule.ruleId && p c rule row))
  | _ => false

theorem TimedCrew.exists_of_returned {x : TimedCrew}
    {p : TimedCall → CompiledEnrichRule → (String × String) × Answer → Bool}
    (h : x.returned p = true) :
    ∃ c st rule key a, x.running 0 = some (c, .done (some st)) ∧
      rule ∈ c.call.policy.remoteRules ∧ ((rule.ruleId, key), a) ∈ st.rows ∧
        p c rule ((rule.ruleId, key), a) = true := by
  rw [TimedCrew.returned] at h
  split at h
  · next c st hrun =>
    obtain ⟨rule, hrule, hrows⟩ := List.any_eq_true.1 h
    obtain ⟨⟨⟨id, key⟩, a⟩, hrow, htest⟩ := List.any_eq_true.1 hrows
    obtain ⟨hid, hp⟩ := Bool.and_eq_true_iff.1 htest
    obtain rfl := eq_of_beq hid
    exact ⟨c, st, rule, key, a, hrun, hrule, hrow, hp⟩
  · cases h

/-- One second after its answer was stored, a call has its row from the cache. -/
theorem rows_fresh_brief :
    ∃ c st rule key a, (briefRun 0 1).running 0 = some (c, .done (some st)) ∧
      rule ∈ c.call.policy.remoteRules ∧ ((rule.ruleId, key), a) ∈ st.rows ∧
        (briefRun 0 1).shared.Took briefSetup c (c.call.question rule key) a := by
  have hreturned : (briefRun 0 1).returned (fun _ _ _ => true) = true := by decide +kernel
  obtain ⟨c, st, rule, key, a, hdone, hrule, hrow, -⟩ := TimedCrew.exists_of_returned hreturned
  exact ⟨c, st, rule, key, a, hdone, hrule, hrow,
    rows_fresh briefSetup (briefRun_reaches 0 1) hdone hrule hrow⟩

def tooOld (x : TimedCrew) (c : TimedCall) (rule : CompiledEnrichRule)
    (row : (String × String) × Answer) : Bool :=
  (feedRegistry rule.enricher).all (fun caps => x.shared.answered.all (fun b =>
    decide (b.time + (max (rule.ttlFor caps row.2) 1 : Nat) < c.start)))

/-- An answer that is stored five seconds after the provider gave it is used six seconds after,
with a TTL of two. -/
theorem row_older_than_ttl :
    ∃ x : TimedCrew, Crew.Reaches briefSetup.rules TimedCrew.initial x ∧
      ∃ c st rule key a, x.running 0 = some (c, .done (some st)) ∧
        rule ∈ c.call.policy.remoteRules ∧ ((rule.ruleId, key), a) ∈ st.rows ∧
          ∀ caps, briefSetup.registry rule.enricher = some caps → ∀ b ∈ x.shared.answered,
            b.time + (max (rule.ttlFor caps a) 1 : Nat) < c.start := by
  have hreturned : (briefRun 5 1).returned (tooOld (briefRun 5 1)) = true := by decide +kernel
  obtain ⟨c, st, rule, key, a, hdone, hrule, hrow, hold⟩ := TimedCrew.exists_of_returned hreturned
  refine ⟨briefRun 5 1, briefRun_reaches 5 1, c, st, rule, key, a, hdone, hrule, hrow, ?_⟩
  intro caps hcaps b hb
  rw [tooOld, show feedRegistry rule.enricher = some caps from hcaps, Option.all_some] at hold
  exact of_decide_eq_true (List.all_eq_true.1 hold b hb)

end CentralOps
