import CentralOps.Lib.Rely
import CentralOps.Inflight.Sequence

namespace CentralOps
set_option autoImplicit true

/-- A pipeline that neither touches the legs nor decides on a key. -/
def InflightAsk.quiet : InflightAsk → Bool
  | .clock | .readSeen _ _ | .writeSeen _ _ _ _ | .bumpWindows _ | .readWindows _ => true
  | _ => false

namespace InflightAccumulator
variable {acc : InflightAccumulator}

theorem foldl_pending {f : InflightAccumulator → α → InflightAccumulator}
    (hf : ∀ acc a, (f acc a).pending = acc.pending) (as : List α) (acc : InflightAccumulator) :
    (as.foldl f acc).pending = acc.pending := by
  induction as generalizing acc with
  | nil => rfl
  | cons a as ih => exact (ih (f acc a)).trans (hf acc a)

theorem countRefused_pending (cfg : InflightSettings) (acc out : InflightAccumulator)
    (view : SeenView) : (acc.countRefused cfg view out).pending = out.pending := by
  apply foldl_pending
  intro out p
  by_cases h : (acc.admitted cfg view p.1).2 = 0
  · simp only [h, if_true]
  · simp only [h, if_false]
    rfl

theorem countUnavailable_pending (acc out : InflightAccumulator) :
    (acc.countUnavailable out).pending = out.pending := by
  apply foldl_pending
  exact fun _ _ => rfl

theorem applyAbsencePresence_asks (cfg : InflightSettings) (org : Int)
    (acc : InflightAccumulator) :
    (acc.applyAbsencePresence cfg org).Asks (fun q => q.quiet = true) := by
  rw [applyAbsencePresence]
  apply Dialog.Asks.query
  · rfl
  intro now
  by_cases hr : acc.watchedRules = []
  · rw [if_pos hr]
    exact Dialog.asks_pure _
  · rw [if_neg hr]
    apply Dialog.Asks.query
    · rfl
    intro read
    cases read with
    | none => exact Dialog.asks_pure _
    | some view =>
      apply Dialog.Asks.query
      · rfl
      intro written
      cases written <;> exact Dialog.asks_pure _

theorem applyAbsencePresence_returns (cfg : InflightSettings) (org : Int)
    (acc : InflightAccumulator) :
    (acc.applyAbsencePresence cfg org).Returns
      (fun out => out.pending = acc.withoutPresences.pending) := by
  rw [applyAbsencePresence]
  apply Dialog.Returns.query
  intro now
  by_cases hr : acc.watchedRules = []
  · rw [if_pos hr]
    exact rfl
  · rw [if_neg hr]
    apply Dialog.Returns.query
    intro read
    cases read with
    | none => exact acc.countUnavailable_pending _
    | some view =>
      apply Dialog.Returns.query
      intro written
      cases written with
      | none => exact (acc.countUnavailable_pending _).trans (acc.countRefused_pending cfg _ view)
      | some _ => exact acc.countRefused_pending cfg _ view

theorem get?_foldl_others {f : InflightAccumulator → String × PendingItem → InflightAccumulator}
    (hf : ∀ acc e k, k ≠ e.1 → (f acc e).pending.get? k = acc.pending.get? k)
    (entries : List (String × PendingItem)) (acc : InflightAccumulator)
    (hk : k ∉ entries.map Prod.fst) :
    (entries.foldl f acc).pending.get? k = acc.pending.get? k := by
  induction entries generalizing acc with
  | nil => rfl
  | cons e entries ih =>
    rw [List.map_cons, List.mem_cons, not_or] at hk
    exact (ih (f acc e) hk.2).trans (hf acc e k hk.1)

theorem get?_discard_others (reason : ErrorReason) (entries : List (String × PendingItem))
    (acc : InflightAccumulator) (hk : k ∉ entries.map Prod.fst) :
    (acc.discard reason entries).pending.get? k = acc.pending.get? k := by
  apply get?_foldl_others _ entries acc hk
  intro acc e k hne
  rw [get?_drop, if_neg hne]
  rfl

theorem get?_settleWindow_others (totals : String → Nat) (acc : InflightAccumulator)
    (e : String × PendingItem) (h : k ≠ e.1) :
    (settleWindow totals acc e).pending.get? k = acc.pending.get? k := by
  rw [settleWindow]
  by_cases hbelow : (totals e.1 : Int) < e.2.rule.minCount
  · rw [if_pos hbelow, get?_drop, if_neg h]
    rfl
  · rw [if_neg hbelow, get?_amend, if_neg h]

theorem applyWindows_asks (items : List (String × PendingItem)) :
    (applyWindows items).Asks (fun q => q.quiet = true) := by
  rw [applyWindows]
  apply Dialog.Asks.query
  · rfl
  intro now
  apply Dialog.Asks.query
  · rfl
  intro bumped
  cases bumped with
  | none => exact Dialog.asks_pure _
  | some _ =>
    apply Dialog.Asks.query
    · rfl
    intro read
    cases read <;> exact Dialog.asks_pure _

theorem applySlidingWindows_asks (acc : InflightAccumulator) :
    acc.applySlidingWindows.Asks (fun q => q.quiet = true) := by
  rw [applySlidingWindows]
  by_cases ht : acc.targets (fun rule => rule.windowed) = []
  · rw [if_pos ht]
    exact Dialog.asks_pure _
  · rw [if_neg ht]
    apply (applyWindows_asks _).bind
    intro totals
    cases totals <;> exact Dialog.asks_pure _

/-- `_apply_sliding_windows` leaves the keys of rules without a window. -/
theorem applySlidingWindows_returns (acc : InflightAccumulator) :
    acc.applySlidingWindows.Returns (fun out => ∀ k item, acc.pending.get? k = some item →
      item.rule.windowed = false → out.pending.get? k = some item) := by
  rw [applySlidingWindows]
  by_cases ht : acc.targets (fun rule => rule.windowed) = []
  · rw [if_pos ht]
    exact fun k item hget _ => hget
  · rw [if_neg ht]
    have hother : ∀ k item, acc.pending.get? k = some item → item.rule.windowed = false →
        k ∉ (acc.targets (fun rule => rule.windowed)).map Prod.fst := by
      intro k item hget hwin hk
      obtain ⟨e, he, rfl⟩ := List.mem_map.1 hk
      obtain ⟨hget', hwin'⟩ := mem_targets.1 he
      rw [hget, Option.some.injEq] at hget'
      rw [← hget', hwin] at hwin'
      cases hwin'
    have hany : (applyWindows (acc.targets (fun rule => rule.windowed))).Returns
        (fun _ => True) := Dialog.returns_true _
    apply hany.bind
    intro totals _
    cases totals with
    | none =>
      intro k item hget hwin
      exact (get?_discard_others _ _ acc (hother k item hget hwin)).trans hget
    | some totals =>
      intro k item hget hwin
      rw [get?_foldl_others (fun acc e k hne => get?_settleWindow_others totals acc e hne) _ acc
        (hother k item hget hwin), hget]

end InflightAccumulator

structure LegSighting where
  id : Nat
  key : String
  index : Nat
  pointer : Obj
  deriving DecidableEq

def evidenceLists (evidence : Obj) (index : Nat) (pointer : Obj) : Bool :=
  match evidence.getN "legs" with
  | .list legs => decide (Json.obj (Assoc.set "leg_index" (.int index) pointer) ∈ legs)
  | _ => false

def RecordCall.lists (call : RecordCall) (s : LegSighting) : Bool :=
  decide (call.dedupKey = s.key) && evidenceLists call.evidence s.index s.pointer

structure CustodyWorld where
  now : Rat := 0
  legs : HashStore String Nat LegSighting := fun _ => none
  written : List LegSighting := []
  /-- With the later sighting that took the field. -/
  superseded : List (LegSighting × LegSighting) := []
  expired : List LegSighting := []
  /-- What each worker has deleted and not yet recorded. -/
  dropped : Nat → List LegSighting := fun _ => []
  cut : List LegSighting := []
  recorded : List RecordCall := []

namespace CustodyWorld

def sightings : Option (ExpiringHash Nat LegSighting) → List LegSighting
  | some h => h.fields.entries.map Prod.snd
  | none => []

/-- The legs of a hash that has expired. -/
def lapsed (w : CustodyWorld) (key : String) : List LegSighting :=
  if (w.legs.live w.now key).isSome then [] else sightings (w.legs key)

def legState (w : CustodyWorld) (key : String) : List (Nat × Obj) :=
  (w.legs.hgetall w.now key).entries.map (fun p => (p.1, p.2.pointer))

def putField (key : String) (w : CustodyWorld) (p : Nat × Obj) : CustodyWorld :=
  let s : LegSighting := ⟨w.written.length, key, p.1, p.2⟩
  let found := ((w.legs.hgetall w.now key).get? p.1).toList
  { w with
    legs := w.legs.hset w.now key [(p.1, s)]
    written := w.written ++ [s]
    superseded := w.superseded ++ found.map (fun old => (old, s))
    expired := w.expired ++ w.lapsed key }

def putWrite (w : CustodyWorld) (x : LegWrite) : CustodyWorld :=
  let w := x.legs.foldl (putField x.key) w
  { w with legs := w.legs.expire w.now x.key x.ttl }

def dropKey (i : Nat) (w : CustodyWorld) (key : String) : CustodyWorld :=
  let gone := sightings (w.legs.live w.now key)
  { w with
    legs := w.legs.del key
    dropped := Function.update w.dropped i (w.dropped i ++ gone)
    expired := w.expired ++ w.lapsed key }

def cutKeys (i : Nat) (w : CustodyWorld) (keys : List String) : CustodyWorld :=
  { w with
    dropped := Function.update w.dropped i ((w.dropped i).filter (fun s => s.key ∉ keys))
    cut := w.cut ++ (w.dropped i).filter (fun s => s.key ∈ keys) }

def record (i : Nat) (w : CustodyWorld) (call : RecordCall) : CustodyWorld :=
  { w with
    recorded := w.recorded ++ [call]
    dropped := Function.update w.dropped i ((w.dropped i).filter (fun s => !call.lists s)) }

/-- The deletion of closed keys finds only legs that were read. -/
def OnlyRead (w : CustodyWorld) (closed : List (String × List (Nat × Obj))) : Prop :=
  ∀ c ∈ closed, ∀ s ∈ sightings (w.legs.live w.now c.1), (s.index, s.pointer) ∈ c.2

/-- Redis and the database, which succeed, for one worker. -/
def Answers (allowed : CustodyWorld → List (String × List (Nat × Obj)) → Prop) (i : Nat)
    (w : CustodyWorld) : (q : InflightAsk) → InflightReply q → CustodyWorld → Prop
  | .writeLegs writes, r, w' => r = some () ∧ w' = writes.foldl putWrite w
  | .readLegs _, r, w' => r = some w.legState ∧ w' = w
  | .dropLegs closed, r, w' =>
    allowed w closed ∧ r = some () ∧ w' = (closed.map Prod.fst).foldl (dropKey i) w
  | .warnFlushCap keys, _, w' => w' = cutKeys i w keys
  | .openSession, r, w' => r = some () ∧ w' = w
  | .closeSession, r, w' => r = some () ∧ w' = w
  | .record call, r, w' => r.isSome = true ∧ w' = record i w call
  | _, _, w' => w' = w

/-- The sighting is in the hash of its key or has expired there, a later sighting of the same leg
has taken its place, or a recorded detection lists it. -/
inductive Traceable (w : CustodyWorld) (s : LegSighting) : Prop
  | stored : s ∈ sightings (w.legs s.key) → Traceable w s
  | superseded {later} : (s, later) ∈ w.superseded → later.key = s.key → later.index = s.index →
      s.id < later.id → Traceable w s
  | expired : s ∈ w.expired → Traceable w s
  | recorded {call} : call ∈ w.recorded → call.lists s = true → Traceable w s

/-- Or the cap has cut its key after the key was closed. -/
def Settled (w : CustodyWorld) (s : LegSighting) : Prop := w.Traceable s ∨ s ∈ w.cut

/-- Every sighting is settled, or in the hands of a worker. -/
structure Custody (w : CustodyWorld) : Prop where
  named : w.legs.Holds (fun key i s => s.key = key ∧ s.index = i ∧ s.id < w.written.length)
  kept : ∀ s ∈ w.written, w.Settled s ∨ ∃ i, s ∈ w.dropped i

variable {w w' : CustodyWorld} {s : LegSighting}

theorem mem_sightings {o : Option (ExpiringHash Nat LegSighting)} :
    s ∈ sightings o ↔ ∃ h f, o = some h ∧ h.fields.get? f = some s := by
  cases o with
  | none => simp [sightings]
  | some h =>
    rw [sightings, List.mem_map]
    constructor
    · rintro ⟨e, he, rfl⟩
      exact ⟨h, e.1, rfl, (h.fields.mem_entries_iff).1 he⟩
    · rintro ⟨h', f, heq, hget⟩
      cases heq
      exact ⟨(f, s), (h.fields.mem_entries_iff).2 hget, rfl⟩

theorem mem_lapsed (h : s ∈ sightings (w.legs key)) (hlive : w.legs.live w.now key = none) :
    s ∈ w.lapsed key := by
  rw [lapsed, hlive]
  exact h

theorem live_eq (h : w.legs.live w.now key = some x) : w.legs key = some x :=
  HashStore.live_eq_some h

theorem Settled.move (h : w.Settled s)
    (hstored : s ∈ sightings (w.legs s.key) → w'.Settled s)
    (hsuperseded : ∀ p ∈ w.superseded, p ∈ w'.superseded)
    (hexpired : ∀ t ∈ w.expired, t ∈ w'.expired) (hcut : ∀ t ∈ w.cut, t ∈ w'.cut)
    (hrecorded : ∀ c ∈ w.recorded, c ∈ w'.recorded) : w'.Settled s := by
  obtain h | hin := h
  · cases h with
    | stored hin => exact hstored hin
    | superseded hin hkey hindex hid => exact .inl (.superseded (hsuperseded _ hin) hkey hindex hid)
    | expired hin => exact .inl (.expired (hexpired s hin))
    | recorded hin hlists => exact .inl (.recorded (hrecorded _ hin) hlists)
  · exact .inr (hcut s hin)

/-- A field of a key takes the place of a live one, or finds a hash that has expired. -/
theorem putField_stored (hw : w.Custody) (key : String) (p : Nat × Obj)
    (h : s ∈ sightings (w.legs s.key)) : (putField key w p).Settled s := by
  by_cases hk : s.key = key
  · subst hk
    obtain ⟨x, f, hx, hget⟩ := mem_sightings.1 h
    obtain ⟨-, hindex, hid⟩ := hw.named s.key x hx f s hget
    subst hindex
    cases hl : w.legs.live w.now s.key with
    | none => exact .inl (.expired (List.mem_append_right _ (mem_lapsed h hl)))
    | some y =>
      have hy : x = y := Option.some.inj (hx.symm.trans (live_eq hl))
      subst hy
      have hread : w.legs.hgetall w.now s.key = x.fields := by rw [HashStore.hgetall, hl]
      by_cases hf : s.index = p.1
      · apply Or.inl
        apply Traceable.superseded
        · apply List.mem_append_right
          rw [hread, ← hf, hget]
          exact List.mem_singleton_self _
        · rfl
        · rfl
        · exact hid
      · apply Or.inl
        apply Traceable.stored
        rw [mem_sightings]
        refine ⟨_, s.index, Function.update_self .., ?_⟩
        rw [Dict.get?_update_of_notMem, hread, hget]
        simpa using hf
  · apply Or.inl
    apply Traceable.stored
    simp only [putField, HashStore.hset_ne hk]
    exact h

theorem Custody.putField (hw : w.Custody) (key : String) (p : Nat × Obj) :
    (putField key w p).Custody where
  named := by
    have hlength : (CustodyWorld.putField key w p).written.length = w.written.length + 1 := by
      rw [CustodyWorld.putField, List.length_append]
      rfl
    have hold : w.legs.Holds (fun k f t => t.key = k ∧ t.index = f ∧
        t.id < (CustodyWorld.putField key w p).written.length) := by
      refine hw.named.mono (fun k f t ht => ⟨ht.1, ht.2.1, ?_⟩)
      rw [hlength]
      exact ht.2.2.trans (Nat.lt_succ_self _)
    have hnew : ∀ e ∈ [(p.1, (⟨w.written.length, key, p.1, p.2⟩ : LegSighting))],
        e.2.key = key ∧ e.2.index = e.1 ∧
          e.2.id < (CustodyWorld.putField key w p).written.length := by
      intro e he
      obtain rfl := List.mem_singleton.1 he
      rw [hlength]
      exact ⟨rfl, rfl, Nat.lt_succ_self _⟩
    exact hold.hset w.now hnew
  kept s hs := by
    obtain hold | hnew := List.mem_append.1 hs
    · apply (hw.kept s hold).imp_left
      intro h
      apply h.move (putField_stored hw key p)
      · exact fun p hp => List.mem_append_left _ hp
      · exact fun t ht => List.mem_append_left _ ht
      · exact fun t ht => ht
      · exact fun c hc => hc
    · obtain rfl := List.mem_singleton.1 hnew
      apply Or.inl
      apply Or.inl
      apply Traceable.stored
      rw [mem_sightings]
      exact ⟨_, p.1, Function.update_self .., Dict.get?_set_self ..⟩

theorem Custody.expire (hw : w.Custody) (key : String) (ttl : Rat) :
    ({ w with legs := w.legs.expire w.now key ttl } : CustodyWorld).Custody where
  named := hw.named.expire w.now key ttl
  kept s hs := by
    apply (hw.kept s hs).imp_left
    intro h
    refine h.move (fun hin => ?_) (fun p hp => hp) (fun t ht => ht) (fun t ht => ht)
      (fun c hc => hc)
    apply Or.inl
    apply Traceable.stored
    change s ∈ sightings (w.legs.expire w.now key ttl s.key)
    by_cases hk : s.key = key
    · subst hk
      rw [HashStore.expire]
      cases hl : w.legs.live w.now s.key with
      | none => exact hin
      | some x =>
        rw [live_eq hl] at hin
        obtain ⟨y, f, hy, hget⟩ := mem_sightings.1 hin
        cases hy
        exact mem_sightings.2 ⟨_, f, Function.update_self .., hget⟩
    · rw [HashStore.expire_ne hk]
      exact hin

theorem Custody.putWrites (hw : w.Custody) (writes : List LegWrite) :
    (writes.foldl putWrite w).Custody := by
  refine List.foldlRecOn _ _ hw (fun u hu x _ => ?_)
  apply Custody.expire
  exact List.foldlRecOn _ _ hu (fun v hv p _ => hv.putField x.key p)

theorem dropKey_self (i : Nat) (w : CustodyWorld) (key : String) :
    (dropKey i w key).dropped i = w.dropped i ++ sightings (w.legs.live w.now key) :=
  Function.update_self ..

theorem dropKey_other (h : j ≠ i) (w : CustodyWorld) (key : String) :
    (dropKey i w key).dropped j = w.dropped j :=
  Function.update_of_ne h ..

theorem Custody.dropKey (hw : w.Custody) (i : Nat) (key : String) :
    (dropKey i w key).Custody where
  named := hw.named.del key
  kept s hs := by
    obtain h | ⟨j, hj⟩ := hw.kept s hs
    · by_cases hgone : s.key = key ∧ s ∈ sightings (w.legs.live w.now key)
      · apply Or.inr
        refine ⟨i, ?_⟩
        rw [dropKey_self]
        exact List.mem_append_right _ hgone.2
      · apply Or.inl
        refine h.move (fun hin => ?_) (fun p hp => hp) (fun t ht => List.mem_append_left _ ht)
          (fun t ht => ht) (fun c hc => hc)
        by_cases hk : s.key = key
        · subst hk
          cases hl : w.legs.live w.now s.key with
          | none => exact .inl (.expired (List.mem_append_right _ (mem_lapsed hin hl)))
          | some x =>
            rw [live_eq hl] at hin
            rw [hl] at hgone
            exact absurd ⟨rfl, hin⟩ hgone
        · apply Or.inl
          apply Traceable.stored
          simp only [CustodyWorld.dropKey, HashStore.del_ne hk]
          exact hin
    · apply Or.inr
      refine ⟨j, ?_⟩
      by_cases hji : j = i
      · subst hji
        rw [dropKey_self]
        exact List.mem_append_left _ hj
      · rw [dropKey_other hji]
        exact hj

theorem Custody.dropKeys (hw : w.Custody) (i : Nat) (keys : List String) :
    (keys.foldl (CustodyWorld.dropKey i) w).Custody :=
  List.foldlRecOn _ _ hw (fun _ hu key _ => hu.dropKey i key)

/-- What a worker holds may pass on, where it is settled instead. -/
theorem Custody.pass (hw : w.Custody) (i : Nat) (held cut : List LegSighting)
    (recorded : List RecordCall)
    (hpass : ∀ s ∈ w.dropped i, s ∈ held ∨ s ∈ cut ∨ ∃ c ∈ recorded, c.lists s = true) :
    ({ w with
      dropped := Function.update w.dropped i held
      cut := w.cut ++ cut
      recorded := w.recorded ++ recorded } : CustodyWorld).Custody where
  named := hw.named
  kept s hs := by
    obtain h | ⟨j, hj⟩ := hw.kept s hs
    · apply Or.inl
      exact h.move (fun hin => .inl (.stored hin)) (fun p hp => hp) (fun t ht => ht)
        (fun t ht => List.mem_append_left _ ht) (fun c hc => List.mem_append_left _ hc)
    · by_cases hji : j = i
      · subst hji
        obtain hheld | hcut | ⟨c, hc, hlists⟩ := hpass s hj
        · apply Or.inr
          refine ⟨j, ?_⟩
          simp only [Function.update_self]
          exact hheld
        · exact .inl (.inr (List.mem_append_right _ hcut))
        · exact .inl (.inl (.recorded (List.mem_append_right _ hc) hlists))
      · apply Or.inr
        refine ⟨j, ?_⟩
        simp only [Function.update_of_ne hji]
        exact hj

theorem Custody.cutKeys (hw : w.Custody) (i : Nat) (keys : List String) :
    (cutKeys i w keys).Custody := by
  have h := hw.pass i ((w.dropped i).filter (fun s => s.key ∉ keys))
    ((w.dropped i).filter (fun s => s.key ∈ keys)) [] (fun s hs => by
      by_cases hk : s.key ∈ keys
      · exact .inr (.inl (List.mem_filter.2 ⟨hs, decide_eq_true hk⟩))
      · exact .inl (List.mem_filter.2 ⟨hs, decide_eq_true hk⟩))
  simpa only [CustodyWorld.cutKeys, List.append_nil] using h

theorem Custody.record (hw : w.Custody) (i : Nat) (call : RecordCall) :
    (record i w call).Custody := by
  have h := hw.pass i ((w.dropped i).filter (fun s => !call.lists s)) [] [call] (fun s hs => by
    by_cases hl : call.lists s = true
    · exact .inr (.inr ⟨call, List.mem_singleton_self call, hl⟩)
    · exact .inl (List.mem_filter.2 ⟨hs, by simpa using hl⟩))
  simpa only [CustodyWorld.record, List.append_nil] using h

/-- What another worker leaves alone. -/
def SameHands (i : Nat) (w w' : CustodyWorld) : Prop := w'.dropped i = w.dropped i

def OtherHands (i : Nat) (w w' : CustodyWorld) : Prop := ∀ j, j ≠ i → SameHands j w w'

theorem dropped_putWrites (w : CustodyWorld) (writes : List LegWrite) :
    (writes.foldl putWrite w).dropped = w.dropped := by
  induction writes generalizing w with
  | nil => rfl
  | cons x writes ih =>
    have hfields : (x.legs.foldl (putField x.key) w).dropped = w.dropped := by
      generalize x.legs = legs
      induction legs generalizing w with
      | nil => rfl
      | cons p legs ih' => exact ih' (putField x.key w p)
    exact (ih (putWrite w x)).trans hfields

theorem dropped_dropKeys (w : CustodyWorld) (i : Nat) (keys : List String)
    (h : s ∈ (keys.foldl (dropKey i) w).dropped i) :
    s ∈ w.dropped i ∨ ∃ key ∈ keys, s ∈ sightings (w.legs.live w.now key) := by
  induction keys generalizing w with
  | nil => exact .inl h
  | cons key keys ih =>
    obtain hin | ⟨key', hkey', hin⟩ := ih (dropKey i w key) h
    · rw [dropKey_self] at hin
      obtain hold | hnew := List.mem_append.1 hin
      · exact .inl hold
      · exact .inr ⟨key, List.mem_cons_self, hnew⟩
    · by_cases hk : key' = key
      · subst hk
        obtain ⟨x, f, hx, -⟩ := mem_sightings.1 hin
        have hnone : (dropKey i w key').legs key' = none := HashStore.del_self w.legs key'
        rw [live_eq hx] at hnone
        cases hnone
      · apply Or.inr
        refine ⟨key', List.mem_cons_of_mem key hkey', ?_⟩
        have hsame : (dropKey i w key).legs.live w.now key' = w.legs.live w.now key' :=
          HashStore.live_congr (HashStore.del_ne hk)
        rw [← hsame]
        exact hin

theorem otherHands_dropKeys (w : CustodyWorld) (i : Nat) (keys : List String) :
    OtherHands i w (keys.foldl (dropKey i) w) := by
  intro j hj
  induction keys generalizing w with
  | nil => rfl
  | cons key keys ih => exact (ih (dropKey i w key)).trans (dropKey_other hj w key)

def Owes (i : Nat) (pending : Pending) (w : CustodyWorld) : Prop :=
  ∀ s ∈ w.dropped i, ∃ item, pending.get? s.key = some item ∧ item.rule.windowed = false ∧
    evidenceLists item.source s.index s.pointer = true

end CustodyWorld

theorem legsEvidence_lists {state : List (Nat × Obj)} (h : (index, pointer) ∈ state)
    (rule : CompiledInflightRule) (source : Obj) :
    evidenceLists (InflightAccumulator.legsEvidence state rule source) index pointer = true := by
  have hlegs : (InflightAccumulator.legsEvidence state rule source).getN "legs" = .list
      ((state.insertionSort (fun a b => a.1 ≤ b.1)).map
        (fun p => Json.obj (Assoc.set "leg_index" (.int p.1) p.2))) := by
    rw [InflightAccumulator.legsEvidence, Obj.getN, Assoc.lookup_set_ne (by decide),
      Assoc.lookup_set_self]
    rfl
  rw [evidenceLists, hlegs]
  apply decide_eq_true
  exact List.mem_map.2 ⟨(index, pointer), (List.mem_insertionSort _).2 h, rfl⟩

namespace CustodyWorld
variable {i : Nat} {w w' : CustodyWorld}

theorem Owes.of_same {pending pending' : Pending} (h : Owes i pending w) (hw : SameHands i w w')
    (hkeep : ∀ s item, s ∈ w.dropped i → pending.get? s.key = some item →
      item.rule.windowed = false → pending'.get? s.key = some item) : Owes i pending' w' := by
  intro s hs
  rw [hw] at hs
  obtain ⟨item, hget, hwin, hlists⟩ := h s hs
  exact ⟨item, hkeep s item hs hget hwin, hwin, hlists⟩

theorem Owes.of_empty (h : w.dropped i = []) (pending : Pending) : Owes i pending w := by
  intro s hs
  rw [h] at hs
  cases hs

/-- A run of one worker among the others, where a deletion finds only what was read. -/
abbrev Carries (i : Nat) (post : α → CustodyWorld → Prop) (t : InflightTask α)
    (w : CustodyWorld) : Prop :=
  Dialog.Meets (Answers OnlyRead i) (SameHands i) (OtherHands i) Custody post t w

theorem quiet_keeps {q : InflightAsk} {r : InflightReply q} (hq : q.quiet = true)
    (hw : w.Custody) (h : Answers OnlyRead i w q r w') :
    w'.Custody ∧ OtherHands i w w' ∧ SameHands i w w' := by
  have hsame : w' = w := by
    cases q with
    | clock => exact h
    | readSeen org asked => exact h
    | writeSeen org view writes ts => exact h
    | bumpWindows bumps => exact h
    | readWindows reads => exact h
    | _ => cases hq
  subst hsame
  exact ⟨hw, fun j _ => rfl, rfl⟩

theorem carries_quiet {t : InflightTask α} {ret : α → Prop}
    (ht : t.Asks (fun q => q.quiet = true)) (hret : t.Returns ret) (w : CustodyWorld) :
    Carries i (fun a u => ret a ∧ SameHands i w u) t w :=
  Dialog.Meets.of_asks ht hret (fun _ _ _ _ hq hI h => quiet_keeps hq hI h)
    (fun _ _ _ h h' => Eq.trans h' h) (fun _ => rfl) w

/-- `_apply_sequences` leaves its worker owing only what the kept items list. -/
theorem applySequences_carries {acc : InflightAccumulator}
    (hplain : ∀ k item, acc.pending.get? k = some item → item.rule.isLeg = true →
      item.rule.windowed = false) (hnone : w.dropped i = []) :
    Carries i (fun out u => Owes i out.pending u) acc.applySequences w := by
  rw [InflightAccumulator.applySequences]
  by_cases ht : acc.targets (fun rule => rule.isLeg) = []
  · rw [if_pos ht]
    exact Owes.of_empty hnone acc.pending
  · rw [if_neg ht]
    apply Dialog.Meets.query
    rintro t hwt hcustody r u ⟨rfl, rfl⟩
    refine ⟨hcustody.putWrites _, fun j _ => congrFun (dropped_putWrites t _) j, ?_⟩
    apply Dialog.Meets.query
    rintro t' hut hcustody' r u ⟨rfl, rfl⟩
    have hempty : u.dropped i = [] :=
      hut.trans ((congrFun (dropped_putWrites t _) i).trans (hwt.trans hnone))
    refine ⟨hcustody', fun j _ => rfl, ?_⟩
    simp only []
    split
    · exact Owes.of_empty hempty _
    · apply Dialog.Meets.query
      rintro v huv hcustody'' r v' ⟨hread, rfl, rfl⟩
      refine ⟨hcustody''.dropKeys i _, otherHands_dropKeys v i _, ?_⟩
      intro s hs
      obtain hold | ⟨key, hkey, hin⟩ := dropped_dropKeys v i _ hs
      · rw [huv, hempty] at hold
        cases hold
      · obtain ⟨c, hc, rfl⟩ := List.mem_map.1 hkey
        obtain ⟨e, he, rfl⟩ := List.mem_map.1 hc
        obtain ⟨htarget, hcomplete⟩ := List.mem_filter.1 he
        have hstate := hread _ hc s hin
        obtain ⟨x, f, hx, hget⟩ := mem_sightings.1 hin
        have hname : s.key = e.1 := (hcustody''.named e.1 x (live_eq hx) f s hget).1
        obtain ⟨hpend, hleg⟩ := InflightAccumulator.mem_targets.1 htarget
        refine ⟨e.2.close (u.legState e.1), ?_, hplain e.1 e.2 hpend hleg,
          legsEvidence_lists hstate _ _⟩
        rw [hname, (InflightAccumulator.get?_foldl_settleSequence u.legState
          (fun e he => (InflightAccumulator.mem_targets.1 he).1)
          (acc.nodup_targets (fun rule => rule.isLeg))).1 e htarget, if_pos hcomplete]

theorem applyFlushCap_get? (cfg : InflightSettings) {acc : InflightAccumulator}
    (hcap : ¬ acc.pending.entries.length ≤ cfg.maxDetectionsPerFlush) (k : String) :
    (acc.applyFlushCap cfg).pending.get? k =
      if k ∈ acc.capKept cfg then acc.pending.get? k else none := by
  rw [InflightAccumulator.applyFlushCap, if_neg hcap]
  simp only []
  rw [(InflightAccumulator.foldl_countError .flushCap Prod.fst Prod.snd _ _).1,
    Dict.get?_filterKeys]
  by_cases hk : k ∈ acc.capKept cfg
  · rw [if_pos hk, if_pos (decide_eq_true hk)]
  · rw [if_neg hk, if_neg (by rw [decide_eq_true_eq]; exact hk)]

/-- The cap leaves its worker owing what is still pending, the rest being cut. -/
theorem capFlush_carries (cfg : InflightSettings) {acc : InflightAccumulator}
    (h : Owes i acc.pending w) :
    Carries i (fun out u => Owes i out.pending u) (acc.capFlush cfg) w := by
  rw [InflightAccumulator.capFlush]
  by_cases hcap : acc.pending.entries.length ≤ cfg.maxDetectionsPerFlush
  · rw [if_pos hcap]
    exact h
  · rw [if_neg hcap]
    apply Dialog.Meets.query
    rintro t hwt hcustody r u rfl
    refine ⟨hcustody.cutKeys i _, fun j hj => Function.update_of_ne hj .., ?_⟩
    intro s hs
    have hself := Function.update_self i ((t.dropped i).filter (fun s => s.key ∉
      (acc.pending.entries.filter (fun e => decide (e.1 ∉ acc.capKept cfg))).map Prod.fst))
      t.dropped
    rw [cutKeys] at hs
    simp only [hself, List.mem_filter, decide_eq_true_eq] at hs
    obtain ⟨hheld, hnot⟩ := hs
    rw [hwt] at hheld
    obtain ⟨item, hget, hwin, hlists⟩ := h s hheld
    have hkept : s.key ∈ acc.capKept cfg := by
      by_contra hgone
      apply hnot
      apply List.mem_map.2
      exact ⟨(s.key, item), List.mem_filter.2 ⟨(acc.pending.mem_entries_iff).2 hget,
        decide_eq_true hgone⟩, rfl⟩
    refine ⟨item, ?_, hwin, hlists⟩
    rw [applyFlushCap_get? cfg hcap, if_pos hkept, hget]

theorem record_self (i : Nat) (w : CustodyWorld) (call : RecordCall) :
    (record i w call).dropped i = (w.dropped i).filter (fun s => !call.lists s) :=
  Function.update_self ..

/-- The write loop records all that its worker owes. -/
theorem recordAll_carries (org : Int) (entries : List (String × PendingItem)) (out : FlushOutcome)
    (h : ∀ s ∈ w.dropped i, ∃ e ∈ entries, e.1 = s.key ∧
      evidenceLists e.2.source s.index s.pointer = true) :
    Carries i (fun _ u => u.dropped i = []) (recordAll org entries out) w := by
  induction entries generalizing out w with
  | nil =>
    apply List.eq_nil_iff_forall_not_mem.2
    intro s hs
    obtain ⟨e, he, -⟩ := h s hs
    cases he
  | cons e entries ih =>
    apply Dialog.Meets.query
    rintro t hwt hcustody r u ⟨hsome, rfl⟩
    refine ⟨hcustody.record i _, fun j hj => Function.update_of_ne hj .., ?_⟩
    obtain ⟨det, rfl⟩ := Option.isSome_iff_exists.1 hsome
    apply ih
    intro s hs
    rw [record_self, List.mem_filter, hwt] at hs
    obtain ⟨e', he', hkey, hlists⟩ := h s hs.1
    obtain rfl | hrest := List.mem_cons.1 he'
    · have hcall : (e'.2.recordCall org e'.1).lists s = true := by
        rw [RecordCall.lists, Bool.and_eq_true, decide_eq_true_eq]
        exact ⟨hkey, hlists⟩
      rw [hcall] at hs
      cases hs.2
    · exact ⟨e', hrest, hkey, hlists⟩

theorem flushSync_carries (org : Int) {pending : Pending} (h : Owes i pending w) :
    Carries i (fun _ u => u.dropped i = []) (flushSync org pending) w := by
  rw [flushSync]
  apply Dialog.Meets.query
  rintro t hwt hcustody r u ⟨rfl, rfl⟩
  refine ⟨hcustody, fun _ _ => rfl, ?_⟩
  apply Dialog.Meets.bind
  have hall : ∀ s ∈ u.dropped i, ∃ e ∈ pending.entries, e.1 = s.key ∧
      evidenceLists e.2.source s.index s.pointer = true := by
    intro s hs
    rw [hwt] at hs
    obtain ⟨item, hget, -, hlists⟩ := h s hs
    exact ⟨(s.key, item), (pending.mem_entries_iff).2 hget, rfl, hlists⟩
  apply (recordAll_carries org pending.entries {} hall).weaken
  intro out v hempty
  apply Dialog.Meets.query
  rintro t' hvt hcustody' r u' ⟨rfl, rfl⟩
  exact ⟨hcustody', fun _ _ => rfl, hvt.trans hempty⟩

/-- A whole flush leaves its worker with empty hands. -/
theorem flushInflight_carries (cfg : InflightSettings) (org : Int) {acc : InflightAccumulator}
    (hplain : ∀ k item, acc.pending.get? k = some item → item.rule.isLeg = true →
      item.rule.windowed = false) (hnone : w.dropped i = []) :
    Carries i (fun _ u => u.dropped i = []) (flushInflight cfg org acc) w := by
  rw [flushInflight]
  apply Dialog.Meets.bind
  rw [flushFilters]
  apply Dialog.Meets.bind
  apply (carries_quiet (acc.applyAbsencePresence_asks cfg org)
    (acc.applyAbsencePresence_returns cfg org) w).weaken
  rintro acc₁ w₁ ⟨hpending, hsame⟩
  have hplain₁ : ∀ k item, acc₁.pending.get? k = some item → item.rule.isLeg = true →
      item.rule.windowed = false := by
    intro k item hget
    rw [hpending, InflightAccumulator.withoutPresences, Dict.get?_filterKeys] at hget
    split at hget
    · exact hplain k item hget
    · cases hget
  apply Dialog.Meets.bind
  apply (applySequences_carries hplain₁ (hsame.trans hnone)).weaken
  intro acc₂ w₂ howes₂
  apply Dialog.Meets.bind
  apply (carries_quiet acc₂.applySlidingWindows_asks acc₂.applySlidingWindows_returns w₂).weaken
  rintro acc₃ w₃ ⟨hkeep, hsame₃⟩
  have howes₃ : Owes i acc₃.pending w₃ :=
    howes₂.of_same hsame₃ (fun s item _ => hkeep s.key item)
  apply (capFlush_carries cfg howes₃).weaken
  intro acc₄ w₄ howes₄
  cases hempty : acc₄.pending.isEmpty with
  | true =>
    simp only [if_true]
    change w₄.dropped i = []
    apply List.eq_nil_iff_forall_not_mem.2
    intro s hs
    obtain ⟨item, hget, -⟩ := howes₄ s hs
    rw [acc₄.pending.isEmpty_iff.1 hempty] at hget
    cases hget
  | false =>
    simp only [Bool.false_eq_true, if_false]
    apply Dialog.Meets.bind
    apply (flushSync_carries org howes₄).weaken
    exact fun out u hu => hu

end CustodyWorld

section Crews
variable (rt : InflightRuntime) (cfg : InflightSettings) (org : Int)

def SequenceCycle.collected {rt : InflightRuntime} {cfg : InflightSettings}
    (c : SequenceCycle rt cfg) : InflightAccumulator :=
  collect rt cfg org (InflightAccumulator.noteRules {} c.rules) c.events

/-- Any number of workers, each flushing cycle after cycle. -/
def custodyRules (allowed : CustodyWorld → List (String × List (Nat × Obj)) → Prop) :
    CrewRules CustodyWorld Nat (SequenceCycle rt cfg) InflightAsk InflightReply
      (InflightAccumulator × List DetectionEmit) where
  program c := flushInflight cfg org (c.collected org)
  starts _ _ _ := True
  answers := CustodyWorld.Answers allowed
  moves w w' := ∃ now, w.now ≤ now ∧ w' = { w with now := now }

abbrev FlushCrew := Crew CustodyWorld Nat (SequenceCycle rt cfg) InflightAsk InflightReply
  (InflightAccumulator × List DetectionEmit)

def restingCrew : FlushCrew rt cfg where
  shared := {}
  running _ := none

variable {rt cfg org}

theorem SequenceCycle.collected_plain (c : SequenceCycle rt cfg)
    (h : (c.collected org).pending.get? key = some item) (hleg : item.rule.isLeg = true) :
    item.rule.windowed = false := by
  have hback : Backed rt cfg org ([] ++ c.events) key item := by
    apply collect_backed _ h
    intro key item hnone
    cases hnone
  obtain ⟨m, hm, hrule, -⟩ := hback.first
  have hin : item.rule ∈ c.rules := hrule ▸ c.matched m hm
  rw [CompiledInflightRule.isLeg, Bool.and_eq_true] at hleg
  obtain ⟨i, hi⟩ := Option.isSome_iff_exists.1 hleg.1
  have hsingle := (loadRules_form c.loaded hin hi).single
  rw [CompiledInflightRule.windowed, hsingle]
  rfl

/-- A worker owes nothing while it rests. -/
theorem custody_assured {x : FlushCrew rt cfg}
    (h : Crew.Reaches (custodyRules rt cfg org CustodyWorld.OnlyRead) (restingCrew rt cfg) x) :
    Crew.Assured (custodyRules rt cfg org CustodyWorld.OnlyRead) CustodyWorld.SameHands
      CustodyWorld.OtherHands CustodyWorld.Custody (fun i w => w.dropped i = []) x := by
  apply h.assured
  · exact fun i s t u hst htu => Eq.trans htu hst
  · exact fun i s => rfl
  · exact fun i s t hs hst => Eq.trans hst hs
  · exact fun i j s t hj hguar => hguar j hj
  · intro w i c hw hnone _
    exact CustodyWorld.flushInflight_carries cfg org (fun k item => c.collected_plain) hnone
  · rintro w w' hw ⟨now, -, rfl⟩
    refine ⟨⟨hw.named, fun s hs => ?_⟩, fun _ => rfl⟩
    apply (hw.kept s hs).imp_left
    intro hsettled
    exact hsettled.move (fun hin => .inl (.stored hin)) (fun _ hp => hp) (fun _ ht => ht)
      (fun _ ht => ht) (fun _ hc => hc)
  · have hempty : CustodyWorld.Custody {} := by
      constructor
      · exact fun key hash hnone => nomatch hnone
      · exact fun s hs => absurd hs List.not_mem_nil
    exact ⟨hempty, fun i => rfl⟩

end Crews

def oneDetection : InflightSettings := { maxDetectionsPerFlush := 1 }

structure SeenLeg where
  index : Fin 3
  user : String
  eventId : String

def SeenLeg.event (leg : SeenLeg) : MatchedEvent where
  rule := chainRule leg.index
  envelope :=
    [("_centralops", .obj [("event_id", .str leg.eventId)]),
      ("raw", .obj [("kind", .str (["a", "b", "c"].get leg.index)), ("user", .str leg.user)])]
  integrationId := none

def legsCycle (seen : List SeenLeg) : SequenceCycle chainLibrary oneDetection where
  rows := [chainRow]
  ids := chainRow_ids
  rules := List.ofFn chainRule
  loaded := by decide +kernel
  events := seen.map SeenLeg.event
  matched m hm := by
    obtain ⟨leg, -, rfl⟩ := List.mem_map.1 hm
    exact List.mem_ofFn.2 ⟨leg.index, rfl⟩

def chainOf (user : String) : List SeenLeg := [⟨0, user, "1"⟩, ⟨1, user, "2"⟩, ⟨2, user, "3"⟩]

namespace CustodyWorld

instance (w : CustodyWorld) (closed : List (String × List (Nat × Obj))) :
    Decidable (w.OnlyRead closed) :=
  inferInstanceAs (Decidable (∀ c ∈ closed, ∀ s ∈ _, _))

/-- Redis and the database, up. -/
def reply (i : Nat) (w : CustodyWorld) : (q : InflightAsk) → InflightReply q × CustodyWorld
  | .writeLegs writes => (some (), writes.foldl putWrite w)
  | .readLegs _ => (some w.legState, w)
  | .dropLegs closed => (some (), (closed.map Prod.fst).foldl (dropKey i) w)
  | .warnFlushCap keys => ((), cutKeys i w keys)
  | .record call => (some ⟨1, 1⟩, record i w call)
  | q => (quietRedis q, w)

def onlyRead (w : CustodyWorld) : InflightAsk → Bool
  | .dropLegs closed => decide (w.OnlyRead closed)
  | _ => true

theorem answers_reply {p : CustodyWorld → InflightAsk → Bool}
    {allowed : CustodyWorld → List (String × List (Nat × Obj)) → Prop}
    (hp : ∀ w closed, p w (.dropLegs closed) = true → allowed w closed) (i : Nat)
    (w : CustodyWorld) (q : InflightAsk) (h : p w q = true) :
    Answers allowed i w q (reply i w q).1 (reply i w q).2 := by
  cases q with
  | writeLegs writes => exact ⟨rfl, rfl⟩
  | readLegs keys => exact ⟨rfl, rfl⟩
  | dropLegs closed => exact ⟨hp w closed h, rfl, rfl⟩
  | record call => exact ⟨rfl, rfl⟩
  | openSession => exact ⟨rfl, rfl⟩
  | closeSession => exact ⟨rfl, rfl⟩
  | _ => rfl

/-- `Traceable`, to be computed. -/
def traced (w : CustodyWorld) (s : LegSighting) : Bool :=
  decide (s ∈ sightings (w.legs s.key)) || w.superseded.any (fun p => p.1 = s) ||
    decide (s ∈ w.expired) || w.recorded.any (fun call => call.lists s)

theorem traced_of_traceable {w : CustodyWorld} {s : LegSighting} (h : w.Traceable s) :
    w.traced s = true := by
  rw [traced]
  simp only [Bool.or_eq_true, decide_eq_true_eq, List.any_eq_true]
  cases h with
  | stored hin => exact .inl (.inl (.inl hin))
  | superseded hin _ _ _ => exact .inl (.inl (.inr ⟨_, hin, rfl⟩))
  | expired hin => exact .inl (.inr hin)
  | recorded hin hlists => exact .inr ⟨_, hin, hlists⟩

end CustodyWorld

def custodyAfter (allowed : CustodyWorld → List (String × List (Nat × Obj)) → Prop)
    (p : CustodyWorld → InflightAsk → Bool)
    (cues : List (Crew.Cue Nat (SequenceCycle chainLibrary oneDetection))) :
    FlushCrew chainLibrary oneDetection :=
  cues.foldl (Crew.cue (custodyRules chainLibrary oneDetection 1 allowed) CustodyWorld.reply p)
    (restingCrew chainLibrary oneDetection)

/-- Two chains close in one flush that may write one detection. -/
def cappedSchedule : List (Crew.Cue Nat (SequenceCycle chainLibrary oneDetection)) :=
  .call 0 (legsCycle (chainOf "root" ++ chainOf "admin")) :: List.replicate 12 (.go 0)

/-- A second worker writes a leg between the read and the deletion of the first. -/
def racingSchedule : List (Crew.Cue Nat (SequenceCycle chainLibrary oneDetection)) :=
  .call 0 (legsCycle (chainOf "root")) :: List.replicate 3 (.go 0) ++
    .call 1 (legsCycle [⟨0, "root", "4"⟩]) :: List.replicate 2 (.go 1) ++
    List.replicate 12 (.go 0) ++ List.replicate 12 (.go 1)

theorem custodyAfter_rests {allowed : CustodyWorld → List (String × List (Nat × Obj)) → Prop}
    {p : CustodyWorld → InflightAsk → Bool}
    {cues : List (Crew.Cue Nat (SequenceCycle chainLibrary oneDetection))}
    (hworkers : ∀ m ∈ cues, m.worker = 0 ∨ m.worker = 1)
    (hzero : ((custodyAfter allowed p cues).running 0).isNone = true)
    (hone : ((custodyAfter allowed p cues).running 1).isNone = true) (i : Nat) :
    (custodyAfter allowed p cues).running i = none := by
  by_cases h0 : i = 0
  · rw [h0, Option.isNone_iff_eq_none.1 hzero]
  · by_cases h1 : i = 1
    · rw [h1, Option.isNone_iff_eq_none.1 hone]
    · apply Crew.foldl_cue_running_other
      rintro m hm rfl
      exact (hworkers m hm).elim h0 h1

end CentralOps
