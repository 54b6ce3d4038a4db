import CentralOps.Lib.Grouping
import CentralOps.Inflight.Fates
import CentralOps.Inflight.FalseAlert
import CentralOps.Inflight.GroupSlots

namespace CentralOps
set_option autoImplicit true

section Reference
variable (rt : InflightRuntime) (cfg : InflightSettings) (book : RuleBook)

def filed (ms : List AddCall) (r : Int) : List (GroupSlot × Option Nat) :=
  (ms.filter (fun c => c.rule.ruleId = r)).filterMap
    (fun c => (c.slot rt).map (fun s => (s, c.rule.legIndex)))

def keptSlots (ms : List AddCall) (r : Int) : List GroupSlot :=
  Grouping.firstKeys Prod.fst (book.keyCap r).toNat (filed rt ms r)

def legsSeen (xs : List (GroupSlot × Option Nat)) (s : GroupSlot) : List Nat :=
  Grouping.keys id ((Grouping.members Prod.fst xs s).filterMap Prod.snd)

def noteLeg (seen : List Nat) : Option Nat → List Nat
  | none => seen
  | some i => if i ∈ seen then seen else seen ++ [i]

variable {rt book}

theorem filed_other (h : c.rule.ruleId ≠ r) : filed rt (ms ++ [c]) r = filed rt ms r := by
  simp [filed, h]

theorem filed_none {c : AddCall} (h : c.slot rt = none) (ms : List AddCall) (r : Int) :
    filed rt (ms ++ [c]) r = filed rt ms r := by
  by_cases hid : c.rule.ruleId = r
  · simp [filed, hid, h]
  · exact filed_other hid

theorem filed_some {c : AddCall} (h : c.slot rt = some s) (ms : List AddCall) :
    filed rt (ms ++ [c]) c.rule.ruleId =
      filed rt ms c.rule.ruleId ++ [(s, c.rule.legIndex)] := by
  simp [filed, h]

theorem legsSeen_here (xs : List (GroupSlot × Option Nat)) (s : GroupSlot) (leg : Option Nat) :
    legsSeen (xs ++ [(s, leg)]) s = noteLeg (legsSeen xs s) leg := by
  rw [legsSeen, Grouping.members_append_one, if_pos rfl, List.filterMap_append]
  cases leg with
  | none => simp [noteLeg, legsSeen]
  | some i =>
    have hone : [(s, some i)].filterMap Prod.snd = [i] := rfl
    rw [hone, Grouping.keys_append_one]
    rfl

theorem members_elsewhere {xs : List (GroupSlot × Option Nat)} (h : s ≠ s') (leg : Option Nat) :
    Grouping.members Prod.fst (xs ++ [(s, leg)]) s' = Grouping.members Prod.fst xs s' := by
  rw [Grouping.members_append_one, if_neg h, List.append_nil]

theorem members_here (xs : List (GroupSlot × Option Nat)) (s : GroupSlot) (leg : Option Nat) :
    Grouping.members Prod.fst (xs ++ [(s, leg)]) s =
      Grouping.members Prod.fst xs s ++ [(s, leg)] := by
  rw [Grouping.members_append_one, if_pos rfl]

theorem legsSeen_elsewhere {xs : List (GroupSlot × Option Nat)} (h : s ≠ s') (leg : Option Nat) :
    legsSeen (xs ++ [(s, leg)]) s' = legsSeen xs s' := by
  rw [legsSeen, members_elsewhere h, legsSeen]

theorem AddCall.slot_grouped {c : AddCall} (h : c.slot rt = some s) :
    s.2.isSome = c.rule.groupByPath.isSome := by
  rw [slot] at h
  obtain ⟨g, hg, rfl⟩ := Option.map_eq_some_iff.1 h
  rw [MatchedEvent.group] at hg
  cases hpath : c.rule.groupByPath with
  | none =>
    rw [hpath] at hg
    cases hg
    rfl
  | some path =>
    rw [hpath] at hg
    simp only [] at hg
    split at hg
    · cases hg
    · obtain ⟨value, -, rfl⟩ := Option.map_eq_some_iff.1 hg
      rfl

theorem filed_grouped (hlists : ∀ c ∈ ms, book.Lists cfg c.rule) (h : x ∈ filed rt ms r) :
    x.1.2.isSome = book.grouped r := by
  obtain ⟨c, hc, hx⟩ := List.mem_filterMap.1 h
  obtain ⟨s, hs, rfl⟩ := Option.map_eq_some_iff.1 hx
  obtain ⟨hin, hid⟩ := List.mem_filter.1 hc
  have hgrouped := (hlists c hin).grouped
  rw [of_decide_eq_true hid] at hgrouped
  exact (AddCall.slot_grouped hs).trans hgrouped

theorem keptSlots_grouped (hlists : ∀ c ∈ ms, book.Lists cfg c.rule)
    (h : s ∈ keptSlots rt book ms r) : s.2.isSome = book.grouped r := by
  obtain ⟨x, hx, rfl⟩ := List.mem_map.1 (Grouping.mem_keys.1 (Grouping.mem_keys_of_firstKeys h))
  exact filed_grouped cfg hlists hx

end Reference

section Effect
variable (rt : InflightRuntime) (cfg : InflightSettings)

/-- The key of a slot for the rule of the call. -/
def AddCall.key (c : AddCall) (s : GroupSlot) : String :=
  slotKey rt cfg c.rule.legIndex.isSome c.rule.ruleId s

def CompiledInflightRule.keyCap (rule : CompiledInflightRule) : Int :=
  rule.maxDedupKeys.getD cfg.maxDedupKeysPerRulePerCycle

/-- `add` points to the event: for a new entry, or for a leg that its entry has not seen. -/
def AddCall.Points (acc : InflightAccumulator) (c : AddCall) (s : GroupSlot) : Prop :=
  match acc.pending.get? (c.key rt cfg s) with
  | some item => ∃ i, c.rule.legIndex = some i ∧ i ∉ item.legs.map Prod.fst
  | none => (acc.keysPerRule.get? c.rule.ruleId).getD 0 < c.rule.keyCap cfg

/-- What `add` has to turn into text can be: the group value, and the fields of the pointer. -/
structure AddCall.Renders (acc : InflightAccumulator) (c : AddCall) : Prop where
  group : c.unresolved = false → (c.slot rt).isSome = true
  source : ∀ s, c.slot rt = some s → c.Points rt cfg acc s →
    ∃ p, eventSourcePointer rt c.envelope c.rule.groupByPath s.2 = .ok p

def InflightAccumulator.addCall (acc : InflightAccumulator) (c : AddCall) :
    InflightAccumulator :=
  (acc.add rt cfg c.rule c.envelope c.organizationId c.integrationId).1

/-- What a call does to the entries and to the counters behind them. -/
inductive AddCall.Files (c : AddCall) (before after : InflightAccumulator) : Prop
  | nowhere (hslot : c.slot rt = none) (hpending : after.pending = before.pending)
      (hover : after.overflow = before.overflow) (hkeys : after.keysPerRule = before.keysPerRule)
  | again (s : GroupSlot) (item item' : PendingItem) (hslot : c.slot rt = some s)
      (hitem : before.pending.get? (c.key rt cfg s) = some item)
      (hpending : after.pending = before.pending.set (c.key rt cfg s) item')
      (hrule : item'.rule = item.rule) (hhits : item'.hits = item.hits + 1)
      (hlegs : item'.legs.map Prod.fst = noteLeg (item.legs.map Prod.fst) c.rule.legIndex)
      (hover : after.overflow = before.overflow) (hkeys : after.keysPerRule = before.keysPerRule)
  | full (s : GroupSlot) (hslot : c.slot rt = some s)
      (hitem : before.pending.get? (c.key rt cfg s) = none)
      (hcap : c.rule.keyCap cfg ≤ (before.keysPerRule.get? c.rule.ruleId).getD 0)
      (hpending : after.pending = before.pending)
      (hover : after.overflow = before.overflow.bump c.rule.ruleId 1)
      (hkeys : after.keysPerRule = before.keysPerRule)
  | new (s : GroupSlot) (item : PendingItem) (hslot : c.slot rt = some s)
      (hitem : before.pending.get? (c.key rt cfg s) = none)
      (hcap : (before.keysPerRule.get? c.rule.ruleId).getD 0 < c.rule.keyCap cfg)
      (hpending : after.pending = before.pending.set (c.key rt cfg s) item)
      (hrule : item.rule = c.rule) (hhits : item.hits = 1)
      (hlegs : item.legs.map Prod.fst = noteLeg [] c.rule.legIndex)
      (hover : after.overflow = before.overflow)
      (hkeys : after.keysPerRule = before.keysPerRule.bump c.rule.ruleId 1)

structure AddCall.Effect (c : AddCall) (before after : InflightAccumulator) : Prop where
  files : c.Files rt cfg before after
  hits : after.hitsPerRule = before.hitsPerRule.bump c.rule.ruleId 1
  unresolved : ∀ r, after.errors.count .groupByUnresolved r =
    before.errors.count .groupByUnresolved r + if r = c.rule.ruleId ∧ c.unresolved then 1 else 0

variable {rt cfg}
open InflightAccumulator

theorem AddCall.key_eq (c : AddCall) (g : Option String) :
    inflightKey c.organizationId c.rule (tokenOf rt cfg g) =
      c.key rt cfg (c.organizationId, g) := rfl

/-- What `addToken` leaves alone: the matches, and the errors of another reason. -/
structure SparesCounts (before after : InflightAccumulator) : Prop where
  hits : after.hitsPerRule = before.hitsPerRule
  unresolved : ∀ r, after.errors.count .groupByUnresolved r =
    before.errors.count .groupByUnresolved r

theorem lookup_isSome_iff (legs : List (Nat × Obj)) (i : Nat) :
    (legs.lookup i).isSome = true ↔ i ∈ legs.map Prod.fst := by
  rw [Option.isSome_iff_ne_none, Ne, List.lookup_eq_none_iff, List.mem_map]
  constructor
  · intro h
    by_contra hout
    apply h
    intro p hp
    rw [bne_iff_ne]
    rintro rfl
    exact hout ⟨p, hp, rfl⟩
  · rintro ⟨p, hp, rfl⟩ h
    have hne := h p hp
    rw [bne_iff_ne] at hne
    exact hne rfl

theorem addAgain_files {acc : InflightAccumulator} {c : AddCall} {s : GroupSlot} {item : PendingItem}
    (hslot : c.slot rt = some s) (hitem : acc.pending.get? (c.key rt cfg s) = some item)
    {pointer : Except PyError Obj} (hpointer : c.Points rt cfg acc s → ∃ p, pointer = .ok p) :
    c.Files rt cfg acc (addAgain acc c.rule (c.key rt cfg s) item pointer).1 ∧
      SparesCounts acc (addAgain acc c.rule (c.key rt cfg s) item pointer).1 := by
  rw [addAgain]
  cases hleg : c.rule.legIndex with
  | none =>
    refine ⟨.again s item item.hit hslot hitem rfl rfl rfl ?_ rfl rfl, rfl, fun _ => rfl⟩
    rw [hleg]
    rfl
  | some i =>
    by_cases hseen : (item.legs.lookup i).isSome = true
    · simp only [hseen, if_true]
      refine ⟨.again s item item.hit hslot hitem rfl rfl rfl ?_ rfl rfl, rfl, fun _ => rfl⟩
      rw [hleg, noteLeg, if_pos ((lookup_isSome_iff item.legs i).1 hseen)]
      rfl
    · have hnew : i ∉ item.legs.map Prod.fst := fun h =>
        hseen ((lookup_isSome_iff item.legs i).2 h)
      have hpoints : c.Points rt cfg acc s := by
        rw [AddCall.Points, hitem]
        exact ⟨i, hleg, hnew⟩
      obtain ⟨p, rfl⟩ := hpointer hpoints
      simp only [hseen, if_false, Bool.false_eq_true, withPointer]
      refine ⟨.again s item (item.hit.addLeg i p) hslot hitem (Dict.set_set_self _ _ _ _) rfl rfl ?_
        rfl rfl, rfl, fun _ => rfl⟩
      rw [hleg, noteLeg, if_neg hnew, PendingItem.addLeg, List.map_append]
      rfl

theorem addNew_files {acc : InflightAccumulator} {c : AddCall} {s : GroupSlot} (token : String)
    (hslot : c.slot rt = some s) (hitem : acc.pending.get? (c.key rt cfg s) = none)
    {pointer : Except PyError Obj} (hpointer : c.Points rt cfg acc s → ∃ p, pointer = .ok p) :
    c.Files rt cfg acc
        (addNew cfg acc c.rule (c.key rt cfg s) token c.integrationId pointer).1 ∧
      SparesCounts acc (addNew cfg acc c.rule (c.key rt cfg s) token c.integrationId pointer).1 := by
  rw [addNew]
  by_cases hcap : c.rule.maxDedupKeys.getD cfg.maxDedupKeysPerRulePerCycle ≤
      (acc.keysPerRule.get? c.rule.ruleId).getD 0
  · rw [if_pos hcap]
    refine ⟨.full s hslot hitem hcap rfl rfl rfl, rfl, fun r => ?_⟩
    have hreason : ¬ (ErrorReason.groupByUnresolved = .keyCap ∧ r = c.rule.ruleId) :=
      fun h => ErrorReason.noConfusion h.1
    exact (Ledger.count_charge acc.errors .keyCap .groupByUnresolved c.rule.ruleId r 1).trans
      (by rw [if_neg hreason, Nat.add_zero])
  · have hpoints : c.Points rt cfg acc s := by
      rw [AddCall.Points, hitem]
      exact not_le.1 hcap
    obtain ⟨p, rfl⟩ := hpointer hpoints
    rw [if_neg hcap]
    refine ⟨.new s _ hslot hitem (not_le.1 hcap) rfl rfl rfl ?_ rfl rfl, rfl, fun _ => rfl⟩
    cases c.rule.legIndex with
    | none => rfl
    | some i => rfl

theorem addToken_files {acc : InflightAccumulator} {c : AddCall} {g : Option String}
    (hslot : c.slot rt = some (c.organizationId, g))
    (hsource : c.Points rt cfg acc (c.organizationId, g) →
      ∃ p, eventSourcePointer rt c.envelope c.rule.groupByPath g = .ok p) :
    c.Files rt cfg acc (addToken rt cfg acc c.rule c.envelope c.organizationId c.integrationId
        (tokenOf rt cfg g) g).1 ∧
      SparesCounts acc (addToken rt cfg acc c.rule c.envelope c.organizationId c.integrationId
        (tokenOf rt cfg g) g).1 := by
  rw [addToken, AddCall.key_eq]
  cases hitem : acc.pending.get? (c.key rt cfg (c.organizationId, g)) with
  | some item => exact addAgain_files hslot hitem hsource
  | none => exact addNew_files _ hslot hitem hsource

theorem AddCall.Files.transport {c : AddCall} {before before' after : InflightAccumulator}
    (h : c.Files rt cfg before after) (hpending : before.pending = before'.pending)
    (hover : before.overflow = before'.overflow)
    (hkeys : before.keysPerRule = before'.keysPerRule) : c.Files rt cfg before' after := by
  cases h with
  | nowhere hslot hp ho hk =>
    exact .nowhere hslot (hp.trans hpending) (ho.trans hover) (hk.trans hkeys)
  | again s item item' hslot hitem hp hrule hhits hlegs ho hk =>
    rw [hpending] at hitem hp
    exact .again s item item' hslot hitem hp hrule hhits hlegs (ho.trans hover) (hk.trans hkeys)
  | full s hslot hitem hcap hp ho hk =>
    rw [hpending] at hitem
    rw [hkeys] at hcap
    rw [hover] at ho
    exact .full s hslot hitem hcap (hp.trans hpending) ho (hk.trans hkeys)
  | new s item hslot hitem hcap hp hrule hhits hlegs ho hk =>
    rw [hpending] at hitem hp
    rw [hkeys] at hcap hk
    exact .new s item hslot hitem hcap hp hrule hhits hlegs (ho.trans hover) hk

theorem AddCall.Points.transport {c : AddCall} {before before' : InflightAccumulator}
    {s : GroupSlot} (h : c.Points rt cfg before s) (hpending : before.pending = before'.pending)
    (hkeys : before.keysPerRule = before'.keysPerRule) : c.Points rt cfg before' s := by
  rw [Points] at h ⊢
  rwa [← hpending, ← hkeys]

theorem addToken_effect {acc noted : InflightAccumulator} {c : AddCall} {g : Option String}
    (hslot : c.slot rt = some (c.organizationId, g)) (hresolved : c.unresolved = false)
    (hsource : c.Points rt cfg acc (c.organizationId, g) →
      ∃ p, eventSourcePointer rt c.envelope c.rule.groupByPath g = .ok p)
    (hpending : noted.pending = acc.pending) (hover : noted.overflow = acc.overflow)
    (hkeys : noted.keysPerRule = acc.keysPerRule)
    (hhits : noted.hitsPerRule = acc.hitsPerRule.bump c.rule.ruleId 1)
    (herrors : ∀ r, noted.errors.count .groupByUnresolved r =
      acc.errors.count .groupByUnresolved r) :
    c.Effect rt cfg acc (addToken rt cfg noted c.rule c.envelope c.organizationId
      c.integrationId (tokenOf rt cfg g) g).1 := by
  have hsource' : c.Points rt cfg noted (c.organizationId, g) →
      ∃ p, eventSourcePointer rt c.envelope c.rule.groupByPath g = .ok p := by
    intro h
    exact hsource (h.transport hpending hkeys)
  obtain ⟨hfiles, hquiet⟩ := addToken_files hslot hsource'
  constructor
  · exact hfiles.transport hpending hover hkeys
  · exact hquiet.hits.trans hhits
  · intro r
    rw [hquiet.unresolved, herrors, hresolved]
    simp

theorem group_resolved {m : MatchedEvent} (hpath : m.rule.groupByPath = some path)
    (hv : getPath (.obj m.envelope) path = v) (hnull : v ≠ .null) :
    m.group rt = (documents.str rt.toMappingRuntime () v).toOption.map some := by
  rw [MatchedEvent.group, hpath]
  cases v with
  | null => exact absurd rfl hnull
  | _ => simp only [hv]

/-- The match counted. -/
def InflightAccumulator.counted (acc : InflightAccumulator) (c : AddCall) : InflightAccumulator :=
  { acc with hitsPerRule := acc.hitsPerRule.bump c.rule.ruleId 1 }

theorem add_resolved {c : AddCall} (hpath : c.rule.groupByPath = some path)
    (hv : getPath (.obj c.envelope) path = v) (hnull : v ≠ .null)
    (hstr : documents.str rt.toMappingRuntime () v = .ok value) (acc : InflightAccumulator) :
    ∃ noted : InflightAccumulator, noted.pending = acc.pending ∧
      noted.overflow = acc.overflow ∧ noted.keysPerRule = acc.keysPerRule ∧
      noted.hitsPerRule = acc.hitsPerRule.bump c.rule.ruleId 1 ∧
      (∀ r, noted.errors.count .groupByUnresolved r = acc.errors.count .groupByUnresolved r) ∧
      acc.addCall rt cfg c = (addToken rt cfg noted c.rule c.envelope c.organizationId
        c.integrationId (tokenOf rt cfg (some value)) (some value)).1 := by
  rw [addCall, add, hpath]
  simp only [hv]
  cases v with
  | null => exact absurd rfl hnull
  | _ =>
    simp only [hstr]
    split
    · exact ⟨acc.counted c, rfl, rfl, rfl, rfl, fun _ => rfl, rfl⟩
    · refine ⟨(acc.counted c).countError .groupValueTruncated c.rule.ruleId 1, rfl, rfl, rfl, rfl,
        fun r => ?_, rfl⟩
      refine (Ledger.count_charge _ _ _ _ _ _).trans ?_
      simp [InflightAccumulator.counted]

theorem add_unprintable {c : AddCall} (hpath : c.rule.groupByPath = some path)
    (hv : getPath (.obj c.envelope) path = v) (hnull : v ≠ .null)
    (hstr : documents.str rt.toMappingRuntime () v = .error e) (acc : InflightAccumulator) :
    acc.addCall rt cfg c = acc.counted c := by
  rw [addCall, add, hpath]
  simp only [hv]
  cases v with
  | null => exact absurd rfl hnull
  | _ =>
    simp only [hstr]
    rfl

theorem addCall_effect {acc : InflightAccumulator} {c : AddCall} (h : c.Renders rt cfg acc) :
    c.Effect rt cfg acc (acc.addCall rt cfg c) := by
  cases hpath : c.rule.groupByPath with
  | none =>
    have hresolved : c.unresolved = false := by rw [MatchedEvent.unresolved, hpath]
    have hslot : c.slot rt = some (c.organizationId, none) := by
      rw [AddCall.slot, MatchedEvent.group, hpath]
      rfl
    have hadd : acc.addCall rt cfg c = (addToken rt cfg (acc.counted c) c.rule c.envelope
        c.organizationId c.integrationId (tokenOf rt cfg none) none).1 := by
      rw [addCall, add, hpath]
      rfl
    rw [hadd]
    exact addToken_effect hslot hresolved (h.source _ hslot) rfl rfl rfl rfl (fun _ => rfl)
  | some path =>
    by_cases hnull : getPath (.obj c.envelope) path = .null
    · have hslot : c.slot rt = none := by
        rw [AddCall.slot, MatchedEvent.group, hpath]
        simp only [hnull]
        rfl
      have hunresolved : c.unresolved = true := by
        rw [MatchedEvent.unresolved, hpath]
        exact decide_eq_true hnull
      rw [addCall, add, hpath]
      simp only [hnull]
      constructor
      · exact .nowhere hslot rfl rfl rfl
      · rfl
      · intro r
        rw [hunresolved]
        refine (Ledger.count_charge _ _ _ _ _ _).trans ?_
        simp
    · have hresolved : c.unresolved = false := by
        rw [MatchedEvent.unresolved, hpath]
        exact decide_eq_false hnull
      obtain ⟨s, hslot⟩ := Option.isSome_iff_exists.1 (h.group hresolved)
      have hgroup := hslot
      rw [AddCall.slot, group_resolved hpath rfl hnull] at hgroup
      obtain ⟨g, hg, rfl⟩ := Option.map_eq_some_iff.1 hgroup
      obtain ⟨value, hvalue, rfl⟩ := Option.map_eq_some_iff.1 hg
      obtain ⟨noted, hp, ho, hk, hh, he, hadd⟩ :=
        @add_resolved rt cfg _ _ _ _ hpath rfl hnull (Except.ok_of_toOption hvalue) acc
      rw [hadd]
      exact addToken_effect hslot hresolved (h.source _ hslot) hp ho hk hh he

end Effect

section Invariant
open InflightAccumulator
variable (rt : InflightRuntime) (cfg : InflightSettings) (book : RuleBook)

def RuleBook.key (r : Int) (s : GroupSlot) : String := slotKey rt cfg (book.sequence r) r s

structure Tracks (acc : InflightAccumulator) (ms : List AddCall) (r : Int) : Prop where
  roster : (acc.roster.filter (fun e => e.2 = r)).map Prod.fst =
    (keptSlots rt book ms r).map (book.key rt cfg r)
  entry : ∀ s ∈ keptSlots rt book ms r, ∃ item,
    acc.pending.get? (book.key rt cfg r s) = some item ∧
      item.hits = (Grouping.members Prod.fst (filed rt ms r) s).length ∧
      item.legs.map Prod.fst = legsSeen (filed rt ms r) s
  keys : (acc.keysPerRule.get? r).getD 0 = (keptSlots rt book ms r).length
  overflow : (acc.overflow.get? r).getD 0 =
    (filed rt ms r).countP (fun x => decide (x.1 ∉ keptSlots rt book ms r))
  unresolved : acc.errors.count .groupByUnresolved r =
    ms.countP (fun c => decide (c.rule.ruleId = r) && c.unresolved)
  hits : (acc.hitsPerRule.get? r).getD 0 = ms.countP (fun c => decide (c.rule.ruleId = r))

variable {rt cfg book}

theorem AddCall.key_book {c : AddCall} (h : book.Lists cfg c.rule) (s : GroupSlot) :
    c.key rt cfg s = book.key rt cfg c.rule.ruleId s := by
  rw [key, RuleBook.key, h.sequence]

theorem AddCall.slot_book {c : AddCall} (h : book.Lists cfg c.rule) (hslot : c.slot rt = some s) :
    s.2.isSome = book.grouped c.rule.ruleId :=
  (slot_grouped hslot).trans h.grouped

theorem kept_of_pending (hdigest : Function.Injective rt.groupValueDigest)
    {acc : InflightAccumulator} (htracks : ∀ r, Tracks rt cfg book acc ms r)
    (hlists : ∀ c ∈ ms, book.Lists cfg c.rule) (hs : s.2.isSome = book.grouped r)
    (h : acc.pending.get? (book.key rt cfg r s) = some item) : s ∈ keptSlots rt book ms r := by
  have hroster : (book.key rt cfg r s, item.rule.ruleId) ∈ acc.roster :=
    List.mem_map.2 ⟨_, acc.pending.mem_entries_iff.2 h, rfl⟩
  have hin : book.key rt cfg r s ∈
      (keptSlots rt book ms item.rule.ruleId).map (book.key rt cfg item.rule.ruleId) := by
    rw [← (htracks item.rule.ruleId).roster]
    exact List.mem_map.2 ⟨_, List.mem_filter.2 ⟨hroster, decide_eq_true rfl⟩, rfl⟩
  obtain ⟨s', hs', hkey⟩ := List.mem_map.1 hin
  obtain ⟨hr, rfl⟩ := slotKey_injective hdigest (keptSlots_grouped cfg hlists hs') hs hkey
  rwa [hr] at hs'

theorem AddCall.Files.pending_other {c : AddCall} {before after : InflightAccumulator}
    (h : c.Files rt cfg before after) {j : String}
    (hj : ∀ s, c.slot rt = some s → j ≠ c.key rt cfg s) :
    after.pending.get? j = before.pending.get? j := by
  cases h with
  | nowhere _ hpending => rw [hpending]
  | again s item item' hslot _ hpending => rw [hpending, Dict.get?_set_ne _ (hj s hslot)]
  | full s _ _ _ hpending => rw [hpending]
  | new s item hslot _ _ hpending => rw [hpending, Dict.get?_set_ne _ (hj s hslot)]

theorem AddCall.Files.roster_other {c : AddCall} {before after : InflightAccumulator}
    (h : c.Files rt cfg before after) (hr : c.rule.ruleId ≠ r) :
    after.roster.filter (fun e => e.2 = r) = before.roster.filter (fun e => e.2 = r) := by
  cases h with
  | nowhere _ hpending => rw [roster, hpending, roster]
  | again s item item' _ hitem hpending hrule =>
    have howner : ownerOf item' = ownerOf item := congrArg CompiledInflightRule.ruleId hrule
    rw [roster, hpending, Dict.roster_set_again ownerOf hitem howner, roster]
  | full s _ _ _ hpending => rw [roster, hpending, roster]
  | new s item _ hitem _ hpending hrule =>
    have hnot : decide (ownerOf item = r) = false :=
      decide_eq_false (fun h => hr (hrule ▸ h))
    rw [roster, hpending, Dict.roster_set_new ownerOf hitem, List.filter_append,
      List.filter_cons_of_neg (by rw [hnot]; exact Bool.false_ne_true), List.filter_nil,
      List.append_nil, roster]

theorem AddCall.Files.counts_other {c : AddCall} {before after : InflightAccumulator}
    (h : c.Files rt cfg before after) (hr : c.rule.ruleId ≠ r) :
    (after.overflow.get? r).getD 0 = (before.overflow.get? r).getD 0 ∧
      (after.keysPerRule.get? r).getD 0 = (before.keysPerRule.get? r).getD 0 := by
  have hbump : ∀ d : Dict Int Nat,
      ((d.bump c.rule.ruleId 1).get? r).getD 0 = (d.get? r).getD 0 := by
    intro d
    rw [Dict.get?_bump, if_neg (Ne.symm hr), Nat.add_zero]
  cases h with
  | nowhere _ _ hover hkeys => exact ⟨by rw [hover], by rw [hkeys]⟩
  | again s item item' _ _ _ _ _ _ hover hkeys => exact ⟨by rw [hover], by rw [hkeys]⟩
  | full s _ _ _ _ hover hkeys => exact ⟨by rw [hover, hbump], by rw [hkeys]⟩
  | new s item _ _ _ _ _ _ _ hover hkeys => exact ⟨by rw [hover], by rw [hkeys, hbump]⟩

theorem countP_call (p : AddCall → Bool) (ms : List AddCall) (c : AddCall) :
    (ms ++ [c]).countP p = ms.countP p + if p c then 1 else 0 := by
  rw [List.countP_append, List.countP_singleton]

theorem AddCall.Effect.counters {c : AddCall} {before after : InflightAccumulator}
    (h : c.Effect rt cfg before after) (htracks : Tracks rt cfg book before ms r) :
    after.errors.count .groupByUnresolved r =
        (ms ++ [c]).countP (fun c => decide (c.rule.ruleId = r) && c.unresolved) ∧
      (after.hitsPerRule.get? r).getD 0 =
        (ms ++ [c]).countP (fun c => decide (c.rule.ruleId = r)) := by
  have hsymm : r = c.rule.ruleId ↔ c.rule.ruleId = r := eq_comm
  constructor
  · rw [h.unresolved, htracks.unresolved, countP_call]
    simp only [hsymm, Bool.and_eq_true, decide_eq_true_eq]
  · rw [h.hits, Dict.get?_bump, htracks.hits, countP_call]
    simp only [hsymm, decide_eq_true_eq]

theorem AddCall.Effect.tracks_other {c : AddCall} {before after : InflightAccumulator}
    (h : c.Effect rt cfg before after) (htracks : Tracks rt cfg book before ms r)
    (hr : c.rule.ruleId ≠ r) (hdigest : Function.Injective rt.groupValueDigest)
    (hlists : ∀ c ∈ ms, book.Lists cfg c.rule) (hc : book.Lists cfg c.rule) :
    Tracks rt cfg book after (ms ++ [c]) r := by
  have hfiled : filed rt (ms ++ [c]) r = filed rt ms r := filed_other hr
  have hkept : keptSlots rt book (ms ++ [c]) r = keptSlots rt book ms r := by
    rw [keptSlots, hfiled, keptSlots]
  obtain ⟨hover, hkeys⟩ := h.files.counts_other hr
  obtain ⟨hunresolved, hhits⟩ := h.counters htracks
  constructor
  · rw [h.files.roster_other hr, hkept, htracks.roster]
  · intro s hs
    rw [hkept] at hs
    have hkey : ∀ s', c.slot rt = some s' → book.key rt cfg r s ≠ c.key rt cfg s' := by
      intro s' hslot hkey
      rw [AddCall.key_book hc] at hkey
      exact hr (slotKey_injective hdigest (keptSlots_grouped cfg hlists hs)
        (AddCall.slot_book hc hslot) hkey).1.symm
    rw [h.files.pending_other hkey, hfiled]
    exact htracks.entry s hs
  · rw [hkeys, hkept, htracks.keys]
  · rw [hover, hkept, hfiled, htracks.overflow]
  · exact hunresolved
  · exact hhits

theorem Tracks.entry_later {c : AddCall} {before after : InflightAccumulator} {s s' : GroupSlot}
    (htracks : Tracks rt cfg book before ms c.rule.ruleId)
    (h : c.Files rt cfg before after) (hslot : c.slot rt = some s) (hne : s ≠ s')
    (hs' : s' ∈ keptSlots rt book ms c.rule.ruleId)
    (hdigest : Function.Injective rt.groupValueDigest)
    (hlists : ∀ c ∈ ms, book.Lists cfg c.rule) (hc : book.Lists cfg c.rule) :
    ∃ item, after.pending.get? (book.key rt cfg c.rule.ruleId s') = some item ∧
      item.hits =
        (Grouping.members Prod.fst (filed rt (ms ++ [c]) c.rule.ruleId) s').length ∧
      item.legs.map Prod.fst = legsSeen (filed rt (ms ++ [c]) c.rule.ruleId) s' := by
  have hkey : ∀ s₁, c.slot rt = some s₁ →
      book.key rt cfg c.rule.ruleId s' ≠ c.key rt cfg s₁ := by
    intro s₁ hslot₁ hkey
    rw [hslot] at hslot₁
    cases hslot₁
    rw [AddCall.key_book hc] at hkey
    exact hne (slotKey_injective hdigest (keptSlots_grouped cfg hlists hs')
      (AddCall.slot_book hc hslot) hkey).2.symm
  rw [h.pending_other hkey, filed_some hslot, members_elsewhere hne, legsSeen_elsewhere hne]
  exact htracks.entry s' hs'

theorem AddCall.Effect.tracks_own {c : AddCall} {before after : InflightAccumulator}
    (h : c.Effect rt cfg before after) (hall : ∀ r, Tracks rt cfg book before ms r)
    (hdigest : Function.Injective rt.groupValueDigest)
    (hlists : ∀ c ∈ ms, book.Lists cfg c.rule) (hc : book.Lists cfg c.rule) :
    Tracks rt cfg book after (ms ++ [c]) c.rule.ruleId := by
  have htracks := hall c.rule.ruleId
  obtain ⟨hunresolved, hhits⟩ := h.counters htracks
  have hcap : c.rule.keyCap cfg = book.keyCap c.rule.ruleId := hc.keyCap
  have hlater : ∀ {s s'}, c.slot rt = some s → s ≠ s' →
      s' ∈ keptSlots rt book ms c.rule.ruleId → _ :=
    fun hslot hne hs' => htracks.entry_later h.files hslot hne hs' hdigest hlists hc
  have hnone : ∀ {s}, c.slot rt = some s → before.pending.get? (c.key rt cfg s) = none →
      s ∉ keptSlots rt book ms c.rule.ruleId := by
    intro s hslot hitem hin
    obtain ⟨item, hget, -⟩ := htracks.entry s hin
    rw [AddCall.key_book hc, hget] at hitem
    cases hitem
  cases h.files with
  | nowhere hslot hpending hover hkeys =>
    have hfiled := filed_none hslot ms c.rule.ruleId
    have hkept : keptSlots rt book (ms ++ [c]) c.rule.ruleId =
        keptSlots rt book ms c.rule.ruleId := by
      rw [keptSlots, hfiled, keptSlots]
    constructor
    · rw [roster, hpending, hkept]
      exact htracks.roster
    · rw [hpending, hkept, hfiled]
      exact htracks.entry
    · rw [hkeys, hkept, htracks.keys]
    · rw [hover, hkept, hfiled, htracks.overflow]
    · exact hunresolved
    · exact hhits
  | again s item item' hslot hitem hpending hrule hhit hlegs hover hkeys =>
    have hitem' := hitem
    rw [AddCall.key_book hc] at hitem'
    have hs := kept_of_pending hdigest hall hlists (AddCall.slot_book hc hslot) hitem'
    have hfiled := filed_some hslot ms
    have hkept : keptSlots rt book (ms ++ [c]) c.rule.ruleId =
        keptSlots rt book ms c.rule.ruleId := by
      rw [keptSlots, hfiled]
      exact Grouping.firstKeys_again hs
    constructor
    · have howner : ownerOf item' = ownerOf item := congrArg CompiledInflightRule.ruleId hrule
      rw [roster, hpending, Dict.roster_set_again ownerOf hitem howner, hkept]
      exact htracks.roster
    · rw [hkept]
      intro s' hs'
      by_cases heq : s = s'
      · subst heq
        obtain ⟨old, hget, hold, holdlegs⟩ := htracks.entry s hs
        rw [hitem'] at hget
        cases hget
        refine ⟨item', ?_, ?_, ?_⟩
        · rw [hpending, AddCall.key_book hc, Dict.get?_set_self]
        · rw [hfiled, members_here, List.length_append, hhit, hold]
          rfl
        · rw [hfiled, legsSeen_here, hlegs, holdlegs]
      · exact hlater hslot heq hs'
    · rw [hkeys, hkept, htracks.keys]
    · rw [hover, hkept, hfiled, List.countP_append, htracks.overflow, List.countP_singleton,
        if_neg (by simpa using hs), Nat.add_zero]
    · exact hunresolved
    · exact hhits
  | full s hslot hitem hfull hpending hover hkeys =>
    have hs := hnone hslot hitem
    have hfiled := filed_some hslot ms
    have hkept : keptSlots rt book (ms ++ [c]) c.rule.ruleId =
        keptSlots rt book ms c.rule.ruleId := by
      rw [keptSlots, hfiled]
      apply Grouping.firstKeys_full
      change _ ≤ (keptSlots rt book ms c.rule.ruleId).length
      rw [hcap, htracks.keys] at hfull
      omega
    constructor
    · rw [roster, hpending, hkept]
      exact htracks.roster
    · rw [hkept]
      intro s' hs'
      exact hlater hslot (fun heq => hs (heq ▸ hs')) hs'
    · rw [hkeys, hkept, htracks.keys]
    · rw [hover, Dict.get?_bump, if_pos rfl, hkept, hfiled, List.countP_append, htracks.overflow,
        List.countP_singleton, if_pos (by simpa using hs)]
    · exact hunresolved
    · exact hhits
  | new s item hslot hitem hroom hpending hrule hone hlegs hover hkeys =>
    have hs := hnone hslot hitem
    have hfiled := filed_some hslot ms
    have hlt : (keptSlots rt book ms c.rule.ruleId).length <
        (book.keyCap c.rule.ruleId).toNat := by
      rw [hcap, htracks.keys] at hroom
      omega
    have hkept : keptSlots rt book (ms ++ [c]) c.rule.ruleId =
        keptSlots rt book ms c.rule.ruleId ++ [s] := by
      rw [keptSlots, hfiled]
      exact Grouping.firstKeys_room hs hlt
    have hall : keptSlots rt book ms c.rule.ruleId =
        Grouping.keys Prod.fst (filed rt ms c.rule.ruleId) := Grouping.firstKeys_eq_keys hlt
    have hfresh : Grouping.members Prod.fst (filed rt ms c.rule.ruleId) s = [] := by
      apply Grouping.members_eq_nil
      rwa [← hall]
    constructor
    · have howner : ownerOf item = c.rule.ruleId := congrArg CompiledInflightRule.ruleId hrule
      rw [roster, hpending, Dict.roster_set_new ownerOf hitem, List.filter_append,
        List.map_append, hkept, List.map_append, howner, AddCall.key_book hc]
      refine congrArg₂ _ htracks.roster ?_
      simp
    · rw [hkept]
      intro s' hs'
      rcases List.mem_append.1 hs' with hold | hnew
      · exact hlater hslot (fun heq => hs (heq ▸ hold)) hold
      · rw [List.mem_singleton.1 hnew]
        refine ⟨item, ?_, ?_, ?_⟩
        · rw [hpending, AddCall.key_book hc, Dict.get?_set_self]
        · rw [hfiled, members_here, hfresh, hone]
          rfl
        · rw [hfiled, legsSeen_here, hlegs, legsSeen, hfresh]
          rfl
    · rw [hkeys, Dict.get?_bump, if_pos rfl, hkept, htracks.keys, List.length_append]
      rfl
    · have hin : ∀ x ∈ filed rt ms c.rule.ruleId,
          x.1 ∈ keptSlots rt book ms c.rule.ruleId := by
        intro x hx
        rw [hall]
        exact Grouping.mem_keys.2 (List.mem_map_of_mem hx)
      rw [hover, htracks.overflow, List.countP_eq_zero.2, eq_comm, List.countP_eq_zero, hkept,
        hfiled]
      · intro x hx
        rcases List.mem_append.1 hx with hold | hnew
        · simp [hin x hold]
        · simp [List.mem_singleton.1 hnew]
      · intro x hx
        simp [hin x hx]
    · exact hunresolved
    · exact hhits

end Invariant

section Runs
open InflightAccumulator
variable (rt : InflightRuntime) (cfg : InflightSettings) (book : RuleBook)

/-- The runs of calls that render, with the accumulator that each makes. -/
inductive AddRun : List AddCall → InflightAccumulator → Prop
  | start (watched : List (Int × CompiledInflightRule)) : AddRun [] { absenceRules := watched }
  | add : AddRun ms acc → book.Lists cfg c.rule → c.Renders rt cfg acc →
      AddRun (ms ++ [c]) (acc.addCall rt cfg c)

def pendingHits (acc : InflightAccumulator) (r : Int) : Nat :=
  ((acc.pending.entries.filter (fun p => ownerOf p.2 = r)).map (fun p => p.2.hits)).sum

/-- The accumulator is the grouping of the calls, for one rule. -/
structure Aggregates (acc : InflightAccumulator) (ms : List AddCall) (r : Int) : Prop where
  roster : (acc.roster.filter (fun e => e.2 = r)).map Prod.fst =
    (keptSlots rt book ms r).map (book.key rt cfg r)
  entry : ∀ s ∈ keptSlots rt book ms r, ∃ item,
    acc.pending.get? (book.key rt cfg r s) = some item ∧
      item.hits = (Grouping.members Prod.fst (filed rt ms r) s).length ∧
      item.legs.map Prod.fst = legsSeen (filed rt ms r) s
  overflow : (acc.overflow.get? r).getD 0 =
    (filed rt ms r).countP (fun x => decide (x.1 ∉ keptSlots rt book ms r))
  unresolved : acc.errors.count .groupByUnresolved r =
    ms.countP (fun c => decide (c.rule.ruleId = r) && c.unresolved)
  total : (acc.hitsPerRule.get? r).getD 0 =
    pendingHits acc r + (acc.overflow.get? r).getD 0 + acc.errors.count .groupByUnresolved r

variable {rt cfg book}

theorem slot_of_unresolved {c : AddCall} (h : c.unresolved = true) : c.slot rt = none := by
  rw [MatchedEvent.unresolved] at h
  rw [AddCall.slot, MatchedEvent.group]
  cases hpath : c.rule.groupByPath with
  | none =>
    rw [hpath] at h
    cases h
  | some path =>
    rw [hpath] at h
    simp only [of_decide_eq_true h]
    rfl

theorem tracks_start (watched : List (Int × CompiledInflightRule)) (r : Int) :
    Tracks rt cfg book { absenceRules := watched } [] r := by
  have hnil : keptSlots rt book [] r = [] := List.take_nil
  constructor
  · rw [hnil]
    rfl
  · intro s hs
    rw [hnil] at hs
    cases hs
  · rw [hnil]
    rfl
  · rfl
  · rfl
  · rfl

/-- What holds along a run: its rules are listed, each call has a slot or none by its path, and
the accumulator tracks the calls. -/
theorem AddRun.tracks (hdigest : Function.Injective rt.groupValueDigest)
    (h : AddRun rt cfg book ms acc) :
    (∀ c ∈ ms, book.Lists cfg c.rule) ∧ (∀ c ∈ ms, (c.slot rt).isSome = !c.unresolved) ∧
      ∀ r, Tracks rt cfg book acc ms r := by
  induction h with
  | start watched =>
    refine ⟨?_, ?_, tracks_start watched⟩
    · intro c hc
      cases hc
    · intro c hc
      cases hc
  | @add ms acc c hrun hc hrenders ih =>
    obtain ⟨hlists, hslots, htracks⟩ := ih
    have heffect := addCall_effect hrenders
    refine ⟨?_, ?_, ?_⟩
    · intro c' hc'
      rcases List.mem_append.1 hc' with hold | hnew
      · exact hlists c' hold
      · rwa [List.mem_singleton.1 hnew]
    · intro c' hc'
      rcases List.mem_append.1 hc' with hold | hnew
      · exact hslots c' hold
      · rw [List.mem_singleton.1 hnew]
        cases hu : c.unresolved with
        | true =>
          rw [slot_of_unresolved hu]
          rfl
        | false => exact hrenders.group hu
    · intro r
      by_cases hr : c.rule.ruleId = r
      · rw [← hr]
        exact heffect.tracks_own htracks hdigest hlists hc
      · exact heffect.tracks_other (htracks r) hr hdigest hlists hc

theorem pendingHits_kept {acc : InflightAccumulator} (h : Tracks rt cfg book acc ms r) :
    pendingHits acc r =
      (filed rt ms r).countP (fun x => decide (x.1 ∈ keptSlots rt book ms r)) := by
  have hkeys : (acc.pending.entries.filter (fun p => ownerOf p.2 = r)).map Prod.fst =
      (keptSlots rt book ms r).map (book.key rt cfg r) := by
    rw [← h.roster, roster, Dict.roster, List.filter_map, List.map_map]
    rfl
  have hhits : (acc.pending.entries.filter (fun p => ownerOf p.2 = r)).map (fun p => p.2.hits) =
      ((acc.pending.entries.filter (fun p => ownerOf p.2 = r)).map Prod.fst).map
        (fun k => ((acc.pending.get? k).map (fun item => item.hits)).getD 0) := by
    rw [List.map_map]
    apply List.map_congr_left
    intro p hp
    have hget := acc.pending.mem_entries_iff.1 (List.mem_filter.1 hp).1
    rw [Function.comp_apply, hget]
    rfl
  have hcounts : (keptSlots rt book ms r).map (fun s =>
      ((acc.pending.get? (book.key rt cfg r s)).map (fun item => item.hits)).getD 0) =
      (keptSlots rt book ms r).map
        (fun s => (Grouping.members Prod.fst (filed rt ms r) s).length) := by
    apply List.map_congr_left
    intro s hs
    obtain ⟨item, hget, hitem, -⟩ := h.entry s hs
    rw [hget]
    exact hitem
  rw [pendingHits, hhits, hkeys, List.map_map]
  have hnodup : (keptSlots rt book ms r).Nodup := Grouping.firstKeys_nodup _ _
  have hsum := Grouping.sum_members_countP (f := Prod.fst) hnodup (filed rt ms r)
  refine (congrArg List.sum hcounts).trans ?_
  convert hsum

theorem countP_filed (hslots : ∀ c ∈ ms, (AddCall.slot rt c).isSome = !c.unresolved) (r : Int) :
    ms.countP (fun c => decide (c.rule.ruleId = r)) =
      (filed rt ms r).length +
        ms.countP (fun c => decide (c.rule.ruleId = r) && c.unresolved) := by
  have hfiled : (filed rt ms r).length =
      ms.countP (fun c => decide (c.rule.ruleId = r) && (AddCall.slot rt c).isSome) := by
    rw [filed, List.length_filterMap_eq_countP, List.countP_filter]
    apply List.countP_congr
    intro c _
    rw [Option.isSome_map, Bool.and_comm]
  rw [hfiled]
  apply countP_or
  · intro c hc
    rw [hslots c hc]
    cases c.unresolved <;> simp
  · intro c hc hfound
    rw [Bool.and_eq_true, hslots c hc] at hfound
    have hresolved : c.unresolved = false := by simpa using hfound.2
    rw [hresolved, Bool.and_false]

end Runs

section Cases
open InflightAccumulator

/-- The book of the rule on silent hosts. -/
def hostBook : RuleBook := ⟨fun _ => false, fun _ => true, fun _ => 256⟩

theorem hostBook_lists : hostBook.Lists {} silentHosts := ⟨rfl, rfl, rfl⟩

def hostCall (host : Json) : AddCall where
  rule := silentHosts
  envelope := [("raw", .obj [("host", host)])]
  integrationId := none
  organizationId := 1

def madeBy (calls : List AddCall) : InflightAccumulator :=
  calls.foldl (addCall hostLibrary {}) {}

theorem hostCall_renders (acc : InflightAccumulator) :
    (hostCall (.str "a")).Renders hostLibrary {} acc where
  group _ := rfl
  source s hs _ := by
    cases hs
    exact ⟨_, rfl⟩

def nested : Nat → Json
  | 0 => .list []
  | n + 1 => .list [nested n]

theorem repr_nested (rt : MappingRuntime) (fuel : Nat) (outer : List Json) :
    documents.repr rt () fuel outer (nested (fuel + 1)) = .error .recursionError := by
  have hlist : ∀ n, ∃ xs, nested n = .list xs := by
    intro n
    cases n with
    | zero => exact ⟨[], rfl⟩
    | succ n => exact ⟨[nested n], rfl⟩
  have hstep : ∀ (inner : List Json → Json → Except PyError String) (outer : List Json) n,
      inner (nested (n + 1) :: outer) (nested n) = .error .recursionError →
      documents.reprStep rt inner () outer (nested (n + 1)) = .error .recursionError := by
    intro inner outer n hinner
    have hsame : outer.any (documents.same (nested (n + 1))) = false := by
      rw [List.any_eq_false]
      intro v _
      rw [Bool.not_eq_true]
      rfl
    have hshape : documents.shape () (nested (n + 1)) = .list [nested n] := rfl
    rw [Objects.reprStep, hshape]
    simp only [hsame, Bool.false_eq_true, if_false, List.mapM_cons, hinner]
    rfl
  induction fuel generalizing outer with
  | zero => exact hstep _ outer 0 rfl
  | succ fuel ih => exact hstep _ outer (fuel + 1) (ih _)

theorem getPath_host (hnull : v ≠ .null) :
    getPath (.obj (hostCall v).envelope) ["raw", "host"] = v := by
  cases v with
  | null => exact absurd rfl hnull
  | _ => rfl

theorem unprintable_uncounted (hnull : v ≠ .null)
    (hstr : documents.str hostLibrary.toMappingRuntime () v = .error e) :
    ¬ Aggregates hostLibrary {} hostBook (madeBy [hostCall v]) [hostCall v] 7 := by
  intro h
  have hadd : madeBy [hostCall v] = ({} : InflightAccumulator).counted (hostCall v) :=
    add_unprintable rfl (getPath_host hnull) hnull hstr {}
  have htotal := h.total
  rw [hadd] at htotal
  cases htotal

theorem nested_ne_null (n : Nat) : nested n ≠ .null := by
  cases n with
  | zero => exact Json.noConfusion
  | succ n => exact Json.noConfusion

end Cases

end CentralOps
