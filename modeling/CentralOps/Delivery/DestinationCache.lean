import CentralOps.Lib.KeySort
import CentralOps.Lib.System
import CentralOps.Json

namespace CentralOps
set_option autoImplicit true

mutual
/-- The value with the keys of each dict in order, as `sort_keys` writes it. -/
def Json.sorted : Json → Json
  | .list xs => .list (sortedList xs)
  | .obj fields => .obj (Assoc.byKey (sortedFields fields))
  | v => v

def sortedList : List Json → List Json
  | [] => []
  | x :: xs => x.sorted :: sortedList xs

def sortedFields : Obj → Obj
  | [] => []
  | (k, v) :: rest => (k, v.sorted) :: sortedFields rest
end

def sortObj (o : Obj) : Obj := Assoc.byKey (sortedFields o)

/-- The row of a destination; a column of JSON text is the dict that the text holds. -/
structure Destination where
  name : String
  kind : String
  config : Obj
  delivery : Obj
  secretRef : Option String
  configVersion : String
  organizationId : Option Int
  enabled : Bool
  dataResidency : Option String
  secretVersion : Int := 1
  secretCreatedAt : Option Int := none
  secretRotatedAt : Option Int := none
  secretExpiresAt : Option Int := none
  secretRevokedAt : Option Int := none
  updatedAt : Int
  deriving DecidableEq

/-- `DestinationConfig`, the row as a worker reads it. -/
structure LoadedDestination where
  destinationId : String
  kind : String
  config : Obj
  delivery : Obj
  secretRef : Option String
  configVersion : String
  name : String
  organizationId : Option Int
  deriving DecidableEq

/-- The arguments of `add`. -/
structure NewDestination where
  name : String
  kind : String
  config : Obj
  delivery : Option Obj := none
  secretRef : Option String := none
  organizationId : Option Int := none
  enabled : Bool := true
  dataResidency : Option String := none

/-- The arguments of `update`; those not sent are `none`, as are a `config` or `delivery` of
`None`. -/
structure DestinationChanges where
  name : Option String := none
  config : Option Obj := none
  delivery : Option Obj := none
  enabled : Option Bool := none
  secretRef : Option (Option String) := none
  organizationId : Option (Option Int) := none
  dataResidency : Option (Option String) := none

def DestinationChanges.versionDirty (u : DestinationChanges) : Bool :=
  u.config.isSome || u.delivery.isSome || u.secretRef.isSome

def secretHint (secretRef : String) : String := String.ofList (secretRef.toList.take 8)

def effectiveDelivery (delivery : Obj) : Option String → Obj
  | some secretRef => Assoc.set "_secret_ref_hint" (.str (secretHint secretRef)) delivery
  | none => delivery

def versionPayload (config delivery : Obj) (secretRef : Option String) : Json :=
  .obj [("config", .obj config), ("delivery", .obj (effectiveDelivery delivery secretRef))]

section Version
variable (rt : Runtime) (dumps : Json → String)

/-- `compute_config_version`: the first twelve hex digits of the digest of the payload's text. -/
def payloadVersion (payload : Json) : String :=
  String.ofList ((List.range 12).map
    (fun i => Nat.digitChar ((rt.sha1 (dumps payload)).toNat / 16 ^ (39 - i) % 16)))

def computeVersion (config delivery : Obj) (secretRef : Option String) : String :=
  payloadVersion rt dumps (versionPayload config delivery secretRef)

namespace Destination

def add (a : NewDestination) (now : Int) : Destination where
  name := a.name
  kind := a.kind
  config := sortObj a.config
  delivery := sortObj (a.delivery.getD [])
  secretRef := a.secretRef
  configVersion := computeVersion rt dumps a.config (a.delivery.getD []) a.secretRef
  organizationId := a.organizationId
  enabled := a.enabled
  dataResidency := a.dataResidency
  updatedAt := now

def update (row : Destination) (u : DestinationChanges) (now : Int) : Destination :=
  { row with
    name := u.name.getD row.name
    config := (u.config.map sortObj).getD row.config
    delivery := (u.delivery.map sortObj).getD row.delivery
    enabled := u.enabled.getD row.enabled
    secretRef := u.secretRef.getD row.secretRef
    organizationId := u.organizationId.getD row.organizationId
    dataResidency := u.dataResidency.getD row.dataResidency
    configVersion :=
      if u.versionDirty then
        computeVersion rt dumps (u.config.getD row.config) (u.delivery.getD row.delivery)
          (u.secretRef.getD row.secretRef)
      else row.configVersion
    updatedAt := now }

def rotateCredential (row : Destination) (newSecretRef : String) (expiresAt : Option Int)
    (now : Int) : Destination :=
  { row with
    secretRef := some newSecretRef
    secretVersion := (if row.secretVersion = 0 then 1 else row.secretVersion) + 1
    secretCreatedAt := row.secretCreatedAt.or (some now)
    secretRotatedAt := some now
    secretExpiresAt := expiresAt.or row.secretExpiresAt
    secretRevokedAt := none
    configVersion := computeVersion rt dumps row.config row.delivery (some newSecretRef)
    updatedAt := now }

/-- The version of the row stays. -/
def revokeCredential (row : Destination) (now : Int) : Destination :=
  { row with
    secretRef := none
    enabled := false
    secretRevokedAt := some now
    updatedAt := now }

/-- `_load_destination_config`: only an enabled row has one. -/
def load (id : String) (row : Destination) : Option LoadedDestination :=
  if row.enabled then
    some
      { destinationId := id
        kind := row.kind
        config := row.config
        delivery := row.delivery
        secretRef := row.secretRef
        configVersion := row.configVersion
        name := row.name
        organizationId := row.organizationId }
  else none

end Destination
end Version

/-- What `registry.build` makes of a configuration. -/
structure Sender where
  builtFrom : LoadedDestination
  deriving DecidableEq

structure SenderEntry where
  target : Sender
  version : String
  loop : Nat
  deriving DecidableEq

/-- The entry of the destination is dropped, and a sender is built in its place; `built` is
whether `registry.build` returns. -/
def rebuildDestination (cache : Dict String SenderEntry) (config : LoadedDestination) (loop : Nat)
    (built : Bool) : Option Sender × Dict String SenderEntry :=
  if built then
    (some ⟨config⟩, cache.set config.destinationId ⟨⟨config⟩, config.configVersion, loop⟩)
  else (none, cache.filterKeys (· ≠ config.destinationId))

/-- `get_destination` on a loop. -/
def getDestination (cache : Dict String SenderEntry) (config : LoadedDestination) (loop : Nat)
    (built : Bool) : Option Sender × Dict String SenderEntry :=
  match cache.get? config.destinationId with
  | some entry =>
    if entry.version = config.configVersion ∧ entry.loop = loop then (some entry.target, cache)
    else rebuildDestination cache config loop built
  | none => rebuildDestination cache config loop built

/-- A call of `get_destination` that returned: what it read and what it was given. -/
structure Served where
  asked : LoadedDestination
  sender : Sender

/-- The rows, a worker's cache and what its calls have read. Beside them: every state a row was
committed in, every payload that was hashed, and what the calls returned. -/
structure DestinationWorld where
  rows : Dict String Destination := .empty
  cache : Dict String SenderEntry := .empty
  calls : Dict Nat LoadedDestination := .empty
  states : List (String × Destination) := []
  hashed : List Json := []
  served : List Served := []

inductive DestinationAction where
  | add (id : String) (row : NewDestination) (now : Int)
  | update (id : String) (changes : DestinationChanges) (now : Int)
  | rotateCredential (id newSecretRef : String) (expiresAt : Option Int) (now : Int)
  | revokeCredential (id : String) (now : Int)
  | read (call : Nat) (id : String)
  | getDestination (call loop : Nat) (built : Bool)
  | resetDestinations

namespace DestinationWorld

structure Write where
  id : String
  row : Destination
  hashed : List Json

section Actions
variable (rt : Runtime) (dumps : Json → String)

def writes (w : DestinationWorld) : DestinationAction → Option Write
  | .add id a now =>
    some ⟨id, .add rt dumps a now, [versionPayload a.config (a.delivery.getD []) a.secretRef]⟩
  | .update id u now => (w.rows.get? id).map fun row =>
    ⟨id, row.update rt dumps u now,
      if u.versionDirty then
        [versionPayload (u.config.getD row.config) (u.delivery.getD row.delivery)
          (u.secretRef.getD row.secretRef)]
      else []⟩
  | .rotateCredential id newSecretRef expiresAt now => (w.rows.get? id).map fun row =>
    ⟨id, row.rotateCredential rt dumps newSecretRef expiresAt now,
      [versionPayload row.config row.delivery (some newSecretRef)]⟩
  | .revokeCredential id now => (w.rows.get? id).map fun row => ⟨id, row.revokeCredential now, []⟩
  | .read _ _ | .getDestination _ _ _ | .resetDestinations => none

def commit (w : DestinationWorld) (x : Write) : DestinationWorld :=
  { w with
    rows := w.rows.set x.id x.row
    states := (x.id, x.row) :: w.states
    hashed := x.hashed ++ w.hashed }

def read (w : DestinationWorld) (call : Nat) (id : String) : DestinationWorld :=
  match (w.rows.get? id).bind (·.load id) with
  | some config => { w with calls := w.calls.set call config }
  | none => { w with calls := w.calls.filterKeys (· ≠ call) }

def get (w : DestinationWorld) (call loop : Nat) (built : Bool) : DestinationWorld :=
  match w.calls.get? call with
  | some config =>
    match CentralOps.getDestination w.cache config loop built with
    | (some sender, cache) => { w with cache := cache, served := ⟨config, sender⟩ :: w.served }
    | (none, cache) => { w with cache := cache }
  | none => w

def next (w : DestinationWorld) : DestinationAction → DestinationWorld
  | .read call id => w.read call id
  | .getDestination call loop built => w.get call loop built
  | .resetDestinations => { w with cache := .empty }
  | a => (w.writes rt dumps a).elim w w.commit

/-- A new row has a new id. -/
def enabled (w : DestinationWorld) : DestinationAction → Prop
  | .add id _ _ => w.rows.get? id = none
  | _ => True

def system : System DestinationWorld DestinationAction where
  enabled := enabled
  next := next rt dumps

end Actions
end DestinationWorld

/-- What the version of a row stands for. -/
structure SenderSettings where
  config : Obj
  delivery : Obj
  secretRef : Option String
  deriving DecidableEq

def Destination.settings (r : Destination) : SenderSettings := ⟨r.config, r.delivery, r.secretRef⟩

def LoadedDestination.settings (c : LoadedDestination) : SenderSettings :=
  ⟨c.config, c.delivery, c.secretRef⟩

/-- Two states of a row whose credentials differ in what is hashed, if in nothing else. -/
def ToldApart (r r' : Destination) : Prop :=
  r.config = r'.config → r.delivery = r'.delivery →
    r.secretRef = r'.secretRef ∨ r.secretRef.map secretHint ≠ r'.secretRef.map secretHint

namespace DestinationWorld

/-- Each call was given a sender built with the settings that it read, and the states of a row
with one version have the same settings. -/
structure Effective (w : DestinationWorld) : Prop where
  served : ∀ s ∈ w.served, s.sender.builtFrom.settings = s.asked.settings
  versions : ∀ id r r', (id, r) ∈ w.states → (id, r') ∈ w.states →
    r.configVersion = r'.configVersion → r.settings = r'.settings

def Clears (w : DestinationWorld) : DestinationAction → Prop
  | .revokeCredential id _ => ∃ r, w.rows.get? id = some r ∧ r.secretRef ≠ none
  | _ => False

/-- The row written has no setting under the name of the hint, and is told apart from the states
before it. -/
def Write.Visible (w : DestinationWorld) (x : Write) : Prop :=
  "_secret_ref_hint" ∉ x.row.delivery.map Prod.fst ∧
    ∀ r, (x.id, r) ∈ w.states → ToldApart r x.row

def Visible (rt : Runtime) (dumps : Json → String) (w : DestinationWorld)
    (a : DestinationAction) : Prop :=
  ¬ w.Clears a ∧ ∀ x, w.writes rt dumps a = some x → x.Visible w

end DestinationWorld

theorem sortedFields_eq (o : Obj) : sortedFields o = o.map (fun p => (p.1, p.2.sorted)) := by
  induction o with
  | nil => rfl
  | cons p o ih => rw [List.map_cons, ← ih]; rfl

theorem sortedFields_of_fixed {o : Obj} (h : ∀ p ∈ o, p.2.sorted = p.2) : sortedFields o = o := by
  rw [sortedFields_eq]
  have hid : ∀ p ∈ o, (p.1, p.2.sorted) = p := fun p hp => Prod.ext rfl (h p hp)
  rw [List.map_congr_left hid, List.map_id']

mutual
theorem Json.sorted_sorted : (v : Json) → v.sorted.sorted = v.sorted
  | .null | .bool _ | .int _ | .float _ | .str _ => rfl
  | .list xs => congrArg Json.list (sortedList_sortedList xs)
  | .obj fields => by
    have hfixed : ∀ p ∈ Assoc.byKey (sortedFields fields), p.2.sorted = p.2 :=
      fun p hp => sortedFields_fixed fields p ((Assoc.byKey_perm _).mem_iff.1 hp)
    rw [Json.sorted, Json.sorted, sortedFields_of_fixed hfixed, Assoc.byKey_byKey]

theorem sortedList_sortedList : (xs : List Json) → sortedList (sortedList xs) = sortedList xs
  | [] => rfl
  | x :: xs => by
    rw [sortedList, sortedList, x.sorted_sorted, sortedList_sortedList xs]

theorem sortedFields_fixed : (o : Obj) → ∀ p ∈ sortedFields o, p.2.sorted = p.2
  | [], p, hp => absurd hp List.not_mem_nil
  | (k, v) :: rest, p, hp => by
    rw [sortedFields, List.mem_cons] at hp
    obtain rfl | hp := hp
    · exact v.sorted_sorted
    · exact sortedFields_fixed rest p hp
end

@[simp] theorem sortObj_sortObj (o : Obj) : sortObj (sortObj o) = sortObj o :=
  Json.obj.inj (Json.obj o).sorted_sorted

theorem sortedFields_keys (o : Obj) : (sortedFields o).map Prod.fst = o.map Prod.fst := by
  rw [sortedFields_eq, List.map_map]
  rfl

theorem mem_keys_sortObj {o : Obj} {k : String} :
    k ∈ (sortObj o).map Prod.fst ↔ k ∈ o.map Prod.fst := by
  rw [sortObj, ((Assoc.byKey_perm _).map Prod.fst).mem_iff, sortedFields_keys]

theorem sortedFields_set (o : Obj) (k : String) (v : Json) :
    sortedFields (Assoc.set k v o) = Assoc.set k v.sorted (sortedFields o) := by
  induction o with
  | nil => rfl
  | cons p o ih =>
    obtain ⟨j, u⟩ := p
    by_cases h : j = k
    · simp [Assoc.set, sortedFields, h]
    · simp [Assoc.set, sortedFields, h, ih]

theorem sorted_versionPayload (config delivery : Obj) (secretRef : Option String) :
    (versionPayload config delivery secretRef).sorted =
      .obj [("config", .obj (sortObj config)),
        ("delivery", .obj (sortObj (effectiveDelivery delivery secretRef)))] := by
  rw [versionPayload, Json.sorted]
  apply congrArg Json.obj
  apply Assoc.byKey_of_sorted
  apply List.pairwise_pair.2
  change ("config" : String) ≤ "delivery"
  decide

/-- What is hashed determines the settings, up to the end of the credential. -/
theorem sortObj_effectiveDelivery_inj {d d' : Obj} {s s' : Option String}
    (hd : "_secret_ref_hint" ∉ d.map Prod.fst) (hd' : "_secret_ref_hint" ∉ d'.map Prod.fst)
    (h : sortObj (effectiveDelivery d s) = sortObj (effectiveDelivery d' s')) :
    s.map secretHint = s'.map secretHint ∧ sortObj d = sortObj d' := by
  have hset : ∀ (o : Obj) (v : Json),
      "_secret_ref_hint" ∈ (sortObj (Assoc.set "_secret_ref_hint" v o)).map Prod.fst := by
    intro o v
    rw [mem_keys_sortObj]
    exact List.mem_map_of_mem (Assoc.mem_set_self _ v o)
  cases s with
  | none =>
    cases s' with
    | none => exact ⟨rfl, h⟩
    | some s' => exact absurd (mem_keys_sortObj.1 (h ▸ hset _ _)) hd
  | some s =>
    cases s' with
    | none => exact absurd (mem_keys_sortObj.1 (h.symm ▸ hset _ _)) hd'
    | some s' =>
      rw [effectiveDelivery, effectiveDelivery, sortObj, sortObj, sortedFields_set,
        sortedFields_set] at h
      obtain ⟨hhint, hrest⟩ := Assoc.byKey_set_inj (by rwa [sortedFields_keys])
        (by rwa [sortedFields_keys]) h
      exact ⟨congrArg some (Json.str.inj hhint), hrest⟩

theorem ToldApart.symm (h : ToldApart r r') : ToldApart r' r :=
  fun hc hd => (h hc.symm hd.symm).imp Eq.symm Ne.symm

section Version
variable {rt : Runtime} {dumps : Json → String} {hashed hashed' : List Json} {r r' : Destination}

def Destination.Versioned (rt : Runtime) (dumps : Json → String) (hashed : List Json)
    (r : Destination) : Prop :=
  ∃ c d, r.config = sortObj c ∧ r.delivery = sortObj d ∧
    r.configVersion = computeVersion rt dumps c d r.secretRef ∧
    versionPayload c d r.secretRef ∈ hashed

/-- No two of the hashed payloads share a text that differs in what they say, or a version. -/
structure Injective (rt : Runtime) (dumps : Json → String) (hashed : List Json) : Prop where
  digest : ∀ a ∈ hashed, ∀ b ∈ hashed,
    payloadVersion rt dumps a = payloadVersion rt dumps b → dumps a = dumps b
  dumps : ∀ a ∈ hashed, ∀ b ∈ hashed, dumps a = dumps b → a.sorted = b.sorted

theorem Destination.Versioned.mono (h : r.Versioned rt dumps hashed) (hsub : hashed ⊆ hashed') :
    r.Versioned rt dumps hashed' := by
  obtain ⟨c, d, hc, hd, hv, hp⟩ := h
  exact ⟨c, d, hc, hd, hv, hsub hp⟩

theorem Destination.Versioned.sorted (h : r.Versioned rt dumps hashed) :
    sortObj r.config = r.config ∧ sortObj r.delivery = r.delivery := by
  obtain ⟨c, d, hc, hd, -, -⟩ := h
  rw [hc, hd]
  exact ⟨sortObj_sortObj c, sortObj_sortObj d⟩

theorem Destination.Versioned.update (h : r.Versioned rt dumps hashed) (u : DestinationChanges)
    (now : Int) (hsub : hashed ⊆ hashed')
    (hdirty : u.versionDirty = true → versionPayload (u.config.getD r.config)
      (u.delivery.getD r.delivery) (u.secretRef.getD r.secretRef) ∈ hashed') :
    (r.update rt dumps u now).Versioned rt dumps hashed' := by
  by_cases hu : u.versionDirty = true
  · obtain ⟨hc, hd⟩ := h.sorted
    refine ⟨u.config.getD r.config, u.delivery.getD r.delivery, ?_, ?_, if_pos hu, hdirty hu⟩
    · cases huc : u.config <;> simp [Destination.update, huc, hc]
    · cases hud : u.delivery <;> simp [Destination.update, hud, hd]
  · obtain ⟨c, d, hc, hd, hv, hp⟩ := h
    have hkept := hu
    simp only [DestinationChanges.versionDirty, Bool.or_eq_true, Option.isSome_iff_ne_none, not_or,
      not_not] at hkept
    obtain ⟨⟨huc, hud⟩, hus⟩ := hkept
    refine ⟨c, d, ?_, ?_, ?_, ?_⟩
    · simp [Destination.update, huc, hc]
    · simp [Destination.update, hud, hd]
    · simp [Destination.update, hu, hus, hv]
    · simpa [Destination.update, hus] using hsub hp

theorem Destination.Versioned.settings_eq (h : r.Versioned rt dumps hashed)
    (h' : r'.Versioned rt dumps hashed) (hinj : Injective rt dumps hashed)
    (hr : "_secret_ref_hint" ∉ r.delivery.map Prod.fst)
    (hr' : "_secret_ref_hint" ∉ r'.delivery.map Prod.fst) (htold : ToldApart r r')
    (hv : r.configVersion = r'.configVersion) : r.settings = r'.settings := by
  obtain ⟨c, d, hc, hd, hver, hp⟩ := h
  obtain ⟨c', d', hc', hd', hver', hp'⟩ := h'
  have htext := hinj.digest _ hp _ hp' (hver.symm.trans (hv.trans hver'))
  have hpayload := hinj.dumps _ hp _ hp' htext
  simp only [sorted_versionPayload, Json.obj.injEq, List.cons.injEq, Prod.mk.injEq, true_and,
    and_true] at hpayload
  rw [hd, mem_keys_sortObj] at hr
  rw [hd', mem_keys_sortObj] at hr'
  obtain ⟨hhint, hsorted⟩ := sortObj_effectiveDelivery_inj hr hr' hpayload.2
  have hconfig : r.config = r'.config := hc.trans (hpayload.1.trans hc'.symm)
  have hdelivery : r.delivery = r'.delivery := hd.trans (hsorted.trans hd'.symm)
  obtain hs | hs := htold hconfig hdelivery
  · rw [Destination.settings, Destination.settings, hconfig, hdelivery, hs]
  · exact absurd hhint hs

end Version

namespace DestinationWorld
variable {rt : Runtime} {dumps : Json → String} {w w' : DestinationWorld}

/-- A configuration that was read of a committed state of its row. -/
def Read (w : DestinationWorld) (c : LoadedDestination) : Prop :=
  ∃ r, (c.destinationId, r) ∈ w.states ∧ r.load c.destinationId = some c

/-- Every state has the version of its settings, and what was read, cached or handed out is a
state of its row, under its version. -/
structure Sound (rt : Runtime) (dumps : Json → String) (w : DestinationWorld) : Prop where
  versioned : ∀ p ∈ w.states, p.2.Versioned rt dumps w.hashed
  unnamed : ∀ p ∈ w.states, "_secret_ref_hint" ∉ p.2.delivery.map Prod.fst
  told : ∀ id r r', (id, r) ∈ w.states → (id, r') ∈ w.states → ToldApart r r'
  rows : ∀ id r, w.rows.get? id = some r → (id, r) ∈ w.states
  calls : ∀ call c, w.calls.get? call = some c → w.Read c
  cached : ∀ id e, w.cache.get? id = some e → w.Read e.target.builtFrom ∧
    e.target.builtFrom.destinationId = id ∧ e.version = e.target.builtFrom.configVersion
  served : ∀ s ∈ w.served, w.Read s.asked ∧ w.Read s.sender.builtFrom ∧
    s.sender.builtFrom.destinationId = s.asked.destinationId ∧
      s.sender.builtFrom.configVersion = s.asked.configVersion

theorem Read.mono (h : w.Read c) (hsub : ∀ p ∈ w.states, p ∈ w'.states) : w'.Read c := by
  obtain ⟨r, hr, hload⟩ := h
  exact ⟨r, hsub _ hr, hload⟩

theorem load_eq {id : String} {r : Destination} (h : r.load id = some c) :
    c.destinationId = id ∧ c.configVersion = r.configVersion ∧ c.settings = r.settings := by
  rw [Destination.load] at h
  split at h
  · obtain rfl := Option.some.inj h
    exact ⟨rfl, rfl, rfl⟩
  · cases h

theorem Sound.effective (h : w.Sound rt dumps) (hinj : Injective rt dumps w.hashed) :
    w.Effective := by
  have hversions : ∀ id r r', (id, r) ∈ w.states → (id, r') ∈ w.states →
      r.configVersion = r'.configVersion → r.settings = r'.settings := by
    intro id r r' hr hr' hv
    exact (h.versioned _ hr).settings_eq (h.versioned _ hr') hinj (h.unnamed _ hr)
      (h.unnamed _ hr') (h.told id r r' hr hr') hv
  refine ⟨fun s hs => ?_, hversions⟩
  obtain ⟨⟨r, hr, hload⟩, ⟨r', hr', hload'⟩, hid, hv⟩ := h.served s hs
  obtain ⟨-, hrv, hrs⟩ := load_eq hload
  obtain ⟨-, hrv', hrs'⟩ := load_eq hload'
  rw [hid] at hr'
  rw [hrs, hrs']
  exact hversions _ r' r hr' hr (hrv'.symm.trans (hv.trans hrv))

theorem Sound.writes_versioned (h : w.Sound rt dumps) (hclears : ¬ w.Clears a) {x : Write}
    (hx : w.writes rt dumps a = some x) : x.row.Versioned rt dumps (x.hashed ++ w.hashed) := by
  have hrow : ∀ id r, w.rows.get? id = some r → r.Versioned rt dumps w.hashed :=
    fun id r hr => h.versioned _ (h.rows id r hr)
  cases a with
  | add id a now =>
    obtain rfl := Option.some.inj hx
    exact ⟨_, _, rfl, rfl, rfl, List.mem_cons_self⟩
  | update id u now =>
    obtain ⟨r, hr, rfl⟩ := Option.map_eq_some_iff.1 hx
    apply (hrow id r hr).update u now (List.subset_append_right _ _)
    intro hdirty
    rw [if_pos hdirty]
    exact List.mem_cons_self
  | rotateCredential id newSecretRef expiresAt now =>
    obtain ⟨r, hr, rfl⟩ := Option.map_eq_some_iff.1 hx
    obtain ⟨hc, hd⟩ := (hrow id r hr).sorted
    exact ⟨r.config, r.delivery, hc.symm, hd.symm, rfl, List.mem_cons_self⟩
  | revokeCredential id now =>
    obtain ⟨r, hr, rfl⟩ := Option.map_eq_some_iff.1 hx
    have hnone : r.secretRef = none := not_not.1 fun hs => hclears ⟨r, hr, hs⟩
    obtain ⟨c, d, hc, hd, hv, hp⟩ := hrow id r hr
    rw [hnone] at hv hp
    exact ⟨c, d, hc, hd, hv, hp⟩
  | read => cases hx
  | getDestination => cases hx
  | resetDestinations => cases hx

theorem Sound.commit (h : w.Sound rt dumps) {x : Write} (hvis : x.Visible w)
    (hx : x.row.Versioned rt dumps (x.hashed ++ w.hashed)) : (w.commit x).Sound rt dumps := by
  have hsub : ∀ p ∈ w.states, p ∈ (w.commit x).states := fun p hp => List.mem_cons_of_mem _ hp
  constructor
  · intro p hp
    obtain rfl | hp := List.mem_cons.1 hp
    · exact hx
    · exact (h.versioned p hp).mono (List.subset_append_right _ _)
  · intro p hp
    obtain rfl | hp := List.mem_cons.1 hp
    · exact hvis.1
    · exact h.unnamed p hp
  · intro id r r' hr hr'
    obtain he | hr := List.mem_cons.1 hr
    · obtain ⟨rfl, rfl⟩ := Prod.mk.inj he
      obtain he' | hr' := List.mem_cons.1 hr'
      · obtain ⟨-, rfl⟩ := Prod.mk.inj he'
        exact fun _ _ => .inl rfl
      · exact (hvis.2 r' hr').symm
    · obtain he' | hr' := List.mem_cons.1 hr'
      · obtain ⟨rfl, rfl⟩ := Prod.mk.inj he'
        exact hvis.2 r hr
      · exact h.told id r r' hr hr'
  · intro id r hr
    by_cases hid : id = x.id
    · subst hid
      obtain rfl := Option.some.inj ((Dict.get?_set_self ..).symm.trans hr)
      exact List.mem_cons_self
    · exact List.mem_cons_of_mem _ (h.rows id r ((Dict.get?_set_ne _ hid _).symm.trans hr))
  · exact fun call c hc => (h.calls call c hc).mono hsub
  · intro id e he
    obtain ⟨hread, hrest⟩ := h.cached id e he
    exact ⟨hread.mono hsub, hrest⟩
  · intro s hs
    obtain ⟨hasked, hbuilt, hrest⟩ := h.served s hs
    exact ⟨hasked.mono hsub, hbuilt.mono hsub, hrest⟩

theorem Sound.read (h : w.Sound rt dumps) (call : Nat) (id : String) :
    (w.read call id).Sound rt dumps := by
  rw [DestinationWorld.read]
  split
  · next config hconfig =>
    obtain ⟨r, hr, hload⟩ := Option.bind_eq_some_iff.1 hconfig
    refine { h with calls := fun i c hc => ?_ }
    by_cases hi : i = call
    · subst hi
      obtain rfl := Option.some.inj ((Dict.get?_set_self ..).symm.trans hc)
      obtain ⟨hid, -, -⟩ := load_eq hload
      exact ⟨r, hid ▸ h.rows id r hr, hid.symm ▸ hload⟩
    · exact h.calls i c ((Dict.get?_set_ne _ hi _).symm.trans hc)
  · refine { h with calls := fun i c hc => h.calls i c ?_ }
    rw [Dict.get?_filterKeys] at hc
    split at hc
    · exact hc
    · cases hc

theorem getDestination_cases (cache : Dict String SenderEntry) (config : LoadedDestination)
    (loop : Nat) (built : Bool) :
    (∃ e, cache.get? config.destinationId = some e ∧ e.version = config.configVersion ∧
      getDestination cache config loop built = (some e.target, cache)) ∨
    getDestination cache config loop built = rebuildDestination cache config loop built := by
  rw [getDestination]
  cases he : cache.get? config.destinationId with
  | none => exact .inr rfl
  | some e =>
    by_cases hsame : e.version = config.configVersion ∧ e.loop = loop
    · exact .inl ⟨e, rfl, hsame.1, if_pos hsame⟩
    · exact .inr (if_neg hsame)

theorem Sound.get (h : w.Sound rt dumps) (call loop : Nat) (built : Bool) :
    (w.get call loop built).Sound rt dumps := by
  rw [DestinationWorld.get]
  cases hc : w.calls.get? call with
  | none => exact h
  | some config =>
    have hread := h.calls call config hc
    obtain ⟨e, he, hv, heq⟩ | heq := getDestination_cases w.cache config loop built
    · obtain ⟨hbuilt, hid, hversion⟩ := h.cached _ e he
      simp only [heq]
      refine { h with served := fun s hs => ?_ }
      obtain rfl | hs := List.mem_cons.1 hs
      · exact ⟨hread, hbuilt, hid, hversion.symm.trans hv⟩
      · exact h.served s hs
    · rw [rebuildDestination] at heq
      cases built with
      | true =>
        simp only [heq, if_true]
        refine { h with cached := fun id e he => ?_, served := fun s hs => ?_ }
        · by_cases hid : id = config.destinationId
          · subst hid
            obtain rfl := Option.some.inj ((Dict.get?_set_self ..).symm.trans he)
            exact ⟨hread, rfl, rfl⟩
          · exact h.cached id e ((Dict.get?_set_ne _ hid _).symm.trans he)
        · obtain rfl | hs := List.mem_cons.1 hs
          · exact ⟨hread, hread, rfl, rfl⟩
          · exact h.served s hs
      | false =>
        simp only [heq, Bool.false_eq_true, if_false]
        refine { h with cached := fun id e he => h.cached id e ?_ }
        rw [Dict.get?_filterKeys] at he
        split at he
        · exact he
        · cases he

theorem Sound.write (h : w.Sound rt dumps) {a : DestinationAction}
    (hvis : w.Visible rt dumps a) : ((w.writes rt dumps a).elim w w.commit).Sound rt dumps := by
  cases hx : w.writes rt dumps a with
  | none => exact h
  | some x => exact h.commit (hvis.2 x hx) (h.writes_versioned hvis.1 hx)

theorem Sound.next (h : w.Sound rt dumps) {a : DestinationAction}
    (hvis : w.Visible rt dumps a) : (w.next rt dumps a).Sound rt dumps := by
  cases a with
  | read call id => exact h.read call id
  | getDestination call loop built => exact h.get call loop built
  | resetDestinations => exact { h with cached := fun id e he => by cases he }
  | add => exact h.write hvis
  | update => exact h.write hvis
  | rotateCredential => exact h.write hvis
  | revokeCredential => exact h.write hvis

theorem sound_initial : Sound rt dumps {} where
  versioned _ h := (List.not_mem_nil h).elim
  unnamed _ h := (List.not_mem_nil h).elim
  told _ _ _ h := (List.not_mem_nil h).elim
  rows _ _ h := by cases h
  calls _ _ h := by cases h
  cached _ _ h := by cases h
  served _ h := (List.not_mem_nil h).elim

/-- Where no row is written whose credential its hash cannot tell from an earlier one, and no
credential is revoked, a call is only ever given a sender with the settings that it read. -/
theorem credential_change_takes_effect (rt : Runtime) (dumps : Json → String)
    (y : DestinationWorld) (h : (system rt dumps).Reaches (Visible rt dumps) {} y)
    (hinj : Injective rt dumps y.hashed) : y.Effective := by
  have hsound : y.Sound rt dumps :=
    h.invariant (fun w a hw _ hvis => hw.next hvis) sound_initial
  exact hsound.effective hinj

instance (w : DestinationWorld) : (a : DestinationAction) → Decidable (enabled w a)
  | .add id _ _ => inferInstanceAs (Decidable (w.rows.get? id = none))
  | .update _ _ _ | .rotateCredential _ _ _ _ | .revokeCredential _ _ | .read _ _
  | .getDestination _ _ _ | .resetDestinations => isTrue trivial

instance (w : DestinationWorld) : (a : DestinationAction) → Decidable (w.Clears a)
  | .revokeCredential id _ =>
    decidable_of_iff ((w.rows.get? id).any (fun r => r.secretRef ≠ none) = true) (by
      simp [Clears, Option.any_eq_true])
  | .add _ _ _ | .update _ _ _ | .rotateCredential _ _ _ _ | .read _ _ | .getDestination _ _ _
  | .resetDestinations => isFalse not_false

instance : Decidable (ToldApart r r') := inferInstanceAs (Decidable (_ → _ → _ ∨ _))

instance (w : DestinationWorld) (x : Write) : Decidable (x.Visible w) :=
  decidable_of_iff ("_secret_ref_hint" ∉ x.row.delivery.map Prod.fst ∧
      ∀ p ∈ w.states, p.1 = x.id → ToldApart p.2 x.row) (by
    apply and_congr_right
    intro _
    exact ⟨fun h r hr => h _ hr rfl, fun h p hp he => h p.2 (he ▸ hp)⟩)

instance (w : DestinationWorld) (a : DestinationAction) : Decidable (w.Visible rt dumps a) :=
  inferInstanceAs (Decidable (¬ _ ∧ ∀ x ∈ w.writes rt dumps a, x.Visible w))

instance (rt : Runtime) (dumps : Json → String) (w : DestinationWorld) (a : DestinationAction) :
    Decidable ((system rt dumps).enabled w a) :=
  inferInstanceAs (Decidable (enabled w a))

def hecConfig : Obj := [("url", .str "https://hec.acme.test:8088")]

/-- Two tokens of the local backend. -/
def firstToken : String :=
  "enc::gAAAAABo53gApU3KGCUwux1tEyze1iN7LtkeP3IfyxlxF0SU1kk8nVw0YL4xIB5p_tqg7ui5mX9cfCmZ_a_l" ++
    "kyU81lSvTfrXFA=="

def secondToken : String :=
  "enc::gAAAAABo54YQJ6Cus_7pIy-K8iEfnuSRxbEL7LVWO_web5NCfsvI_ilV5c2ORtyO1LfCdk0qWk12dwb4XYaQ" ++
    "AkrWvaNAG-nIyw=="

def transitToken : String := "vault:v1:8SDd3WHDOjf7mq69CyCqYjBXAiQQAVZRkFM13ok481zoCmHnSeDX9vyf7w=="

def localText : String :=
  "\x7b\"config\": \x7b\"url\": \"https://hec.acme.test:8088\"\x7d, " ++
    "\"delivery\": \x7b\"_secret_ref_hint\": \"enc::gAA\"\x7d\x7d"

def transitText : String :=
  "\x7b\"config\": \x7b\"url\": \"https://hec.acme.test:8088\"\x7d, " ++
    "\"delivery\": \x7b\"_secret_ref_hint\": \"vault:v1\"\x7d\x7d"

def hecDumps (payload : Json) : String :=
  if payload = versionPayload hecConfig [] (some firstToken) then localText
  else if payload = versionPayload hecConfig [] (some transitToken) then transitText
  else ""

def hecRuntime : Runtime :=
  { Runtime.ascii with
    sha1 := fun s =>
      if s = localText then 0xaeadd8de1f7fd6e7ba360bedd569262e851a0ed5#160
      else if s = transitText then 0xb6019a4293480c67a77b9b3d8141c5aaba9f710c#160
      else 0 }

def rotated (newToken : String) : List DestinationAction :=
  [.add "d1"
      { name := "hec", kind := "splunk_hec", config := hecConfig, secretRef := some firstToken } 0,
    .read 0 "d1", .getDestination 0 0 true, .rotateCredential "d1" newToken none 1,
    .read 1 "d1", .getDestination 1 0 true]

theorem credential_change_hidden :
    ∃ y, (system hecRuntime hecDumps).Reaches (fun _ _ => True) {} y ∧
      Injective hecRuntime hecDumps y.hashed ∧ ¬ y.Effective := by
  have hrun : (system hecRuntime hecDumps).Follows (fun _ _ => True) {} (rotated secondToken) := by
    decide +kernel
  refine ⟨_, hrun.reaches, ?_, fun h => ?_⟩
  · have hhashed : ∀ a ∈ ((rotated secondToken).foldl (system hecRuntime hecDumps).next {}).hashed,
        a = versionPayload hecConfig [] (some firstToken) := by decide +kernel
    constructor
    · intro a ha b hb _
      rw [hhashed a ha, hhashed b hb]
    · intro a ha b hb _
      rw [hhashed a ha, hhashed b hb]
  · have hstale : ∃ s ∈ ((rotated secondToken).foldl (system hecRuntime hecDumps).next {}).served,
        s.sender.builtFrom.settings ≠ s.asked.settings := by decide +kernel
    obtain ⟨s, hs, hne⟩ := hstale
    exact hne (h.served s hs)

theorem credential_change_takes_effect_transit :
    ∃ y, (system hecRuntime hecDumps).Reaches (Visible hecRuntime hecDumps) {} y ∧
      y.served.length = 2 ∧ y.Effective := by
  have hrun : (system hecRuntime hecDumps).Follows (Visible hecRuntime hecDumps) {}
      (rotated transitToken) := by decide +kernel
  have hhashed : ((rotated transitToken).foldl (system hecRuntime hecDumps).next {}).hashed =
      [versionPayload hecConfig [] (some transitToken),
        versionPayload hecConfig [] (some firstToken)] := by decide +kernel
  have hinj : Injective hecRuntime hecDumps
      ((rotated transitToken).foldl (system hecRuntime hecDumps).next {}).hashed := by
    rw [hhashed]
    constructor
    · decide +kernel
    · decide +kernel
  exact ⟨_, hrun.reaches, by decide +kernel,
    credential_change_takes_effect hecRuntime hecDumps _ hrun.reaches hinj⟩

end DestinationWorld
end CentralOps
