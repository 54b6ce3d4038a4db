import CentralOps.Pipeline.Store
import CentralOps.Routing.Verdict

namespace CentralOps
set_option autoImplicit true

section Enqueue
variable (rt : Runtime) (settings : Settings) (db : Database)

def namedDestinations (routes : List CompiledRoute) : List String :=
  routes.flatMap CompiledRoute.destinationIds

/-- What `_enqueue_routed` passes to `route_batch`. -/
def enqueueArgs (batch : List Obj) (routes : List CompiledRoute) : RouteArgs where
  routes := routes
  fallbackDestinationId := loadFallbackDestinationId db (batchOrgId rt batch)
  destinationResidency := some (loadDestinationResidency db (namedDestinations routes))
  wazuhLoopDestinationIds := some (loadWazuhLoopDestinationIds rt db (namedDestinations routes))
  sampling := some {
    enabled := settings.reductionSampleEnabled && settings.costMeteringEnabled
    protectDetectionEnforced := settings.reductionSampleProtectDetection }
  measureDropBytes := settings.costMeteringEnabled

/-- The sub-batches handed to the broker and the events sent to the dead-letter queue. -/
structure EnqueueResult where
  enqueued : List (String × List Obj)
  unroutedDlq : List Obj

/-- `shed` is the back-pressure decision on a destination's sub-batch. -/
def enqueueRouted (batch : List Obj) (routes : List CompiledRoute)
    (shed : String → Nat → Bool) : EnqueueResult :=
  let result := routeBatch rt (enqueueArgs rt settings db batch routes) batch
  { enqueued := result.subBatches.entries.filter
      (fun p => !p.2.isEmpty && !shed p.1 p.2.length)
    unroutedDlq := result.unroutedEvents }

variable {rt settings db}

theorem mem_enqueued (h : p ∈ (enqueueRouted rt settings db batch routes shed).enqueued)
    (hx : x ∈ p.2) :
    ∃ env ∈ batch, copyFor rt (enqueueArgs rt settings db batch routes) env p.1 = some x := by
  obtain ⟨hp, -⟩ := List.mem_filter.1 h
  rw [← mem_bucket_iff, Dict.bucket, (Dict.mem_entries_iff _).1 hp]
  exact hx

theorem enqueued_of_copy (henv : env ∈ batch)
    (hc : copyFor rt (enqueueArgs rt settings db batch routes) env dest = some x) :
    ∃ events, (dest, events) ∈
      (enqueueRouted rt settings db batch routes (fun _ _ => false)).enqueued ∧ x ∈ events := by
  have hx := mem_bucket_iff.2 ⟨env, henv, hc⟩
  unfold Dict.bucket at hx
  cases hget : (routeBatch rt (enqueueArgs rt settings db batch routes) batch).subBatches.get?
      dest with
  | none =>
    rw [hget] at hx
    cases hx
  | some events =>
    rw [hget, Option.getD_some] at hx
    refine ⟨events, List.mem_filter.2 ⟨(Dict.mem_entries_iff _).2 hget, ?_⟩, hx⟩
    cases events with
    | nil => cases hx
    | cons => rfl

end Enqueue

section WazuhLoop
variable (rt : Runtime) (settings : Settings) (db : Database)

def LoopsBack (dest : String) : Prop :=
  ∃ row ∈ db.destinations, row.id = dest ∧ row.kind ∈ syslogDestKinds ∧
    ∃ host ∈ wazuhHosts rt db, configHost rt row = some (some host)

/-- No event from Wazuh is enqueued to a destination that leads back to Wazuh. -/
def NoWazuhLoop (batch : List Obj) (routes : List CompiledRoute) : Prop :=
  ∀ shed, ∀ p ∈ (enqueueRouted rt settings db batch routes shed).enqueued, ∀ x ∈ p.2,
    sourceIsWazuh (eventLabels x) = true → ¬ LoopsBack rt db p.1

/-- A loop destination that the loop set misses: no route names it, or the configuration of a
named syslog destination is no JSON object. -/
def LoopUnseen (routes : List CompiledRoute) (dest : String) : Prop :=
  LoopsBack rt db dest ∧ (dest ∉ namedDestinations routes ∨
    ∃ row ∈ syslogRows db (namedDestinations routes), configHost rt row = none)

variable {rt settings db}

theorem mem_loop_ids_iff (hl : LoopsBack rt db dest) (destIds : List String) :
    dest ∉ loadWazuhLoopDestinationIds rt db destIds ↔
      dest ∉ destIds ∨ ∃ row ∈ syslogRows db destIds, configHost rt row = none := by
  obtain ⟨row, hrow, hid, hkind, host, hhost, hconf⟩ := hl
  have hhosts : (wazuhHosts rt db).isEmpty = false := by
    cases hw : wazuhHosts rt db with
    | nil => rw [hw] at hhost; cases hhost
    | cons => rfl
  have hany : (syslogRows db destIds).any (fun r => (configHost rt r).isNone) = true ↔
      ∃ r ∈ syslogRows db destIds, configHost rt r = none := by
    simp only [List.any_eq_true, Option.isNone_iff_eq_none]
  unfold loadWazuhLoopDestinationIds
  constructor
  · intro h
    by_contra hno
    obtain ⟨hmem, hok⟩ := not_or.1 hno
    have hmem' : dest ∈ destIds := not_not.1 hmem
    have hne : destIds.isEmpty = false := by
      cases destIds with
      | nil => cases hmem'
      | cons => rfl
    rw [hne, hhosts, Bool.or_self, if_neg Bool.false_ne_true, if_neg (by rwa [hany])] at h
    apply h
    refine List.mem_map.2 ⟨row, List.mem_filter.2 ⟨List.mem_filter.2 ⟨hrow, ?_⟩, ?_⟩, hid⟩
    · simp [hid, hmem', hkind]
    · simp only [loopsToWazuh, hconf, List.contains_eq_mem, hhost, decide_true]
  · intro h hin
    split at hin
    · cases hin
    split at hin
    · cases hin
    next hall =>
    rcases h with h | h
    · obtain ⟨r, hr, rfl⟩ := List.mem_map.1 hin
      have hd := (List.mem_filter.1 (List.mem_filter.1 hr).1).2
      simp only [List.contains_eq_mem, Bool.and_eq_true, decide_eq_true_eq] at hd
      exact h hd.1
    · exact hall (hany.2 h)

theorem deliveredCopy_platform (w : CompiledRoute) (env : Obj) :
    sourceIsWazuh (eventLabels (deliveredCopy rt args w env)) =
      sourceIsWazuh (eventLabels env) := by
  have hl : (eventLabels (deliveredCopy rt args w env)).getN "platform" =
      (eventLabels env).getN "platform" := by
    simp only [Obj.getN, deliveredCopy_label (by decide : "platform" ≠ "sample_rate") (by decide)]
  rw [sourceIsWazuh, sourceIsWazuh, hl]

theorem loops_iff_mem (hz : sourceIsWazuh (eventLabels env) = true) :
    loops (enqueueArgs rt settings db batch routes) env dest = false ↔
      dest ∉ loadWazuhLoopDestinationIds rt db (namedDestinations routes) := by
  simp [loops, hz, RouteArgs.loopIds, enqueueArgs]

end WazuhLoop

theorem no_wazuh_loop_iff (rt : Runtime) (settings : Settings) (db : Database)
    (batch : List Obj) (routes : List CompiledRoute) :
    let args := enqueueArgs rt settings db batch routes
    NoWazuhLoop rt settings db batch routes ↔
      ∀ env ∈ batch, sourceIsWazuh (eventLabels env) = true →
        ∀ dest, LoopUnseen rt db routes dest →
          ¬ TakesFallback rt args env dest ∧
          ∀ w, winnerOf rt args env dest = some w →
            conflicts rt args (eventLabels env) dest = true ∨
            sampledOutOf rt args env w = true := by
  intro args
  constructor
  · intro h env henv hz dest ⟨hl, hunseen⟩
    have hloop : loops args env dest = false :=
      (loops_iff_mem hz).2 ((mem_loop_ids_iff hl _).2 hunseen)
    refine ⟨?_, ?_⟩
    · intro ht
      obtain ⟨events, hp, hx⟩ := enqueued_of_copy henv (copyFor_fallback ht)
      exact h _ _ hp env hx hz hl
    · intro w hw
      by_contra hno
      obtain ⟨hc, hs⟩ := not_or.1 hno
      have hcopy := copyFor_winner hw hloop (Bool.eq_false_iff.2 hc)
      rw [if_neg hs] at hcopy
      obtain ⟨events, hp, hx⟩ := enqueued_of_copy henv hcopy
      exact h _ _ hp _ hx ((deliveredCopy_platform w env).trans hz) hl
  · intro h shed p hp x hx hz hl
    obtain ⟨env, henv, hcopy⟩ := mem_enqueued hp hx
    rcases copyFor_cases hcopy with ⟨ht, rfl⟩ | ⟨w, hw, hloop, hc, hs, rfl⟩
    · have hunseen := (mem_loop_ids_iff hl _).1 ((loops_iff_mem hz).1 ht.no_loop)
      exact (h x henv hz p.1 ⟨hl, hunseen⟩).1 ht
    · have hz' : sourceIsWazuh (eventLabels env) = true := by
        rw [← hz, deliveredCopy_platform]
      have hunseen := (mem_loop_ids_iff hl _).1 ((loops_iff_mem hz').1 hloop)
      rcases (h env henv hz' p.1 ⟨hl, hunseen⟩).2 w hw with hcon | hsam
      · exact absurd (hc.symm.trans hcon) Bool.false_ne_true
      · exact absurd (hs.symm.trans hsam) Bool.false_ne_true

/-- A Wazuh integration, and a syslog destination on the same host that is the default. -/
def loopedDefault : Database where
  destinations := [{ id := "siem", kind := "syslog_rfc3164", isDefault := true,
                     config := .stored (.obj [("host", .str "wazuh.corp")]) }]
  integrations := [{ platform := "wazuh", managerUrl := some "https://wazuh.corp:55000" }]

def wazuhAlert : Obj := [("_centralops", .obj [("platform", .str "wazuh")])]

theorem loopedDefault_loops : ¬ NoWazuhLoop Runtime.ascii {} loopedDefault [wazuhAlert] [] := by
  intro h
  have hl : LoopsBack Runtime.ascii loopedDefault "siem" :=
    ⟨_, List.mem_singleton_self _, rfl, by decide, "wazuh.corp", by decide, by decide⟩
  exact h (fun _ _ => false) ("siem", [wazuhAlert]) (by decide) wazuhAlert
    (List.mem_singleton_self _) (by decide) hl

section FailClosed
variable (rt : Runtime) (settings : Settings) (db : Database)

def storedRoutes (rows : List RouteRow) : List CompiledRoute :=
  rows.filterMap (fun row => (buildRoute row []).toOption)

/-- The row's route would deliver the event to the destination. -/
def Receives (rows : List RouteRow) (row : RouteRow) (env : Obj) (dest : String) : Prop :=
  ∃ r, buildRoute row [] = .ok r ∧
    (dest, r) ∈ (evaluateEvent rt (eventLabels env) (orderRoutes (storedRoutes rows))).assignments

def specRules (row : RouteRow) : Except String (List CompiledRedactionRule) := do
  compilePiiRedaction rt (← row.piiRedaction.loads .null)

def Exposes (row : RouteRow) (env : Obj) : Prop :=
  ∀ rules, specRules rt row = .ok rules → redact rt rules env ≠ env

/-- No event that a route with a redaction spec would receive at a destination is enqueued
there in clear text. -/
def FailsClosed (orgId : Option Int) (batch : List Obj) : Prop :=
  ∀ shed, ∀ row ∈ listEnabledForOrg db.routes orgId, row.piiRedaction ≠ .empty →
    ∀ env ∈ batch, ∀ dest, Receives rt (listEnabledForOrg db.routes orgId) row env dest →
      Exposes rt row env →
      ∀ p ∈ (enqueueRouted rt settings db batch (loadRoutesForOrg rt settings db orgId)
        shed).enqueued, p.1 = dest → env ∉ p.2

variable {rt settings db}

theorem mapM_error {f : α → Except ε β} {l : List α} (h : ∃ a ∈ l, ∃ e, f a = .error e) :
    ∃ e, l.mapM f = .error e := by
  induction l with
  | nil =>
    obtain ⟨a, ha, -⟩ := h
    cases ha
  | cons b l ih =>
    rw [List.mapM_cons]
    cases hb : f b with
    | error e => exact ⟨e, rfl⟩
    | ok c =>
      obtain ⟨a, ha, e, he⟩ := h
      rcases List.mem_cons.1 ha with rfl | ha
      · rw [hb] at he
        cases he
      · obtain ⟨e', he'⟩ := ih ⟨a, ha, e, he⟩
        exact ⟨e', by rw [he']; rfl⟩

theorem loadRoutesForOrg_raises {orgId : Option Int}
    (h : ∃ row ∈ listEnabledForOrg db.routes orgId,
      ∃ e, compileRouteRow rt settings row = .error e) :
    loadRoutesForOrg rt settings db orgId = [] := by
  obtain ⟨e, he⟩ := mapM_error h
  rw [loadRoutesForOrg, he]

/-- Without routes every event goes to the fallback as it is. -/
theorem copyFor_no_routes (env : Obj) (dest : String) :
    copyFor rt (enqueueArgs rt settings db batch []) env dest =
      if loadFallbackDestinationId db (batchOrgId rt batch) = some dest then some env
      else none := by
  have hloop : loops (enqueueArgs rt settings db batch []) env dest = false := by
    simp [loops, RouteArgs.loopIds, enqueueArgs, namedDestinations, loadWazuhLoopDestinationIds]
  have hdec : decisionOf rt (enqueueArgs rt settings db batch []) env =
      evaluateEvent rt (eventLabels env) [] := rfl
  split
  · next hfb =>
    apply copyFor_fallback
    refine ⟨by rw [hdec]; rfl, hfb, hloop, ?_⟩
    intro d hd
    rw [hdec] at hd
    exact absurd hd (Finset.notMem_empty d)
  · next hfb =>
    cases hx : copyFor rt (enqueueArgs rt settings db batch []) env dest with
    | none => rfl
    | some x =>
      rcases copyFor_cases hx with ⟨ht, -⟩ | ⟨w, hw, -⟩
      · exact absurd ht.fallback hfb
      · cases hw

end FailClosed

theorem fails_closed_iff (rt : Runtime) (settings : Settings) (db : Database)
    (orgId : Option Int) (batch : List Obj)
    (hraise : ∃ row ∈ listEnabledForOrg db.routes orgId,
      ∃ e, compileRouteRow rt settings row = .error e) :
    FailsClosed rt settings db orgId batch ↔
      ∀ row ∈ listEnabledForOrg db.routes orgId, row.piiRedaction ≠ .empty →
        ∀ env ∈ batch, ∀ dest, loadFallbackDestinationId db (batchOrgId rt batch) = some dest →
          Receives rt (listEnabledForOrg db.routes orgId) row env dest →
            ∃ rules, specRules rt row = .ok rules ∧ redact rt rules env = env := by
  unfold FailsClosed
  rw [loadRoutesForOrg_raises hraise]
  constructor
  · intro h row hrow hspec env henv dest hfb hrec
    by_contra hno
    have hexp : Exposes rt row env := fun rules hr heq => hno ⟨rules, hr, heq⟩
    have hcopy : copyFor rt (enqueueArgs rt settings db batch []) env dest = some env := by
      rw [copyFor_no_routes, if_pos hfb]
    obtain ⟨events, hp, hx⟩ := enqueued_of_copy henv hcopy
    exact h _ row hrow hspec env henv dest hrec hexp _ hp rfl hx
  · intro h shed row hrow hspec env henv dest hrec hexp p hp hdest hx
    obtain ⟨env', -, hcopy⟩ := mem_enqueued hp hx
    rw [copyFor_no_routes] at hcopy
    split at hcopy
    · next hfb =>
      rw [hdest] at hfb
      obtain ⟨rules, hr, heq⟩ := h row hrow hspec env henv dest hfb hrec
      exact hexp rules hr heq
    · cases hcopy

def maskRow : RouteRow :=
  { id := "mask", priority := 1, condition := .empty, action := "route",
    destinationIds := .stored ["ext"], isFinal := false,
    piiRedaction := .stored (.list [.obj [("path", .str "raw.user"), ("action", .str "mask")]]) }

def corruptRow : RouteRow :=
  { id := "broken", priority := 2, condition := .corrupt, action := "route",
    destinationIds := .empty, isFinal := true, piiRedaction := .empty }

def defaultAt (dest : String) : Database where
  destinations := [{ id := dest, kind := "splunk_hec", config := .empty, isDefault := true }]
  routes := [maskRow, corruptRow]

def loginEvent : Obj := [("raw", .obj [("user", .str "ana")])]

theorem defaultAt_raises (dest : String) :
    ∃ row ∈ listEnabledForOrg (defaultAt dest).routes none,
      ∃ e, compileRouteRow Runtime.ascii { piiRedactionEnabled := true } row = .error e :=
  ⟨corruptRow, List.mem_cons_of_mem _ (List.mem_singleton_self _), _, rfl⟩

theorem masked_default_leaks :
    ¬ FailsClosed Runtime.ascii { piiRedactionEnabled := true } (defaultAt "ext") none
      [loginEvent] := by
  intro h
  have hrec : Receives Runtime.ascii (listEnabledForOrg (defaultAt "ext").routes none) maskRow
      loginEvent "ext" := ⟨_, rfl, List.mem_singleton_self _⟩
  have hexp : Exposes Runtime.ascii maskRow loginEvent := by
    intro rules hr
    have hrules : specRules Runtime.ascii maskRow =
        .ok [⟨"raw.user", "raw", "user", [], .mask none '*', by decide⟩] := rfl
    obtain rfl := Except.ok.inj (hrules.symm.trans hr)
    decide
  have hroutes := loadRoutesForOrg_raises (defaultAt_raises "ext")
  have hcopy : copyFor Runtime.ascii (enqueueArgs Runtime.ascii { piiRedactionEnabled := true }
      (defaultAt "ext") [loginEvent] []) loginEvent "ext" = some loginEvent := by
    rw [copyFor_no_routes]
    rfl
  obtain ⟨events, hp, hx⟩ := enqueued_of_copy (List.mem_singleton_self _) hcopy
  refine h (fun _ _ => false) maskRow List.mem_cons_self (fun he => by cases he) loginEvent
    (List.mem_singleton_self _) "ext" hrec hexp ("ext", events) ?_ rfl hx
  rw [hroutes]
  exact hp

theorem fails_closed_internal_default :
    FailsClosed Runtime.ascii { piiRedactionEnabled := true } (defaultAt "wazuh") none
      [loginEvent] := by
  rw [fails_closed_iff _ _ _ _ _ (defaultAt_raises "wazuh")]
  intro row _ _ env henv dest hfb hrec
  obtain rfl := List.mem_singleton.1 henv
  obtain ⟨r, -, hr⟩ := hrec
  have hdest : dest = "wazuh" := (Option.some.inj (show some "wazuh" = some dest from hfb)).symm
  have hm : dest ∈ (assignmentsOf (storedRoutes [maskRow])).map Prod.fst :=
    List.mem_map.2 ⟨_, hr, rfl⟩
  rw [hdest] at hm
  exact absurd hm (by decide)

end CentralOps
