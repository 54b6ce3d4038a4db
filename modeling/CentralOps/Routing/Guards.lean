import CentralOps.Routing.Accounting

namespace CentralOps
set_option autoImplicit true

section Redaction
variable (rt : Runtime) (args : RouteArgs)

/-- The image of an envelope under the rules, up to a `sample_rate` label and the removal of
`raw`. -/
def RedactedImage (rules : List CompiledRedactionRule) (env x : Obj) : Prop :=
  ∃ (percent : Option Int) (dropRaw : Bool),
    let labelled := percent.elim env (withSampleRate env)
    let redacted := redact rt rules labelled
    x = if dropRaw then (withoutRaw redacted).getD redacted else redacted

/-- A route that assigns the destination to the event and redacts. -/
def RedactsFor (env : Obj) (dest : String) (r : CompiledRoute) : Prop :=
  (dest, r) ∈ (decisionOf rt args env).assignments ∧ r.redacts = true

/-- At most one copy each, redacted wherever a redacting route assigned it, and never the
clear text of an event that the rules change. -/
def RedactionWins (batch : List Obj) : Prop :=
  ∀ i env dest, batch[i]? = some env →
    (copiesAt rt args batch i dest).length ≤ 1 ∧
    ((∃ r, RedactsFor rt args env dest r) →
      (∀ x ∈ copiesAt rt args batch i dest,
        ∃ r, RedactsFor rt args env dest r ∧ RedactedImage rt r.redaction env x) ∧
      ((∀ r, RedactsFor rt args env dest r → redact rt r.redaction env ≠ env) →
        env ∉ copiesAt rt args batch i dest))

end Redaction

section RedactionLemmas
variable {rt : Runtime} {args : RouteArgs} {env : Obj}

theorem deliveredCopy_image (w : CompiledRoute) (env : Obj) :
    RedactedImage rt w.redaction env (deliveredCopy rt args w env) := by
  refine ⟨if labelsSample args w then some w.samplePercent else none, dropsRaw w, ?_⟩
  cases hl : labelsSample args w <;> simp [deliveredCopy, redactedCopy, hl]

theorem withSampleRate_lookup (env : Obj) (p : Int) (h : k ≠ "_centralops") :
    (withSampleRate env p).lookup k = env.lookup k :=
  SameBody.set_centralops env _ k h

theorem eq_of_redact_label (h : redact rt rules (withSampleRate env p) = env) :
    redact rt rules env = env := by
  have hl : env.lookup "_centralops" = (withSampleRate env p).lookup "_centralops" := by
    rw [← redact_centralops rt rules (withSampleRate env p), h]
  have hw : withSampleRate env p = env := by
    apply Assoc.set_eq_self
    rw [hl]
    exact Assoc.lookup_set_self _ _ _
  rwa [hw] at h

theorem withoutRaw_lookup (h : withoutRaw o = some o') : o'.lookup "raw" = none := by
  unfold withoutRaw at h
  split at h
  · cases h
  · obtain rfl := Option.some.inj h
    rw [Assoc.lookup_set_ne (by decide), Assoc.lookup_erase_self]

/-- An envelope is an image of itself only under rules that leave it alone. -/
theorem redact_eq_of_image (h : RedactedImage rt rules env env) : redact rt rules env = env := by
  obtain ⟨percent, dropRaw, hx⟩ := h
  dsimp only at hx
  have hred : redact rt rules (percent.elim env (withSampleRate env)) = env := by
    split at hx
    · cases hw : withoutRaw (redact rt rules (percent.elim env (withSampleRate env))) with
      | none => rw [hw] at hx; exact hx.symm
      | some o =>
        rw [hw, Option.getD_some] at hx
        have hraw : (percent.elim env (withSampleRate env)).lookup "raw" = none := by
          have henv : env.lookup "raw" = none := by rw [hx]; exact withoutRaw_lookup hw
          cases percent with
          | none => exact henv
          | some p => rw [← henv]; exact withSampleRate_lookup env p (by decide)
        have hnone := redact_absent rt rules hraw (by decide)
        simp only [withoutRaw, hnone, Option.isNone_none, if_true] at hw
        cases hw
    · exact hx.symm
  cases percent with
  | none => exact hred
  | some p => exact eq_of_redact_label hred

theorem winnerOf_redacts (hr : RedactsFor rt args env dest r)
    (hw : winnerOf rt args env dest = some w) : RedactsFor rt args env dest w :=
  ⟨Assoc.mem_values.1 (Dict.preferred_mem hw),
    Dict.preferred_spec hw (Assoc.mem_values.2 hr.1) hr.2⟩

end RedactionLemmas

theorem redaction_wins_iff (rt : Runtime) (args : RouteArgs) (batch : List Obj) :
    RedactionWins rt args batch ↔ ∀ env ∈ batch, ∀ fb, TakesFallback rt args env fb →
      (∃ r, RedactsFor rt args env fb r) →
        ∃ r, RedactsFor rt args env fb r ∧ redact rt r.redaction env = env := by
  constructor
  · intro h env henv fb ht hr
    obtain ⟨i, hi⟩ := List.mem_iff_getElem?.1 henv
    have hx : env ∈ copiesAt rt args batch i fb := by
      rw [copiesAt_eq hi, copyFor_fallback ht]
      exact List.mem_singleton_self env
    obtain ⟨r, hra, himage⟩ := ((h i env fb hi).2 hr).1 env hx
    exact ⟨r, hra, redact_eq_of_image himage⟩
  · intro h i env dest hi
    have himage : (∃ r, RedactsFor rt args env dest r) → ∀ x ∈ copiesAt rt args batch i dest,
        ∃ r, RedactsFor rt args env dest r ∧ RedactedImage rt r.redaction env x := by
      rintro ⟨r, hr⟩ x hx
      rw [copiesAt_eq hi] at hx
      rcases copyFor_cases (Option.mem_toList.1 hx) with ⟨ht, rfl⟩ | ⟨w, hw, -, -, -, rfl⟩
      · obtain ⟨r', hr', heq⟩ := h _ (List.mem_of_getElem? hi) dest ht ⟨r, hr⟩
        exact ⟨r', hr', none, false, heq.symm⟩
      · exact ⟨w, winnerOf_redacts hr hw, deliveredCopy_image w env⟩
    refine ⟨?_, fun hr => ⟨himage hr, ?_⟩⟩
    · rw [copiesAt_eq hi]
      cases copyFor rt args env dest <;> simp
    · intro hchange hx
      obtain ⟨r, hra, hself⟩ := himage hr env hx
      exact hchange r hra (redact_eq_of_image hself)

/-- The European destination again, reached through a route that masks the user. -/
def euMasked : RouteArgs where
  routes := [{ id := "r", priority := 1, condition := [], destinationIds := ["eu"],
               isFinal := true,
               redaction := [⟨"raw.user", "raw", "user", [], .mask none '*', raw_allowed⟩] }]
  fallbackDestinationId := some "eu"
  destinationResidency := some (Dict.empty.set "eu" (some "EU"))

theorem euMasked_leaks_clear_text : ¬ RedactionWins Runtime.ascii euMasked [usEvent] := by
  intro h
  have hasg : (decisionOf Runtime.ascii euMasked usEvent).assignments =
      [("eu", euMasked.routes.head (by decide))] := rfl
  obtain ⟨r, hr, himage⟩ := ((h 0 usEvent "eu" rfl).2
    ⟨_, by rw [hasg]; exact List.mem_singleton_self _, by decide⟩).1 usEvent (by decide)
  have hm := hr.1
  rw [hasg, List.mem_singleton] at hm
  have heq := redact_eq_of_image himage
  rw [(Prod.mk.inj hm).2] at heq
  exact absurd heq (by decide)

section Residency
variable (rt : Runtime) (args : RouteArgs)

/-- No position delivers to a destination whose residency conflicts with its geography. -/
def ResidencyEnforced (batch : List Obj) : Prop :=
  ∀ i env dest, batch[i]? = some env →
    residencyConflict rt (args.residencyOf dest) (eventGeo (eventLabels env)) = true →
      copiesAt rt args batch i dest = []

end Residency

theorem residency_enforced_iff (rt : Runtime) (args : RouteArgs) (batch : List Obj) :
    ResidencyEnforced rt args batch ↔ ∀ env ∈ batch, ∀ fb, TakesFallback rt args env fb →
      residencyConflict rt (args.residencyOf fb) (eventGeo (eventLabels env)) = false := by
  constructor
  · intro h env henv fb ht
    obtain ⟨i, hi⟩ := List.mem_iff_getElem?.1 henv
    by_contra hc
    have hnil := h i env fb hi (Bool.not_eq_false _ ▸ hc)
    rw [copiesAt_eq hi, copyFor_fallback ht] at hnil
    cases hnil
  · intro h i env dest hi hc
    rw [copiesAt_eq hi]
    cases hx : copyFor rt args env dest with
    | none => rfl
    | some x =>
      rcases copyFor_cases hx with ⟨ht, -⟩ | ⟨w, -, -, hnc, -⟩
      · have hf := h env (List.mem_of_getElem? hi) dest ht
        rw [hc] at hf
        cases hf
      · rw [conflicts, hc] at hnc
        cases hnc

theorem euOnly_breaks_residency : ¬ ResidencyEnforced Runtime.ascii euOnly [usEvent] := by
  intro h
  exact absurd (h 0 usEvent "eu" rfl (by decide)) (by decide)

section Detection
variable (rt : Runtime) (args : RouteArgs)

/-- A protected route assigns the destination and no filter removes it. -/
structure ProtectedAt (env : Obj) (dest : String) : Prop where
  assigned : ∃ r, (dest, r) ∈ (decisionOf rt args env).assignments ∧ r.protectDetection = true
  no_loop : loops args env dest = false
  no_conflict : conflicts rt args (eventLabels env) dest = false

/-- The copy of a protected event exists, has the `raw` block up to redaction, and gets no
`sample_rate` label. -/
def DetectionSafe (batch : List Obj) : Prop :=
  ∀ i env dest, batch[i]? = some env → ProtectedAt rt args env dest →
    ∃ x, copiesAt rt args batch i dest = [x] ∧
      (∃ r, (dest, r) ∈ (decisionOf rt args env).assignments ∧
        x.lookup "raw" = (redact rt r.redaction env).lookup "raw") ∧
      ((eventLabels env).lookup "sample_rate" = none →
        (eventLabels x).lookup "sample_rate" = none)

/-- The route leaves this event whole: it is protected itself, or it neither samples (an
event that passes and has the label already aside) nor removes a `raw` that is there. -/
def Spares (enabled : Bool) (env : Obj) (dest : String) (w : CompiledRoute) : Prop :=
  w.protectDetection = true ∨
    (enabled = true → w.samplePercent < 100 →
      canaryPass rt w.samplePercent (labelEventId rt (eventLabels env)) = true ∧
        (eventLabels env).lookup "sample_rate" ≠ none) ∧
    (w.dropRaw = true → ∃ r, (dest, r) ∈ (decisionOf rt args env).assignments ∧
      (redact rt r.redaction env).lookup "raw" = none)

end Detection

section DetectionLemmas
variable {rt : Runtime} {args : RouteArgs}

theorem redactedCopy_raw (w : CompiledRoute) (env : Obj) :
    (redactedCopy rt args w env).lookup "raw" = (redact rt w.redaction env).lookup "raw" := by
  unfold redactedCopy
  split
  · exact redact_sameBody rt w.redaction (SameBody.set_centralops env _) "raw" (by decide)
  · rfl

theorem deliveredCopy_raw (w : CompiledRoute) (env : Obj) :
    (deliveredCopy rt args w env).lookup "raw" =
      if dropsRaw w then none else (redact rt w.redaction env).lookup "raw" := by
  rw [← @redactedCopy_raw rt args]
  unfold deliveredCopy
  dsimp only
  split
  · cases hw : withoutRaw (redactedCopy rt args w env) with
    | some o => exact withoutRaw_lookup hw
    | none =>
      unfold withoutRaw at hw
      split at hw
      · next hn => simpa using hn
      · cases hw
  · rfl

theorem deliveredCopy_sample_rate (w : CompiledRoute) (env : Obj) :
    (eventLabels (deliveredCopy rt args w env)).lookup "sample_rate" =
      if labelsSample args w then some (sampleRate w.samplePercent)
      else (eventLabels env).lookup "sample_rate" := by
  have hred : (eventLabels (redactedCopy rt args w env)).lookup "sample_rate" =
      if labelsSample args w then some (sampleRate w.samplePercent)
      else (eventLabels env).lookup "sample_rate" := by
    unfold redactedCopy
    rw [eventLabels_congr (redact_centralops rt w.redaction _)]
    split
    · rw [withSampleRate, eventLabels_set, Assoc.lookup_set_self]
    · rfl
  rw [← hred]
  unfold deliveredCopy
  dsimp only
  split
  · exact withoutRaw_label (by decide) _
  · rfl

/-- With the fail-safe enforced a protected route neither samples, labels nor drops `raw`. -/
theorem protected_spared (hs : args.sampling = some cfg)
    (he : cfg.protectDetectionEnforced = true) (hp : w.protectDetection = true) (env : Obj) :
    sampledOutOf rt args env w = false ∧ labelsSample args w = false ∧ dropsRaw w = false := by
  refine ⟨?_, ?_, ?_⟩
  · simp only [sampledOutOf, shouldSampleOut, hs, hp, he, Bool.and_self, if_true]
    split <;> rfl
  · simp only [labelsSample, hs, hp, he, Bool.and_self, Bool.not_true, Bool.and_false]
  · simp only [dropsRaw, hp, Bool.not_true, Bool.and_false]

theorem unprotected_reductions (hs : args.sampling = some cfg) (hp : w.protectDetection = false)
    (env : Obj) :
    sampledOutOf rt args env w = (cfg.enabled && decide (w.samplePercent < 100) &&
        !canaryPass rt w.samplePercent (labelEventId rt (eventLabels env))) ∧
      labelsSample args w = (cfg.enabled && decide (w.samplePercent < 100)) ∧
      dropsRaw w = w.dropRaw := by
  refine ⟨?_, ?_, ?_⟩
  · simp only [sampledOutOf, shouldSampleOut, hs, hp, Bool.false_and, Bool.false_eq_true, if_false]
    by_cases hlt : w.samplePercent < 100
    · cases cfg.enabled <;> simp [hlt]
    · simp [hlt, Int.not_lt.1 hlt]
  · simp only [labelsSample, hs, hp, Bool.false_and, Bool.not_false, Bool.and_true]
  · simp only [dropsRaw, hp, Bool.not_false, Bool.and_true]

/-- The three ways a winning route can diminish a copy. -/
def Whole (rt : Runtime) (args : RouteArgs) (env : Obj) (dest : String) (w : CompiledRoute) :
    Prop :=
  sampledOutOf rt args env w = false ∧
    (labelsSample args w = true → (eventLabels env).lookup "sample_rate" ≠ none) ∧
    (dropsRaw w = true → ∃ r, (dest, r) ∈ (decisionOf rt args env).assignments ∧
      (redact rt r.redaction env).lookup "raw" = none)

theorem whole_iff_spares (hs : args.sampling = some cfg)
    (he : cfg.protectDetectionEnforced = true) (env : Obj) (dest : String) (w : CompiledRoute) :
    Whole rt args env dest w ↔ Spares rt args cfg.enabled env dest w := by
  cases hp : w.protectDetection with
  | true =>
    obtain ⟨h1, h2, h3⟩ := @protected_spared rt args cfg w hs he hp env
    simp [Whole, Spares, h1, h2, h3, hp]
  | false =>
    obtain ⟨h1, h2, h3⟩ := @unprotected_reductions rt args cfg w hs hp env
    rw [Whole, Spares, h1, h2, h3, hp]
    cases cfg.enabled with
    | false => simp
    | true =>
      by_cases hlt : w.samplePercent < 100
      · simp [hlt, and_assoc]
      · simp [hlt]

theorem whole_copy_iff (hi : batch[i]? = some env) (hd : ProtectedAt rt args env dest)
    (hw : winnerOf rt args env dest = some w) :
    (∃ x, copiesAt rt args batch i dest = [x] ∧
      (∃ r, (dest, r) ∈ (decisionOf rt args env).assignments ∧
        x.lookup "raw" = (redact rt r.redaction env).lookup "raw") ∧
      ((eventLabels env).lookup "sample_rate" = none →
        (eventLabels x).lookup "sample_rate" = none)) ↔ Whole rt args env dest w := by
  have hcopy := copyFor_winner hw hd.no_loop hd.no_conflict
  have hmem : (dest, w) ∈ (decisionOf rt args env).assignments :=
    Assoc.mem_values.1 (Dict.preferred_mem hw)
  rw [copiesAt_eq hi, hcopy]
  constructor
  · rintro ⟨x, hx, ⟨r, hr, hraw⟩, hrate⟩
    split at hx
    · cases hx
    next hso =>
    obtain rfl : deliveredCopy rt args w env = x := List.singleton_inj.1 hx
    refine ⟨Bool.eq_false_iff.2 hso, ?_, ?_⟩
    · intro hl hnone
      have hx := hrate hnone
      rw [deliveredCopy_sample_rate, if_pos hl] at hx
      cases hx
    · intro hdr
      rw [deliveredCopy_raw, if_pos hdr] at hraw
      exact ⟨r, hr, hraw.symm⟩
  · rintro ⟨hso, hlabel, hraw⟩
    refine ⟨deliveredCopy rt args w env, by rw [hso]; rfl, ?_, ?_⟩
    · by_cases hdr : dropsRaw w = true
      · obtain ⟨r, hr, hnone⟩ := hraw hdr
        exact ⟨r, hr, by rw [deliveredCopy_raw, if_pos hdr, hnone]⟩
      · exact ⟨w, hmem, by rw [deliveredCopy_raw, if_neg hdr]⟩
    · intro hnone
      have hl : ¬ labelsSample args w = true := fun hl => hlabel hl hnone
      rw [deliveredCopy_sample_rate, if_neg hl, hnone]

end DetectionLemmas

theorem detection_safe_iff (rt : Runtime) (args : RouteArgs) (batch : List Obj)
    (cfg : SamplingConfig) (hs : args.sampling = some cfg)
    (he : cfg.protectDetectionEnforced = true) :
    DetectionSafe rt args batch ↔ ∀ env ∈ batch, ∀ dest w, ProtectedAt rt args env dest →
      winnerOf rt args env dest = some w → Spares rt args cfg.enabled env dest w := by
  constructor
  · intro h env henv dest w hd hw
    obtain ⟨i, hi⟩ := List.mem_iff_getElem?.1 henv
    exact (whole_iff_spares hs he env dest w).1 ((whole_copy_iff hi hd hw).1 (h i env dest hi hd))
  · intro h i env dest hi hd
    obtain ⟨r, hr, -⟩ := hd.assigned
    obtain ⟨w, hw⟩ := (winnerOf_isSome rt args env).1 ((mem_destinations rt args env).2 ⟨r, hr⟩)
    exact (whole_copy_iff hi hd hw).2 ((whole_iff_spares hs he env dest w).2
      (h env (List.mem_of_getElem? hi) dest w hd hw))

/-- An unprotected route that samples everything out precedes a protected one to the same
destination. -/
def sampledFirst : RouteArgs where
  routes :=
    [{ id := "a", priority := 1, condition := [], destinationIds := ["siem"], isFinal := false,
       protectDetection := false, samplePercent := 0 },
     { id := "b", priority := 2, condition := [], destinationIds := ["siem"], isFinal := true }]
  sampling := some { enabled := true }

theorem sampledFirst_starves_detection : ¬ DetectionSafe Runtime.ascii sampledFirst [usEvent] := by
  intro h
  have hd : ProtectedAt Runtime.ascii sampledFirst usEvent "siem" :=
    ⟨⟨_, List.mem_cons_of_mem _ (List.mem_singleton_self _), rfl⟩, by decide, by decide⟩
  obtain ⟨x, hx, -⟩ := h 0 usEvent "siem" rfl hd
  have hnil : copiesAt Runtime.ascii sampledFirst [usEvent] 0 "siem" = [] := by decide
  rw [hnil] at hx
  cases hx

theorem detection_safe_protected_only :
    DetectionSafe Runtime.ascii { sampledFirst with routes := sampledFirst.routes.drop 1 }
      [usEvent] := by
  rw [detection_safe_iff _ _ _ { enabled := true } rfl rfl]
  intro env henv dest w _ hw
  obtain rfl := List.mem_singleton.1 henv
  have hm : (dest, w) ∈ [("siem", sampledFirst.routes.getLast (by decide))] :=
    Assoc.mem_values.1 (Dict.preferred_mem hw)
  obtain ⟨-, rfl⟩ := Prod.mk.inj (List.mem_singleton.1 hm)
  exact .inl rfl

end CentralOps
