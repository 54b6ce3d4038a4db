import CentralOps.Normalize.Documents
import CentralOps.Routing.Located
import CentralOps.Routing.Verdict

/-! The copies of `route_batch` as Python makes them: by reference, in a heap. -/

namespace CentralOps
set_option autoImplicit true

/-- `d.get(k)`. -/
def getRef (h : Heap Scalar) (d : Ref Scalar) (k : String) : Option (Ref Scalar) :=
  match h.shape d with
  | .dict fields => fields.lookup k
  | _ => none

/-- `dict(d)`. -/
def copyDict (d : Ref Scalar) (h : Heap Scalar) : Ref Scalar × Heap Scalar := h.make (h.shape d)

/-- `dict(d.get("_centralops") or {})`. -/
def copyLabels (d : Ref Scalar) (h : Heap Scalar) : Ref Scalar × Heap Scalar :=
  match (getRef h d "_centralops").map h.shape with
  | some (.dict fields) => h.make (.dict fields)
  | _ => h.make (.dict [])

def relabel (out : Ref Scalar) (label : String) (value : Scalar) (h : Heap Scalar) : Heap Scalar :=
  let (labels, h) := copyLabels out h
  let h := h.setItem labels label (.scalar value)
  h.setItem out "_centralops" labels

/-- `_with_sample_rate`. -/
def withSampleRateAt (env : Ref Scalar) (samplePercent : Int) (h : Heap Scalar) :
    Ref Scalar × Heap Scalar :=
  let (out, h) := copyDict env h
  (out, relabel out "sample_rate" (.float (.finite (samplePercent / 100))) h)

/-- `_without_raw`. -/
def withoutRawAt (env : Ref Scalar) (h : Heap Scalar) : Option (Ref Scalar) × Heap Scalar :=
  if (getRef h env "raw").isNone then (none, h)
  else
    let (out, h) := copyDict env h
    (some out, relabel out "raw_dropped" (.bool true) (h.delItem out "raw"))

/-- `_navigate`: the parent and the key, and whether the way there is blocked. -/
def navigateAt (h : Heap Scalar) (cursor : Ref Scalar) : List String →
    Option (Ref Scalar × String × Bool)
  | [] => none
  | [key] => (getRef h cursor key).map (fun _ => (cursor, key, false))
  | key :: rest =>
    match getRef h cursor key with
    | none => none
    | some next => if h.isDict next then navigateAt h next rest else some (cursor, key, true)

section Redaction
variable (rt : Runtime) (fuel : Nat)

/-- One rule, written into the copy. -/
def applyRuleAt (obj : Ref Scalar) (st : Heap Scalar × List String)
    (rule : CompiledRedactionRule) : Heap Scalar × List String :=
  let (h, applied) := st
  match navigateAt h obj rule.pathParts with
  | none => (h, applied)
  | some (parent, key, true) =>
    match rule.action with
    | .dropField => (h.delItem parent key, applied ++ [rule.pathStr ++ ":drop_field(blocked)"])
    | _ => (h.setItem parent key (.scalar (.str maskSentinel)),
        applied ++ [rule.pathStr ++ ":mask(blocked-list)"])
  | some (parent, key, false) =>
    match rule.action with
    | .dropField => (h.delItem parent key, applied ++ [rule.pathStr ++ ":drop_field"])
    | action =>
      match ((getRef h parent key).map (document fuel h)).bind (action.transform rt) with
      | some (.str new) => (h.setItem parent key (.scalar (.str new)),
          applied ++ [rule.pathStr ++ ":" ++ action.name])
      | _ => (h, applied)

/-- `apply_pii_redaction`. -/
def applyPiiRedactionAt (env : Ref Scalar) (rules : List CompiledRedactionRule)
    (h : Heap Scalar) : Option (Ref Scalar) × Heap Scalar :=
  let plan := redactionPlan (document fuel h env).asObj rules
  if plan.isEmpty then (none, h)
  else
    let (shallow, h) := copyDict env h
    -- `copy.deepcopy`: the same document in new objects
    let (obj, h) := (pythonObjects .none).load (document fuel h shallow) h
    let (h, applied) := plan.foldl (applyRuleAt rt fuel obj) (h, [])
    if applied.isEmpty then (none, h)
    else
      let (marks, h) := h.make (.list (applied.map (fun m => .scalar (.str m))))
      (some obj, h.setItem obj "_centralops_redacted" marks)

end Redaction

section Batch
variable (rt : Runtime) (args : RouteArgs) (fuel : Nat)

def deliveredCopyAt (route : CompiledRoute) (env : Ref Scalar) (h : Heap Scalar) :
    Ref Scalar × Heap Scalar :=
  let (out, h) := if labelsSample args route then withSampleRateAt env route.samplePercent h
    else (env, h)
  let (redacted, h) := applyPiiRedactionAt rt fuel out route.redaction h
  let out := redacted.getD out
  if dropsRaw route then
    let (dropped, h) := withoutRawAt out h
    (dropped.getD out, h)
  else (out, h)

/-- What the loop over `chosen.items()` appends to the sub-batches. -/
def deliverChosenAt (eventId : String) (env : Ref Scalar) :
    List (String × CompiledRoute) → Heap Scalar → List (String × Ref Scalar) × Heap Scalar
  | [], h => ([], h)
  | (dest, route) :: rest, h =>
    if shouldSampleOut rt route eventId args.sampling then deliverChosenAt eventId env rest h
    else
      let (copy, h) := deliveredCopyAt rt args fuel route env h
      let (sends, h) := deliverChosenAt eventId env rest h
      ((dest, copy) :: sends, h)

def routeEventAt (env : Ref Scalar) (h : Heap Scalar) : List (String × Ref Scalar) × Heap Scalar :=
  let labels := eventLabels (document fuel h env).asObj
  let decision := evaluateEvent rt labels args.ordered
  if decision.dropped then ([], h)
  else
    let chosen := dropConflicts rt args labels (dropLoops args labels
      (chooseRoutes decision.assignments))
    if chosen.isEmpty then
      match args.fallbackDestinationId with
      | none => ([], h)
      | some fb => if sourceIsWazuh labels && args.loopIds.contains fb then ([], h)
        else ([(fb, env)], h)
    else deliverChosenAt rt args fuel (labelEventId rt labels) env chosen.entries h

/-- The sub-batches of `route_batch`, by reference, with the heap at its end. -/
def routeBatchAt (refs : List (Ref Scalar)) (h : Heap Scalar) :
    Dict String (List (Ref Scalar)) × Heap Scalar :=
  refs.foldl (fun st env =>
    let (sends, h) := routeEventAt rt args fuel env st.2
    (st.1.pushAll sends, h)) (.empty, h)

end Batch

section Cells
variable {h : Heap Scalar} {a : Nat} {fs : List (String × Ref Scalar)}

theorem getRef_addr (hcell : h[a]? = some (.dict fs)) (k : String) :
    getRef h (.addr a) k = fs.lookup k := by
  simp [getRef, Heap.shape, hcell]

theorem setItem_addr (hcell : h[a]? = some (.dict fs)) (k : String) (v : Ref Scalar) :
    h.setItem (.addr a) k v = h.set a (.dict (Assoc.set k v fs)) := by
  simp [Heap.setItem, hcell]

theorem delItem_addr (hcell : h[a]? = some (.dict fs)) (k : String) :
    h.delItem (.addr a) k = h.set a (.dict (Assoc.erase k fs)) := by
  simp [Heap.delItem, hcell]

theorem getElem?_middle (h rest : Heap Scalar) (c : Shape Scalar (Ref Scalar)) :
    (h ++ c :: rest)[h.length]? = some c := by
  simp

theorem make_dict (h : Heap Scalar) (fs : List (String × Ref Scalar)) :
    h.make (.dict fs) = (.addr h.length, h ++ [.dict fs]) := rfl

theorem setItem_middle (h rest : Heap Scalar) (fs : List (String × Ref Scalar)) (k : String)
    (v : Ref Scalar) :
    (h ++ .dict fs :: rest).setItem (.addr h.length) k v =
      h ++ .dict (Assoc.set k v fs) :: rest := by
  rw [setItem_addr (getElem?_middle h rest _), List.set_append_right _ _ le_rfl, Nat.sub_self]
  rfl

theorem prefix_of_getElem? {h' : Heap Scalar}
    (hsame : ∀ a < h.length, h'[a]? = h[a]?) : h <+: h' := by
  rw [List.prefix_iff_eq_take]
  apply List.ext_getElem?
  intro a
  rw [List.getElem?_take]
  split
  · next ha => exact (hsame a ha).symm
  · next ha => exact List.getElem?_eq_none (not_lt.1 ha)

end Cells

section Labels
variable {h : Heap Scalar}

theorem copyDict_stored {o : Obj} {v : Ref Scalar} (hv : StoredAt h (.obj o) v) :
    ∃ fs, copyDict v h = (.addr h.length, h ++ [.dict fs]) ∧ StoredFieldsAt h o fs ∧
      ∀ k, getRef h v k = fs.lookup k := by
  obtain ⟨a, fs, rfl, hcell, ho⟩ := hv
  refine ⟨fs, ?_, ho, getRef_addr hcell⟩
  simp [copyDict, Heap.shape, hcell, Heap.make]

theorem StoredAt.shape_dict {x : Json} {v : Ref Scalar} (hv : StoredAt h x v) :
    (∃ o fs, x = .obj o ∧ h.shape v = .dict fs ∧ StoredFieldsAt h o fs) ∨
      (x.asObj = [] ∧ ∀ fs, h.shape v ≠ .dict fs) := by
  cases x with
  | obj o =>
    obtain ⟨a, fs, rfl, hcell, ho⟩ := hv
    exact .inl ⟨o, fs, rfl, by simp [Heap.shape, hcell], ho⟩
  | list xs =>
    obtain ⟨a, vs, rfl, hcell, -⟩ := hv
    exact .inr ⟨rfl, fun fs => by simp [Heap.shape, hcell]⟩
  | null | bool _ | int _ | float _ | str _ =>
    obtain rfl := hv
    exact .inr ⟨rfl, fun fs => by simp [Heap.shape]⟩

theorem StoredAt.shape_prefix {h' : Heap Scalar} (hp : h <+: h') {x : Json} {v : Ref Scalar}
    (hv : StoredAt h x v) : h'.shape v = h.shape v := by
  cases v with
  | scalar _ => rfl
  | addr a =>
    have hcell : ∃ c, h[a]? = some c := by
      cases x with
      | obj o =>
        obtain ⟨b, fs, hb, hcell, -⟩ := hv
        cases hb
        exact ⟨_, hcell⟩
      | list xs =>
        obtain ⟨b, vs, hb, hcell, -⟩ := hv
        cases hb
        exact ⟨_, hcell⟩
      | null | bool _ | int _ | float _ | str _ => cases hv
    obtain ⟨c, hcell⟩ := hcell
    simp [Heap.shape, hcell, getElem?_extend hp a c hcell]

theorem copyLabels_stored {h' : Heap Scalar} (hp : h <+: h') {o : Obj} {d : Ref Scalar}
    {fs : List (String × Ref Scalar)} (ho : StoredFieldsAt h o fs)
    (hget : ∀ k, getRef h' d k = fs.lookup k) :
    ∃ ls, copyLabels d h' = (.addr h'.length, h' ++ [.dict ls]) ∧
      StoredFieldsAt h (eventLabels o) ls := by
  rw [copyLabels, hget, eventLabels, Obj.getN]
  obtain ⟨hnone, hnone'⟩ | ⟨x, w, hsome, hsome', hx⟩ := ho.lookup "_centralops"
  · rw [hnone, hnone']
    exact ⟨[], rfl, rfl⟩
  · rw [hsome, hsome', Option.map_some, Option.getD_some, hx.shape_prefix hp]
    obtain ⟨lo, ls, rfl, hshape, hls⟩ | ⟨hempty, hshape⟩ := hx.shape_dict
    · rw [hshape]
      exact ⟨ls, rfl, hls⟩
    · rw [hempty]
      refine ⟨[], ?_, rfl⟩
      split
      · next ls heq => exact absurd (Option.some.inj heq) (hshape ls)
      · rfl

/-- One more label in a dict that was just made. -/
theorem relabel_stored {o : Obj} {fs : List (String × Ref Scalar)} (ho : StoredFieldsAt h o fs)
    (label : String) {value : Scalar} {x : Json}
    (hvalue : ∀ h : Heap Scalar, StoredAt h x (.scalar value)) :
    let h' := relabel (.addr h.length) label value (h ++ [.dict fs])
    h <+: h' ∧ StoredAt h' (.obj (Assoc.set "_centralops"
      (.obj (Assoc.set label x (eventLabels o))) o)) (.addr h.length) := by
  obtain ⟨ls, hcopy, hls⟩ := copyLabels_stored (List.prefix_append h [.dict fs]) ho
    (getRef_addr (getElem?_middle h [] _))
  have hrelabel : relabel (.addr h.length) label value (h ++ [.dict fs]) =
      h ++ .dict (Assoc.set "_centralops" (.addr (h.length + 1)) fs) ::
        [.dict (Assoc.set label (.scalar value) ls)] := by
    have hlen : (h ++ [Shape.dict fs]).length = h.length + 1 := by simp
    rw [relabel, hcopy]
    dsimp only
    rw [setItem_middle, hlen, List.append_assoc, List.singleton_append, setItem_middle]
  dsimp only
  rw [hrelabel]
  have hp : h <+: h ++ .dict (Assoc.set "_centralops" (.addr (h.length + 1)) fs) ::
      [.dict (Assoc.set label (.scalar value) ls)] := List.prefix_append _ _
  refine ⟨hp, h.length, _, rfl, getElem?_middle _ _ _, ?_⟩
  apply (ho.extend hp).set
  refine ⟨h.length + 1, Assoc.set label (.scalar value) ls, rfl, by simp, ?_⟩
  exact (hls.extend hp).set label (hvalue _)

theorem withSampleRateAt_stored {o : Obj} {v : Ref Scalar} (hv : StoredAt h (.obj o) v)
    (samplePercent : Int) :
    ∃ out h', withSampleRateAt v samplePercent h = (out, h') ∧ h <+: h' ∧
      StoredAt h' (.obj (withSampleRate o samplePercent)) out := by
  obtain ⟨fs, hcopy, ho, -⟩ := copyDict_stored hv
  have hrate : ∀ h : Heap Scalar, StoredAt h (sampleRate samplePercent)
      (.scalar (.float (.finite (samplePercent / 100)))) := fun _ => rfl
  have hlabel := relabel_stored ho "sample_rate" hrate
  rw [withSampleRateAt, hcopy]
  exact ⟨_, _, rfl, hlabel⟩

theorem withoutRawAt_stored {o : Obj} {v : Ref Scalar} (hv : StoredAt h (.obj o) v) :
    ∃ out h', withoutRawAt v h = (out, h') ∧ h <+: h' ∧
      match withoutRaw o with
      | none => out = none
      | some o' => ∃ w, out = some w ∧ StoredAt h' (.obj o') w := by
  obtain ⟨fs, hcopy, ho, hget⟩ := copyDict_stored hv
  have hmark : ∀ h : Heap Scalar, StoredAt h (.bool true) (.scalar (.bool true)) := fun _ => rfl
  have hlabel := relabel_stored (ho.erase "raw") "raw_dropped" hmark
  have hdel : (h ++ [Shape.dict fs]).delItem (.addr h.length) "raw" =
      h ++ [.dict (Assoc.erase "raw" fs)] := by
    rw [delItem_addr (getElem?_middle h [] _), List.set_append_right _ _ le_rfl, Nat.sub_self]
    rfl
  rw [withoutRawAt, withoutRaw, hget]
  obtain ⟨hnone, hnone'⟩ | ⟨x, w, hsome, hsome', hx⟩ := ho.lookup "raw"
  · rw [hnone, hnone']
    exact ⟨none, h, rfl, List.prefix_rfl, rfl⟩
  · rw [hsome, hsome', hcopy]
    dsimp only [Option.isNone_some]
    rw [if_neg Bool.false_ne_true, if_neg Bool.false_ne_true, hdel]
    exact ⟨_, _, rfl, hlabel.1, _, rfl, hlabel.2⟩

end Labels

section Navigation
variable {h : Heap Scalar}

theorem Owned.setCell {lo hi a : Nat} {o : Obj} {fs : List (String × Ref Scalar)} (ha : a < hi)
    (hlen : a < h.length) (ho : OwnedFields h lo a o fs) :
    Owned (h.set a (.dict fs)) lo hi (.obj o) (.addr a) := by
  refine ⟨a, fs, rfl, ha, by simp [hlen], ?_⟩
  exact OwnedFields.congr o (fun b _ hb => List.getElem?_set_ne hb.ne') ho

/-- What writes under a key of a parent do to a document: they write at a location of it, and in
its own cells only. -/
structure Writes (h : Heap Scalar) (lo hi : Nat) (o : Obj) (v parent : Ref Scalar) (key : String)
    (loc : List String) : Prop where
  set : ∀ s, Owned (h.setItem parent key (.scalar (.str s))) lo hi
    (.obj (writeAt o loc (some (.str s)))) v
  del : Owned (h.delItem parent key) lo hi (.obj (writeAt o loc none)) v
  set_outside : ∀ s a, a < lo ∨ hi ≤ a → (h.setItem parent key (.scalar (.str s)))[a]? = h[a]?
  del_outside : ∀ a, a < lo ∨ hi ≤ a → (h.delItem parent key)[a]? = h[a]?

theorem Writes.here {lo hi a : Nat} {o : Obj} {fs : List (String × Ref Scalar)} (ha : a < hi)
    (hcell : h[a]? = some (.dict fs)) (ho : OwnedFields h lo a o fs) (key : String) :
    Writes h lo hi o (.addr a) (.addr a) key [key] := by
  have hlen : a < h.length := (List.getElem?_eq_some_iff.1 hcell).1
  have hlo := OwnedFields.le o ho
  have houtside : ∀ b, b < lo ∨ hi ≤ b → a ≠ b := by omega
  constructor
  · intro s
    rw [setItem_addr hcell]
    exact Owned.setCell ha hlen (ho.set_str key s)
  · rw [delItem_addr hcell]
    exact Owned.setCell ha hlen (ho.erase key)
  · intro s b hb
    rw [setItem_addr hcell, List.getElem?_set_ne (houtside b hb)]
  · intro b hb
    rw [delItem_addr hcell, List.getElem?_set_ne (houtside b hb)]

theorem Writes.below {lo hi a l m : Nat} {o inner : Obj} {fs : List (String × Ref Scalar)}
    {w parent : Ref Scalar} {k key : String} {loc : List String} (ha : a < hi)
    (hcell : h[a]? = some (.dict fs)) (hkey : o.lookup k = some (.obj inner)) (hloc : loc ≠ [])
    (hl : lo ≤ l) (hm : m ≤ a)
    (hput : ∀ h' y, (∀ b, (b < l ∨ m ≤ b) → h'[b]? = h[b]?) → Owned h' l m y w →
      OwnedFields h' lo a (Assoc.set k y o) fs)
    (hw : Writes h l m inner w parent key loc) :
    Writes h lo hi o (.addr a) parent key (k :: loc) := by
  have hwhole : ∀ h' inner', (∀ b, (b < l ∨ m ≤ b) → h'[b]? = h[b]?) →
      Owned h' l m (.obj inner') w →
      Owned h' lo hi (.obj (Assoc.set k (.obj inner') o)) (.addr a) := by
    intro h' inner' hsame hinner
    exact ⟨a, fs, rfl, ha, (hsame a (.inr hm)).trans hcell, hput h' _ hsame hinner⟩
  have houtside : ∀ b, b < lo ∨ hi ≤ b → b < l ∨ m ≤ b := by omega
  constructor
  · intro s
    rw [writeAt_cons hloc hkey]
    exact hwhole _ _ (hw.set_outside s) (hw.set s)
  · rw [writeAt_cons hloc hkey]
    exact hwhole _ _ hw.del_outside hw.del
  · intro s b hb
    exact hw.set_outside s b (houtside b hb)
  · intro b hb
    exact hw.del_outside b (houtside b hb)

def LeadsTo (h : Heap Scalar) (lo hi : Nat) (o : Obj) (v : Ref Scalar) (parts : List String) :
    Nav → Prop
  | .absent => navigateAt h v parts = none
  | .blocked loc => loc ≠ [] ∧ ∃ parent key, navigateAt h v parts = some (parent, key, true) ∧
      Writes h lo hi o v parent key loc
  | .ok loc value => loc ≠ [] ∧ ∃ parent key w, navigateAt h v parts = some (parent, key, false) ∧
      getRef h parent key = some w ∧ StoredAt h value w ∧ Writes h lo hi o v parent key loc

theorem navigateAt_leads {lo hi : Nat} {o : Obj} {v : Ref Scalar} (parts : List String)
    (hv : Owned h lo hi (.obj o) v) : LeadsTo h lo hi o v parts (navigate o parts) := by
  induction parts generalizing lo hi o v with
  | nil => rfl
  | cons k rest ih =>
    obtain ⟨a, fs, rfl, ha, hcell, ho⟩ := hv
    have hget := getRef_addr hcell k
    rw [navigate]
    cases hlook : o.lookup k with
    | none =>
      have hnone := ho.lookup_none hlook
      cases rest with
      | nil => simp [LeadsTo, navigateAt, hget, hnone]
      | cons _ _ => simp [LeadsTo, navigateAt, hget, hnone]
    | some x =>
      obtain ⟨w, l, m, hfs, hl, hm, hx, hput⟩ := ho.focus hlook
      rw [hfs] at hget
      cases rest with
      | nil =>
        refine ⟨List.cons_ne_nil _ _, .addr a, k, w, ?_, hget, Owned.stored x hx, ?_⟩
        · simp [navigateAt, hget]
        · exact Writes.here ha hcell ho k
      | cons k' rest =>
        obtain ⟨inner, gs, rfl, hshape, -⟩ | ⟨hempty, hshape⟩ := (Owned.stored x hx).shape_dict
        · have hdict : h.isDict w = true := by simp [Heap.isDict, hshape]
          have hstep : navigateAt h (.addr a) (k :: k' :: rest) = navigateAt h w (k' :: rest) := by
            simp [navigateAt, hget, hdict]
          have hinner := ih hx
          simp only [List.isEmpty_cons, Bool.false_eq_true, if_false]
          cases hnav : navigate inner (k' :: rest) with
          | absent =>
            rw [hnav] at hinner
            exact hstep.trans hinner
          | blocked loc =>
            rw [hnav] at hinner
            obtain ⟨hloc, parent, key, hat, hw⟩ := hinner
            exact ⟨List.cons_ne_nil _ _, parent, key, hstep.trans hat,
              hw.below ha hcell hlook hloc hl hm hput⟩
          | ok loc value =>
            rw [hnav] at hinner
            obtain ⟨hloc, parent, key, u, hat, hkey, hvalue, hw⟩ := hinner
            exact ⟨List.cons_ne_nil _ _, parent, key, u, hstep.trans hat, hkey, hvalue,
              hw.below ha hcell hlook hloc hl hm hput⟩
        · have hdict : h.isDict w = false := by
            unfold Heap.isDict
            split
            · next gs heq => exact absurd heq (hshape gs)
            · rfl
          have hblocked : LeadsTo h lo hi o (.addr a) (k :: k' :: rest) (.blocked [k]) := by
            refine ⟨List.cons_ne_nil _ _, .addr a, k, ?_, Writes.here ha hcell ho k⟩
            simp [navigateAt, hget, hdict]
          cases x with
          | obj inner =>
            obtain ⟨b, gs, rfl, -, hdict', -⟩ := hx
            exact absurd (by simp [Heap.shape, hdict']) (hshape gs)
          | null | bool _ | int _ | float _ | str _ | list _ => exact hblocked

end Navigation

section Depth

theorem depth_pos (x : Json) : 1 ≤ x.depth := by
  cases x <;> simp [Json.depth]

theorem depth_lookup {o : Obj} (h : o.lookup k = some x) : x.depth ≤ depthFields o := by
  induction o with
  | nil => cases h
  | cons p o ih =>
    obtain ⟨j, y⟩ := p
    rw [Assoc.lookup_cons_eq] at h
    rw [depthFields]
    split at h
    · obtain rfl := Option.some.inj h
      exact le_max_left _ _
    · exact (ih h).trans (le_max_right _ _)

theorem depth_set (k : String) (x : Json) (o : Obj) :
    depthFields (Assoc.set k x o) ≤ max x.depth (depthFields o) := by
  induction o with
  | nil => simp [Assoc.set, depthFields]
  | cons p o ih =>
    obtain ⟨j, y⟩ := p
    simp only [Assoc.set]
    split
    · simp only [depthFields]
      omega
    · simp only [depthFields]
      omega

theorem depth_erase (k : String) (o : Obj) : depthFields (Assoc.erase k o) ≤ depthFields o := by
  induction o with
  | nil => exact le_rfl
  | cons p o ih =>
    obtain ⟨j, y⟩ := p
    have herase : Assoc.erase k ((j, y) :: o) =
        if j = k then Assoc.erase k o else (j, y) :: Assoc.erase k o := by
      by_cases hj : j = k <;> simp [Assoc.erase, hj]
    rw [herase]
    split
    · simp only [depthFields]
      omega
    · simp only [depthFields]
      omega

/-- A text or nothing in the place of a value makes a document no deeper. -/
theorem depth_writeAt {o : Obj} {parts loc : List String}
    (h : navigate o parts = .blocked loc ∨ ∃ value, navigate o parts = .ok loc value)
    {w : Option Json} (hw : ∀ x, w = some x → x.depth = 1) :
    loc ≠ [] ∧ depthFields (writeAt o loc w) ≤ depthFields o := by
  induction parts generalizing o loc with
  | nil =>
    obtain h | ⟨_, h⟩ := h
    · cases h
    · cases h
  | cons k rest ih =>
    have hhere : ∀ x, o.lookup k = some x → depthFields (writeAt o [k] w) ≤ depthFields o := by
      intro x hlook
      have hx := depth_lookup hlook
      have hpos := depth_pos x
      cases w with
      | none => exact depth_erase k o
      | some y =>
        have hset := depth_set k y o
        rw [hw y rfl] at hset
        simp only [writeAt]
        omega
    simp only [navigate] at h
    cases hlook : o.lookup k with
    | none => simp [hlook] at h
    | some x =>
      have hx := depth_lookup hlook
      simp only [hlook] at h
      split at h
      · obtain h | ⟨_, h⟩ := h
        · cases h
        · cases h
          exact ⟨List.cons_ne_nil _ _, hhere x hlook⟩
      · split at h
        · next inner =>
          have hinner : ∃ loc', loc = k :: loc' ∧ loc' ≠ [] ∧
              depthFields (writeAt inner loc' w) ≤ depthFields inner := by
            cases hnav : navigate inner rest with
            | absent => simp [hnav, Nav.under] at h
            | blocked loc' =>
              simp only [hnav, Nav.under, Nav.blocked.injEq, reduceCtorEq, exists_false,
                or_false] at h
              exact ⟨loc', h.symm, ih (.inl hnav)⟩
            | ok loc' value =>
              simp only [hnav, Nav.under, reduceCtorEq, Nav.ok.injEq, exists_and_left,
                false_or] at h
              exact ⟨loc', h.1.symm, ih (.inr ⟨value, hnav⟩)⟩
          obtain ⟨loc', rfl, hloc, hdepth⟩ := hinner
          refine ⟨List.cons_ne_nil _ _, ?_⟩
          rw [writeAt_cons hloc hlook]
          have hset := depth_set k (.obj (writeAt inner loc' w)) o
          simp only [Json.depth] at hset hx
          omega
        · obtain h | ⟨_, h⟩ := h
          · cases h
            exact ⟨List.cons_ne_nil _ _, hhere _ hlook⟩
          · cases h

theorem depth_navigate {o : Obj} {parts loc : List String} {value : Json}
    (h : navigate o parts = .ok loc value) : value.depth ≤ depthFields o := by
  induction parts generalizing o loc with
  | nil => cases h
  | cons k rest ih =>
    rw [navigate] at h
    split at h
    · cases h
    · next x hlook =>
      have hx := depth_lookup hlook
      split at h
      · cases h
        exact hx
      · split at h
        · next inner =>
          cases hnav : navigate inner rest with
          | absent =>
            rw [hnav] at h
            cases h
          | blocked _ =>
            rw [hnav] at h
            cases h
          | ok loc' value' =>
            rw [hnav] at h
            cases h
            have hinner := ih hnav
            simp only [Json.depth] at hx
            omega
        · cases h

end Depth

section Redaction
variable {rt : Runtime} {fuel : Nat} {h : Heap Scalar}

/-- A copy during redaction: a document in its own cells, above the cells that were there. -/
structure Copied (fuel : Nat) (h₀ h : Heap Scalar) (lo hi : Nat) (o : Obj) (v : Ref Scalar) :
    Prop where
  owned : Owned h lo hi (.obj o) v
  outside : ∀ a, a < lo ∨ hi ≤ a → h[a]? = h₀[a]?
  length : h.length = h₀.length
  depth : (Json.obj o).depth ≤ fuel

theorem Copied.set {h₀ : Heap Scalar} {lo hi : Nat} {o : Obj} {v parent : Ref Scalar} {key : String}
    {parts loc : List String} (hc : Copied fuel h₀ h lo hi o v)
    (hnav : navigate o parts = .blocked loc ∨ ∃ value, navigate o parts = .ok loc value)
    (hw : Writes h lo hi o v parent key loc) (s : String) :
    Copied fuel h₀ (h.setItem parent key (.scalar (.str s))) lo hi
      (writeAt o loc (some (.str s))) v := by
  have htext : ∀ x, some (Json.str s) = some x → x.depth = 1 := by
    intro x hx
    cases hx
    rfl
  have hdepth := (depth_writeAt hnav htext).2
  have hbound := hc.depth
  constructor
  · exact hw.set s
  · intro a ha
    rw [hw.set_outside s a ha, hc.outside a ha]
  · rw [← hc.length]
    unfold Heap.setItem
    split
    · rfl
    · split
      · exact List.length_set
      · rfl
  · simp only [Json.depth] at hbound ⊢
    omega

theorem Copied.del {h₀ : Heap Scalar} {lo hi : Nat} {o : Obj} {v parent : Ref Scalar} {key : String}
    {parts loc : List String} (hc : Copied fuel h₀ h lo hi o v)
    (hnav : navigate o parts = .blocked loc ∨ ∃ value, navigate o parts = .ok loc value)
    (hw : Writes h lo hi o v parent key loc) :
    Copied fuel h₀ (h.delItem parent key) lo hi (writeAt o loc none) v := by
  have hgone : ∀ x, (none : Option Json) = some x → x.depth = 1 := by
    intro x hx
    cases hx
  have hdepth := (depth_writeAt hnav hgone).2
  have hbound := hc.depth
  constructor
  · exact hw.del
  · intro a ha
    rw [hw.del_outside a ha, hc.outside a ha]
  · rw [← hc.length]
    unfold Heap.delItem
    split
    · rfl
    · split
      · exact List.length_set
      · rfl
  · simp only [Json.depth] at hbound ⊢
    omega

/-- One rule does to the copy what it does to the document. -/
theorem applyRuleAt_copied {h₀ : Heap Scalar} {lo hi : Nat} {o : Obj} {v : Ref Scalar}
    (hc : Copied fuel h₀ h lo hi o v) (applied : List String) (rule : CompiledRedactionRule) :
    (applyRuleAt rt fuel v (h, applied) rule).2 = (applyRule rt (o, applied) rule).2 ∧
      Copied fuel h₀ (applyRuleAt rt fuel v (h, applied) rule).1 lo hi
        (applyRule rt (o, applied) rule).1 v := by
  have hleads := navigateAt_leads rule.pathParts hc.owned
  rw [applyRuleAt, applyRule]
  dsimp only
  cases hnav : navigate o rule.pathParts with
  | absent =>
    rw [hnav] at hleads
    rw [show navigateAt h v rule.pathParts = none from hleads]
    exact ⟨rfl, hc⟩
  | blocked loc =>
    rw [hnav] at hleads
    obtain ⟨-, parent, key, hat, hw⟩ := hleads
    rw [hat]
    cases haction : rule.action with
    | dropField =>
      simp only [ruleWrite, haction]
      exact ⟨trivial, hc.del (.inl hnav) hw⟩
    | mask _ _ | hash _ | octets _ _ | affixes _ _ _ =>
      simp only [ruleWrite, haction]
      exact ⟨trivial, hc.set (.inl hnav) hw maskSentinel⟩
  | ok loc value =>
    rw [hnav] at hleads
    obtain ⟨-, parent, key, w, hat, hget, hvalue, hw⟩ := hleads
    have hdepth := depth_navigate hnav
    have hbound := hc.depth
    have hread : document fuel h w = value := by
      apply StoredAt.read value fuel hvalue
      simp only [Json.depth] at hbound
      omega
    rw [hat]
    simp only [hget, Option.map_some, Option.bind_some, hread]
    cases haction : rule.action with
    | dropField =>
      simp only [ruleWrite, haction]
      exact ⟨trivial, hc.del (.inr ⟨value, hnav⟩) hw⟩
    | mask _ _ | hash _ | octets _ _ | affixes _ _ _ =>
      simp only [ruleWrite, haction]
      cases htransform : RedactionAction.transform rt _ value with
      | none => exact ⟨rfl, hc⟩
      | some x =>
        obtain ⟨s, rfl⟩ := transform_text htransform
        exact ⟨rfl, hc.set (.inr ⟨value, hnav⟩) hw s⟩

theorem foldl_applyRuleAt_copied {h₀ : Heap Scalar} {lo hi : Nat} {o : Obj} {v : Ref Scalar}
    (hc : Copied fuel h₀ h lo hi o v) (rules : List CompiledRedactionRule) (applied : List String) :
    (rules.foldl (applyRuleAt rt fuel v) (h, applied)).2 =
        (rules.foldl (applyRule rt) (o, applied)).2 ∧
      Copied fuel h₀ (rules.foldl (applyRuleAt rt fuel v) (h, applied)).1 lo hi
        (rules.foldl (applyRule rt) (o, applied)).1 v := by
  induction rules generalizing h o applied with
  | nil => exact ⟨rfl, hc⟩
  | cons rule rules ih =>
    obtain ⟨hmarks, hstep⟩ := @applyRuleAt_copied rt fuel h h₀ lo hi o v hc applied rule
    have hrest := ih hstep (applyRule rt (o, applied) rule).2
    rw [← hmarks] at hrest
    rw [List.foldl_cons, List.foldl_cons]
    convert hrest using 2
    · rw [hmarks]
    · rw [hmarks]

theorem redactionPlan_isEmpty {o : Obj} {rules : List CompiledRedactionRule}
    (h : (redactionPlan o rules).isEmpty = true) : applyPiiRedaction rt o rules = none := by
  rw [applyPiiRedaction, List.isEmpty_iff.1 h]
  rfl

theorem storedList_strs (h : Heap Scalar) (marks : List String) :
    StoredListAt h (marks.map .str) (marks.map (fun m => .scalar (.str m))) := by
  induction marks with
  | nil => rfl
  | cons m marks ih => exact ⟨_, _, rfl, rfl, ih⟩

theorem addMarks_stored {lo hi : Nat} {o : Obj} {v : Ref Scalar} (hv : Owned h lo hi (.obj o) v)
    (k : String) (marks : List String) :
    let h' := Heap.setItem (h ++ [.list (marks.map fun m => .scalar (.str m))]) v k (.addr h.length)
    StoredAt h' (.obj (Assoc.set k (.list (marks.map .str)) o)) v ∧ ∀ b < lo, h'[b]? = h[b]? := by
  obtain ⟨a, fs, rfl, -, hcell, ho⟩ := hv
  have hlen : a < h.length := (List.getElem?_eq_some_iff.1 hcell).1
  have hlo := OwnedFields.le o ho
  dsimp only
  generalize hcells : marks.map (fun m => (Ref.scalar (Scalar.str m))) = cells
  have hcell' : (h ++ [Shape.list cells])[a]? = some (.dict fs) := by
    rw [List.getElem?_append_left hlen, hcell]
  have hkept : ∀ b, b < h.length → a ≠ b →
      ((h ++ [Shape.list cells]).set a (.dict (Assoc.set k (.addr h.length) fs)))[b]? = h[b]? := by
    intro b hb hab
    rw [List.getElem?_set_ne hab, List.getElem?_append_left hb]
  rw [setItem_addr hcell']
  constructor
  · have hlen' : a < (h ++ [Shape.list cells]).length := (List.getElem?_eq_some_iff.1 hcell').1
    refine ⟨a, Assoc.set k (.addr h.length) fs, rfl, List.getElem?_set_self hlen', ?_⟩
    apply StoredFieldsAt.set
    · apply OwnedFields.stored
      exact OwnedFields.congr o (fun b _ hb => hkept b (hb.trans hlen) hb.ne') ho
    · refine ⟨h.length, cells, rfl, ?_, hcells ▸ storedList_strs _ marks⟩
      rw [List.getElem?_set_ne hlen.ne, List.getElem?_append_right le_rfl, Nat.sub_self]
      rfl
  · intro b hb
    exact hkept b (by omega) (by omega)

/-- The redacted copy stands in new cells; nothing that was there is written to. -/
theorem applyPiiRedactionAt_stored {o : Obj} {v : Ref Scalar} (hv : StoredAt h (.obj o) v)
    (hdepth : (Json.obj o).depth ≤ fuel) (rules : List CompiledRedactionRule) :
    ∃ out h', applyPiiRedactionAt rt fuel v rules h = (out, h') ∧ h <+: h' ∧
      match applyPiiRedaction rt o rules with
      | none => out = none
      | some o' => ∃ w, out = some w ∧ StoredAt h' (.obj o') w := by
  have hread : (document fuel h v).asObj = o := by
    rw [StoredAt.read _ fuel hv hdepth]
    rfl
  unfold applyPiiRedactionAt
  rw [hread]
  dsimp only
  split
  · next hempty =>
    refine ⟨none, h, rfl, List.prefix_rfl, ?_⟩
    rw [redactionPlan_isEmpty hempty]
  · obtain ⟨fs, hcopy, ho, -⟩ := copyDict_stored hv
    have hshallow : StoredAt (h ++ [.dict fs]) (.obj o) (.addr h.length) :=
      ⟨h.length, fs, rfl, getElem?_middle h [] _, ho.extend (List.prefix_append _ _)⟩
    rw [hcopy]
    dsimp only
    rw [StoredAt.read _ fuel hshallow hdepth]
    obtain ⟨hp, howned⟩ := load_owned (.obj o) (h ++ [.dict fs])
    generalize (pythonObjects .none).load (.obj o) (h ++ [.dict fs]) = loaded at hp howned
    obtain ⟨obj, h₂⟩ := loaded
    have hcopied : Copied fuel h₂ h₂ (h ++ [Shape.dict fs]).length h₂.length o obj :=
      ⟨howned, fun _ _ => rfl, rfl, hdepth⟩
    obtain ⟨hmarks, hdone⟩ :=
      @foldl_applyRuleAt_copied rt fuel h₂ h₂ _ _ o obj hcopied (redactionPlan o rules) []
    have happly : applyPiiRedaction rt o rules =
        if ((redactionPlan o rules).foldl (applyRule rt) (o, [])).2.isEmpty then none
        else some (Assoc.set "_centralops_redacted"
          (.list (((redactionPlan o rules).foldl (applyRule rt) (o, [])).2.map .str))
          ((redactionPlan o rules).foldl (applyRule rt) (o, [])).1) := rfl
    rw [happly, ← hmarks]
    generalize (redactionPlan o rules).foldl (applyRule rt) (o, []) = pure at hdone
    generalize (redactionPlan o rules).foldl (applyRuleAt rt fuel obj) (h₂, []) = st at hdone
    obtain ⟨h₃, applied⟩ := st
    dsimp only at hdone ⊢
    have hp₃ : h <+: h₃ := by
      apply (List.prefix_append h [.dict fs]).trans
      apply prefix_of_getElem?
      intro a ha
      have hkept : (h ++ [Shape.dict fs])[a]? = h₂[a]? := by
        obtain ⟨new, rfl⟩ := hp
        exact (List.getElem?_append_left ha).symm
      rw [hdone.outside a (.inl ha), hkept]
    split
    · exact ⟨none, h₃, rfl, hp₃, rfl⟩
    · obtain ⟨hstored, hkept⟩ :=
        addMarks_stored hdone.owned "_centralops_redacted" applied
      refine ⟨some obj, _, rfl, ?_, obj, rfl, hstored⟩
      apply prefix_of_getElem?
      intro b hb
      have hb' : b < (h ++ [Shape.dict fs]).length := by
        rw [List.length_append]
        omega
      obtain ⟨new, rfl⟩ := hp₃
      exact (hkept b hb').trans (List.getElem?_append_left hb)

end Redaction

section Batch
variable {rt : Runtime} {args : RouteArgs} {fuel : Nat} {h : Heap Scalar}

theorem depth_withSampleRate (o : Obj) (p : Int) :
    (Json.obj (withSampleRate o p)).depth ≤ max 3 (Json.obj o).depth := by
  have hlabels : depthFields (eventLabels o) ≤ depthFields o - 1 := by
    rw [eventLabels, Obj.getN]
    cases hlook : o.lookup "_centralops" with
    | none => exact Nat.zero_le _
    | some x =>
      have hx := depth_lookup hlook
      cases x with
      | obj labels =>
        simp only [Json.depth] at hx
        simp only [Option.getD_some, Json.asObj]
        omega
      | null | bool _ | int _ | float _ | str _ | list _ => exact Nat.zero_le _
  have hrate := depth_set "sample_rate" (sampleRate p) (eventLabels o)
  have hset := depth_set "_centralops"
    (.obj (Assoc.set "sample_rate" (sampleRate p) (eventLabels o))) o
  have hone : (sampleRate p).depth = 1 := rfl
  rw [hone] at hrate
  simp only [Json.depth] at hset ⊢
  rw [withSampleRate]
  omega

theorem deliveredCopyAt_stored {o : Obj} {v : Ref Scalar} (hv : StoredAt h (.obj o) v)
    (hdepth : (Json.obj o).depth ≤ fuel) (hfuel : 3 ≤ fuel) (route : CompiledRoute) :
    ∃ out h', deliveredCopyAt rt args fuel route v h = (out, h') ∧ h <+: h' ∧
      StoredAt h' (.obj (deliveredCopy rt args route o)) out := by
  have hlabelled : ∃ out h₁, (if labelsSample args route then
        withSampleRateAt v route.samplePercent h else (v, h)) = (out, h₁) ∧ h <+: h₁ ∧
      StoredAt h₁ (.obj (if labelsSample args route then withSampleRate o route.samplePercent
        else o)) out := by
    split
    · exact withSampleRateAt_stored hv route.samplePercent
    · exact ⟨v, h, rfl, List.prefix_rfl, hv⟩
  obtain ⟨out, h₁, hlabel, hp₁, hout⟩ := hlabelled
  have hdepth₁ : (Json.obj (if labelsSample args route then
      withSampleRate o route.samplePercent else o)).depth ≤ fuel := by
    split
    · exact (depth_withSampleRate o _).trans (max_le hfuel hdepth)
    · exact hdepth
  obtain ⟨redacted, h₂, hredact, hp₂, hredacted⟩ :=
    @applyPiiRedactionAt_stored rt fuel h₁ _ out hout hdepth₁ route.redaction
  have hcopy : StoredAt h₂ (.obj (redactedCopy rt args route o)) (redacted.getD out) := by
    rw [redactedCopy, redact]
    split at hredacted
    · next hnone =>
      rw [hnone, hredacted]
      exact hout.extend hp₂
    · next o' hsome =>
      obtain ⟨w, rfl, hw⟩ := hredacted
      rw [hsome]
      exact hw
  rw [deliveredCopyAt, hlabel]
  dsimp only
  rw [hredact]
  dsimp only
  rw [deliveredCopy]
  split
  · obtain ⟨dropped, h₃, hdrop, hp₃, hdropped⟩ := withoutRawAt_stored hcopy
    rw [hdrop]
    refine ⟨_, _, rfl, (hp₁.trans hp₂).trans hp₃, ?_⟩
    split at hdropped
    · next hnone =>
      rw [hnone, hdropped]
      exact hcopy.extend hp₃
    · next o' hsome =>
      obtain ⟨w, rfl, hw⟩ := hdropped
      rw [hsome]
      exact hw
  · exact ⟨_, _, rfl, hp₁.trans hp₂, hcopy⟩

def SendStored (h : Heap Scalar) (p : String × Obj) (q : String × Ref Scalar) : Prop :=
  p.1 = q.1 ∧ StoredAt h (.obj p.2) q.2

theorem deliverChosenAt_stored {o : Obj} {v : Ref Scalar} (hv : StoredAt h (.obj o) v)
    (hdepth : (Json.obj o).depth ≤ fuel) (hfuel : 3 ≤ fuel)
    (entries : List (String × CompiledRoute)) :
    ∃ sends h', deliverChosenAt rt args fuel (labelEventId rt (eventLabels o)) v entries h =
        (sends, h') ∧ h <+: h' ∧ List.Forall₂ (SendStored h') (copiesOf rt args o entries) sends := by
  induction entries generalizing h with
  | nil => exact ⟨[], h, rfl, List.prefix_rfl, .nil⟩
  | cons p entries ih =>
    obtain ⟨dest, route⟩ := p
    rw [deliverChosenAt]
    split
    · next hout =>
      obtain ⟨sends, h', hrun, hp, hsends⟩ := ih hv
      refine ⟨sends, h', hrun, hp, ?_⟩
      have hskip : copiesOf rt args o ((dest, route) :: entries) = copiesOf rt args o entries := by
        have hsampled : sampledOutOf rt args o route = true := hout
        simp [copiesOf, hsampled]
      rw [hskip]
      exact hsends
    · next hkept =>
      obtain ⟨copy, h₁, hcopy, hp₁, hstored⟩ :=
        @deliveredCopyAt_stored rt args fuel h o v hv hdepth hfuel route
      obtain ⟨sends, h', hrun, hp, hsends⟩ := ih (hv.extend hp₁)
      rw [hcopy]
      dsimp only
      rw [hrun]
      refine ⟨_, h', rfl, hp₁.trans hp, ?_⟩
      have hsampled : sampledOutOf rt args o route = false := Bool.eq_false_iff.2 hkept
      have hcons : copiesOf rt args o ((dest, route) :: entries) =
          (dest, deliveredCopy rt args route o) :: copiesOf rt args o entries := by
        simp [copiesOf, hsampled]
      rw [hcons]
      exact .cons ⟨rfl, hstored.extend hp⟩ hsends

theorem routeEventAt_stored {o : Obj} {v : Ref Scalar} (hv : StoredAt h (.obj o) v)
    (hdepth : (Json.obj o).depth ≤ fuel) (hfuel : 3 ≤ fuel) :
    ∃ sends h', routeEventAt rt args fuel v h = (sends, h') ∧ h <+: h' ∧
      List.Forall₂ (SendStored h') (sendsOf rt args o) sends := by
  have hread : (document fuel h v).asObj = o := by
    rw [StoredAt.read _ fuel hv hdepth]
    rfl
  rw [routeEventAt, hread, sendsOf]
  dsimp only
  change ∃ sends h', (if (decisionOf rt args o).dropped then _ else
    if (survivingOf rt args o).isEmpty then _ else _) = (sends, h') ∧ _
  split
  · exact ⟨[], h, rfl, List.prefix_rfl, .nil⟩
  · split
    · rw [sinkSends, sinkless]
      cases args.fallbackDestinationId with
      | none => exact ⟨[], h, rfl, List.prefix_rfl, by simp⟩
      | some fb =>
        dsimp only
        split
        · exact ⟨[], h, rfl, List.prefix_rfl, by simp⟩
        · refine ⟨_, h, rfl, List.prefix_rfl, ?_⟩
          simp only [if_true, Option.toList_some, List.map_cons, List.map_nil]
          exact .cons ⟨rfl, hv⟩ .nil
    · exact deliverChosenAt_stored hv hdepth hfuel _

/-- Envelopes and the values they stand under. -/
def BatchStored (h : Heap Scalar) (batch : List Obj) (refs : List (Ref Scalar)) : Prop :=
  List.Forall₂ (fun o v => StoredAt h (.obj o) v) batch refs

theorem BatchStored.extend {h' : Heap Scalar} (hp : h <+: h') {batch : List Obj}
    {refs : List (Ref Scalar)} (hb : BatchStored h batch refs) : BatchStored h' batch refs :=
  hb.imp fun _ _ hv => hv.extend hp

theorem values_stored {sends : List (String × Obj)} {refs : List (String × Ref Scalar)}
    (hs : List.Forall₂ (SendStored h) sends refs) (dest : String) :
    BatchStored h (Assoc.values dest sends) (Assoc.values dest refs) := by
  induction hs with
  | nil => exact .nil
  | @cons p q _ _ hq _ ih =>
    obtain ⟨hdest, hstored⟩ := hq
    simp only [Assoc.values, List.filter_cons, ← hdest]
    split
    · exact .cons hstored ih
    · exact ih

/-- The sub-batches hold what routing puts into them, and no cell that was there is written to. -/
theorem routeBatchAt_stored (hfuel : 3 ≤ fuel) {batch : List Obj} {refs : List (Ref Scalar)}
    (hbatch : BatchStored h batch refs) (hdepth : ∀ o ∈ batch, (Json.obj o).depth ≤ fuel) :
    h <+: (routeBatchAt rt args fuel refs h).2 ∧ ∀ dest,
      BatchStored (routeBatchAt rt args fuel refs h).2
        ((routeBatch rt args batch).subBatches.bucket dest)
        ((routeBatchAt rt args fuel refs h).1.bucket dest) := by
  have hrun : ∀ (batch : List Obj) (refs : List (Ref Scalar)) (result : BatchRouting)
      (st : Dict String (List (Ref Scalar)) × Heap Scalar), BatchStored st.2 batch refs →
      (∀ o ∈ batch, (Json.obj o).depth ≤ fuel) →
      (∀ dest, BatchStored st.2 (result.subBatches.bucket dest) (st.1.bucket dest)) →
      let st' := refs.foldl (fun st env =>
        ((st.1.pushAll (routeEventAt rt args fuel env st.2).1),
          (routeEventAt rt args fuel env st.2).2)) st
      st.2 <+: st'.2 ∧ ∀ dest, BatchStored st'.2
        ((batch.foldl (routeEvent rt args) result).subBatches.bucket dest) (st'.1.bucket dest) := by
    intro batch
    induction batch with
    | nil =>
      intro refs result st hb _ hsub
      cases hb
      exact ⟨List.prefix_rfl, hsub⟩
    | cons o batch ih =>
      intro refs result st hb hdepth hsub
      obtain _ | ⟨hv, hb⟩ := hb
      obtain ⟨sends, h', hevent, hp, hsends⟩ :=
        @routeEventAt_stored rt args fuel st.2 o _ hv (hdepth o List.mem_cons_self) hfuel
      have hpure := (routeEvent_extends rt args o result).sends
      have hrest := ih _ (routeEvent rt args result o) (st.1.pushAll sends, h')
        (BatchStored.extend hp hb) (fun o' ho' => hdepth o' (List.mem_cons_of_mem o ho'))
        (by
          intro dest
          rw [hpure, Dict.bucket_pushAll, Dict.bucket_pushAll]
          exact List.rel_append ((hsub dest).extend hp) (values_stored hsends dest))
      rw [List.foldl_cons, List.foldl_cons, hevent]
      exact ⟨hp.trans hrest.1, hrest.2⟩
  exact hrun batch refs {} (.empty, h) hbatch hdepth fun _ => .nil

end Batch

/-- A batch of envelopes in Python's heap, no deeper than a reader can descend. -/
structure HeldBatch (batch : List Obj) where
  heap : Heap Scalar
  refs : List (Ref Scalar)
  fuel : Nat
  stored : BatchStored heap batch refs
  fits : ∀ o ∈ batch, (Json.obj o).depth ≤ fuel
  deep : 3 ≤ fuel

end CentralOps
