import Mathlib.Data.List.TakeWhile
import CentralOps.Delivery.Tenancy
import CentralOps.Lib.Grouping
import CentralOps.Routing.Copies

namespace CentralOps
set_option autoImplicit true

section Coalesce
variable (rt : Runtime) (groupBy : List String)

def groupKeys (batch : List Obj) : List (List String) :=
  Grouping.keys (groupKey rt groupBy) batch

def groupMembers (batch : List Obj) (key : List String) : List Obj :=
  Grouping.members (groupKey rt groupBy) batch key

def collapsed (batch : List Obj) : List Obj := Grouping.repeats (groupKey rt groupBy) batch

/-- The `_aggregate` block of a group. -/
def aggregateBlock (key : List String) (count : Nat) : Json :=
  .obj [("count", .int count),
    ("group", .obj ((groupBy.zip key).foldl (fun o p => Assoc.set p.1 (Json.str p.2) o) []))]

/-- The first event with its `_aggregate` block and its label block as an object. -/
structure Decorated (key : List String) (first : Obj) (count : Nat) (x : Obj) : Prop where
  aggregate : x.lookup "_aggregate" = some (aggregateBlock groupBy key count)
  labels : x.lookup "_centralops" = some (.obj (eventLabels first))
  rest : ∀ k, k ≠ "_aggregate" → k ≠ "_centralops" → x.lookup k = first.lookup k

def Represents (batch : List Obj) (key : List String) (x : Obj) : Prop :=
  ∃ e es, groupMembers rt groupBy batch key = e :: es ∧
    if es = [] then x = e else Decorated groupBy key e (es.length + 1) x

/-- The events an entry counts for: its `_aggregate.count` where one was added, else one. -/
def entryCount (batch : List Obj) (key : List String) (x : Obj) : Int :=
  if (groupMembers rt groupBy batch key).length = 1 then 1
  else
    match (x.getN "_aggregate").asObj.getN "count" with
    | .int n => n
    | _ => 0

structure Conserves (batch out : List Obj) (bytes events : Nat) : Prop where
  entries : List.Forall₂ (Represents rt groupBy batch) (groupKeys rt groupBy batch) out
  counts : (((groupKeys rt groupBy batch).zip out).map
    (fun p => entryCount rt groupBy batch p.1 p.2)).sum = batch.length
  events : events + out.length = batch.length
  bytes : bytes = ((collapsed rt groupBy batch).map (fun e => rt.dumpsSize (.obj e))).sum

variable {rt groupBy}

theorem groupsOf_entries (batch : List Obj) : (groupsOf rt groupBy batch).entries =
    (groupKeys rt groupBy batch).map (fun k => (k, groupMembers rt groupBy batch k)) :=
  Grouping.entries_pushAll (groupKey rt groupBy) batch

theorem metricEvent_decorated (key : List String) (first : Obj) (count : Nat) :
    Decorated groupBy key first count (metricEvent groupBy key first count) := by
  constructor
  · exact Assoc.lookup_set_self _ _ _
  · rw [metricEvent, Assoc.lookup_set_ne (by decide), Assoc.lookup_set_self]
  · intro k haggregate hlabels
    rw [metricEvent, Assoc.lookup_set_ne haggregate, Assoc.lookup_set_ne hlabels]

theorem groupEvent_represents {batch : List Obj} {k : List String}
    (hk : k ∈ groupKeys rt groupBy batch) :
    ∃ x, groupEvent groupBy (k, groupMembers rt groupBy batch k) = [x] ∧
      Represents rt groupBy batch k x := by
  cases hmembers : groupMembers rt groupBy batch k with
  | nil => exact absurd hmembers (Grouping.members_ne_nil hk)
  | cons e es =>
    cases es with
    | nil => exact ⟨e, rfl, e, [], hmembers, rfl⟩
    | cons e' es =>
      refine ⟨_, rfl, e, e' :: es, hmembers, ?_⟩
      rw [if_neg (List.cons_ne_nil e' es)]
      exact metricEvent_decorated k e _

theorem entryCount_eq {batch : List Obj} {k : List String} {x : Obj}
    (h : Represents rt groupBy batch k x) :
    entryCount rt groupBy batch k x = (groupMembers rt groupBy batch k).length := by
  obtain ⟨e, es, hmembers, hx⟩ := h
  rw [entryCount, hmembers]
  split
  · next hone => rw [hone, Nat.cast_one]
  · next hmany =>
    have hne : es ≠ [] := by
      rintro rfl
      exact hmany rfl
    rw [if_neg hne] at hx
    simp only [Obj.getN, hx.aggregate]
    rfl

theorem sum_entryCount {batch out : List Obj} {ks : List (List String)}
    (h : List.Forall₂ (Represents rt groupBy batch) ks out) :
    ((ks.zip out).map (fun p => entryCount rt groupBy batch p.1 p.2)).sum =
      ((ks.map (fun k => (groupMembers rt groupBy batch k).length)).sum : Nat) := by
  induction h with
  | nil => rfl
  | cons hx _ ih =>
    rw [List.zip_cons_cons, List.map_cons, List.sum_cons, ih, entryCount_eq hx, List.map_cons,
      List.sum_cons, Nat.cast_add]

theorem represents_groups (rt : Runtime) (groupBy : List String) (batch : List Obj) :
    List.Forall₂ (Represents rt groupBy batch) (groupKeys rt groupBy batch)
      ((groupsOf rt groupBy batch).entries.flatMap (groupEvent groupBy)) := by
  have hall : ∀ ks : List (List String), (∀ k ∈ ks, k ∈ groupKeys rt groupBy batch) →
      List.Forall₂ (Represents rt groupBy batch) ks
        (ks.flatMap (fun k => groupEvent groupBy (k, groupMembers rt groupBy batch k))) := by
    intro ks
    induction ks with
    | nil => intro _; exact .nil
    | cons k ks ih =>
      intro hks
      obtain ⟨x, hx, hrep⟩ := groupEvent_represents (hks k List.mem_cons_self)
      rw [List.flatMap_cons, hx]
      exact .cons hrep (ih fun j hj => hks j (List.mem_cons_of_mem k hj))
  rw [groupsOf_entries, List.flatMap_map]
  exact hall _ fun _ hk => hk

/-- What the second loop saves is what the collapsed events are. -/
theorem coalesce_groups {batch : List Obj} {maxGroups : Nat}
    (hgroupBy : groupBy.isEmpty = false) (hbatch : batch.isEmpty = false)
    (hcount : groupCount rt groupBy batch ≤ maxGroups) :
    coalesce rt groupBy batch maxGroups =
      ((groupsOf rt groupBy batch).entries.flatMap (groupEvent groupBy),
        ((collapsed rt groupBy batch).map (fun e => rt.dumpsSize (.obj e))).sum,
        (collapsed rt groupBy batch).length) := by
  have htails : ((groupKeys rt groupBy batch).flatMap
      (fun k => (groupMembers rt groupBy batch k).tail)).Perm (collapsed rt groupBy batch) :=
    Grouping.flatMap_tails_perm batch
  have hbytes : ((groupsOf rt groupBy batch).entries.map
        (fun p => ((p.2.drop 1).map (fun e => rt.dumpsSize (.obj e))).sum)).sum =
      ((collapsed rt groupBy batch).map (fun e => rt.dumpsSize (.obj e))).sum := by
    rw [← (htails.map _).sum_eq, groupsOf_entries, List.map_map]
    induction groupKeys rt groupBy batch with
    | nil => rfl
    | cons k ks ih =>
      rw [List.map_cons, List.sum_cons, ih, List.flatMap_cons, List.map_append, List.sum_append]
      simp
  have hevents : ((groupsOf rt groupBy batch).entries.map (fun p => p.2.length - 1)).sum =
      (collapsed rt groupBy batch).length := by
    rw [← htails.length_eq, groupsOf_entries, List.map_map, List.length_flatMap]
    simp [Function.comp_def]
  rw [coalesce, if_neg (by simp [hgroupBy, hbatch]), groupBatch_empty, if_pos hcount]
  simp only [hbytes, hevents]

theorem coalesce_conserves (rt : Runtime) {batch : List Obj} (maxGroups : Nat)
    (hgroupBy : groupBy.isEmpty = false) (hbatch : batch.isEmpty = false)
    (hcount : groupCount rt groupBy batch ≤ maxGroups) :
    Conserves rt groupBy batch (coalesce rt groupBy batch maxGroups).1
      (coalesce rt groupBy batch maxGroups).2.1 (coalesce rt groupBy batch maxGroups).2.2 := by
  rw [coalesce_groups hgroupBy hbatch hcount]
  have hentries := represents_groups rt groupBy batch
  constructor
  · exact hentries
  · rw [sum_entryCount hentries]
    exact congrArg _ (Grouping.sum_members_length batch)
  · rw [← hentries.length_eq, Nat.add_comm]
    exact Grouping.keys_add_repeats batch
  · rfl

end Coalesce

section References
variable (rt : Runtime) (fuel : Nat) (groupBy : List String)

/-- `env.get("_centralops") or {}`, whose `get` is called next. -/
def groupLabels (envelope : Obj) : Except PyError Obj :=
  match envelope.getN "_centralops" with
  | .obj labels => .ok labels
  | v => if v.truthy then .error .attributeError else .ok []

/-- The first loop of `coalesce`; `none` when there would be more than `maxGroups` groups. -/
def groupBatchAt (h : Heap Scalar) (maxGroups : Nat)
    (groups : Dict (List String) (List (Ref Scalar))) :
    List (Ref Scalar) → Except PyError (Option (Dict (List String) (List (Ref Scalar))))
  | [] => .ok (some groups)
  | env :: rest =>
    match groupLabels (document fuel h env).asObj with
    | .error e => .error e
    | .ok labels =>
      let key := groupBy.map (fun k => rt.str ((labels.lookup k).getD (.str "")))
      if (groups.get? key).isNone && decide (maxGroups ≤ groups.entries.length) then .ok none
      else groupBatchAt h maxGroups (groups.push key env) rest

def metricEventAt (key : List String) (first : Ref Scalar) (count : Nat) (h : Heap Scalar) :
    Ref Scalar × Heap Scalar :=
  let (agg, h) := copyDict first h
  let (labels, h) := copyLabels first h
  let h := h.setItem agg "_centralops" labels
  let (group, h) := h.make
    (.dict ((groupBy.zip key).foldl (fun o p => Assoc.set p.1 (.scalar (.str p.2)) o) []))
  let (block, h) := h.make (.dict [("count", .scalar (.int count)), ("group", group)])
  (agg, h.setItem agg "_aggregate" block)

def groupEventAt (h : Heap Scalar) :
    List String × List (Ref Scalar) → List (Ref Scalar) × Heap Scalar
  | (_, []) => ([], h)
  | (_, [e]) =>
    let (copy, h) := copyDict e h
    ([copy], h)
  | (key, e :: es) =>
    let (agg, h) := metricEventAt groupBy key e (es.length + 1) h
    ([agg], h)

/-- The second loop of `coalesce`: the entries, with the bytes and events saved. -/
def groupEventsAt : List (List String × List (Ref Scalar)) → Heap Scalar →
    (List (Ref Scalar) × Nat × Nat) × Heap Scalar
  | [], h => (([], 0, 0), h)
  | p :: rest, h =>
    let (out, h) := groupEventAt groupBy h p
    let saved := ((p.2.drop 1).map (fun e => rt.dumpsSize (document fuel h e))).sum
    let ((outs, bytes, events), h) := groupEventsAt rest h
    ((out ++ outs, saved + bytes, p.2.length - 1 + events), h)

/-- `coalesce` on envelopes in Python's heap. -/
def coalesceAt (maxGroups : Nat) (batch : List (Ref Scalar)) (h : Heap Scalar) :
    Except PyError ((List (Ref Scalar) × Nat × Nat) × Heap Scalar) :=
  if groupBy.isEmpty || batch.isEmpty then .ok ((batch, 0, 0), h)
  else
    match groupBatchAt rt fuel groupBy h maxGroups .empty batch with
    | .error e => .error e
    | .ok none => .ok ((batch, 0, 0), h)
    | .ok (some groups) => .ok (groupEventsAt rt fuel groupBy groups.entries h)

def groupable (envelope : Obj) : Bool := (groupLabels envelope).isOk

end References

section Held
variable {rt : Runtime} {fuel : Nat} {groupBy : List String} {h : Heap Scalar}

theorem groupLabels_ok {o : Obj} (hlabels : groupable o = true) :
    groupLabels o = .ok (eventLabels o) := by
  rw [groupable, groupLabels] at hlabels
  rw [groupLabels, eventLabels]
  cases hv : o.getN "_centralops" with
  | obj labels => rfl
  | null | bool _ | int _ | float _ | str _ | list _ =>
    rw [hv] at hlabels
    dsimp only at hlabels ⊢
    split
    · next htruthy =>
      rw [if_pos htruthy] at hlabels
      cases hlabels
    · rfl

theorem groupLabels_error {o : Obj} (hlabels : groupable o = false) :
    groupLabels o = .error .attributeError := by
  rw [groupable, groupLabels] at hlabels
  rw [groupLabels]
  cases hv : o.getN "_centralops" with
  | obj labels =>
    rw [hv] at hlabels
    cases hlabels
  | null | bool _ | int _ | float _ | str _ | list _ =>
    rw [hv] at hlabels
    dsimp only at hlabels ⊢
    split
    · rfl
    · next htruthy =>
      rw [if_neg htruthy] at hlabels
      cases hlabels

abbrev GroupsStored (h : Heap Scalar) (groups : List (List String × List Obj))
    (refs : List (List String × List (Ref Scalar))) : Prop :=
  List.Forall₂ (Grouping.GroupRel (fun o v => StoredAt h (.obj o) v)) groups refs

theorem groupBatchAt_stored (rt : Runtime) (groupBy : List String) {batch : List Obj} {refs : List (Ref Scalar)}
    (hbatch : BatchStored h batch refs) (hdepth : ∀ o ∈ batch, (Json.obj o).depth ≤ fuel)
    (maxGroups : Nat) (groups : Dict (List String) (List Obj))
    (groupRefs : Dict (List String) (List (Ref Scalar)))
    (hg : GroupsStored h groups.entries groupRefs.entries) :
    match groupBatch rt groupBy maxGroups groups (batch.takeWhile groupable) with
    | none => groupBatchAt rt fuel groupBy h maxGroups groupRefs refs = .ok none
    | some groups' =>
      if batch.all groupable then
        ∃ out, groupBatchAt rt fuel groupBy h maxGroups groupRefs refs = .ok (some out) ∧
          GroupsStored h groups'.entries out.entries
      else groupBatchAt rt fuel groupBy h maxGroups groupRefs refs = .error .attributeError := by
  induction hbatch generalizing groups groupRefs with
  | nil => exact ⟨groupRefs, rfl, hg⟩
  | @cons o v batch refs hv hbatch ih =>
    have hread : (document fuel h v).asObj = o := by
      rw [StoredAt.read _ fuel hv (hdepth o List.mem_cons_self)]
      rfl
    rw [groupBatchAt, hread, List.takeWhile_cons, List.all_cons]
    cases hlabels : groupable o with
    | false =>
      rw [groupLabels_error hlabels]
      rfl
    | true =>
      rw [groupLabels_ok hlabels, if_pos rfl, groupBatch, Bool.true_and]
      dsimp only
      have hnone := Grouping.isNone_rel hg (groupKey rt groupBy o)
      have hkey : groupBy.map (fun k => rt.str (((eventLabels o).lookup k).getD (.str ""))) =
          groupKey rt groupBy o := rfl
      rw [hkey, ← hnone, ← hg.length_eq]
      cases (groups.get? (groupKey rt groupBy o)).isNone &&
        decide (maxGroups ≤ groups.entries.length) with
      | true => rfl
      | false =>
        rw [if_neg Bool.false_ne_true, if_neg Bool.false_ne_true]
        apply ih
        · intro o' ho'
          exact hdepth o' (List.mem_cons_of_mem o ho')
        · exact Grouping.push_rel hg _ hv

theorem foldl_set_stored (pairs : List (String × String)) {o : Obj}
    {fs : List (String × Ref Scalar)} (ho : StoredFieldsAt h o fs) :
    StoredFieldsAt h (pairs.foldl (fun o p => Assoc.set p.1 (.str p.2) o) o)
      (pairs.foldl (fun fs p => Assoc.set p.1 (.scalar (.str p.2)) fs) fs) := by
  induction pairs generalizing o fs with
  | nil => exact ho
  | cons p pairs ih => exact ih (ho.set p.1 (x := .str p.2) rfl)

/-- A metric event in the heap, all of whose cells are new. -/
theorem metricEventAt_stored (groupBy : List String) {o : Obj} {v : Ref Scalar} (hv : StoredAt h (.obj o) v)
    (key : List String) (count : Nat) :
    ∃ out h', metricEventAt groupBy key v count h = (out, h') ∧ h <+: h' ∧
      StoredAt h' (.obj (metricEvent groupBy key o count)) out := by
  obtain ⟨fs, hcopy, ho, hget⟩ := copyDict_stored hv
  have hget' : ∀ k, getRef (h ++ [.dict fs]) v k = fs.lookup k := by
    intro k
    rw [← hget k, getRef, getRef, hv.shape_prefix (List.prefix_append h _)]
  obtain ⟨ls, hlabels, hls⟩ := copyLabels_stored (List.prefix_append h [.dict fs]) ho hget'
  have hgs : ∀ h : Heap Scalar, StoredFieldsAt h _ _ := fun h =>
    @foldl_set_stored h (groupBy.zip key) [] [] rfl
  have hrun : metricEventAt groupBy key v count h = (.addr h.length,
      h ++ .dict (Assoc.set "_aggregate" (.addr (h.length + 3))
          (Assoc.set "_centralops" (.addr (h.length + 1)) fs)) ::
        [.dict ls,
          .dict ((groupBy.zip key).foldl (fun fs p => Assoc.set p.1 (.scalar (.str p.2)) fs) []),
          .dict [("count", .scalar (.int count)), ("group", .addr (h.length + 2))]]) := by
    rw [metricEventAt, hcopy]
    dsimp only
    rw [hlabels]
    dsimp only
    rw [List.append_assoc, List.singleton_append, setItem_middle, make_dict, make_dict]
    dsimp only
    rw [List.append_assoc, List.cons_append, List.append_assoc, List.cons_append, setItem_middle]
    simp
  have hp : h <+: (metricEventAt groupBy key v count h).2 := by
    rw [hrun]
    exact List.prefix_append _ _
  refine ⟨_, _, hrun, by rwa [hrun] at hp, h.length, _, rfl, getElem?_middle _ _ _, ?_⟩
  rw [hrun] at hp
  apply StoredFieldsAt.set
  · apply (ho.extend hp).set
    exact ⟨h.length + 1, ls, rfl, by simp, hls.extend hp⟩
  · refine ⟨h.length + 3, _, rfl, by simp, _, _, rfl, rfl, .addr (h.length + 2), [], rfl, ?_, rfl⟩
    exact ⟨h.length + 2, _, rfl, by simp, hgs _⟩

theorem groupEventAt_stored (groupBy key : List String) {es : List Obj} {vs : List (Ref Scalar)}
    (hes : BatchStored h es vs) :
    ∃ out h', groupEventAt groupBy h (key, vs) = (out, h') ∧ h <+: h' ∧
      BatchStored h' (groupEvent groupBy (key, es)) out := by
  cases hes with
  | nil => exact ⟨[], h, rfl, List.prefix_rfl, .nil⟩
  | cons hv hes =>
    have hlen := hes.length_eq
    cases hes with
    | nil =>
      obtain ⟨fs, hcopy, ho, -⟩ := copyDict_stored hv
      have hp := List.prefix_append h [Shape.dict fs]
      rw [groupEventAt, hcopy]
      refine ⟨_, _, rfl, hp, .cons ⟨h.length, fs, rfl, ?_, ho.extend hp⟩ .nil⟩
      exact getElem?_middle h [] _
    | cons _ _ =>
      obtain ⟨out, h', hrun, hp, hout⟩ := metricEventAt_stored groupBy hv key _
      refine ⟨[out], h', ?_, hp, .cons (hlen ▸ hout) .nil⟩
      change (let (agg, h) := metricEventAt groupBy key _ _ h; ([agg], h)) = _
      rw [hrun]

theorem savedBytes_stored {es : List Obj} {vs : List (Ref Scalar)} (hes : BatchStored h es vs)
    (hdepth : ∀ o ∈ es, (Json.obj o).depth ≤ fuel) :
    vs.map (fun e => rt.dumpsSize (document fuel h e)) = es.map (fun e => rt.dumpsSize (.obj e)) := by
  induction hes with
  | nil => rfl
  | @cons o v es vs hv _ ih =>
    rw [List.map_cons, List.map_cons, StoredAt.read _ fuel hv (hdepth o List.mem_cons_self),
      ih fun o' ho' => hdepth o' (List.mem_cons_of_mem o ho')]

theorem groupEventsAt_stored (rt : Runtime) (groupBy : List String)
    {groups : List (List String × List Obj)}
    {refs : List (List String × List (Ref Scalar))} (hg : GroupsStored h groups refs)
    (hdepth : ∀ p ∈ groups, ∀ o ∈ p.2, (Json.obj o).depth ≤ fuel) :
    ∃ out h', groupEventsAt rt fuel groupBy refs h = ((out,
        (groups.map (fun p => ((p.2.drop 1).map (fun e => rt.dumpsSize (.obj e))).sum)).sum,
        (groups.map (fun p => p.2.length - 1)).sum), h') ∧ h <+: h' ∧
      BatchStored h' (groups.flatMap (groupEvent groupBy)) out := by
  induction groups generalizing refs h with
  | nil =>
    cases hg
    exact ⟨[], h, rfl, List.prefix_rfl, .nil⟩
  | cons p groups ih =>
    obtain ⟨key, es⟩ := p
    obtain _ | @⟨_, q, _, refs, hq, hrest⟩ := hg
    obtain ⟨key', vs⟩ := q
    obtain ⟨hkey, hes⟩ := hq
    dsimp only at hkey hes
    subst hkey
    obtain ⟨out, h₁, hrun, hp₁, hout⟩ :=
      groupEventAt_stored groupBy key hes
    obtain ⟨outs, h', hruns, hp, houts⟩ := @ih h₁ refs
      (hrest.imp fun _ _ hq => ⟨hq.1, BatchStored.extend hp₁ hq.2⟩)
      fun p hp => hdepth p (List.mem_cons_of_mem _ hp)
    have hsaved : (vs.drop 1).map (fun e => rt.dumpsSize (document fuel h₁ e)) =
        (es.drop 1).map (fun e => rt.dumpsSize (.obj e)) := by
      rw [List.map_drop, List.map_drop,
        savedBytes_stored (BatchStored.extend hp₁ hes) (hdepth _ List.mem_cons_self)]
    refine ⟨out ++ outs, h', ?_, hp₁.trans hp, ?_⟩
    · rw [groupEventsAt, hrun]
      dsimp only
      rw [hruns, hsaved, ← hes.length_eq]
      rfl
    · rw [List.flatMap_cons]
      exact List.rel_append (hout.extend hp) houts

end Held

section Conservation
variable (rt : Runtime) (groupBy : List String) (maxGroups : Nat)

/-- What `coalesce` makes of a batch in the heap. Without keys, without events or with too many
groups it is the batch as it is. An event whose labels are neither an object nor empty raises.
Any other batch is conserved, and no cell that was there is written to. -/
structure Coalesced (batch : List Obj) (held : HeldBatch batch)
    (run : Except PyError ((List (Ref Scalar) × Nat × Nat) × Heap Scalar)) : Prop where
  unchanged : (groupBy = [] ∨ batch = [] ∨
      maxGroups < groupCount rt groupBy (batch.takeWhile groupable)) →
    run = .ok ((held.refs, 0, 0), held.heap)
  raised : groupBy ≠ [] → groupCount rt groupBy (batch.takeWhile groupable) ≤ maxGroups →
    (∃ o ∈ batch, groupable o = false) → run = .error .attributeError
  conserved : groupBy ≠ [] → batch ≠ [] → groupCount rt groupBy batch ≤ maxGroups →
    (∀ o ∈ batch, groupable o = true) →
    ∃ out bytes events refs h', run = .ok ((refs, bytes, events), h') ∧
      Conserves rt groupBy batch out bytes events ∧ BatchStored h' out refs ∧ held.heap <+: h'

variable {rt groupBy maxGroups} {batch : List Obj} {held : HeldBatch batch}

/-- The loops of `coalesce`, with the groups of the events before the first odd one. -/
theorem coalesceAt_groups (rt : Runtime) (maxGroups : Nat) (held : HeldBatch batch)
    (hgroupBy : groupBy ≠ []) (hbatch : batch ≠ []) :
    match groupBatch rt groupBy maxGroups .empty (batch.takeWhile groupable) with
    | none => coalesceAt rt held.fuel groupBy maxGroups held.refs held.heap =
        .ok ((held.refs, 0, 0), held.heap)
    | some groups =>
      if batch.all groupable then
        ∃ refs, coalesceAt rt held.fuel groupBy maxGroups held.refs held.heap =
            .ok (groupEventsAt rt held.fuel groupBy refs held.heap) ∧
          GroupsStored held.heap groups.entries refs
      else coalesceAt rt held.fuel groupBy maxGroups held.refs held.heap =
        .error .attributeError := by
  have hrefs : held.refs ≠ [] := by
    intro hnil
    have hlen := held.stored.length_eq
    rw [hnil] at hlen
    exact hbatch (List.length_eq_zero_iff.1 hlen)
  have hrun := groupBatchAt_stored rt groupBy held.stored held.fits maxGroups .empty .empty .nil
  rw [coalesceAt, if_neg (by simp [hgroupBy, hrefs])]
  split at hrun
  · rw [hrun]
  · split at hrun
    · next hall =>
      obtain ⟨refs, hrun, hg⟩ := hrun
      rw [hrun, if_pos hall]
      exact ⟨refs.entries, rfl, hg⟩
    · next hodd => rw [hrun, if_neg hodd]

theorem coalesceAt_conserved (hgroupBy : groupBy ≠ []) (hbatch : batch ≠ [])
    (hcount : groupCount rt groupBy batch ≤ maxGroups)
    (hlabels : ∀ o ∈ batch, groupable o = true) :
    ∃ out bytes events refs h',
      coalesceAt rt held.fuel groupBy maxGroups held.refs held.heap =
        .ok ((refs, bytes, events), h') ∧
      Conserves rt groupBy batch out bytes events ∧ BatchStored h' out refs ∧
      held.heap <+: h' := by
  have hrun := coalesceAt_groups rt maxGroups held hgroupBy hbatch
  rw [List.takeWhile_eq_self_iff.2 hlabels, groupBatch_empty, if_pos hcount] at hrun
  rw [List.all_eq_true.2 hlabels] at hrun
  obtain ⟨groupRefs, hrun, hg⟩ := hrun
  have hdepth : ∀ p ∈ (groupsOf rt groupBy batch).entries, ∀ o ∈ p.2,
      (Json.obj o).depth ≤ held.fuel := by
    intro p hp o ho
    rw [groupsOf_entries] at hp
    obtain ⟨k, -, rfl⟩ := List.mem_map.1 hp
    exact held.fits o (List.mem_filter.1 ho).1
  obtain ⟨refs, h', hevents, hp, hout⟩ :=
    groupEventsAt_stored rt groupBy hg hdepth
  rw [hevents] at hrun
  have hpure := coalesce_conserves rt maxGroups
    (List.isEmpty_eq_false_iff.2 hgroupBy) (List.isEmpty_eq_false_iff.2 hbatch) hcount
  have hcoalesce : coalesce rt groupBy batch maxGroups =
      ((groupsOf rt groupBy batch).entries.flatMap (groupEvent groupBy),
        ((groupsOf rt groupBy batch).entries.map
          (fun p => ((p.2.drop 1).map (fun e => rt.dumpsSize (.obj e))).sum)).sum,
        ((groupsOf rt groupBy batch).entries.map (fun p => p.2.length - 1)).sum) := by
    rw [coalesce, if_neg (by simp [hgroupBy, hbatch]), groupBatch_empty, if_pos hcount]
  rw [hcoalesce] at hpure
  exact ⟨_, _, _, refs, h', hrun, hpure, hout, hp⟩

end Conservation

section Example

def unlabelledPair : HeldBatch [[("raw", .int 1)], [("raw", .int 1)]] where
  heap := [.dict [("raw", .scalar (.int 1))], .dict [("raw", .scalar (.int 1))]]
  refs := [.addr 0, .addr 1]
  fuel := 3
  stored := .cons ⟨0, _, rfl, rfl, _, _, rfl, rfl, rfl⟩
    (.cons ⟨1, _, rfl, rfl, _, _, rfl, rfl, rfl⟩ .nil)
  fits := by decide
  deep := le_rfl

def textLabels : HeldBatch [[("_centralops", .str "sophos")]] where
  heap := [.dict [("_centralops", .scalar (.str "sophos"))]]
  refs := [.addr 0]
  fuel := 3
  stored := .cons ⟨0, _, rfl, rfl, _, _, rfl, rfl, rfl⟩ .nil
  fits := by decide
  deep := le_rfl

/-- The label blocks of the entries that come out. -/
def labelBlocks (run : Except PyError ((List (Ref Scalar) × Nat × Nat) × Heap Scalar)) :
    List (Option Json) :=
  match run with
  | .error _ => []
  | .ok ((refs, _, _), h) => refs.map (fun v => (document 3 h v).asObj.lookup "_centralops")

end Example

end CentralOps
