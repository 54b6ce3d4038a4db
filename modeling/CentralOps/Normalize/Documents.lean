import CentralOps.Normalize.Objects

namespace CentralOps
set_option autoImplicit true

mutual
/-- A document stands under a value; its parts may be shared. -/
def StoredAt (h : Heap Scalar) : Json → Ref Scalar → Prop
  | .list xs, v => ∃ a vs, v = .addr a ∧ h[a]? = some (.list vs) ∧ StoredListAt h xs vs
  | .obj o, v => ∃ a fs, v = .addr a ∧ h[a]? = some (.dict fs) ∧ StoredFieldsAt h o fs
  | .null, v => v = .scalar .null
  | .bool b, v => v = .scalar (.bool b)
  | .int n, v => v = .scalar (.int n)
  | .float x, v => v = .scalar (.float x)
  | .str s, v => v = .scalar (.str s)

def StoredListAt (h : Heap Scalar) : List Json → List (Ref Scalar) → Prop
  | [], vs => vs = []
  | x :: xs, vs => ∃ w ws, vs = w :: ws ∧ StoredAt h x w ∧ StoredListAt h xs ws

def StoredFieldsAt (h : Heap Scalar) : Obj → List (String × Ref Scalar) → Prop
  | [], fs => fs = []
  | (k, x) :: o, fs => ∃ w gs, fs = (k, w) :: gs ∧ StoredAt h x w ∧ StoredFieldsAt h o gs
end

mutual
/-- A document stands under a value in cells of its own, between two addresses. -/
def Owned (h : Heap Scalar) (lo hi : Nat) : Json → Ref Scalar → Prop
  | .list xs, v =>
    ∃ a vs, v = .addr a ∧ a < hi ∧ h[a]? = some (.list vs) ∧ OwnedList h lo a xs vs
  | .obj o, v =>
    ∃ a fs, v = .addr a ∧ a < hi ∧ h[a]? = some (.dict fs) ∧ OwnedFields h lo a o fs
  | .null, v => lo ≤ hi ∧ v = .scalar .null
  | .bool b, v => lo ≤ hi ∧ v = .scalar (.bool b)
  | .int n, v => lo ≤ hi ∧ v = .scalar (.int n)
  | .float x, v => lo ≤ hi ∧ v = .scalar (.float x)
  | .str s, v => lo ≤ hi ∧ v = .scalar (.str s)

def OwnedList (h : Heap Scalar) (lo hi : Nat) : List Json → List (Ref Scalar) → Prop
  | [], vs => lo ≤ hi ∧ vs = []
  | x :: xs, vs => ∃ w ws mid, vs = w :: ws ∧ Owned h lo mid x w ∧ OwnedList h mid hi xs ws

def OwnedFields (h : Heap Scalar) (lo hi : Nat) : Obj → List (String × Ref Scalar) → Prop
  | [], fs => lo ≤ hi ∧ fs = []
  | (k, x) :: o, fs =>
    ∃ w gs mid, fs = (k, w) :: gs ∧ Owned h lo mid x w ∧ OwnedFields h mid hi o gs
end

mutual
/-- How many levels a reader descends. -/
def Json.depth : Json → Nat
  | .list xs => depthList xs + 1
  | .obj o => depthFields o + 1
  | _ => 1

def depthList : List Json → Nat
  | [] => 0
  | x :: xs => max x.depth (depthList xs)

def depthFields : Obj → Nat
  | [] => 0
  | (_, x) :: o => max x.depth (depthFields o)
end

/-- The document under a value, read down to a depth. -/
def document (fuel : Nat) (h : Heap Scalar) (v : Ref Scalar) : Json :=
  (pythonObjects .none).read h fuel v

section StoredAt
variable {h h' : Heap Scalar}

mutual
theorem StoredAt.mono
    (hkeep : ∀ (a : Nat) (c : Shape Scalar (Ref Scalar)), h[a]? = some c → h'[a]? = some c) :
    (x : Json) → {v : Ref Scalar} → StoredAt h x v → StoredAt h' x v
  | .list xs, _, hx => by
    obtain ⟨a, vs, rfl, hcell, hxs⟩ := hx
    exact ⟨a, vs, rfl, hkeep a _ hcell, StoredListAt.mono hkeep xs hxs⟩
  | .obj o, _, hx => by
    obtain ⟨a, fs, rfl, hcell, ho⟩ := hx
    exact ⟨a, fs, rfl, hkeep a _ hcell, StoredFieldsAt.mono hkeep o ho⟩
  | .null, _, hx | .bool _, _, hx | .int _, _, hx | .float _, _, hx | .str _, _, hx => hx

theorem StoredListAt.mono
    (hkeep : ∀ (a : Nat) (c : Shape Scalar (Ref Scalar)), h[a]? = some c → h'[a]? = some c) :
    (xs : List Json) → {vs : List (Ref Scalar)} → StoredListAt h xs vs → StoredListAt h' xs vs
  | [], _, hxs => hxs
  | x :: xs, _, hxs => by
    obtain ⟨w, ws, rfl, hx, hxs⟩ := hxs
    exact ⟨w, ws, rfl, StoredAt.mono hkeep x hx, StoredListAt.mono hkeep xs hxs⟩

theorem StoredFieldsAt.mono
    (hkeep : ∀ (a : Nat) (c : Shape Scalar (Ref Scalar)), h[a]? = some c → h'[a]? = some c) :
    (o : Obj) → {fs : List (String × Ref Scalar)} → StoredFieldsAt h o fs → StoredFieldsAt h' o fs
  | [], _, ho => ho
  | (k, x) :: o, _, ho => by
    obtain ⟨w, gs, rfl, hx, ho⟩ := ho
    exact ⟨w, gs, rfl, StoredAt.mono hkeep x hx, StoredFieldsAt.mono hkeep o ho⟩
end

theorem getElem?_extend (hp : h <+: h') (a : Nat) (c : Shape Scalar (Ref Scalar))
    (ha : h[a]? = some c) : h'[a]? = some c := by
  obtain ⟨new, rfl⟩ := hp
  rw [List.getElem?_append_left (List.getElem?_eq_some_iff.1 ha).1, ha]

theorem StoredAt.extend (hp : h <+: h') {x : Json} {v : Ref Scalar} (hx : StoredAt h x v) :
    StoredAt h' x v :=
  StoredAt.mono (getElem?_extend hp) x hx

theorem StoredFieldsAt.extend (hp : h <+: h') {o : Obj} {fs : List (String × Ref Scalar)}
    (ho : StoredFieldsAt h o fs) : StoredFieldsAt h' o fs :=
  StoredFieldsAt.mono (getElem?_extend hp) o ho

theorem StoredFieldsAt.lookup {o : Obj} {fs : List (String × Ref Scalar)} (ho : StoredFieldsAt h o fs)
    (k : String) :
    (o.lookup k = none ∧ fs.lookup k = none) ∨
      ∃ x w, o.lookup k = some x ∧ fs.lookup k = some w ∧ StoredAt h x w := by
  induction o generalizing fs with
  | nil =>
    obtain rfl := ho
    exact .inl ⟨rfl, rfl⟩
  | cons p o ih =>
    obtain ⟨j, x⟩ := p
    obtain ⟨w, gs, rfl, hx, ho⟩ := ho
    simp only [Assoc.lookup_cons_eq]
    split
    · exact .inr ⟨x, w, rfl, rfl, hx⟩
    · exact ih ho

theorem StoredFieldsAt.set {o : Obj} {fs : List (String × Ref Scalar)} (ho : StoredFieldsAt h o fs)
    (k : String) {x : Json} {v : Ref Scalar} (hx : StoredAt h x v) :
    StoredFieldsAt h (Assoc.set k x o) (Assoc.set k v fs) := by
  induction o generalizing fs with
  | nil =>
    obtain rfl := ho
    exact ⟨v, [], rfl, hx, rfl⟩
  | cons p o ih =>
    obtain ⟨j, y⟩ := p
    obtain ⟨w, gs, rfl, hy, ho⟩ := ho
    simp only [Assoc.set]
    split
    · exact ⟨v, gs, rfl, hx, ho⟩
    · exact ⟨w, _, rfl, hy, ih ho⟩

theorem StoredFieldsAt.erase {o : Obj} {fs : List (String × Ref Scalar)} (ho : StoredFieldsAt h o fs)
    (k : String) : StoredFieldsAt h (Assoc.erase k o) (Assoc.erase k fs) := by
  induction o generalizing fs with
  | nil =>
    obtain rfl := ho
    rfl
  | cons p o ih =>
    obtain ⟨j, y⟩ := p
    obtain ⟨w, gs, rfl, hy, ho⟩ := ho
    have hrest := ih ho
    by_cases hj : j = k
    · simpa [Assoc.erase, hj] using hrest
    · simp only [Assoc.erase, List.filter_cons, hj, ne_eq, not_false_eq_true, decide_true, if_true]
      exact ⟨w, _, rfl, hy, hrest⟩

mutual
theorem StoredAt.read : (x : Json) → {v : Ref Scalar} → (fuel : Nat) → StoredAt h x v →
    x.depth ≤ fuel → document fuel h v = x
  | x, _, 0, _, hd => by cases x <;> simp [Json.depth] at hd
  | .list xs, _, fuel + 1, hx, hd => by
    obtain ⟨a, vs, rfl, hcell, hxs⟩ := hx
    have hitems := StoredListAt.read xs fuel hxs (by simpa [Json.depth] using hd)
    rw [document, Objects.read]
    simp only [pythonObjects, Heap.shape, hcell, Option.getD_some]
    exact congrArg _ hitems
  | .obj o, _, fuel + 1, hx, hd => by
    obtain ⟨a, fs, rfl, hcell, ho⟩ := hx
    have hfields := StoredFieldsAt.read o fuel ho (by simpa [Json.depth] using hd)
    rw [document, Objects.read]
    simp only [pythonObjects, Heap.shape, hcell, Option.getD_some]
    exact congrArg _ hfields
  | .null, _, _ + 1, hx, _ | .bool _, _, _ + 1, hx, _ | .int _, _, _ + 1, hx, _
  | .float _, _, _ + 1, hx, _ | .str _, _, _ + 1, hx, _ => by
    obtain rfl := hx
    rfl

theorem StoredListAt.read : (xs : List Json) → {vs : List (Ref Scalar)} → (fuel : Nat) →
    StoredListAt h xs vs → depthList xs ≤ fuel → vs.map (document fuel h) = xs
  | [], _, _, hxs, _ => by
    obtain rfl := hxs
    rfl
  | x :: xs, _, fuel, hxs, hd => by
    obtain ⟨w, ws, rfl, hx, hxs⟩ := hxs
    rw [depthList, max_le_iff] at hd
    rw [List.map_cons, StoredAt.read x fuel hx hd.1, StoredListAt.read xs fuel hxs hd.2]

theorem StoredFieldsAt.read : (o : Obj) → {fs : List (String × Ref Scalar)} → (fuel : Nat) →
    StoredFieldsAt h o fs → depthFields o ≤ fuel →
      fs.map (fun p => (p.1, document fuel h p.2)) = o
  | [], _, _, ho, _ => by
    obtain rfl := ho
    rfl
  | (k, x) :: o, _, fuel, ho, hd => by
    obtain ⟨w, gs, rfl, hx, ho⟩ := ho
    rw [depthFields, max_le_iff] at hd
    rw [List.map_cons, StoredAt.read x fuel hx hd.1, StoredFieldsAt.read o fuel ho hd.2]
end

end StoredAt

section Owned
variable {h h' : Heap Scalar}

mutual
theorem Owned.le {lo hi : Nat} : (x : Json) → {v : Ref Scalar} → Owned h lo hi x v → lo ≤ hi
  | .list xs, _, hx => by
    obtain ⟨a, vs, rfl, ha, -, hxs⟩ := hx
    exact (OwnedList.le xs hxs).trans ha.le
  | .obj o, _, hx => by
    obtain ⟨a, fs, rfl, ha, -, ho⟩ := hx
    exact (OwnedFields.le o ho).trans ha.le
  | .null, _, hx | .bool _, _, hx | .int _, _, hx | .float _, _, hx | .str _, _, hx => hx.1

theorem OwnedList.le {lo hi : Nat} :
    (xs : List Json) → {vs : List (Ref Scalar)} → OwnedList h lo hi xs vs → lo ≤ hi
  | [], _, hxs => hxs.1
  | x :: xs, _, hxs => by
    obtain ⟨w, ws, mid, rfl, hx, hxs⟩ := hxs
    exact (Owned.le x hx).trans (OwnedList.le xs hxs)

theorem OwnedFields.le {lo hi : Nat} :
    (o : Obj) → {fs : List (String × Ref Scalar)} → OwnedFields h lo hi o fs → lo ≤ hi
  | [], _, ho => ho.1
  | (k, x) :: o, _, ho => by
    obtain ⟨w, gs, mid, rfl, hx, ho⟩ := ho
    exact (Owned.le x hx).trans (OwnedFields.le o ho)
end

mutual
theorem Owned.congr {lo hi : Nat} : (x : Json) → {v : Ref Scalar} →
    (∀ a, lo ≤ a → a < hi → h'[a]? = h[a]?) → Owned h lo hi x v → Owned h' lo hi x v
  | .list xs, _, hsame, hx => by
    obtain ⟨a, vs, rfl, ha, hcell, hxs⟩ := hx
    refine ⟨a, vs, rfl, ha, (hsame a (OwnedList.le xs hxs) ha).trans hcell, ?_⟩
    exact OwnedList.congr xs (fun b hlo hb => hsame b hlo (hb.trans ha)) hxs
  | .obj o, _, hsame, hx => by
    obtain ⟨a, fs, rfl, ha, hcell, ho⟩ := hx
    refine ⟨a, fs, rfl, ha, (hsame a (OwnedFields.le o ho) ha).trans hcell, ?_⟩
    exact OwnedFields.congr o (fun b hlo hb => hsame b hlo (hb.trans ha)) ho
  | .null, _, _, hx | .bool _, _, _, hx | .int _, _, _, hx | .float _, _, _, hx
  | .str _, _, _, hx => hx

theorem OwnedList.congr {lo hi : Nat} : (xs : List Json) → {vs : List (Ref Scalar)} →
    (∀ a, lo ≤ a → a < hi → h'[a]? = h[a]?) → OwnedList h lo hi xs vs → OwnedList h' lo hi xs vs
  | [], _, _, hxs => hxs
  | x :: xs, _, hsame, hxs => by
    obtain ⟨w, ws, mid, rfl, hx, hxs⟩ := hxs
    refine ⟨w, ws, mid, rfl, ?_, ?_⟩
    · exact Owned.congr x (fun a hlo ha => hsame a hlo (ha.trans_le (OwnedList.le xs hxs))) hx
    · exact OwnedList.congr xs (fun a hlo ha => hsame a ((Owned.le x hx).trans hlo) ha) hxs

theorem OwnedFields.congr {lo hi : Nat} : (o : Obj) → {fs : List (String × Ref Scalar)} →
    (∀ a, lo ≤ a → a < hi → h'[a]? = h[a]?) → OwnedFields h lo hi o fs → OwnedFields h' lo hi o fs
  | [], _, _, ho => ho
  | (k, x) :: o, _, hsame, ho => by
    obtain ⟨w, gs, mid, rfl, hx, ho⟩ := ho
    refine ⟨w, gs, mid, rfl, ?_, ?_⟩
    · exact Owned.congr x (fun a hlo ha => hsame a hlo (ha.trans_le (OwnedFields.le o ho))) hx
    · exact OwnedFields.congr o (fun a hlo ha => hsame a ((Owned.le x hx).trans hlo) ha) ho
end

theorem Owned.extend (hp : h <+: h') {lo : Nat} {x : Json} {v : Ref Scalar}
    (hx : Owned h lo h.length x v) : Owned h' lo h.length x v := by
  obtain ⟨new, rfl⟩ := hp
  exact Owned.congr x (fun a _ ha => List.getElem?_append_left ha) hx

mutual
theorem Owned.stored {lo hi : Nat} :
    (x : Json) → {v : Ref Scalar} → Owned h lo hi x v → StoredAt h x v
  | .list xs, _, hx => by
    obtain ⟨a, vs, rfl, -, hcell, hxs⟩ := hx
    exact ⟨a, vs, rfl, hcell, OwnedList.stored xs hxs⟩
  | .obj o, _, hx => by
    obtain ⟨a, fs, rfl, -, hcell, ho⟩ := hx
    exact ⟨a, fs, rfl, hcell, OwnedFields.stored o ho⟩
  | .null, _, hx | .bool _, _, hx | .int _, _, hx | .float _, _, hx | .str _, _, hx => hx.2

theorem OwnedList.stored {lo hi : Nat} :
    (xs : List Json) → {vs : List (Ref Scalar)} → OwnedList h lo hi xs vs → StoredListAt h xs vs
  | [], _, hxs => hxs.2
  | x :: xs, _, hxs => by
    obtain ⟨w, ws, mid, rfl, hx, hxs⟩ := hxs
    exact ⟨w, ws, rfl, Owned.stored x hx, OwnedList.stored xs hxs⟩

theorem OwnedFields.stored {lo hi : Nat} :
    (o : Obj) → {fs : List (String × Ref Scalar)} → OwnedFields h lo hi o fs → StoredFieldsAt h o fs
  | [], _, ho => ho.2
  | (k, x) :: o, _, ho => by
    obtain ⟨w, gs, mid, rfl, hx, ho⟩ := ho
    exact ⟨w, gs, rfl, Owned.stored x hx, OwnedFields.stored o ho⟩
end

/-- A field's document stands in its own cells, and may be exchanged there. -/
theorem OwnedFields.focus {lo hi : Nat} {o : Obj} {fs : List (String × Ref Scalar)} {k : String}
    {x : Json} (ho : OwnedFields h lo hi o fs) (hk : o.lookup k = some x) :
    ∃ w l m, fs.lookup k = some w ∧ lo ≤ l ∧ m ≤ hi ∧ Owned h l m x w ∧
      ∀ h' y, (∀ a, (a < l ∨ m ≤ a) → h'[a]? = h[a]?) → Owned h' l m y w →
        OwnedFields h' lo hi (Assoc.set k y o) fs := by
  induction o generalizing lo fs with
  | nil => cases hk
  | cons p o ih =>
    obtain ⟨j, z⟩ := p
    obtain ⟨w, gs, mid, rfl, hz, ho⟩ := ho
    rw [Assoc.lookup_cons_eq] at hk
    by_cases hj : j = k
    · subst hj
      obtain rfl := Option.some.inj ((if_pos rfl).symm.trans hk)
      refine ⟨w, lo, mid, by rw [Assoc.lookup_cons_eq, if_pos rfl], le_rfl,
        OwnedFields.le o ho, hz, ?_⟩
      intro h' y hsame hy
      rw [Assoc.set, if_pos rfl]
      exact ⟨w, gs, mid, rfl, hy,
        OwnedFields.congr o (fun a hlo _ => hsame a (.inr hlo)) ho⟩
    · rw [if_neg hj] at hk
      obtain ⟨w', l, m, hlook, hl, hm, hx, hput⟩ := ih ho hk
      refine ⟨w', l, m, by rw [Assoc.lookup_cons_eq, if_neg hj, hlook],
        (Owned.le z hz).trans hl, hm, hx, ?_⟩
      intro h' y hsame hy
      rw [Assoc.set, if_neg hj]
      exact ⟨w, gs, mid, rfl,
        Owned.congr z (fun a _ ha => hsame a (.inl (ha.trans_le hl))) hz, hput h' y hsame hy⟩

theorem OwnedFields.lookup_none {lo hi : Nat} {o : Obj} {fs : List (String × Ref Scalar)}
    {k : String} (ho : OwnedFields h lo hi o fs) (hk : o.lookup k = none) : fs.lookup k = none := by
  obtain ⟨-, hnone⟩ | ⟨x, w, hsome, -⟩ := (OwnedFields.stored o ho).lookup k
  · exact hnone
  · rw [hk] at hsome
    cases hsome

theorem OwnedFields.set_str {lo hi : Nat} {o : Obj} {fs : List (String × Ref Scalar)}
    (ho : OwnedFields h lo hi o fs) (k s : String) :
    OwnedFields h lo hi (Assoc.set k (.str s) o) (Assoc.set k (.scalar (.str s)) fs) := by
  induction o generalizing lo fs with
  | nil =>
    obtain ⟨hle, rfl⟩ := ho
    exact ⟨_, [], lo, rfl, ⟨le_rfl, rfl⟩, hle, rfl⟩
  | cons p o ih =>
    obtain ⟨j, y⟩ := p
    obtain ⟨w, gs, mid, rfl, hy, ho⟩ := ho
    simp only [Assoc.set]
    split
    · exact ⟨_, gs, mid, rfl, ⟨Owned.le y hy, rfl⟩, ho⟩
    · exact ⟨w, _, mid, rfl, hy, ih ho⟩

mutual
theorem Owned.lower {lo lo' hi : Nat} (hle : lo' ≤ lo) :
    (x : Json) → {v : Ref Scalar} → Owned h lo hi x v → Owned h lo' hi x v
  | .list xs, _, hx => by
    obtain ⟨a, vs, rfl, ha, hcell, hxs⟩ := hx
    exact ⟨a, vs, rfl, ha, hcell, OwnedList.lower hle xs hxs⟩
  | .obj o, _, hx => by
    obtain ⟨a, fs, rfl, ha, hcell, ho⟩ := hx
    exact ⟨a, fs, rfl, ha, hcell, OwnedFields.lower hle o ho⟩
  | .null, _, hx | .bool _, _, hx | .int _, _, hx | .float _, _, hx | .str _, _, hx =>
    ⟨hle.trans hx.1, hx.2⟩

theorem OwnedList.lower {lo lo' hi : Nat} (hle : lo' ≤ lo) :
    (xs : List Json) → {vs : List (Ref Scalar)} → OwnedList h lo hi xs vs → OwnedList h lo' hi xs vs
  | [], _, hxs => ⟨hle.trans hxs.1, hxs.2⟩
  | x :: xs, _, hxs => by
    obtain ⟨w, ws, mid, rfl, hx, hxs⟩ := hxs
    exact ⟨w, ws, mid, rfl, Owned.lower hle x hx, hxs⟩

theorem OwnedFields.lower {lo lo' hi : Nat} (hle : lo' ≤ lo) : (o : Obj) →
    {fs : List (String × Ref Scalar)} → OwnedFields h lo hi o fs → OwnedFields h lo' hi o fs
  | [], _, ho => ⟨hle.trans ho.1, ho.2⟩
  | (k, x) :: o, _, ho => by
    obtain ⟨w, gs, mid, rfl, hx, ho⟩ := ho
    exact ⟨w, gs, mid, rfl, Owned.lower hle x hx, ho⟩
end

theorem OwnedFields.erase {lo hi : Nat} {o : Obj} {fs : List (String × Ref Scalar)}
    (ho : OwnedFields h lo hi o fs) (k : String) :
    OwnedFields h lo hi (Assoc.erase k o) (Assoc.erase k fs) := by
  induction o generalizing lo fs with
  | nil =>
    obtain ⟨hle, rfl⟩ := ho
    exact ⟨hle, rfl⟩
  | cons p o ih =>
    obtain ⟨j, y⟩ := p
    obtain ⟨w, gs, mid, rfl, hy, ho⟩ := ho
    have hrest := ih ho
    by_cases hj : j = k
    · have hlower := OwnedFields.lower (Owned.le y hy) _ hrest
      simpa [Assoc.erase, hj] using hlower
    · simp only [Assoc.erase, List.filter_cons, hj, ne_eq, not_false_eq_true, decide_true, if_true]
      exact ⟨w, _, mid, rfl, hy, hrest⟩

theorem load_list (xs : List Json) (h : Heap Scalar) :
    (pythonObjects .none).load (.list xs) h =
      (.addr ((pythonObjects .none).loadList xs h).2.length,
        ((pythonObjects .none).loadList xs h).2 ++ [.list ((pythonObjects .none).loadList xs h).1]) :=
  rfl

theorem load_obj (o : Obj) (h : Heap Scalar) :
    (pythonObjects .none).load (.obj o) h =
      (.addr ((pythonObjects .none).loadFields o h).2.length,
        ((pythonObjects .none).loadFields o h).2 ++
          [.dict ((pythonObjects .none).loadFields o h).1]) :=
  rfl

mutual
/-- `json.loads` and `copy.deepcopy` build a document in new cells. -/
theorem load_owned : (x : Json) → (h : Heap Scalar) →
    h <+: ((pythonObjects .none).load x h).2 ∧
      Owned ((pythonObjects .none).load x h).2 h.length ((pythonObjects .none).load x h).2.length x
        ((pythonObjects .none).load x h).1
  | .list xs, h => by
    obtain ⟨hp, hxs⟩ := loadList_owned xs h
    rw [load_list]
    refine ⟨hp.trans (List.prefix_append _ _), _, _, rfl, by simp, by simp; rfl, ?_⟩
    exact OwnedList.congr xs (fun a _ ha => List.getElem?_append_left ha) hxs
  | .obj o, h => by
    obtain ⟨hp, ho⟩ := loadFields_owned o h
    rw [load_obj]
    refine ⟨hp.trans (List.prefix_append _ _), _, _, rfl, by simp, by simp; rfl, ?_⟩
    exact OwnedFields.congr o (fun a _ ha => List.getElem?_append_left ha) ho
  | .null, h | .bool _, h | .int _, h | .float _, h | .str _, h =>
    ⟨List.prefix_rfl, le_rfl, rfl⟩

theorem loadList_owned : (xs : List Json) → (h : Heap Scalar) →
    h <+: ((pythonObjects .none).loadList xs h).2 ∧
      OwnedList ((pythonObjects .none).loadList xs h).2 h.length
        ((pythonObjects .none).loadList xs h).2.length xs ((pythonObjects .none).loadList xs h).1
  | [], h => ⟨List.prefix_rfl, le_rfl, rfl⟩
  | x :: xs, h => by
    obtain ⟨hp, hx⟩ := load_owned x h
    obtain ⟨hp', hxs⟩ := loadList_owned xs ((pythonObjects .none).load x h).2
    exact ⟨hp.trans hp', _, _, _, rfl, Owned.extend hp' hx, hxs⟩

theorem loadFields_owned : (o : Obj) → (h : Heap Scalar) →
    h <+: ((pythonObjects .none).loadFields o h).2 ∧
      OwnedFields ((pythonObjects .none).loadFields o h).2 h.length
        ((pythonObjects .none).loadFields o h).2.length o
        ((pythonObjects .none).loadFields o h).1
  | [], h => ⟨List.prefix_rfl, le_rfl, rfl⟩
  | (k, x) :: o, h => by
    obtain ⟨hp, hx⟩ := load_owned x h
    obtain ⟨hp', ho⟩ := loadFields_owned o ((pythonObjects .none).load x h).2
    exact ⟨hp.trans hp', _, _, _, rfl, Owned.extend hp' hx, ho⟩
end

end Owned

end CentralOps
