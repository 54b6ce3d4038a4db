import CentralOps.Lib.Dialog
import CentralOps.Senders.ElasticBulk
import CentralOps.Senders.S3

namespace CentralOps
set_option autoImplicit true

/-- A page of `list_objects_v2`. -/
structure S3Page where
  contents : List String
  truncated : Bool
  token : Option String

inductive S3Ask where
  | openClient
  | list (path : String) (token : Option String)
  | delete (keys : List String)
  | closeClient

/-- What is answered, or the text of what is raised; a deletion answers the keys of its `Errors`. -/
abbrev S3Answer : S3Ask → Type
  | .openClient => Except String Unit
  | .list _ _ => Except String S3Page
  | .delete _ => Except String (List String)
  | .closeClient => Except String Unit

def turnPage (next : String → Dialog S3Ask S3Answer (Option (Except String (List String))))
    (page : S3Page) (erased : List String) :
    Dialog S3Ask S3Answer (Option (Except String (List String))) :=
  if page.truncated then
    match page.token.filter (· ≠ "") with
    | some token => next token
    | none => pure (some (.ok erased))
  else pure (some (.ok erased))

/-- The loop over the pages, for so many of them. -/
def erasePages (path : String) :
    Nat → Option String → List String →
      Dialog S3Ask S3Answer (Option (Except String (List String)))
  | 0, _, _ => pure none
  | fuel + 1, token, erased => do
    match (← Dialog.query (.list path token) : Except String S3Page) with
    | .error e => pure (some (.error e))
    | .ok page =>
      let keys := page.contents.filter (· ≠ "")
      if keys = [] then
        turnPage (fun token => erasePages path fuel (some token) erased) page erased
      else
        match (← Dialog.query (.delete keys) : Except String (List String)) with
        | .error e => pure (some (.error e))
        | .ok _ =>
          turnPage (fun token => erasePages path fuel (some token) (erased ++ keys)) page
            (erased ++ keys)

def failedErasure (oid e : String) : ErasureResult :=
  { failed := ["org:" ++ oid], detail := "erase_by_org falhou: " ++ e }

def S3Client.orgPath (client : S3Client) (oid : String) : String :=
  client.keyPrefix ++ "/org=" ++ oid ++ "/"

/-- `erase_by_org`; there is no result if the pages do not end. -/
def eraseByOrg (rt : Runtime) (client : S3Client) (organizationId : Json) (fuel : Nat) :
    Dialog S3Ask S3Answer (Option ErasureResult) := do
  let oid := orgText rt organizationId
  match (← Dialog.query .openClient : Except String Unit) with
  | .error e => pure (some (failedErasure oid e))
  | .ok () =>
    match ← erasePages (client.orgPath oid) fuel none [] with
    | none => pure none
    | some (.error e) => pure (some (failedErasure oid e))
    | some (.ok erased) =>
      match (← Dialog.query .closeClient : Except String Unit) with
      | .error e => pure (some (failedErasure oid e))
      | .ok () =>
        pure (some
          { erased := erased
            detail := toString erased.length ++ " objetos apagados para org=" ++ oid })

structure S3World where
  bucket : Dict String (List Obj) := .empty
  unlisted : List String := []

/-- The answers of a store: a listing goes through all keys of the folder in some order, page after
page; a deletion that raises may have taken effect in part. -/
def S3World.Effect (w : S3World) : (q : S3Ask) → S3Answer q → S3World → Prop
  | .openClient, _, u => u = w
  | .closeClient, _, u => u = w
  | .list _ _, .error _, u => u = w
  | .list path token, .ok page, u => ∃ (all : List String) (n : Nat),
    (match token with
      | none => ∀ k, k ∈ all ↔ (w.bucket.get? k).isSome = true ∧ path.toList <+: k.toList
      | some _ => all = w.unlisted) ∧
    page.contents = all.take n ∧ (page.truncated = true ↔ all.drop n ≠ []) ∧
    u = { w with unlisted := all.drop n }
  | .delete keys, .ok errors, u =>
    u = { w with bucket := w.bucket.filterKeys (fun k => k ∉ keys ∨ k ∈ errors) }
  | .delete keys, .error _, u =>
    ∃ gone, gone ⊆ keys ∧ u = { w with bucket := w.bucket.filterKeys (· ∉ gone) }

/-- Every key that was to be deleted is, and a truncated page names the next one. -/
def S3Ask.Whole : (q : S3Ask) → S3Answer q → Prop
  | .list _ _, .ok page => page.truncated = true → page.token.filter (· ≠ "") ≠ none
  | .delete keys, .ok errors => ∀ k ∈ errors, k ∉ keys
  | _, _ => True

/-- A store whose answers pass a test. -/
def S3World.Answers (allowed : (q : S3Ask) → S3Answer q → Prop) (w : S3World) (q : S3Ask)
    (r : S3Answer q) (u : S3World) : Prop :=
  allowed q r ∧ w.Effect q r u

/-- A call of `send_batch`, and whether the object was stored though the SDK raised. -/
structure S3Put where
  gzip : Bool
  hasCredentials : Bool
  batch : List Obj
  clock : UtcClock
  reply : S3Reply
  landed : Bool

section Property
variable (rt : Runtime)

/-- What a call of `send_batch` leaves of a bucket. -/
def S3Put.store (keyPrefix : String) (bucket : Dict String (List Obj)) (x : S3Put) :
    Dict String (List Obj) :=
  match S3Client.sendBatch rt ⟨keyPrefix, x.gzip, x.hasCredentials⟩ x.batch x.clock x.reply with
  | .ok (_, some key) =>
    match x.reply with
    | .done => bucket.set key x.batch
    | _ => if x.landed then bucket.set key x.batch else bucket
  | _ => bucket

/-- A batch is all of one organisation or of others alone, and the name of the organisation it is
filed under is one step of a path. -/
def Unmixed (oid : String) (batch : List Obj) : Prop :=
  ((∀ ev ∈ batch, s3OrgId rt ev = oid) ∨ ∀ ev ∈ batch, s3OrgId rt ev ≠ oid) ∧
    ∀ ev ∈ batch.head?, '/' ∉ (s3OrgId rt ev).toList

instance (oid : String) (batch : List Obj) : Decidable (Unmixed rt oid batch) :=
  inferInstanceAs (Decidable (_ ∧ _))

/-- No event of the organisation is left, the keys that are named are gone, and no other
organisation's event is. -/
structure Erased (oid : String) (before after : Dict String (List Obj)) (r : ErasureResult) :
    Prop where
  complete : ∀ k batch, after.get? k = some batch → ∀ ev ∈ batch, s3OrgId rt ev ≠ oid
  truthful : ∀ k ∈ r.erased, after.get? k = none
  others : ∀ k batch, before.get? k = some batch → (∃ ev ∈ batch, s3OrgId rt ev ≠ oid) →
    after.get? k = some batch

end Property
section Sweep
variable {path : String} {token : Option String} {w u : S3World}

def S3World.Due (path : String) (token : Option String) (w : S3World) (k : String) : Prop :=
  match token with
  | none => (w.bucket.get? k).isSome = true ∧ path.toList <+: k.toList
  | some _ => k ∈ w.unlisted

structure Swept (path : String) (token : Option String) (w u : S3World) (gone : List String) :
    Prop where
  under : ∀ k ∈ gone, path.toList <+: k.toList
  bucket : ∀ k, u.bucket.get? k = if k ∈ gone then none else w.bucket.get? k
  due : ∀ k, w.Due path token k → k ∈ gone

theorem turnPage_runs {next : String → Dialog S3Ask S3Answer (Option (Except String (List String)))}
    {page : S3Page} {erased : List String} {allowed : (q : S3Ask) → S3Answer q → Prop}
    (h : Dialog.Runs (S3World.Answers allowed) (turnPage next page erased) w (some (.ok out)) u)
    (htoken : page.truncated = true → page.token.filter (· ≠ "") ≠ none) :
    page.truncated = false ∧ out = erased ∧ u = w ∨
      page.truncated = true ∧ ∃ token,
        Dialog.Runs (S3World.Answers allowed) (next token) w (some (.ok out)) u := by
  rw [turnPage] at h
  split at h
  · next hp =>
    obtain ⟨token, ht⟩ := Option.ne_none_iff_exists'.1 (htoken hp)
    rw [ht] at h
    exact .inr ⟨hp, token, h⟩
  · next hp =>
    obtain ⟨ho, rfl⟩ := Dialog.runs_pure_iff.1 h
    exact .inl ⟨Bool.eq_false_iff.2 hp, Except.ok.inj (Option.some.inj ho), rfl⟩

/-- A loop that ends took all that was to come from the bucket, and nothing from outside the
folder. -/
theorem erasePages_swept (hpath : path ≠ "") {fuel : Nat} {erased out : List String}
    (h : Dialog.Runs (S3World.Answers S3Ask.Whole) (erasePages path fuel token erased) w
      (some (.ok out)) u)
    (hunder : ∀ k, w.Due path token k → path.toList <+: k.toList) :
    ∃ gone, out = erased ++ gone ∧ Swept path token w u gone := by
  induction fuel generalizing token erased w with
  | zero =>
    obtain ⟨ho, -⟩ := Dialog.runs_pure_iff.1 h
    cases ho
  | succ fuel ih =>
    rw [erasePages] at h
    obtain ⟨reply, v, ⟨hwhole, heff⟩, h⟩ := Dialog.runs_query_iff.1 h
    cases reply with
    | error e =>
      obtain ⟨ho, -⟩ := Dialog.runs_pure_iff.1 h
      cases ho
    | ok page =>
      obtain ⟨all, n, hall, hcontents, htruncated, rfl⟩ := heff
      have hdue : ∀ k, w.Due path token k ↔ k ∈ all := by
        intro k
        cases token with
        | none => exact (hall k).symm
        | some t => rw [S3World.Due, hall]
      have hnonempty : ∀ k ∈ page.contents, k ≠ "" := by
        rintro k hk rfl
        rw [hcontents] at hk
        have hp := hunder "" ((hdue "").2 (List.mem_of_mem_take hk))
        exact hpath (String.toList_inj.1 (List.prefix_nil.1 hp))
      have hkeys : page.contents.filter (· ≠ "") = all.take n := by
        rw [← hcontents]
        exact List.filter_eq_self.2 fun k hk => decide_eq_true (hnonempty k hk)
      have hunderAll : ∀ k ∈ all, path.toList <+: k.toList := fun k hk => hunder k ((hdue k).2 hk)
      have hrest : ∃ v : S3World, v.unlisted = all.drop n ∧
          (∀ k, v.bucket.get? k = if k ∈ all.take n then none else w.bucket.get? k) ∧
          Dialog.Runs (S3World.Answers S3Ask.Whole)
            (turnPage (fun token => erasePages path fuel (some token) (erased ++ all.take n)) page
              (erased ++ all.take n)) v (some (.ok out)) u := by
        dsimp only at h
        generalize page.contents.filter (· ≠ "") = keys at h hkeys
        subst hkeys
        split at h
        · next hnil =>
          refine ⟨{ w with unlisted := all.drop n }, rfl, fun k => ?_, ?_⟩
          · rw [hnil]
            exact (if_neg List.not_mem_nil).symm
          · rw [hnil, List.append_nil]
            exact h
        · obtain ⟨answer, v, ⟨hgone, hdel⟩, h⟩ := Dialog.runs_query_iff.1 h
          cases answer with
          | error e =>
            obtain ⟨ho, -⟩ := Dialog.runs_pure_iff.1 h
            cases ho
          | ok errors =>
            subst hdel
            refine ⟨_, rfl, fun k => ?_, h⟩
            rw [Dict.get?_filterKeys]
            by_cases hk : k ∈ all.take n
            · have hkept : ¬ (k ∉ all.take n ∨ k ∈ errors) :=
                fun hor => hor.elim (fun hn => hn hk) (fun he => hgone k he hk)
              rw [if_pos hk, if_neg (by simpa using hkept)]
            · rw [if_neg hk, if_pos (decide_eq_true (.inl hk))]
      obtain ⟨v, hunlisted, hbucket, h⟩ := hrest
      obtain ⟨hlast, rfl, rfl⟩ | ⟨hmore, t, h⟩ := turnPage_runs h hwhole
      · have hdrop : all.drop n = [] := by
          by_contra hne
          exact Bool.false_ne_true (hlast.symm.trans (htruncated.2 hne))
        refine ⟨all.take n, rfl, fun k hk => hunderAll k (List.mem_of_mem_take hk), hbucket, ?_⟩
        intro k hk
        have hin := (hdue k).1 hk
        rwa [← List.take_append_drop n all, hdrop, List.append_nil] at hin
      · have hlater : ∀ k, v.Due path (some t) k → k ∈ all.drop n := fun k hk => by
          rwa [S3World.Due, hunlisted] at hk
        obtain ⟨gone, rfl, hswept⟩ := ih h fun k hk =>
          hunderAll k (List.mem_of_mem_drop (hlater k hk))
        refine ⟨all.take n ++ gone, by rw [List.append_assoc], ?_, ?_, ?_⟩
        · intro k hk
          obtain hk | hk := List.mem_append.1 hk
          · exact hunderAll k (List.mem_of_mem_take hk)
          · exact hswept.under k hk
        · intro k
          rw [hswept.bucket, hbucket]
          by_cases hg : k ∈ gone <;> by_cases hk : k ∈ all.take n <;> simp [hg, hk]
        · intro k hk
          have hin := (hdue k).1 hk
          rw [← List.take_append_drop n all] at hin
          obtain hin | hin := List.mem_append.1 hin
          · exact List.mem_append_left _ hin
          · have hdueLater : v.Due path (some t) k := by rwa [S3World.Due, hunlisted]
            exact List.mem_append_right _ (hswept.due k hdueLater)

end Sweep
section Filing
variable {rt : Runtime} {keyPrefix oid : String} {bucket : Dict String (List Obj)}

def FiledUnder (rt : Runtime) (keyPrefix : String) (key : String) (batch : List Obj) : Prop :=
  ∃ ev rest, batch = ev :: rest ∧ ∃ tail, key.toList =
    (keyPrefix ++ "/org=").toList ++ ((s3OrgId rt ev).toList ++ '/' :: tail)

theorem objectKey_filed {client : S3Client} {ev : Obj} {rest : List Obj} {clock : UtcClock}
    (h : client.objectKey rt (ev :: rest) clock = .ok key) :
    FiledUnder rt client.keyPrefix key (ev :: rest) := by
  refine ⟨ev, rest, rfl, ?_⟩
  rw [S3Client.objectKey] at h
  simp only [List.head?_cons, Option.map_some, Option.getD_some] at h
  cases hw : partitionWall ev clock with
  | error e => rw [hw] at h; cases h
  | ok wall =>
    rw [hw] at h
    obtain rfl := Except.ok.inj h
    simp only [String.toList_append, List.append_assoc]
    exact ⟨_, rfl⟩

theorem sendBatch_filed {client : S3Client} {batch : List Obj} {clock : UtcClock} {reply : S3Reply}
    (h : client.sendBatch rt batch clock reply = .ok (r, some key)) :
    FiledUnder rt client.keyPrefix key batch := by
  obtain ⟨ev, rest, rfl, hkey⟩ := sendBatch_key h
  exact objectKey_filed hkey

theorem store_cases (rt : Runtime) (keyPrefix : String) (bucket : Dict String (List Obj))
    (x : S3Put) :
    x.store rt keyPrefix bucket = bucket ∨
      ∃ key, FiledUnder rt keyPrefix key x.batch ∧
        x.store rt keyPrefix bucket = bucket.set key x.batch := by
  rw [S3Put.store]
  split
  · next r key hsend =>
    have hfiled : FiledUnder rt keyPrefix key x.batch := sendBatch_filed hsend
    split
    · exact .inr ⟨key, hfiled, rfl⟩
    · split
      · exact .inr ⟨key, hfiled, rfl⟩
      · exact .inl rfl
  · exact .inl rfl

theorem FiledUnder.orgPath_iff {client : S3Client} {batch : List Obj}
    (h : FiledUnder rt client.keyPrefix key batch) (hoid : '/' ∉ oid.toList)
    (hhead : ∀ ev ∈ batch.head?, '/' ∉ (s3OrgId rt ev).toList) :
    (client.orgPath oid).toList <+: key.toList ↔ ∃ ev ∈ batch.head?, s3OrgId rt ev = oid := by
  obtain ⟨ev, rest, rfl, tail, htail⟩ := h
  have hev : '/' ∉ (s3OrgId rt ev).toList := hhead ev rfl
  have hpath : (client.orgPath oid).toList =
      (client.keyPrefix ++ "/org=").toList ++ (oid.toList ++ ['/']) := by
    rw [S3Client.orgPath, String.toList_append, String.toList_append, List.append_assoc]
    rfl
  rw [hpath, htail, List.prefix_append_right_inj]
  constructor
  · rintro ⟨t, ht⟩
    rw [List.append_assoc] at ht
    obtain ⟨hsame, -⟩ := Words.cut_first hoid hev ht
    exact ⟨ev, rfl, (String.toList_inj.1 hsame).symm⟩
  · rintro ⟨d, hd, rfl⟩
    obtain rfl := Option.some.inj hd
    exact ⟨tail, by rw [List.append_assoc]; rfl⟩

theorem stored_filed (puts : List S3Put) (hbatches : ∀ x ∈ puts, Unmixed rt oid x.batch)
    (h : ∀ k batch, bucket.get? k = some batch →
      FiledUnder rt keyPrefix k batch ∧ Unmixed rt oid batch) :
    ∀ k batch, (puts.foldl (S3Put.store rt keyPrefix) bucket).get? k = some batch →
      FiledUnder rt keyPrefix k batch ∧ Unmixed rt oid batch := by
  induction puts generalizing bucket with
  | nil => exact h
  | cons x puts ih =>
    apply ih (fun y hy => hbatches y (List.mem_cons_of_mem x hy))
    intro k batch hk
    obtain hsame | ⟨key, hfiled, hset⟩ := store_cases rt keyPrefix bucket x
    · exact h k batch (hsame ▸ hk)
    · rw [hset] at hk
      by_cases hkey : k = key
      · subst hkey
        rw [Dict.get?_set_self] at hk
        obtain rfl := Option.some.inj hk
        exact ⟨hfiled, hbatches x List.mem_cons_self⟩
      · exact h k batch ((Dict.get?_set_ne _ hkey _).symm.trans hk)

/-- In a bucket of batches that are not mixed, the folder of an organisation holds all of its
events and no others. -/
theorem orgPath_iff_events {client : S3Client} {batch : List Obj}
    (h : FiledUnder rt client.keyPrefix key batch) (hmixed : Unmixed rt oid batch)
    (hoid : '/' ∉ oid.toList) :
    ((client.orgPath oid).toList <+: key.toList → ∀ ev ∈ batch, s3OrgId rt ev = oid) ∧
      (¬ (client.orgPath oid).toList <+: key.toList → ∀ ev ∈ batch, s3OrgId rt ev ≠ oid) := by
  have hiff := h.orgPath_iff hoid hmixed.2
  obtain ⟨ev, rest, rfl, -⟩ := h
  constructor
  · intro hp
    obtain ⟨d, hd, hdo⟩ := hiff.1 hp
    obtain rfl := Option.some.inj hd
    obtain hall | hnone := hmixed.1
    · exact hall
    · exact absurd hdo (hnone ev List.mem_cons_self)
  · intro hp
    obtain hall | hnone := hmixed.1
    · exact absurd (hiff.2 ⟨ev, rfl, hall ev List.mem_cons_self⟩) hp
    · exact hnone

theorem eraseByOrg_runs {client : S3Client} {organizationId : Json} {fuel : Nat} {w u : S3World}
    {allowed : (q : S3Ask) → S3Answer q → Prop} {r : ErasureResult}
    (h : Dialog.Runs (S3World.Answers allowed) (eraseByOrg rt client organizationId fuel) w
      (some r) u) (hok : r.failed = []) :
    Dialog.Runs (S3World.Answers allowed)
      (erasePages (client.orgPath (orgText rt organizationId)) fuel none []) w
      (some (.ok r.erased)) u := by
  rw [eraseByOrg] at h
  obtain ⟨opened, v, ⟨-, rfl⟩, h⟩ := Dialog.runs_query_iff.1 h
  cases opened with
  | error e =>
    obtain ⟨ho, -⟩ := Dialog.runs_pure_iff.1 h
    obtain rfl := Option.some.inj ho
    cases hok
  | ok =>
    obtain ⟨swept, v, hpages, h⟩ := Dialog.runs_bind_iff.1 h
    cases swept with
    | none =>
      obtain ⟨ho, -⟩ := Dialog.runs_pure_iff.1 h
      cases ho
    | some swept =>
      cases swept with
      | error e =>
        obtain ⟨ho, -⟩ := Dialog.runs_pure_iff.1 h
        obtain rfl := Option.some.inj ho
        cases hok
      | ok erased =>
        obtain ⟨closed, z, ⟨-, rfl⟩, h⟩ := Dialog.runs_query_iff.1 h
        cases closed with
        | error e =>
          obtain ⟨ho, -⟩ := Dialog.runs_pure_iff.1 h
          obtain rfl := Option.some.inj ho
          cases hok
        | ok =>
          obtain ⟨ho, rfl⟩ := Dialog.runs_pure_iff.1 h
          obtain rfl := Option.some.inj ho
          exact hpages

/-- Where no batch mixes the organisation with others and the store does all that it is asked, an
erasure that succeeds leaves no event of the organisation and takes none of another. -/
theorem erase_by_org_complete (rt : Runtime) (client : S3Client) (organizationId : Json)
    (puts : List S3Put) (fuel : Nat) (r : ErasureResult) (u : S3World)
    (hoid : '/' ∉ (orgText rt organizationId).toList)
    (hbatches : ∀ x ∈ puts, Unmixed rt (orgText rt organizationId) x.batch)
    (hrun : Dialog.Runs (S3World.Answers S3Ask.Whole) (eraseByOrg rt client organizationId fuel)
      { bucket := puts.foldl (S3Put.store rt client.keyPrefix) .empty } (some r) u)
    (hok : r.failed = []) :
    Erased rt (orgText rt organizationId) (puts.foldl (S3Put.store rt client.keyPrefix) .empty)
      u.bucket r := by
  have hfiled : ∀ k batch, (puts.foldl (S3Put.store rt client.keyPrefix) .empty).get? k =
      some batch → FiledUnder rt client.keyPrefix k batch ∧
        Unmixed rt (orgText rt organizationId) batch := by
    apply stored_filed puts hbatches
    intro k batch hk
    cases hk
  have hpath : client.orgPath (orgText rt organizationId) ≠ "" := by
    intro he
    have hmem : '/' ∈ (client.orgPath (orgText rt organizationId)).toList := by
      rw [S3Client.orgPath, String.toList_append]
      exact List.mem_append_right _ List.mem_cons_self
    rw [he] at hmem
    cases hmem
  obtain ⟨gone, hgone, hswept⟩ := erasePages_swept hpath (eraseByOrg_runs hrun hok)
    (fun k hk => hk.2)
  rw [List.nil_append] at hgone
  subst hgone
  constructor
  · intro k batch hk ev hev
    have hkept := hswept.bucket k
    rw [hk] at hkept
    split at hkept
    · cases hkept
    · next hnot =>
      have hbefore := hkept.symm
      obtain ⟨hunder, hmixed⟩ := hfiled k batch hbefore
      apply (orgPath_iff_events hunder hmixed hoid).2 _ ev hev
      intro hin
      exact hnot (hswept.due k ⟨Option.isSome_iff_exists.2 ⟨batch, hbefore⟩, hin⟩)
  · intro k hk
    rw [hswept.bucket, if_pos hk]
  · rintro k batch hk ⟨ev, hev, hforeign⟩
    obtain ⟨hunder, hmixed⟩ := hfiled k batch hk
    rw [hswept.bucket, if_neg, hk]
    intro hin
    exact hforeign ((orgPath_iff_events hunder hmixed hoid).1 (hswept.under k hin) ev hev)

end Filing
def s3Reply (w : S3World) : (q : S3Ask) → S3Answer q × S3World
  | .openClient => (.ok (), w)
  | .closeClient => (.ok (), w)
  | .list path token =>
    let all := match token with
      | none => (w.bucket.entries.map Prod.fst).filter (path.toList.isPrefixOf ·.toList)
      | some _ => w.unlisted
    (.ok ⟨all, false, none⟩, { w with unlisted := [] })
  | .delete keys =>
    (.ok [], { w with bucket := w.bucket.filterKeys (fun k => k ∉ keys ∨ k ∈ ([] : List String)) })

theorem answers_s3Reply (w : S3World) (q : S3Ask) :
    S3World.Answers S3Ask.Whole w q (s3Reply w q).1 (s3Reply w q).2 := by
  cases q with
  | openClient => exact ⟨trivial, rfl⟩
  | closeClient => exact ⟨trivial, rfl⟩
  | list path token =>
    refine ⟨fun h => (Bool.false_ne_true h).elim, _, _, ?_, (List.take_length).symm, ?_, ?_⟩
    · cases token with
      | some _ => rfl
      | none =>
        intro k
        rw [List.mem_filter, List.isPrefixOf_iff_prefix, Option.isSome_iff_ne_none,
          ← Dict.mem_keys, Dict.keys, List.mem_toFinset]
    · simp
    · simp [s3Reply]
  | delete keys => exact ⟨fun k hk => absurd hk List.not_mem_nil, rfl⟩

def alertOf (organization : Int) : Obj :=
  let alert := alertWithId "a"
  BuiltEvent.envelope sha1Runtime
    { alert with ctx := { alert.ctx with organizationId := some organization } }

def putBatch (batch : List Obj) : S3Put := ⟨true, true, batch, beforeMidnight, .done, false⟩

def archiveClient : S3Client := .new "centralops" "gzip" true

def archived (puts : List S3Put) : S3World where
  bucket := puts.foldl (S3Put.store sha1Runtime.toRuntime archiveClient.keyPrefix) .empty

def erasureRun (puts : List S3Put) : Option ErasureResult × S3World :=
  (eraseByOrg sha1Runtime.toRuntime archiveClient (.int 2) 1).play s3Reply (archived puts)

theorem erasureRun_runs (puts : List S3Put) :
    Dialog.Runs (S3World.Answers S3Ask.Whole)
      (eraseByOrg sha1Runtime.toRuntime archiveClient (.int 2) 1) (archived puts)
      (erasureRun puts).1 (erasureRun puts).2 :=
  Dialog.runs_play_self answers_s3Reply _ _

def putApart : List S3Put := [putBatch [alertOf 1], putBatch [alertOf 2]]

theorem erase_by_org_complete_apart :
    ∃ r, (erasureRun putApart).1 = some r ∧ r.erased.length = 1 ∧
      Erased sha1Runtime.toRuntime "2" (archived putApart).bucket (erasureRun putApart).2.bucket
        r := by
  have hrun := erasureRun_runs putApart
  have hone : (erasureRun putApart).1.map (·.erased.length) = some 1 := by decide +kernel
  have hok : (erasureRun putApart).1.map (·.failed) = some [] := by decide +kernel
  obtain ⟨r, hr, hlength⟩ := Option.map_eq_some_iff.1 hone
  rw [hr] at hrun hok
  have hbatches : ∀ x ∈ putApart, Unmixed sha1Runtime.toRuntime "2" x.batch := by decide +kernel
  exact ⟨r, hr, hlength, erase_by_org_complete sha1Runtime.toRuntime archiveClient (.int 2) putApart
    1 r _ (by decide +kernel) hbatches hrun (Option.some.inj hok)⟩

def putTogether : List S3Put := [putBatch [alertOf 1, alertOf 2]]

/-- A batch that begins with another organisation outlives the erasure of the second. -/
theorem erased_organization_left :
    ∃ r, (erasureRun putTogether).1 = some r ∧ r.failed = [] ∧
      Dialog.Runs (S3World.Answers (fun _ _ => True))
        (eraseByOrg sha1Runtime.toRuntime archiveClient (.int 2) 1) (archived putTogether) (some r)
        (erasureRun putTogether).2 ∧
      ¬ Erased sha1Runtime.toRuntime "2" (archived putTogether).bucket
        (erasureRun putTogether).2.bucket r := by
  have hok : (erasureRun putTogether).1.map (·.failed) = some [] := by decide +kernel
  obtain ⟨r, hr, hfailed⟩ := Option.map_eq_some_iff.1 hok
  have hrun : Dialog.Runs (S3World.Answers (fun _ _ => True))
      (eraseByOrg sha1Runtime.toRuntime archiveClient (.int 2) 1) (archived putTogether) (some r)
      (erasureRun putTogether).2 := by
    rw [← hr]
    exact Dialog.runs_play_self (fun w q => ⟨trivial, (answers_s3Reply w q).2⟩) _ _
  have hleft : (erasureRun putTogether).2.bucket.entries.map Prod.snd = [[alertOf 1, alertOf 2]] :=
    by decide +kernel
  refine ⟨r, hr, hfailed, hrun, fun h => ?_⟩
  obtain ⟨p, hp, hbatch⟩ := List.mem_map.1 (hleft ▸ List.mem_singleton_self _)
  have hstored := (Dict.mem_entries_iff _).1 hp
  exact h.complete p.1 p.2 hstored (alertOf 2) (hbatch ▸ by simp) (by decide +kernel)

end CentralOps
