import CentralOps.Lib.Decimal
import CentralOps.Lib.Words
import CentralOps.Enrich.Policy

namespace CentralOps
set_option autoImplicit true

/-- The provider instance behind a remote rule: the enricher with the configured source and the
table of the rule, in the organisation of the cycle. -/
@[ext] structure Origin where
  organization : Int
  enricher : String
  source : Option String
  table : Option String
  deriving DecidableEq

def CompiledEnrichRule.origin (rule : CompiledEnrichRule) (organization : Int) : Origin :=
  ⟨organization, rule.enricher, rule.source, rule.table⟩

@[ext] structure Question where
  origin : Origin
  key : String
  deriving DecidableEq

section CacheKey
variable (rt : Runtime)

/-- `sha1(key).hexdigest()[:24]`. -/
def keyDigest (key : String) : String :=
  String.ofList ((List.range 24).map
    (fun i => Nat.digitChar ((rt.sha1 key).toNat / 16 ^ (39 - i) % 16)))

/-- `cache_key`. -/
def cacheKey (organization : Int) (enricher version key : String) : String :=
  "enr:" ++ toString organization ++ ":" ++ enricher ++ ":" ++ version ++ ":" ++ keyDigest rt key

def Question.cacheKey (q : Question) (version : Int) : String :=
  CentralOps.cacheKey rt q.origin.organization q.origin.enricher (toString version) q.key

end CacheKey

section Injective
variable {rt : Runtime}

theorem colon_notMem_digest (key : String) : ':' ∉ (keyDigest rt key).toList := by
  rw [keyDigest, String.toList_ofList, List.mem_map]
  rintro ⟨i, -, h⟩
  exact absurd h (Nat.digitChar_ne ':' (by decide))

theorem Question.cacheKey_parts {q q' : Question} {version version' : Int}
    (h : q.cacheKey rt version = q'.cacheKey rt version') :
    q.origin.organization = q'.origin.organization ∧ q.origin.enricher = q'.origin.enricher ∧
      version = version' ∧ keyDigest rt q.key = keyDigest rt q'.key := by
  have hl := congrArg String.toList h
  have hcolon : (":" : String).toList = [':'] := rfl
  simp only [Question.cacheKey, CentralOps.cacheKey, String.toList_append, List.append_assoc,
    hcolon, List.singleton_append] at hl
  obtain ⟨ho, hrest⟩ := Words.cut_first (Decimal.colon_notMem_repr _) (Decimal.colon_notMem_repr _)
    (List.append_cancel_left hl)
  have hdigest : (q.origin.enricher.toList ++ ':' :: (toString version).toList) ++
        ':' :: (keyDigest rt q.key).toList =
      (q'.origin.enricher.toList ++ ':' :: (toString version').toList) ++
        ':' :: (keyDigest rt q'.key).toList := by
    rw [List.append_assoc, List.append_assoc]
    exact hrest
  obtain ⟨hversion, hd⟩ := Words.cut_last (colon_notMem_digest _) (colon_notMem_digest _) hdigest
  obtain ⟨he, hv⟩ := Words.cut_last (Decimal.colon_notMem_repr _) (Decimal.colon_notMem_repr _) hversion
  exact ⟨Decimal.intRepr_injective (String.toList_injective ho), String.toList_injective he,
    Decimal.intRepr_injective (String.toList_injective hv), String.toList_injective hd⟩

theorem Question.cacheKey_origin {q q' : Question} {version version' : Int}
    (h : q.cacheKey rt version = q'.cacheKey rt version') :
    q.origin.organization = q'.origin.organization ∧ q.origin.enricher = q'.origin.enricher := by
  obtain ⟨horg, henricher, -, -⟩ := Question.cacheKey_parts h
  exact ⟨horg, henricher⟩

end Injective

/-- What a provider said of a key; `none` when it does not know the key. -/
abbrev Answer := Option Json

structure CacheEntry where
  question : Question
  answer : Answer

/-- `L1Cache._data`, oldest first, with the instant at which each entry expires. -/
abbrev L1 := List (String × Rat × CacheEntry)

namespace L1

/-- The entry that `get` answers with. -/
def live (now : Rat) (l1 : L1) (key : String) : Option CacheEntry :=
  (l1.lookup key).bind (fun p => if p.1 ≤ now then none else some p.2)

/-- What `get` leaves: an expired entry is removed, a live one becomes the most recent. -/
def touch (now : Rat) (l1 : L1) (key : String) : L1 :=
  match l1.lookup key with
  | none => l1
  | some p => if p.1 ≤ now then Assoc.erase key l1 else Assoc.erase key l1 ++ [(key, p)]

def put (maxEntries : Nat) (now : Rat) (ttl : Nat) (l1 : L1) (key : String) (e : CacheEntry) : L1 :=
  if ttl = 0 then l1
  else
    let l := Assoc.erase key l1 ++ [(key, now + ttl, e)]
    l.drop (l.length - max maxEntries 1)

end L1

abbrev L2 := List (String × CacheEntry)

/-- `EnrichCache.get_many`: what the caches answer, and the keys left to ask for. `mget` is the
Redis as this call finds it, `none` when it is down. -/
def getMany (now : Rat) (l1 : L1) (mget : Option L2) (keys : List String) :
    List (String × Answer) × List String × L1 :=
  let l1' := keys.foldl (L1.touch now) l1
  let pending := keys.filter (fun k => (l1.live now k).isNone)
  let found := Assoc.collect (fun k => (l1.live now k).map (fun e => (k, e.answer))) [] keys
  match mget with
  | none => (found, pending, l1')
  | some l2 =>
    (Assoc.collect (fun k => (l2.lookup k).map (fun e => (k, e.answer))) found pending,
      pending.filter (fun k => (l2.lookup k).isNone), l1')

end CentralOps
