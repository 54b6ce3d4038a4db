import CentralOps.Json
import CentralOps.Lib.Interleaving

namespace CentralOps
set_option autoImplicit true

/-- A class of exceptions: its name, and whether it is one of the three that aiokafka has for a
size. -/
structure ExcClass where
  name : String
  sizeError : Bool := false

/-- An exception of `_produce_value`, with the classes met from its `__cause__` and from its
`__context__` on. -/
structure ProduceError where
  cls : ExcClass
  cause : List ExcClass := []
  context : List ExcClass := []

/-- The chain of an exception. Raised while another is handled, it gets that one for its
`__context__`. -/
def ProduceError.chain (handled : List ExcClass) (e : ProduceError) : List ExcClass :=
  e.cls :: (if e.cause.isEmpty then (if handled.isEmpty then e.context else handled) else e.cause)

def ExcClass.refusesSize (rt : Runtime) (c : ExcClass) : Bool :=
  c.sizeError || ["messagesizetoolarge", "recordtoolarge", "recordlisttoolarge"].any
    (fun k => isSubstring k (rt.lower c.name))

/-- `_is_message_too_large`. -/
def chainTooLarge (rt : Runtime) (chain : List ExcClass) : Bool :=
  (chain.take 6).any (ExcClass.refusesSize rt)

/-- `json.dumps(…).encode("utf-8")`, with both braces of a dict. -/
structure DeliveryCodec where
  dumps : Json → List UInt8
  braces : ∀ o : Obj, 2 ≤ (dumps (.obj o)).length

structure ProduceCall where
  rt : Runtime
  codec : DeliveryCodec
  maxRequestBytes : Int
  destinationId : String
  trace : Option Obj := none

namespace ProduceCall
variable (call : ProduceCall)

def encodeDelivery (batch : List Obj) : List UInt8 :=
  call.codec.dumps (.obj [("v", .int 1), ("destination_id", .str call.destinationId),
    ("batch", .list (batch.map .obj)), ("trace", .obj (call.trace.getD []))])

def key : List UInt8 := call.destinationId.toUTF8.toList

/-- `_exceeds_request_limit`, with its slack. -/
def exceedsRequestLimit (value : List UInt8) : Bool :=
  decide (call.maxRequestBytes < value.length + call.key.length + 512)

/-- A record: it is small enough, or has one event. -/
structure Frame (limit : Nat) where
  batch : List Obj
  fits : (call.encodeDelivery batch).length ≤ limit ∨ batch.length = 1

def Frame.value {call : ProduceCall} (f : call.Frame limit) : List UInt8 :=
  call.encodeDelivery f.batch

/-- `_frames`. -/
def frames (limit : Nat) (batch : List Obj) : List (call.Frame limit) :=
  if batch = [] then []
  else if h : (call.encodeDelivery batch).length ≤ limit ∨ batch.length = 1 then [⟨batch, h⟩]
  else
    frames limit (batch.take (batch.length / 2)) ++ frames limit (batch.drop (batch.length / 2))
  termination_by batch.length
  decreasing_by
    all_goals
      have hpos : 0 < batch.length := List.length_pos_iff.2 ‹_›
      simp only [List.length_take, List.length_drop]
      omega

end ProduceCall

/-- A record that was sent, the exception then being handled, and what came of it. -/
structure Sent where
  batch : List Obj
  value : List UInt8
  handled : List ExcClass := []
  reply : Option ProduceError

structure Producing where
  sent : List Sent := []
  oversized : List Obj := []

namespace ProduceCall
variable (call : ProduceCall)

theorem encodeDelivery_length (batch : List Obj) : 2 ≤ (call.encodeDelivery batch).length :=
  call.codec.braces _

/-- The loop of `_produce_framed`; the broker answers a record by what it was sent before and by the
record. A refused record is divided while its refusal is handled. -/
def produceFrames (broker : List Sent → List UInt8 → Option ProduceError)
    (handled : List ExcClass) (limit : Nat) :
    List (call.Frame limit) → Producing → Except ProduceError Unit × Producing
  | [], s => (.ok (), s)
  | f :: fs, s =>
    if f.batch.length = 1 ∧ call.exceedsRequestLimit f.value then
      produceFrames broker handled limit fs { s with oversized := s.oversized ++ f.batch }
    else
      let reply := broker s.sent f.value
      let s' := { s with sent := s.sent ++ [⟨f.batch, f.value, handled, reply⟩] }
      match reply with
      | none => produceFrames broker handled limit fs s'
      | some e =>
        if !chainTooLarge call.rt (e.chain handled) then (.error e, s')
        else if f.batch.length = 1 then
          produceFrames broker handled limit fs { s' with oversized := s'.oversized ++ f.batch }
        else
          match produceFrames broker (e.chain handled) (max 1 (f.value.length / 2))
              (call.frames (max 1 (f.value.length / 2)) f.batch) s' with
          | (.error e, s'') => (.error e, s'')
          | (.ok (), s'') => produceFrames broker handled limit fs s''
  termination_by fs => (limit, fs.length)
  decreasing_by
    · exact Prod.Lex.right _ (Nat.lt_succ_self _)
    · exact Prod.Lex.right _ (Nat.lt_succ_self _)
    · exact Prod.Lex.right _ (Nat.lt_succ_self _)
    · apply Prod.Lex.left
      have hfits := f.fits.resolve_right ‹_›
      have hbraces := call.encodeDelivery_length f.batch
      simp only [Frame.value]
      omega
    · exact Prod.Lex.right _ (Nat.lt_succ_self _)

def produceFramed (broker : List Sent → List UInt8 → Option ProduceError)
    (handled : List ExcClass) (limit : Nat) (batch : List Obj) (s : Producing) :
    Except ProduceError Unit × Producing :=
  call.produceFrames broker handled limit (call.frames limit batch) s

end ProduceCall

def acknowledged (sent : List Sent) : List Obj :=
  (sent.filter (fun r => r.reply.isNone)).flatMap Sent.batch

/-- The loop goes on after this answer. -/
def Sent.Passed (rt : Runtime) (r : Sent) : Prop :=
  ∀ e, r.reply = some e → chainTooLarge rt (e.chain r.handled) = true

def Ended (rt : Runtime) (sent : List Sent) : Except ProduceError Unit → Prop
  | .ok () => ∀ r ∈ sent, r.Passed rt
  | .error e => ∃ before r, sent = before ++ [r] ∧ (∀ r' ∈ before, r'.Passed rt) ∧
      r.reply = some e ∧ chainTooLarge rt (e.chain r.handled) = false

namespace ProduceCall
variable (call : ProduceCall)

/-- What became of the events of some frames. -/
structure Accounted (limit : Nat) (whole : List Obj) (out : Except ProduceError Unit)
    (sent : List Sent) (setAside : List Obj) : Prop where
  dealt : ∃ done rest, whole = done ++ rest ∧ Interleaving (acknowledged sent) setAside done ∧
    (out = .ok () → rest = [])
  sized : ∀ r ∈ sent, 2 ≤ r.batch.length → r.value.length ≤ limit
  diverted : ∀ ev ∈ setAside, call.exceedsRequestLimit (call.encodeDelivery [ev]) = true ∨
    ∃ r ∈ sent, r.batch = [ev] ∧ ∃ e, r.reply = some e ∧
      chainTooLarge call.rt (e.chain r.handled) = true
  ended : Ended call.rt sent out

section Accounts
variable {call} {limit : Nat} {out : Except ProduceError Unit}

theorem flatten_frames (call : ProduceCall) (limit : Nat) (batch : List Obj) :
    ((call.frames limit batch).map Frame.batch).flatten = batch := by
  fun_induction frames call limit batch with
  | case1 => rfl
  | case2 batch hne hfits => simp
  | case3 batch hne hfits ihleft ihright =>
    rw [List.map_append, List.flatten_append, ihleft, ihright, List.take_append_drop]

theorem acknowledged_append (sent sent' : List Sent) :
    acknowledged (sent ++ sent') = acknowledged sent ++ acknowledged sent' := by
  rw [acknowledged, List.filter_append, List.flatMap_append]
  rfl

theorem Ended.append {sent sent' : List Sent} (h : Ended call.rt sent (.ok ()))
    (h' : Ended call.rt sent' out) : Ended call.rt (sent ++ sent') out := by
  cases out with
  | ok u =>
    intro r hr
    obtain hr | hr := List.mem_append.1 hr
    · exact h r hr
    · exact h' r hr
  | error e =>
    obtain ⟨before, r, rfl, hbefore, hreply, hraised⟩ := h'
    refine ⟨sent ++ before, r, (List.append_assoc ..).symm, ?_, hreply, hraised⟩
    intro r' hr'
    obtain hr' | hr' := List.mem_append.1 hr'
    · exact h r' hr'
    · exact hbefore r' hr'

theorem Accounted.nil : call.Accounted limit [] (.ok ()) [] [] where
  dealt := ⟨[], [], rfl, .nil, fun _ => rfl⟩
  sized := nofun
  diverted := nofun
  ended := nofun

/-- Frames that were gone through, and then others. -/
theorem Accounted.append {whole whole' setAside setAside' : List Obj} {sent sent' : List Sent}
    (h : call.Accounted limit whole (.ok ()) sent setAside)
    (h' : call.Accounted limit whole' out sent' setAside') :
    call.Accounted limit (whole ++ whole') out (sent ++ sent') (setAside ++ setAside') := by
  constructor
  · obtain ⟨done, rest, rfl, hdealt, hrest⟩ := h.dealt
    obtain ⟨done', rest', rfl, hdealt', hrest'⟩ := h'.dealt
    rw [hrest rfl, List.append_nil, acknowledged_append]
    exact ⟨done ++ done', rest', (List.append_assoc ..).symm, hdealt.append hdealt', hrest'⟩
  · intro r hr
    obtain hr | hr := List.mem_append.1 hr
    · exact h.sized r hr
    · exact h'.sized r hr
  · intro ev hev
    obtain hev | hev := List.mem_append.1 hev
    · obtain hlimit | ⟨r, hr, hrefused⟩ := h.diverted ev hev
      · exact .inl hlimit
      · exact .inr ⟨r, List.mem_append_left _ hr, hrefused⟩
    · obtain hlimit | ⟨r, hr, hrefused⟩ := h'.diverted ev hev
      · exact .inl hlimit
      · exact .inr ⟨r, List.mem_append_right _ hr, hrefused⟩
  · exact Ended.append h.ended h'.ended

theorem Accounted.leave {whole setAside : List Obj} {sent : List Sent} {e : ProduceError}
    (h : call.Accounted limit whole (.error e) sent setAside) (whole' : List Obj) :
    call.Accounted limit (whole ++ whole') (.error e) sent setAside := by
  obtain ⟨done, rest, rfl, hdealt, -⟩ := h.dealt
  exact ⟨⟨done, rest ++ whole', List.append_assoc .., hdealt, nofun⟩, h.sized, h.diverted, h.ended⟩

section OneFrame
variable (f : call.Frame limit) (handled : List ExcClass)

theorem Frame.sized (hlen : 2 ≤ f.batch.length) : f.value.length ≤ limit := by
  apply f.fits.resolve_right
  omega

theorem skip_accounted (hlen : f.batch.length = 1)
    (hexceeds : call.exceedsRequestLimit f.value = true) :
    call.Accounted limit f.batch (.ok ()) [] f.batch := by
  refine ⟨⟨f.batch, [], (List.append_nil _).symm, .allRight _, fun _ => rfl⟩, nofun, ?_, nofun⟩
  intro ev hev
  obtain ⟨x, hx⟩ := List.length_eq_one_iff.1 hlen
  rw [Frame.value, hx] at hexceeds
  rw [hx, List.mem_singleton] at hev
  rw [hev]
  exact .inl hexceeds

theorem ack_accounted :
    call.Accounted limit f.batch (.ok ()) [⟨f.batch, f.value, handled, none⟩] [] := by
  refine ⟨⟨f.batch, [], (List.append_nil _).symm, ?_, fun _ => rfl⟩, ?_, nofun, ?_⟩
  · simpa [acknowledged] using Interleaving.allLeft f.batch
  · intro r hr
    rw [List.mem_singleton.1 hr]
    exact f.sized
  · intro r hr e he
    rw [List.mem_singleton.1 hr] at he
    cases he

theorem raise_accounted {e : ProduceError} (h : chainTooLarge call.rt (e.chain handled) = false) :
    call.Accounted limit f.batch (.error e) [⟨f.batch, f.value, handled, some e⟩] [] := by
  refine ⟨⟨[], f.batch, rfl, .nil, nofun⟩, ?_, nofun, ?_⟩
  · intro r hr
    rw [List.mem_singleton.1 hr]
    exact f.sized
  · exact ⟨[], _, rfl, nofun, rfl, h⟩

theorem divert_accounted {e : ProduceError} (h : chainTooLarge call.rt (e.chain handled) = true)
    (hlen : f.batch.length = 1) :
    call.Accounted limit f.batch (.ok ()) [⟨f.batch, f.value, handled, some e⟩] f.batch := by
  refine ⟨⟨f.batch, [], (List.append_nil _).symm, .allRight _, fun _ => rfl⟩, ?_, ?_, ?_⟩
  · intro r hr
    rw [List.mem_singleton.1 hr]
    exact f.sized
  · intro ev hev
    obtain ⟨x, hx⟩ := List.length_eq_one_iff.1 hlen
    rw [hx, List.mem_singleton] at hev
    rw [hev]
    exact .inr ⟨_, List.mem_singleton_self _, hx, e, rfl, h⟩
  · intro r hr e' he'
    rw [List.mem_singleton.1 hr] at he' ⊢
    cases he'
    exact h

theorem refuse_accounted {e : ProduceError} (h : chainTooLarge call.rt (e.chain handled) = true) :
    call.Accounted limit [] (.ok ()) [⟨f.batch, f.value, handled, some e⟩] [] := by
  refine ⟨⟨[], [], rfl, .nil, fun _ => rfl⟩, ?_, nofun, ?_⟩
  · intro r hr
    rw [List.mem_singleton.1 hr]
    exact f.sized
  · intro r hr e' he'
    rw [List.mem_singleton.1 hr] at he' ⊢
    cases he'
    exact h

theorem half_le (hlen : f.batch.length ≠ 1) : max 1 (f.value.length / 2) ≤ limit := by
  have hfits := f.fits.resolve_right hlen
  have hbraces := call.encodeDelivery_length f.batch
  simp only [Frame.value]
  omega

theorem Accounted.mono {limit' : Nat} (hle : limit' ≤ limit) {whole setAside : List Obj}
    {sent : List Sent} (h : call.Accounted limit' whole out sent setAside) :
    call.Accounted limit whole out sent setAside :=
  ⟨h.dealt, fun r hr hlen => (h.sized r hr hlen).trans hle, h.diverted, h.ended⟩

end OneFrame

def Adds (call : ProduceCall) (limit : Nat) (whole : List Obj) (s : Producing)
    (run : Except ProduceError Unit × Producing) : Prop :=
  ∃ sent setAside, run.2 = ⟨s.sent ++ sent, s.oversized ++ setAside⟩ ∧
    call.Accounted limit whole run.1 sent setAside

theorem Adds.after {whole whole' setAside : List Obj} {sent : List Sent} {s s' : Producing}
    {run : Except ProduceError Unit × Producing}
    (hs' : s' = ⟨s.sent ++ sent, s.oversized ++ setAside⟩)
    (h : call.Accounted limit whole (.ok ()) sent setAside) (hrun : call.Adds limit whole' s' run) :
    call.Adds limit (whole ++ whole') s run := by
  obtain ⟨sent', setAside', hrun, haccounted⟩ := hrun
  refine ⟨sent ++ sent', setAside ++ setAside', ?_, h.append haccounted⟩
  rw [hrun, hs', List.append_assoc, List.append_assoc]

theorem Adds.next {whole whole' : List Obj} {s s' : Producing}
    {run : Except ProduceError Unit × Producing} (h : call.Adds limit whole s (.ok (), s'))
    (hrun : call.Adds limit whole' s' run) : call.Adds limit (whole ++ whole') s run := by
  obtain ⟨sent, setAside, hs', haccounted⟩ := h
  exact hrun.after hs' haccounted

theorem Adds.leave {whole : List Obj} {s s' : Producing} {e : ProduceError}
    (h : call.Adds limit whole s (.error e, s')) (whole' : List Obj) :
    call.Adds limit (whole ++ whole') s (.error e, s') := by
  obtain ⟨sent, setAside, hs', haccounted⟩ := h
  exact ⟨sent, setAside, hs', haccounted.leave whole'⟩

theorem Adds.divide {f : call.Frame limit} {handled : List ExcClass} {e : ProduceError}
    {s : Producing} {run : Except ProduceError Unit × Producing}
    (hlarge : chainTooLarge call.rt (e.chain handled) = true) (hlen : f.batch.length ≠ 1)
    (h : call.Adds (max 1 (f.value.length / 2)) f.batch
      ⟨s.sent ++ [⟨f.batch, f.value, handled, some e⟩], s.oversized⟩ run) :
    call.Adds limit f.batch s run := by
  obtain ⟨sent, setAside, hrun, haccounted⟩ := h
  have hdivided : call.Adds limit f.batch
      ⟨s.sent ++ [⟨f.batch, f.value, handled, some e⟩], s.oversized⟩ run :=
    ⟨sent, setAside, hrun, haccounted.mono (half_le f hlen)⟩
  exact hdivided.after (by rw [List.append_nil]) (refuse_accounted f handled hlarge)

theorem produceFrames_adds (call : ProduceCall)
    (broker : List Sent → List UInt8 → Option ProduceError) (handled : List ExcClass) (limit : Nat)
    (fs : List (call.Frame limit)) (s : Producing) :
    call.Adds limit (fs.map Frame.batch).flatten s
      (call.produceFrames broker handled limit fs s) := by
  fun_induction produceFrames call broker handled limit fs s with
  | case1 handled limit s =>
    exact ⟨[], [], by rw [List.append_nil, List.append_nil], .nil⟩
  | case2 handled limit f fs s hskip ih =>
    exact ih.after (by rw [List.append_nil]) (skip_accounted f hskip.1 hskip.2)
  | case3 handled limit f fs s hsend reply s' hreply ih =>
    have hacked := ack_accounted f handled
    rw [← hreply] at hacked
    exact ih.after (by rw [List.append_nil]) hacked
  | case4 handled limit f fs s hsend reply s' e hreply hother =>
    have hraised := raise_accounted f handled (by simpa using hother)
    rw [← hreply] at hraised
    exact ⟨_, [], by rw [List.append_nil], hraised.leave _⟩
  | case5 handled limit f fs s hsend reply s' e hreply hlarge hlen ih =>
    have hdiverted := divert_accounted f handled (by simpa using hlarge) hlen
    rw [← hreply] at hdiverted
    exact ih.after rfl hdiverted
  | case6 handled limit f fs s hsend reply s' e hreply hlarge hlen e' s'' hdivide ih =>
    have hs' : s' = ⟨s.sent ++ [⟨f.batch, f.value, handled, some e⟩], s.oversized⟩ := by
      rw [← hreply]
    rw [hdivide, flatten_frames, hs'] at ih
    exact (ih.divide (by simpa using hlarge) hlen).leave _
  | case7 handled limit f fs s hsend reply s' e hreply hlarge hlen s'' hdivide ihdivide ih =>
    have hs' : s' = ⟨s.sent ++ [⟨f.batch, f.value, handled, some e⟩], s.oversized⟩ := by
      rw [← hreply]
    rw [hdivide, flatten_frames, hs'] at ihdivide
    exact (ihdivide.divide (by simpa using hlarge) hlen).next ih

end Accounts
end ProduceCall

section Conservation
variable (call : ProduceCall) (limit : Nat) (batch : List Obj)

def ProduceError.RefusesSize (rt : Runtime) (e : ProduceError) : Prop :=
  chainTooLarge rt (e.chain []) = true

/-- Every event is acknowledged once or set apart, in order, up to an error that is no refusal and
that the call raises. -/
structure ConservesBatch (out : Except ProduceError Unit) (s : Producing) : Prop where
  dealt : ∃ done rest, batch = done ++ rest ∧
    Interleaving (acknowledged s.sent) s.oversized done ∧ (out = .ok () → rest = [])
  sized : ∀ r ∈ s.sent, 2 ≤ r.batch.length → r.value.length ≤ limit
  diverted : ∀ ev ∈ s.oversized, call.exceedsRequestLimit (call.encodeDelivery [ev]) = true ∨
    ∃ r ∈ s.sent, r.batch = [ev] ∧ ∃ e, r.reply = some e ∧ e.RefusesSize call.rt
  returns : (∀ r ∈ s.sent, ∀ e, r.reply = some e → e.RefusesSize call.rt) → out = .ok ()
  raises : ∀ r ∈ s.sent, ∀ e, r.reply = some e → ¬ e.RefusesSize call.rt →
    out = .error e ∧ s.sent.getLast? = some r

/-- The answer is read as if no other exception were being handled. -/
def Sent.Read (rt : Runtime) (r : Sent) : Prop :=
  ∀ e, r.reply = some e → (chainTooLarge rt (e.chain r.handled) = true ↔ e.RefusesSize rt)

variable {call limit batch} {out : Except ProduceError Unit} {sent : List Sent} {setAside : List Obj}

theorem conserves_of_read (h : call.Accounted limit batch out sent setAside)
    (hread : ∀ r ∈ sent, r.Read call.rt) : ConservesBatch call limit batch out ⟨sent, setAside⟩ := by
  refine ⟨h.dealt, h.sized, ?_, ?_, ?_⟩
  · intro ev hev
    obtain hlimit | ⟨r, hr, hbatch, e, hreply, hlarge⟩ := h.diverted ev hev
    · exact .inl hlimit
    · exact .inr ⟨r, hr, hbatch, e, hreply, (hread r hr e hreply).1 hlarge⟩
  · intro hrefused
    cases out with
    | ok u => rfl
    | error e =>
      obtain ⟨before, r, hsent, -, hreply, hraised⟩ := h.ended
      have hr : r ∈ sent := hsent ▸ List.mem_append_right _ (List.mem_singleton_self r)
      have hlarge := (hread r hr e hreply).2 (hrefused r hr e hreply)
      rw [hraised] at hlarge
      cases hlarge
  · intro r hr e hreply hother
    have hfails : ¬ r.Passed call.rt := fun hpassed =>
      hother ((hread r hr e hreply).1 (hpassed e hreply))
    cases out with
    | ok u => exact absurd (h.ended r hr) hfails
    | error e' =>
      obtain ⟨before, r', hsent, hbefore, hreply', -⟩ := h.ended
      have hr' : r ∈ before ++ [r'] := hsent ▸ hr
      obtain hr' | hr' := List.mem_append.1 hr'
      · exact absurd (hbefore r hr') hfails
      · rw [List.mem_singleton.1 hr'] at hreply ⊢
        rw [Option.some.inj (hreply'.symm.trans hreply)]
        exact ⟨rfl, by rw [hsent, List.getLast?_concat]⟩

theorem read_of_conserves (h : call.Accounted limit batch out sent setAside)
    (hconserves : ConservesBatch call limit batch out ⟨sent, setAside⟩) :
    ∀ r ∈ sent, r.Read call.rt := by
  have hfailed : ∀ r ∈ sent, ∀ e, r.reply = some e → ¬ e.RefusesSize call.rt →
      chainTooLarge call.rt (e.chain r.handled) = false := by
    intro r hr e hreply hother
    obtain ⟨rfl, hlast⟩ := hconserves.raises r hr e hreply hother
    obtain ⟨before, r', rfl, -, hreply', hraised⟩ := h.ended
    rw [List.getLast?_concat, Option.some.injEq] at hlast
    rw [← hlast]
    exact hraised
  intro r hr e hreply
  constructor
  · intro hlarge
    by_contra hother
    rw [hfailed r hr e hreply hother] at hlarge
    cases hlarge
  · intro hrefuses
    by_contra hlarge
    rw [Bool.not_eq_true] at hlarge
    cases out with
    | ok u =>
      rw [h.ended r hr e hreply] at hlarge
      cases hlarge
    | error e' =>
      obtain ⟨before, r', hsent, hbefore, hreply', hraised⟩ := h.ended
      have hlast : r = r' := by
        have hmem : r ∈ before ++ [r'] := hsent ▸ hr
        obtain hmem | hmem := List.mem_append.1 hmem
        · rw [hbefore r hmem e hreply] at hlarge
          cases hlarge
        · exact List.mem_singleton.1 hmem
      have hall : ∀ r ∈ sent, ∀ e, r.reply = some e → e.RefusesSize call.rt := by
        intro r₁ hr₁ e₁ hreply₁
        by_contra hother
        obtain ⟨hout, hlast₁⟩ := hconserves.raises r₁ hr₁ e₁ hreply₁ hother
        rw [hsent, List.getLast?_concat, Option.some.injEq] at hlast₁
        rw [← hlast₁, ← hlast, hreply, Option.some.injEq] at hreply₁
        exact hother (hreply₁ ▸ hrefuses)
      have hreturns := hconserves.returns hall
      cases hreturns

end Conservation

namespace ProduceCall
variable (call : ProduceCall) (broker : List Sent → List UInt8 → Option ProduceError)

theorem produceFramed_accounted (limit : Nat) (batch : List Obj) :
    call.Accounted limit batch (call.produceFramed broker [] limit batch {}).1
      (call.produceFramed broker [] limit batch {}).2.sent
      (call.produceFramed broker [] limit batch {}).2.oversized := by
  obtain ⟨sent, setAside, hs, haccounted⟩ :=
    produceFrames_adds call broker [] limit (call.frames limit batch) {}
  rw [flatten_frames] at haccounted
  rw [produceFramed, hs]
  exact haccounted

end ProduceCall

/-- A batch is conserved in a run just when no exception of the broker is taken for the one that is
being handled. -/
theorem kafka_conserves_iff (call : ProduceCall)
    (broker : List Sent → List UInt8 → Option ProduceError) (limit : Nat) (batch : List Obj) :
    ConservesBatch call limit batch (call.produceFramed broker [] limit batch {}).1
        (call.produceFramed broker [] limit batch {}).2 ↔
      ∀ r ∈ (call.produceFramed broker [] limit batch {}).2.sent, r.Read call.rt := by
  have haccounted := call.produceFramed_accounted broker limit batch
  constructor
  · exact read_of_conserves haccounted
  · exact conserves_of_read haccounted

section Outage

mutual
def plainText : Json → String
  | .null => "null"
  | .bool b => if b then "true" else "false"
  | .int n => toString n
  | .float _ => "0.0"
  | .str s => "\"" ++ s ++ "\""
  | .list xs => "[" ++ plainItems xs ++ "]"
  | .obj o => "\x7b" ++ plainFields o ++ "\x7d"

def plainItems : List Json → String
  | [] => ""
  | [x] => plainText x
  | x :: xs => plainText x ++ "," ++ plainItems xs

def plainFields : Obj → String
  | [] => ""
  | [(k, v)] => "\"" ++ k ++ "\":" ++ plainText v
  | (k, v) :: o => "\"" ++ k ++ "\":" ++ plainText v ++ "," ++ plainFields o
end

def plainCodec : DeliveryCodec where
  dumps v := (plainText v).toList.map (fun c => UInt8.ofNat c.toNat)
  braces o := by
    have hopen : "\x7b".length = 1 := rfl
    have hclose : "\x7d".length = 1 := rfl
    rw [List.length_map, String.length_toList, plainText, String.length_append, String.length_append,
      hopen, hclose]
    omega

def siemCall : ProduceCall where
  rt := .ascii
  codec := plainCodec
  maxRequestBytes := 1048576
  destinationId := "siem"

def sizeRefusal : ProduceError := { cls := { name := "MessageSizeTooLargeError", sizeError := true } }

def unreachable : ProduceError := { cls := { name := "KafkaConnectionError" } }

/-- A broker that refuses its first record for its size, and then cannot be reached. -/
def outageBroker : List Sent → List UInt8 → Option ProduceError
  | [], _ => some sizeRefusal
  | _ :: _, _ => some unreachable

theorem frames_fits {call : ProduceCall} {limit : Nat} {batch : List Obj} (hne : batch ≠ [])
    (h : (call.encodeDelivery batch).length ≤ limit ∨ batch.length = 1) :
    call.frames limit batch = [⟨batch, h⟩] := by
  rw [ProduceCall.frames, if_neg hne, dif_pos h]

theorem frames_pair {call : ProduceCall} {limit : Nat} {a b : Obj}
    (h : limit < (call.encodeDelivery [a, b]).length) :
    call.frames limit [a, b] = [⟨[a], .inr rfl⟩, ⟨[b], .inr rfl⟩] := by
  have hlarge : ¬ ((call.encodeDelivery [a, b]).length ≤ limit ∨ [a, b].length = 1) := by
    simp only [List.length_cons, List.length_nil]
    omega
  have hleft : call.frames limit [a] = [⟨[a], .inr rfl⟩] := frames_fits (List.cons_ne_nil _ _) _
  have hright : call.frames limit [b] = [⟨[b], .inr rfl⟩] := frames_fits (List.cons_ne_nil _ _) _
  have hcut : [a, b].length / 2 = 1 := by simp
  rw [ProduceCall.frames, if_neg (List.cons_ne_nil _ _), dif_neg hlarge, hcut]
  change call.frames limit [a] ++ call.frames limit [b] = _
  rw [hleft, hright]
  rfl

section Refusals
variable {call : ProduceCall} {broker : List Sent → List UInt8 → Option ProduceError}
  {handled : List ExcClass} {limit : Nat} {fs : List (call.Frame limit)}
  {s : Producing} {e : ProduceError}

theorem produceFrames_divert {ev : Obj}
    (hfits : call.exceedsRequestLimit (call.encodeDelivery [ev]) = false)
    (hreply : broker s.sent (call.encodeDelivery [ev]) = some e)
    (hlarge : chainTooLarge call.rt (e.chain handled) = true) :
    call.produceFrames broker handled limit (⟨[ev], .inr rfl⟩ :: fs) s =
      call.produceFrames broker handled limit fs
        ⟨s.sent ++ [⟨[ev], call.encodeDelivery [ev], handled, some e⟩], s.oversized ++ [ev]⟩ := by
  rw [ProduceCall.produceFrames]
  simp [ProduceCall.Frame.value, hfits, hreply, hlarge]

theorem produceFrames_divide {batch : List Obj} (hlen : batch.length ≠ 1)
    (hfits : (call.encodeDelivery batch).length ≤ limit)
    (hreply : broker s.sent (call.encodeDelivery batch) = some e)
    (hlarge : chainTooLarge call.rt (e.chain handled) = true) {s' : Producing}
    (hdivide : call.produceFrames broker (e.chain handled)
      (max 1 ((call.encodeDelivery batch).length / 2))
      (call.frames (max 1 ((call.encodeDelivery batch).length / 2)) batch)
      ⟨s.sent ++ [⟨batch, call.encodeDelivery batch, handled, some e⟩], s.oversized⟩ = (.ok (), s')) :
    call.produceFrames broker handled limit (⟨batch, .inl hfits⟩ :: fs) s =
      call.produceFrames broker handled limit fs s' := by
  rw [ProduceCall.produceFrames]
  simp [ProduceCall.Frame.value, hlen, hreply, hlarge, hdivide]

end Refusals

/-- The record of the pair, and then those of its events. -/
def outageRun : Producing where
  sent := [⟨[[], []], siemCall.encodeDelivery [[], []], [], some sizeRefusal⟩,
    ⟨[[]], siemCall.encodeDelivery [[]], sizeRefusal.chain [], some unreachable⟩,
    ⟨[[]], siemCall.encodeDelivery [[]], sizeRefusal.chain [], some unreachable⟩]
  oversized := [[], []]

theorem outage_run :
    siemCall.produceFramed outageBroker [] 943718 [[], []] {} = (.ok (), outageRun) := by
  have hpair : (siemCall.encodeDelivery [[], []]).length = 58 := by decide +kernel
  have hfits : siemCall.exceedsRequestLimit (siemCall.encodeDelivery [[]]) = false := by
    decide +kernel
  have hrefused : chainTooLarge siemCall.rt (sizeRefusal.chain []) = true := by decide +kernel
  have houtage : chainTooLarge siemCall.rt (unreachable.chain (sizeRefusal.chain [])) = true := by
    decide +kernel
  have hwhole : (siemCall.encodeDelivery [[], []]).length ≤ 943718 := by omega
  have hhalf : max 1 ((siemCall.encodeDelivery [[], []]).length / 2) <
      (siemCall.encodeDelivery [[], []]).length := by omega
  rw [ProduceCall.produceFramed, frames_fits (List.cons_ne_nil _ _) (.inl hwhole)]
  have hdivide : siemCall.produceFrames outageBroker (sizeRefusal.chain [])
      (max 1 ((siemCall.encodeDelivery [[], []]).length / 2))
      (siemCall.frames (max 1 ((siemCall.encodeDelivery [[], []]).length / 2)) [[], []])
      ⟨[⟨[[], []], siemCall.encodeDelivery [[], []], [], some sizeRefusal⟩], []⟩ =
        (.ok (), outageRun) := by
    rw [frames_pair hhalf, produceFrames_divert hfits rfl houtage,
      produceFrames_divert hfits rfl houtage, ProduceCall.produceFrames]
    rfl
  rw [produceFrames_divide (by simp) hwhole rfl hrefused hdivide, ProduceCall.produceFrames]

/-- Both events are set apart as too large, and the outage is raised to no one. -/
theorem outage_taken_for_size :
    (siemCall.produceFramed outageBroker [] 943718 [[], []] {}).1 = .ok () ∧
      ¬ ConservesBatch siemCall 943718 [[], []]
        (siemCall.produceFramed outageBroker [] 943718 [[], []] {}).1
        (siemCall.produceFramed outageBroker [] 943718 [[], []] {}).2 := by
  rw [outage_run]
  refine ⟨rfl, ?_⟩
  intro h
  have hraises := h.raises ⟨[[]], siemCall.encodeDelivery [[]], sizeRefusal.chain [],
    some unreachable⟩ (by simp [outageRun]) unreachable rfl (by
      rw [ProduceError.RefusesSize, Bool.not_eq_true]
      decide +kernel)
  cases hraises.1

end Outage

end CentralOps
