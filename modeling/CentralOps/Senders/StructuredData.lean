import CentralOps.Ingest.Parser
import CentralOps.Json

namespace CentralOps
set_option autoImplicit true

open Py Syslog

section Sender

/-- `_sdv`, on the `str` of a value that is not `None`. -/
def sdv (value : Option Text) : Text :=
  match value with
  | none => []
  | some s =>
    replace (text "]") (text "\\]") (replace (text "\"") (text "\\\"")
      (replace (text "\\") (text "\\\\") s))

def sdParam (name : Text) (value : Option Text) : Text :=
  name ++ text "=\"" ++ sdv value ++ text "\""

def sdElement (id : Text) (params : List (Text × Option Text)) : Text :=
  text "[" ++ id ++ params.flatMap (fun p => text " " ++ sdParam p.1 p.2) ++ text "]"

/-- What `format_rfc5424` takes from outside the event. -/
structure SenderRuntime where
  str : Json → Text
  dumps : Obj → Text
  priForEvent : Obj → Text
  hostname : Text
  nowIso : Text

/-- `str(v)`, and nothing for `None`. -/
def SenderRuntime.strOrNone (rt : SenderRuntime) (v : Json) : Option Text :=
  if v = .null then none else some (rt.str v)

/-- `v or w`. -/
def Json.orElse (v w : Json) : Json := if v.truthy then v else w

/-- The parameters that an event is sent with. -/
def sdParams (rt : SenderRuntime) (block : Obj) : List (Text × Option Text) :=
  [(text "integration_id", rt.strOrNone (block.getN "integration_id")),
    (text "customer_id", rt.strOrNone (block.getN "customer_id")),
    (text "vendor", rt.strOrNone (.orElse (block.getN "vendor") (block.getN "platform"))),
    (text "stream", rt.strOrNone (block.getN "stream")),
    (text "event_type", rt.strOrNone (block.getN "event_type"))]

def rfc5424Header (rt : SenderRuntime) (event block : Obj) : Text :=
  let ts := if (block.getN "collected_at").truthy then rt.str (block.getN "collected_at")
    else rt.nowIso
  let msgid := rt.str (.orElse (block.getN "integration_id") (.str "-"))
  text "<" ++ rt.priForEvent event ++ text ">1 " ++ ts ++ text " " ++ rt.hostname ++
    text " centralops-collector - " ++ msgid ++ text " "

def formatRfc5424 (rt : SenderRuntime) (event : Obj) : Except String Text :=
  let info := event.getN "_centralops"
  if info.truthy then
    .ok (rfc5424Header rt event info.asObj ++
      sdElement (text "centralops@32473") (sdParams rt info.asObj) ++ text " " ++ rt.dumps event)
  else .error "evento sem namespace '_centralops' — enrichment não aplicado (RF04)"

/-- The text of structured data as the sender writes its elements. -/
def structuredDataText (sd : Dict Text (Dict Text Text)) : Text :=
  if sd.entries = [] then text "-"
  else sd.entries.flatMap fun e => sdElement e.1 (e.2.entries.map fun p => (p.1, some p.2))

end Sender

section Escaping

/-- The characters that are escaped in a value. -/
def sdSpecial (c : CodePoint) : Bool := [ch '"', ch ']', ch '\\'].contains c

def escaped (c : CodePoint) : Text := if sdSpecial c then [ch '\\', c] else [c]

theorem replace_char (c : CodePoint) (new s : Text) :
    replace [c] new s = s.flatMap fun d => if d = c then new else [d] := by
  rw [replace]
  induction s with
  | nil => rfl
  | cons d s ih =>
    rw [replaceGo, List.flatMap_cons, List.length_singleton, Nat.sub_self, ih]
    by_cases h : d = c
    · simp [h, List.isPrefixOf]
    · have hne : ¬ c = d := fun he => h he.symm
      simp [h, hne, List.isPrefixOf]

theorem sdv_eq (s : Text) : sdv (some s) = s.flatMap escaped := by
  have hback : text "\\" = [ch '\\'] := rfl
  have hquote : text "\"" = [ch '"'] := rfl
  have hclose : text "]" = [ch ']'] := rfl
  rw [sdv, hback, hquote, hclose, replace_char, replace_char, replace_char, List.flatMap_assoc,
    List.flatMap_assoc]
  apply List.flatMap_congr
  intro c _
  by_cases hc : c = ch '\\'
  · subst hc
    rfl
  · by_cases hq : c = ch '"'
    · subst hq
      rfl
    · by_cases hb : c = ch ']'
      · subst hb
        rfl
      · simp [hc, hq, hb, escaped, sdSpecial]

/-- Reading a value to its quote undoes the escaping. -/
theorem quoted_escaped (s v rest : Text) :
    quoted v (s.flatMap escaped ++ ch '"' :: rest) = (v ++ s, rest) := by
  induction s generalizing v with
  | nil =>
    have hquote : ¬ (ch '"' = ch '\\') := by decide
    cases rest with
    | nil => simp [quoted]
    | cons c rest => simp [quoted, hquote]
  | cons c s ih =>
    rw [List.flatMap_cons, escaped]
    by_cases hc : sdSpecial c = true
    · rw [if_pos hc]
      have hstep : quoted v (ch '\\' :: c :: (s.flatMap escaped ++ ch '"' :: rest)) =
          quoted (v ++ [c]) (s.flatMap escaped ++ ch '"' :: rest) := by
        rw [quoted, if_pos ⟨rfl, hc⟩]
      simpa using hstep.trans (ih (v ++ [c]))
    · have hback : c ≠ ch '\\' := fun h => hc (h ▸ rfl)
      have hquote : c ≠ ch '"' := fun h => hc (h ▸ rfl)
      rw [if_neg hc]
      have hstep : ∀ t : Text, t ≠ [] → quoted v (c :: t) = quoted (v ++ [c]) t := by
        intro t ht
        cases t with
        | nil => exact absurd rfl ht
        | cons d t => rw [quoted, if_neg fun h => hback h.1, if_neg hquote]
      have hgo := hstep (s.flatMap escaped ++ ch '"' :: rest) (by simp)
      simpa using hgo.trans (ih (v ++ [c]))

end Escaping
/-- A name that needs no escaping. -/
def Plain (name : Text) : Prop := ∀ c ∈ name, c ≠ ch ' ' ∧ c ≠ ch '=' ∧ c ≠ ch ']' ∧ c ≠ ch '"'

instance decidablePlain (name : Text) : Decidable (Plain name) := List.decidableBAll _ _

/-- Every id and every name in structured data is plain. -/
def WellNamed (sd : Dict Text (Dict Text Text)) : Prop :=
  ∀ e ∈ sd.entries, Plain e.1 ∧ ∀ p ∈ e.2.entries, Plain p.1

instance decidableWellNamed (sd : Dict Text (Dict Text Text)) : Decidable (WellNamed sd) :=
  inferInstanceAs (Decidable (∀ e ∈ sd.entries, Plain e.1 ∧ ∀ p ∈ e.2.entries, Plain p.1))

section Reading

theorem takeWhile_upto {p : CodePoint → Bool} {s : Text} (hs : ∀ c ∈ s, p c = true)
    (hd : p d = false) (rest : Text) : (s ++ d :: rest).takeWhile p = s := by
  rw [List.takeWhile_append_of_pos hs, List.takeWhile_cons_of_neg (by simp [hd]), List.append_nil]

theorem dropWhile_upto {p : CodePoint → Bool} {s : Text} (hs : ∀ c ∈ s, p c = true)
    (hd : p d = false) (rest : Text) : (s ++ d :: rest).dropWhile p = d :: rest := by
  rw [List.dropWhile_append_of_pos hs, List.dropWhile_cons_of_neg (by simp [hd])]

theorem sdParam_append (name value rest : Text) :
    text " " ++ sdParam name (some value) ++ rest =
      ch ' ' :: (name ++ ch '=' :: ch '"' :: (value.flatMap escaped ++ ch '"' :: rest)) := by
  rw [sdParam, sdv_eq]
  simp [text]

theorem readParams_cons (params : Dict Text Text) {name : Text} (hname : Plain name)
    (value rest : Text) :
    readParams params (text " " ++ sdParam name (some value) ++ rest) =
      readParams (params.set name value) rest := by
  rw [sdParam_append]
  have hskip : (ch ' ' :: (name ++ ch '=' :: ch '"' :: (value.flatMap escaped ++
      ch '"' :: rest))).dropWhile (· = ch ' ') =
      name ++ ch '=' :: ch '"' :: (value.flatMap escaped ++ ch '"' :: rest) := by
    rw [List.dropWhile_cons_of_pos (by decide)]
    cases name with
    | nil => exact List.dropWhile_cons_of_neg (by decide)
    | cons c name =>
      exact List.dropWhile_cons_of_neg (by simpa using (hname c List.mem_cons_self).1)
  have hopen : ¬ (name ++ ch '=' :: ch '"' :: (value.flatMap escaped ++
      ch '"' :: rest)).head? = some (ch ']') := by
    cases name with
    | nil => simp; decide
    | cons c name => simpa using (hname c List.mem_cons_self).2.2.1
  have hupto : ∀ c ∈ name, decide (c ≠ ch '=') = true :=
    fun c hc => decide_eq_true (hname c hc).2.1
  have hdrop := dropWhile_upto hupto (d := ch '=') (by simp)
    (ch '"' :: (value.flatMap escaped ++ ch '"' :: rest))
  have htake := takeWhile_upto hupto (d := ch '=') (by simp)
    (ch '"' :: (value.flatMap escaped ++ ch '"' :: rest))
  rw [readParams, if_neg (by simp; decide)]
  simp only [hskip, if_neg hopen]
  split
  · next q value' heq =>
    rw [hskip, hdrop] at heq
    obtain ⟨rfl, hq⟩ := List.cons.inj heq
    obtain ⟨rfl, rfl⟩ := List.cons.inj hq
    rw [if_pos rfl, quoted_escaped, htake, List.nil_append]
  · next hno =>
    rw [hskip, hdrop] at hno
    exact absurd rfl (hno _ _ _)

theorem readParams_all {l : List (Text × Text)} (hplain : ∀ p ∈ l, Plain p.1)
    (params : Dict Text Text) (rest : Text) :
    readParams params (l.flatMap (fun p => text " " ++ sdParam p.1 (some p.2)) ++ text "]" ++ rest) =
      .closed (l.foldl (fun d p => d.set p.1 p.2) params) (ch ']' :: rest) := by
  induction l generalizing params with
  | nil => rw [readParams]; simp [text]
  | cons p l ih =>
    obtain ⟨hp, hl⟩ := List.forall_mem_cons.1 hplain
    rw [List.flatMap_cons, List.append_assoc, List.append_assoc, readParams_cons params hp,
      List.foldl_cons, ← List.append_assoc]
    exact ih hl _

theorem foldl_set_entries {β : Type} (d : Dict Text β) :
    d.entries.foldl (fun d p => d.set p.1 p.2) .empty = d := by
  have hgo : ∀ (l : List (Text × β)) (acc : Dict Text β),
      ((acc.entries ++ l).map Prod.fst).Nodup →
        (l.foldl (fun d p => d.set p.1 p.2) acc).entries = acc.entries ++ l := by
    intro l
    induction l with
    | nil => simp
    | cons p l ih =>
      intro acc hnodup
      have hnew : p.1 ∉ acc.entries.map Prod.fst := by
        intro hmem
        rw [List.map_append] at hnodup
        exact (List.nodup_append.1 hnodup).2.2 p.1 hmem p.1 (by simp) rfl
      have hset : (acc.set p.1 p.2).entries = acc.entries ++ [p] := Assoc.set_of_notMem hnew p.2
      rw [List.foldl_cons, ih _ (by simpa [hset] using hnodup), hset, List.append_assoc]
      rfl
  have hentries := hgo d.entries .empty (by simpa [Dict.empty] using d.nodup)
  obtain ⟨entries, hnodup⟩ := d
  rw [Dict.mk.injEq]
  exact hentries

theorem readElements_cons (sd : Dict Text (Dict Text Text)) {id : Text} (hid : Plain id)
    {params : Dict Text Text} (hplain : ∀ p ∈ params.entries, Plain p.1) (rest : Text) :
    readElements sd (sdElement id (params.entries.map fun p => (p.1, some p.2)) ++ rest) =
      readElements (sd.set id params) rest := by
  have hinside : ∀ c ∈ id, (!(decide (c = ch ' ') || decide (c = ch ']'))) = true := by
    intro c hc
    simp [(hid c hc).1, (hid c hc).2.2.1]
  have hread := readParams_all hplain .empty rest
  rw [foldl_set_entries] at hread
  -- What follows the id begins with a space or with the bracket that closes the element.
  have hend : ∃ d t, (!(decide (d = ch ' ') || decide (d = ch ']'))) = false ∧
      params.entries.flatMap (fun p => text " " ++ sdParam p.1 (some p.2)) ++ text "]" ++ rest =
        d :: t := by
    cases params.entries with
    | nil => exact ⟨ch ']', rest, by decide, rfl⟩
    | cons p l => exact ⟨ch ' ', _, by decide, rfl⟩
  obtain ⟨d, t, hd, heq⟩ := hend
  have htext : sdElement id (params.entries.map fun p => (p.1, some p.2)) ++ rest =
      ch '[' :: (id ++ d :: t) := by
    rw [← heq, sdElement, List.flatMap_map]
    simp [text]
  rw [htext, readElements, if_pos rfl]
  simp only [takeWhile_upto hinside hd]
  rw [heq] at hread
  split
  · next params' rest' h =>
    rw [dropWhile_upto hinside hd, hread] at h
    obtain ⟨rfl, rfl⟩ := ParamsEnd.closed.inj h
    rfl
  · next rest' h =>
    rw [dropWhile_upto hinside hd, hread] at h
    cases h

theorem readElements_all {l : List (Text × Dict Text Text)}
    (hplain : ∀ e ∈ l, Plain e.1 ∧ ∀ p ∈ e.2.entries, Plain p.1)
    (sd : Dict Text (Dict Text Text)) (rest : Text) :
    readElements sd
        (l.flatMap (fun e => sdElement e.1 (e.2.entries.map fun p => (p.1, some p.2))) ++ rest) =
      readElements (l.foldl (fun d e => d.set e.1 e.2) sd) rest := by
  induction l generalizing sd with
  | nil => rfl
  | cons e l ih =>
    obtain ⟨he, hl⟩ := List.forall_mem_cons.1 hplain
    rw [List.flatMap_cons, List.append_assoc, readElements_cons sd he.1 he.2, List.foldl_cons]
    exact ih hl _

theorem readElements_space (sd : Dict Text (Dict Text Text)) (msg : Text) :
    readElements sd (ch ' ' :: msg) = (sd, lstrip isSpace msg) := by
  rw [readElements, if_neg (by decide), lstrip, List.dropWhile_cons_of_pos (by decide)]
  rfl

end Reading

theorem structured_data_round_trip (sd : Dict Text (Dict Text Text)) (msg : Text)
    (hsd : WellNamed sd) :
    parseStructuredData (structuredDataText sd ++ text " " ++ msg) = (sd, lstrip isSpace msg) := by
  rw [structuredDataText]
  by_cases hempty : sd.entries = []
  · obtain ⟨entries, hnodup⟩ := sd
    obtain rfl : entries = [] := hempty
    rfl
  · have hread := readElements_all hsd .empty (ch ' ' :: msg)
    rw [foldl_set_entries, readElements_space] at hread
    rw [if_neg hempty, List.append_assoc]
    change parseStructuredData (_ ++ ch ' ' :: msg) = _
    rw [parseStructuredData]
    split
    · next s hdash =>
      cases hentries : sd.entries with
      | nil => exact absurd hentries hempty
      | cons e l =>
        rw [hentries, List.flatMap_cons] at hdash
        cases hdash
    · exact hread

/-- One parameter whose value ends in a backslash, a bracket and a quote. -/
def awkward : Dict Text (Dict Text Text) :=
  Dict.empty.set (text "id@1") (Dict.empty.set (text "path") (text "C:\\]\""))

theorem structured_data_round_trip_awkward :
    parseStructuredData (structuredDataText awkward ++ text " " ++ text "[ok]") =
      (awkward, lstrip isSpace (text "[ok]")) :=
  structured_data_round_trip awkward (text "[ok]") (by decide)

section Sent
variable (rt : SenderRuntime)

/-- The parameters of an event as the parser gives them back: no value is an empty one. -/
def sentParams (block : Obj) : Dict Text Text where
  entries := (sdParams rt block).map fun p => (p.1, p.2.getD [])
  nodup := by
    change ([text "integration_id", text "customer_id", text "vendor", text "stream",
      text "event_type"] : List Text).Nodup
    decide

def sentData (block : Obj) : Dict Text (Dict Text Text) :=
  ⟨[(text "centralops@32473", sentParams rt block)], List.nodup_singleton _⟩

theorem sdElement_getD (id : Text) (params : List (Text × Option Text)) :
    sdElement id params = sdElement id (params.map fun p => (p.1, some (p.2.getD []))) := by
  have hvalue : ∀ value : Option Text, sdv value = sdv (some (value.getD [])) := by
    intro value
    cases value <;> rfl
  rw [sdElement, sdElement, List.flatMap_map]
  simp only [sdParam, ← hvalue]

theorem wellNamed_sentData (block : Obj) : WellNamed (sentData rt block) := by
  intro e he
  obtain rfl := List.mem_singleton.1 he
  have hid : Plain (text "centralops@32473") := by decide
  refine ⟨hid, ?_⟩
  have hnames : ∀ name ∈ [text "integration_id", text "customer_id", text "vendor", text "stream",
      text "event_type"], Plain name := by decide
  intro p hp
  exact hnames p.1 (List.mem_map_of_mem (f := Prod.fst) hp)

/-- `OCSF_TO_SYSLOG_SEVERITY`. -/
def ocsfToSyslogSeverity : List (Int × Nat) :=
  [(0, 6), (1, 6), (2, 5), (3, 4), (4, 3), (5, 2), (6, 0), (99, 6)]

/-- `pri_for_event`, with `int` as an `int` of the id where there is one. -/
def priForEvent (int : Json → Option Int) (event : Obj) : Nat :=
  match event.getN "normalized" with
  | .obj normalized =>
    16 * 8 + ((int (Obj.getN normalized "severity_id")).bind
      (ocsfToSyslogSeverity.lookup ·)).getD 6
  | _ => 16 * 8 + 6

theorem priForEvent_text (int : Json → Option Int) (event : Obj) :
    let pri := text (toString (priForEvent int event))
    pri.all isDecimal = true ∧ (1 ≤ pri.length ∧ pri.length ≤ 3) ∧
      decimalValue pri = priForEvent int event := by
  have hall : ∀ sev ∈ 6 :: ocsfToSyslogSeverity.map Prod.snd,
      let pri := text (toString (16 * 8 + sev))
      pri.all isDecimal = true ∧ (1 ≤ pri.length ∧ pri.length ≤ 3) ∧
        decimalValue pri = 16 * 8 + sev := by decide
  rw [priForEvent]
  split
  · apply hall
    cases hsev : (int _).bind (ocsfToSyslogSeverity.lookup ·) with
    | none => exact List.mem_cons_self
    | some sev =>
      obtain ⟨sid, -, hlookup⟩ := Option.bind_eq_some_iff.1 hsev
      exact List.mem_cons_of_mem _ (List.mem_map_of_mem (Assoc.mem_of_lookup hlookup))
  · exact hall 6 List.mem_cons_self

def sentStamp (block : Obj) : Text :=
  if (block.getN "collected_at").truthy then rt.str (block.getN "collected_at") else rt.nowIso

def sentMsgid (block : Obj) : Text := rt.str (.orElse (block.getN "integration_id") (.str "-"))

def IsWord (s : Text) : Prop := s ≠ [] ∧ s.all (fun c => !isSpace c) = true

structure Headed (int : Json → Option Int) (event : Obj) : Prop where
  pri : rt.priForEvent event = text (toString (priForEvent int event))
  stamp : IsWord (sentStamp rt (event.getN "_centralops").asObj)
  host : IsWord rt.hostname
  msgid : IsWord (sentMsgid rt (event.getN "_centralops").asObj)
  braces : ∃ s, rt.dumps event = ch '{' :: (s ++ [ch '}'])

theorem digits_upto {s : Text} (hs : s.all isDecimal = true)
    (hlen : low ≤ s.length ∧ s.length ≤ high) (hd : isDecimal d = false) (rest : Text) :
    digits low high (s ++ d :: rest) = some (s, d :: rest) := by
  rw [List.all_eq_true] at hs
  rw [digits, takeWhile_upto hs hd, dropWhile_upto hs hd]
  exact if_pos hlen

theorem rstrip_concat (hd : p d = false) (s : Text) : rstrip p (s ++ [d]) = s ++ [d] := by
  simp [rstrip, hd]

theorem gap_upto (hd : isSpace d = false) (rest : Text) :
    gap (ch ' ' :: d :: rest) = some (d :: rest) := by
  simp [gap, spaces, hd, show isSpace (ch ' ') = true by decide]

theorem IsWord.gap {s : Text} (h : IsWord s) (rest : Text) :
    gap (ch ' ' :: (s ++ rest)) = some (s ++ rest) := by
  obtain ⟨hne, hs⟩ := h
  cases s with
  | nil => exact absurd rfl hne
  | cons c s =>
    rw [List.all_cons, Bool.and_eq_true, Bool.not_eq_true'] at hs
    exact gap_upto hs.1 _

theorem IsWord.word {s : Text} (h : IsWord s) (rest : Text) :
    word (s ++ ch ' ' :: rest) = some (s, ch ' ' :: rest) := by
  have hs := List.all_eq_true.1 h.2
  rw [Syslog.word, takeWhile_upto hs (by decide), dropWhile_upto hs (by decide)]
  exact if_neg h.1

theorem match5424_header {pri ts host app procid msgid : Text} (hpri : pri.all isDecimal = true)
    (hshort : 1 ≤ pri.length ∧ pri.length ≤ 3) (hts : IsWord ts) (hhost : IsWord host)
    (happ : IsWord app) (hprocid : IsWord procid) (hmsgid : IsWord msgid) (rest : Text) :
    match5424 (ch '<' :: (pri ++ ch '>' :: (text "1" ++ ch ' ' :: (ts ++ ch ' ' :: (host ++
      ch ' ' :: (app ++ ch ' ' :: (procid ++ ch ' ' :: (msgid ++ ch ' ' :: ch '[' :: rest)))))))) =
      some ⟨pri, text "1", ts, host, app, procid, msgid, ch '[' :: rest⟩ := by
  have htag := digits_upto hpri hshort (d := ch '>') (by decide)
  have hversion := digits_upto (s := text "1") (by decide) (show 1 ≤ 1 ∧ 1 ≤ 2 by decide)
    (d := ch ' ') (by decide)
  rw [match5424, rfc5424Re, priTag]
  simp only [lit, if_true, Option.bind_eq_bind, Option.bind_some, Option.pure_def, htag, hversion,
    hts.gap, hts.word, hhost.gap, hhost.word, happ.gap, happ.word, hprocid.gap, hprocid.word,
    hmsgid.gap, hmsgid.word, gap_upto (show isSpace (ch '[') = false by decide)]
  rfl

/-- The platform's receiver reads in a line what its sender wrote there. -/
theorem formatRfc5424_round_trip {event : Obj} {line : Text} (h : formatRfc5424 rt event = .ok line)
    (hheaded : Headed rt int event) (clock : Fin wallLimit) (now : Option DateTime) :
    parseSyslogLine clock (.str line) now =
      parse5424Ts (sentStamp rt (event.getN "_centralops").asObj) >>= fun timestamp =>
        attach
          { raw := line
            pri := priFields (some (priForEvent int event))
            format := .rfc5424
            version := 1
            timestamp := timestamp
            host := dashed rt.hostname
            app := some (text "centralops-collector")
            msgid := dashed (sentMsgid rt (event.getN "_centralops").asObj)
            sd := sentData rt (event.getN "_centralops").asObj
            msg := rt.dumps event } := by
  obtain ⟨hpri, hstamp, hhost, hmsgid, s, hs⟩ := hheaded
  obtain ⟨hdigits, hshort, hvalue⟩ := priForEvent_text int event
  rw [← hpri] at hdigits hshort hvalue
  rw [formatRfc5424] at h
  split at h
  case isFalse => cases h
  generalize (event.getN "_centralops").asObj = block at *
  have hwritten := (Except.ok.inj h).symm
  have hdata : parseStructuredData (sdElement (text "centralops@32473") (sdParams rt block) ++
      ch ' ' :: rt.dumps event) = (sentData rt block, rt.dumps event) := by
    obtain ⟨hid, hparams⟩ := wellNamed_sentData rt block _ (List.mem_singleton_self _)
    have hread := readElements_cons .empty hid hparams (ch ' ' :: rt.dumps event)
    rw [readElements_space, hs] at hread
    rw [sdElement_getD, hs]
    exact hread
  obtain ⟨rest, hsd⟩ : ∃ rest, sdElement (text "centralops@32473") (sdParams rt block) =
    ch '[' :: rest := ⟨_, rfl⟩
  rw [hsd] at hdata hwritten
  have htrimmed : trimmed (.str line) = line := by
    rw [hwritten, hs, ← List.cons_append, ← List.append_assoc]
    exact rstrip_concat (by decide) _
  have hline : line = ch '<' :: (rt.priForEvent event ++ ch '>' :: (text "1" ++ ch ' ' ::
      (sentStamp rt block ++ ch ' ' :: (rt.hostname ++ ch ' ' :: (text "centralops-collector" ++
        ch ' ' :: (text "-" ++ ch ' ' :: (sentMsgid rt block ++ ch ' ' :: ch '[' ::
          (rest ++ ch ' ' :: rt.dumps event)))))))) := by
    have hversion : text ">1 " = ch '>' :: (text "1" ++ [ch ' ']) := rfl
    have happ : text " centralops-collector - " =
        ch ' ' :: (text "centralops-collector" ++ ch ' ' :: (text "-" ++ [ch ' '])) := rfl
    rw [hwritten, rfc5424Header, hversion, happ, show text "<" = [ch '<'] from rfl,
      show text " " = [ch ' '] from rfl]
    simp [sentStamp, sentMsgid]
  have hmatch := match5424_header hdigits hshort hstamp hhost
    (show IsWord (text "centralops-collector") from ⟨by decide, by decide⟩)
    (show IsWord (text "-") from ⟨by decide, by decide⟩) hmsgid (rest ++ ch ' ' :: rt.dumps event)
  rw [← hline] at hmatch
  have hbom : dropBom (rt.dumps event) = rt.dumps event := by
    rw [hs]
    rfl
  rw [List.cons_append] at hdata
  rw [parseSyslogLine, htrimmed, parseFormat, hmatch]
  simp only [hdata, hbom, hvalue]
  cases parse5424Ts (sentStamp rt block) <;> rfl

end Sent

def plainSender : SenderRuntime where
  str := fun _ => text "7"
  dumps := fun _ => text "\x7b\"_centralops\":\x7b\"integration_id\":7\x7d\x7d"
  priForEvent := fun _ => text "134"
  hostname := text "collector"
  nowIso := text "2025-01-01T00:00:00Z"

def sentEvent : Obj := [("_centralops", .obj [("integration_id", .int 7)])]

theorem formatRfc5424_round_trip_plain : ∃ line, formatRfc5424 plainSender sentEvent = .ok line ∧
    (parseSyslogLine ⟨0, by decide⟩ (.str line) none).toOption.map
      (fun e => (e.pri.facility, e.host)) = some (some 16, some (text "collector")) := by
  have hheaded : Headed plainSender (fun _ => none) sentEvent :=
    ⟨by decide, ⟨by decide, by decide⟩, ⟨by decide, by decide⟩, ⟨by decide, by decide⟩,
      text "\"_centralops\":\x7b\"integration_id\":7\x7d", by decide⟩
  refine ⟨_, rfl, ?_⟩
  rw [formatRfc5424_round_trip plainSender rfl hheaded]
  decide +kernel

end CentralOps
