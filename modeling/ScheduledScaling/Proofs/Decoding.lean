import ScheduledScaling.Proofs.Readings
import ScheduledScaling.Proofs.Statuses
/-!
# Records that are read

A strict record is read member by member: it is accepted exactly if each of its fields is, and the
normal form of a field depends on the member of that name alone (`memberOf_of_read`, `exists_read`).
So a status that is read has what stands in its document, `ScheduleStatus.eq_of_ofJson`, and a
document that can be read still can be after a merge with another, `ScheduleStatus.exists_ofJson_merge`.
-/
namespace ScheduledScaling

/-! ## Fields of a record -/

namespace Shape
variable {name : String} {entries : List (Entry Shape)} {members : List (String × Json)}

/-- The normal form of a field that was read, null or missing. -/
def normalOf (e : Entry Shape) : Option (Option Json) → Except DecodeError (Option Json)
  | none => absent e 0
  | some none => .ok (ofNull e.presence)
  | some (some value) => .ok (if isHidden e.presence value then none else some value)

/-- The normal form of a field from the member of its name. -/
def memberOf (e : Entry Shape) : Option Json → Except DecodeError (Option Json)
  | none => normalOf e none
  | some value => do
    normalOf e (some (← nullable e value.toNode (read .value e.shape value.toNode)))

/-- Moving the place of an error does not make a value. -/
theorem moveOffset_eq_ok {α : Type} {shape : Shape} {after : Nat} {r : Except DecodeError α} {a : α} :
    moveOffset shape after r = .ok a ↔ r = .ok a := by
  unfold moveOffset
  split
  · split <;> exact ⟨fun h => (nomatch h), fun h => (nomatch h)⟩
  · exact Iff.rfl

theorem lookup_cons (key other : String) (value : Option Json) (fields : Fields) :
    List.lookup other ((key, value) :: fields) =
      if other = key then some value else fields.lookup other := by
  rw [List.lookup_cons]
  cases h : other == key with
  | true => rw [if_pos (beq_iff_eq.1 h)]
  | false => rw [if_neg (beq_eq_false_iff_ne.1 h)]

section
variable {fields : Fields} {key : String} {value : Json} {rest : List (String × Json)} {e : Entry Shape}

theorem readFields_unknown (h : entries.find? (fun e => e.key = key) = none) :
    readFields .value .strict entries fields (Json.toNodeMembers ((key, value) :: rest)) =
      readFields .value .strict entries fields (Json.toNodeMembers rest) := by
  rw [Json.toNodeMembers, readFields, h]
  rfl

theorem readFields_known (h : entries.find? (fun e => e.key = key) = some e)
    (hnew : fields.lookup key = none) :
    readFields .value .strict entries fields (Json.toNodeMembers ((key, value) :: rest)) =
      (moveOffset e.shape 0 (nullable e value.toNode (read .value e.shape value.toNode)) >>=
        fun read? => readFields .value .strict entries ((key, read?) :: fields)
          (Json.toNodeMembers rest)) := by
  rw [Json.toNodeMembers, readFields, h]
  dsimp only
  rw [hnew]
  rfl

theorem readFields_repeated (h : entries.find? (fun e => e.key = key) = some e)
    (hold : fields.lookup key ≠ none) :
    readFields .value .strict entries fields (Json.toNodeMembers ((key, value) :: rest)) =
      .error ⟨.repeated key, 0⟩ := by
  rw [Json.toNodeMembers, readFields, h]
  dsimp only
  rw [if_pos ⟨by decide, Option.isSome_iff_ne_none.2 hold⟩]
  rfl

end

/-- The fields after the members of an object were read: a known member adds its field, and other
fields are as they were. -/
theorem lookup_readFields {fields found : Fields} {stop : Nat} {e : Entry Shape}
    (he : entries.find? (fun other => other.key = e.key) = some e)
    (hmembers : (Keyed.keys members).Nodup)
    (h : readFields .value .strict entries fields (Json.toNodeMembers members) = .ok (found, stop)) :
    stop = 0 ∧ match Keyed.get? e.key members with
      | none => found.lookup e.key = fields.lookup e.key
      | some value => ∃ read?, nullable e value.toNode (read .value e.shape value.toNode) = .ok read? ∧
        found.lookup e.key = some read? := by
  induction members generalizing fields with
  | nil =>
    cases h
    exact ⟨rfl, rfl⟩
  | cons member rest ih =>
    obtain ⟨key, value⟩ := member
    obtain ⟨hkey, hrest⟩ := List.nodup_cons.1 hmembers
    rw [Keyed.get?]
    cases hfind : entries.find? (fun other => other.key = key) with
    | none =>
      have hne : key ≠ e.key := by
        rintro rfl
        rw [hfind] at he
        cases he
      rw [readFields_unknown hfind] at h
      rw [if_neg hne]
      exact ih hrest h
    | some e' =>
      by_cases hnew : fields.lookup key = none
      · rw [readFields_known hfind hnew] at h
        cases hread : moveOffset e'.shape 0
            (nullable e' value.toNode (read .value e'.shape value.toNode)) with
        | error x =>
          rw [hread] at h
          cases h
        | ok read? =>
          rw [hread] at h
          obtain ⟨rfl, hfound⟩ := ih hrest h
          refine ⟨rfl, ?_⟩
          rw [lookup_cons] at hfound
          by_cases heq : key = e.key
          · -- this is the field, and no later member has its name
            subst heq
            obtain rfl := Option.some.inj (hfind.symm.trans he)
            rw [Keyed.get?_eq_none hkey, if_pos rfl] at hfound
            rw [if_pos rfl]
            exact ⟨read?, moveOffset_eq_ok.1 hread, hfound⟩
          · rw [if_neg (Ne.symm heq)] at hfound
            rw [if_neg heq]
            exact hfound
      · rw [readFields_repeated hfind hnew] at h
        cases h

/-- The members of an object are taken up if each known one can be read. -/
theorem exists_readFields {fields : Fields} (hmembers : (Keyed.keys members).Nodup)
    (hnew : ∀ key ∈ Keyed.keys members, fields.lookup key = none)
    (h : ∀ e ∈ entries, ∀ value ∈ Keyed.get? e.key members, ∃ read?,
      nullable e value.toNode (read .value e.shape value.toNode) = .ok read?) :
    ∃ found,
      readFields .value .strict entries fields (Json.toNodeMembers members) = .ok (found, 0) := by
  induction members generalizing fields with
  | nil => exact ⟨fields, rfl⟩
  | cons member rest ih =>
    obtain ⟨key, value⟩ := member
    obtain ⟨hkey, hrest⟩ := List.nodup_cons.1 hmembers
    have hlater : ∀ e ∈ entries, ∀ value ∈ Keyed.get? e.key rest, ∃ read?,
        nullable e value.toNode (read .value e.shape value.toNode) = .ok read? := by
      intro e he value' hvalue'
      refine h e he value' ?_
      rw [Keyed.get?, if_neg]
      · exact hvalue'
      · rintro rfl
        rw [Keyed.get?_eq_none hkey] at hvalue'
        cases hvalue'
    have hnew' : ∀ other ∈ Keyed.keys rest, fields.lookup other = none :=
      fun other hother => hnew other (List.mem_cons_of_mem _ hother)
    cases hfind : entries.find? (fun other => other.key = key) with
    | none =>
      rw [readFields_unknown hfind]
      exact ih hrest hnew' hlater
    | some e =>
      have hname : e.key = key := by simpa using List.find?_some hfind
      have hfirst : Keyed.get? e.key ((key, value) :: rest) = some value := by
        rw [Keyed.get?, if_pos hname.symm]
      obtain ⟨read?, hread⟩ := h e (List.mem_of_find?_eq_some hfind) value hfirst
      rw [readFields_known hfind (hnew key List.mem_cons_self), moveOffset_eq_ok.2 hread]
      refine ih hrest (fun other hother => ?_) hlater
      rw [lookup_cons, if_neg]
      · exact hnew' other hother
      · rintro rfl
        exact hkey hother

/-! ## Records in normal form -/

theorem complete_cons (fields : Fields) (e : Entry Shape) (rest : List (Entry Shape)) :
    complete fields 0 (e :: rest) = (do
      let value ← normalOf e (fields.lookup e.key)
      let others ← complete fields 0 rest
      return match value with
        | some value => (e.key, value) :: others
        | none => others) := by
  rw [complete]
  cases fields.lookup e.key with
  | none => rfl
  | some read? => cases read? <;> rfl

/-- A completed record has the normal form of each field, and nothing else. -/
theorem get?_complete {fields : Fields} {out : List (String × Json)}
    (hentries : (entries.map Entry.key).Nodup) (h : complete fields 0 entries = .ok out) :
    List.Sublist (Keyed.keys out) (entries.map Entry.key) ∧
      ∀ e ∈ entries, normalOf e (fields.lookup e.key) = .ok (Keyed.get? e.key out) := by
  induction entries generalizing out with
  | nil =>
    cases h
    exact ⟨.slnil, fun e he => absurd he List.not_mem_nil⟩
  | cons e rest ih =>
    obtain ⟨hkey, hrest⟩ := List.nodup_cons.1 hentries
    rw [complete_cons] at h
    cases hvalue : normalOf e (fields.lookup e.key) with
    | error x =>
      rw [hvalue] at h
      cases h
    | ok value =>
      rw [hvalue] at h
      cases hothers : complete fields 0 rest with
      | error x =>
        rw [hothers] at h
        cases h
      | ok others =>
        rw [hothers] at h
        obtain ⟨hsub, hget⟩ := ih hrest hothers
        have hfirst : e.key ∉ Keyed.keys others := fun hmem => hkey (hsub.subset hmem)
        cases value with
        | none =>
          cases h
          refine ⟨hsub.cons _, List.forall_mem_cons.2 ⟨?_, hget⟩⟩
          rw [hvalue, Keyed.get?_eq_none hfirst]
        | some value =>
          cases h
          refine ⟨hsub.cons_cons _, List.forall_mem_cons.2 ⟨?_, fun e' he' => ?_⟩⟩
          · rw [hvalue, Keyed.get?, if_pos rfl]
          · have hne : e.key ≠ e'.key := fun heq => hkey (heq ▸ List.mem_map_of_mem he')
            rw [hget e' he', Keyed.get?, if_neg hne]

theorem exists_complete {fields : Fields}
    (h : ∀ e ∈ entries, ∃ value, normalOf e (fields.lookup e.key) = .ok value) :
    ∃ out, complete fields 0 entries = .ok out := by
  induction entries with
  | nil => exact ⟨[], rfl⟩
  | cons e rest ih =>
    obtain ⟨⟨value, hvalue⟩, hrest⟩ := List.forall_mem_cons.1 h
    obtain ⟨others, hothers⟩ := ih hrest
    rw [complete_cons, hvalue, hothers]
    exact ⟨_, rfl⟩

/-! ## Records from objects -/

theorem find?_of_mem (hentries : (entries.map Entry.key).Nodup) {e : Entry Shape} (he : e ∈ entries) :
    entries.find? (fun other => other.key = e.key) = some e := by
  induction entries with
  | nil => cases he
  | cons first rest ih =>
    obtain ⟨hfirst, hrest⟩ := List.nodup_cons.1 hentries
    rcases List.mem_cons.1 he with rfl | he
    · exact List.find?_cons_of_pos (by simp)
    · rw [List.find?_cons_of_neg, ih hrest he]
      have hne : first.key ≠ e.key := fun heq => hfirst (heq ▸ List.mem_map_of_mem he)
      simpa using hne

theorem read_object (name : String) (entries : List (Entry Shape)) (members : List (String × Json)) :
    read .value (.record name .strict entries) (Json.object members).toNode = (do
      let (fields, stop) ← readFields .value .strict entries [] (Json.toNodeMembers members)
      recordOf fields stop entries) := by
  rw [Json.toNode, read]

/-- The normal form of a field is that of the member of its name. -/
theorem normalOf_lookup {fields : Fields} {stop : Nat} {e : Entry Shape}
    (hentries : (entries.map Entry.key).Nodup) (hmembers : (Keyed.keys members).Nodup)
    (h : readFields .value .strict entries [] (Json.toNodeMembers members) = .ok (fields, stop))
    (he : e ∈ entries) :
    stop = 0 ∧ normalOf e (fields.lookup e.key) = memberOf e (Keyed.get? e.key members) := by
  obtain ⟨rfl, hlookup⟩ := lookup_readFields (find?_of_mem hentries he) hmembers h
  refine ⟨rfl, ?_⟩
  cases hmember : Keyed.get? e.key members with
  | none =>
    rw [hmember] at hlookup
    rw [hlookup]
    rfl
  | some value =>
    rw [hmember] at hlookup
    obtain ⟨read?, hread, hlookup⟩ := hlookup
    rw [memberOf, hread, hlookup]
    rfl

/-- A record that is read has the normal form of each of its members. -/
theorem memberOf_of_read {v : Json} (hentries : (entries.map Entry.key).Nodup)
    (hmembers : (Keyed.keys members).Nodup)
    (h : read .value (.record name .strict entries) (Json.object members).toNode = .ok v) :
    ∀ e ∈ entries, memberOf e (Keyed.get? e.key members) = .ok (v.get? e.key) := by
  intro e he
  rw [read_object] at h
  cases hfields : readFields .value .strict entries [] (Json.toNodeMembers members) with
  | error x =>
    rw [hfields] at h
    cases h
  | ok x =>
    obtain ⟨fields, stop⟩ := x
    rw [hfields] at h
    obtain ⟨rfl, hnormal⟩ := normalOf_lookup hentries hmembers hfields he
    change (do return Json.ofMembers (← complete fields 0 entries)) = Except.ok v at h
    cases hout : complete fields 0 entries with
    | error x =>
      rw [hout] at h
      cases h
    | ok out =>
      rw [hout] at h
      cases h
      obtain ⟨hsub, hget⟩ := get?_complete hentries hout
      have hv : (Json.ofMembers out).get? e.key = Keyed.get? e.key out :=
        Keyed.get?_ofList (hsub.nodup hentries)
      rw [hv, ← hnormal, hget e he]

/-- An object is read as a record if each field of the record can be read. -/
theorem exists_read (hentries : (entries.map Entry.key).Nodup) (hmembers : (Keyed.keys members).Nodup)
    (h : ∀ e ∈ entries, ∃ value, memberOf e (Keyed.get? e.key members) = .ok value) :
    ∃ v, read .value (.record name .strict entries) (Json.object members).toNode = .ok v := by
  have hreads : ∀ e ∈ entries, ∀ value ∈ Keyed.get? e.key members, ∃ read?,
      nullable e value.toNode (read .value e.shape value.toNode) = .ok read? := by
    intro e he value hvalue
    obtain ⟨found, hfound⟩ := h e he
    rw [Option.mem_def.1 hvalue, memberOf] at hfound
    cases hread : nullable e value.toNode (read .value e.shape value.toNode) with
    | error x =>
      rw [hread] at hfound
      cases hfound
    | ok read? => exact ⟨read?, rfl⟩
  have hnew : ∀ key ∈ Keyed.keys members, List.lookup key ([] : Fields) = none := fun _ _ => rfl
  obtain ⟨fields, hfields⟩ := exists_readFields hmembers hnew hreads
  obtain ⟨out, hout⟩ := exists_complete fun e he =>
    (normalOf_lookup hentries hmembers hfields he).2 ▸ h e he
  rw [read_object, hfields]
  change ∃ v, (do return Json.ofMembers (← complete fields 0 entries)) = Except.ok v
  rw [hout]
  exact ⟨_, rfl⟩

/-! ## Fields of one type -/

section
variable {v found : Json} {e : Entry Shape} {value : Option Json}

theorem memberOf_some (h : memberOf e (some v) = .ok value) :
    (v = .null ∧ acceptsNull e.presence ∧ value = ofNull e.presence) ∨
      ∃ found, read .value e.shape v.toNode = .ok found ∧
        value = if isHidden e.presence found then none else some found := by
  have hread (hresult : (do normalOf e (some (← some <$> read .value e.shape v.toNode))) =
      Except.ok value) : ∃ found, read .value e.shape v.toNode = .ok found ∧
        value = if isHidden e.presence found then none else some found := by
    cases hfound : read .value e.shape v.toNode with
    | error x =>
      rw [hfound] at hresult
      cases hresult
    | ok found =>
      rw [hfound] at hresult
      exact ⟨found, rfl, (Except.ok.inj hresult).symm⟩
  cases v with
  | null =>
    by_cases hnull : acceptsNull e.presence
    · refine .inl ⟨rfl, hnull, ?_⟩
      rw [memberOf, Json.toNode, nullable, if_pos hnull] at h
      exact (Except.ok.inj h).symm
    · rw [memberOf, Json.toNode, nullable, if_neg hnull] at h
      exact .inr (hread h)
  | bool b => exact .inr (hread h)
  | number n => exact .inr (hread h)
  | string s => exact .inr (hread h)
  | array items => exact .inr (hread h)
  | object members => exact .inr (hread h)

theorem memberOf_eq_ok (hread : read .value e.shape v.toNode = .ok found) (hv : v ≠ .null) :
    memberOf e (some v) = .ok (if isHidden e.presence found then none else some found) := by
  have h : nullable e v.toNode (.ok found) = .ok (some found) := by
    cases v with
    | null => exact absurd rfl hv
    | bool b => rfl
    | number n => rfl
    | string s => rfl
    | array items => rfl
    | object members => rfl
  rw [memberOf, hread, h]
  rfl

theorem read_time (h : read .value (.time false) v.toNode = .ok found) :
    ∃ text t, v = .string text ∧ Timestamp.readLenient text = .ok t ∧ found = .time t := by
  cases v with
  | null => cases h
  | bool b => cases h
  | number n => cases h
  | string text =>
    rw [Json.toNode, read, readString] at h
    cases ht : Timestamp.readLenient text with
    | error x =>
      rw [ht] at h
      cases h
    | ok t =>
      rw [ht] at h
      exact ⟨text, t, rfl, ht, (Except.ok.inj h).symm⟩
  | array items => cases h
  | object members => cases h

theorem read_int {name : String} {low high : Int}
    (h : read .value (.int name low high) v.toNode = .ok found) :
    ∃ n, v = .int n ∧ low ≤ n ∧ n ≤ high ∧ found = .int n := by
  cases v with
  | null => cases h
  | bool b => cases h
  | number n =>
    cases n with
    | integer n =>
      rw [Json.toNode, read, readNumber] at h
      dsimp only at h
      split at h
      · rename_i hn
        exact ⟨n, rfl, hn.1, hn.2, (Except.ok.inj h).symm⟩
      · cases h
    | double negative magnitude => cases h
  | string text => cases h
  | array items => cases h
  | object members => cases h

theorem read_string (h : read .value .string v.toNode = .ok found) :
    ∃ text, v = .string text ∧ found = .string text := by
  cases v with
  | null => cases h
  | bool b => cases h
  | number n => cases n <;> cases h
  | string text => exact ⟨text, rfl, (Except.ok.inj h).symm⟩
  | array items => cases h
  | object members => cases h

/-- A field that may be missing can be read if its member, where there is one, can. -/
theorem exists_memberOf {member : Option Json} (habsent : ∃ value, absent e 0 = .ok value)
    (h : ∀ v ∈ member, v ≠ .null ∧ ∃ found, read .value e.shape v.toNode = .ok found) :
    ∃ value, memberOf e member = .ok value := by
  cases member with
  | none => exact habsent
  | some v =>
    obtain ⟨hv, found, hfound⟩ := h v rfl
    exact ⟨_, memberOf_eq_ok hfound hv⟩

theorem read_of_time {t : Instant} (ht : t.IsNamed) :
    read .value (.time false) (Json.time t).toNode = .ok (.time t) := by
  rw [Json.time, Json.toNode, read, readString, Instant.readLenient_text ht]
  rfl

theorem read_of_int {name : String} {low high n : Int} (h : low ≤ n ∧ n ≤ high) :
    read .value (.int name low high) (Json.int n).toNode = .ok (.int n) := by
  rw [Json.int, Json.toNode, read, readNumber]
  exact if_pos h

/-- A field that may be missing or null has no normal form then. -/
theorem memberOf_optional {key : String} {shape : Shape} {member : Option Json}
    (h : memberOf ⟨key, .optional, shape⟩ member = .ok value) :
    (member = none ∨ member = some .null) ∧ value = none ∨
      ∃ v found, member = some v ∧ read .value shape v.toNode = .ok found ∧ value = some found := by
  cases member with
  | none => exact .inl ⟨.inl rfl, (Except.ok.inj h).symm⟩
  | some v =>
    rcases memberOf_some h with ⟨rfl, -, rfl⟩ | ⟨found, hfound, rfl⟩
    · exact .inl ⟨.inr rfl, rfl⟩
    · exact .inr ⟨v, found, rfl, hfound, rfl⟩

end

end Shape

/-! ## Values in normal form and as they are written -/

namespace Json
variable {key name : String} {low high : Int} {doc v : Json}

open Shape

/-- A time that is read can be written. -/
theorem isNamed_of_time? : ∀ t ∈ doc.time? key, t.IsNamed := by
  intro t ht
  obtain ⟨text, -, ht⟩ := Option.bind_eq_some_iff.1 ht
  cases hread : Timestamp.readLenient text with
  | error e =>
    rw [hread] at ht
    cases ht
  | ok t' =>
    rw [hread] at ht
    cases ht
    exact Timestamp.isNamed_of_readLenient hread

theorem time?_of_memberOf
    (h : memberOf ⟨key, .optional, .time false⟩ (doc.get? key) = .ok (v.get? key)) :
    v.time? key = doc.time? key := by
  unfold time? text?
  rcases memberOf_optional h with ⟨hmember | hmember, hnone⟩ | ⟨member, found, hmember, hread, hfound⟩
  · rw [hmember, hnone]
  · rw [hmember, hnone]
    rfl
  · obtain ⟨text, t, rfl, ht, rfl⟩ := read_time hread
    have hagain := Instant.readLenient_text (Timestamp.isNamed_of_readLenient ht)
    rw [hmember, hfound]
    simp only [Option.bind_some, time, asString?, hagain, ht]

theorem int?_of_memberOf
    (h : memberOf ⟨key, .optional, .int name low high⟩ (doc.get? key) = .ok (v.get? key)) :
    v.int? key = doc.int? key := by
  unfold int?
  rcases memberOf_optional h with ⟨hmember | hmember, hnone⟩ | ⟨member, found, hmember, hread, hfound⟩
  · rw [hmember, hnone]
  · rw [hmember, hnone]
    rfl
  · obtain ⟨n, rfl, -, -, rfl⟩ := read_int hread
    rw [hmember, hfound]

theorem text?_of_memberOf
    (h : memberOf ⟨key, .optional, .string⟩ (doc.get? key) = .ok (v.get? key)) :
    v.text? key = doc.text? key := by
  unfold text?
  rcases memberOf_optional h with ⟨hmember | hmember, hnone⟩ | ⟨member, found, hmember, hread, hfound⟩
  · rw [hmember, hnone]
  · rw [hmember, hnone]
    rfl
  · obtain ⟨text, rfl, rfl⟩ := read_string hread
    rw [hmember, hfound]

/-- A number that may be missing, but not null, is the default one then. -/
theorem intOr_of_memberOf {n : Int}
    (h : memberOf ⟨key, .byDefault (.int n), .int name low high⟩ (doc.get? key) = .ok (v.get? key)) :
    (v.int? key).getD n = (doc.int? key).getD n := by
  unfold int?
  cases hmember : doc.get? key with
  | none =>
    rw [hmember] at h
    rw [← Except.ok.inj h]
    rfl
  | some member =>
    rw [hmember] at h
    rcases memberOf_some h with ⟨-, hnull, -⟩ | ⟨found, hread, hfound⟩
    · cases hnull
    · obtain ⟨m, rfl, -, -, rfl⟩ := read_int hread
      rw [hfound]
      rfl

/-- The members of a patch take the place of those of the base. -/
theorem get?_merge_of_nodup {base patch : Json} (hbase : (Keyed.keys base.members).Nodup)
    (hpatch : (Keyed.keys patch.members).Nodup) :
    (base.merge patch).get? key = (patch.get? key).or (base.get? key) := by
  have hget (j : Json) : j.get? key = Keyed.get? key j.members := by
    cases j <;> rfl
  rw [merge, get?_ofMembers, Keyed.get?_ofList_append, Keyed.get?_ofList hbase,
    Keyed.get?_ofList hpatch, hget, hget]

/-- A time after a merge is that of the patch, or else that of the base. -/
theorem time?_merge {base patch : Json} {written : Option Instant}
    (hbase : (Keyed.keys base.members).Nodup) (hpatch : (Keyed.keys patch.members).Nodup)
    (hwritten : ∀ t ∈ written, t.IsNamed) (hkey : patch.get? key = written.map time) :
    (base.merge patch).time? key = written.or (base.time? key) := by
  cases written with
  | none =>
    unfold time? text?
    rw [get?_merge_of_nodup hbase hpatch, hkey]
    rfl
  | some t =>
    refine time?_of_get? hwritten ?_
    rw [get?_merge_of_nodup hbase hpatch, hkey]
    rfl

end Json

/-! ## Documents of a status -/

namespace ScheduleStatus
variable {members : List (String × Json)} {status : ScheduleStatus} {doc patch : Json}

open Shape

/-- Each field of a status can be read in a document. -/
def IsReadable (doc : Json) : Prop :=
  ∀ e ∈ shape.entries, ∃ value, memberOf e (doc.get? e.key) = .ok value

theorem nodup_entries : (shape.entries.map Entry.key).Nodup := by decide

/-- A status that is read has what stands in its document. -/
theorem eq_of_ofJson (hmembers : (Keyed.keys members).Nodup)
    (h : Codec.ofJson (.object members) = .ok status) :
    IsReadable (.object members) ∧ status = Codec.ofNormal (.object members) := by
  change (do return Codec.ofNormal (← shape.read .value (Json.object members).toNode)) =
    Except.ok status at h
  cases hread : shape.read .value (Json.object members).toNode with
  | error x =>
    rw [hread] at h
    cases h
  | ok v =>
    rw [hread] at h
    obtain rfl := Except.ok.inj h
    have hmember : ∀ e ∈ shape.entries,
        memberOf e ((Json.object members).get? e.key) = .ok (v.get? e.key) :=
      memberOf_of_read nodup_entries hmembers hread
    refine ⟨fun e he => ⟨_, hmember e he⟩, ?_⟩
    simp only [entries, shape, List.forall_mem_cons] at hmember
    obtain ⟨hdown, hup, hcleanup, hreplicas, hcleanedUp, hmessage, hgeneration, -⟩ := hmember
    change ScheduleStatus.mk _ _ _ _ _ _ _ = ScheduleStatus.mk _ _ _ _ _ _ _
    rw [Json.time?_of_memberOf hdown, Json.time?_of_memberOf hup, Json.time?_of_memberOf hcleanup,
      Json.intOr_of_memberOf hreplicas, Json.intOr_of_memberOf hcleanedUp,
      Json.text?_of_memberOf hmessage, Json.int?_of_memberOf hgeneration]

/-- An object in which each field can be read is read as a status. -/
theorem exists_ofJson (hmembers : (Keyed.keys members).Nodup) (h : IsReadable (.object members)) :
    ∃ status : ScheduleStatus, Codec.ofJson (.object members) = .ok status := by
  obtain ⟨v, hv⟩ : ∃ v, shape.read .value (Json.object members).toNode = .ok v :=
    exists_read nodup_entries hmembers h
  refine ⟨Codec.ofNormal v, ?_⟩
  change (do return Codec.ofNormal (← shape.read .value (Json.object members).toNode)) = _
  rw [hv]
  rfl

/-- The times that are read can be written. -/
theorem hasNamedTimes_ofNormal (doc : Json) : (Codec.ofNormal doc : ScheduleStatus).HasNamedTimes :=
  ⟨Json.isNamed_of_time?, Json.isNamed_of_time?, Json.isNamed_of_time?⟩

/-- A merge of what can be read can be read. -/
theorem isReadable_merge (hdoc : (Keyed.keys doc.members).Nodup)
    (hpatch : (Keyed.keys patch.members).Nodup) (hreadable : IsReadable doc)
    (hread : IsReadable patch) : IsReadable (doc.merge patch) := by
  intro e he
  rw [Json.get?_merge_of_nodup hdoc hpatch]
  cases hmember : patch.get? e.key with
  | none => exact hreadable e he
  | some v =>
    rw [Option.some_or, ← hmember]
    exact hread e he

/-- The numbers of a patch fit the words that they are read into. -/
structure FitsWords (patch : StatusPatch) : Prop where
  replicas : ∀ n ∈ patch.replicas, Word.low32 ≤ n ∧ n ≤ Word.high32
  cleanedUp : ∀ n ∈ patch.cleanedUp, Word.low32 ≤ n ∧ n ≤ Word.high32
  generation : ∀ n ∈ patch.generation, Word.low64 ≤ n ∧ n ≤ Word.high64

/-- A patch can be read if its times can be written and its numbers fit. -/
theorem isReadable_toJson {patch : StatusPatch} (hnamed : patch.HasNamedTimes)
    (hfits : FitsWords patch) : IsReadable patch.toJson := by
  have hget (key : String) : patch.toJson.get? key = (patch.members.get? key).join :=
    Json.get?_record (nodup_statusMembers ..)
  have htime {t : Option Instant} (ht : ∀ t' ∈ t, t'.IsNamed) :
      ∀ v ∈ t.map Json.time, v ≠ .null ∧
        ∃ found, read .value (.time false) v.toNode = .ok found := by
    intro v hv
    obtain ⟨t', ht', rfl⟩ := Option.map_eq_some_iff.1 hv
    exact ⟨Json.noConfusion, _, read_of_time (ht t' ht')⟩
  have hint {name : String} {low high : Int} {n : Option Int}
      (hn : ∀ n' ∈ n, low ≤ n' ∧ n' ≤ high) :
      ∀ v ∈ n.map Json.int, v ≠ .null ∧
        ∃ found, read .value (.int name low high) v.toNode = .ok found := by
    intro v hv
    obtain ⟨n', hn', rfl⟩ := Option.map_eq_some_iff.1 hv
    exact ⟨Json.noConfusion, _, read_of_int (hn n' hn')⟩
  have htext : ∀ v ∈ patch.message.map Json.string, v ≠ .null ∧
      ∃ found, read .value .string v.toNode = .ok found := by
    intro v hv
    obtain ⟨text, -, rfl⟩ := Option.map_eq_some_iff.1 hv
    exact ⟨Json.noConfusion, _, rfl⟩
  simp only [IsReadable, entries, shape, List.forall_mem_cons, hget]
  exact ⟨exists_memberOf ⟨_, rfl⟩ (htime hnamed.scaleDown),
    exists_memberOf ⟨_, rfl⟩ (htime hnamed.scaleUp),
    exists_memberOf ⟨_, rfl⟩ (htime hnamed.cleanup),
    exists_memberOf ⟨_, rfl⟩ (hint hfits.replicas),
    exists_memberOf ⟨_, rfl⟩ (hint hfits.cleanedUp),
    exists_memberOf ⟨_, rfl⟩ htext,
    exists_memberOf ⟨_, rfl⟩ (hint hfits.generation),
    fun e he => absurd he List.not_mem_nil⟩

end ScheduleStatus

end ScheduledScaling
