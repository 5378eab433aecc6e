import ScheduledScaling.Proofs.Decoding
/-!
# Normal forms of values

A shape that is read gives a value in normal form (`Shape.normal_of_read`), whether the value stood in
a text or was read before, and a record as members or as a list. A value in normal form is read as
itself: `Shape.read_of_normal`. So a type whose encodings are in normal form, and that is what is read
from them, survives being written and read (`Codec.Survives.ofJson_toJson`).
-/
namespace ScheduledScaling

namespace Shape

/-! ## Normal forms -/

/-- The values in normal form of a shape. -/
inductive Normal : Shape → Json → Prop
  | string (s : String) : Normal .string (.string s)
  | bool (b : Bool) : Normal .bool (.bool b)
  | int {name : String} {low high n : Int} : low ≤ n ∧ n ≤ high →
      Normal (.int name low high) (.int n)
  | time {t : Instant} : t.IsNamed → Normal (.time false) (.time t)
  | list {item : Shape} {items : List Json} : (∀ v ∈ items, Normal item v) →
      Normal (.list item) (.array items)
  | map {value : Shape} {members : Keyed Json} : members.IsSorted →
      (∀ member ∈ members, Normal value member.2) → Normal (.map value) (.object members)
  | record {name : String} {entries : List (Entry Shape)} {members : Keyed Json} :
      members.IsSorted → (∀ key ∈ members.keys, key ∈ entries.map Entry.key) →
      (∀ e ∈ entries, ∀ v, members.get? e.key = some v → isHidden e.presence v = false) →
      (∀ e ∈ entries, ∀ v, members.get? e.key = some v → Normal e.shape v) →
      (∀ e ∈ entries, members.get? e.key = none → absent e 0 = .ok none) →
      Normal (.record name .strict entries) (.object members)

/-- The value that a field takes when it is missing or null. -/
def default? : Presence → Option Json
  | .byDefault v | .filled v | .requiredOrNull v => some v
  | _ => none

/-- The shapes whose values have a normal form: those of plain values, and lists, maps and strict
records of such, whose fields have names of their own and defaults in normal form. -/
inductive HasNormals : Shape → Prop
  | string : HasNormals .string
  | bool : HasNormals .bool
  | int {name : String} {low high : Int} : HasNormals (.int name low high)
  | time : HasNormals (.time false)
  | list {item : Shape} : HasNormals item → HasNormals (.list item)
  | map {value : Shape} : HasNormals value → HasNormals (.map value)
  | record {name : String} {entries : List (Entry Shape)} : (entries.map Entry.key).Nodup →
      (∀ e ∈ entries, HasNormals e.shape) →
      (∀ e ∈ entries, ∀ v, default? e.presence = some v → Normal e.shape v) →
      HasNormals (.record name .strict entries)

variable {shape : Shape} {source : Source} {v : Json}

theorem Normal.ne_null (h : Normal shape v) : v ≠ .null := by
  cases h <;> exact Json.noConfusion

/-! ## Plain values -/

theorem normal_of_readNumber {n : JsonNumber} {name : String} {low high : Int} {start stop : Nat}
    (h : readNumber (.int name low high) n start stop = .ok v) : Normal (.int name low high) v := by
  cases n with
  | double negative magnitude => cases h
  | integer k =>
    rw [readNumber] at h
    dsimp only at h
    split at h
    · rename_i hk
      rw [← Except.ok.inj h]
      exact .int hk
    · cases h

theorem normal_of_readTime {s : String} {stop : Nat}
    (h : readString (.time false) s stop = .ok v) : Normal (.time false) v := by
  rw [readString] at h
  cases ht : Timestamp.readLenient s with
  | error e =>
    rw [ht] at h
    cases h
  | ok t =>
    rw [ht] at h
    rw [← Except.ok.inj h]
    exact .time (Timestamp.isNamed_of_readLenient ht)

/-! ## Lists and maps -/

/-- Items that are read are in normal form if each of them is. -/
theorem normal_of_readItems {item : Shape}
    (hitem : ∀ node v, read source item node = .ok v → Normal item v) :
    ∀ (nodes : Nodes) (vs : List Json), readItems source item nodes = .ok vs →
      ∀ v ∈ vs, Normal item v
  | .done stop, vs, h => by
    rw [readItems] at h
    cases h
    exact fun v hv => absurd hv List.not_mem_nil
  | .fault f, vs, h => by
    rw [readItems] at h
    cases h
  | .cons node ending rest, vs, h => by
    rw [readItems] at h
    cases hfirst : read source item node with
    | error x =>
      rw [hfirst] at h
      cases h
    | ok v =>
      cases hrest : readItems source item rest with
      | error x =>
        rw [hfirst, hrest] at h
        cases h
      | ok others =>
        rw [hfirst, hrest] at h
        cases h
        exact List.forall_mem_cons.2
          ⟨hitem node v hfirst, normal_of_readItems hitem rest others hrest⟩

theorem normal_of_readMap {value : Shape}
    (hvalue : ∀ node v, read source value node = .ok v → Normal value v) :
    ∀ (nodes : NodeMembers) (members : List (String × Json)),
      readMap source value nodes = .ok members → ∀ member ∈ members, Normal value member.2
  | .done stop, members, h => by
    rw [readMap] at h
    cases h
    exact fun member hmember => absurd hmember List.not_mem_nil
  | .fault f, members, h => by
    rw [readMap] at h
    cases h
  | .cons key keyStop afterKey node afterValue rest, members, h => by
    rw [readMap] at h
    cases hfirst : read source value node with
    | error x =>
      rw [hfirst] at h
      cases h
    | ok v =>
      cases hrest : readMap source value rest with
      | error x =>
        rw [hfirst, hrest] at h
        cases h
      | ok others =>
        rw [hfirst, hrest] at h
        cases h
        exact List.forall_mem_cons.2
          ⟨hvalue node v hfirst, normal_of_readMap hvalue rest others hrest⟩

/-! ## Fields of records -/

/-- What may be read for a field: a value in normal form, or a null that is accepted. -/
def IsField (e : Entry Shape) : Option Json → Prop
  | some v => Normal e.shape v
  | none => acceptsNull e.presence = true

/-- Each field that was read is one of the record. -/
def AreFields (entries : List (Entry Shape)) (fields : Fields) : Prop :=
  ∀ field ∈ fields, ∃ e ∈ entries, e.key = field.1 ∧ IsField e field.2

variable {name : String} {entries : List (Entry Shape)} {fields found : Fields} {stop : Nat}

theorem isField_of_nullable {e : Entry Shape} {node : Node} {result : Except DecodeError Json}
    {read? : Option Json} (hread : ∀ v, result = .ok v → Normal e.shape v)
    (h : nullable e node result = .ok read?) : IsField e read? := by
  have hvalue (h : some <$> result = .ok read?) : IsField e read? := by
    cases result with
    | error x => cases h
    | ok v =>
      cases h
      exact hread v rfl
  cases node with
  | null start stop =>
    rw [nullable] at h
    split at h
    · rename_i hnull
      cases h
      exact hnull
    · exact hvalue h
  | _ => exact hvalue h

theorem AreFields.nil : AreFields entries [] := fun _ hfield => absurd hfield List.not_mem_nil

theorem AreFields.cons {e : Entry Shape} {read? : Option Json} (he : e ∈ entries)
    (hfield : IsField e read?) (h : AreFields entries fields) :
    AreFields entries ((e.key, read?) :: fields) :=
  List.forall_mem_cons.2 ⟨⟨e, he, rfl, hfield⟩, h⟩

theorem AreFields.of_cons {first : Entry Shape} (h : AreFields entries fields) :
    AreFields (first :: entries) fields := by
  intro field hfield
  obtain ⟨e, he, hkey⟩ := h field hfield
  exact ⟨e, List.mem_cons_of_mem _ he, hkey⟩

theorem fields_of_endPositional {size index : Nat} {fields : Fields} {stop stop' : Nat}
    (h : endPositional name size stop index entries = .ok (fields, stop')) : fields = [] := by
  induction entries generalizing index with
  | nil =>
    cases h
    rfl
  | cons e rest ih =>
    rw [endPositional] at h
    split at h
    · cases h
    · cases h
    · cases h
    · exact ih h

/-- A record that is written as a list has fields of its own. -/
theorem areFields_of_readPositional {size : Nat} :
    ∀ (nodes : Nodes) (index : Nat) (entries : List (Entry Shape)) (fields : Fields) (stop : Nat),
      (∀ e ∈ entries, ∀ node v, read source e.shape node = .ok v → Normal e.shape v) →
      readPositional source name size index entries nodes = .ok (fields, stop) →
      AreFields entries fields
  | .fault f, index, entries, fields, stop, _, h => by
    rw [readPositional] at h
    cases h
  | .done offset, index, entries, fields, stop, _, h => by
    rw [readPositional] at h
    obtain rfl := fields_of_endPositional h
    exact .nil
  | .cons node ending rest, index, [], fields, stop, _, h => by
    rw [readPositional] at h
    cases hend : afterLast source index ending (.cons node ending rest) with
    | error x =>
      rw [hend] at h
      cases h
    | ok offset =>
      rw [hend] at h
      cases h
      exact .nil
  | .cons node ending rest, index, [e], fields, stop, hread, h => by
    rw [readPositional] at h
    cases hfirst : nullable e node (read source e.shape node) with
    | error x =>
      rw [hfirst] at h
      cases h
    | ok read? =>
      have hfield := isField_of_nullable (hread e List.mem_cons_self node) hfirst
      cases hend : afterLast source (index + 1) ending rest with
      | error x =>
        rw [hfirst, hend] at h
        cases h
      | ok offset =>
        rw [hfirst, hend] at h
        cases h
        exact .cons List.mem_cons_self hfield .nil
  | .cons node ending rest, index, e :: next :: later, fields, stop, hread, h => by
    rw [readPositional] at h
    rotate_left
    · exact List.cons_ne_nil _ _
    cases hfirst : nullable e node (read source e.shape node) with
    | error x =>
      rw [hfirst] at h
      cases h
    | ok read? =>
      have hfield := isField_of_nullable (hread e List.mem_cons_self node) hfirst
      cases hrest : readPositional source name size (index + 1) (next :: later) rest with
      | error x =>
        rw [hfirst, hrest] at h
        cases h
      | ok found =>
        rw [hfirst, hrest] at h
        cases h
        have hlater := areFields_of_readPositional rest (index + 1) (next :: later) found.1 found.2
          (fun e he => hread e (List.mem_cons_of_mem _ he)) hrest
        exact .cons List.mem_cons_self hfield hlater.of_cons

/-- A record that is written as members has fields of its own. -/
theorem areFields_of_readFields
    (hread : ∀ e ∈ entries, ∀ node v, read source e.shape node = .ok v → Normal e.shape v) :
    ∀ (nodes : NodeMembers) (fields found : Fields) (stop : Nat), AreFields entries fields →
      readFields source .strict entries fields nodes = .ok (found, stop) → AreFields entries found
  | .done offset, fields, found, stop, hfields, h => by
    rw [readFields] at h
    cases h
    exact hfields
  | .fault f, fields, found, stop, _, h => by
    rw [readFields] at h
    cases h
  | .cons key keyStop afterKey node afterValue rest, fields, found, stop, hfields, h => by
    rw [readFields] at h
    -- members that no field asks for are passed over
    split at h
    · exact areFields_of_readFields hread rest fields found stop hfields h
    · rename_i e hfind
      have he := List.mem_of_find?_eq_some hfind
      have hkey : e.key = key := by simpa using List.find?_some hfind
      split at h
      · cases h
      cases hfirst : moveOffset e.shape afterValue (nullable e node (read source e.shape node)) with
      | error x =>
        rw [hfirst] at h
        cases h
      | ok read? =>
        rw [hfirst] at h
        have hfield := isField_of_nullable (hread e he node) (moveOffset_eq_ok.1 hfirst)
        exact areFields_of_readFields hread rest _ found stop
          (hkey ▸ AreFields.cons he hfield hfields) h

/-! ## Records -/

/-- Where a record ends matters to errors only. -/
theorem complete_zero {out : List (String × Json)} (h : complete fields stop entries = .ok out) :
    complete fields 0 entries = .ok out := by
  have habsent (e : Entry Shape) (value : Option Json) (h : absent e stop = .ok value) :
      absent e 0 = .ok value := by
    unfold absent at h ⊢
    split at h <;> first | exact h | cases h
  induction entries generalizing out with
  | nil => exact h
  | cons e rest ih =>
    have hrest (value : Option Json) :
        (do
          let others ← complete fields stop rest
          return match value with
            | some value => (e.key, value) :: others
            | none => others) = Except.ok out →
        (do
          let others ← complete fields 0 rest
          return match value with
            | some value => (e.key, value) :: others
            | none => others) = Except.ok out := by
      intro h
      cases hothers : complete fields stop rest with
      | error x =>
        rw [hothers] at h
        cases h
      | ok others =>
        rw [hothers] at h
        rw [ih hothers]
        exact h
    rw [complete] at h
    rw [complete_cons]
    cases hlookup : fields.lookup e.key with
    | none =>
      rw [hlookup] at h
      cases hvalue : absent e stop with
      | error x =>
        rw [hvalue] at h
        cases h
      | ok value =>
        rw [hvalue] at h
        rw [normalOf, habsent e value hvalue]
        exact hrest value h
    | some read? =>
      rw [hlookup] at h
      cases read? with
      | none => exact hrest (ofNull e.presence) h
      | some v => exact hrest (if isHidden e.presence v then none else some v) h

/-- The normal form of a field: a value that is there is in normal form and not hidden, and one that
is not there may be missing. -/
theorem normalOf_cases {e : Entry Shape} {read? : Option (Option Json)} {value : Option Json}
    (hdefault : ∀ v, default? e.presence = some v → Normal e.shape v)
    (hfield : ∀ found, read? = some found → IsField e found) (h : normalOf e read? = .ok value) :
    (∀ v, value = some v → isHidden e.presence v = false ∧ Normal e.shape v) ∧
      (value = none → absent e 0 = .ok none) := by
  obtain ⟨key, presence, shape⟩ := e
  have hsome {d : Json} (hd : default? presence = some d) (hvalue : value = some d) :
      (∀ v, value = some v → isHidden presence v = false ∧ Normal shape v) ∧
        (value = none → absent ⟨key, presence, shape⟩ 0 = .ok none) := by
    refine ⟨fun v hv => ?_, fun hnone => (nomatch hvalue.symm.trans hnone)⟩
    obtain rfl := Option.some.inj (hvalue.symm.trans hv)
    refine ⟨?_, hdefault d hd⟩
    cases presence <;> first | rfl | cases hd
  have hnone (habsent : absent ⟨key, presence, shape⟩ 0 = .ok none) (hvalue : value = none) :
      (∀ v, value = some v → isHidden presence v = false ∧ Normal shape v) ∧
        (value = none → absent ⟨key, presence, shape⟩ 0 = .ok none) :=
    ⟨fun v hv => (nomatch hvalue.symm.trans hv), fun _ => habsent⟩
  cases read? with
  | none =>
    change absent ⟨key, presence, shape⟩ 0 = .ok value at h
    cases presence with
    | required | requiredOrNull d => cases h
    | optional | optionalKeyed | hiddenDefault d => exact hnone rfl (Except.ok.inj h).symm
    | byDefault d | filled d => exact hsome rfl (Except.ok.inj h).symm
  | some found =>
    have hfound : IsField ⟨key, presence, shape⟩ found := hfield found rfl
    cases found with
    | none =>
      change Except.ok (ofNull presence) = .ok value at h
      cases presence with
      | required | byDefault d | hiddenDefault d => cases hfound
      | optional | optionalKeyed => exact hnone rfl (Except.ok.inj h).symm
      | filled d | requiredOrNull d => exact hsome rfl (Except.ok.inj h).symm
    | some v =>
      have hvalue := (Except.ok.inj h).symm
      split at hvalue
      · rename_i hhidden
        refine hnone ?_ hvalue
        cases presence with
        | hiddenDefault d => rfl
        | _ => cases hhidden
      · rename_i hshown
        refine ⟨fun v' hv' => ?_, fun hnone => (nomatch hvalue.symm.trans hnone)⟩
        obtain rfl := Option.some.inj (hvalue.symm.trans hv')
        exact ⟨by simpa using hshown, hfound⟩

/-- The fields of a record make one in normal form, if they can be completed. -/
theorem normal_of_complete {out : List (String × Json)} (hkeys : (entries.map Entry.key).Nodup)
    (hdefault : ∀ e ∈ entries, ∀ v, default? e.presence = some v → Normal e.shape v)
    (hfields : AreFields entries fields) (h : complete fields stop entries = .ok out) :
    Normal (.record name .strict entries) (.ofMembers out) := by
  obtain ⟨hsub, hget⟩ := get?_complete hkeys (complete_zero h)
  have hmember (key : String) : (Keyed.ofList out).get? key = Keyed.get? key out :=
    Keyed.get?_ofList (hsub.nodup hkeys)
  have hfield (e : Entry Shape) (he : e ∈ entries) (read? : Option Json)
      (hread : fields.lookup e.key = some read?) : IsField e read? := by
    obtain ⟨before, after, rfl, -⟩ := List.lookup_eq_some_iff.1 hread
    obtain ⟨e', he', hkey, hfield⟩ :=
      hfields _ (List.mem_append_right before List.mem_cons_self)
    -- the field was read for some entry of its key, which is this one
    have hfirst := find?_of_mem hkeys he'
    rw [hkey] at hfirst
    exact Option.some.inj (hfirst.symm.trans (find?_of_mem hkeys he)) ▸ hfield
  have hcases (e : Entry Shape) (he : e ∈ entries) :=
    normalOf_cases (hdefault e he) (hfield e he) (hget e he)
  refine .record (Keyed.isSorted_ofList out) (fun key hkey => ?_) (fun e he v hv => ?_)
    (fun e he v hv => ?_) fun e he hnone => ?_
  · obtain ⟨pair, hpair, rfl⟩ := List.mem_map.1 hkey
    exact hsub.subset (List.mem_map_of_mem (Keyed.mem_ofList hpair))
  · exact ((hcases e he).1 v ((hmember _).symm.trans hv)).1
  · exact ((hcases e he).1 v ((hmember _).symm.trans hv)).2
  · exact (hcases e he).2 ((hmember _).symm.trans hnone)

/-- What is read of a shape with normal forms is in normal form. -/
theorem normal_of_read (hshape : HasNormals shape) :
    ∀ (node : Node) (v : Json), read source shape node = .ok v → Normal shape v := by
  induction hshape with
  | string =>
    intro node v h
    cases node with
    | string s start stop => exact (Except.ok.inj h) ▸ .string s
    | number n start stop => cases n <;> cases h
    | _ => cases h
  | bool =>
    intro node v h
    cases node with
    | bool b start stop => exact (Except.ok.inj h) ▸ .bool b
    | number n start stop => cases n <;> cases h
    | _ => cases h
  | int =>
    intro node v h
    cases node with
    | number n start stop =>
      rw [read] at h
      exact normal_of_readNumber h
    | _ => cases h
  | time =>
    intro node v h
    cases node with
    | string s start stop =>
      rw [read] at h
      exact normal_of_readTime h
    | number n start stop => cases n <;> cases h
    | _ => cases h
  | list _ ih =>
    intro node v h
    cases node with
    | array start opened items =>
      rw [read] at h
      cases hitems : readItems source _ items with
      | error x =>
        rw [hitems] at h
        cases h
      | ok vs =>
        rw [hitems] at h
        cases h
        exact .list (normal_of_readItems ih items vs hitems)
    | number n start stop => cases n <;> cases h
    | _ => cases h
  | map _ ih =>
    intro node v h
    cases node with
    | object start opened members =>
      rw [read] at h
      cases hmembers : readMap source _ members with
      | error x =>
        rw [hmembers] at h
        cases h
      | ok pairs =>
        rw [hmembers] at h
        cases h
        have hnormal := normal_of_readMap ih members pairs hmembers
        exact .map (Keyed.isSorted_ofList pairs) fun member hmember =>
          hnormal member (Keyed.mem_ofList hmember)
    | number n start stop => cases n <;> cases h
    | _ => cases h
  | @record name entries hkeys _ hdefault ih =>
    intro node v h
    have hrecord {fields : Fields} {stop : Nat} (hfields : AreFields entries fields)
        (h : recordOf fields stop entries = .ok v) : Normal (.record name .strict entries) v := by
      unfold recordOf at h
      cases hout : complete fields stop entries with
      | error x =>
        rw [hout] at h
        cases h
      | ok out =>
        rw [hout] at h
        cases h
        exact normal_of_complete hkeys hdefault hfields hout
    cases node with
    | array start opened items =>
      rw [read] at h
      cases hfields : readPositional source name entries.length 0 entries items with
      | error x =>
        rw [hfields] at h
        cases h
      | ok found =>
        rw [hfields] at h
        exact hrecord (areFields_of_readPositional items 0 entries found.1 found.2 ih hfields) h
    | object start opened members =>
      rw [read] at h
      cases hfields : readFields source .strict entries [] members with
      | error x =>
        rw [hfields] at h
        cases h
      | ok found =>
        rw [hfields] at h
        exact hrecord (areFields_of_readFields ih members [] found.1 found.2 .nil hfields) h
    | number n start stop => cases n <;> cases h
    | _ => cases h

/-! ## Reading normal forms -/

theorem readItems_toNodes {item : Shape} {items : List Json}
    (h : ∀ v ∈ items, read .value item v.toNode = .ok v) :
    readItems .value item (Json.toNodes items) = .ok items := by
  induction items with
  | nil => rw [Json.toNodes, readItems]
  | cons v rest ih =>
    obtain ⟨hv, hrest⟩ := List.forall_mem_cons.1 h
    rw [Json.toNodes, readItems, hv, ih hrest]
    rfl

theorem readMap_toNodeMembers {value : Shape} {members : List (String × Json)}
    (h : ∀ member ∈ members, read .value value member.2.toNode = .ok member.2) :
    readMap .value value (Json.toNodeMembers members) = .ok members := by
  induction members with
  | nil => rw [Json.toNodeMembers, readMap]
  | cons member rest ih =>
    obtain ⟨key, v⟩ := member
    obtain ⟨hv, hrest⟩ := List.forall_mem_cons.1 h
    rw [Json.toNodeMembers, readMap, hv, ih hrest]
    rfl

/-- Records in normal form with the same fields are the same. -/
theorem Normal.ext {members : Keyed Json} (h : Normal (.record name .strict entries) (.object members))
    (h' : Normal (.record name .strict entries) v)
    (hget : ∀ e ∈ entries, members.get? e.key = v.get? e.key) : v = .object members := by
  cases h with
  | record hsorted hkeys =>
    cases h' with
    | @record _ _ members' hsorted' hkeys' =>
      refine congrArg Json.object (Keyed.ext_of_isSorted hsorted' hsorted fun key => ?_)
      by_cases hkey : key ∈ entries.map Entry.key
      · obtain ⟨e, he, rfl⟩ := List.mem_map.1 hkey
        exact (hget e he).symm
      · rw [Keyed.get?_eq_none fun hmem => hkey (hkeys key hmem),
          Keyed.get?_eq_none fun hmem => hkey (hkeys' key hmem)]

/-- A value in normal form is read as itself. -/
theorem read_of_normal (h : Normal shape v) (hshape : HasNormals shape) :
    read .value shape v.toNode = .ok v := by
  induction h with
  | string s => rfl
  | bool b => rfl
  | int hn => exact read_of_int hn
  | time ht => exact read_of_time ht
  | list _ ih =>
    cases hshape with
    | list hitem =>
      rw [Json.toNode, read, readItems_toNodes fun v hv => ih v hv hitem]
      rfl
  | map hsorted _ ih =>
    cases hshape with
    | map hvalue =>
      rw [Json.toNode, read, readMap_toNodeMembers fun member hmember => ih member hmember hvalue]
      exact congrArg (Except.ok ∘ Json.object) (Keyed.ofList_eq_self hsorted)
  | @record name entries members hsorted hkeys hshown hnormal habsent ih =>
    have hrecord : Normal (.record name .strict entries) (.object members) :=
      .record hsorted hkeys hshown hnormal habsent
    have hnormals := hshape
    cases hshape with
    | record hentries hshapes _ =>
      have hmember (e : Entry Shape) (he : e ∈ entries) :
          memberOf e (Keyed.get? e.key members) = .ok (Keyed.get? e.key members) := by
        cases hget : Keyed.get? e.key members with
        | none => exact habsent e he hget
        | some v =>
          rw [memberOf_eq_ok (ih e he v hget (hshapes e he)) (hnormal e he v hget).ne_null,
            hshown e he v hget]
          rfl
      -- Each field is read as itself or is missing, so the record is read, with the same fields.
      obtain ⟨v, hv⟩ := exists_read hentries hsorted.nodup fun e he => ⟨_, hmember e he⟩
      have hget := memberOf_of_read hentries hsorted.nodup hv
      have hsame : v = .object members := hrecord.ext (normal_of_read hnormals _ v hv) fun e he =>
        Except.ok.inj ((hmember e he).symm.trans (hget e he))
      rw [hv, hsame]

/-- What is read from a text is in normal form. -/
theorem normal_of_readText {text : String} (hshape : HasNormals shape)
    (h : readText shape text = .ok v) : Normal shape v := by
  unfold readText at h
  dsimp only at h
  cases hread : read .text shape (Document.read text).root with
  | error x =>
    rw [hread] at h
    cases h
  | ok n =>
    rw [hread] at h
    cases htrailing : (Document.read text).trailing with
    | some f =>
      rw [htrailing] at h
      cases h
    | none =>
      rw [htrailing] at h
      exact (Except.ok.inj h) ▸ normal_of_read hshape _ n hread

end Shape

/-! ## Types that survive -/

namespace Codec
variable {α : Type} [Codec α]

/-- The values of a type that are proper survive: their encodings are in normal form, the value is what
is read from there, and what is read from any normal form is proper. -/
structure Survives (α : Type) [Codec α] (proper : α → Prop) : Prop where
  hasNormals : (shape α).HasNormals
  normal : ∀ a : α, proper a → (shape α).Normal (toJson a)
  back : ∀ a : α, proper a → ofNormal (toJson a) = a
  proper : ∀ v, (shape α).Normal v → proper (ofNormal v)

variable {proper : α → Prop} {a : α}

/-- A value that is written and read is the same. -/
theorem Survives.ofJson_toJson (h : Survives α proper) (ha : proper a) :
    ofJson (toJson a) = .ok a := by
  unfold ofJson
  rw [Shape.read_of_normal (h.normal a ha) h.hasNormals]
  exact congrArg Except.ok (h.back a ha)

/-- A value that is read, from another value or from a text, is proper. -/
theorem Survives.proper_of_ofJson (h : Survives α proper) {v : Json} (hv : ofJson v = .ok a) :
    proper a := by
  unfold ofJson at hv
  cases hread : (shape α).read .value v.toNode with
  | error x =>
    rw [hread] at hv
    cases hv
  | ok n =>
    rw [hread] at hv
    exact (Except.ok.inj hv) ▸ h.proper n (Shape.normal_of_read h.hasNormals _ n hread)

theorem Survives.proper_of_ofText (h : Survives α proper) {text : String}
    (htext : ofText text = .ok a) : proper a := by
  unfold ofText at htext
  cases hread : (shape α).readText text with
  | error x =>
    rw [hread] at htext
    cases htext
  | ok n =>
    rw [hread] at htext
    exact (Except.ok.inj htext) ▸ h.proper n (Shape.normal_of_readText h.hasNormals hread)

end Codec

end ScheduledScaling
