import Chahua.Api.SnowflakeId
import Mathlib.Logic.Relation

namespace Chahua.Api

inductive Json where
  | null
  | bool (value : Bool)
  | number (value : Double)
  | string (value : String)
  | array (items : List Json)
  | object (entries : List (String × Json))

/-- `0`, `1`, the name of a schema, the codec of an array's items, or the codecs of fields. -/
inductive JsonCodec where
  | plain
  | id
  | schema (name : String)
  | array (item : JsonCodec)
  | fields (fields : List (String × JsonCodec))

abbrev Schemas := List (String × JsonCodec)

/-- The codec of the items when the value is an array. -/
def JsonCodec.item : JsonCodec → JsonCodec
  | .array item => item
  | _ => .plain

/-- The codecs by key when the value is an object: an array codec has the key `0`. -/
def JsonCodec.keys : JsonCodec → List (String × JsonCodec)
  | .array item => [("0", item)]
  | .fields codecs => codecs
  | _ => []

/-- Follows schema names as often as the fuel allows; an absent or empty name converts nothing. -/
def resolveWith (schemas : Schemas) : Nat → JsonCodec → Option JsonCodec
  | 0, .schema name => if name = "" then some .plain else none
  | fuel + 1, .schema name =>
    if name = "" then some .plain
    else
      match schemas.lookup name with
      | none => some .plain
      | some codec => resolveWith schemas fuel codec
  | _, codec => some codec

/-- The codec behind schema names, if following them ends. -/
def resolve (schemas : Schemas) (codec : JsonCodec) : Option JsonCodec :=
  resolveWith schemas (schemas.length + 1) codec

def convertId (outbound : Bool) : Json → Option Json
  | .number id => some (if outbound then .string (decodeId id) else .number id)
  | .string id => if outbound then some (.string id) else (encodeId id).map .number
  | value => some value

def convertScalar (schemas : Schemas) (outbound : Bool) (value : Json) (codec : JsonCodec) :
    Option Json :=
  match resolve schemas codec with
  | none => none
  | some .id => convertId outbound value
  | some _ => some value

mutual

def convertJson (schemas : Schemas) (outbound : Bool) : Json → JsonCodec → Option Json
  | .null, _ => some .null
  | .array items, codec =>
    match resolve schemas codec with
    | none => none
    | some .plain => some (.array items)
    | some .id => convertId outbound (.array items)
    | some codec => (convertItems schemas outbound items codec.item).map .array
  | .object entries, codec =>
    match resolve schemas codec with
    | none => none
    | some .plain => some (.object entries)
    | some .id => convertId outbound (.object entries)
    | some codec => (convertEntries schemas outbound entries codec.keys).map .object
  | .bool value, codec => convertScalar schemas outbound (.bool value) codec
  | .number value, codec => convertScalar schemas outbound (.number value) codec
  | .string value, codec => convertScalar schemas outbound (.string value) codec

def convertItems (schemas : Schemas) (outbound : Bool) : List Json → JsonCodec → Option (List Json)
  | [], _ => some []
  | value :: rest, codec =>
    match convertJson schemas outbound value codec with
    | none => none
    | some value => (convertItems schemas outbound rest codec).map (value :: ·)

def convertEntries (schemas : Schemas) (outbound : Bool) :
    List (String × Json) → List (String × JsonCodec) → Option (List (String × Json))
  | [], _ => some []
  | (key, value) :: rest, fields =>
    match convertJson schemas outbound value ((fields.lookup key).getD .plain) with
    | none => none
    | some value => (convertEntries schemas outbound rest fields).map ((key, value) :: ·)

end

def encodeJsonIds (schemas : Schemas) (value : Json) (codec : JsonCodec) : Option Json :=
  convertJson schemas false value codec

def decodeJsonIds (schemas : Schemas) (value : Json) (codec : JsonCodec) : Option Json :=
  convertJson schemas true value codec

mutual

/-- Every value at an ID position of the codec has the property. -/
def AtIds (schemas : Schemas) (P : Json → Prop) : Json → JsonCodec → Prop
  | .array items, codec =>
    match resolve schemas codec with
    | none => True
    | some .id => P (.array items)
    | some codec => AtItemIds schemas P items codec.item
  | .object entries, codec =>
    match resolve schemas codec with
    | none => True
    | some .id => P (.object entries)
    | some codec => AtEntryIds schemas P entries codec.keys
  | .null, codec => resolve schemas codec = some .id → P .null
  | .bool value, codec => resolve schemas codec = some .id → P (.bool value)
  | .number value, codec => resolve schemas codec = some .id → P (.number value)
  | .string value, codec => resolve schemas codec = some .id → P (.string value)

def AtItemIds (schemas : Schemas) (P : Json → Prop) : List Json → JsonCodec → Prop
  | [], _ => True
  | value :: rest, codec => AtIds schemas P value codec ∧ AtItemIds schemas P rest codec

def AtEntryIds (schemas : Schemas) (P : Json → Prop) :
    List (String × Json) → List (String × JsonCodec) → Prop
  | [], _ => True
  | (key, value) :: rest, fields =>
    AtIds schemas P value ((fields.lookup key).getD .plain) ∧ AtEntryIds schemas P rest fields

end

mutual

/-- The values differ at most in strings at ID positions that became numbers. -/
def SameOutsideIds (schemas : Schemas) : Json → Json → JsonCodec → Prop
  | .array items, w, codec =>
    match resolve schemas codec with
    | none => w = .array items
    | some .id | some .plain => w = .array items
    | some codec => ∃ items', w = .array items' ∧ SameItems schemas items items' codec.item
  | .object entries, w, codec =>
    match resolve schemas codec with
    | none => w = .object entries
    | some .id | some .plain => w = .object entries
    | some codec => ∃ entries', w = .object entries' ∧ SameEntries schemas entries entries' codec.keys
  | .string id, w, codec =>
    w = .string id ∨ resolve schemas codec = some .id ∧ ∃ number, w = .number number
  | .null, w, _ => w = .null
  | .bool value, w, _ => w = .bool value
  | .number value, w, _ => w = .number value

def SameItems (schemas : Schemas) : List Json → List Json → JsonCodec → Prop
  | [], ws, _ => ws = []
  | value :: rest, ws, codec =>
    ∃ w rest', ws = w :: rest' ∧ SameOutsideIds schemas value w codec ∧ SameItems schemas rest rest' codec

def SameEntries (schemas : Schemas) :
    List (String × Json) → List (String × Json) → List (String × JsonCodec) → Prop
  | [], ws, _ => ws = []
  | (key, value) :: rest, ws, fields =>
    ∃ w rest', ws = (key, w) :: rest' ∧
      SameOutsideIds schemas value w ((fields.lookup key).getD .plain) ∧
      SameEntries schemas rest rest' fields

end

variable {schemas : Schemas}

/-- An id that the codec can carry: a canonical decimal below `2 ^ 63`. -/
def CanonicalId (value : Json) : Prop :=
  ∀ id, value = .string id → ∃ n < 2 ^ 63, id = toString n

def NotNumber (value : Json) : Prop := ∀ id, value ≠ .number id

/-- The schema of the first name is the second name. -/
def Aliases (schemas : Schemas) (a b : String) : Prop := schemas.lookup a = some (.schema b)

/-- No schema names itself through names alone. -/
def NoAliasCycles (schemas : Schemas) : Prop :=
  ∀ name, ¬ Relation.TransGen (Aliases schemas) name name

/-- Running out of fuel takes a path of that many names of the table, each an alias of the next. -/
theorem path_of_resolveWith {fuel : Nat} {name : String}
    (h : resolveWith schemas fuel (.schema name) = none) :
    ∃ path : List String, path.length = fuel ∧
      (∀ x ∈ path, x ∈ schemas.map Prod.fst ∧ Relation.ReflTransGen (Aliases schemas) name x) ∧
      path.Pairwise (Relation.TransGen (Aliases schemas)) := by
  induction fuel generalizing name with
  | zero => exact ⟨[], rfl, by simp, .nil⟩
  | succ fuel ih =>
    rw [resolveWith] at h
    split at h
    · cases h
    · cases hlookup : schemas.lookup name with
      | none => simp [hlookup] at h
      | some codec =>
        rw [hlookup] at h
        cases codec with
        | schema next =>
          obtain ⟨path, hlength, hmem, hpairs⟩ := ih h
          have hfirst : Aliases schemas name next := hlookup
          refine ⟨name :: path, by rw [List.length_cons, hlength], fun x hx => ?_, ?_⟩
          · obtain rfl | hx := List.mem_cons.mp hx
            · refine ⟨?_, .refl⟩
              obtain ⟨pre, post, heq, -⟩ := List.lookup_eq_some_iff.mp hlookup
              simp [heq]
            · exact ⟨(hmem x hx).1, .head hfirst (hmem x hx).2⟩
          · exact .cons (fun x hx => .head' hfirst (hmem x hx).2) hpairs
        | _ => simp [resolveWith] at h

/-- Without alias cycles every codec resolves. -/
theorem NoAliasCycles.resolve_isSome (h : NoAliasCycles schemas) (codec : JsonCodec) :
    (resolve schemas codec).isSome = true := by
  unfold resolve
  cases codec with
  | schema name =>
    cases hr : resolveWith schemas (schemas.length + 1) (.schema name) with
    | some resolved => rfl
    | none =>
      obtain ⟨path, hlength, hmem, hpairs⟩ := path_of_resolveWith hr
      have hnodup : path.Nodup := by
        apply hpairs.imp
        rintro a _ hab rfl
        exact h a hab
      have hle := hnodup.length_le_of_subset fun x hx => (hmem x hx).1
      rw [List.length_map] at hle
      omega
  | _ => rfl

theorem exists_convertId {value : Json} (h : CanonicalId value) :
    ∃ w, convertId false value = some w := by
  cases value with
  | string id =>
    obtain ⟨n, hn, rfl⟩ := h id rfl
    refine ⟨.number ⟨idBits n⟩, ?_⟩
    rw [convertId, encodeId_toString hn]
    rfl
  | _ => exact ⟨_, rfl⟩

theorem exists_convertScalar {value : Json} {codec : JsonCodec}
    (hresolve : (resolve schemas codec).isSome = true)
    (h : resolve schemas codec = some .id → CanonicalId value) :
    ∃ w, convertScalar schemas false value codec = some w := by
  obtain ⟨resolved, hr⟩ := Option.isSome_iff_exists.mp hresolve
  rw [convertScalar, hr]
  cases resolved with
  | id => exact exists_convertId (h hr)
  | _ => exact ⟨_, rfl⟩

mutual

theorem exists_encode (hresolve : ∀ codec, (resolve schemas codec).isSome = true) :
    ∀ (value : Json) (codec : JsonCodec), AtIds schemas CanonicalId value codec →
      ∃ w, convertJson schemas false value codec = some w
  | .null, codec, _ => ⟨.null, by rw [convertJson]⟩
  | .array items, codec, h => by
    obtain ⟨resolved, hr⟩ := Option.isSome_iff_exists.mp (hresolve codec)
    rw [AtIds, hr] at h
    rw [convertJson, hr]
    cases resolved with
    | plain => exact ⟨_, rfl⟩
    | id => exact exists_convertId h
    | _ =>
      obtain ⟨items', hi⟩ := exists_encodeItems hresolve items _ h
      exact ⟨.array items', by simp [hi]⟩
  | .object entries, codec, h => by
    obtain ⟨resolved, hr⟩ := Option.isSome_iff_exists.mp (hresolve codec)
    rw [AtIds, hr] at h
    rw [convertJson, hr]
    cases resolved with
    | plain => exact ⟨_, rfl⟩
    | id => exact exists_convertId h
    | _ =>
      obtain ⟨entries', he⟩ := exists_encodeEntries hresolve entries _ h
      exact ⟨.object entries', by simp [he]⟩
  | .string id, codec, h => by
    rw [AtIds] at h
    rw [convertJson]
    exact exists_convertScalar (hresolve codec) h
  | .bool b, codec, h => by
    rw [AtIds] at h
    rw [convertJson]
    exact exists_convertScalar (hresolve codec) h
  | .number id, codec, h => by
    rw [AtIds] at h
    rw [convertJson]
    exact exists_convertScalar (hresolve codec) h

theorem exists_encodeItems (hresolve : ∀ codec, (resolve schemas codec).isSome = true) :
    ∀ (items : List Json) (codec : JsonCodec), AtItemIds schemas CanonicalId items codec →
      ∃ ws, convertItems schemas false items codec = some ws
  | [], codec, _ => ⟨[], by rw [convertItems]⟩
  | value :: rest, codec, h => by
    rw [AtItemIds] at h
    obtain ⟨w, hw⟩ := exists_encode hresolve value codec h.1
    obtain ⟨ws, hws⟩ := exists_encodeItems hresolve rest codec h.2
    exact ⟨w :: ws, by simp [convertItems, hw, hws]⟩

theorem exists_encodeEntries (hresolve : ∀ codec, (resolve schemas codec).isSome = true) :
    ∀ (entries : List (String × Json)) (fields : List (String × JsonCodec)),
      AtEntryIds schemas CanonicalId entries fields →
      ∃ ws, convertEntries schemas false entries fields = some ws
  | [], fields, _ => ⟨[], by rw [convertEntries]⟩
  | (key, value) :: rest, fields, h => by
    rw [AtEntryIds] at h
    obtain ⟨w, hw⟩ := exists_encode hresolve value _ h.1
    obtain ⟨ws, hws⟩ := exists_encodeEntries hresolve rest fields h.2
    exact ⟨(key, w) :: ws, by simp [convertEntries, hw, hws]⟩

end

/-- An encoded id is a number, or the value as it was. -/
theorem convertId_spec {value w : Json} (h : CanonicalId value)
    (hw : convertId false value = some w) :
    convertId false w = some w ∧ (NotNumber value → convertId true w = some value) ∧
      ((∃ id number, value = .string id ∧ w = .number number) ∨ w = value) := by
  cases value with
  | string id =>
    obtain ⟨n, hn, rfl⟩ := h id rfl
    rw [convertId, encodeId_toString hn] at hw
    obtain rfl := Option.some.inj hw
    refine ⟨rfl, fun _ => ?_, .inl ⟨_, _, rfl, rfl⟩⟩
    rw [convertId, if_pos rfl, decodeId_idBits hn]
  | number id =>
    obtain rfl := Option.some.inj hw
    exact ⟨rfl, fun hnot => absurd rfl (hnot id), .inr rfl⟩
  | _ =>
    obtain rfl := Option.some.inj hw
    exact ⟨rfl, fun _ => rfl, .inr rfl⟩

/-- What encoding gives: a fixed point of encoding that decodes to the value. -/
structure Encoded (schemas : Schemas) (value w : Json) (codec : JsonCodec) : Prop where
  idempotent : convertJson schemas false w codec = some w
  restored : AtIds schemas NotNumber value codec → convertJson schemas true w codec = some value
  outside : SameOutsideIds schemas value w codec

theorem convertScalar_plain {outbound : Bool} {value w : Json} {codec : JsonCodec}
    (hid : resolve schemas codec ≠ some .id)
    (hw : convertScalar schemas outbound value codec = some w) :
    w = value ∧ ∀ outbound, convertScalar schemas outbound value codec = some value := by
  unfold convertScalar at hw ⊢
  cases hr : resolve schemas codec with
  | none => simp [hr] at hw
  | some resolved =>
    rw [hr] at hw
    cases resolved with
    | id => exact absurd hr hid
    | _ => exact ⟨(Option.some.inj hw).symm, fun _ => rfl⟩

theorem encodeBool_spec {b : Bool} {w : Json} {codec : JsonCodec}
    (hw : convertJson schemas false (.bool b) codec = some w) :
    Encoded schemas (.bool b) w codec := by
  rw [convertJson] at hw
  by_cases hid : resolve schemas codec = some .id
  · rw [convertScalar, hid] at hw
    obtain rfl := Option.some.inj hw
    refine ⟨?_, fun _ => ?_, ?_⟩
    · rw [convertJson, convertScalar, hid]
      rfl
    · rw [convertJson, convertScalar, hid]
      rfl
    · rw [SameOutsideIds]
  · obtain ⟨rfl, hall⟩ := convertScalar_plain hid hw
    refine ⟨?_, fun _ => ?_, ?_⟩
    · rw [convertJson, hall]
    · rw [convertJson, hall]
    · rw [SameOutsideIds]

theorem encodeNumber_spec {id : Double} {w : Json} {codec : JsonCodec}
    (hw : convertJson schemas false (.number id) codec = some w) :
    Encoded schemas (.number id) w codec := by
  rw [convertJson] at hw
  by_cases hid : resolve schemas codec = some .id
  · rw [convertScalar, hid] at hw
    obtain rfl : Json.number id = w := Option.some.inj hw
    refine ⟨?_, fun hnot => ?_, ?_⟩
    · rw [convertJson, convertScalar, hid]
      rfl
    · rw [AtIds] at hnot
      exact absurd rfl (hnot hid id)
    · rw [SameOutsideIds]
  · obtain ⟨rfl, hall⟩ := convertScalar_plain hid hw
    refine ⟨?_, fun _ => ?_, ?_⟩
    · rw [convertJson, hall]
    · rw [convertJson, hall]
    · rw [SameOutsideIds]

theorem encodeString_spec {id : String} {w : Json} {codec : JsonCodec}
    (h : AtIds schemas CanonicalId (.string id) codec)
    (hw : convertJson schemas false (.string id) codec = some w) :
    Encoded schemas (.string id) w codec := by
  rw [convertJson] at hw
  rw [AtIds] at h
  by_cases hid : resolve schemas codec = some .id
  · rw [convertScalar, hid] at hw
    obtain ⟨hidem, hback, hsame⟩ := convertId_spec (h hid) hw
    obtain ⟨_, number, -, rfl⟩ | rfl := hsame
    · refine ⟨?_, fun _ => ?_, ?_⟩
      · rw [convertJson, convertScalar, hid]
        exact hidem
      · rw [convertJson, convertScalar, hid]
        exact hback (by rintro _ ⟨⟩)
      · rw [SameOutsideIds]
        exact .inr ⟨hid, number, rfl⟩
    · refine ⟨?_, fun _ => ?_, ?_⟩
      · rw [convertJson, convertScalar, hid]
        exact hidem
      · rw [convertJson, convertScalar, hid]
        rfl
      · rw [SameOutsideIds]
        exact .inl rfl
  · obtain ⟨rfl, hall⟩ := convertScalar_plain hid hw
    refine ⟨?_, fun _ => ?_, ?_⟩
    · rw [convertJson, hall]
    · rw [convertJson, hall]
    · rw [SameOutsideIds]
      exact .inl rfl

mutual

theorem encode_spec : ∀ (value w : Json) (codec : JsonCodec),
    AtIds schemas CanonicalId value codec → convertJson schemas false value codec = some w →
      Encoded schemas value w codec
  | .null, w, codec, _, hw => by
    rw [convertJson] at hw
    obtain rfl := Option.some.inj hw
    exact ⟨by rw [convertJson], fun _ => by rw [convertJson], by rw [SameOutsideIds]⟩
  | .bool _, _, _, _, hw => encodeBool_spec hw
  | .number _, _, _, _, hw => encodeNumber_spec hw
  | .string _, _, _, h, hw => encodeString_spec h hw
  | .array items, w, codec, h, hw => by
    rw [convertJson] at hw
    rw [AtIds] at h
    cases hr : resolve schemas codec with
    | none => simp [hr] at hw
    | some resolved =>
      rw [hr] at hw h
      cases resolved with
      | plain =>
        obtain rfl := Option.some.inj hw
        refine ⟨by rw [convertJson, hr], fun _ => by rw [convertJson, hr], ?_⟩
        rw [SameOutsideIds, hr]
      | id =>
        obtain rfl := Option.some.inj hw
        refine ⟨by rw [convertJson, hr]; rfl, fun _ => by rw [convertJson, hr]; rfl, ?_⟩
        rw [SameOutsideIds, hr]
      | _ =>
        obtain ⟨items', hi, rfl⟩ := Option.map_eq_some_iff.mp hw
        obtain ⟨hidem, hrest, hout⟩ := encodeItems_spec items items' _ h hi
        refine ⟨?_, fun hnot => ?_, ?_⟩
        · rw [convertJson, hr]
          simp [hidem]
        · rw [AtIds, hr] at hnot
          rw [convertJson, hr]
          simp [hrest hnot]
        · rw [SameOutsideIds, hr]
          exact ⟨items', rfl, hout⟩
  | .object entries, w, codec, h, hw => by
    rw [convertJson] at hw
    rw [AtIds] at h
    cases hr : resolve schemas codec with
    | none => simp [hr] at hw
    | some resolved =>
      rw [hr] at hw h
      cases resolved with
      | plain =>
        obtain rfl := Option.some.inj hw
        refine ⟨by rw [convertJson, hr], fun _ => by rw [convertJson, hr], ?_⟩
        rw [SameOutsideIds, hr]
      | id =>
        obtain rfl := Option.some.inj hw
        refine ⟨by rw [convertJson, hr]; rfl, fun _ => by rw [convertJson, hr]; rfl, ?_⟩
        rw [SameOutsideIds, hr]
      | _ =>
        obtain ⟨entries', he, rfl⟩ := Option.map_eq_some_iff.mp hw
        obtain ⟨hidem, hrest, hout⟩ := encodeEntries_spec entries entries' _ h he
        refine ⟨?_, fun hnot => ?_, ?_⟩
        · rw [convertJson, hr]
          simp [hidem]
        · rw [AtIds, hr] at hnot
          rw [convertJson, hr]
          simp [hrest hnot]
        · rw [SameOutsideIds, hr]
          exact ⟨entries', rfl, hout⟩

theorem encodeItems_spec : ∀ (items ws : List Json) (codec : JsonCodec),
    AtItemIds schemas CanonicalId items codec → convertItems schemas false items codec = some ws →
      convertItems schemas false ws codec = some ws ∧
        (AtItemIds schemas NotNumber items codec →
          convertItems schemas true ws codec = some items) ∧
        SameItems schemas items ws codec
  | [], ws, codec, _, hws => by
    rw [convertItems] at hws
    obtain rfl := Option.some.inj hws
    exact ⟨by rw [convertItems], fun _ => by rw [convertItems], by rw [SameItems]⟩
  | value :: rest, ws, codec, h, hws => by
    rw [AtItemIds] at h
    rw [convertItems] at hws
    cases hw : convertJson schemas false value codec with
    | none => simp [hw] at hws
    | some w =>
      rw [hw] at hws
      obtain ⟨rest', hrest, rfl⟩ := Option.map_eq_some_iff.mp hws
      obtain ⟨hidem, hback, hout⟩ := encode_spec value w codec h.1 hw
      obtain ⟨hidems, hbacks, houts⟩ := encodeItems_spec rest rest' codec h.2 hrest
      refine ⟨?_, fun hnot => ?_, ?_⟩
      · simp [convertItems, hidem, hidems]
      · rw [AtItemIds] at hnot
        simp [convertItems, hback hnot.1, hbacks hnot.2]
      · rw [SameItems]
        exact ⟨w, rest', rfl, hout, houts⟩

theorem encodeEntries_spec :
    ∀ (entries ws : List (String × Json)) (fields : List (String × JsonCodec)),
      AtEntryIds schemas CanonicalId entries fields →
      convertEntries schemas false entries fields = some ws →
        convertEntries schemas false ws fields = some ws ∧
          (AtEntryIds schemas NotNumber entries fields →
            convertEntries schemas true ws fields = some entries) ∧
          SameEntries schemas entries ws fields
  | [], ws, fields, _, hws => by
    rw [convertEntries] at hws
    obtain rfl := Option.some.inj hws
    exact ⟨by rw [convertEntries], fun _ => by rw [convertEntries], by rw [SameEntries]⟩
  | (key, value) :: rest, ws, fields, h, hws => by
    rw [AtEntryIds] at h
    rw [convertEntries] at hws
    cases hw : convertJson schemas false value ((fields.lookup key).getD .plain) with
    | none => simp [hw] at hws
    | some w =>
      rw [hw] at hws
      obtain ⟨rest', hrest, rfl⟩ := Option.map_eq_some_iff.mp hws
      obtain ⟨hidem, hback, hout⟩ := encode_spec value w _ h.1 hw
      obtain ⟨hidems, hbacks, houts⟩ := encodeEntries_spec rest rest' fields h.2 hrest
      refine ⟨?_, fun hnot => ?_, ?_⟩
      · simp [convertEntries, hidem, hidems]
      · rw [AtEntryIds] at hnot
        simp [convertEntries, hback hnot.1, hbacks hnot.2]
      · rw [SameEntries]
        exact ⟨w, rest', rfl, hout, houts⟩

end

/-- Ids cross losslessly and in order, and so do JSON values: encoding succeeds, changes only
strings at ID positions and is idempotent, and decoding restores a value without numbers there. -/
theorem ids_cross_losslessly (n m : Nat) (schemas : Schemas) (value : Json) (codec : JsonCodec) :
    (n < 2 ^ 63 → ∃ d, encodeId (toString n) = some d ∧ d.Normal ∧ decodeId d = toString n) ∧
    (n < m → m < 2 ^ 63 → ∃ a b, encodeId (toString n) = some a ∧ encodeId (toString m) = some b ∧
      a.Lt b) ∧
    (NoAliasCycles schemas → AtIds schemas CanonicalId value codec →
      ∃ w, encodeJsonIds schemas value codec = some w ∧
        (AtIds schemas NotNumber value codec → decodeJsonIds schemas w codec = some value) ∧
        encodeJsonIds schemas w codec = some w ∧ SameOutsideIds schemas value w codec) := by
  refine ⟨fun hn => ?_, fun hlt hm => ?_, fun hcycles hids => ?_⟩
  · exact ⟨_, encodeId_toString hn, normal_idBits hn, decodeId_idBits hn⟩
  · exact ⟨_, _, encodeId_toString (Nat.lt_trans hlt hm), encodeId_toString hm, idBits_lt hlt hm⟩
  · obtain ⟨w, hw⟩ := exists_encode hcycles.resolve_isSome value codec hids
    obtain ⟨hidem, hback, hout⟩ := encode_spec value w codec hids hw
    exact ⟨w, hw, hback, hidem, hout⟩

theorem noAliasCycles_array (name : String) (item : JsonCodec) :
    NoAliasCycles [(name, .array item)] := by
  intro a hcycle
  obtain ⟨b, hb, -⟩ := Relation.TransGen.head'_iff.mp hcycle
  unfold Aliases at hb
  by_cases ha : a = name
  · simp [List.lookup, ha] at hb
  · simp [List.lookup, beq_false_of_ne ha] at hb

/-- A list of ids under a schema name. -/
theorem ids_cross_losslessly_array :
    (∃ a b, encodeId (toString 6) = some a ∧ encodeId (toString 7) = some b ∧ a.Lt b) ∧
    ∃ w, encodeJsonIds [("Ids", .array .id)] (.array [.string (toString 6), .null]) (.schema "Ids") =
        some w ∧
      decodeJsonIds [("Ids", .array .id)] w (.schema "Ids") =
        some (.array [.string (toString 6), .null]) := by
  obtain ⟨-, hlt, hjson⟩ := ids_cross_losslessly 6 7 [("Ids", .array .id)]
    (.array [.string (toString 6), .null]) (.schema "Ids")
  refine ⟨hlt (by decide) (by decide), ?_⟩
  have hr : resolve [("Ids", .array .id)] (.schema "Ids") = some (.array .id) := rfl
  obtain ⟨w, hw, hback, -, -⟩ := hjson (noAliasCycles_array _ _) (by
    simp only [AtIds, AtItemIds, hr, JsonCodec.item]
    refine ⟨fun _ => ?_, fun _ => ?_, trivial⟩
    · rintro _ ⟨⟩
      exact ⟨6, by decide, rfl⟩
    · rintro _ ⟨⟩)
  refine ⟨w, hw, hback ?_⟩
  simp only [AtIds, AtItemIds, hr, JsonCodec.item]
  exact ⟨fun _ => (by rintro _ ⟨⟩), fun _ => (by rintro _ ⟨⟩), trivial⟩

/-- A number at an ID position is taken for an encoded id. -/
theorem number_at_id_decoded :
    ∃ w, encodeJsonIds [] (.number ⟨4607182418800017408⟩) .id = some w ∧
      AtIds [] CanonicalId (.number ⟨4607182418800017408⟩) .id ∧
      NoAliasCycles [] ∧
      decodeJsonIds [] w .id ≠ some (.number ⟨4607182418800017408⟩) := by
  refine ⟨.number ⟨4607182418800017408⟩, by rfl, ?_, ?_, ?_⟩
  · rw [AtIds]
    rintro _ _ ⟨⟩
  · intro a hcycle
    obtain ⟨b, hb, -⟩ := Relation.TransGen.head'_iff.mp hcycle
    cases hb
  · rintro ⟨⟩

end Chahua.Api
